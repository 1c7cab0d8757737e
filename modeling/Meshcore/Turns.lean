import Meshcore.Accesses
import Meshcore.Completion

/-! Turns of the bridges as runs of a session. Whatever a bridge does with one message,
application code included, is a sequence of accesses to its chip; only the message
that ends a transmission needs something of the engine. -/
namespace Meshcore

open Checked Runs

variable {κ σ : Type} {stuckIrqMs : UInt32}

namespace Radio

/-- `r` became `r'` by accesses of which none handles a `kTxDone`. -/
def Performs (r r' : Radio stuckIrqMs) : Prop :=
  ∃ ops : List ChipOp, .txDone ∉ ops ∧ run Chip.step r.chip.state ops = some r'.chip.state

theorem Performs.refl (r : Radio stuckIrqMs) : Performs r r := ⟨[],nofun,rfl⟩

theorem Performs.trans {a b c : Radio stuckIrqMs} (first : Performs a b) (rest : Performs b c) :
    Performs a c := by
  obtain ⟨ops,plain,ran⟩ := first
  obtain ⟨more,quiet,later⟩ := rest
  refine ⟨ops ++ more,?_,run_append_eq_some.mpr ⟨_,ran,later⟩⟩
  rw [List.mem_append]
  rintro (member | member)
  · exact plain member
  · exact quiet member

theorem Performs.perform {r r' : Radio stuckIrqMs} {other : op ≠ .drain}
    (performed : r.perform op other = some r') (plain : op ≠ .txDone) : Performs r r' := by
  refine ⟨[op],?_,?_⟩
  · simpa using Ne.symm plain
  · simp [(perform_eq_some performed).1]

theorem Performs.send (r : Radio stuckIrqMs) (m : Outgoing) (other : m.frame? = none) :
    Performs r (r.send m other) := ⟨[],nofun,rfl⟩

theorem Performs.drainTx (r : Radio stuckIrqMs) : Performs r r.drainTx := by
  rw [Radio.drainTx]
  split
  · exact ⟨[.drain],by simp,rfl⟩
  · exact .refl r

theorem Evolves.performs {r r' : Radio stuckIrqMs} (evolves : Evolves r r') : Performs r r' := by
  induction evolves with
  | refl => exact .refl r
  | perform _ performed plain ih => exact ih.trans (.perform performed plain)
  | drainTx _ ih => exact ih.trans (.drainTx _)

/-- What a bridge does to its radio with one message: accesses, or the end of a transmission. -/
inductive Turn (r r' : Radio stuckIrqMs) : Prop where
  | performs (performs : Performs r r')
  | ended (ended : r.transmitFinished = some r')

theorem Turn.access {r r' : Radio stuckIrqMs} {other : op ≠ .drain}
    (performed : r.perform op other = some r') : Turn r r' := by
  by_cases ends : op = .txDone
  · subst ends
    exact .ended performed
  · exact .performs (.perform performed ends)

end Radio

open Radio

namespace NativeNode

variable (app : App κ σ)

theorem flushConsole_performs (n : NativeNode κ σ stuckIrqMs) :
    Performs n.radio n.flushConsole.radio := by
  rw [flushConsole]
  split
  · exact .refl _
  · exact .send _ _ rfl

theorem handleTick_performs {n n' : NativeNode κ σ stuckIrqMs}
    (handled : n.handleTick app payload = some n') : Performs n.radio n'.radio := by
  obtain ⟨_,last,ticked,passed,rfl⟩ := handleTick_parts app handled
  have flushed := flushConsole_performs last
  have stats : Performs last.flushConsole.radio last.flushConsole.writeRadioStats.radio :=
    .send _ _ rfl
  have ack : Performs last.flushConsole.writeRadioStats.radio
    (last.flushConsole.writeRadioStats.radio.ack payload) := .send _ _ rfl
  have turns := (tickTo_evolves app ticked).trans (pass_evolves app passed)
  exact turns.performs.trans (flushed.trans (stats.trans ack))

theorem boot_performs {n : NativeNode κ σ stuckIrqMs} (booted : boot app stuckIrqMs = some n) :
    Performs (.init stuckIrqMs) n.radio := by
  simp only [boot, Option.bind_eq_bind, Option.bind_eq_some_iff, Option.some.injEq] at booted
  obtain ⟨set,ran,rfl⟩ := booted
  have setup : Evolves (.init stuckIrqMs) set.drainTx.radio := .drainTx (exec_evolves _ ran)
  exact setup.performs.trans (flushConsole_performs _)

theorem step_turn {n n' : NativeNode κ σ stuckIrqMs} (stepped : n.step app m = some n') :
    Turn n.radio n'.radio := by
  rw [step] at stepped
  split at stepped
  case isFalse => exact .performs (Option.some.inj stepped ▸ .refl _)
  rcases handle_cases app stepped with ⟨op,_,_,_,performed,rfl⟩ | ⟨_,handled⟩ | ⟨_,_,rfl⟩
  · exact .access performed
  · exact .performs (handleTick_performs app handled)
  · exact .performs (.refl _)

end NativeNode

namespace RadioServer

theorem handleTick_performs {s s' : RadioServer stuckIrqMs}
    (handled : s.handleTick payload = some s') : Performs s.radio s'.radio := by
  obtain ⟨before,radio,ticked,last,rfl⟩ := handleTick_ticks handled
  have turns : Evolves s.radio radio.drainTx :=
    .drainTx (.perform (tickTo_evolves ticked) last (by simp))
  exact turns.performs.trans ((Performs.send _ _ rfl).trans (.send _ _ rfl))

theorem serviceBridge_turn {s s' : RadioServer stuckIrqMs} (serviced : s.serviceBridge m = some s') :
    Turn s.radio s'.radio := by
  rcases serviceBridge_cases serviced with ⟨op,_,_,performed⟩ | ⟨_,handled⟩ | rfl
  · exact .access performed
  · exact .performs (handleTick_performs handled)
  · exact .performs (.refl _)

theorem step_turn {s s' : RadioServer stuckIrqMs} (stepped : s.step event = some s') :
    Turn s.radio s'.radio := by
  cases event with
  | qemu m =>
    simp only [step] at stepped
    split at stepped
    · exact .performs (serviceQemu_evolves stepped).performs
    · exact .performs (Option.some.inj stepped ▸ .refl _)
  | bridge m =>
    simp only [step] at stepped
    split at stepped
    · exact serviceBridge_turn stepped
    · exact .performs (Option.some.inj stepped ▸ .refl _)

end RadioServer

namespace Session

/-- A session follows any access its chip takes that handles no `kTxDone`. -/
theorem step_follows {t : Session stuckIrqMs} {next : Chip} (stepped : t.chip.step op = some next)
    (plain : op ≠ .txDone) :
    ∃ t', t.step (.chip op) = some t' ∧ t'.chip = next ∧ t'.toChip = t.toChip := by
  by_cases drains : op = .drain
  · subst drains
    obtain rfl := Option.some.inj stepped
    refine ⟨_,rfl,?_,rfl⟩
    show t.radio.drainTx.chip.state = t.radio.chip.state.takePending
    rw [Radio.drainTx]
    split
    · rfl
    next empty =>
      have free : t.radio.chip.state.hasPendingTx = false := by simpa using empty
      rw [Chip.takePending, ← free]
  · obtain ⟨radio,performed⟩ := t.radio.perform_of_step drains stepped
    have taken := (Radio.perform_eq_some performed).1
    have accessed := t.access_perform drains plain
    rw [performed, Option.map_some] at accessed
    exact ⟨_,accessed,Option.some.inj (taken.symm.trans stepped),rfl⟩

theorem run_follows {t : Session stuckIrqMs} {c : Chip} (ops : List ChipOp)
    (ran : run Chip.step t.chip ops = some c) (plain : .txDone ∉ ops) :
    ∃ t', run step t (ops.map .chip) = some t' ∧ t'.chip = c ∧ t'.toChip = t.toChip := by
  induction ops generalizing t with
  | nil => exact ⟨t,rfl,Option.some.inj ran,rfl⟩
  | cons op rest ih =>
    obtain ⟨next,first,ran⟩ := run_cons_eq_some.mp ran
    obtain ⟨other,plain⟩ := not_or.mp (mt List.mem_cons.mpr plain)
    obtain ⟨middle,stepped,rfl,kept⟩ := step_follows first (Ne.symm other)
    obtain ⟨t',later,same,still⟩ := ih ran plain
    exact ⟨t',run_cons_eq_some.mpr ⟨middle,stepped,later⟩,same,still.trans kept⟩

/-- A turn of either bridge is a run of any session its chip is in, provided that a
`kTxDone` has been sent to it if it is one that the turn handles. -/
theorem turn_follows {t : Session stuckIrqMs} {r r' : Radio stuckIrqMs} (same : t.chip = r.chip.state)
    (turn : Turn r r') (told : t.toChip ≠ []) :
    ∃ labels t', run step t labels = some t' ∧ t'.chip = r'.chip.state := by
  cases turn with
  | performs performs =>
    obtain ⟨ops,plain,ran⟩ := performs
    obtain ⟨t',later,chip,_⟩ := run_follows (t := t) ops (same ▸ ran) plain
    exact ⟨_,t',later,chip⟩
  | ended ended =>
    obtain ⟨k,rest,waiting⟩ := List.exists_cons_of_ne_nil told
    have finished := (Radio.perform_eq_some ended).1
    rw [← same] at finished
    have other : ChipOp.txDone ≠ .drain := by simp
    obtain ⟨radio,performed⟩ := t.radio.perform_of_step other finished
    have accessed := t.access_txDone waiting
    rw [Radio.transmitFinished, performed, Option.map_some] at accessed
    refine ⟨[.chip .txDone],_,run_cons_eq_some.mpr ⟨_,accessed,rfl⟩,?_⟩
    exact Option.some.inj ((Radio.perform_eq_some performed).1.symm.trans finished)

/-- An application's `setup` is a run of the session from its beginning. -/
theorem boot_follows {n : NativeNode κ σ stuckIrqMs} (app : App κ σ)
    (booted : NativeNode.boot app stuckIrqMs = some n) :
    ∃ labels t, run step (init stuckIrqMs) labels = some t ∧ t.chip = n.chip := by
  obtain ⟨ops,plain,ran⟩ := NativeNode.boot_performs app booted
  obtain ⟨t,later,chip,_⟩ := run_follows (t := init stuckIrqMs) ops ran plain
  exact ⟨_,t,later,chip⟩

end Session

end Meshcore
