import Meshcore.NativeNode

/-! How far the code around a chip can move it. Between two messages of the engine a
bridge only takes accesses to its chip and sends what they leave pending, whatever the
application is; what such a sequence keeps is shown here once for all of them. -/
namespace Meshcore

open Checked Runs

variable {κ σ : Type} {stuckIrqMs : UInt32}

namespace Radio

/-- `r` became `r'` by accesses of which none handles a `kTxDone`, and by `drainTx`. -/
inductive Evolves (r : Radio stuckIrqMs) : Radio stuckIrqMs → Prop where
  | refl : Evolves r r
  | perform {op : ChipOp} {other : op ≠ .drain} (earlier : Evolves r a)
    (performed : a.perform op other = some b) (plain : op ≠ .txDone) : Evolves r b
  | drainTx (earlier : Evolves r a) : Evolves r a.drainTx

variable {a b c r r' : Radio stuckIrqMs}

theorem Evolves.trans (first : Evolves a b) (rest : Evolves b c) : Evolves a c := by
  induction rest with
  | refl => exact first
  | perform _ performed plain ih => exact .perform ih performed plain
  | drainTx _ ih => exact .drainTx ih

theorem Evolves.access {other : op ≠ .drain} (performed : r.perform op other = some r')
    (plain : op ≠ .txDone) : Evolves r r' :=
  .perform .refl performed plain

/-- Nothing but frames goes to the engine. -/
theorem Evolves.relays (evolves : Evolves r r') :
    ∃ sent : List { p : List UInt8 // p.length ≤ 255 },
      r'.toEngine = r.toEngine ++ sent.map .frame := by
  induction evolves with
  | refl => exact ⟨[],by simp⟩
  | perform _ performed _ ih => exact (perform_eq_some performed).2 ▸ ih
  | @drainTx a _ ih =>
    obtain ⟨sent,same⟩ := ih
    rw [Radio.drainTx]
    split
    next held =>
      let last : { p : List UInt8 // p.length ≤ 255 } :=
        ⟨a.chip.state.pendingTx,Chip.pending_short _ a.chip.replay held⟩
      refine ⟨sent ++ [last],?_⟩
      have grown := congrArg (· ++ [Outgoing.frame last]) same
      simpa using grown
    next => exact ⟨sent,same⟩

end Radio

open Radio

theorem SimHal.advanceUs_evolves {h h' : SimHal κ stuckIrqMs} (advanced : h.advanceUs us = some h') :
    Evolves h.radio h'.radio := by
  obtain ⟨_,ticked⟩ := advanceUs_ticks advanced
  exact .access ticked (by simp)

theorem SimHal.spiTransfer_evolves {h h' : SimHal κ stuckIrqMs}
    (transferred : h.spiTransfer out = some (h',inp)) : Evolves h.radio h'.radio := by
  obtain ⟨_,advanced,_,performed⟩ := spiTransfer_performs transferred
  exact .perform (advanceUs_evolves advanced) performed (by simp)

theorem SimHal.beginTick_evolves {h h' : SimHal κ stuckIrqMs}
    (begun : h.beginTick networkMs = some h') : Evolves h.radio h'.radio := by
  obtain ⟨_,ticked⟩ := beginTick_ticks begun
  exact .access ticked (by simp)

theorem SimHal.Uses.evolves {h h' : SimHal κ stuckIrqMs} (used : h.Uses h') :
    Evolves h.radio h'.radio := by
  cases used with
  | spiTransfer transferred => exact spiTransfer_evolves transferred
  | delay waited | delayMicroseconds waited | yield waited => exact advanceUs_evolves waited
  | attachInterrupt | detachInterrupt => exact .refl

namespace NativeNode

/-- The application reaches its chip only through the hardware. -/
theorem exec_evolves (p : Prog κ σ) {n n' : NativeNode κ σ stuckIrqMs} (ran : n.exec p = some n') :
    Evolves n.radio n'.radio :=
  exec_rel (fun a b => Evolves a.radio b.radio) .trans (fun _ _ used => used.evolves)
    (fun _ _ _ _ _ => .refl) p ran

variable (app : App κ σ)

theorem servicePendingIrq_evolves {n n' : NativeNode κ σ stuckIrqMs}
    (serviced : n.servicePendingIrq app = some n') : Evolves n.radio n'.radio := by
  obtain rfl | ⟨_,_,ran,rfl⟩ := servicePendingIrq_cases app serviced
  · exact .refl
  · have evolves := exec_evolves _ ran
    exact evolves

theorem pass_evolves {n n' : NativeNode κ σ stuckIrqMs} (passed : n.pass app = some n') :
    Evolves n.radio n'.radio := by
  obtain ⟨_,_,_,begun,serviced,looped,rfl⟩ := pass_parts app passed
  have interrupted := servicePendingIrq_evolves app serviced
  have ran := interrupted.trans (exec_evolves _ looped)
  exact .drainTx ((SimHal.beginTick_evolves begun).trans ran)

theorem tickTo_evolves {n n' : NativeNode κ σ stuckIrqMs} (ticked : n.tickTo app atMs = some n') :
    Evolves n.radio n'.radio := by
  rw [tickTo_eq] at ticked
  refine repeated_rel (fun a b : NativeNode κ σ stuckIrqMs => Evolves a.radio b.radio)
    (fun _ => .refl) (fun _ _ _ => .trans) ?_ _ ticked
  intro a b turn
  have evolves := pass_evolves app turn
  exact evolves

end NativeNode

namespace RadioServer

theorem serviceQemu_evolves {s s' : RadioServer stuckIrqMs} (serviced : s.serviceQemu m = some s') :
    Evolves s.radio s'.radio := by
  rcases (serviceQemu_cases serviced).2 with ⟨_,same⟩ | ⟨op,_,asked,performed⟩
  · exact same ▸ .refl
  · exact .access performed (QemuMsg.op?_pins asked).1

theorem tickOnce_evolves {s s' : RadioServer stuckIrqMs} (ticked : s.tickOnce = some s') :
    Evolves s.radio s'.radio := by
  obtain ⟨_,performed,rfl⟩ := tickOnce_ticks ticked
  exact .drainTx (.access performed (by simp))

theorem tickTo_evolves {s s' : RadioServer stuckIrqMs} (ticked : s.tickTo atMs = some s') :
    Evolves s.radio s'.radio := by
  rw [tickTo_eq] at ticked
  exact repeated_rel (fun a b : RadioServer stuckIrqMs => Evolves a.radio b.radio)
    (fun _ => .refl) (fun _ _ _ => .trans) (fun _ _ turn => tickOnce_evolves turn) _ ticked

end RadioServer

end Meshcore
