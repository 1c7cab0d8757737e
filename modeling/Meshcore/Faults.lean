import Meshcore.EarlyTicks
import Meshcore.HalfDuplex
import Meshcore.LocalClock
import Meshcore.Library.Pacing

/-! The injected fault. It comes at ticks in receive mode, and there whenever its period
has passed since it last came, however long the chip has been otherwise engaged and
whatever the firmware has cleared. -/
namespace Meshcore

open Checked Flags Pacing Runs

/-- The ticks of a run leave the period of a fault room in the clock they are told by. -/
def Roomy (period : UInt32) (ops : List ChipOp) : Prop :=
  ∀ t ∈ ops.filterMap ChipOp.time?, t.toNat + period.toNat < UInt64.size

theorem roomy_append {period : UInt32} {pre post : List ChipOp} :
    Roomy period (pre ++ post) ↔ Roomy period pre ∧ Roomy period post := by
  simp [Roomy,or_imp,forall_and]

theorem roomy_singleton {period : UInt32} : Roomy period [op] ↔
    ∀ t, op.time? = some t → t.toNat + period.toNat < UInt64.size := by
  cases timed : op.time? <;> simp [Roomy,timed]

namespace Chip

variable {c d : Chip}

/-- When the fault has come, by the ticks that counted it. -/
def spurious (start : Chip) (ops : List ChipOp) : List ℕ :=
  history step (fun c op d times => match op.time? with
    | some t => if d.spuriousRaises = c.spuriousRaises then times else times ++ [t.toNat]
    | none => times) start [] ops

/-- The schedule moves at ticks in receive mode that find the fault due, and nowhere else. -/
theorem step_faults (stepped : c.step op = some d) : d.stuckIrqMs = c.stuckIrqMs ∧
    (d.nextSpuriousMs,d.spuriousRaises) = match op.time? with
      | some t => if c.mode = .rx ∧ c.FaultDue t then
          (t + c.stuckIrqMs.toUInt64,c.spuriousRaises + 1)
        else (c.nextSpuriousMs,c.spuriousRaises)
      | none => (c.nextSpuriousMs,c.spuriousRaises) := by
  cases timed : op.time? with
  | none =>
    obtain ⟨books,period⟩ := step_books stepped timed
    exact ⟨period,congrArg (fun b : Books => (b.nextSpuriousMs,b.spuriousRaises)) books⟩
  | some t =>
    obtain rfl := ChipOp.time?_eq_some.mp timed
    refine ⟨congrArg Settings.stuckIrqMs (tick_settings stepped),?_⟩
    by_cases hears : c.mode = .rx
    · simpa [hears] using tick_faults hears stepped
    · have deaf : (c.accrueBusy t).mode ≠ .rx := hears
      have books := tick_books stepped
      rw [injectFault_of_ne deaf] at books
      refine Eq.trans ?_ (if_neg fun both => hears both.1).symm
      exact congrArg (fun b : Books => (b.nextSpuriousMs,b.spuriousRaises)) books

theorem step_raises_iff (stepped : c.step op = some d) : d.spuriousRaises ≠ c.spuriousRaises ↔
    ∃ t, op = .tick t ∧ c.mode = .rx ∧ c.FaultDue t := by
  have moves := (step_faults stepped).2
  cases timed : op.time? with
  | none =>
    rw [timed] at moves
    refine iff_of_false (fun raised => raised (Prod.mk.inj moves).2) ?_
    rintro ⟨t,rfl,_⟩
    cases timed
  | some t =>
    obtain rfl := ChipOp.time?_eq_some.mp timed
    rw [timed] at moves
    simp only at moves
    split at moves
    next due =>
      obtain ⟨_,counted⟩ := Prod.mk.inj moves
      refine iff_of_true ?_ ⟨t,rfl,due⟩
      rw [counted, ← UInt32.toNat_inj.ne, UInt32.toNat_add, UInt32.toNat_one]
      have bound := c.spuriousRaises.toNat_lt
      omega
    next rests =>
      refine iff_of_false (fun raised => raised (Prod.mk.inj moves).2) ?_
      rintro ⟨u,same,due⟩
      obtain rfl := ChipOp.tick.inj same
      exact rests due

/-- The schedule a chip is on, given when the fault has come. -/
structure Scheduled (N : UInt32) (c : Chip) (times : List ℕ) : Prop where
  period : c.stuckIrqMs = N
  next : c.nextSpuriousMs.toNat = (times.getLast?.map (· + N.toNat)).getD 0
  count : c.spuriousRaises = UInt32.ofNat times.length
  paced : Paced N.toNat times

variable {N : UInt32} {times : List ℕ}

/-- The fault is due once its period has passed. -/
theorem Scheduled.due_iff (scheduled : Scheduled N c times) (positive : 0 < N) (t : UInt64) :
    c.FaultDue t ↔ ∀ last ∈ times.getLast?, last + N.toNat ≤ t.toNat := by
  have next := scheduled.next
  rw [FaultDue, scheduled.period, ge_iff_le, UInt64.le_iff_toNat_le, next]
  simp only [gt_iff_lt, positive, true_and]
  cases times.getLast? with
  | none => simp
  | some last => simp

theorem Scheduled.raises_iff (scheduled : Scheduled N c times) (positive : 0 < N)
    (stepped : c.step op = some d) : d.spuriousRaises ≠ c.spuriousRaises ↔ ∃ t, op = .tick t ∧
      c.mode = .rx ∧ ∀ last ∈ times.getLast?, last + N.toNat ≤ t.toNat := by
  rw [step_raises_iff stepped]
  exact exists_congr fun t => and_congr_right fun _ => and_congr_right fun _ =>
    scheduled.due_iff positive t

theorem scheduled_step (scheduled : Scheduled N c times) (positive : 0 < N)
    (stepped : c.step op = some d) (roomy : Roomy N [op]) :
    Scheduled N d (match op.time? with
      | some t => if d.spuriousRaises = c.spuriousRaises then times else times ++ [t.toNat]
      | none => times) := by
  obtain ⟨period,moves⟩ := step_faults stepped
  have raises := step_raises_iff stepped
  have kept (same : (d.nextSpuriousMs,d.spuriousRaises) = (c.nextSpuriousMs,c.spuriousRaises)) :
      Scheduled N d times := by
    obtain ⟨next,count⟩ := Prod.mk.inj same
    exact ⟨period.trans scheduled.period,next ▸ scheduled.next,count.trans scheduled.count,
      scheduled.paced⟩
  cases timed : op.time? with
  | none =>
    rw [timed] at moves
    exact kept moves
  | some t =>
    obtain rfl := ChipOp.time?_eq_some.mp timed
    simp only [timed] at moves ⊢
    split at moves
    next due =>
      obtain ⟨next,count⟩ := Prod.mk.inj moves
      rw [if_neg (raises.mpr ⟨t,rfl,due⟩)]
      have room := roomy_singleton.mp roomy t timed
      refine ⟨period.trans scheduled.period,?_,?_,?_⟩
      · rw [next, scheduled.period, UInt64.toNat_add, UInt32.toNat_toUInt64]
        simp only [List.getLast?_concat, Option.map_some, Option.getD_some]
        exact Nat.mod_eq_of_lt room
      · rw [count, scheduled.count, List.length_append, UInt32.ofNat_add]
        rfl
      · exact scheduled.paced.concat ((scheduled.due_iff positive t).mp due.2)
    next rests =>
      rw [if_pos (Prod.mk.inj moves).2]
      exact kept moves

theorem run_scheduled (positive : 0 < N) (reached : run step (new N) ops = some c)
    (roomy : Roomy N ops) : Scheduled N c (spurious (new N) ops) := by
  refine run_induction (motive := fun ops c => Roomy N ops →
    Scheduled N c (spurious (new N) ops)) ?_ ?_ ops reached roomy
  · exact fun _ => ⟨rfl,rfl,rfl,.nil⟩
  · intro ops c op d ran stepped scheduled roomy
    obtain ⟨before,last⟩ := roomy_append.mp roomy
    rw [spurious, history_concat ran stepped]
    exact scheduled_step (scheduled before) positive stepped last

/-- The fault has come at times that have been. -/
theorem spurious_past (reached : run step (new N) ops = some c) (timely : Timely ops) :
    ∀ t ∈ spurious (new N) ops, t ≤ (signal ops).clock.toNat := by
  refine run_induction (motive := fun ops _ => Timely ops →
    ∀ t ∈ spurious (new N) ops, t ≤ (signal ops).clock.toNat) ?_ ?_ ops reached timely
  · simp [spurious]
  · intro ops c op d ran stepped past timely
    rw [spurious, history_concat ran stepped, signal_concat]
    cases timed : op.time? with
    | none =>
      rw [Signal.hear_untimed _ timed]
      exact past timely.prefix
    | some t =>
      obtain rfl := ChipOp.time?_eq_some.mp timed
      have after := UInt64.le_iff_toNat_le.mp (signal_bounds ops t timely).1
      have earlier (u : ℕ) (member : u ∈ spurious (new N) ops) : u ≤ t.toNat :=
        Nat.le_trans (past timely.prefix u member) after
      intro u member
      simp only at member
      split at member
      · exact earlier u member
      · rcases List.mem_append.mp member with before | last
        · exact earlier u before
        · exact Nat.le_of_eq (List.mem_singleton.mp last)

/-- The injected fault is paced, and confined to ticks in receive mode. It comes at each of
these that is a period on from its last coming, or the first, and one at a time; what the
firmware clears does not move it. -/
theorem faults_paced (positive : 0 < N) (reached : run step (new N) ops = some c)
    (timely : Timely ops) (roomy : Roomy N ops) :
    (spurious (new N) ops).Pairwise (fun a b => a + N.toNat ≤ b) ∧
      c.spuriousRaises.toNat ≤ (signal ops).clock.toNat / N.toNat + 1 ∧
      (∀ op d, c.step op = some d → (d.spuriousRaises ≠ c.spuriousRaises ↔ ∃ t, op = .tick t ∧
        c.mode = .rx ∧ ∀ last ∈ (spurious (new N) ops).getLast?, last + N.toNat ≤ t.toNat)) ∧
      (∀ op d, c.step op = some d → d.spuriousRaises ≠ c.spuriousRaises →
        d.spuriousRaises = c.spuriousRaises + 1 ∧ any d.irq kIrqPreambleDetected = true) ∧
      ∀ clear d, opcode? (arg clear 0) = some .clearIrqStatus →
        c.step (.spiTransfer clear) = some d → d.mode = c.mode ∧
          spurious (new N) (ops ++ [.spiTransfer clear]) = spurious (new N) ops := by
  have scheduled := run_scheduled positive reached roomy
  have many := scheduled.paced.length_le (UInt32.lt_iff_toNat_lt.mp positive)
    (spurious_past reached timely)
  refine ⟨scheduled.paced,?_,fun op d stepped => scheduled.raises_iff positive stepped,?_,?_⟩
  · rw [scheduled.count, UInt32.toNat_ofNat']
    exact Nat.le_trans (Nat.mod_le _ _) many
  · intro op d stepped raised
    obtain ⟨t,rfl,hears,due⟩ := (step_raises_iff stepped).mp raised
    have moves := (step_faults stepped).2
    rw [ChipOp.time?_eq_some.mpr rfl] at moves
    refine ⟨(Prod.mk.inj (moves.trans (if_pos ⟨hears,due⟩))).2,?_⟩
    rw [tick_irq stepped, any_or, Bool.or_eq_true]
    exact .inr ((any_raised_tick c t _).mpr ⟨hears,.inl ⟨due,by decide⟩⟩)
  · intro clear d code stepped
    have written : clear ≠ [] := by
      rintro rfl
      simp [arg,opcode?,Opcode.all,Opcode.byte] at code
    have mode := step_mode stepped
    simp only [event, if_neg written, modeAfter, code] at mode
    refine ⟨mode,?_⟩
    rw [spurious, history_concat reached stepped]
    rfl

/-- A period of ten, cleared as soon as it comes and then out of receive mode for two. -/
theorem faults_paced_cleared : ∃ c : Chip,
    run step (new 10) [.spiTransfer [0x82,0,0,0],.tick 3,.spiTransfer [0x02,0xFF,0xFF],.tick 12,
      .tick 13,.spiTransfer [0x80,0],.tick 33,.spiTransfer [0x82,0,0,0],.tick 34] = some c ∧
      c.spuriousRaises.toNat ≤ 4 ∧ (spurious (new 10) [.spiTransfer [0x82,0,0,0],.tick 3,
        .spiTransfer [0x02,0xFF,0xFF],.tick 12,.tick 13,.spiTransfer [0x80,0],.tick 33,
        .spiTransfer [0x82,0,0,0],.tick 34]).Pairwise (fun a b => a + 10 ≤ b) := by
  let ops : List ChipOp := [.spiTransfer [0x82,0,0,0],.tick 3,.spiTransfer [0x02,0xFF,0xFF],
    .tick 12,.tick 13,.spiTransfer [0x80,0],.tick 33,.spiTransfer [0x82,0,0,0],.tick 34]
  have runs : (run step (new 10) ops).isSome := by decide +kernel
  obtain ⟨c,ran⟩ := Option.isSome_iff_exists.mp runs
  have times : (ops.filterMap ChipOp.time?).all (· ≤ 34) := by decide
  have roomy : Roomy 10 ops := by
    intro t told
    have early := UInt64.le_iff_toNat_le.mp (of_decide_eq_true (List.all_eq_true.mp times t told))
    have late : (34 : UInt64).toNat = 34 := rfl
    have period : (10 : UInt32).toNat = 10 := rfl
    rw [UInt64.size]
    omega
  obtain ⟨paced,few,_⟩ := faults_paced (by decide) ran (by decide) roomy
  exact ⟨c,ran,Nat.le_trans few (by decide),paced⟩

end Chip

/-! The clocks of the bridges leave the period its room: the one has 32 bits, and the other
counts microseconds. -/

variable {κ : Type} {stuckIrqMs : UInt32}

namespace Radio

/-- From a chip told of such times, another. -/
def KeepsRoom (r r' : Radio stuckIrqMs) : Prop :=
  Roomy stuckIrqMs r.chip.log → Roomy stuckIrqMs r'.chip.log

variable {r r' : Radio stuckIrqMs}

theorem KeepsRoom.perform {other : op ≠ .drain} (performed : r.perform op other = some r')
    (last : Roomy stuckIrqMs [op]) : KeepsRoom r r' := fun roomy => by
  rw [perform_log performed]
  exact roomy_append.mpr ⟨roomy,last⟩

theorem KeepsRoom.access {other : op ≠ .drain} (performed : r.perform op other = some r')
    (untimed : op.time? = none) : KeepsRoom r r' :=
  .perform performed (roomy_singleton.mpr (by simp [untimed]))

theorem KeepsRoom.drainTx (r : Radio stuckIrqMs) : KeepsRoom r r.drainTx := fun roomy => by
  rw [Radio.drainTx]
  split
  · exact roomy_append.mpr ⟨roomy,roomy_singleton.mpr (by simp [ChipOp.time?])⟩
  · exact roomy

/-- A count of milliseconds in 32 bits. -/
theorem KeepsRoom.tick32 {t : UInt32} (ticked : r.tick t.toUInt64 = some r') : KeepsRoom r r' := by
  refine .perform ticked (roomy_singleton.mpr fun u told => ?_)
  obtain rfl : t.toUInt64 = u := by simpa [ChipOp.time?] using told
  have clock := t.toNat_lt
  have period := stuckIrqMs.toNat_lt
  rw [UInt32.toNat_toUInt64, UInt64.size]
  omega

/-- A count of microseconds in 64 bits, as milliseconds. -/
theorem KeepsRoom.tick64 {us : UInt64} (ticked : r.tick (us / 1000) = some r') :
    KeepsRoom r r' := by
  refine .perform ticked (roomy_singleton.mpr fun u told => ?_)
  obtain rfl : us / 1000 = u := by simpa [ChipOp.time?] using told
  have clock := us.toNat_lt
  have period := stuckIrqMs.toNat_lt
  rw [UInt64.toNat_div, UInt64.size]
  simp only [UInt64.reduceToNat]
  omega

end Radio

open Radio

theorem SimHal.advanceUs_keepsRoom {h h' : SimHal κ stuckIrqMs} (advanced : h.advanceUs us = some h') :
    KeepsRoom h.radio h'.radio := by
  obtain ⟨_,ticked⟩ := advanceUs_ticks advanced
  exact .tick64 ticked

theorem SimHal.call_keepsRoom {h h' : SimHal κ stuckIrqMs} (called : h.call c = some h') :
    KeepsRoom h.radio h'.radio := by
  cases c with
  | beginTick networkMs =>
    obtain ⟨_,ticked⟩ := beginTick_ticks called
    exact .tick64 ticked
  | use u =>
    cases u with
    | spiTransfer out =>
      obtain ⟨⟨_,inp⟩,transferred,rfl⟩ := Option.map_eq_some_iff.mp called
      obtain ⟨_,advanced,_,performed⟩ := spiTransfer_performs transferred
      have last : KeepsRoom _ _ := .access performed rfl
      exact fun roomy => last (advanceUs_keepsRoom advanced roomy)
    | delay ms | delayMicroseconds us | yield => exact advanceUs_keepsRoom called
    | attachInterrupt cb | detachInterrupt | inIsr entered =>
      exact Option.some.inj called ▸ id
    | access op other plain =>
      simp only [call, use, Option.bind_eq_bind, Option.bind_eq_some_iff,
        Option.some.injEq] at called
      obtain ⟨_,performed,rfl⟩ := called
      exact .access performed plain
    | drainTx => exact Option.some.inj called ▸ .drainTx h.radio

/-- Whatever is done with the hardware of a native node. -/
theorem SimHal.run_roomy {h : SimHal κ stuckIrqMs} (calls : List (HalCall κ))
    (ran : run SimHal.call { radio := .init stuckIrqMs } calls = some h) :
    Roomy stuckIrqMs h.radio.chip.log :=
  run_invariant (fun h : SimHal κ stuckIrqMs => Roomy stuckIrqMs h.radio.chip.log)
    (fun _ _ _ roomy called => call_keepsRoom called roomy) ran nofun

namespace RadioServer

variable {s s' : RadioServer stuckIrqMs}

theorem serviceQemu_keepsRoom (serviced : s.serviceQemu m = some s') :
    KeepsRoom s.radio s'.radio := by
  rcases (serviceQemu_cases serviced).2 with ⟨_,same⟩ | ⟨op,_,asked,performed⟩
  · exact same ▸ id
  · exact .access performed (ChipOp.time?_eq_none.mpr (QemuMsg.op?_pins asked).2)

theorem handleTick_keepsRoom (handled : s.handleTick payload = some s') :
    KeepsRoom s.radio s'.radio := by
  obtain ⟨caught,r,ticked,last,rfl⟩ := handleTick_ticks handled
  rw [tickTo_eq] at ticked
  have turns : KeepsRoom s.radio caught.radio := by
    refine repeated_rel (fun a b : RadioServer stuckIrqMs => KeepsRoom a.radio b.radio)
      (fun _ => id) (fun _ _ _ first rest => rest ∘ first) ?_ _ ticked
    intro a b turn
    obtain ⟨r,ticked,rfl⟩ := tickOnce_ticks turn
    exact fun roomy => KeepsRoom.drainTx r (KeepsRoom.tick32 ticked roomy)
  exact fun roomy => KeepsRoom.drainTx r (KeepsRoom.tick32 last (turns roomy))

theorem serviceBridge_keepsRoom (serviced : s.serviceBridge m = some s') :
    KeepsRoom s.radio s'.radio := by
  rcases serviceBridge_cases serviced with ⟨op,_,untimed,performed⟩ | ⟨_,handled⟩ | rfl
  · exact .access performed (ChipOp.time?_eq_none.mpr untimed)
  · exact handleTick_keepsRoom handled
  · exact id

/-- Whatever messages a server is sent. -/
theorem run_roomy (events : List Event) (ran : run step (init stuckIrqMs) events = some s) :
    Roomy stuckIrqMs s.radio.chip.log := by
  refine run_invariant (fun s : RadioServer stuckIrqMs => Roomy stuckIrqMs s.radio.chip.log)
    (fun a event b roomy stepped => ?_) ran nofun
  cases event with
  | qemu m =>
    rw [step] at stepped
    split at stepped
    · exact serviceQemu_keepsRoom stepped roomy
    · exact Option.some.inj stepped ▸ roomy
  | bridge m =>
    rw [step] at stepped
    split at stepped
    · exact serviceBridge_keepsRoom stepped roomy
    · exact Option.some.inj stepped ▸ roomy

end RadioServer

end Meshcore
