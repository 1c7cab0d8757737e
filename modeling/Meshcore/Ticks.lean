import Meshcore.Bounds
import Meshcore.Marks
import Meshcore.Library.Runs

/-! Ticks of one chip with nothing between them. A second tick at the same millisecond
finds the clock, the fault and the detector as the first left them: in receive mode it
delivers one more frame, and otherwise it does nothing. -/
namespace Meshcore

open Checked Flags Runs

namespace Chip

variable {c d : Chip} {nowMs : UInt64}

/-- What a tick does at the millisecond of the one before it. -/
def again (c : Chip) : Option Chip := if c.mode = .rx then c.deliverPending else some c

theorem tick_again (small : nowMs.toNat < UInt32.size) (ticked : c.tick nowMs = some d) :
    d.tick nowMs = d.again := by
  have fits : nowMs.toNat + c.stuckIrqMs.toNat < UInt64.size := by
    have period := c.stuckIrqMs.toNat_lt
    rw [UInt32.size] at small
    rw [UInt64.size]
    omega
  have clock := tick_nowMs ticked
  have accrued := accrueBusy_self clock (tick_lastBusyTickMs ticked)
  rw [tick_eq, accrued, again]
  split
  next hears =>
    have listened : c.mode = .rx := (tick_mode ticked).symm.trans hears
    have rests : d.injectFault = d :=
      injectFault_of_not_due (clock ▸ tick_rests listened fits ticked)
    have detected : d.detect = d := by
      rw [tick_eq, if_pos listened] at ticked
      obtain ⟨m,_,rfl⟩ := Option.map_eq_some_iff.mp ticked
      exact detect_detect m
    rw [rests, ← detect_deliver, detected]
  next => rfl

/-- The queue after a tick. -/
theorem tick_inbox (ticked : c.tick nowMs = some d) :
    d.inbox = if c.mode = .rx then c.inbox.tail else c.inbox := by
  obtain ⟨m,quiet,delivered⟩ := tick_delivery ticked
  have same : d.inbox = m.inbox := by
    have queued := congrArg Chip.inbox quiet
    exact queued
  rw [same]
  split
  next hears =>
    rw [if_pos hears] at delivered
    cases waiting : c.inbox with
    | nil =>
      rw [deliverPending_nil (c := { c with nowMs }) waiting] at delivered
      obtain rfl := Option.some.inj delivered
      exact waiting
    | cons f rest =>
      rw [deliverPending_cons (c := { c with nowMs }) waiting] at delivered
      obtain ⟨_,_,rfl⟩ := Option.map_eq_some_iff.mp delivered
      rfl
  next deaf =>
    rw [if_neg deaf] at delivered
    obtain rfl := Option.some.inj delivered
    rfl

/-- A frame that waits in receive mode waits behind one that has been delivered. -/
def Fed (c : Chip) : Prop := c.mode = .rx → c.busyFlags = true ∨ c.inbox = []

theorem tick_fed (ticked : c.tick nowMs = some d) : d.Fed := by
  intro hears
  have listened : c.mode = .rx := (tick_mode ticked).symm.trans hears
  by_cases idle : c.inbox = []
  · right
    rw [tick_inbox ticked, if_pos listened, idle]
    rfl
  · left
    have seen : any deliveredFlags (kIrqPreambleDetected ||| kIrqHeaderValid) = true := by decide
    rw [busyFlags, tick_irq ticked, any_or, Bool.or_eq_true]
    exact .inr ((any_raised_tick c nowMs _).mpr ⟨listened,.inr (.inl ⟨idle,seen⟩)⟩)

/-- One more delivery may come before a tick or after it. -/
theorem again_tick (fed : c.Fed) (nowMs : UInt64) :
    c.again.bind (·.tick nowMs) = (c.tick nowMs).bind again := by
  by_cases hears : c.mode = .rx
  · rw [again, if_pos hears]
    rcases fed hears with up | idle
    -- Both ways round it is the clock and the fault, two deliveries, and the detector.
    · have advanced : (c.accrueBusy nowMs).injectFault.deliverPending =
          c.deliverPending.map fun e => (e.accrueBusy nowMs).injectFault := by
        rw [injectFault_deliver, accrueBusy_deliver up, Option.map_map]
        rfl
      have first : c.deliverPending.bind (·.tick nowMs) =
          (c.accrueBusy nowMs).injectFault.deliverPending.bind fun m =>
            m.deliverPending.map detect := by
        rw [advanced, Option.bind_map]
        refine Option.bind_congr fun e delivered => ?_
        rw [tick_eq, if_pos ((deliverPending_mode delivered).trans hears)]
        rfl
      have last : (c.tick nowMs).bind again =
          (c.accrueBusy nowMs).injectFault.deliverPending.bind fun m =>
            m.deliverPending.map detect := by
        rw [tick_eq, if_pos hears, Option.bind_map]
        refine Option.bind_congr fun m delivered => ?_
        have listens : m.detect.mode = .rx := by
          rw [detect_mode, deliverPending_mode delivered, injectFault_mode]
          exact hears
        rw [Function.comp, again, if_pos listens, detect_deliver]
      rw [first, last]
    · rw [deliverPending_nil idle, Option.bind_some]
      cases ticked : c.tick nowMs with
      | none => rfl
      | some d =>
        have empty : d.inbox = [] := by rw [tick_inbox ticked, if_pos hears, idle]; rfl
        rw [Option.bind_some, again, if_pos ((tick_mode ticked).trans hears),
          deliverPending_nil empty]
  · have same {d : Chip} (ticked : c.tick nowMs = some d) : d.again = some d :=
      if_neg ((tick_mode ticked).symm ▸ hears)
    rw [again, if_neg hears, Option.bind_some]
    cases ticked : c.tick nowMs with
    | none => rfl
    | some d => rw [Option.bind_some, same ticked]

/-- A millisecond that is ticked twice, wherever it is in a run of ticks, is one more delivery
at the end of it. -/
theorem run_twice (small : nowMs.toNat < UInt32.size) (pre post : List UInt64) :
    run tick c (pre ++ nowMs :: nowMs :: post) =
      (run tick c (pre ++ nowMs :: post)).bind again := by
  simp only [run_append, run_cons, Option.bind_assoc]
  refine Option.bind_congr fun m _ => Option.bind_congr fun d ticked => ?_
  rw [tick_again small ticked]
  exact run_commutes Fed again (fun _ _ _ _ => tick_fed) (fun _ t fed => again_tick fed t) post d
    (tick_fed ticked)

/-- The frame fits where the firmware wants it. -/
def FitsSlot (c : Chip) (f : List UInt8) : Prop := c.rxBase.toNat + min f.length 255 ≤ 256

theorem again_eq_self : d.again = some d ↔ (d.mode = .rx → d.inbox = []) := by
  by_cases hears : d.mode = .rx
  · simp only [again, hears, ite_true, true_imp_iff]
    cases waiting : d.inbox with
    | nil => simp [deliverPending_nil waiting]
    | cons f rest =>
      simp only [reduceCtorEq, iff_false]
      intro same
      rw [deliverPending_cons waiting] at same
      obtain ⟨b,_,received⟩ := Option.map_eq_some_iff.mp same
      have queued : rest = d.inbox := congrArg Chip.inbox received
      rw [waiting] at queued
      exact List.cons_ne_self f rest queued.symm
  · simp [again,hears]

/-- What a run of ticks leaves of the queue. -/
theorem run_tick_inbox (times : List UInt64) (ran : run tick c times = some d) :
    d.mode = c.mode ∧ d.inbox = if c.mode = .rx then c.inbox.drop times.length else c.inbox := by
  induction times generalizing c with
  | nil =>
    obtain rfl := Option.some.inj ran
    simp
  | cons t rest ih =>
    obtain ⟨m,ticked,ran⟩ := run_cons_eq_some.mp ran
    obtain ⟨mode,inbox⟩ := ih ran
    rw [tick_mode ticked] at mode inbox
    refine ⟨mode,?_⟩
    rw [inbox, tick_inbox ticked]
    by_cases hears : c.mode = .rx <;> simp [hears]

/-- A run of ticks stays in bounds while the frames it delivers fit. -/
theorem run_tick_isSome (c : Chip) (times : List UInt64) : (run tick c times).isSome ↔
    (c.mode = .rx → ∀ f ∈ c.inbox.take times.length, c.FitsSlot f) := by
  induction times generalizing c with
  | nil => simp
  | cons t rest ih =>
    have first := tick_isSome c t
    rw [run_cons]
    cases ticked : c.tick t with
    | none =>
      simp only [ticked, Option.isSome_none, Bool.false_eq_true, false_iff] at first
      refine iff_of_false (by simp) fun fits => first fun hears f head => fits hears f ?_
      obtain ⟨tail,waiting⟩ := List.head?_eq_some_iff.mp head
      simp [waiting]
    | some m =>
      have fits := first.mp (by rw [ticked]; rfl)
      have same (f : List UInt8) : m.FitsSlot f ↔ c.FitsSlot f := by
        have base : m.rxBase = c.rxBase := congrArg Settings.rxBase (tick_settings ticked)
        rw [FitsSlot, base, FitsSlot]
      rw [Option.bind_some, ih, tick_mode ticked, tick_inbox ticked]
      refine imp_congr_right fun hears => ?_
      rw [if_pos hears]
      cases waiting : c.inbox with
      | nil => simp
      | cons f tail =>
        have fitted : c.FitsSlot f := fits hears f (by simp [waiting])
        simp [same,fitted]

/-- A run of ticks that leaves nothing queued in receive mode. -/
theorem run_tick_settled (c : Chip) (times : List UInt64) :
    (∃ d, run tick c times = some d ∧ d.again = some d) ↔
      (c.mode = .rx → (∀ f ∈ c.inbox, c.FitsSlot f) ∧ c.inbox.length ≤ times.length) := by
  have isSome := run_tick_isSome c times
  constructor
  · rintro ⟨d,ran,settled⟩ hears
    obtain ⟨mode,inbox⟩ := run_tick_inbox times ran
    have empty := again_eq_self.mp settled (mode.trans hears)
    rw [inbox, if_pos hears, List.drop_eq_nil_iff] at empty
    have fits := isSome.mp (by rw [ran]; rfl) hears
    rw [List.take_of_length_le empty] at fits
    exact ⟨fits,empty⟩
  · intro all
    have fits : (run tick c times).isSome :=
      isSome.mpr fun hears f member => (all hears).1 f (List.mem_of_mem_take member)
    obtain ⟨d,ran⟩ := Option.isSome_iff_exists.mp fits
    obtain ⟨mode,inbox⟩ := run_tick_inbox times ran
    refine ⟨d,ran,again_eq_self.mpr fun hears => ?_⟩
    have listens := mode.symm.trans hears
    rw [inbox, if_pos listens, List.drop_eq_nil_iff]
    exact (all listens).2

/-- Waiting transmissions do not concern a tick. -/
theorem tick_takePending (c : Chip) (nowMs : UInt64) :
    c.takePending.tick nowMs = (c.tick nowMs).map takePending := by
  have injected (d : Chip) : d.takePending.injectFault = d.injectFault.takePending := by
    by_cases due : d.stuckIrqMs > 0 ∧ d.mode = .rx ∧ d.nowMs ≥ d.nextSpuriousMs
    · rw [injectFault, injectFault, if_pos due]
      exact if_pos due
    · rw [injectFault, injectFault, if_neg due]
      exact if_neg due
  have delivered (d : Chip) : d.takePending.deliverPending = d.deliverPending.map takePending :=
    deliverPending_comm takePending rfl rfl rfl fun _ _ _ => rfl
  have detected (d : Chip) : d.takePending.detect = d.detect.takePending := by
    rw [detect_eq, detect_eq]
    rfl
  have accrued : c.takePending.accrueBusy nowMs = (c.accrueBusy nowMs).takePending := rfl
  rw [tick_eq, tick_eq, accrued, injected, delivered]
  by_cases hears : c.mode = .rx
  · have listens : c.takePending.mode = .rx := hears
    rw [if_pos hears, if_pos listens, Option.map_map, Option.map_map]
    exact Option.map_congr fun d _ => detected d
  · have deaf : c.takePending.mode ≠ .rx := hears
    rw [if_neg hears, if_neg deaf]
    rfl

/-- A tick of a chip whose transmission is taken right after it. -/
def turn (c : Chip) (nowMs : UInt64) : Option Chip := (c.tick nowMs).map takePending

/-- However many turns there are, what is pending is taken at the first. -/
theorem run_turn (c : Chip) {times : List UInt64} (some' : times ≠ []) :
    run turn c times = run tick c.takePending times := by
  cases times with
  | nil => exact absurd rfl some'
  | cons first rest =>
    have begun : turn c first = c.takePending.tick first := (tick_takePending c first).symm
    rw [run_cons, run_cons, begun]
    refine Option.bind_congr fun d ticked => ?_
    have empty : d.hasPendingTx = false := congrArg Settings.hasPendingTx (tick_settings ticked)
    clear ticked begun
    induction rest generalizing d with
    | nil => rfl
    | cons t rest ih =>
      have taken : d.takePending = d :=
        congrArg (fun held => { d with hasPendingTx := held }) empty.symm
      have same : turn d t = d.tick t := by rw [turn, ← tick_takePending, taken]
      rw [run_cons, run_cons, same]
      refine Option.bind_congr fun e ticked => ih (by simp) e ?_
      exact (congrArg Settings.hasPendingTx (tick_settings ticked)).trans empty

end Chip
end Meshcore
