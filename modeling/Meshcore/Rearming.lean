import Meshcore.Instants
import Meshcore.Marks

/-! The detector's latches and the flags they stand for. A latch is up only while the
signal it was raised for is on the air and its flag is in the register, so that clearing
the flag is what arms the detector again. -/
namespace Meshcore

open Flags Runs

/-- What the detector listens for. -/
inductive Detection where
  | preamble
  | header
  deriving DecidableEq

namespace Detection

def raised : Detection → Chip → Bool
  | preamble => Chip.preambleRaised
  | header => Chip.headerRaised

def flag : Detection → BitVec 16
  | preamble => kIrqPreambleDetected
  | header => kIrqHeaderValid

/-- How much of a signal it takes. -/
def symbols : Detection → ℚ
  | preamble => kPreambleSymbols
  | header => kHeaderSymbols

/-- The flags it raises at a tick. -/
def raises (k : Detection) (c : Chip) (nowMs : UInt64) : BitVec 16 :=
  match k with
  | preamble => Chip.Air.preamble { c.air with nowMs }
  | header => Chip.Air.header { c.air with nowMs }

/-- It answers to a signal at a tick in receive mode. -/
def Answers (k : Detection) (c : Chip) (op : ChipOp) : Prop :=
  ∃ nowMs, op = .tick nowMs ∧ c.mode = .rx ∧ Chip.Air.Heard { c.air with nowMs } k.symbols

variable {k : Detection} {c next : Chip}

theorem clears_eq {e : Event} (event : c.event op = some e) : c.clears op = e.cleared := by
  rw [Chip.clears, Chip.executed, event]
  rfl

theorem clears_of_silent (silent : c.event op = none) : c.clears op = 0 := by
  rw [Chip.clears, Chip.executed, silent]
  rfl

theorem raised_congr (k : Detection) (same : next.detections = c.detections) :
    k.raised next = k.raised c := by
  obtain ⟨preamble,header⟩ := Prod.mk.inj same
  cases k
  · exact preamble
  · exact header

theorem not_answers (untimed : op.time? = none) : ¬k.Answers c op := by
  rintro ⟨nowMs,rfl,_⟩
  cases untimed

/-- What neither clears a flag nor quiets the air nor is answered leaves the latches alone. -/
theorem raised_still (k : Detection) (clears : c.clears op = 0) (loud : op ≠ .channelBusy false)
    (deaf : ¬k.Answers c op) (same : next.detections = c.detections) : k.raised next = true ↔
      (k.raised c = true ∧ any (c.clears op) k.flag = false ∧ op ≠ .channelBusy false) ∨
        k.Answers c op := by
  simp [raised_congr k same, clears, loud, deaf]

/-- A latch is up after a step when it was, unless its flag is named to be cleared or the
air goes quiet, or when there is a signal to answer. -/
theorem raised_next (k : Detection) (stepped : c.step op = some next) :
    k.raised next = true ↔ (k.raised c = true ∧ any (c.clears op) k.flag = false ∧
      op ≠ .channelBusy false) ∨ k.Answers c op := by
  have moved := Chip.step_detections stepped
  cases event : c.event op with
  | none =>
    rw [event] at moved
    have untimed : op.time? = none := by cases op <;> first | rfl | cases event
    exact raised_still k (clears_of_silent event) (by rintro rfl; cases event)
      (not_answers untimed) moved
  | some e =>
    have clears := clears_eq event
    rw [event] at moved
    cases e with
    | command cmd =>
      have untimed : op.time? = none := by cases op <;> first | rfl | cases event
      have loud : op ≠ .channelBusy false := by
        rintro rfl
        cases event
      obtain ⟨preamble,header⟩ := Prod.mk.inj moved
      cases k <;> simp [raised, flag, preamble, header, clears, loud, not_answers untimed]
    | tick nowMs =>
      obtain rfl := (Chip.event_eq_some rfl).mp event
      by_cases listens : c.mode = .rx
      · have zero : c.clears (.tick nowMs) = 0 := clears
        simp only [Chip.detectionsAfter, listens, if_true] at moved
        obtain ⟨preamble,header⟩ := Prod.mk.inj moved
        cases k <;> simp [raised, symbols, Answers, preamble, header, zero, listens]
      · simp only [Chip.detectionsAfter, listens, if_false] at moved
        have deaf : ¬k.Answers c (.tick nowMs) := by
          rintro ⟨_,_,hears,_⟩
          exact listens hears
        refine raised_still k clears ?_ deaf moved
        rintro ⟨⟩
    | channelBusy busy =>
      obtain rfl := (Chip.event_eq_some rfl).mp event
      have zero : c.clears (.channelBusy busy) = 0 := clears
      have deaf : ¬k.Answers c (.channelBusy busy) := not_answers rfl
      obtain ⟨preamble,header⟩ := Prod.mk.inj moved
      cases k <;> cases busy <;> simp [raised, preamble, header, zero, deaf]
    | setFem on | frame payload | txDone | drain =>
      obtain rfl := (Chip.event_eq_some rfl).mp event
      refine raised_still k clears ?_ (not_answers rfl) moved
      rintro ⟨⟩

theorem raises_of_answer (k : Detection) (low : k.raised c = false) (hears : c.mode = .rx)
    (heard : Chip.Air.Heard { c.air with nowMs } k.symbols) :
    any (c.raises (.tick nowMs)) k.flag = true := by
  have raises : any (c.raised (.tick nowMs)) k.flag = true := by
    rw [Chip.any_raised_tick]
    cases k
    · exact ⟨hears,.inr (.inr (.inl ⟨low,heard,by decide⟩))⟩
    · exact ⟨hears,.inr (.inr (.inr ⟨low,heard,by decide⟩))⟩
  exact raises

theorem channelBusy_next (stepped : c.step op = some next) (loud : op ≠ .channelBusy false)
    (busy : c.channelBusy = true) : next.channelBusy = true := by
  have ears : next.channelBusy = (c.ears.after op).channelBusy :=
    congrArg Ears.channelBusy (Chip.step_ears stepped)
  rw [ears]
  cases op with
  | channelBusy again =>
    cases again with
    | true => rfl
    | false => exact absurd rfl loud
  | _ => exact busy

/-- What a latch says: its signal is on the air and its flag in the register. -/
def Coherent (k : Detection) (c : Chip) : Prop :=
  k.raised c = true → c.channelBusy = true ∧ any c.irq k.flag = true

theorem coherent_step (coherent : k.Coherent c) (stepped : c.step op = some next) :
    k.Coherent next := by
  have kept (was : k.raised c = true) (unnamed : any (c.clears op) k.flag = false)
      (loud : op ≠ .channelBusy false) : next.channelBusy = true ∧ any next.irq k.flag = true := by
    obtain ⟨busy,set⟩ := coherent was
    refine ⟨channelBusy_next stepped loud busy,?_⟩
    rw [Chip.step_irq stepped, any_latch_of_kept unnamed, set, Bool.true_or]
  intro up
  rcases (raised_next k stepped).mp up with ⟨was,unnamed,loud⟩ | ⟨nowMs,rfl,hears,heard⟩
  · exact kept was unnamed loud
  · have zero : c.clears (.tick nowMs) = 0 := rfl
    have unnamed : any (c.clears (.tick nowMs)) k.flag = false := by simp [zero]
    cases was : k.raised c with
    | true => exact kept was unnamed nofun
    | false =>
      refine ⟨channelBusy_next stepped nofun heard.1,?_⟩
      rw [Chip.step_irq stepped, any_latch_of_kept unnamed, raises_of_answer k was hears heard,
        Bool.or_true]

theorem run_coherent {stuckIrqMs : UInt32} (k : Detection)
    (ran : run Chip.step (.new stuckIrqMs) ops = some c) : k.Coherent c := by
  apply run_invariant k.Coherent _ ran
  · intro up
    cases k <;> cases up
  · exact fun _ _ _ coherent stepped => coherent_step coherent stepped

/-- While a detection is not cleared and its signal lasts, the latch stays up. -/
theorem run_raised (k : Detection) (ran : run Chip.step c ops = some next)
    (uncleared : Each Chip.step (fun c op => any (c.clears op) k.flag = false ∧
      op ≠ .channelBusy false) c ops) (up : k.raised c = true) : k.raised next = true := by
  refine run_invariant_of_each (fun d => k.raised d = true) ?_ ran uncleared up
  intro c op next before guard stepped
  exact (raised_next k stepped).mpr (.inl ⟨before,guard⟩)

end Detection

namespace Chip

variable {c next : Chip}

/-- The count of detections after an operation: a signal is counted when it is first
answered. -/
def preambleRaisesAfter (c : Chip) : ChipOp → UInt32
  | .tick nowMs =>
    if c.mode = .rx ∧ c.preambleRaised = false ∧ Air.Heard { c.air with nowMs } kPreambleSymbols
    then c.preambleRaises + 1 else c.preambleRaises
  | _ => c.preambleRaises

theorem tick_preambleRaises {nowMs : UInt64} (ticked : c.tick nowMs = some next) :
    next.preambleRaises = c.preambleRaisesAfter (.tick nowMs) := by
  rw [tick_eq] at ticked
  by_cases hears : c.mode = .rx
  · rw [if_pos hears] at ticked
    obtain ⟨m,delivered,rfl⟩ := Option.map_eq_some_iff.mp ticked
    have air : m.air = { c.air with nowMs } :=
      (deliverPending_air delivered).trans (injectFault_air (c.accrueBusy nowMs))
    have latched : m.preambleRaised = c.preambleRaised := congrArg Air.preambleRaised air
    have count : m.preambleRaises = c.preambleRaises := by
      rw [deliverPending_keeps preambleRaises (fun _ _ _ => rfl) delivered, injectFault]
      split <;> rfl
    have raises : m.detect.preambleRaises =
        if m.HearsPreamble then m.preambleRaises + 1 else m.preambleRaises := by rw [detect_eq]; rfl
    simp only [raises, HearsPreamble, latched, air, count, preambleRaisesAfter, hears, true_and]
  · rw [if_neg hears] at ticked
    obtain rfl := Option.some.inj ticked
    exact (if_neg (fun both => hears both.1)).symm

theorem step_preambleRaises (stepped : c.step op = some next) :
    next.preambleRaises = c.preambleRaisesAfter op := by
  have ignored {a b : Chip} (same : a.core = b.core) : a.preambleRaises = b.preambleRaises := by
    have := congrArg preambleRaises same
    exact this
  have silent (untimed : op.time? = none) : c.preambleRaisesAfter op = c.preambleRaises := by
    cases op <;> first | rfl | cases untimed
  rcases step_event stepped with ⟨event,core⟩ | ⟨e,d,event,applied,core⟩
  · rw [ignored core, silent (by cases op <;> first | rfl | cases event)]
  rw [ignored core]
  cases e with
  | command cmd =>
    rw [silent (by cases op <;> first | rfl | cases event)]
    have same := congrArg preambleRaises (act_acts applied).surroundings
    exact same
  | tick nowMs =>
    obtain rfl := (event_eq_some rfl).mp event
    exact tick_preambleRaises applied
  | txDone =>
    obtain rfl := (event_eq_some rfl).mp event
    obtain rfl := Option.some.inj applied
    exact transmitFinished_keeps preambleRaises (fun _ _ _ => rfl) c
  | _ =>
    obtain rfl := (event_eq_some rfl).mp event
    obtain rfl := Option.some.inj applied
    rfl

/-- A detection that is latched is not counted again. -/
theorem step_counted (latched : c.preambleRaised = true) (stepped : c.step op = some next) :
    next.preambleRaises = c.preambleRaises := by
  rw [step_preambleRaises stepped]
  cases op with
  | tick nowMs => simp [preambleRaisesAfter, latched]
  | _ => rfl

end Chip

namespace Detection

variable {k : Detection} {c next : Chip}

/-- Clearing its flag arms a detection. -/
theorem armed_of_clear (stepped : c.step op = some next) (named : any (c.clears op) k.flag = true) :
    k.raised next = false := by
  rw [← Bool.not_eq_true, raised_next k stepped]
  rintro (⟨_,unnamed,_⟩ | ⟨nowMs,rfl,_⟩)
  · rw [named] at unnamed
    cases unnamed
  · have zero : c.clears (.tick nowMs) = 0 := rfl
    simp [zero] at named

/-- An armed detection answers to the signal when it has lasted, and is counted. -/
theorem answers_of_armed (armed : k.raised c = false) (hears : c.mode = .rx)
    (heard : Chip.Air.Heard { c.air with nowMs } k.symbols)
    (stepped : c.step (.tick nowMs) = some next) : k.raised next = true ∧
      any next.irq k.flag = true ∧ (k = preamble → next.preambleRaises = c.preambleRaises + 1) := by
  refine ⟨(raised_next k stepped).mpr (.inr ⟨nowMs,rfl,hears,heard⟩),?_,?_⟩
  · have zero : c.clears (.tick nowMs) = 0 := rfl
    rw [Chip.step_irq stepped, any_latch_of_kept (by simp [zero]), raises_of_answer k armed hears heard,
      Bool.or_true]
  · rintro rfl
    rw [Chip.step_preambleRaises stepped]
    exact if_pos ⟨hears,armed,heard⟩

/-- A latched detection raises nothing. -/
theorem raises_of_raised (up : k.raised c = true) (nowMs : UInt64) : k.raises c nowMs = 0 := by
  cases k
  · exact if_neg fun both => Bool.false_ne_true (both.1.symm.trans up)
  · exact if_neg fun both => Bool.false_ne_true (both.1.symm.trans up)

theorem run_counted_once (ran : run Chip.step c ops = some next)
    (uncleared : Each Chip.step (fun c op => any (c.clears op) kIrqPreambleDetected = false ∧
      op ≠ .channelBusy false) c ops) (up : c.preambleRaised = true) :
    next.preambleRaises = c.preambleRaises := by
  have both : next.preambleRaised = true ∧ next.preambleRaises = c.preambleRaises := by
    refine run_invariant_of_each (fun d : Chip => d.preambleRaised = true ∧
      d.preambleRaises = c.preambleRaises) ?_ ran uncleared ⟨up,rfl⟩
    rintro d op after ⟨latched,count⟩ guard stepped
    exact ⟨(raised_next preamble stepped).mpr (.inl ⟨latched,guard⟩),
      (Chip.step_counted latched stepped).trans count⟩
  exact both.2

end Detection

/-- In every reachable state a latch is up only while its signal is on the air and its flag in
the register. So a detection whose flag is cleared is armed and answers to the signal anew,
and one whose flag is not is neither raised nor counted again while the signal lasts. -/
theorem Chip.detections_consistent {stuckIrqMs : UInt32} {c : Chip} (ops : List ChipOp)
    (ran : run step (new stuckIrqMs) ops = some c) :
    (c.preambleRaised = true → c.channelBusy = true ∧ any c.irq kIrqPreambleDetected = true) ∧
    (c.headerRaised = true → c.channelBusy = true ∧ any c.irq kIrqHeaderValid = true) ∧
    ∀ k : Detection,
      (∀ op next, c.step op = some next → any (c.clears op) k.flag = true → k.raised next = false) ∧
      (∀ nowMs next, c.step (.tick nowMs) = some next → any c.irq k.flag = false → c.mode = .rx →
        Air.Heard { c.air with nowMs } k.symbols → k.raised next = true ∧
          any next.irq k.flag = true ∧ (k = .preamble → next.preambleRaises = c.preambleRaises + 1)) ∧
      ∀ later next, run step c later = some next → k.raised c = true →
        Each step (fun c op => any (c.clears op) k.flag = false ∧ op ≠ .channelBusy false) c later →
        k.raised next = true ∧ (∀ nowMs, k.raises next nowMs = 0) ∧
          (k = .preamble → next.preambleRaises = c.preambleRaises) := by
  have coherent (k : Detection) := Detection.run_coherent k ran
  refine ⟨coherent .preamble,coherent .header,fun k => ⟨?_,?_,?_⟩⟩
  · exact fun op next stepped named => Detection.armed_of_clear stepped named
  · intro nowMs next stepped unset hears heard
    have armed : k.raised c = false := by
      cases up : k.raised c with
      | false => rfl
      | true => simp [(coherent k up).2] at unset
    exact Detection.answers_of_armed armed hears heard stepped
  · intro later next onward up uncleared
    have still := Detection.run_raised k onward uncleared up
    refine ⟨still,Detection.raises_of_raised still,?_⟩
    rintro rfl
    exact Detection.run_counted_once onward uncleared up

theorem Chip.detections_consistent_heard : ∃ c, run step (new 0)
      [.spiTransfer [0x82,0xFF,0xFF,0xFF],.channelBusy true,.tick 100] = some c ∧
    c.preambleRaised = true ∧ c.channelBusy = true ∧ any c.irq kIrqPreambleDetected = true ∧
    ∀ next, c.step (.spiTransfer [0x02,0x00,0x04]) = some next → next.preambleRaised = false := by
  have reached : (run step (new 0)
      [.spiTransfer [0x82,0xFF,0xFF,0xFF],.channelBusy true,.tick 100]).map (fun c =>
        (c.preambleRaised,any (c.clears (.spiTransfer [0x02,0x00,0x04])) kIrqPreambleDetected)) =
      some (true,true) := by
    decide +kernel
  obtain ⟨c,ran,same⟩ := Option.map_eq_some_iff.mp reached
  obtain ⟨up,named⟩ := Prod.mk.inj same
  obtain ⟨preamble,_,again⟩ := detections_consistent _ ran
  exact ⟨c,ran,up,(preamble up).1,(preamble up).2,fun next stepped =>
    (again .preamble).1 _ next stepped named⟩

end Meshcore
