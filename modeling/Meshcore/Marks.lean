import Meshcore.Counters
import Meshcore.Effects

/-! The pieces of a tick one by one: the books it keeps, the fault, the delivery and the
marks of the detector. A delivery can come before or after any of the others, but for the
time that is counted with the flags up. -/
namespace Meshcore

open Checked Flags

namespace Chip

variable {c d : Chip} {nowMs : UInt64}

/-- An update that is made under a condition, past a delivery. -/
theorem deliverPending_guarded (p : Chip → Prop) [DecidablePred p] (f : Chip → Chip)
    (stable : ∀ frame rest b, p (c.received frame rest b) ↔ p c) (inbox : (f c).inbox = c.inbox)
    (buffer : (f c).buffer = c.buffer) (rxBase : (f c).rxBase = c.rxBase)
    (after : ∀ frame rest b, (f c).received frame rest b = f (c.received frame rest b)) :
    (if p c then f c else c).deliverPending =
      c.deliverPending.map fun d => if p d then f d else d := by
  refine deliverPending_comm (fun d => if p d then f d else d) ?_ ?_ ?_ fun frame rest b => ?_
  · split <;> first | exact inbox | rfl
  · split <;> first | exact buffer | rfl
  · split <;> first | exact rxBase | rfl
  · simp only [stable]
    split
    · exact after frame rest b
    · rfl

theorem received_busyFlags (c : Chip) (frame : List UInt8) (rest : List (List UInt8))
    (buffer : Block 256 UInt8) : (c.received frame rest buffer).busyFlags = true := by
  have seen : any deliveredFlags (kIrqPreambleDetected ||| kIrqHeaderValid) = true := by decide
  have irq : (c.received frame rest buffer).irq = c.irq ||| deliveredFlags := by
    simp [received,deliveredFlags,BitVec.or_assoc]
  rw [busyFlags, irq, any_or, seen, Bool.or_true]

/-- With the flags up, time counts the same before a delivery and after it. -/
theorem accrueBusy_deliver (up : c.busyFlags = true) (nowMs : UInt64) :
    (c.accrueBusy nowMs).deliverPending = c.deliverPending.map (·.accrueBusy nowMs) := by
  refine deliverPending_comm (·.accrueBusy nowMs) rfl rfl rfl fun frame rest b => ?_
  have still := received_busyFlags c frame rest b
  rw [busyFlags] at up still
  simp only [accrueBusy, up, still]
  rfl

/-- Flags that one update raises and then a delivery, they raise in either order. -/
theorem received_irq (c : Chip) (flags : BitVec 16) (frame : List UInt8)
    (rest : List (List UInt8)) (buffer : Block 256 UInt8) :
    { c with irq := c.irq ||| flags }.received frame rest buffer =
      { c.received frame rest buffer with irq := (c.received frame rest buffer).irq ||| flags } := by
  simp only [received]
  congr 1
  ac_rfl

theorem injectFault_deliver (c : Chip) :
    c.injectFault.deliverPending = c.deliverPending.map injectFault :=
  deliverPending_guarded (fun c : Chip => c.stuckIrqMs > 0 ∧ c.mode = .rx ∧ c.nowMs ≥ c.nextSpuriousMs)
    (fun c => { c with
      irq := c.irq ||| kIrqPreambleDetected
      spuriousRaises := c.spuriousRaises + 1
      nextSpuriousMs := c.nowMs + c.stuckIrqMs.toUInt64 })
    (fun _ _ _ => Iff.rfl) rfl rfl rfl fun frame rest b =>
      congrArg (fun d : Chip => { d with
        spuriousRaises := c.spuriousRaises + 1
        nextSpuriousMs := c.nowMs + c.stuckIrqMs.toUInt64 }) (received_irq c _ frame rest b)

theorem mark_deliver (c : Chip) (m : Marks) :
    (c.mark m).deliverPending = c.deliverPending.map (·.mark m) :=
  deliverPending_comm (·.mark m) rfl rfl rfl fun frame rest b =>
    congrArg (fun d : Chip => { d with
      preambleRaised := m.preambleRaised, headerRaised := m.headerRaised
      preambleRaises := m.preambleRaises }) (received_irq c m.flags frame rest b)

theorem deliverPending_marks (delivered : c.deliverPending = some d) : d.marks = c.marks :=
  deliverPending_keeps marks (fun _ _ _ => rfl) delivered

theorem detect_deliver (c : Chip) : c.detect.deliverPending = c.deliverPending.map detect := by
  rw [detect_eq, mark_deliver]
  refine Option.map_congr fun d delivered => ?_
  rw [detect_eq, deliverPending_marks delivered]

theorem mark_mark (c : Chip) (m later : Marks) :
    (c.mark m).mark later = c.mark { later with flags := m.flags ||| later.flags } := by
  simp only [mark, BitVec.or_assoc]

/-- Marks that the detector would leave anyway make no difference to it. -/
theorem detect_mark (d : Chip) (air : d.air = { c.air with nowMs := d.nowMs })
    (raises : d.preambleRaises = c.preambleRaises)
    (lasts : ∀ symbols, c.air.Heard symbols → d.air.Heard symbols) :
    (d.mark c.marks).detect = d.detect := by
  have latched : d.preambleRaised = c.preambleRaised := congrArg Air.preambleRaised air
  have headed : d.headerRaised = c.headerRaised := congrArg Air.headerRaised air
  have first : c.HearsPreamble → d.HearsPreamble := fun hears => ⟨latched.trans hears.1,lasts _ hears.2⟩
  have second : c.HearsHeader → d.HearsHeader := fun hears => ⟨headed.trans hears.1,lasts _ hears.2⟩
  rw [detect_eq, detect_eq d, mark_mark]
  refine congrArg d.mark ?_
  generalize marked : d.mark c.marks = e
  have air : e.air = { d.air with
      preambleRaised := if c.HearsPreamble then true else c.preambleRaised
      headerRaised := if c.HearsHeader then true else c.headerRaised } := by
    subst marked
    rfl
  have raises : e.preambleRaises =
      if c.HearsPreamble then d.preambleRaises + 1 else d.preambleRaises := by
    subst marked
    simp only [mark, marks, raises]
  have heard (symbols : ℚ) : e.air.Heard symbols ↔ d.air.Heard symbols := by rw [air]; rfl
  have preambleRaised : e.preambleRaised = if c.HearsPreamble then true else d.preambleRaised :=
    latched ▸ congrArg Air.preambleRaised air
  have headerRaised : e.headerRaised = if c.HearsHeader then true else d.headerRaised :=
    headed ▸ congrArg Air.headerRaised air
  have preamble : e.HearsPreamble ↔ d.HearsPreamble ∧ ¬c.HearsPreamble := by
    have plain : d.HearsPreamble ↔ d.preambleRaised = false ∧ d.air.Heard kPreambleSymbols := Iff.rfl
    rw [HearsPreamble, heard, preambleRaised, plain]
    by_cases hears : c.HearsPreamble <;> simp [hears]
  have header : e.HearsHeader ↔ d.HearsHeader ∧ ¬c.HearsHeader := by
    have plain : d.HearsHeader ↔ d.headerRaised = false ∧ d.air.Heard kHeaderSymbols := Iff.rfl
    rw [HearsHeader, heard, headerRaised, plain]
    by_cases hears : c.HearsHeader <;> simp [hears]
  simp only [marks, preamble, header, preambleRaised, headerRaised, raises, Marks.mk.injEq]
  by_cases early : c.HearsPreamble
  · by_cases soon : c.HearsHeader
    · simp [early,soon,first early,second soon]
    · simp [early,soon,first early]
  · by_cases soon : c.HearsHeader
    · simp [early,soon,second soon,BitVec.or_comm]
    · simp [early,soon]

/-- The books a tick keeps: the time with the flags up, and the injected faults. -/
structure Books where
  busyMs : UInt32
  lastBusyTickMs : UInt64
  nextSpuriousMs : UInt64
  spuriousRaises : UInt32

def books (c : Chip) : Books := ⟨c.busyMs,c.lastBusyTickMs,c.nextSpuriousMs,c.spuriousRaises⟩

theorem deliverPending_books (delivered : c.deliverPending = some d) : d.books = c.books :=
  deliverPending_keeps books (fun _ _ _ => rfl) delivered

theorem detect_books (c : Chip) : c.detect.books = c.books := by
  rw [detect_eq]
  rfl

theorem detect_mode (c : Chip) : c.detect.mode = c.mode := by
  rw [detect_eq]
  rfl

/-- A tick closes its books before it delivers. -/
theorem tick_books (ticked : c.tick nowMs = some d) :
    d.books = (c.accrueBusy nowMs).injectFault.books := by
  rw [tick_eq] at ticked
  by_cases hears : c.mode = .rx
  · rw [if_pos hears] at ticked
    obtain ⟨m,delivered,rfl⟩ := Option.map_eq_some_iff.mp ticked
    rw [detect_books, deliverPending_books delivered]
  · rw [if_neg hears] at ticked
    have deaf : (c.accrueBusy nowMs).mode ≠ .rx := hears
    rw [injectFault_of_ne deaf, Option.some.inj ticked]

theorem tick_nowMs (ticked : c.tick nowMs = some d) : d.nowMs = nowMs :=
  congrArg Settings.nowMs (tick_settings ticked)

theorem tick_mode (ticked : c.tick nowMs = some d) : d.mode = c.mode :=
  congrArg Settings.mode (tick_settings ticked)

theorem tick_lastBusyTickMs (ticked : c.tick nowMs = some d) : d.lastBusyTickMs = nowMs := by
  have books := congrArg Books.lastBusyTickMs (tick_books ticked)
  refine books.trans ?_
  simp only [injectFault]
  split <;> rfl

/-- No time has passed since the last tick. -/
theorem accrueBusy_self (clock : c.nowMs = nowMs) (last : c.lastBusyTickMs = nowMs) :
    c.accrueBusy nowMs = c := by
  subst clock
  have none : ¬(any c.irq (kIrqPreambleDetected ||| kIrqHeaderValid) = true ∧
      c.nowMs > c.lastBusyTickMs) := fun both => absurd (last ▸ both.2) (UInt64.lt_irrefl _)
  simp only [accrueBusy, if_neg none]
  exact congrArg (fun t => { c with lastBusyTickMs := t }) last.symm

theorem injectFault_of_not_due (rests : ¬c.FaultDue c.nowMs) : c.injectFault = c :=
  if_neg fun due => rests ⟨due.1,due.2.2⟩

/-- The fault that has fired waits for its period. -/
theorem injectFault_rests (hears : c.mode = .rx)
    (fits : c.nowMs.toNat + c.stuckIrqMs.toNat < UInt64.size) :
    ¬c.injectFault.FaultDue c.nowMs := by
  by_cases due : c.stuckIrqMs > 0 ∧ c.mode = .rx ∧ c.nowMs ≥ c.nextSpuriousMs
  · rw [injectFault, if_pos due]
    have period := UInt32.lt_iff_toNat_lt.mp due.1
    rintro ⟨_,passed⟩
    rw [ge_iff_le, UInt64.le_iff_toNat_le, UInt64.toNat_add, UInt32.toNat_toUInt64] at passed
    rw [UInt32.toNat_zero] at period
    rw [UInt64.size] at fits
    omega
  · rw [injectFault, if_neg due]
    exact fun again => due ⟨again.1,hears,again.2⟩

theorem tick_rests (hears : c.mode = .rx) (fits : nowMs.toNat + c.stuckIrqMs.toNat < UInt64.size)
    (ticked : c.tick nowMs = some d) : ¬d.FaultDue nowMs := by
  have rests : ¬(c.accrueBusy nowMs).injectFault.FaultDue nowMs :=
    injectFault_rests (c := c.accrueBusy nowMs) hears fits
  have next : d.nextSpuriousMs = (c.accrueBusy nowMs).injectFault.nextSpuriousMs :=
    congrArg Books.nextSpuriousMs (tick_books ticked)
  have period : d.stuckIrqMs = (c.accrueBusy nowMs).injectFault.stuckIrqMs := by
    rw [show d.stuckIrqMs = c.stuckIrqMs from congrArg Settings.stuckIrqMs (tick_settings ticked),
      injectFault]
    split <;> rfl
  rw [FaultDue, next, period]
  exact rests

/-- What has been detected is not detected again. -/
theorem detect_detect (c : Chip) : c.detect.detect = c.detect := by
  have same := detect_mark (c := c) c rfl rfl fun _ heard => heard
  rwa [← detect_eq] at same

end Chip
end Meshcore
