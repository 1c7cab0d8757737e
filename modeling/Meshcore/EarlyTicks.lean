import Meshcore.Detection
import Meshcore.Ticks

/-! A tick at a millisecond the chip has ticked before, with the engine or the firmware in
between, and then the ticks that follow. Those come out alike with and without it when it
raises nothing, or when the flags are up and no fault is due; otherwise it counts a
millisecond the others do not, or sets the fault a millisecond early. -/
namespace Meshcore

open Checked Flags Runs

namespace Chip

variable {c d : Chip} {nowMs : UInt64}

/-- The chip at the millisecond `nowMs`, whatever has been done to it since its tick. -/
structure Stands (c : Chip) (nowMs : UInt64) : Prop where
  clock : c.nowMs = nowMs
  last : c.lastBusyTickMs = nowMs
  since : c.busySinceMs ≤ nowMs

/-- A signal that has lasted lasts on. -/
theorem heard_later {a : Air} {later : UInt64} (since : a.busySinceMs ≤ a.nowMs)
    (after : a.nowMs ≤ later) (heard : a.Heard symbols) :
    Air.Heard { a with nowMs := later } symbols := by
  refine ⟨heard.1,heard.2.trans ?_⟩
  have ordered := UInt64.le_iff_toNat_le.mp after
  have span : (a.nowMs - a.busySinceMs).toNat ≤ (later - a.busySinceMs).toNat := by
    rw [UInt64.toNat_sub_of_le _ _ since, UInt64.toNat_sub_of_le _ _ (UInt64.le_trans since after)]
    omega
  exact_mod_cast span

/-- With the flags up, the marks of the detector ride over the clock and the fault. -/
theorem mark_advance (up : c.busyFlags = true) (m : Marks) :
    ((c.mark m).accrueBusy nowMs).injectFault = ((c.accrueBusy nowMs).injectFault).mark m := by
  have still : any (c.mark m).irq (kIrqPreambleDetected ||| kIrqHeaderValid) = true := by
    rw [busyFlags] at up
    rw [mark, any_or, up, Bool.true_or]
  have accrued : (c.mark m).accrueBusy nowMs = (c.accrueBusy nowMs).mark m := by
    rw [busyFlags] at up
    simp only [accrueBusy, up, still]
    rfl
  rw [accrued]
  by_cases due : c.stuckIrqMs > 0 ∧ c.mode = .rx ∧ nowMs ≥ c.nextSpuriousMs
  · refine (if_pos due).trans ?_
    have fires : (c.accrueBusy nowMs).injectFault = { c.accrueBusy nowMs with
      irq := c.irq ||| kIrqPreambleDetected
      spuriousRaises := c.spuriousRaises + 1
      nextSpuriousMs := nowMs + c.stuckIrqMs.toUInt64 } := if_pos due
    rw [fires]
    simp only [mark]
    congr 1
    simp only [accrueBusy]
    ac_rfl
  · have rests : (c.accrueBusy nowMs).injectFault = c.accrueBusy nowMs := if_neg due
    rw [rests]
    exact if_neg due

/-- With the flags up, what has been detected before a tick would be detected by it. -/
theorem detect_tick (hears : c.mode = .rx) (up : c.busyFlags = true)
    (since : c.busySinceMs ≤ c.nowMs) (after : c.nowMs ≤ nowMs) :
    c.detect.tick nowMs = c.tick nowMs := by
  have listens : (c.mark c.marks).mode = .rx := hears
  rw [detect_eq, tick_eq, tick_eq, if_pos hears, if_pos listens, mark_advance up, mark_deliver,
    Option.map_map]
  refine Option.map_congr fun d delivered => ?_
  have air : d.air = { c.air with nowMs } :=
    (deliverPending_air delivered).trans (injectFault_air (c.accrueBusy nowMs))
  have clock : d.nowMs = nowMs := congrArg Air.nowMs air
  have raises : d.preambleRaises = c.preambleRaises := by
    rw [deliverPending_keeps preambleRaises (fun _ _ _ => rfl) delivered, injectFault]
    split <;> rfl
  refine detect_mark d (clock ▸ air) raises fun symbols heard => ?_
  rw [air]
  exact heard_later since after heard

/-- What makes a tick raise a flag the firmware waits out. -/
theorem any_raised_busy (c : Chip) (nowMs : UInt64) :
    any (c.raised (.tick nowMs)) (kIrqPreambleDetected ||| kIrqHeaderValid) = true ↔ c.mode = .rx ∧
      (c.FaultDue nowMs ∨ c.inbox ≠ [] ∨
        (c.preambleRaised = false ∧ Air.Heard { c.air with nowMs } kPreambleSymbols) ∨
        (c.headerRaised = false ∧ Air.Heard { c.air with nowMs } kHeaderSymbols)) := by
  have preamble : any kIrqPreambleDetected (kIrqPreambleDetected ||| kIrqHeaderValid) = true := by
    decide
  have header : any (kIrqHeaderValid ||| kIrqSyncWordValid)
      (kIrqPreambleDetected ||| kIrqHeaderValid) = true := by
    decide
  have frame : any deliveredFlags (kIrqPreambleDetected ||| kIrqHeaderValid) = true := by decide
  rw [any_raised_tick]
  simp only [preamble, header, frame, and_true]

/-- A tick that raises anything raises a flag the firmware waits out. -/
theorem raised_tick_eq_zero (c : Chip) (nowMs : UInt64) : c.raised (.tick nowMs) = 0 ↔
    any (c.raised (.tick nowMs)) (kIrqPreambleDetected ||| kIrqHeaderValid) = false := by
  constructor
  · intro zero
    simp [zero]
  · intro low
    rw [raised]
    split
    next hears =>
      have causes := mt (any_raised_busy c nowMs).mpr (by simp [low])
      simp only [hears, true_and, not_or] at causes
      obtain ⟨fault,idle,early,brief⟩ := causes
      have preamble : Air.preamble { c.air with nowMs } = 0 := if_neg early
      have header : Air.header { c.air with nowMs } = 0 := if_neg brief
      rw [if_neg fault, if_pos (not_not.mp idle), preamble, header]
      rfl
    next => rfl

/-- A tick that raises nothing at the millisecond of the chip does nothing. -/
theorem tick_idle (stands : c.Stands nowMs) (hears : c.mode = .rx)
    (idle : c.raised (.tick nowMs) = 0) : c.tick nowMs = some c := by
  have causes := mt (any_raised_busy c nowMs).mpr (by simp [idle])
  have clock : { c.air with nowMs } = c.air := by rw [← stands.clock]; rfl
  simp only [hears, true_and, not_or, clock] at causes
  obtain ⟨fault,empty,early,brief⟩ := causes
  have unheard : ¬c.HearsPreamble := early
  have unread : ¬c.HearsHeader := brief
  have deaf : c.detect = c := by
    rw [detect_eq, marks, if_neg unheard, if_neg unread, mark]
    simp [unheard,unread]
  rw [tick_eq, if_pos hears, accrueBusy_self stands.clock stands.last,
    injectFault_of_not_due (stands.clock ▸ fault), deliverPending_nil (not_not.mp empty),
    Option.map_some, deaf]

/-- What a tick would raise it raises later too. -/
theorem any_raised_later {later : UInt64} (since : c.busySinceMs ≤ nowMs) (after : nowMs ≤ later)
    (raises : any (c.raised (.tick nowMs)) (kIrqPreambleDetected ||| kIrqHeaderValid) = true) :
    any (c.raised (.tick later)) (kIrqPreambleDetected ||| kIrqHeaderValid) = true := by
  obtain ⟨hears,causes⟩ := (any_raised_busy c nowMs).mp raises
  refine (any_raised_busy c later).mpr ⟨hears,?_⟩
  have lasts (symbols : ℚ) (heard : Air.Heard { c.air with nowMs } symbols) :
      Air.Heard { c.air with nowMs := later } symbols :=
    heard_later (a := { c.air with nowMs }) since after heard
  rcases causes with fault | frame | preamble | header
  · exact .inl ⟨fault.1,UInt64.le_trans fault.2 after⟩
  · exact .inr (.inl frame)
  · exact .inr (.inr (.inl ⟨preamble.1,lasts _ preamble.2⟩))
  · exact .inr (.inr (.inr ⟨header.1,lasts _ header.2⟩))

/-- The flags outlive a tick. -/
theorem tick_busyFlags (ticked : c.tick nowMs = some d) : d.busyFlags = (c.busyFlags ||
    any (c.raised (.tick nowMs)) (kIrqPreambleDetected ||| kIrqHeaderValid)) := by
  rw [busyFlags, tick_irq ticked, any_or]
  rfl

theorem tick_busyMs (ticked : c.tick nowMs = some d) : d.busyMs =
    if c.busyFlags = true ∧ nowMs > c.lastBusyTickMs then
      c.busyMs + (nowMs - c.lastBusyTickMs).toUInt32
    else c.busyMs := by
  have books := congrArg Books.busyMs (tick_books ticked)
  refine books.trans ?_
  simp only [injectFault]
  split <;> rfl

/-- The faults a tick injects, and when the next is due. -/
theorem tick_faults (hears : c.mode = .rx) (ticked : c.tick nowMs = some d) :
    (d.nextSpuriousMs,d.spuriousRaises) =
      if c.FaultDue nowMs then (nowMs + c.stuckIrqMs.toUInt64,c.spuriousRaises + 1)
      else (c.nextSpuriousMs,c.spuriousRaises) := by
  have books := congrArg (fun b : Books => (b.nextSpuriousMs,b.spuriousRaises)) (tick_books ticked)
  refine books.trans ?_
  by_cases due : c.FaultDue nowMs
  · rw [if_pos due, injectFault, if_pos ⟨due.1,hears,due.2⟩]
    rfl
  · rw [if_neg due, injectFault_of_not_due (c := c.accrueBusy nowMs) due]
    rfl

/-- With the flags up, a tick before another is one more delivery as well, unless it injects
the fault. -/
theorem early_tick (stands : c.Stands nowMs) (hears : c.mode = .rx) (up : c.busyFlags = true)
    (rests : ¬c.FaultDue nowMs) {next : UInt64} (after : nowMs ≤ next) (rest : List UInt64) :
    run tick c (nowMs :: next :: rest) = (run tick c (next :: rest)).bind again := by
  have first : c.tick nowMs = c.deliverPending.map detect := by
    rw [tick_eq, if_pos hears, accrueBusy_self stands.clock stands.last,
      injectFault_of_not_due (stands.clock ▸ rests)]
  have fed : c.Fed := fun _ => .inl up
  have commutes := run_commutes Fed again (fun _ _ _ _ => tick_fed) (fun _ t fed => again_tick fed t)
    (next :: rest) c fed
  rw [← commutes, run_cons, first, again, if_pos hears, Option.bind_map]
  refine Option.bind_congr fun d delivered => ?_
  have air := deliverPending_air delivered
  have clock : d.nowMs = nowMs := (congrArg Air.nowMs air).trans stands.clock
  have since : d.busySinceMs ≤ d.nowMs := by
    rw [show d.busySinceMs = c.busySinceMs from congrArg Air.busySinceMs air, clock]
    exact stands.since
  have high : d.busyFlags = true := by
    rw [busyFlags] at up ⊢
    rw [deliverPending_irq delivered, any_or, up, Bool.true_or]
  rw [Function.comp, run_cons, run_cons, detect_tick ((deliverPending_mode delivered).trans hears) high
    since (clock ▸ after)]

/-- One chip has counted `extra` milliseconds more with the flags up than another. -/
structure Lags (extra : UInt32) (c d : Chip) : Prop where
  up : c.busyFlags = true
  high : d.busyFlags = true
  last : d.lastBusyTickMs = c.lastBusyTickMs
  busyMs : d.busyMs = c.busyMs + extra

theorem lags_tick {extra : UInt32} {c' d' : Chip} (lags : Lags extra c d)
    (ticked : c.tick nowMs = some c') (also : d.tick nowMs = some d') : Lags extra c' d' := by
  have first := tick_busyMs ticked
  have second := tick_busyMs also
  simp only [lags.up, lags.high, true_and, lags.last] at first second
  refine ⟨?_,?_,?_,?_⟩
  · rw [tick_busyFlags ticked, lags.up, Bool.true_or]
  · rw [tick_busyFlags also, lags.high, Bool.true_or]
  · rw [tick_lastBusyTickMs ticked, tick_lastBusyTickMs also]
  · rw [first, second, lags.busyMs]
    split
    · ac_rfl
    · rfl

/-- A tick that raises the flags before another has the other count the time between them. -/
theorem lags_start {early next : UInt64} {first second : Chip} (stands : c.Stands early)
    (low : c.busyFlags = false) (stirs : c.raised (.tick early) ≠ 0) (after : early < next)
    (ticked : c.tick early = some d) (plain : c.tick next = some first)
    (later : d.tick next = some second) : Lags (next - early).toUInt32 first second := by
  have raises : any (c.raised (.tick early)) (kIrqPreambleDetected ||| kIrqHeaderValid) = true := by
    simpa using mt (raised_tick_eq_zero c early).mpr stirs
  have ordered : early ≤ next := UInt64.le_of_lt after
  have high : d.busyFlags = true := by rw [tick_busyFlags ticked, raises, Bool.or_true]
  have unflagged (t : UInt64) : ¬(c.busyFlags = true ∧ t > c.lastBusyTickMs) := by simp [low]
  have counted : d.busyMs = c.busyMs := by rw [tick_busyMs ticked, if_neg (unflagged early)]
  have still : first.busyMs = c.busyMs := by rw [tick_busyMs plain, if_neg (unflagged next)]
  have late := tick_lastBusyTickMs ticked
  refine ⟨?_,?_,?_,?_⟩
  · rw [tick_busyFlags plain, any_raised_later stands.since ordered raises, Bool.or_true]
  · rw [tick_busyFlags later, high, Bool.true_or]
  · rw [tick_lastBusyTickMs later, tick_lastBusyTickMs plain]
  · rw [tick_busyMs later, late, if_pos ⟨high,after⟩, counted, still]

theorem unflagged_tick {early next : UInt64} (stands : c.Stands early) (low : c.busyFlags = false)
    (stirs : c.raised (.tick early) ≠ 0) (after : early < next) (small : next.toNat < UInt32.size)
    (rest : List UInt64) (whole : run tick c (next :: rest) = some d)
    (sliced : run tick c (early :: next :: rest) = some d) : False := by
  obtain ⟨m,ticked,sliced⟩ := run_cons_eq_some.mp sliced
  obtain ⟨first,plain,whole⟩ := run_cons_eq_some.mp whole
  obtain ⟨second,later,sliced⟩ := run_cons_eq_some.mp sliced
  have start := lags_start stands low stirs after ticked plain later
  have final : Lags (next - early).toUInt32 d d := by
    refine run_relates (p := fun _ _ => True) (Lags _) ?_ whole sliced ?_ start
    · exact fun _ _ _ _ _ lags _ => lags_tick lags
    · exact each_of_forall (fun _ _ => trivial) first rest
  have none := UInt32.left_eq_add.mp final.busyMs
  have span := congrArg UInt32.toNat none
  have ordered := UInt64.lt_iff_toNat_lt.mp after
  rw [UInt64.toNat_toUInt32, UInt64.toNat_sub_of_le _ _ (UInt64.le_of_lt after),
    UInt32.toNat_zero] at span
  rw [UInt32.size] at small
  omega

/-- A chip whose fault can fire, before a tick: it is due and fires, or it is not. -/
theorem tick_phase (hears : c.mode = .rx) (period : c.stuckIrqMs > 0)
    (small : nowMs.toNat < UInt32.size) (ticked : c.tick nowMs = some d) :
    (c.nextSpuriousMs.toNat ≤ nowMs.toNat ∧
      d.nextSpuriousMs.toNat = nowMs.toNat + c.stuckIrqMs.toNat ∧
      d.spuriousRaises = c.spuriousRaises + 1) ∨
    (nowMs.toNat < c.nextSpuriousMs.toNat ∧ d.nextSpuriousMs = c.nextSpuriousMs ∧
      d.spuriousRaises = c.spuriousRaises) := by
  have faults := tick_faults hears ticked
  by_cases due : c.FaultDue nowMs
  · rw [if_pos due] at faults
    obtain ⟨next,raises⟩ := Prod.mk.inj faults
    refine .inl ⟨UInt64.le_iff_toNat_le.mp due.2,?_,raises⟩
    have bound := c.stuckIrqMs.toNat_lt
    rw [UInt32.size] at small
    rw [next, UInt64.toNat_add, UInt32.toNat_toUInt64]
    omega
  · rw [if_neg due] at faults
    obtain ⟨next,raises⟩ := Prod.mk.inj faults
    refine .inr ⟨?_,next,raises⟩
    exact Nat.lt_of_not_le fun passed => due ⟨period,UInt64.le_iff_toNat_le.mpr passed⟩

/-- A tick at the millisecond of the chip, or at the next. -/
def Follows (c : Chip) (nowMs : UInt64) : Prop :=
  nowMs.toNat < UInt32.size ∧ (nowMs = c.nowMs ∨ nowMs.toNat = c.nowMs.toNat + 1)

/-- Two chips whose faults are a millisecond out of step. -/
structure OutOfStep (c d : Chip) : Prop where
  hears : c.mode = .rx
  listens : d.mode = .rx
  period : c.stuckIrqMs > 0
  same : d.stuckIrqMs = c.stuckIrqMs
  apart : (d.spuriousRaises = c.spuriousRaises ∧
      c.nextSpuriousMs.toNat = d.nextSpuriousMs.toNat + 1 ∧
      c.nowMs.toNat < d.nextSpuriousMs.toNat) ∨
    (d.spuriousRaises = c.spuriousRaises + 1 ∧ c.nextSpuriousMs.toNat = c.nowMs.toNat + 1 ∧
      d.nextSpuriousMs.toNat = c.nowMs.toNat + c.stuckIrqMs.toNat)

theorem outOfStep_tick {c' d' : Chip} (out : OutOfStep c d) (follows : c.Follows nowMs)
    (ticked : c.tick nowMs = some c') (also : d.tick nowMs = some d') : OutOfStep c' d' := by
  obtain ⟨small,near⟩ := follows
  have period : c'.stuckIrqMs = c.stuckIrqMs := congrArg Settings.stuckIrqMs (tick_settings ticked)
  have same : d'.stuckIrqMs = d.stuckIrqMs := congrArg Settings.stuckIrqMs (tick_settings also)
  have some' := UInt32.lt_iff_toNat_lt.mp out.period
  have equal := congrArg UInt32.toNat out.same
  rw [UInt32.toNat_zero] at some'
  refine ⟨(tick_mode ticked).trans out.hears,(tick_mode also).trans out.listens,
    period ▸ out.period,same.trans (out.same.trans period.symm),?_⟩
  have clock : nowMs.toNat = c.nowMs.toNat ∨ nowMs.toNat = c.nowMs.toNat + 1 :=
    near.imp_left (congrArg UInt64.toNat)
  rw [tick_nowMs ticked, period]
  have first := tick_phase out.hears out.period small ticked
  have second := tick_phase out.listens (out.same ▸ out.period) small also
  rcases out.apart with ⟨raises,next,ahead⟩ | ⟨raises,next,other⟩
  -- Neither has fired since: the second chip's turn comes first.
  · rcases first with ⟨due,_,_⟩ | ⟨_,nextC,raisesC⟩
    · omega
    rcases second with ⟨fires,nextD,raisesD⟩ | ⟨waits,nextD,raisesD⟩
    · refine .inr ⟨?_,?_,?_⟩
      · rw [raisesD, raisesC, raises]
      · rw [nextC]; omega
      · omega
    · refine .inl ⟨?_,?_,?_⟩
      · rw [raisesD, raisesC, raises]
      · rw [nextC, nextD]; omega
      · rw [nextD]; exact waits
  -- The second has fired and the first is due at the next millisecond.
  · rcases first with ⟨due,nextC,raisesC⟩ | ⟨rests,nextC,raisesC⟩
    · rcases second with ⟨fires,nextD,raisesD⟩ | ⟨waits,nextD,raisesD⟩
      · refine .inr ⟨?_,?_,?_⟩
        · rw [raisesD, raisesC, raises]
        · omega
        · omega
      · refine .inl ⟨?_,?_,?_⟩
        · rw [raisesD, raisesC, raises]
        · rw [nextD]; omega
        · rw [nextD]; exact waits
    · rcases second with ⟨fires,nextD,raisesD⟩ | ⟨waits,nextD,raisesD⟩
      · omega
      · refine .inr ⟨?_,?_,?_⟩
        · rw [raisesD, raisesC, raises]
        · rw [nextC]; omega
        · rw [nextD]; omega

theorem outOfStep_start {early next : UInt64} {first second : Chip} (hears : c.mode = .rx)
    (due : c.FaultDue early) (succ : next.toNat = early.toNat + 1) (small : next.toNat < UInt32.size)
    (ticked : c.tick early = some d) (plain : c.tick next = some first)
    (later : d.tick next = some second) : OutOfStep first second := by
  have listens := (tick_mode ticked).trans hears
  have same : d.stuckIrqMs = c.stuckIrqMs := congrArg Settings.stuckIrqMs (tick_settings ticked)
  have kept : first.stuckIrqMs = c.stuckIrqMs := congrArg Settings.stuckIrqMs (tick_settings plain)
  have still : second.stuckIrqMs = c.stuckIrqMs :=
    (congrArg Settings.stuckIrqMs (tick_settings later)).trans same
  have equal := congrArg UInt32.toNat same
  have some' := UInt32.lt_iff_toNat_lt.mp due.1
  have passed := UInt64.le_iff_toNat_le.mp due.2
  rw [UInt32.toNat_zero] at some'
  refine ⟨(tick_mode plain).trans hears,(tick_mode later).trans listens,kept ▸ due.1,
    still.trans kept.symm,?_⟩
  rw [tick_nowMs plain, kept]
  rcases tick_phase hears due.1 (by omega) ticked with ⟨_,nextD,raisesD⟩ | ⟨waits,_⟩
  · rcases tick_phase hears due.1 small plain with ⟨_,nextC,raisesC⟩ | ⟨waits,_⟩
    · rcases tick_phase listens (same ▸ due.1) small later with ⟨_,nextE,raisesE⟩ | ⟨rests,nextE,raisesE⟩
      · exact .inr ⟨by rw [raisesE, raisesD, raisesC],by omega,by omega⟩
      · exact .inl ⟨by rw [raisesE, raisesD, raisesC],by rw [nextE]; omega,by rw [nextE]; exact rests⟩
    · omega
  · omega

/-- A fault that fires a millisecond early stays out of step for ever. -/
theorem faulty_tick {early next : UInt64} (hears : c.mode = .rx) (due : c.FaultDue early)
    (succ : next.toNat = early.toNat + 1) (rest : List UInt64)
    (follows : Each tick Follows c (next :: rest)) (whole : run tick c (next :: rest) = some d)
    (sliced : run tick c (early :: next :: rest) = some d) : False := by
  obtain ⟨m,ticked,sliced⟩ := run_cons_eq_some.mp sliced
  obtain ⟨first,plain,whole⟩ := run_cons_eq_some.mp whole
  obtain ⟨second,later,sliced⟩ := run_cons_eq_some.mp sliced
  have start := outOfStep_start hears due succ follows.1.1 ticked plain later
  have final : OutOfStep d d := by
    refine run_relates OutOfStep ?_ whole sliced (follows.2 first plain) start
    exact fun _ _ _ _ _ => outOfStep_tick
  rcases final.apart with ⟨_,next,_⟩ | ⟨raises,_⟩
  · omega
  · simpa using UInt32.left_eq_add.mp raises

/-- Ticks a millisecond apart, the last of them twice. -/
theorem each_follows (turns clock : ℕ) (fits : clock + turns < UInt32.size)
    (same : c.nowMs.toNat = clock) :
    Each tick Follows c ((List.range' (clock + 1) turns ++ [clock + turns]).map UInt64.ofNat) := by
  have value (t : ℕ) (small : t < UInt32.size) : (UInt64.ofNat t).toNat = t := by
    rw [UInt32.size] at small
    exact UInt64.toNat_ofNat_of_lt' (by rw [UInt64.size]; omega)
  induction turns generalizing c clock with
  | zero =>
    have now := value clock (by omega)
    refine ⟨⟨by rw [Nat.add_zero, now]; omega,.inl ?_⟩,fun _ _ => trivial⟩
    exact UInt64.toNat_inj.mp (by rw [Nat.add_zero, now, same])
  | succ turns ih =>
    have next := value (clock + 1) (by omega)
    rw [List.range'_succ, show clock + (turns + 1) = clock + 1 + turns by omega]
    refine ⟨⟨by rw [next]; omega,.inr (by rw [next, same])⟩,fun d ticked => ?_⟩
    exact ih (clock + 1) (by omega) (by rw [tick_nowMs ticked, next])

/-- Two runs of ticks, one of which begins with another tick at the millisecond of the chip,
end alike exactly when that tick does nothing, or one more delivery does nothing. -/
theorem early_tick_iff {early next : UInt64} (stands : c.Stands early) (hears : c.mode = .rx)
    (succ : next.toNat = early.toNat + 1) (rest : List UInt64)
    (follows : Each tick Follows c (next :: rest)) :
    (∃ d, run tick c (next :: rest) = some d ∧ run tick c (early :: next :: rest) = some d) ↔
      (∀ f ∈ c.inbox, c.FitsSlot f) ∧ c.inbox.length ≤ (next :: rest).length ∧
        (c.raised (.tick early) = 0 ∨ (c.busyFlags = true ∧ ¬c.FaultDue early)) := by
  have after : early < next := UInt64.lt_iff_toNat_lt.mpr (by omega)
  have settled := run_tick_settled c (next :: rest)
  simp only [hears, true_imp_iff] at settled
  constructor
  · rintro ⟨d,whole,sliced⟩
    have fits := (run_tick_isSome c (next :: rest)).mp (by rw [whole]; rfl) hears
    have left := (run_tick_inbox _ whole).2
    have more := (run_tick_inbox _ sliced).2
    rw [if_pos hears] at left more
    have delivered : c.inbox.length ≤ (next :: rest).length := by
      have lengths := congrArg List.length (left.symm.trans more)
      simp only [List.length_drop, List.length_cons] at lengths ⊢
      omega
    rw [List.take_of_length_le delivered] at fits
    refine ⟨fits,delivered,?_⟩
    by_contra neither
    obtain ⟨stirs,either⟩ := not_or.mp neither
    cases up : c.busyFlags with
    | false => exact unflagged_tick stands up stirs after follows.1.1 rest whole sliced
    | true =>
      have due : c.FaultDue early := by
        by_contra rests
        exact either ⟨up,rests⟩
      exact faulty_tick hears due succ rest follows whole sliced
  · rintro ⟨fits,delivered,idle | ⟨up,rests⟩⟩
    · obtain ⟨d,ran,_⟩ := settled.mpr ⟨fits,delivered⟩
      refine ⟨d,ran,?_⟩
      rw [run_cons, tick_idle stands hears idle, Option.bind_some, ran]
    · obtain ⟨d,ran,same⟩ := settled.mpr ⟨fits,delivered⟩
      refine ⟨d,ran,?_⟩
      rw [early_tick stands hears up rests (UInt64.le_of_lt after), ran, Option.bind_some, same]

/-- A run of ticks stands at the last of them. -/
theorem run_tick_stands {early : UInt64} (stands : c.Stands early) (pre : List UInt64)
    (after : early ≤ nowMs) (ran : run tick c (pre ++ [nowMs]) = some d) : d.Stands nowMs := by
  obtain ⟨m,earlier,ticked⟩ := run_concat_eq_some.mp ran
  have kept : m.busySinceMs = c.busySinceMs := by
    refine run_invariant (fun m => m.busySinceMs = c.busySinceMs) ?_ earlier rfl
    intro m t next same ticked
    exact (congrArg Settings.busySinceMs (tick_settings ticked)).trans same
  refine ⟨tick_nowMs ticked,tick_lastBusyTickMs ticked,?_⟩
  rw [show d.busySinceMs = m.busySinceMs from congrArg Settings.busySinceMs (tick_settings ticked),
    kept]
  exact UInt64.le_trans stands.since after

/-- Only a tick touches the books, and none the period of the fault. -/
theorem step_books {next : Chip} (stepped : c.step op = some next) (untimed : op.time? = none) :
    next.books = c.books ∧ next.stuckIrqMs = c.stuckIrqMs := by
  have kept {a b : Chip} (same : a.core = b.core) :
      a.books = b.books ∧ a.stuckIrqMs = b.stuckIrqMs := by
    have books := congrArg books same
    have period := congrArg stuckIrqMs same
    exact ⟨books,period⟩
  rcases step_event stepped with ⟨event,core⟩ | ⟨e,d,event,applied,core⟩
  · exact kept core
  rw [(kept core).1, (kept core).2]
  cases e with
  | command cmd =>
    have around := (act_acts applied).surroundings
    have books := congrArg books around
    have period := congrArg stuckIrqMs around
    exact ⟨books,period⟩
  | tick t =>
    obtain rfl := (event_eq_some rfl).mp event
    cases untimed
  | txDone =>
    obtain rfl := Option.some.inj applied
    exact ⟨transmitFinished_keeps books (fun _ _ _ => rfl) c,
      transmitFinished_keeps stuckIrqMs (fun _ _ _ => rfl) c⟩
  | _ => exact Option.some.inj applied ▸ ⟨rfl,rfl⟩

/-- Only a tick moves the time up to which the flags have been counted. -/
theorem step_lastBusyTickMs {next : Chip} (stepped : c.step op = some next) :
    next.lastBusyTickMs = op.time?.getD c.lastBusyTickMs := by
  cases timed : op.time? with
  | none => exact congrArg Books.lastBusyTickMs (step_books stepped timed).1
  | some t =>
    obtain rfl := ChipOp.time?_eq_some.mp timed
    exact tick_lastBusyTickMs stepped

/-- A step that is no tick leaves the chip at its millisecond. -/
theorem step_stands {next : Chip} (stands : c.Stands nowMs) (untimed : op.time? = none)
    (stepped : c.step op = some next) : next.Stands nowMs := by
  have ears := step_ears stepped
  have clock : (c.ears.after op).nowMs = c.nowMs := by
    cases op <;> first | rfl | cases untimed
  have since : (c.ears.after op).busySinceMs ≤ nowMs := by
    cases op with
    | channelBusy busy =>
      simp only [Ears.after]
      split
      · exact UInt64.le_of_eq stands.clock
      · exact stands.since
    | _ => exact stands.since
  have last := step_lastBusyTickMs stepped
  rw [untimed] at last
  rw [← ears] at clock since
  exact ⟨clock.trans stands.clock,last.trans stands.last,since⟩

end Chip
end Meshcore
