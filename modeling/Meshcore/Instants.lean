import Meshcore.Bounds
import Meshcore.Detection
import Meshcore.Latching
import Mathlib.Tactic.Positivity
import Mathlib.Tactic.Linarith

/-! When the detector answers. While the air stays busy the latches say nothing but how
much time has passed since it turned busy, however finely time is ticked and however
often the air is reported busy again. -/
namespace Meshcore

open Checked Flags Runs

namespace Chip

/-- What the detector has raised for the signal on the air, preamble and header. -/
def detections (c : Chip) : Bool × Bool := (c.preambleRaised,c.headerRaised)

/-- What an event makes of the latches. -/
def detectionsAfter (c : Chip) : Event → Bool × Bool
  | .command cmd =>
    (c.preambleRaised && !any (Event.command cmd).cleared kIrqPreambleDetected,
      c.headerRaised && !any (Event.command cmd).cleared kIrqHeaderValid)
  | .tick nowMs =>
    if c.mode = .rx then
      (c.preambleRaised || decide (Air.Heard { c.air with nowMs } kPreambleSymbols),
        c.headerRaised || decide (Air.Heard { c.air with nowMs } kHeaderSymbols))
    else c.detections
  | .channelBusy busy => (c.preambleRaised && busy,c.headerRaised && busy)
  | .setFem _ | .frame _ | .txDone | .drain => c.detections

/-- Every opcode, once. -/
theorem act_detections {c d : Chip} (acted : c.act cmd = some d) :
    d.detections = c.detectionsAfter (.command cmd) := by
  rw [act] at acted
  cases op : opcode? (arg cmd 0) with
  | none =>
    obtain rfl : c = d := by simpa [op] using acted
    simp [detectionsAfter,detections,Event.cleared,Event.executes,op]
  | some o =>
    cases o
    all_goals simp only [op] at acted
    case setTx =>
      obtain ⟨_,_,rfl⟩ := startTx_eq_some.mp acted
      simp [detectionsAfter,detections,Event.cleared,Event.executes,op]
    all_goals obtain rfl := Option.some.inj acted
    case clearIrqStatus =>
      by_cases complete : 3 ≤ cmd.length
      · cases preamble : any (be16 (arg cmd 1) (arg cmd 2)) kIrqPreambleDetected <;>
          cases header : any (be16 (arg cmd 1) (arg cmd 2)) kIrqHeaderValid <;>
            simp [detectionsAfter,detections,Event.cleared,Event.executes,op,complete,preamble,header]
      · simp [detectionsAfter,detections,Event.cleared,Event.executes,op,complete]
    all_goals simp only [detectionsAfter, Event.cleared, Event.executes, op, reduceCtorEq,
      Option.some.injEq, false_and, ite_false, BitVec.ofNat_eq_ofNat, any_zero_left, Bool.not_false,
      Bool.and_true]
    all_goals first
      | rfl
      | (split <;> rfl)

theorem detect_detections (c : Chip) : c.detect.detections =
    (c.preambleRaised || decide (c.air.Heard kPreambleSymbols),
      c.headerRaised || decide (c.air.Heard kHeaderSymbols)) := by
  have latch (raised : Bool) (p : Prop) [Decidable p] :
      (if raised = false ∧ p then true else raised) = (raised || decide p) := by
    cases raised <;> simp
  rw [detect_eq, detections, ← latch, ← latch]
  rfl

/-- A step moves the latches as its event says. -/
theorem step_detections {c next : Chip} (stepped : c.step op = some next) :
    next.detections = match c.event op with
      | some e => c.detectionsAfter e
      | none => c.detections := by
  have ignored {a b : Chip} (same : a.core = b.core) : a.detections = b.detections := by
    have := congrArg detections same
    exact this
  rcases step_event stepped with ⟨event,core⟩ | ⟨e,d,event,applied,core⟩
  · rw [event, ignored core]
  rw [event, ignored core]
  cases e with
  | command cmd => exact act_detections applied
  | tick nowMs =>
    have moved := tick_eq c nowMs
    rw [show c.tick nowMs = some d from applied] at moved
    simp only [detectionsAfter]
    split at moved
    next hears =>
      obtain ⟨m,delivered,rfl⟩ := Option.map_eq_some_iff.mp moved.symm
      have air : m.air = { c.air with nowMs } :=
        (deliverPending_air delivered).trans (injectFault_air (c.accrueBusy nowMs))
      have preamble : m.preambleRaised = c.preambleRaised := congrArg Air.preambleRaised air
      have header : m.headerRaised = c.headerRaised := congrArg Air.headerRaised air
      rw [if_pos hears, detect_detections, air, preamble, header]
    next deaf =>
      obtain rfl := Option.some.inj moved
      rw [if_neg deaf]
      rfl
  | txDone =>
    obtain rfl := Option.some.inj applied
    exact transmitFinished_keeps detections (fun _ _ _ => rfl) c
  | channelBusy busy =>
    obtain rfl := Option.some.inj applied
    cases busy <;> simp [detectionsAfter,detections,setChannelBusy]
  | _ => exact Option.some.inj applied ▸ rfl

/-- An operation while the air stays busy: a tick goes forward and finds the chip in
receive mode, a report says busy again, no flag is cleared and the modulation stays. -/
structure Listens (c : Chip) (op : ChipOp) : Prop where
  tick : ∀ nowMs, op = .tick nowMs → c.mode = .rx ∧ c.nowMs ≤ nowMs
  busy : ∀ busy, op = .channelBusy busy → busy = true
  uncleared : c.clears op = 0
  modulation : ∀ next, c.step op = some next → next.sf = c.sf ∧ next.bwKHz = c.bwKHz

/-- The signal that began on `c` has lasted for `symbols` of the modem's when the clock
is at `nowMs`. -/
def Reached (c : Chip) (nowMs : UInt64) (symbols : ℚ) : Prop :=
  (nowMs.toNat : ℚ) - c.nowMs.toNat ≥ symbols * c.symbolMs

/-- What is known of `d` while the signal that began on `c` lasts. -/
structure Stretch (c d : Chip) : Prop where
  busy : d.channelBusy = true
  since : d.busySinceMs = c.nowMs
  later : c.nowMs ≤ d.nowMs
  symbolMs : d.symbolMs = c.symbolMs
  preamble : d.preambleRaised = true ↔ c.Reached d.nowMs kPreambleSymbols
  header : d.headerRaised = true ↔ c.Reached d.nowMs kHeaderSymbols
  preambleFlag : d.preambleRaised = true → any d.irq kIrqPreambleDetected = true
  headerFlags : d.headerRaised = true →
    any d.irq kIrqHeaderValid = true ∧ any d.irq kIrqSyncWordValid = true

variable {c d next : Chip}

theorem Reached.mono {nowMs later : UInt64} (reached : c.Reached nowMs symbols)
    (after : nowMs ≤ later) : c.Reached later symbols := by
  have ordered : (nowMs.toNat : ℚ) ≤ later.toNat := by
    exact_mod_cast UInt64.le_iff_toNat_le.mp after
  rw [Reached] at reached ⊢
  linarith

theorem Stretch.heard (stretch : Stretch c d) {nowMs : UInt64} (later : d.nowMs ≤ nowMs)
    (symbols : ℚ) : Air.Heard { d.air with nowMs } symbols ↔ c.Reached nowMs symbols := by
  have ordered : c.nowMs ≤ nowMs := UInt64.le_trans stretch.later later
  simp only [Air.Heard, air, stretch.busy, stretch.since, stretch.symbolMs, true_and, Reached,
    UInt64.toNat_sub_of_le _ _ ordered, Nat.cast_sub (UInt64.le_iff_toNat_le.mp ordered)]

/-- A signal that is not yet latched has not lasted, and one that is latched stays so. -/
theorem latched_iff (stretch : Stretch c d) {nowMs : UInt64} (later : d.nowMs ≤ nowMs)
    {raised : Bool} (before : raised = true ↔ c.Reached d.nowMs symbols) :
    (raised || decide (Air.Heard { d.air with nowMs } symbols)) = true ↔
      c.Reached nowMs symbols := by
  rw [Bool.or_eq_true, decide_eq_true_iff, stretch.heard later, before]
  exact ⟨fun either => either.elim (·.mono later) id,.inr⟩

theorem stretch_start (quiet : c.channelBusy = false) (unlatched : c.detections = (false,false))
    (symbol : 0 < c.symbolMs) : Stretch c (c.setChannelBusy true) := by
  obtain ⟨preamble,header⟩ := Prod.mk.inj unlatched
  have early (symbols : ℚ) (some : 0 < symbols) : ¬c.Reached c.nowMs symbols := by
    have positive : 0 < symbols * c.symbolMs := mul_pos some symbol
    rw [Reached, sub_self]
    exact not_le.mpr positive
  have preambleLow : (c.setChannelBusy true).preambleRaised = false := preamble
  have headerLow : (c.setChannelBusy true).headerRaised = false := header
  refine ⟨rfl,by simp [setChannelBusy,quiet],UInt64.le_refl _,rfl,?_,?_,?_,?_⟩
  · exact iff_of_false (by simp [preambleLow]) (early _ (by norm_num [kPreambleSymbols]))
  · exact iff_of_false (by simp [headerLow]) (early _ (by norm_num [kHeaderSymbols]))
  · simp [preambleLow]
  · simp [headerLow]

/-- With nothing cleared, only a tick moves the latches. -/
theorem detections_still (listens : d.Listens op) (untimed : op.time? = none)
    (stepped : d.step op = some next) : next.detections = d.detections := by
  have moved := step_detections stepped
  have uncleared := listens.uncleared
  cases event : d.event op with
  | none => rw [event] at moved; exact moved
  | some e =>
    rw [event] at moved
    cases e with
    | command cmd =>
      have zero : (Event.command cmd).cleared = 0 := by
        rw [clears, executed, event] at uncleared
        exact uncleared
      simpa [detectionsAfter,zero,detections] using moved
    | tick nowMs =>
      obtain rfl := (event_eq_some rfl).mp event
      cases untimed
    | channelBusy busy =>
      obtain rfl := (event_eq_some rfl).mp event
      obtain rfl := listens.busy busy rfl
      simpa [detectionsAfter,detections] using moved
    | _ => exact moved

/-- While the air is busy, a further report of it changes nothing. -/
theorem ears_still (listens : d.Listens op) (untimed : op.time? = none)
    (busy : d.channelBusy = true) (stepped : d.step op = some next) : next.ears = d.ears := by
  rw [step_ears stepped]
  cases op with
  | tick nowMs => cases untimed
  | channelBusy again =>
    obtain rfl := listens.busy again rfl
    simp [Ears.after,ears,busy]
  | _ => rfl

/-- With nothing cleared, the flags only grow. -/
theorem listens_irq (listens : d.Listens op) (stepped : d.step op = some next)
    (mask : BitVec 16) : any next.irq mask = (any d.irq mask || any (d.raises op) mask) := by
  rw [step_irq stepped, listens.uncleared]
  exact (congrArg (fun word => any word mask) (latch_raise _ _)).trans any_or

theorem listens_set (listens : d.Listens op) (stepped : d.step op = some next) {mask : BitVec 16}
    (set : any d.irq mask = true) : any next.irq mask = true := by
  rw [listens_irq listens stepped, set, Bool.true_or]

theorem stretch_symbolMs (listens : d.Listens op) (stretch : Stretch c d)
    (stepped : d.step op = some next) : next.symbolMs = c.symbolMs := by
  obtain ⟨sf,bwKHz⟩ := listens.modulation next stepped
  rw [← stretch.symbolMs, Chip.symbolMs, Chip.symbolMs, sf, bwKHz]

/-- Between ticks nothing of it moves. -/
theorem stretch_untimed (listens : d.Listens op) (untimed : op.time? = none) (stretch : Stretch c d)
    (stepped : d.step op = some next) : Stretch c next := by
  have ears := ears_still listens untimed stretch.busy stepped
  have clock : next.nowMs = d.nowMs := congrArg Ears.nowMs ears
  have busy : next.channelBusy = d.channelBusy := congrArg Ears.channelBusy ears
  have since : next.busySinceMs = d.busySinceMs := congrArg Ears.busySinceMs ears
  have still {mask : BitVec 16} (set : any d.irq mask = true) := listens_set listens stepped set
  obtain ⟨preamble,header⟩ := Prod.mk.inj (detections_still listens untimed stepped)
  refine ⟨busy.trans stretch.busy,since.trans stretch.since,clock ▸ stretch.later,
    stretch_symbolMs listens stretch stepped,?_,?_,?_,?_⟩
  · rw [preamble, clock, stretch.preamble]
  · rw [header, clock, stretch.header]
  · exact fun up => still (stretch.preambleFlag (preamble ▸ up))
  · exact fun up => (stretch.headerFlags (header ▸ up)).imp still still

/-- A tick raises the flags of the latches that come up at it. -/
theorem stretch_tick {nowMs : UInt64} (listens : d.Listens (.tick nowMs)) (stretch : Stretch c d)
    (stepped : d.step (.tick nowMs) = some next) : Stretch c next := by
  obtain ⟨hears,later⟩ := listens.tick nowMs rfl
  have ears := step_ears stepped
  have clock : next.nowMs = nowMs := congrArg Ears.nowMs ears
  have busy : next.channelBusy = d.channelBusy := congrArg Ears.channelBusy ears
  have since : next.busySinceMs = d.busySinceMs := congrArg Ears.busySinceMs ears
  have latches : next.detections = d.detectionsAfter (.tick nowMs) := step_detections stepped
  simp only [detectionsAfter, hears, ite_true] at latches
  obtain ⟨preamble,header⟩ := Prod.mk.inj latches
  have still {mask : BitVec 16} (set : any d.irq mask = true) := listens_set listens stepped set
  have fresh {mask : BitVec 16} (raises : any (d.raises (.tick nowMs)) mask = true) :
      any next.irq mask = true := by
    rw [listens_irq listens stepped, raises, Bool.or_true]
  refine ⟨busy.trans stretch.busy,since.trans stretch.since,
    clock ▸ UInt64.le_trans stretch.later later,stretch_symbolMs listens stretch stepped,
    ?_,?_,?_,?_⟩
  · rw [preamble, clock, latched_iff stretch later stretch.preamble]
  · rw [header, clock, latched_iff stretch later stretch.header]
  · intro up
    cases already : d.preambleRaised with
    | true => exact still (stretch.preambleFlag already)
    | false =>
      have heard := of_decide_eq_true (by simpa [preamble,already] using up)
      exact fresh ((any_raised_tick d nowMs _).mpr
        ⟨hears,.inr (.inr (.inl ⟨already,heard,by decide⟩))⟩)
  · intro up
    cases already : d.headerRaised with
    | true => exact (stretch.headerFlags already).imp still still
    | false =>
      have heard := of_decide_eq_true (by simpa [header,already] using up)
      have named {mask : BitVec 16}
          (inside : any (kIrqHeaderValid ||| kIrqSyncWordValid) mask = true) :
          any next.irq mask = true :=
        fresh ((any_raised_tick d nowMs mask).mpr
          ⟨hears,.inr (.inr (.inr ⟨already,heard,inside⟩))⟩)
      exact ⟨named (by decide),named (by decide)⟩

theorem stretch_step (listens : d.Listens op) (stretch : Stretch c d)
    (stepped : d.step op = some next) : Stretch c next := by
  cases op with
  | tick nowMs => exact stretch_tick listens stretch stepped
  | _ => exact stretch_untimed listens rfl stretch stepped

theorem listens_later (listens : d.Listens op) (stepped : d.step op = some next) :
    d.nowMs ≤ next.nowMs := by
  have clock : next.nowMs = (d.ears.after op).nowMs := congrArg Ears.nowMs (step_ears stepped)
  rw [clock]
  cases op with
  | tick nowMs => exact (listens.tick nowMs rfl).2
  | _ => exact UInt64.le_refl _

/-- Along a stretch each latch rises at most once, and is up when it has risen. -/
theorem run_stretch (start : Stretch c (c.setChannelBusy true)) (unlatched : c.detections = (false,false))
    (ran : run step (c.setChannelBusy true) ops = some d)
    (listens : Each step Listens (c.setChannelBusy true) ops) : Stretch c d ∧
      rises step preambleRaised (c.setChannelBusy true) ops = (if d.preambleRaised then 1 else 0) ∧
      rises step headerRaised (c.setChannelBusy true) ops = (if d.headerRaised then 1 else 0) := by
  obtain ⟨preambleLow,headerLow⟩ := Prod.mk.inj unlatched
  refine run_induction (motive := fun ops d => Each step Listens (c.setChannelBusy true) ops →
    Stretch c d ∧
    rises step preambleRaised (c.setChannelBusy true) ops = (if d.preambleRaised then 1 else 0) ∧
    rises step headerRaised (c.setChannelBusy true) ops = (if d.headerRaised then 1 else 0))
    ?_ ?_ ops ran listens
  · refine fun _ => ⟨start,?_,?_⟩
    · simp [rises,setChannelBusy,preambleLow]
    · simp [rises,setChannelBusy,headerLow]
  · intro ops d op next ran stepped earlier listens
    obtain ⟨before,last⟩ := each_append.mp listens
    obtain ⟨stretch,preamble,header⟩ := earlier before
    have guard : d.Listens op := (last d ran).1
    have onward := stretch_step guard stretch stepped
    have later := listens_later guard stepped
    refine ⟨onward,?_,?_⟩
    · rw [rises_concat ran stepped, preamble]
      cases up : d.preambleRaised with
      | false => cases up' : next.preambleRaised <;> simp
      | true =>
        have still := onward.preamble.mpr ((stretch.preamble.mp up).mono later)
        simp [still]
    · rw [rises_concat ran stepped, header]
      cases up : d.headerRaised with
      | false => cases up' : next.headerRaised <;> simp
      | true =>
        have still := onward.header.mpr ((stretch.header.mp up).mono later)
        simp [still]

/-! What a chip is like when the air turns busy. -/

structure Idle (c : Chip) : Prop where
  bwKHz : 0 < c.bwKHz
  unlatched : c.channelBusy = false → c.detections = (false,false)

/-- A quiet air leaves nothing latched, and nothing is latched out of it. -/
theorem unlatched_step (unlatched : c.channelBusy = false → c.detections = (false,false))
    (stepped : c.step op = some next) (quiet : next.channelBusy = false) :
    next.detections = (false,false) := by
  have busy : next.channelBusy = (c.ears.after op).channelBusy :=
    congrArg Ears.channelBusy (step_ears stepped)
  rw [step_detections stepped]
  rw [busy] at quiet
  cases event : c.event op with
  | none =>
    have same : (c.ears.after op).channelBusy = c.channelBusy := by
      cases op <;> first | rfl | cases event
    exact unlatched (same ▸ quiet)
  | some e =>
    cases e with
    | channelBusy again =>
      obtain rfl := (event_eq_some rfl).mp event
      obtain rfl : again = false := quiet
      simp [detectionsAfter]
    | tick nowMs =>
      obtain rfl := (event_eq_some rfl).mp event
      have still : c.channelBusy = false := quiet
      obtain ⟨preamble,header⟩ := Prod.mk.inj (unlatched still)
      simp [detectionsAfter,detections,preamble,header,Air.Heard,air,still]
    | command cmd =>
      have same : (c.ears.after op).channelBusy = c.channelBusy := by
        cases op <;> first | rfl | cases event
      obtain ⟨preamble,header⟩ := Prod.mk.inj (unlatched (same ▸ quiet))
      simp [detectionsAfter,preamble,header]
    | _ =>
      obtain rfl := (event_eq_some rfl).mp event
      exact unlatched quiet

theorem idle_step (idle : c.Idle) (stepped : c.step op = some next) : next.Idle :=
  ⟨bwKHz_pos_step idle.bwKHz stepped,unlatched_step idle.unlatched stepped⟩

theorem run_idle {stuckIrqMs : UInt32} (ran : run step (new stuckIrqMs) pre = some c) : c.Idle :=
  run_invariant Idle (fun _ _ _ idle stepped => idle_step idle stepped) ran
    ⟨by norm_num [new],fun _ => rfl⟩

/-- What the detector has made, at a tick at `nowMs`, of a signal that began on `c` and
through which `ops` led to `d`. -/
structure OnTime (c : Chip) (ops : List ChipOp) (nowMs : UInt64) (d : Chip) : Prop where
  preamble : d.preambleRaised = true ↔
    (nowMs.toNat : ℚ) - c.nowMs.toNat ≥ 4 * (2 ^ c.sf / c.bwKHz)
  header : d.headerRaised = true ↔
    (nowMs.toNat : ℚ) - c.nowMs.toNat ≥ 12 * (2 ^ c.sf / c.bwKHz)
  preambleFlag : d.preambleRaised = true → any d.irq kIrqPreambleDetected = true
  headerFlags : d.headerRaised = true →
    any d.irq kIrqHeaderValid = true ∧ any d.irq kIrqSyncWordValid = true
  preambleOnce : rises step preambleRaised (c.setChannelBusy true) ops =
    if d.preambleRaised then 1 else 0
  headerOnce : rises step headerRaised (c.setChannelBusy true) ops =
    if d.headerRaised then 1 else 0
  ordered : d.headerRaised = true → d.preambleRaised = true

/-- Up to the shift's range the detector is on time, whatever the chip went through
before, and whatever else happens while the air is busy. -/
theorem on_time {stuckIrqMs : UInt32} {nowMs : UInt64} (reached : run step (new stuckIrqMs) pre = some c)
    (quiet : c.channelBusy = false) (range : c.sf < 32)
    (ran : run step (c.setChannelBusy true) (ops ++ [.tick nowMs]) = some d)
    (listens : Each step Listens (c.setChannelBusy true) (ops ++ [.tick nowMs])) :
    OnTime c (ops ++ [.tick nowMs]) nowMs d := by
  have idle := run_idle reached
  have symbol : c.symbolMs = 2 ^ c.sf / c.bwKHz := by
    rw [symbolMs_eq idle.bwKHz, Nat.mod_eq_of_lt range]
  have positive : 0 < c.symbolMs := by
    rw [symbol]
    exact div_pos (by positivity) idle.bwKHz
  have unlatched := idle.unlatched quiet
  have start := stretch_start quiet unlatched positive
  obtain ⟨stretch,preambleOnce,headerOnce⟩ := run_stretch start unlatched ran listens
  have clock : d.nowMs = nowMs := by
    obtain ⟨m,_,ticked⟩ := run_concat_eq_some.mp ran
    exact congrArg Ears.nowMs (step_ears ticked)
  refine ⟨?_,?_,stretch.preambleFlag,stretch.headerFlags,preambleOnce,headerOnce,?_⟩
  · rw [stretch.preamble, clock, Reached, symbol, kPreambleSymbols]
  · rw [stretch.header, clock, Reached, symbol, kHeaderSymbols]
  · intro header
    have long := stretch.header.mp header
    rw [Reached, kHeaderSymbols] at long
    rw [stretch.preamble, Reached, kPreambleSymbols]
    linarith

/-- A chip told its spreading factor and then to receive, when a signal begins. -/
def tuned (sf : UInt8) : Chip := ((new 0).applyModulation sf 0x05 0x01).startRx

theorem tuned_reached (sf : UInt8) : run step (new 0) [.spiTransfer [0x8B,sf,0x05,0x01],
    .spiTransfer [0x82,0xFF,0xFF,0xFF]] = some (tuned sf) := by
  have programs : (new 0).step (.spiTransfer [0x8B,sf,0x05,0x01]) =
      some ((new 0).applyModulation sf 0x05 0x01) := by
    rw [step_spiTransfer]
    rfl
  have listens : ((new 0).applyModulation sf 0x05 0x01).step (.spiTransfer [0x82,0xFF,0xFF,0xFF]) =
      some (tuned sf) := by
    rw [step_spiTransfer]
    rfl
  exact run_cons_eq_some.mpr ⟨_,programs,run_cons_eq_some.mpr ⟨_,listens,rfl⟩⟩

/-- One tick on it answers as the shift has it. -/
theorem tuned_tick (sf : UInt8) (nowMs : UInt64) : ∃ d,
    run step ((tuned sf).setChannelBusy true) [.tick nowMs] = some d ∧
      Each step Listens ((tuned sf).setChannelBusy true) [.tick nowMs] ∧
      (d.preambleRaised = true ↔ (nowMs.toNat : ℚ) ≥ 4 * (2 ^ (sf.toNat % 32) / 250)) := by
  have ticks : (((tuned sf).setChannelBusy true).step (.tick nowMs)).isSome = true :=
    (tick_isSome ((tuned sf).setChannelBusy true) nowMs).mpr fun _ f waiting => by cases waiting
  obtain ⟨d,ticked⟩ := Option.isSome_iff_exists.mp ticks
  have ran : run step ((tuned sf).setChannelBusy true) [.tick nowMs] = some d :=
    run_cons_eq_some.mpr ⟨d,ticked,rfl⟩
  have guard : Listens ((tuned sf).setChannelBusy true) (.tick nowMs) := by
    refine ⟨fun t same => ?_,nofun,rfl,fun next stepped => ?_⟩
    · obtain rfl := ChipOp.tick.inj same
      exact ⟨rfl,UInt64.zero_le⟩
    · have programmed := step_programmed stepped
      exact ⟨congrArg Programmed.sf programmed,congrArg Programmed.bwKHz programmed⟩
  have listens : Each step Listens ((tuned sf).setChannelBusy true) [.tick nowMs] :=
    ⟨guard,fun _ _ => trivial⟩
  have idle := run_idle (tuned_reached sf)
  have symbol : (tuned sf).symbolMs = 2 ^ (sf.toNat % 32) / 250 := symbolMs_eq idle.bwKHz
  have positive : 0 < (tuned sf).symbolMs := by
    rw [symbol]
    positivity
  have stretch := (run_stretch (stretch_start rfl (idle.unlatched rfl) positive)
    (idle.unlatched rfl) ran listens).1
  have clock : d.nowMs = nowMs := congrArg Ears.nowMs (step_ears ticked)
  have zero : (tuned sf).nowMs = 0 := rfl
  refine ⟨d,ran,listens,?_⟩
  rw [stretch.preamble, clock, Reached, symbol, kPreambleSymbols, zero]
  simp

end Chip
end Meshcore
