import Meshcore.Stores
import Mathlib.Algebra.Ring.Rat
import Mathlib.Tactic.NormNum

/-! Why a detection flag is set. The signal on the air is read off the operations
alone; a chip without the injected fault keeps the same clock and the same edge, so
a flag that is up was raised by a tick that heard something. -/
namespace Meshcore

open Checked Flags Runs

def ChipOp.time? : ChipOp → Option UInt64
  | .tick nowMs => some nowMs
  | _ => none

theorem ChipOp.time?_eq_some {op : ChipOp} : op.time? = some nowMs ↔ op = .tick nowMs := by
  cases op <;> simp [time?]

theorem ChipOp.time?_eq_none {op : ChipOp} : op.time? = none ↔ ∀ t, op ≠ .tick t := by
  cases op <;> simp [time?]

/-- The ticks of a run carry nondecreasing times. -/
def Timely (ops : List ChipOp) : Prop := (ops.filterMap ChipOp.time?).Pairwise (· ≤ ·)

instance (ops : List ChipOp) : Decidable (Timely ops) :=
  inferInstanceAs (Decidable (List.Pairwise _ _))

/-- The time of the last tick, and of the last tick before the air turned busy. -/
structure Signal where
  clock : UInt64 := 0
  since : Option UInt64 := none
  deriving DecidableEq

def Signal.hear (s : Signal) : ChipOp → Signal
  | .tick nowMs => { s with clock := nowMs }
  | .channelBusy true => { s with since := some (s.since.getD s.clock) }
  | .channelBusy false => { s with since := none }
  | _ => s

theorem Signal.hear_untimed (s : Signal) (untimed : op.time? = none) :
    (s.hear op).clock = s.clock := by
  cases op with
  | tick t => cases untimed
  | channelBusy busy => cases busy <;> rfl
  | _ => rfl

/-- The signal on the air after a run. -/
def signal (ops : List ChipOp) : Signal := ops.foldl Signal.hear {}

theorem signal_concat (ops : List ChipOp) (op : ChipOp) :
    signal (ops ++ [op]) = (signal ops).hear op := by
  simp [signal]

/-- At `nowMs` the air is busy, and has been for `symbols` of the modem's, each of them
`2 ^ sf / bw` milliseconds long. -/
def Signal.Lasted (s : Signal) (c : Chip) (nowMs : UInt64) (symbols : ℚ) : Prop :=
  c.channelBusy = true ∧ ∃ since, s.since = some since ∧ since ≤ nowMs ∧
    (nowMs.toNat : ℚ) - since.toNat ≥ symbols * (2 ^ c.sf / c.bwKHz)

theorem Timely.prefix {pre post : List ChipOp} (timely : Timely (pre ++ post)) : Timely pre := by
  unfold Timely at timely ⊢
  rw [List.filterMap_append] at timely
  exact (List.pairwise_append.mp timely).1

/-- Time has not run past the ticks still to come, nor the edge past the time. -/
theorem signal_bounds (ops : List ChipOp) (nowMs : UInt64)
    (timely : Timely (ops ++ [.tick nowMs])) :
    (signal ops).clock ≤ nowMs ∧ ∀ since, (signal ops).since = some since → since ≤ nowMs := by
  induction ops using List.reverseRecOn with
  | nil => exact ⟨UInt64.zero_le,nofun⟩
  | append_singleton rest op ih =>
    have earlier : Timely (rest ++ [.tick nowMs]) := by
      refine List.Pairwise.sublist (List.Sublist.filterMap _ ?_) timely
      exact List.Sublist.append (List.sublist_append_left rest [op]) (List.Sublist.refl _)
    obtain ⟨clock,since⟩ := ih earlier
    rw [signal_concat]
    cases op with
    | tick t =>
      have later : t ≤ nowMs := by
        rw [Timely] at timely
        simp only [List.filterMap_append, List.pairwise_append] at timely
        exact timely.2.2 t (by simp [ChipOp.time?]) nowMs (by simp [ChipOp.time?])
      exact ⟨later,since⟩
    | channelBusy busy =>
      refine ⟨by cases busy <;> exact clock,fun edge same => ?_⟩
      cases busy with
      | false => cases same
      | true =>
        obtain rfl := Option.some.inj same
        cases before : (signal rest).since with
        | none => exact clock
        | some edge => exact since edge before
    | _ => exact ⟨clock,since⟩

/-- What the detector measures with. -/
structure Ears where
  nowMs : UInt64
  channelBusy : Bool
  busySinceMs : UInt64
  stuckIrqMs : UInt32

/-- The start of a signal is when the air is first reported busy. -/
def Ears.after (e : Ears) : ChipOp → Ears
  | .tick nowMs => { e with nowMs }
  | .channelBusy busy =>
    { e with
      busySinceMs := if busy ∧ ¬e.channelBusy then e.nowMs else e.busySinceMs
      channelBusy := busy }
  | _ => e

/-- A faultless chip's ears, and the signal they have heard. -/
structure Ears.Track (e : Ears) (s : Signal) : Prop where
  clock : e.nowMs = s.clock
  busy : e.channelBusy = s.since.isSome
  since : ∀ edge, s.since = some edge → e.busySinceMs = edge
  faultless : e.stuckIrqMs = 0

namespace Chip

def ears (c : Chip) : Ears := ⟨c.nowMs,c.channelBusy,c.busySinceMs,c.stuckIrqMs⟩

theorem ears_settings {c d : Chip} (same : c.settings = d.settings) : c.ears = d.ears :=
  congrArg (fun s : Settings => Ears.mk s.nowMs s.channelBusy s.busySinceMs s.stuckIrqMs) same

theorem ears_surroundings {c d : Chip} (same : c.surroundings = d.surroundings) :
    c.ears = d.ears := by
  have := congrArg ears same
  exact this

/-- What a step makes of the ears. -/
theorem step_ears {c next : Chip} (stepped : c.step op = some next) :
    next.ears = c.ears.after op := by
  rcases step_event stepped with ⟨event,core⟩ | ⟨e,d,event,applied,core⟩
  · have deaf : c.ears.after op = c.ears := by cases op <;> first | rfl | cases event
    rw [deaf, ears_settings (core_settings core)]
  rw [ears_settings (core_settings core)]
  cases e with
  | command cmd =>
    have deaf : c.ears.after op = c.ears := by cases op <;> first | rfl | cases event
    rw [deaf, ears_surroundings (act_acts applied).surroundings]
  | tick nowMs =>
    obtain rfl := (event_eq_some rfl).mp event
    exact congrArg (fun s : Settings =>
      Ears.mk s.nowMs s.channelBusy s.busySinceMs s.stuckIrqMs) (tick_settings applied)
  | channelBusy busy =>
    obtain rfl := (event_eq_some rfl).mp event
    obtain rfl := Option.some.inj applied
    rfl
  | txDone =>
    obtain rfl := (event_eq_some rfl).mp event
    obtain rfl := Option.some.inj applied
    exact transmitFinished_keeps ears (fun _ _ _ => rfl) c
  | _ =>
    obtain rfl := (event_eq_some rfl).mp event
    obtain rfl := Option.some.inj applied
    rfl

/-- Only a tick and a change of the air concern the ears, and both as the signal says. -/
theorem track_step {c next : Chip} {s : Signal} (track : c.ears.Track s)
    (stepped : c.step op = some next) : next.ears.Track (s.hear op) := by
  rw [step_ears stepped]
  cases op with
  | channelBusy busy =>
    cases busy with
    | false => exact ⟨track.clock,rfl,nofun,track.faultless⟩
    | true =>
      refine ⟨track.clock,rfl,fun edge same => ?_,track.faultless⟩
      obtain rfl := Option.some.inj same
      simp only [Ears.after, track.busy, track.clock, true_and]
      cases before : s.since with
      | none => rfl
      | some edge => exact track.since edge before
  | tick nowMs => exact ⟨rfl,track.busy,track.since,track.faultless⟩
  | _ => exact track

theorem run_track {c : Chip} (ops : List ChipOp) (ran : run step (new 0) ops = some c) :
    c.ears.Track (signal ops) := by
  refine run_induction (motive := fun ops c => c.ears.Track (signal ops)) ?_ ?_ ops ran
  · exact ⟨rfl,rfl,nofun,rfl⟩
  · intro ops c op next _ stepped track
    rw [signal_concat]
    exact track_step track stepped

theorem bandwidth_pos {current : ℚ} (positive : 0 < current) (index : UInt8) :
    0 < bandwidth current index := by
  unfold bandwidth
  split <;> first | exact positive | norm_num

theorem bwKHz_pos_step {c next : Chip} (positive : 0 < c.bwKHz) (stepped : c.step op = some next) :
    0 < next.bwKHz := by
  have bwKHz : next.bwKHz = next.programmed.bwKHz := rfl
  rw [bwKHz, step_programmed stepped]
  split
  next e event =>
    simp only [Programmed.after]
    split
    · exact bandwidth_pos positive _
    · exact positive
  next => exact positive

theorem run_bwKHz_pos {stuckIrqMs : UInt32} {c : Chip}
    (ran : run step (new stuckIrqMs) ops = some c) : 0 < c.bwKHz :=
  run_invariant (fun c : Chip => 0 < c.bwKHz)
    (fun _ _ _ positive stepped => bwKHz_pos_step positive stepped) ran (by norm_num [new])

/-- The symbol time the detector measures in: the shift takes its count modulo 32. -/
theorem symbolMs_eq {c : Chip} (positive : 0 < c.bwKHz) :
    c.symbolMs = 2 ^ (c.sf % 32) / c.bwKHz := by
  rw [symbolMs, one_shiftLeft, if_pos positive]
  norm_cast

/-- A tick that can detect finds a spreading factor that `1u << sf_` can hold. -/
def SymbolFits (c : Chip) (op : ChipOp) : Prop :=
  op.time?.isSome ∧ c.mode = .rx ∧ c.channelBusy = true → c.sf < 32

instance (c : Chip) (op : ChipOp) : Decidable (c.SymbolFits op) :=
  inferInstanceAs (Decidable (_ → _))

/-- What the detector hears has lasted as long as it says, if it measures in symbols. -/
theorem lasted_of_heard {c : Chip} {s : Signal} {nowMs : UInt64} {symbols : ℚ}
    (track : c.ears.Track s) (bounds : ∀ since, s.since = some since → since ≤ nowMs)
    (symbol : c.channelBusy = true → c.symbolMs = 2 ^ c.sf / c.bwKHz)
    (heard : Air.Heard { c.air with nowMs } symbols) : s.Lasted c nowMs symbols := by
  obtain ⟨busy,long⟩ := heard
  have some' : s.since.isSome = true := track.busy ▸ busy
  obtain ⟨since,edge⟩ := Option.isSome_iff_exists.mp some'
  have before := bounds since edge
  refine ⟨busy,since,edge,before,?_⟩
  have same : c.busySinceMs = since := track.since since edge
  have span : (nowMs - c.busySinceMs).toNat = nowMs.toNat - since.toNat := by
    rw [same, UInt64.toNat_sub_of_le _ _ before]
  simp only [span, air, Nat.cast_sub (UInt64.le_iff_toNat_le.mp before), symbol busy] at long
  exact long

/-- The detection flags, and the symbols on the air each of them takes. -/
inductive Detects : BitVec 16 → ℚ → Prop where
  | preamble : Detects kIrqPreambleDetected 4
  | header : Detects kIrqHeaderValid 12
  | syncWord : Detects kIrqSyncWordValid 12

/-- The last step of `ops` after which `flag` has stayed set is a tick in receive
mode that delivered a frame, or found the air busy for long enough. -/
def Caused (ops : List ChipOp) (flag : BitVec 16) (symbols : ℚ) : Prop :=
  ∃ pre nowMs post c next, ops = pre ++ .tick nowMs :: post ∧ run step (new 0) pre = some c ∧
    c.step (.tick nowMs) = some next ∧ any c.irq flag = false ∧
    Throughout step (fun c => any c.irq flag = true) next post ∧
    c.mode = .rx ∧ (c.inbox ≠ [] ∨ (signal pre).Lasted c nowMs symbols)

/-- What raises a detection flag on a faultless chip. -/
theorem raised_detection {c : Chip} {s : Signal} (track : c.ears.Track s)
    (detects : Detects flag symbols) (raises : any (c.raised e) flag = true) :
    ∃ nowMs, e = .tick nowMs ∧ c.mode = .rx ∧
      (c.inbox ≠ [] ∨ Air.Heard { c.air with nowMs } symbols) := by
  cases e with
  | command cmd =>
    have apart := (any_raised_command raises).2
    cases detects <;> exact absurd apart (by decide)
  | tick nowMs =>
    obtain ⟨hears,cause⟩ := (any_raised_tick c nowMs flag).mp raises
    refine ⟨nowMs,rfl,hears,?_⟩
    have faultless : ¬c.FaultDue nowMs := fun due => by
      have zero : c.stuckIrqMs = 0 := track.faultless
      simp [FaultDue,zero] at due
    rcases cause with fault | frame | preamble | header
    · exact absurd fault.1 faultless
    · exact .inl frame.1
    · cases detects with
      | preamble => exact .inr preamble.2.1
      | header | syncWord => exact absurd preamble.2.2 (by decide)
    · cases detects with
      | preamble => exact absurd header.2.2 (by decide)
      | header | syncWord => exact .inr header.2.1
  | txDone =>
    have apart := ((any_raised_txDone c flag).mp raises).2
    cases detects <;> exact absurd apart (by decide)
  | _ => simp [raised] at raises

/-- On a chip without the injected fault whose symbols its detector can measure, a
detection flag that is set was raised, and has stayed set, since a tick in receive mode
that heard something. -/
theorem detection_caused {c : Chip} (ops : List ChipOp) (timely : Timely ops)
    (fits : Each step SymbolFits (new 0) ops) (ran : run step (new 0) ops = some c)
    (flag : BitVec 16) (symbols : ℚ) (detects : Detects flag symbols)
    (set : any c.irq flag = true) : Caused ops flag symbols := by
  have clear : ¬any (new 0).irq flag = true := by simp [new]
  obtain ⟨pre,op,post,old,new,split,before,rise,after,low,kept⟩ :=
    last_rise (fun c : Chip => any c.irq flag = true) ops ran clear set
  have high : any new.irq flag = true := by
    cases post with
    | nil => exact kept
    | cons _ _ => exact kept.1
  have track := run_track pre before
  rcases step_event rise with ⟨event,core⟩ | ⟨e,d,event,applied,core⟩
  · rw [core_irq core] at high
    exact absurd high low
  rw [core_irq core, apply_irq applied] at high
  obtain ⟨nowMs,rfl,hears,cause⟩ :=
    raised_detection track detects ((any_latch high).resolve_left low)
  obtain rfl := (event_eq_some rfl).mp event
  refine ⟨pre,nowMs,post,old,new,split,before,rise,by simpa using low,kept,hears,?_⟩
  have symbol (busy : old.channelBusy = true) : old.symbolMs = 2 ^ old.sf / old.bwKHz := by
    rw [split] at fits
    have range : old.sf < 32 := ((each_append.mp fits).2 old before).1 ⟨rfl,hears,busy⟩
    rw [symbolMs_eq (run_bwKHz_pos before), Nat.mod_eq_of_lt range]
  refine cause.imp_right (lasted_of_heard track (signal_bounds pre nowMs ?_).2 symbol)
  rw [split, List.append_cons] at timely
  exact timely.prefix

theorem detection_caused_delivery : Caused [.spiTransfer [0x82,0xFF,0xFF,0xFF],.frame [0x41],
    .tick 1,.channelBusy true,.tick 2] kIrqPreambleDetected 4 := by
  have reached : (run step (new 0) [.spiTransfer [0x82,0xFF,0xFF,0xFF],.frame [0x41],
      .tick 1,.channelBusy true,.tick 2]).map (fun c => any c.irq kIrqPreambleDetected) =
        some true := by
    decide +kernel
  obtain ⟨c,ran,set⟩ := Option.map_eq_some_iff.mp reached
  exact detection_caused _ (by decide) (by decide +kernel) ran _ _ .preamble set

/-- Spreading factor 32 at 250 kHz: a signal of one millisecond is taken for four symbols,
which are nineteen hours. -/
theorem detection_uncaused : ¬∀ (ops : List ChipOp) (c : Chip), Timely ops →
    run step (new 0) ops = some c → ∀ flag symbols, Detects flag symbols →
      any c.irq flag = true → Caused ops flag symbols := by
  intro caused
  let before : List ChipOp := [.spiTransfer [0x8B,0x20,0x05,0x01],
    .spiTransfer [0x82,0xFF,0xFF,0xFF],.channelBusy true]
  have raised : (run step (new 0) (before ++ [.tick 1])).map
      (fun c => any c.irq kIrqPreambleDetected) = some true := by
    decide +kernel
  obtain ⟨c,ran,set⟩ := Option.map_eq_some_iff.mp raised
  obtain ⟨pre,nowMs,post,old,_,split,reached,_,_,_,_,cause⟩ :=
    caused _ c (by decide) ran _ _ .preamble set
  -- There is no other tick than the last.
  obtain ⟨rfl,rfl⟩ : pre = before ∧ nowMs = 1 := by
    rcases pre with _ | ⟨a,_ | ⟨b,_ | ⟨d,_ | ⟨e,pre⟩⟩⟩⟩ <;> simp [before] at split ⊢
    simp [split]
  have modem : (run step (new 0) before).map (fun c => (c.inbox,c.sf,c.bwKHz)) =
      some ([],32,250) := by
    decide +kernel
  rw [reached, Option.map_some, Option.some.injEq, Prod.mk.injEq, Prod.mk.injEq] at modem
  obtain ⟨idle,sf,bwKHz⟩ := modem
  rcases cause with queued | ⟨_,since,edge,_,long⟩
  · exact queued idle
  · obtain rfl : (0 : UInt64) = since := Option.some.inj edge
    have clock : UInt64.toNat 1 = 1 := rfl
    rw [sf, bwKHz, clock] at long
    norm_num at long

end Chip
end Meshcore
