import Meshcore.Latching
import Meshcore.Transmission

/-! The life of a transmission. From the `SetTx` that starts it until it is finished or
abandoned the chip is deaf: nothing leaves the inbox and no receive flag comes up,
the injected fault included. -/
namespace Meshcore

open Flags Runs

namespace Chip

/-- The operation executes a `SetTx`. -/
def starts (c : Chip) (op : ChipOp) : Bool := (c.executed op .setTx 1).isSome

/-- It finishes the transmission, or executes a command that changes the mode. -/
def leavesTx (c : Chip) (op : ChipOp) : Bool :=
  match c.event op with
  | some .txDone => true
  | some (.command cmd) => decide (opcode? (arg cmd 0) ∈
      [some .setStandby,some .setSleep,some .setRx,some .setCad])
  | _ => false

/-- A `SetTx` was executed in the course of the run, and its transmission has neither
been finished nor left since. -/
def transmitting (c : Chip) (ops : List ChipOp) : Bool :=
  since step starts (fun c op => !c.leavesTx op) c ops

/-- What a receiver reports. -/
def receiveFlags : List (BitVec 16) :=
  [kIrqRxDone,kIrqPreambleDetected,kIrqSyncWordValid,kIrqHeaderValid]

theorem step_mode {c next : Chip} (stepped : c.step op = some next) :
    next.mode = match c.event op with
      | some e => c.modeAfter e
      | none => c.mode := by
  rcases step_event stepped with ⟨event,core⟩ | ⟨e,d,event,applied,core⟩
  · rw [event]
    exact congrArg Settings.mode (core_settings core)
  · rw [event]
    exact (congrArg Settings.mode (core_settings core)).trans (apply_mode applied)

theorem mode_of_starts {c next : Chip} (starts : c.starts op = true)
    (stepped : c.step op = some next) : next.mode = .tx := by
  obtain ⟨cmd,executes⟩ := Option.isSome_iff_exists.mp starts
  obtain ⟨event,code,_⟩ := executed_eq_some.mp executes
  rw [step_mode stepped, event]
  simp [modeAfter,code]

theorem mode_kept {c next : Chip} (sends : c.mode = .tx) (stays : c.leavesTx op = false)
    (stepped : c.step op = some next) : next.mode = .tx := by
  rw [step_mode stepped]
  rw [leavesTx] at stays
  cases event : c.event op with
  | none => exact sends
  | some e =>
    cases e with
    | command cmd =>
      simp only [event, decide_eq_false_iff_not, List.mem_cons, List.not_mem_nil, not_or] at stays
      cases code : opcode? (arg cmd 0) with
      | none => simpa [modeAfter,code] using sends
      | some o => cases o <;> simp_all [modeAfter]
    | txDone => simp [event] at stays
    | _ => exact sends

theorem run_transmitting {c d : Chip} (ran : run step c ops = some d)
    (lasts : transmitting c ops = true) : d.mode = .tx :=
  since_holds (fun d : Chip => d.mode = .tx) (fun _ _ _ => mode_of_starts)
    (fun _ _ _ sends stays => mode_kept sends (by simpa using stays)) ran lasts

/-- Out of receive mode no operation takes a frame from the inbox. -/
theorem step_inbox {c next : Chip} (deaf : c.mode ≠ .rx) (stepped : c.step op = some next) :
    c.inbox <+: next.inbox := by
  have same {x y : Chip} (core : x.core = y.core) : x.inbox = y.inbox := by
    have := congrArg inbox core
    exact this
  rcases step_event stepped with ⟨event,core⟩ | ⟨e,d,event,applied,core⟩
  · exact same core ▸ List.prefix_refl _
  rw [same core]
  cases e with
  | command cmd =>
    have kept := congrArg Chip.inbox (act_acts applied).surroundings
    exact (show d.inbox = c.inbox from kept) ▸ List.prefix_refl _
  | frame payload =>
    obtain rfl := Option.some.inj applied
    exact List.prefix_append c.inbox [payload]
  | tick nowMs =>
    rw [apply, tick_eq, if_neg deaf] at applied
    exact Option.some.inj applied ▸ List.prefix_refl _
  | txDone =>
    obtain rfl := Option.some.inj applied
    exact (transmitFinished_keeps inbox (fun _ _ _ => rfl) c) ▸ List.prefix_refl _
  | _ => exact Option.some.inj applied ▸ List.prefix_refl _

/-- Out of receive mode no operation raises a receive flag. -/
theorem raises_deaf {c : Chip} (deaf : c.mode ≠ .rx) (receives : flag ∈ receiveFlags) :
    any (c.raises op) flag = false := by
  have apart (raised : BitVec 16) (none : receiveFlags.all (fun flag => !any raised flag) = true) :
      any raised flag = false := by
    simpa using List.all_eq_true.mp none flag receives
  have cad := apart (kIrqCadDone ||| kIrqCadDetected) (by decide)
  have done := apart kIrqTxDone (by decide)
  rw [raises]
  cases event : c.event op with
  | none => simp
  | some e =>
    cases e with
    | command cmd =>
      refine Bool.eq_false_iff.mpr fun raised => ?_
      simp [(any_raised_command raised).2] at cad
    | tick nowMs => simp [raised,deaf]
    | txDone =>
      refine Bool.eq_false_iff.mpr fun raised => ?_
      simp [((any_raised_txDone c flag).mp raised).2] at done
    | _ => simp [raised]

/-- TX_DONE is raised by the end of a transmission and nothing else. -/
theorem raises_txDone_iff (c : Chip) (op : ChipOp) :
    any (c.raises op) kIrqTxDone = true ↔ op = .txDone ∧ c.mode = .tx := by
  have cad : any (kIrqCadDone ||| kIrqCadDetected) kIrqTxDone = false := by decide
  have frame : any deliveredFlags kIrqTxDone = false := by decide
  have preamble : any kIrqPreambleDetected kIrqTxDone = false := by decide
  have header : any (kIrqHeaderValid ||| kIrqSyncWordValid) kIrqTxDone = false := by decide
  have done : any kIrqTxDone kIrqTxDone = true := by decide
  rw [raises, ← event_eq_some (c := c) (e := .txDone) rfl]
  cases event : c.event op with
  | none => simp
  | some e =>
    cases e with
    | command cmd =>
      have apart : any (c.raised (.command cmd)) kIrqTxDone ≠ true := fun raised => by
        simp [(any_raised_command raised).2] at cad
      simp [apart]
    | tick nowMs => simp [any_raised_tick,frame,preamble,header]
    | txDone => simp [any_raised_txDone,done]
    | _ => simp [raised]

/-- While a transmission lasts the chip stays in transmit mode and hears nothing, and
only `transmitFinished` in that mode raises TX_DONE, which ends it in standby. -/
theorem half_duplex {stuckIrqMs : UInt32} {c : Chip} (ops : List ChipOp)
    (ran : run step (new stuckIrqMs) ops = some c) :
    (transmitting (new stuckIrqMs) ops = true → c.mode = .tx ∧
      ∀ op next, c.step op = some next → c.inbox <+: next.inbox ∧
        ∀ flag ∈ receiveFlags, any c.irq flag = false → any next.irq flag = false) ∧
    (∀ op next, c.step op = some next → any c.irq kIrqTxDone = false →
      any next.irq kIrqTxDone = true → op = .txDone ∧ c.mode = .tx ∧ next.mode = .standby) ∧
    (c.mode ≠ .tx → c.transmitFinished = c) := by
  refine ⟨fun lasts => ?_,fun op next stepped low high => ?_,fun idle => if_neg idle⟩
  · have sends := run_transmitting ran lasts
    have deaf : c.mode ≠ .rx := by simp [sends]
    refine ⟨sends,fun op next stepped => ⟨step_inbox deaf stepped,fun flag receives low => ?_⟩⟩
    refine Bool.eq_false_iff.mpr fun high => ?_
    rw [step_irq stepped] at high
    rcases any_latch high with set | raised
    · simp [set] at low
    · simp [raises_deaf deaf receives] at raised
  · rw [step_irq stepped] at high
    rcases any_latch high with set | raised
    · simp [set] at low
    obtain ⟨rfl,sends⟩ := (raises_txDone_iff c op).mp raised
    refine ⟨rfl,sends,?_⟩
    rw [step_mode stepped]
    simp [event,modeAfter,sends]

theorem half_duplex_stuck : ∃ c, run step (new 5) [.spiTransfer [0x82,0x00,0x00,0x00],.frame [0xA1],
      .spiTransfer [0x83,0x00,0x00,0x00],.channelBusy true,.tick 9000] = some c ∧ c.mode = .tx ∧
    ∀ next, c.step (.tick 9001) = some next → c.inbox <+: next.inbox := by
  have reached : (run step (new 5) [.spiTransfer [0x82,0x00,0x00,0x00],.frame [0xA1],
      .spiTransfer [0x83,0x00,0x00,0x00],.channelBusy true,.tick 9000]).isSome = true := by
    decide +kernel
  obtain ⟨c,ran⟩ := Option.isSome_iff_exists.mp reached
  obtain ⟨sends,deaf⟩ := (half_duplex _ ran).1 (by decide +kernel)
  exact ⟨c,ran,sends,fun next stepped => (deaf _ next stepped).1⟩

/-- Receive base 255: the last byte of the frame lands on the low byte of `irq_`, and the
tick that delivers it ends a transmission that there never was. -/
theorem half_duplex_overrun : ¬∀ (ops : List ChipOp) (c : Chip), run stepPast (new 0) ops = some c →
    ∀ op next, c.stepPast op = some next → any c.irq kIrqTxDone = false →
      any next.irq kIrqTxDone = true → op = .txDone ∧ c.mode = .tx := by
  intro only
  have raised : (run stepPast (new 0) [.spiTransfer [0x8F,0x00,0xFF],
      .spiTransfer [0x82,0xFF,0xFF,0xFF],.frame [0x11,0x22,0x33,0x01]]).map (fun c =>
        (any c.irq kIrqTxDone,(c.stepPast (.tick 1)).map fun d => any d.irq kIrqTxDone)) =
      some (false,some true) := by
    decide +kernel
  obtain ⟨c,ran,flags⟩ := Option.map_eq_some_iff.mp raised
  obtain ⟨low,after⟩ := Prod.mk.inj flags
  obtain ⟨next,stepped,high⟩ := Option.map_eq_some_iff.mp after
  cases (only _ c ran _ next stepped low high).1

end Chip
end Meshcore
