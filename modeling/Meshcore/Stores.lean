import Meshcore.Effects

/-! What the firmware stores in the chip: the registers, the modem settings and the
layout of a transmission, each as a function of the one command that writes it, and
the data buffer beside them. The engine and the passing of time leave all of it
alone, but for a delivery. -/
namespace Meshcore

open Checked Flags

namespace Chip

/-- The fields only commands move, but for the data buffer. -/
structure Programmed where
  regs : Block 0x1000 UInt8
  txBase : UInt8
  txLenForSend : UInt8
  sf : Nat
  bwKHz : ℚ

def programmed (c : Chip) : Programmed := ⟨c.regs,c.txBase,c.txLenForSend,c.sf,c.bwKHz⟩

/-- What an event makes of them. -/
def Programmed.after (p : Programmed) (e : Event) : Programmed where
  regs := match e.executes .writeRegister 3 with
    | some cmd => p.regs.overlay (be16 (arg cmd 1) (arg cmd 2)).toNat (cmd.drop 3)
    | none => match e.executes .calibrate 0 with
      | some _ => p.regs.overlay kRegRxGain [kRxGainPowerSaving]
      | none => p.regs
  txBase := match e.executes .setBufferBase 3 with
    | some cmd => arg cmd 1
    | none => p.txBase
  txLenForSend := match e.executes .setPacketParams 7 with
    | some cmd => arg cmd 4
    | none => p.txLenForSend
  sf := match e.executes .setModulationParams 4 with
    | some cmd => (arg cmd 1).toNat
    | none => p.sf
  bwKHz := match e.executes .setModulationParams 4 with
    | some cmd => bandwidth p.bwKHz (arg cmd 2)
    | none => p.bwKHz

/-- The data buffer after an event that delivers nothing. -/
def bufferAfter (buffer : Block 256 UInt8) (e : Event) : Block 256 UInt8 :=
  match e.executes .writeBuffer 2 with
  | some cmd => buffer.overlay (arg cmd 1).toNat (cmd.drop 2)
  | none => buffer

/-- Every opcode, once. -/
theorem act_stores {c d : Chip} (acted : c.act cmd = some d) :
    d.programmed = c.programmed.after (.command cmd) ∧
      d.buffer = bufferAfter c.buffer (.command cmd) := by
  rw [act] at acted
  cases op : opcode? (arg cmd 0) with
  | none =>
    obtain rfl : c = d := by simpa [op] using acted
    simp [Programmed.after,bufferAfter,Event.executes,op,programmed]
  | some o =>
    cases o
    all_goals simp only [op] at acted
    case setTx =>
      obtain ⟨_,_,rfl⟩ := startTx_eq_some.mp acted
      simp [Programmed.after,bufferAfter,Event.executes,op,programmed]
    all_goals obtain rfl := Option.some.inj acted
    all_goals constructor
    all_goals simp only [Programmed.after, bufferAfter, programmed, Event.executes, op,
      reduceCtorEq, Option.some.injEq, false_and, true_and, ite_false, Nat.zero_le, ite_true]
    -- A command that is too short, or that stores nothing here, leaves them by definition.
    all_goals first
      | rfl
      | (split <;> rfl)

theorem core_programmed {c d : Chip} (same : c.core = d.core) : c.programmed = d.programmed := by
  have := congrArg programmed same
  exact this

theorem core_buffer {c d : Chip} (same : c.core = d.core) : c.buffer = d.buffer := by
  have := congrArg buffer same
  exact this

theorem apply_programmed {c d : Chip} (applied : c.apply e = some d) :
    d.programmed = c.programmed.after e := by
  cases e with
  | command cmd => exact (act_stores applied).1
  | tick nowMs =>
    exact tick_keeps programmed (fun _ _ => rfl) (fun _ => rfl) (fun _ _ _ _ => rfl) applied
  | txDone =>
    obtain rfl := Option.some.inj applied
    exact transmitFinished_keeps programmed (fun _ _ _ => rfl) c
  | _ => exact Option.some.inj applied ▸ rfl

/-- The complete command of the given opcode that an operation executes, if it does. -/
def executed (c : Chip) (op : ChipOp) (o : Opcode) (len : Nat) : Option (List UInt8) :=
  (c.event op).bind (·.executes o len)

theorem executed_eq_some {c : Chip} : c.executed op o len = some cmd ↔
    c.event op = some (.command cmd) ∧ opcode? (arg cmd 0) = some o ∧ len ≤ cmd.length := by
  simp only [executed, Option.bind_eq_some_iff]
  constructor
  · rintro ⟨e,event,executes⟩
    cases e with
    | command given =>
      simp only [Event.executes, Option.ite_none_right_eq_some, Option.some.injEq] at executes
      obtain ⟨⟨code,long⟩,rfl⟩ := executes
      exact ⟨event,code,long⟩
    | _ => cases executes
  · rintro ⟨event,code,long⟩
    exact ⟨_,event,by simp [Event.executes,code,long]⟩

/-- What a step makes of the programmed fields is what its event does. -/
theorem step_programmed {c next : Chip} (stepped : c.step op = some next) :
    next.programmed = match c.event op with
      | some e => c.programmed.after e
      | none => c.programmed := by
  rcases step_event stepped with ⟨event,core⟩ | ⟨e,d,event,applied,core⟩
  · rw [event, core_programmed core]
  · rw [event, core_programmed core, apply_programmed applied]

theorem step_txBase {c next : Chip} (stepped : c.step op = some next) :
    next.txBase = match c.executed op .setBufferBase 3 with
      | some cmd => arg cmd 1
      | none => c.txBase := by
  have after := congrArg Programmed.txBase (step_programmed stepped)
  rw [executed]
  cases event : c.event op <;> (rw [event] at after; exact after)

theorem step_txLenForSend {c next : Chip} (stepped : c.step op = some next) :
    next.txLenForSend = match c.executed op .setPacketParams 7 with
      | some cmd => arg cmd 4
      | none => c.txLenForSend := by
  have after := congrArg Programmed.txLenForSend (step_programmed stepped)
  rw [executed]
  cases event : c.event op <;> (rw [event] at after; exact after)

end Chip
end Meshcore
