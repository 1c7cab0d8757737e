import Meshcore.Effects

/-! Where the chip stays inside its arrays. Every store and load of the decoder and
of the streaming path is guarded but two: the copy that latches a transmission and
the one that delivers a frame. -/
namespace Meshcore

open Checked Flags Runs

namespace Chip

/-- The step copies nothing past the end of the data buffer. -/
def InBounds (c : Chip) (op : ChipOp) : Prop :=
  match c.event op with
  | some (.command cmd) =>
    opcode? (arg cmd 0) = some .setTx → c.txBase.toNat + c.txLenForSend.toNat ≤ 256
  | some (.tick _) =>
    c.mode = .rx → ∀ f ∈ c.inbox.head?, c.rxBase.toNat + min f.length 255 ≤ 256
  | _ => True

theorem startTx_isSome (c : Chip) :
    c.startTx.isSome ↔ c.txBase.toNat + c.txLenForSend.toNat ≤ 256 := by
  rw [← slice?_isSome c.buffer, Option.isSome_iff_exists, Option.isSome_iff_exists]
  constructor
  · rintro ⟨d,started⟩
    obtain ⟨payload,latched,_⟩ := startTx_eq_some.mp started
    exact ⟨payload,latched⟩
  · rintro ⟨payload,latched⟩
    exact ⟨_,startTx_eq_some.mpr ⟨payload,latched,rfl⟩⟩

theorem act_isSome (c : Chip) (cmd : List UInt8) : (c.act cmd).isSome ↔
    (opcode? (arg cmd 0) = some .setTx → c.txBase.toNat + c.txLenForSend.toNat ≤ 256) := by
  rw [← startTx_isSome]
  rw [act]
  cases op : opcode? (arg cmd 0) with
  | none => simp
  | some o => cases o <;> simp

theorem deliverPending_isSome (c : Chip) : c.deliverPending.isSome ↔
    ∀ f ∈ c.inbox.head?, c.rxBase.toNat + min f.length 255 ≤ 256 := by
  cases waiting : c.inbox with
  | nil => simp [deliverPending_nil waiting]
  | cons f rest =>
    rw [deliverPending_cons waiting, Option.isSome_map]
    simpa using memcpy?_isSome c.buffer f (min f.length 255) (Nat.min_le_left _ _)

theorem tick_isSome (c : Chip) (nowMs : UInt64) : (c.tick nowMs).isSome ↔
    (c.mode = .rx → ∀ f ∈ c.inbox.head?, c.rxBase.toNat + min f.length 255 ≤ 256) := by
  have same := congrArg Option.isSome (tick_quiet c nowMs)
  rw [Option.isSome_map, Option.isSome_map] at same
  rw [same]
  by_cases hears : c.mode = .rx
  · simpa [hears] using deliverPending_isSome { c with nowMs }
  · simp [hears]

theorem step_inBounds (c : Chip) (op : ChipOp) : (c.step op).isSome ↔ c.InBounds op := by
  rw [step_isSome, effect, InBounds]
  cases c.event op with
  | none => simp
  | some e =>
    cases e with
    | command cmd => exact act_isSome c cmd
    | tick nowMs => exact tick_isSome c nowMs
    | _ => simp [apply]

/-- A run touches no byte outside an array exactly when no step overruns the data
buffer: transmit base and length together, or receive base and frame. -/
theorem run_inBounds_iff (stuckIrqMs : UInt32) (ops : List ChipOp) :
    (run step (new stuckIrqMs) ops).isSome ↔ Each step InBounds (new stuckIrqMs) ops :=
  run_isSome_iff step_inBounds _ ops

/-- Base 255, length 255, transmit. -/
theorem overrun_transmit : ¬∀ (stuckIrqMs : UInt32) (ops : List ChipOp),
    (run step (new stuckIrqMs) ops).isSome := by
  intro safe
  have overrun := safe 0 [.spiTransfer [0x8F,0xFF,0xFF],
    .spiTransfer [0x8C,0x00,0x10,0x00,0xFF,0x00,0x00],.spiTransfer [0x83,0x00,0x00,0x00]]
  revert overrun
  decide +kernel

end Chip
end Meshcore
