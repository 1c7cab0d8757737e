import Meshcore.Delivery
import Meshcore.Stores

/-! What the firmware wrote is what goes on the air. The payload, its length and its
base arrive in three commands, in any order and over either path; what the next
`drainTx` sends is read off the three together. -/
namespace Meshcore

open Checked Flags Runs

namespace Chip

/-- The operation executes a `WriteBuffer` of exactly `p`, from `first` on. -/
def writesBytes (first : UInt8) (p : List UInt8) (c : Chip) (op : ChipOp) : Bool :=
  c.executed op .writeBuffer 2 == some (Opcode.writeBuffer.byte :: first :: p)

/-- It delivers no frame and writes none of the `len` cells from `first` on. -/
def leavesBytes (first len : Nat) (c : Chip) (op : ChipOp) : Bool :=
  (c.delivers op).isNone && match c.executed op .writeBuffer 2 with
    | some cmd =>
      (List.range' (arg cmd 1).toNat (cmd.length - 2)).all fun j => !(first ≤ j ∧ j < first + len : Bool)
    | none => true

def setsLength (len : Nat) (c : Chip) (op : ChipOp) : Bool :=
  match c.executed op .setPacketParams 7 with
  | some cmd => (arg cmd 4).toNat == len
  | none => false

def leavesLength (c : Chip) (op : ChipOp) : Bool := (c.executed op .setPacketParams 7).isNone

def setsBase (base : UInt8) (c : Chip) (op : ChipOp) : Bool :=
  match c.executed op .setBufferBase 3 with
  | some cmd => arg cmd 1 == base
  | none => false

def leavesBase (c : Chip) (op : ChipOp) : Bool := (c.executed op .setBufferBase 3).isNone

/-- In the course of the run `p` was written from `base` on, its length programmed and
`base` made the transmit base, and nothing has undone any of the three. -/
structure Prepared (c : Chip) (ops : List ChipOp) (base : UInt8) (p : List UInt8) : Prop where
  bytes : since step (writesBytes base p) (leavesBytes base.toNat p.length) c ops = true
  length : since step (setsLength p.length) leavesLength c ops = true
  base : since step (setsBase base) leavesBase c ops = true

/-- Outside a delivery only a `WriteBuffer` moves the data buffer. -/
theorem step_buffer {c next : Chip} (stepped : c.step op = some next)
    (quiet : c.delivers op = none) : next.buffer = match c.executed op .writeBuffer 2 with
      | some cmd => c.buffer.overlay (arg cmd 1).toNat (cmd.drop 2)
      | none => c.buffer := by
  rw [executed]
  rcases step_event stepped with ⟨event,core⟩ | ⟨e,d,event,applied,core⟩
  · rw [core_buffer core, event]
    rfl
  rw [core_buffer core, event]
  cases e with
  | command cmd => exact (act_stores applied).2
  | _ =>
    have plain : c.rewrites op = false := by simp [rewrites,event]
    have kept := congrArg RxSlot.buffer (step_rxSlot stepped quiet plain)
    exact (core_buffer core).symm.trans kept

theorem prepared_bytes {c d : Chip} {base : UInt8} (room : base.toNat + p.length ≤ 256)
    (prepared : Prepared c ops base p) (ran : run step c ops = some d) :
    d.buffer.slice? base.toNat p.length = some p := by
  refine since_holds (fun d : Chip => d.buffer.slice? base.toNat p.length = some p) ?_ ?_ ran
    prepared.bytes
  · intro c op next writes stepped
    have command : c.executed op .writeBuffer 2 = some (Opcode.writeBuffer.byte :: base :: p) :=
      eq_of_beq writes
    have quiet : c.delivers op = none := by simp [delivers,(executed_eq_some.mp command).1]
    have after := step_buffer stepped quiet
    rw [command] at after
    rw [after]
    exact slice?_overlay c.buffer base.toNat p room
  · intro c op next holds leaves stepped
    obtain ⟨quiet,apart⟩ := Bool.and_eq_true_iff.mp leaves
    have after := step_buffer stepped (Option.isNone_iff_eq_none.mp quiet)
    rw [after]
    cases command : c.executed op .writeBuffer 2 with
    | none => exact holds
    | some cmd =>
      simp only [command, List.all_eq_true, List.mem_range'_1, Bool.not_eq_true',
        decide_eq_false_iff_not] at apart
      refine (slice?_overlay_apart c.buffer (cmd.drop 2) fun j from' upto => ?_).trans holds
      rw [List.length_drop] at upto
      exact apart j ⟨from',upto⟩

theorem prepared_length {c d : Chip} {base : UInt8} (prepared : Prepared c ops base p)
    (ran : run step c ops = some d) : d.txLenForSend.toNat = p.length := by
  refine since_holds (fun d : Chip => d.txLenForSend.toNat = p.length) ?_ ?_ ran prepared.length
  · intro c op next sets stepped
    rw [step_txLenForSend stepped]
    rw [setsLength] at sets
    cases command : c.executed op .setPacketParams 7 <;> simp_all
  · intro c op next holds leaves stepped
    rw [step_txLenForSend stepped, Option.isNone_iff_eq_none.mp leaves]
    exact holds

theorem prepared_base {c d : Chip} {base : UInt8} (prepared : Prepared c ops base p)
    (ran : run step c ops = some d) : d.txBase = base := by
  refine since_holds (fun d : Chip => d.txBase = base) ?_ ?_ ran prepared.base
  · intro c op next sets stepped
    rw [step_txBase stepped]
    rw [setsBase] at sets
    cases command : c.executed op .setBufferBase 3 <;> simp_all
  · intro c op next holds leaves stepped
    rw [step_txBase stepped, Option.isNone_iff_eq_none.mp leaves]
    exact holds

/-- Neither another `SetTx` nor a drain. -/
def Undrained (c : Chip) (op : ChipOp) : Prop := c.latches op = none ∧ op ≠ .drain

instance (c : Chip) (op : ChipOp) : Decidable (c.Undrained op) :=
  inferInstanceAs (Decidable (_ ∧ _))

/-- A latched payload waits for its drain. -/
theorem run_pending {c d : Chip} (ran : run step c ops = some d) (kept : Each step Undrained c ops) :
    d.pending = c.pending := by
  refine run_invariant_of_each (fun d : Chip => d.pending = c.pending) ?_ ran kept rfl
  intro d op next same undrained stepped
  have idle : d.drains op = none := if_neg fun both => undrained.2 both.1
  rcases step_pending stepped with ⟨payload,latches,_⟩ | ⟨_,after,drains⟩ | ⟨_,after,_⟩
  · simp [undrained.1] at latches
  · rw [after, ← same, ← drains, idle]
  · exact after.trans same

end Chip

/-- What is pending is what `drainTx` sends, as one message, and nothing is left. -/
theorem Radio.drainTx_sends {stuckIrqMs : UInt32} (r : Radio stuckIrqMs)
    (pending : r.chip.state.pending = some p) :
    r.drainTx.toEngine.map Outgoing.msg = r.toEngine.map Outgoing.msg ++ [⟨kFrame,p⟩] ∧
      r.drainTx.chip.state.hasPendingTx = false := by
  have held : r.chip.state.hasPendingTx = true := by rw [← Chip.pending_isSome, pending]; rfl
  have payload : r.chip.state.pendingTx = p := by simpa [Chip.pending,held] using pending
  refine ⟨?_,r.drainTx_empties⟩
  rw [Radio.drainTx, dif_pos held]
  simp [Outgoing.msg,payload]

namespace Chip

/-- A payload written, sized and based in the course of a run is the payload its
`SetTx` latches, and the next `drainTx` sends it as one frame and leaves nothing. -/
theorem transmitted_as_written {c d : Chip} (ops : List ChipOp) (ran : run step c ops = some d)
    (base : UInt8) (p : List UInt8) (room : base.toNat + p.length ≤ 256)
    (prepared : Prepared c ops base p) (op : ChipOp) (cmd : List UInt8)
    (setTx : d.executed op .setTx 1 = some cmd) :
    d.latches op = some p ∧ ∃ sent, d.step op = some sent ∧
      ∀ later e, run step sent later = some e → Each step Undrained sent later →
        ∀ {stuckIrqMs : UInt32} (r : Radio stuckIrqMs), r.chip.state = e →
          r.drainTx.toEngine.map Outgoing.msg = r.toEngine.map Outgoing.msg ++ [⟨kFrame,p⟩] ∧
            r.drainTx.chip.state.hasPendingTx = false := by
  obtain ⟨event,code,_⟩ := executed_eq_some.mp setTx
  have latched : d.buffer.slice? d.txBase.toNat d.txLenForSend.toNat = some p := by
    rw [prepared_base prepared ran, prepared_length prepared ran]
    exact prepared_bytes room prepared ran
  have latches : d.latches op = some p := by simp [Chip.latches,event,code,latched]
  have started : (d.step op).isSome = true := by
    rw [step_isSome, effect, event]
    simp only [apply, act_setTx d code]
    exact Option.isSome_iff_exists.mpr ⟨_,startTx_eq_some.mpr ⟨p,latched,rfl⟩⟩
  obtain ⟨sent,stepped⟩ := Option.isSome_iff_exists.mp started
  refine ⟨latches,sent,stepped,?_⟩
  rintro later e after undrained stuckIrqMs r rfl
  have pending : sent.pending = some p := by
    rcases step_pending stepped with ⟨payload,same,after,_⟩ | ⟨none,_⟩ | ⟨none,_⟩
    · rw [after, ← same, latches]
    · simp [latches] at none
    · simp [latches] at none
  exact r.drainTx_sends ((run_pending after undrained).trans pending)

theorem transmitted_as_written_mixed : ∃ d, run step (new 0)
      [.spiTransfer [0x8C,0x00,0x10,0x00,0x02,0x00,0x00],.csAssert,.xfer 0x0E,.xfer 0x80,
       .xfer 0x41,.tick 3,.xfer 0x42,.csRelease,.spiTransfer [0x8F,0x80,0x00],.tick 5] = some d ∧
    d.latches (.spiTransfer [0x83,0x00,0x00,0x00]) = some [0x41,0x42] := by
  have reached : (run step (new 0)
      [.spiTransfer [0x8C,0x00,0x10,0x00,0x02,0x00,0x00],.csAssert,.xfer 0x0E,.xfer 0x80,
       .xfer 0x41,.tick 3,.xfer 0x42,.csRelease,.spiTransfer [0x8F,0x80,0x00],.tick 5]).map
      (fun d => d.executed (.spiTransfer [0x83,0x00,0x00,0x00]) .setTx 1) =
        some (some [0x83,0x00,0x00,0x00]) := by
    decide +kernel
  obtain ⟨d,ran,setTx⟩ := Option.map_eq_some_iff.mp reached
  exact ⟨d,ran,(transmitted_as_written _ ran 0x80 [0x41,0x42] (by decide)
    ⟨by decide +kernel,by decide +kernel,by decide +kernel⟩ _ _ setTx).1⟩

end Chip
end Meshcore
