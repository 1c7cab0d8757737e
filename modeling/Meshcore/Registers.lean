import Meshcore.Stores
import Meshcore.Library.Cells

/-! The register file is a memory. Beside the chip stands a map from addresses to bytes
that knows only what the firmware clocked; whatever path a command takes and whatever
the engine does in between, the chip's registers read as that map has them. -/
namespace Meshcore

open Checked Cells Runs

namespace Chip

theorem kRegRxGain_lt : kRegRxGain < 0x1000 := by decide

def rxGainReg (c : Chip) : UInt8 := c.regs ⟨kRegRxGain,kRegRxGain_lt⟩

/-- The address in a register command. -/
def regAddr (cmd : List UInt8) : Nat := (be16 (arg cmd 1) (arg cmd 2)).toNat

/-- A streamed command does not outgrow the arrays of the streaming path. -/
def Fits (c : Chip) : ChipOp → Prop
  | .xfer _ => c.accumulated.length < 260
  | _ => True

instance (c : Chip) : (op : ChipOp) → Decidable (c.Fits op)
  | .xfer _ => inferInstanceAs (Decidable (_ < _))
  | .csAssert | .csRelease | .spiTransfer _ | .setFem _ | .frame _ | .tick _ | .txDone
  | .channelBusy _ | .drain => isTrue trivial

end Chip

/-- The registers as a memory, and the bytes of the command being clocked. -/
structure RegisterFile where
  cells : Nat → UInt8
  bytes : List UInt8

namespace RegisterFile

/-- The values the constructor gives. -/
def new : RegisterFile :=
  ⟨store 0x1000 (store 0x1000 (fun _ => 0) 0x0320 kVersion) kRegRxGain [kRxGainPowerSaving],[]⟩

/-- `WriteRegister` stores its data from its address on, `Calibrate` resets the receive
gain, and no other command has anything to do with the registers. -/
def exec (cells : Nat → UInt8) (cmd : List UInt8) : Nat → UInt8 :=
  match opcode? (arg cmd 0) with
  | some .writeRegister =>
    if 3 ≤ cmd.length then store 0x1000 cells (Chip.regAddr cmd) (cmd.drop 3) else cells
  | some .calibrate => store 0x1000 cells kRegRxGain [kRxGainPowerSaving]
  | _ => cells

def step (m : RegisterFile) : ChipOp → RegisterFile
  | .spiTransfer out => { m with cells := exec m.cells out }
  | .csAssert => { m with bytes := [] }
  | .xfer out => { m with bytes := m.bytes ++ [out] }
  | .csRelease => ⟨exec m.cells m.bytes,[]⟩
  | .setFem _ | .frame _ | .tick _ | .txDone | .channelBusy _ | .drain => m

/-- The register file after a run of operations. -/
def after (ops : List ChipOp) : RegisterFile := ops.foldl step new

/-- The registers of the chip read as the cells, and the bytes are those of its transaction. -/
structure Mirrors (c : Chip) (m : RegisterFile) : Prop where
  cells : Reads c.regs 0 m.cells
  txn : c.txn = m.bytes
  accumulated : c.accumulated = m.bytes

theorem exec_nil (cells : Nat → UInt8) : exec cells [] = cells := rfl

theorem exec_of_returnsData {cells : Nat → UInt8} (data : returnsData (arg cmd 0) = true) :
    exec cells cmd = cells := by
  rw [returnsData] at data
  rw [exec]
  cases code : opcode? (arg cmd 0) with
  | none => rfl
  | some o => cases o <;> simp_all

theorem reads_exec {p : Chip.Programmed} {cells : Nat → UInt8} (reads : Reads p.regs 0 cells)
    (cmd : List UInt8) : Reads (p.after (.command cmd)).regs 0 (exec cells cmd) := by
  simp only [Chip.Programmed.after, Event.executes, exec]
  cases code : opcode? (arg cmd 0) with
  | none => simpa using reads
  | some o =>
    cases o
    case writeRegister =>
      by_cases long : 3 ≤ cmd.length
      · simpa [long,Chip.regAddr] using reads.overlay (Chip.regAddr cmd) (cmd.drop 3)
      · simpa [long] using reads
    case calibrate => simpa using reads.overlay kRegRxGain [kRxGainPowerSaving]
    all_goals simpa using reads

theorem mirrors_new (stuckIrqMs : UInt32) : Mirrors (.new stuckIrqMs) new :=
  ⟨((reads_fill 0).overlay 0x0320 kVersion).overlay kRegRxGain [kRxGainPowerSaving],rfl,rfl⟩

end RegisterFile

namespace Chip

/-- Which bytes a further one would join, after a step. -/
theorem step_bytes {c next : Chip} (idle : c.txn = c.accumulated) (stepped : c.step op = some next) :
    next.txn = next.accumulated ∧ next.accumulated = match op with
      | .csAssert | .csRelease => []
      | .xfer out => c.accumulated ++ [out]
      | .spiTransfer _ | .setFem _ | .frame _ | .tick _ | .txDone | .channelBusy _ | .drain =>
        c.accumulated := by
  have link {e : Event} (applied : c.apply e = some next) :
      next.txn = next.accumulated ∧ next.accumulated = c.accumulated := by
    obtain ⟨txn,inTxn⟩ := apply_link applied
    have same : next.accumulated = c.accumulated := by rw [accumulated, accumulated, txn, inTxn]
    exact ⟨txn.trans (idle.trans same.symm),same⟩
  cases op with
  | csAssert => obtain rfl := Option.some.inj stepped; exact ⟨rfl,rfl⟩
  | xfer out =>
    obtain ⟨d,byte,_,txn,inTxn⟩ := transferByte_spec c out
    rw [step, byte, Option.map_some] at stepped
    obtain rfl := Option.some.inj stepped
    have opened : d.accumulated = d.txn := by rw [accumulated, if_pos inTxn]
    exact ⟨opened.symm,opened.trans txn⟩
  | csRelease =>
    rw [step, endTransaction_eq] at stepped
    split at stepped
    · obtain rfl := Option.some.inj stepped; exact ⟨rfl,rfl⟩
    · obtain ⟨d,_,rfl⟩ := Option.map_eq_some_iff.mp stepped; exact ⟨rfl,rfl⟩
  | spiTransfer out =>
    rw [step_spiTransfer] at stepped
    split at stepped
    · obtain rfl := Option.some.inj stepped; exact ⟨idle,rfl⟩
    · exact link (e := .command out) stepped
  | setFem on => exact link (e := .setFem on) stepped
  | frame payload => exact link (e := .frame payload) stepped
  | tick nowMs => exact link (e := .tick nowMs) stepped
  | txDone => exact link (e := .txDone) stepped
  | channelBusy busy => exact link (e := .channelBusy busy) stepped
  | drain => exact link (e := .drain) stepped

end Chip

namespace RegisterFile

/-- What a step executes on the registers, the register file executes. -/
theorem mirrors_step {c next : Chip} {m : RegisterFile} (mirrors : Mirrors c m)
    (fits : c.Fits op) (short : m.bytes.length ≤ 260) (stepped : c.step op = some next) :
    Mirrors next (m.step op) ∧ (m.step op).bytes.length ≤ 260 := by
  obtain ⟨txn,bytes⟩ := Chip.step_bytes (mirrors.txn.trans mirrors.accumulated.symm) stepped
  have same : next.accumulated = (m.step op).bytes := by
    rw [bytes, mirrors.accumulated]
    cases op <;> rfl
  have regs : next.regs = next.programmed.regs := rfl
  refine ⟨⟨?_,txn.trans same,same⟩,?_⟩
  · have after := Chip.step_programmed stepped
    cases op with
    | spiTransfer out =>
      by_cases empty : out = []
      · simp only [Chip.event, empty, ite_true] at after
        rw [regs, after, empty]
        exact mirrors.cells
      · simp only [Chip.event, empty, ite_false] at after
        rw [regs, after]
        exact reads_exec (p := c.programmed) mirrors.cells out
    | csRelease =>
      by_cases ended : c.txn = [] ∨ returnsData (arg c.txn 0) = true
      · simp only [Chip.event, ended, ite_true] at after
        have kept : exec m.cells m.bytes = m.cells := by
          rcases ended with empty | data
          · rw [← mirrors.txn, empty, exec_nil]
          · exact exec_of_returnsData (mirrors.txn ▸ data)
        rw [regs, after, step, kept]
        exact mirrors.cells
      · simp only [Chip.event, ended, ite_false] at after
        rw [List.take_of_length_le (mirrors.txn ▸ short), mirrors.txn] at after
        rw [regs, after]
        exact reads_exec (p := c.programmed) mirrors.cells m.bytes
    | _ =>
      rw [regs, after]
      exact mirrors.cells
  · cases op with
    | xfer out =>
      have room : c.accumulated.length < 260 := fits
      rw [mirrors.accumulated] at room
      simp only [step, List.length_append, List.length_singleton]
      omega
    | csAssert | csRelease => exact Nat.zero_le _
    | _ => exact short

theorem run_mirrors {stuckIrqMs : UInt32} {c : Chip} (ops : List ChipOp)
    (ran : run Chip.step (.new stuckIrqMs) ops = some c)
    (fits : Each Chip.step Chip.Fits (.new stuckIrqMs) ops) : Mirrors c (after ops) := by
  have both := run_induction (motive := fun ops c => Each Chip.step Chip.Fits (.new stuckIrqMs) ops →
    Mirrors c (after ops) ∧ (after ops).bytes.length ≤ 260) ?_ ?_ ops ran fits
  · exact both.1
  · exact fun _ => ⟨mirrors_new stuckIrqMs,Nat.zero_le _⟩
  · intro ops c op next ran stepped earlier fits
    obtain ⟨before,last⟩ := each_append.mp fits
    obtain ⟨mirrors,short⟩ := earlier before
    rw [after, List.foldl_append]
    exact mirrors_step mirrors (last c ran).1 short stepped

/-- Past the register space there is nothing to read, however much was written there. -/
theorem cells_of_ge (ops : List ChipOp) (i : Nat) (past : 0x1000 ≤ i) : (after ops).cells i = 0 := by
  have exec_past (cells : Nat → UInt8) (cmd : List UInt8) : exec cells cmd i = cells i := by
    rw [exec]
    cases code : opcode? (arg cmd 0) with
    | none => rfl
    | some o =>
      cases o
      case writeRegister => by_cases long : 3 ≤ cmd.length <;> simp [long,store_of_ge _ _ _ past]
      case calibrate => exact store_of_ge _ _ _ past
      all_goals rfl
  induction ops using List.reverseRecOn with
  | nil => exact (store_of_ge _ _ _ past).trans (store_of_ge _ _ _ past)
  | append_singleton ops op ih =>
    rw [after, List.foldl_append]
    cases op with
    | spiTransfer out => exact (exec_past _ _).trans ih
    | csRelease => exact (exec_past _ _).trans ih
    | _ => exact ih

/-- After any run what either path reads of the registers is what the register file
holds, and so is the gain register the bridge reports. -/
theorem registers_are_memory {stuckIrqMs : UInt32} {c : Chip} (ops : List ChipOp)
    (ran : run Chip.step (.new stuckIrqMs) ops = some c)
    (fits : Each Chip.step Chip.Fits (.new stuckIrqMs) ops) :
    (∀ cmd next reply, c.spiTransfer cmd = some (next,reply) →
      opcode? (arg cmd 0) = some .readRegister → ∀ i, 4 ≤ i → i < cmd.length →
        reply[i]? = some ((after ops).cells (Chip.regAddr cmd + (i - 4)))) ∧
    (∀ cmd out next reply, (after ops).bytes ++ [out] = cmd →
      c.transferByte out = some (next,reply) → opcode? (arg cmd 0) = some .readRegister →
        5 ≤ cmd.length → cmd.length ≤ 260 →
          reply = (after ops).cells (Chip.regAddr cmd + (cmd.length - 5))) ∧
    c.rxGainReg = (after ops).cells kRegRxGain ∧ ∀ i, 0x1000 ≤ i → (after ops).cells i = 0 := by
  have mirrors := run_mirrors ops ran fits
  refine ⟨?_,?_,?_,cells_of_ge ops⟩
  · intro cmd next reply transferred read i data inside
    have nonempty : cmd ≠ [] := List.ne_nil_of_length_pos (by omega)
    rw [Chip.spiTransfer_eq c cmd nonempty] at transferred
    obtain ⟨d,_,same⟩ := Option.map_eq_some_iff.mp transferred
    obtain ⟨rfl,rfl⟩ := Prod.mk.inj same
    have status : i ≠ 1 := by omega
    simp only [Chip.answer, tabulate, List.getElem?_map, List.getElem?_range inside,
      Option.map_some, Chip.answerByte, status, ite_false, Chip.dataByte, read, data, ite_true]
    exact congrArg some (mirrors.cells _)
  · intro cmd out next reply grown transferred read long short
    obtain ⟨d,byte,_⟩ := Chip.transferByte_spec c out
    rw [byte, mirrors.accumulated, grown] at transferred
    obtain ⟨_,rfl⟩ := Prod.mk.inj (Option.some.inj transferred)
    have last : cmd.length = (after ops).bytes.length + 1 := by rw [← grown]; simp
    have data : returnsData (arg cmd 0) = true := by simp [returnsData,read]
    have near : (after ops).bytes.length < 260 := by omega
    have status : (after ops).bytes.length ≠ 1 := by omega
    have past : 4 ≤ (after ops).bytes.length := by omega
    simp only [Chip.streamByte, data, ite_true, near, Chip.answerByte, status, ite_false,
      Chip.dataByte, Chip.padded_arg_zero, read, past]
    rw [Chip.arg_padded cmd (by omega), Chip.arg_padded cmd (by omega)]
    have index : cmd.length - 5 = (after ops).bytes.length - 4 := by omega
    rw [index]
    exact mirrors.cells _
  · have gain := mirrors.cells kRegRxGain
    rw [get?_of_lt _ (by decide)] at gain
    exact gain

theorem registers_are_memory_written : ∃ c,
    run Chip.step (.new 0) [.csAssert,.xfer 0x0D,.xfer 0x0F,.xfer 0xFF,.xfer 0x5A,.tick 1,
      .xfer 0x5B,.csRelease] = some c ∧
    c.rxGainReg = (after [.csAssert,.xfer 0x0D,.xfer 0x0F,.xfer 0xFF,.xfer 0x5A,.tick 1,
      .xfer 0x5B,.csRelease]).cells kRegRxGain := by
  have reached : (run Chip.step (.new 0) [.csAssert,.xfer 0x0D,.xfer 0x0F,.xfer 0xFF,.xfer 0x5A,
      .tick 1,.xfer 0x5B,.csRelease]).isSome = true := by
    decide +kernel
  obtain ⟨c,ran⟩ := Option.isSome_iff_exists.mp reached
  exact ⟨c,ran,(registers_are_memory _ ran (by decide +kernel)).2.2.1⟩

end RegisterFile
end Meshcore
