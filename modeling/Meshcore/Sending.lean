import Meshcore.DriverCommands

/-! A transmission through the driver: staged, launched, taken from the chip by the
bridge and ended by the engine. -/
namespace Meshcore

open Checked Flags Programs Program

variable {κ : Type} {stuckIrqMs : UInt32} {c d : Chip}

/-- A transmission raises the line as it ends, or times out. -/
def txIrqMask : BitVec 16 := kIrqTxDone ||| RADIOLIB_SX126X_IRQ_TIMEOUT

namespace Chip

/-- The chip once `data` waits in its buffer. -/
def staged (c : Chip) (data : List UInt8) (regs : Block 0x1000 UInt8) (preambleSyms : UInt32) : Chip :=
  { c.cleared with
    regs, preambleSyms, txLenForSend := UInt8.ofNat data.length, irqMask := txIrqMask
    txBase := 0, rxBase := 0, buffer := c.buffer.overlay 0 data }

/-- And once it has been latched. -/
def keyed (c : Chip) (data : List UInt8) : Chip :=
  { c with
    mode := .tx, femAtTx := c.femEnabled, hasTransmitted := true
    pendingTx := data, hasPendingTx := true }

theorem staged_startTx (short : data.length ≤ 255) (regs : Block 0x1000 UInt8)
    (preambleSyms : UInt32) : (c.staged data regs preambleSyms).startTx =
      some ((c.staged data regs preambleSyms).keyed data) := by
  have length : (c.staged data regs preambleSyms).txLenForSend.toNat = data.length :=
    UInt8.toNat_ofNat_of_lt' (Nat.lt_succ_of_le short)
  refine startTx_eq_some.mpr ⟨data,?_,rfl⟩
  rw [length]
  exact slice?_overlay c.buffer 0 data (by omega)

end Chip

namespace SX126x

variable (s : SX126x) (settled : c.Settled)
include settled

theorem stageTransmit_does (short : data.length ≤ 254) : ∃ regs preambleSyms,
    Does (κ := κ) (s.stageTransmit data) c (c.staged data regs preambleSyms)
      (RADIOLIB_ERR_NONE,{ s with stagedMode := .tx }) := by
  obtain ⟨regs,preambleSyms,framed⟩ := setPacketParams_does (κ := κ) settled s.preambleLengthLoRa
    s.crcTypeLoRa (UInt8.ofNat data.length) s.headerType s.invertIQEnabled
  obtain ⟨regs',tuned⟩ := fixSensitivity_does (κ := κ) (c := c.staged data regs preambleSyms)
    s settled
  refine ⟨regs',preambleSyms,?_⟩
  rw [stageTransmit, if_neg (by omega)]
  refine (getPacketType_does settled).bind ?_
  refine framed.asserted ?_
  refine Does.asserted (setDioIrqParams_does (by exact settled) txIrqMask kIrqTxDone) ?_
  refine Does.asserted (setBufferBaseAddress_does (by exact settled)) ?_
  refine Does.asserted (writeBuffer_does (by exact settled) data short) ?_
  refine Does.asserted (clearIrqStatus_does (by exact settled)) ?_
  exact tuned.asserted (.done _ _)

omit settled in
theorem waitForRampUp_does (c : Chip) : Does (κ := κ) waitForRampUp c c () := by
  rintro q rfl
  refine ⟨q.localUs,?_⟩
  rw [waitForRampUp]
  exact run_loop_of_ends rfl 20000

/-- A payload that fits is latched for the bridge as it is; the longest that is not refused
overruns the driver's own buffers by a byte. -/
theorem startTransmit_does (short : data.length ≤ 254) : ∃ regs preambleSyms,
    Does (κ := κ) (s.startTransmit data) c ((c.staged data regs preambleSyms).keyed data)
      (RADIOLIB_ERR_NONE,{ s with stagedMode := .none }) := by
  obtain ⟨regs,preambleSyms,staged⟩ := s.stageTransmit_does (κ := κ) settled short
  refine ⟨regs,preambleSyms,staged.bind ?_⟩
  have latched := Chip.staged_startTx (c := c) (Nat.le_succ_of_le short) regs preambleSyms
  have kept : (c.staged data regs preambleSyms).Settled := settled
  exact (setTx_does kept latched 0).asserted ((waitForRampUp_does _).bind (.done _ _))

omit settled in
/-- One that does not fit is refused before the chip hears of it. -/
theorem startTransmit_refuses (c : Chip) (long : 255 < data.length) :
    Does (κ := κ) (s.startTransmit data) c c (RADIOLIB_ERR_PACKET_TOO_LONG,s) := by
  rw [startTransmit, stageTransmit, if_pos long]
  exact .done _ _

theorem finishTransmit_does : Does (κ := κ) s.finishTransmit c
    { c.cleared with mode := .standby } RADIOLIB_ERR_NONE :=
  (clearIrqStatus_does settled).asserted (s.standby_does (by exact settled))

end SX126x
end Meshcore
