import Meshcore.Driver
import Meshcore.Reports

/-! What each command of the driver does to a chip that has nothing to deliver. None
fails, so every check of a result goes through. -/
namespace Meshcore

open Checked Flags Programs Program

variable {κ : Type} {stuckIrqMs : UInt32} {c d e : Chip}

theorem Does.asserted {p : Hal κ Int16} {failed : Int16 → α} {rest : Hal κ α}
    (first : Does p c d RADIOLIB_ERR_NONE) (then' : Does rest d e a) :
    Does (RADIOLIB_ASSERT p failed rest) c e a := by
  refine first.bind ?_
  simpa using then'

/-- The chip with every flag of the driver's down; those are all that it raises. -/
def Chip.cleared (c : Chip) : Chip :=
  { c with
    irq := c.irq &&& ~~~RADIOLIB_SX126X_IRQ_ALL, preambleRaised := false, headerRaised := false }

theorem Chip.act_clearIrqStatus (c : Chip) : c.act (Opcode.clearIrqStatus.byte :: [] ++
    [hiByte RADIOLIB_SX126X_IRQ_ALL,loByte RADIOLIB_SX126X_IRQ_ALL]) = some c.cleared := by
  have all : be16 (hiByte RADIOLIB_SX126X_IRQ_ALL) (loByte RADIOLIB_SX126X_IRQ_ALL) =
      RADIOLIB_SX126X_IRQ_ALL := be16_bytes _
  have latches : any RADIOLIB_SX126X_IRQ_ALL kIrqPreambleDetected = true ∧
      any RADIOLIB_SX126X_IRQ_ALL kIrqHeaderValid = true := by decide
  simp [act,arg,all,latches,cleared]

/-- The chip with a register rewritten from what it held. -/
def Chip.rewritten (c : Chip) (a : Nat) (change : UInt8 → UInt8) : Chip :=
  { c with regs := c.regs.overlay a [change ((c.regs.get? a).getD 0)] }

namespace SX126x

variable (s : SX126x) (settled : c.Settled)
include settled

theorem getPacketType_does :
    Does (κ := κ) getPacketType c c RADIOLIB_SX126X_PACKET_TYPE_LORA := by
  have read := readStream_does (κ := κ) Opcode.getPacketType.byte [] [0xFF] settled settled rfl
    (by simp) (by simp [Chip.Curt,arg]) (by simp [Chip.act,arg])
  have answer : (tabulate [(0xFF : UInt8)].length fun i => c.dataByte
      (Opcode.getPacketType.byte :: [] ++ List.replicate ([(0xFF : UInt8)].length + 1) 0x00)
        ([].length (α := UInt8) + 2 + i)) = [0x01] := rfl
  rw [answer] at read
  exact read.bind (.done _ _)

theorem standby_does : Does (κ := κ) s.standby c { c with mode := .standby } RADIOLIB_ERR_NONE := by
  have wakes : c.act ([0x00] ++ []) = some c := by
    have none : opcode? 0x00 = none := rfl
    simp [Chip.act,arg,none]
  refine (writeStream_does 0x00 [] [] false settled settled (by simp)
    (by simp [Chip.Curt,arg,opcode?]) wakes).bind ?_
  exact writeStream_does _ [] _ true settled (Chip.settled_standby rfl) (by simp)
    (by simp [Chip.Curt,arg]) (by simp [Chip.act,arg])

theorem writeRegister_does (addr : UInt32) (data : List UInt8) (fits : data.length ≤ 253) :
    Does (κ := κ) (writeRegister addr data) c
      { c with regs := c.regs.overlay (addr.toNat % 65536) data } RADIOLIB_ERR_NONE :=
  (SPIwriteRegisterBurst_does settled addr data fits).bind (.done _ _)

theorem readRegister_does (addr : UInt32) (numBytes : Nat) (fits : numBytes ≤ 252) :
    Does (κ := κ) (readRegister addr numBytes) c c (RADIOLIB_ERR_NONE,
      tabulate numBytes fun i => (c.regs.get? (addr.toNat % 65536 + i)).getD 0) :=
  (SPIreadRegisterBurst_does settled addr numBytes fits).bind
    ((SPIcheckStream_does settled).bind (.done _ _))

theorem rewriteRegister_does (addr : UInt32) (change : UInt8 → UInt8) (failed : Int16 → Int16) :
    Does (κ := κ) (do
      let (state,current) ← readRegister addr 1
      RADIOLIB_ASSERT (pure state) failed (writeRegister addr [change (arg current 0)]))
      c (c.rewritten (addr.toNat % 65536) change) RADIOLIB_ERR_NONE :=
  (readRegister_does settled addr 1 (by decide)).bind
    (Does.asserted (.done _ _) (writeRegister_does settled addr _ (by simp)))

/-- What an IQ setup makes of the register. -/
def iqConfigured (iqConfig current : UInt8) : UInt8 :=
  if iqConfig = RADIOLIB_SX126X_LORA_IQ_INVERTED then current &&& 0xFB else current ||| 0x04

theorem fixInvertedIQ_does (iqConfig : UInt8) : Does (κ := κ) (fixInvertedIQ iqConfig) c
    (c.rewritten 0x0736 (iqConfigured iqConfig)) RADIOLIB_ERR_NONE :=
  rewriteRegister_does settled 0x0736 (iqConfigured iqConfig) id

theorem fixSensitivity_does : ∃ regs,
    Does (κ := κ) s.fixSensitivity c { c with regs } RADIOLIB_ERR_NONE :=
  ⟨_,(readRegister_does settled 0x0889 1 (by decide)).bind (Does.asserted (.done _ _)
    ((getPacketType_does settled).bind (writeRegister_does settled 0x0889 _ (by simp))))⟩

theorem setPacketParams_sets (preambleLen : BitVec 16) (crcType payloadLen hdrType invertIQ : UInt8) :
    Does (κ := κ) (setPacketParams preambleLen crcType payloadLen hdrType invertIQ) c
      ((c.rewritten 0x0736 (iqConfigured invertIQ)).applyPacketParams (hiByte preambleLen)
        (loByte preambleLen) payloadLen) RADIOLIB_ERR_NONE := by
  have kept : (c.rewritten 0x0736 (iqConfigured invertIQ)).Settled := settled
  exact (fixInvertedIQ_does settled invertIQ).asserted (writeStream_does _ [] _ true kept settled
    (by simp) (by simp [Chip.Curt,arg]) (by simp [Chip.act,arg]))

theorem setPacketParams_does (preambleLen : BitVec 16) (crcType payloadLen hdrType invertIQ : UInt8) :
    ∃ regs preambleSyms, Does (κ := κ)
      (setPacketParams preambleLen crcType payloadLen hdrType invertIQ) c
      { c with regs, preambleSyms, txLenForSend := payloadLen } RADIOLIB_ERR_NONE :=
  ⟨_,_,setPacketParams_sets settled preambleLen crcType payloadLen hdrType invertIQ⟩

theorem setDioIrqParams_does (irqMask dio1Mask : BitVec 16) :
    Does (κ := κ) (setDioIrqParams irqMask dio1Mask) c { c with irqMask } RADIOLIB_ERR_NONE := by
  have both : be16 (hiByte irqMask) (loByte irqMask) = irqMask := be16_bytes irqMask
  exact writeStream_does _ [] _ true settled settled (by simp) (by simp [Chip.Curt,arg])
    (by simp [Chip.act,arg,both])

theorem setBufferBaseAddress_does : Does (κ := κ) setBufferBaseAddress c
    { c with txBase := 0, rxBase := 0 } RADIOLIB_ERR_NONE :=
  writeStream_does _ [] _ true settled settled (by simp) (by simp [Chip.Curt,arg])
    (by simp [Chip.act,arg])

/-- Two bytes go before the payload. -/
theorem writeBuffer_does (data : List UInt8) (fits : data.length ≤ 254) :
    Does (κ := κ) (writeBuffer data 0) c { c with buffer := c.buffer.overlay 0 data }
      RADIOLIB_ERR_NONE :=
  writeStream_does _ [0] data true settled settled (by simp; omega) (by simp [Chip.Curt,arg])
    (by simp [Chip.act,arg])

theorem clearIrqStatus_does : Does (κ := κ) clearIrqStatus c c.cleared RADIOLIB_ERR_NONE :=
  writeStream_does _ [] _ true settled settled (by simp) (by simp [Chip.Curt,arg])
    c.act_clearIrqStatus

omit settled in
theorem setTx_does (settled : c.Settled) (started : c.startTx = some d) (timeout : UInt32) :
    Does (κ := κ) (setTx timeout) c d RADIOLIB_ERR_NONE := by
  have after : d.Settled := by
    obtain ⟨_,_,rfl⟩ := Chip.startTx_eq_some.mp started
    exact Chip.settled_tx rfl
  exact writeStream_does _ [] _ true settled after (by simp [timeoutBytes])
    (by simp [Chip.Curt,arg]) (by simpa [Chip.act,arg] using started)

omit settled in
theorem setRx_does (idle : c.inbox = []) (timeout : UInt32) :
    Does (κ := κ) (setRx timeout) c { c with mode := .rx } RADIOLIB_ERR_NONE :=
  writeStream_does _ [] _ true (fun _ => idle) (fun _ => idle) (by simp [timeoutBytes])
    (by simp [Chip.Curt,arg]) (by simp [Chip.act,arg,Chip.startRx])

/-- The answer of a scan is there as soon as it is asked for. -/
theorem setCad_does (symbolNum detPeak detMin exitMode : UInt8) (timeout : UInt64) :
    Does (κ := κ) (s.setCad symbolNum detPeak detMin exitMode timeout) c c.startCad
      RADIOLIB_ERR_NONE := by
  refine Does.asserted (writeStream_does _ [] _ true settled settled (by simp [timeoutBytes])
    (by simp [Chip.Curt,arg]) (by simp [Chip.act,arg])) ?_
  exact writeStream_does _ [] [] true settled (Chip.settled_standby rfl) (by simp)
    (by simp [Chip.Curt,arg]) (by simp [Chip.act,arg])

/-- Two bytes are asked for and the second is withheld. -/
theorem getIrqFlags_does :
    Does (κ := κ) getIrqFlags c c.countIrqRead (be16 (hiByte c.irq) 0) := by
  have read := readStream_does (κ := κ) Opcode.getIrqStatus.byte [] [0x00,0x00] settled settled rfl
    (by simp) (by simp [Chip.Curt,arg]) (d := c.countIrqRead) (by simp [Chip.act,arg])
  exact read.bind (.done _ _)

/-- And of the length of a frame and where it lies only the length is told. -/
theorem getPacketLength_does :
    Does (κ := κ) (s.getPacketLength true) c c (c.rxLen.toUInt64,0) := by
  refine (getPacketType_does settled).bind ?_
  have read := readStream_does (κ := κ) Opcode.getRxBufferStatus.byte [] [0,0] settled settled rfl
    (by simp) (by simp [Chip.Curt,arg]) (by simp [Chip.act,arg])
  simp only [Bool.true_eq_false, and_false, ite_false]
  exact read.bind (.done _ _)

/-- Two bytes and the status go before the data. -/
theorem readBuffer_does (numBytes offset : UInt8) (fits : numBytes.toNat ≤ 253) :
    Does (κ := κ) (readBuffer numBytes offset) c c
      (RADIOLIB_ERR_NONE,tabulate numBytes.toNat fun i =>
        (c.buffer.get? (offset.toNat + i)).getD 0) := by
  have read := readStream_does (κ := κ) Opcode.readBuffer.byte [offset]
    (List.replicate numBytes.toNat 0) settled settled rfl (by simp; omega)
    (by simp [Chip.Curt,arg]) (by simp [Chip.act,arg])
  have bytes : (tabulate (List.replicate numBytes.toNat (0 : UInt8)).length fun i =>
      c.dataByte (Opcode.readBuffer.byte :: [offset] ++
        List.replicate ((List.replicate numBytes.toNat (0 : UInt8)).length + 1) 0x00) (1 + 2 + i)) =
      tabulate numBytes.toNat fun i => (c.buffer.get? (offset.toNat + i)).getD 0 := by
    rw [List.length_replicate]
    refine tabulate_congr fun i _ => ?_
    simp [Chip.dataByte,arg,show 3 ≤ 1 + 2 + i by omega]
  rw [← bytes]
  exact read

end SX126x
end Meshcore
