import Meshcore.Receiving

/-! The receiver turned on by the driver, and the channel scanned. The answer of a scan is
split over both bytes of the flags, and its second one is not told. -/
namespace Meshcore

open Checked Flags Programs Program

variable {κ : Type} {stuckIrqMs : UInt32} {c d : Chip}

/-- The flags that a reception, and a scan, may raise the line with. -/
def rxIrqMask : BitVec 16 := SX126x.getIrqMapped SX126x.RADIOLIB_IRQ_RX_DEFAULT_FLAGS

def cadIrqMask : BitVec 16 := SX126x.getIrqMapped SX126x.RADIOLIB_IRQ_CAD_DEFAULT_FLAGS

/-- The line as commands and frames have left it. -/
theorem digitalRead_does (known : Quiet.dio1? c = some level) :
    Does (κ := κ) (Hal.digitalRead kPinDio1) c c level := by
  rintro q rfl
  refine ⟨q.localUs,?_⟩
  have pin : kPinDio1 ≠ kPinBusy := by decide
  change Quiet.answer (.digitalRead kPinDio1) q >>= some = _
  simp only [Quiet.answer, if_neg pin, known]
  rfl

namespace SX126x

variable (s : SX126x)

/-- The chip once the driver listens. -/
def listening (c : Chip) (regs : Block 0x1000 UInt8) (preambleSyms : UInt32) (txLenForSend : UInt8) :
    Chip :=
  { c.cleared with
    regs, preambleSyms, txLenForSend, irqMask := rxIrqMask, txBase := 0, rxBase := 0, mode := .rx }

theorem startReceive_does (settled : c.Settled) (idle : c.inbox = []) :
    ∃ regs preambleSyms txLenForSend,
      Does (κ := κ) s.startReceive c (listening c regs preambleSyms txLenForSend)
        (RADIOLIB_ERR_NONE,
          { s with rxTimeout := RADIOLIB_SX126X_RX_TIMEOUT_INF, stagedMode := .none }) := by
  obtain ⟨regs,preambleSyms,framed⟩ := setPacketParams_does (κ := κ) (c := { c.cleared with
    irqMask := rxIrqMask, txBase := 0, rxBase := 0, mode := .standby }) (Chip.settled_standby rfl)
    s.preambleLengthLoRa s.crcTypeLoRa s.implicitLen.toUInt8 s.headerType s.invertIQEnabled
  refine ⟨regs,preambleSyms,s.implicitLen.toUInt8,?_⟩
  have common : Does (κ := κ) (s.startReceiveCommon RADIOLIB_SX126X_RX_TIMEOUT_INF
      RADIOLIB_IRQ_RX_DEFAULT_FLAGS RADIOLIB_IRQ_RX_DEFAULT_MASK) c
      { listening c regs preambleSyms s.implicitLen.toUInt8 with mode := .standby }
      RADIOLIB_ERR_NONE := by
    refine (s.standby_does settled).asserted ?_
    refine Does.asserted (setDioIrqParams_does (by exact Chip.settled_standby rfl) rxIrqMask _) ?_
    refine Does.asserted (setBufferBaseAddress_does (by exact Chip.settled_standby rfl)) ?_
    refine Does.asserted (clearIrqStatus_does (by exact Chip.settled_standby rfl)) ?_
    exact (getPacketType_does (by exact Chip.settled_standby rfl)).bind framed
  have unstaged : ¬(s.headerType = RADIOLIB_SX126X_LORA_HEADER_IMPLICIT ∧ (0 : UInt64) ≠ 0) := by simp
  rw [startReceive, startReceiveFor, stageReceive, if_neg unstaged]
  refine Does.bind (Does.asserted common (.done _ _)) ?_
  exact Does.bind (setRx_does (by exact idle) _) (.done _ _)

/-- The chip once a scan has answered. -/
def scanned (c : Chip) : Chip :=
  Chip.startCad { c.cleared with irqMask := cadIrqMask, mode := .standby }

theorem startChannelScan_does (settled : c.Settled) :
    Does (κ := κ) s.startChannelScan c (scanned c) RADIOLIB_ERR_NONE := by
  refine (getPacketType_does settled).bind ?_
  refine (s.standby_does settled).asserted ?_
  refine Does.asserted (setDioIrqParams_does (by exact Chip.settled_standby rfl) cadIrqMask _) ?_
  refine Does.asserted (clearIrqStatus_does (by exact Chip.settled_standby rfl)) ?_
  exact s.setCad_does (by exact Chip.settled_standby rfl) _ _ _ _ _

/-- The line is up as soon as anybody looks. -/
theorem scanned_dio1 (c : Chip) : Quiet.dio1? (scanned c) = some GpioLevelHigh := by
  have done : any (kIrqCadDone &&& ~~~kIrqHeard) cadIrqMask = true := by decide
  have raised : any ((scanned c).irq &&& ~~~kIrqHeard) (scanned c).irqMask = true := by
    simp only [scanned, Chip.startCad]
    split
    all_goals simp [BitVec.and_or_distrib_right,done]
  rw [Quiet.dio1?, if_pos raised]

theorem waitForIrq_does (c : Chip) (turns : Nat) :
    Does (κ := κ) (waitForIrq (turns + 1)) (scanned c) (scanned c) () := by
  intro q start
  obtain ⟨t,read⟩ := digitalRead_does (κ := κ) (scanned_dio1 c) q start
  have high : GpioLevelHigh ≠ GpioLevelLow := by decide
  refine ⟨t,?_⟩
  rw [waitForIrq]
  refine run_loop_of_ends ?_ turns
  rw [run_bind, read, Option.bind_some, if_pos high]
  rfl

/-- The flags of the first byte are told. -/
theorem any_hiByte (word : BitVec 16) {mask : BitVec 16} (high : mask &&& 0xFF = 0) :
    any (be16 (hiByte word) 0) mask = any word mask := by
  have same : be16 (hiByte word) 0 &&& mask = word &&& mask := by
    refine BitVec.eq_of_getLsbD_eq fun i inside => ?_
    rw [BitVec.getLsbD_and, BitVec.getLsbD_and]
    rcases Nat.lt_or_ge i 8 with below | above
    · have byte : (0xFF : BitVec 16).getLsbD i = true := by
        have known : ∀ i < 8, (0xFF : BitVec 16).getLsbD i = true := by decide
        exact known i below
      have bit := congrArg (·.getLsbD i) high
      simp only [BitVec.getLsbD_and, byte, Bool.and_true] at bit
      rw [bit]
      simp
    · have kept : (be16 (hiByte word) 0).getLsbD i = word.getLsbD i := by
        have byte : i - 8 < 8 := by omega
        simp [be16,hiByte,inside,byte,Nat.not_lt.mpr above,Nat.add_sub_cancel' above]
      rw [kept]
  rw [any, any, same]

theorem scanChannel_does (settled : c.Settled) (turns : Nat) :
    Does (κ := κ) (s.scanChannel (turns + 1)) c (scanned c).countIrqRead
      (if c.channelBusy then RADIOLIB_LORA_DETECTED else RADIOLIB_ERR_UNKNOWN) := by
  have detected : any (be16 (hiByte (scanned c).irq) 0) kIrqCadDetected = c.channelBusy := by
    have before : any c.cleared.irq kIrqCadDetected = false :=
      any_clear_of_named ⟨8,by decide⟩ (by decide)
    have apart : any kIrqCadDone kIrqCadDetected = false ∧
        any kIrqCadDetected kIrqCadDetected = true := by decide
    have channel : c.cleared.channelBusy = c.channelBusy := rfl
    rw [any_hiByte _ (by decide), scanned, Chip.startCad]
    cases busy : c.channelBusy <;> simp [busy,channel,before,apart]
  have done : any (be16 (hiByte (scanned c).irq) 0) kIrqCadDone = false := any_high _ (by decide)
  refine (s.startChannelScan_does settled).asserted ((waitForIrq_does c turns).bind ?_)
  refine (getPacketType_does (by exact Chip.settled_standby rfl)).bind ?_
  refine (getIrqFlags_does (by exact Chip.settled_standby rfl)).bind ?_
  rw [detected, done]
  cases c.channelBusy <;> exact .done _ _

end SX126x
end Meshcore
