import Meshcore.SpiModule

/-! The driver of the chip: its commands, and how it starts and ends a transmission, a
reception and a scan of the channel. Only its LoRa side is here; a modem is asked for by
`getPacketType`, and the chip names no other. -/
namespace Meshcore

open Checked Flags Programs Program

variable {κ : Type} {stuckIrqMs : UInt32}

def RADIOLIB_ERR_UNKNOWN : Int16 := -1
def RADIOLIB_ERR_PACKET_TOO_LONG : Int16 := -4
def RADIOLIB_ERR_RX_TIMEOUT : Int16 := -6
def RADIOLIB_ERR_CRC_MISMATCH : Int16 := -7
def RADIOLIB_CHANNEL_FREE : Int16 := -15
def RADIOLIB_ERR_WRONG_MODEM : Int16 := -20
def RADIOLIB_ERR_UNSUPPORTED : Int16 := -25
def RADIOLIB_LORA_DETECTED : Int16 := -702

def RADIOLIB_SX126X_IRQ_TIMEOUT : BitVec 16 := 0b0000001000000000
def RADIOLIB_SX126X_IRQ_CRC_ERR : BitVec 16 := 0b0000000001000000
def RADIOLIB_SX126X_IRQ_HEADER_ERR : BitVec 16 := 0b0000000000100000
def RADIOLIB_SX126X_IRQ_ALL : BitVec 16 := 0b0100001111111111
def RADIOLIB_SX126X_PACKET_TYPE_LORA : UInt8 := 0x01
def RADIOLIB_SX126X_LORA_HEADER_IMPLICIT : UInt8 := 0x01
def RADIOLIB_SX126X_LORA_IQ_INVERTED : UInt8 := 0x01
def RADIOLIB_SX126X_RX_TIMEOUT_INF : UInt32 := 0xFFFFFF
def RADIOLIB_SX126X_CAD_PARAM_DEFAULT : UInt8 := 0xFF

inductive RadioMode where
  | none
  | rx
  | tx
  deriving DecidableEq, Repr

/-- What the driver keeps of its settings. -/
structure SX126x where
  XTAL : Bool := false
  bandwidth : UInt8 := 0
  freqMHz : ℚ := 0
  ldroAuto : Bool := true
  tcxoDelay : UInt32 := 0
  pwr : UInt8 := 0
  spreadingFactor : UInt8 := 0
  codingRate : UInt8 := 0
  ldrOptimize : UInt8 := 0
  crcTypeLoRa : UInt8 := 0
  headerType : UInt8 := 0
  preambleLengthLoRa : BitVec 16 := 0
  bandwidthKhz : ℚ := 0
  implicitLen : UInt64 := 0
  invertIQEnabled : UInt8 := 0
  standbyXOSC : Bool := false
  rxTimeout : UInt32 := 0
  stagedMode : RadioMode := .none

/-- `state = p; if (state != RADIOLIB_ERR_NONE) return state;` and the rest. -/
def RADIOLIB_ASSERT (p : Hal κ Int16) (failed : Int16 → α) (rest : Hal κ α) : Hal κ α := do
  let state ← p
  if state ≠ RADIOLIB_ERR_NONE then return failed state
  rest

namespace SX126x

/-- Three bytes of a timeout. -/
def timeoutBytes (timeout : UInt32) : List UInt8 :=
  [(timeout >>> 16).toUInt8,(timeout >>> 8).toUInt8,timeout.toUInt8]

def standby (s : SX126x) : Hal κ Int16 := do
  -- A NOP wakes the chip.
  let _ ← SPIwriteStream [0x00] [] false
  SPIwriteStream [Opcode.setStandby.byte] [if s.standbyXOSC then 0x01 else 0x00] true

def setTx (timeout : UInt32) : Hal κ Int16 :=
  SPIwriteStream [Opcode.setTx.byte] (timeoutBytes timeout) true

def setRx (timeout : UInt32) : Hal κ Int16 :=
  SPIwriteStream [Opcode.setRx.byte] (timeoutBytes timeout) true

def setCad (s : SX126x) (symbolNum detPeak detMin exitMode : UInt8) (timeout : UInt64) :
    Hal κ Int16 :=
  let given (value default : UInt8) : UInt8 :=
    if value ≠ RADIOLIB_SX126X_CAD_PARAM_DEFAULT then value else default
  -- The timeout counts steps of 15.625 microseconds.
  let timeout_raw := UInt32.ofNat (timeout.toNat * 1000 / 15625)
  let data := [given symbolNum 0x02,given detPeak (s.spreadingFactor + 13),given detMin 10,
    given exitMode 0x00] ++ timeoutBytes timeout_raw
  RADIOLIB_ASSERT (SPIwriteStream [Opcode.setCadParams.byte] data true) id <|
  SPIwriteStream [Opcode.setCad.byte] [] true

def writeRegister (addr : UInt32) (data : List UInt8) : Hal κ Int16 := do
  SPIwriteRegisterBurst addr data
  return RADIOLIB_ERR_NONE

def readRegister (addr : UInt32) (numBytes : Nat) : Hal κ (Int16 × List UInt8) := do
  let data ← SPIreadRegisterBurst addr numBytes
  let state ← SPIcheckStream
  return (state,data)

def writeBuffer (data : List UInt8) (offset : UInt8) : Hal κ Int16 :=
  SPIwriteStream [Opcode.writeBuffer.byte,offset] data true

def readBuffer (numBytes offset : UInt8) : Hal κ (Int16 × List UInt8) :=
  SPIreadStream [Opcode.readBuffer.byte,offset] (List.replicate numBytes.toNat 0)

def setDioIrqParams (irqMask dio1Mask : BitVec 16) : Hal κ Int16 :=
  SPIwriteStream [Opcode.setDioIrqParams.byte]
    [hiByte irqMask,loByte irqMask,hiByte dio1Mask,loByte dio1Mask,0,0,0,0] true

def clearIrqStatus : Hal κ Int16 :=
  SPIwriteStream [Opcode.clearIrqStatus.byte]
    [hiByte RADIOLIB_SX126X_IRQ_ALL,loByte RADIOLIB_SX126X_IRQ_ALL] true

def getPacketType : Hal κ UInt8 := do
  let (_,data) ← SPIreadStream [Opcode.getPacketType.byte] [0xFF]
  return arg data 0

def setBufferBaseAddress : Hal κ Int16 :=
  SPIwriteStream [Opcode.setBufferBase.byte] [0x00,0x00] true

/-- As the sixteen bits it can have. -/
def getIrqFlags : Hal κ (BitVec 16) := do
  let (_,data) ← SPIreadStream [Opcode.getIrqStatus.byte] [0x00,0x00]
  return be16 (arg data 0) (arg data 1)

/-- The IQ setup has a bit of its own in a register. -/
def fixInvertedIQ (iqConfig : UInt8) : Hal κ Int16 := do
  let (state,current) ← readRegister 0x0736 1
  RADIOLIB_ASSERT (pure state) id <|
  let iqConfigCurrent := if iqConfig = RADIOLIB_SX126X_LORA_IQ_INVERTED then arg current 0 &&& 0xFB
    else arg current 0 ||| 0x04
  writeRegister 0x0736 [iqConfigCurrent]

def setPacketParams (preambleLen : BitVec 16) (crcType payloadLen hdrType invertIQ : UInt8) :
    Hal κ Int16 :=
  RADIOLIB_ASSERT (fixInvertedIQ invertIQ) id <|
  SPIwriteStream [Opcode.setPacketParams.byte]
    [hiByte preambleLen,loByte preambleLen,hdrType,payloadLen,crcType,invertIQ] true

def fixSensitivity (s : SX126x) : Hal κ Int16 := do
  let (state,config) ← readRegister 0x0889 1
  RADIOLIB_ASSERT (pure state) id do
    let modem ← getPacketType
    let sensitivityConfig :=
      if modem = RADIOLIB_SX126X_PACKET_TYPE_LORA ∧ |s.bandwidthKhz - 500| ≤ 1 / 1000 then
        arg config 0 &&& 0xFB
      else arg config 0 ||| 0x04
    writeRegister 0x0889 [sensitivityConfig]

def fixImplicitTimeout (s : SX126x) : Hal κ Int16 := do
  if s.headerType ≠ RADIOLIB_SX126X_LORA_HEADER_IMPLICIT then return RADIOLIB_ERR_NONE
  if (← getPacketType) ≠ RADIOLIB_SX126X_PACKET_TYPE_LORA then return RADIOLIB_ERR_NONE
  RADIOLIB_ASSERT (writeRegister 0x0902 [0x00]) id do
    let (state,event) ← readRegister 0x0944 1
    RADIOLIB_ASSERT (pure state) id <|
    writeRegister 0x0944 [arg event 0 ||| 0x02]

/-- The flags of this chip in the driver's own order. -/
def irqMap : List (BitVec 16) :=
  [kIrqTxDone,kIrqRxDone,kIrqPreambleDetected,kIrqSyncWordValid,kIrqHeaderValid,
   RADIOLIB_SX126X_IRQ_HEADER_ERR,RADIOLIB_SX126X_IRQ_CRC_ERR,kIrqCadDone,kIrqCadDetected,
   RADIOLIB_SX126X_IRQ_TIMEOUT]

def getIrqMapped (irq : BitVec 32) : BitVec 16 :=
  (irqMap.zipIdx.filter fun (_,i) => irq.getLsbD i).foldl (fun raw (flag,_) => raw ||| flag) 0

def RADIOLIB_IRQ_TIMEOUT : BitVec 32 := 1 <<< 9
def RADIOLIB_IRQ_RX_DEFAULT_FLAGS : BitVec 32 :=
  1 <<< 1 ||| 1 <<< 9 ||| 1 <<< 6 ||| 1 <<< 4 ||| 1 <<< 5
def RADIOLIB_IRQ_RX_DEFAULT_MASK : BitVec 32 := 1 <<< 1
def RADIOLIB_IRQ_CAD_DEFAULT_FLAGS : BitVec 32 := 1 <<< 8 ||| 1 <<< 7
def RADIOLIB_IRQ_CAD_DEFAULT_MASK : BitVec 32 := 1 <<< 8 ||| 1 <<< 7

def startReceiveCommon (s : SX126x) (timeout : UInt32) (irqFlags irqMask : BitVec 32) :
    Hal κ Int16 :=
  RADIOLIB_ASSERT s.standby id <|
  let irqMask := if timeout ≠ RADIOLIB_SX126X_RX_TIMEOUT_INF then irqMask ||| RADIOLIB_IRQ_TIMEOUT
    else irqMask
  RADIOLIB_ASSERT (setDioIrqParams (getIrqMapped irqFlags) (getIrqMapped irqMask)) id <|
  RADIOLIB_ASSERT setBufferBaseAddress id <|
  RADIOLIB_ASSERT clearIrqStatus id do
    if (← getPacketType) = RADIOLIB_SX126X_PACKET_TYPE_LORA then
      setPacketParams s.preambleLengthLoRa s.crcTypeLoRa s.implicitLen.toUInt8 s.headerType
        s.invertIQEnabled
    -- The other modems of the family are not modelled.
    else .stuck

/-- `stageMode(RADIOLIB_RADIO_MODE_RX, cfg)` -/
def stageReceive (s : SX126x) (timeout : UInt32) (irqFlags irqMask : BitVec 32) (len : UInt64) :
    Hal κ (Int16 × SX126x) :=
  let s := if s.headerType = RADIOLIB_SX126X_LORA_HEADER_IMPLICIT ∧ len ≠ 0 then
    { s with implicitLen := len } else s
  RADIOLIB_ASSERT (s.startReceiveCommon timeout irqFlags irqMask) (·,s) <|
  let rxTimeout := if timeout = 0xFFFFFFFF then 0xFFFFFF else timeout
  pure (RADIOLIB_ERR_NONE,{ s with rxTimeout, stagedMode := .rx })

/-- `stageMode(RADIOLIB_RADIO_MODE_TX, cfg)` -/
def stageTransmit (s : SX126x) (data : List UInt8) : Hal κ (Int16 × SX126x) := do
  if data.length > 255 then return (RADIOLIB_ERR_PACKET_TOO_LONG,s)
  if (← getPacketType) = RADIOLIB_SX126X_PACKET_TYPE_LORA then
    RADIOLIB_ASSERT (setPacketParams s.preambleLengthLoRa s.crcTypeLoRa (UInt8.ofNat data.length)
      s.headerType s.invertIQEnabled) (·,s) <|
    RADIOLIB_ASSERT (setDioIrqParams (kIrqTxDone ||| RADIOLIB_SX126X_IRQ_TIMEOUT) kIrqTxDone)
      (·,s) <|
    RADIOLIB_ASSERT setBufferBaseAddress (·,s) <|
    RADIOLIB_ASSERT (writeBuffer data 0x00) (·,s) <|
    RADIOLIB_ASSERT clearIrqStatus (·,s) <|
    RADIOLIB_ASSERT s.fixSensitivity (·,s) <|
    pure (RADIOLIB_ERR_NONE,{ s with stagedMode := .tx })
  -- The other modems of the family are not modelled.
  else .stuck

/-- `while (digitalRead(gpio)) yield();` -/
def waitForRampUp : Hal κ Unit :=
  loop (do
    if (← Hal.digitalRead kPinBusy) = GpioLevelLow then return some ()
    Hal.yield
    return none) 20001

def launchMode (s : SX126x) : Hal κ (Int16 × SX126x) :=
  match s.stagedMode with
  | .rx => do
    let state ← setRx s.rxTimeout
    return (state,{ s with stagedMode := .none })
  | .tx =>
    RADIOLIB_ASSERT (setTx 0) (·,s) do
      waitForRampUp
      return (RADIOLIB_ERR_NONE,{ s with stagedMode := .none })
  | .none => pure (RADIOLIB_ERR_UNSUPPORTED,s)

def startTransmit (s : SX126x) (data : List UInt8) : Hal κ (Int16 × SX126x) := do
  let (state,s) ← s.stageTransmit data
  if state ≠ RADIOLIB_ERR_NONE then return (state,s)
  s.launchMode

def startReceiveFor (s : SX126x) (timeout : UInt32) (irqFlags irqMask : BitVec 32) (len : UInt64) :
    Hal κ (Int16 × SX126x) := do
  let (state,s) ← s.stageReceive timeout irqFlags irqMask len
  if state ≠ RADIOLIB_ERR_NONE then return (state,s)
  s.launchMode

def startReceive (s : SX126x) : Hal κ (Int16 × SX126x) :=
  s.startReceiveFor RADIOLIB_SX126X_RX_TIMEOUT_INF RADIOLIB_IRQ_RX_DEFAULT_FLAGS
    RADIOLIB_IRQ_RX_DEFAULT_MASK 0

def finishTransmit (s : SX126x) : Hal κ Int16 := RADIOLIB_ASSERT clearIrqStatus id s.standby

def finishReceive (s : SX126x) : Hal κ Int16 :=
  RADIOLIB_ASSERT s.standby id <|
  RADIOLIB_ASSERT s.fixImplicitTimeout id clearIrqStatus

/-- The length, and the offset where that is asked for. -/
def getPacketLength (s : SX126x) (offset : Bool) : Hal κ (UInt64 × UInt8) := do
  let modem ← getPacketType
  if modem = RADIOLIB_SX126X_PACKET_TYPE_LORA ∧
      s.headerType = RADIOLIB_SX126X_LORA_HEADER_IMPLICIT ∧ offset = false then
    return (s.implicitLen,0)
  let (_,rxBufStatus) ← SPIreadStream [Opcode.getRxBufferStatus.byte] [0,0]
  return ((arg rxBufStatus 0).toUInt64,arg rxBufStatus 1)

def readData (s : SX126x) (len : UInt64) : Hal κ (Int16 × List UInt8) := do
  let state ← SPIcheckStream
  let irq ← getIrqFlags
  if state = RADIOLIB_ERR_SPI_CMD_TIMEOUT ∧ any irq RADIOLIB_SX126X_IRQ_TIMEOUT then
    return (RADIOLIB_ERR_RX_TIMEOUT,[])
  RADIOLIB_ASSERT (pure state) (·,[]) do
    let crcState :=
      if any irq RADIOLIB_SX126X_IRQ_CRC_ERR ∨
          (any irq RADIOLIB_SX126X_IRQ_HEADER_ERR ∧ ¬any irq kIrqHeaderValid) then
        RADIOLIB_ERR_CRC_MISMATCH
      else RADIOLIB_ERR_NONE
    let (length,offset) ← s.getPacketLength true
    let length := if len ≠ 0 ∧ len < length then len else length
    let (state,data) ← readBuffer length.toUInt8 offset
    RADIOLIB_ASSERT (pure state) (·,data) do
      let state ← clearIrqStatus
      if crcState ≠ RADIOLIB_ERR_NONE then return (crcState,data)
      return (state,data)

def startChannelScan (s : SX126x) : Hal κ Int16 := do
  if (← getPacketType) ≠ RADIOLIB_SX126X_PACKET_TYPE_LORA then return RADIOLIB_ERR_WRONG_MODEM
  RADIOLIB_ASSERT s.standby id <|
  RADIOLIB_ASSERT (setDioIrqParams (getIrqMapped RADIOLIB_IRQ_CAD_DEFAULT_FLAGS)
    (getIrqMapped RADIOLIB_IRQ_CAD_DEFAULT_MASK)) id <|
  RADIOLIB_ASSERT clearIrqStatus id <|
  s.setCad RADIOLIB_SX126X_CAD_PARAM_DEFAULT RADIOLIB_SX126X_CAD_PARAM_DEFAULT
    RADIOLIB_SX126X_CAD_PARAM_DEFAULT RADIOLIB_SX126X_CAD_PARAM_DEFAULT 0

def getChannelScanResult : Hal κ Int16 := do
  if (← getPacketType) ≠ RADIOLIB_SX126X_PACKET_TYPE_LORA then return RADIOLIB_ERR_WRONG_MODEM
  let cadResult ← getIrqFlags
  if any cadResult kIrqCadDetected then return RADIOLIB_LORA_DETECTED
  if any cadResult kIrqCadDone then return RADIOLIB_CHANNEL_FREE
  return RADIOLIB_ERR_UNKNOWN

/-- `while (!digitalRead(irq)) yield();`, left stuck after so many turns. -/
def waitForIrq (turns : Nat) : Hal κ Unit :=
  loop (do
    if (← Hal.digitalRead kPinDio1) ≠ GpioLevelLow then return some ()
    Hal.yield
    return none) turns

def scanChannel (s : SX126x) (turns : Nat) : Hal κ Int16 :=
  RADIOLIB_ASSERT s.startChannelScan id do
    waitForIrq turns
    getChannelScanResult

end SX126x
end Meshcore
