import Meshcore.Driver

/-! How the driver finds the chip, brings it up and sets its radio. The source's floats
are exact rationals here, as they are elsewhere. -/
namespace Meshcore

open Checked Flags Programs Program

variable {κ : Type}

def RADIOLIB_ERR_INVALID_BANDWIDTH : Int16 := -8
def RADIOLIB_ERR_INVALID_SPREADING_FACTOR : Int16 := -9
def RADIOLIB_ERR_INVALID_CODING_RATE : Int16 := -10
def RADIOLIB_ERR_INVALID_FREQUENCY : Int16 := -12
def RADIOLIB_ERR_INVALID_OUTPUT_POWER : Int16 := -13
def RADIOLIB_ERR_INVALID_CURRENT_LIMIT : Int16 := -17
def RADIOLIB_ERR_INVALID_TCXO_VOLTAGE : Int16 := -703

def RADIOLIB_SX126X_XOSC_START_ERR : BitVec 16 := 0b000100000

/-- `"SX1261"` -/
def RADIOLIB_SX1262_CHIP_TYPE : List UInt8 := [0x53,0x58,0x31,0x32,0x36,0x31]

namespace SX126x

/-- `state = p; RADIOLIB_ASSERT(state);` where `p` may change what the driver keeps. -/
def assertSet (p : Hal κ (Int16 × SX126x)) (rest : SX126x → Hal κ (Int16 × SX126x)) :
    Hal κ (Int16 × SX126x) := do
  let (state,s) ← p
  if state ≠ RADIOLIB_ERR_NONE then return (state,s)
  rest s

/-- The hardware has no reset pin; a try waits ten milliseconds, which bounds them. -/
def reset (s : SX126x) (verify : Bool) : Hal κ Int16 := do
  Hal.delay 1
  if verify = false then return RADIOLIB_ERR_NONE
  let start ← Hal.millis
  loop (do
    let state ← s.standby
    if state = RADIOLIB_ERR_NONE then return some RADIOLIB_ERR_NONE
    if (← Hal.millis) - start ≥ 1000 then return some state
    Hal.delay 10
    return none) 102

/-- Six characters are compared, and `verStr` has as many. -/
def findChip (s : SX126x) (verStr : List UInt8) : Nat → Hal κ Bool
  | 0 => pure false
  | tries + 1 => do
    let _ ← s.reset true
    let version ← SPIreadRegisterBurst 0x0320 16
    if version.take 6 = verStr then return true
    Hal.delay 10
    s.findChip verStr tries

def getDeviceErrors : Hal κ (BitVec 16) := do
  let (_,data) ← SPIreadStream [Opcode.getDeviceErrors.byte] [0x00,0x00]
  return be16 (arg data 0) (arg data 1)

def clearDeviceErrors : Hal κ Int16 :=
  SPIwriteStream [Opcode.clearDeviceErrors.byte] [0x00,0x00] true

/-- `RADIOLIB_SX126X_DIO3_OUTPUT_` for a voltage that has one. -/
def tcxoOutput (voltage : ℚ) : Option UInt8 :=
  [((16 : ℚ) / 10,(0x00 : UInt8)),(17 / 10,0x01),(18 / 10,0x02),(22 / 10,0x03),(24 / 10,0x04),
    (27 / 10,0x05),(30 / 10,0x06),(33 / 10,0x07)].findSome? fun (allowed,output) =>
      if |voltage - allowed| ≤ 1 / 1000 then some output else none

def setTCXO (s : SX126x) (voltage : ℚ) (delay : UInt32) : Hal κ (Int16 × SX126x) := do
  if s.XTAL then return (RADIOLIB_ERR_INVALID_TCXO_VOLTAGE,s)
  let _ ← s.standby
  let errors ← getDeviceErrors
  let _ ← if any errors RADIOLIB_SX126X_XOSC_START_ERR then clearDeviceErrors
    else pure RADIOLIB_ERR_NONE
  if |voltage| ≤ 1 / 1000 then
    let state ← s.reset true
    return (state,s)
  match tcxoOutput voltage with
  | none => return (RADIOLIB_ERR_INVALID_TCXO_VOLTAGE,s)
  | some output =>
    -- The delay counts steps of 15.625 microseconds.
    let delayValue := UInt32.ofNat (delay.toNat * 1000 / 15625)
    let state ← SPIwriteStream [0x97] (output :: timeoutBytes delayValue) true
    return (state,{ s with tcxoDelay := delay })

def config (s : SX126x) (modem : UInt8) : Hal κ Int16 :=
  RADIOLIB_ASSERT setBufferBaseAddress id <|
  RADIOLIB_ASSERT (SPIwriteStream [Opcode.setPacketType.byte] [modem] true) id <|
  RADIOLIB_ASSERT (SPIwriteStream [0x93] [if s.standbyXOSC then 0x30 else 0x20] true) id <|
  RADIOLIB_ASSERT (SPIwriteStream [Opcode.setCadParams.byte]
    [0x03,s.spreadingFactor + 13,10,0x00,0x00,0x00,0x00] true) id <|
  RADIOLIB_ASSERT (do
    let state ← clearIrqStatus
    let state' ← setDioIrqParams 0 0
    return state ||| state') id <|
  RADIOLIB_ASSERT (SPIwriteStream [Opcode.calibrate.byte] [0b01111111] true) id do
    Hal.delay 5
    waitForRampUp
    SPIcheckStream

def setRegulatorMode (mode : UInt8) : Hal κ Int16 := SPIwriteStream [0x96] [mode] true

/-- Where the crystal does not start, its oscillator was the wrong one to choose. -/
def configAgain (s : SX126x) (state : Int16) (modem : UInt8) : Hal κ (Int16 × SX126x) := do
  if state = RADIOLIB_ERR_NONE then return (state,s)
  let _ ← s.standby
  let errors ← getDeviceErrors
  if state = RADIOLIB_ERR_SPI_CMD_FAILED ∧ any errors RADIOLIB_SX126X_XOSC_START_ERR then
    assertSet (setTCXO { s with XTAL := false } 0 5000) fun s => do
      let state ← s.config modem
      return (state,s)
  else return (state,s)

def modSetup (s : SX126x) (tcxoVoltage : ℚ) (useRegulatorLDO : Bool) (modem : UInt8) :
    Hal κ (Int16 × SX126x) := do
  if (← s.findChip RADIOLIB_SX1262_CHIP_TYPE 10) = false then
    return (RADIOLIB_ERR_CHIP_NOT_FOUND,s)
  assertSet (if s.XTAL = false ∧ 0 < tcxoVoltage then s.setTCXO tcxoVoltage 5000
    else pure (RADIOLIB_ERR_NONE,s)) fun s =>
  assertSet (do
    let state ← s.config modem
    s.configAgain state modem) fun s => do
  let state ← setRegulatorMode (if useRegulatorLDO then 0x00 else 0x01)
  return (state,s)

/-- A symbol of sixteen milliseconds is long enough to ask for the optimisation. -/
def setModulationParams (s : SX126x) (sf bw cr ldro : UInt8) : Hal κ (Int16 × SX126x) := do
  let symbol := ((1 : UInt32) <<< s.spreadingFactor.toUInt32).toNat
  let ldrOptimize : UInt8 :=
    if s.ldroAuto then if 16 * s.bandwidthKhz ≤ symbol then 0x01 else 0x00 else ldro
  let state ← SPIwriteStream [Opcode.setModulationParams.byte] [sf,bw,cr,ldrOptimize] true
  return (state,{ s with ldrOptimize })

/-- With the settings that are kept, as every setter does it. -/
def updateModulation (s : SX126x) : Hal κ (Int16 × SX126x) :=
  s.setModulationParams s.spreadingFactor s.bandwidth s.codingRate s.ldrOptimize

def codingRate? (cr : UInt8) (longInterleave : Bool) : Option UInt8 :=
  if ¬(4 ≤ cr ∧ cr ≤ 8) then none
  else if longInterleave = false then some (cr - 4)
  else if cr = 4 then some 0
  else if cr = 5 ∨ cr = 6 then some cr
  else if cr = 8 then some (cr - 1)
  else none

/-- A setting of the LoRa modem, refused where `value` is none that it can have. -/
def setLoRa (s : SX126x) (value : Option α) (refused : Int16) (keep : α → SX126x) :
    Hal κ (Int16 × SX126x) := do
  if (← getPacketType) ≠ RADIOLIB_SX126X_PACKET_TYPE_LORA then return (RADIOLIB_ERR_WRONG_MODEM,s)
  match value with
  | none => return (refused,s)
  | some given => (keep given).updateModulation

def setCodingRate (s : SX126x) (cr : UInt8) (longInterleave : Bool) : Hal κ (Int16 × SX126x) :=
  s.setLoRa (codingRate? cr longInterleave) RADIOLIB_ERR_INVALID_CODING_RATE
    fun codingRate => { s with codingRate }

def setSpreadingFactor (s : SX126x) (sf : UInt8) : Hal κ (Int16 × SX126x) :=
  s.setLoRa (if 5 ≤ sf ∧ sf ≤ 12 then some sf else none) RADIOLIB_ERR_INVALID_SPREADING_FACTOR
    fun spreadingFactor => { s with spreadingFactor }

/-- `RADIOLIB_SX126X_LORA_BW_` by half the kilohertz, rounded down. -/
def bandwidth? (bw : ℚ) : Option UInt8 :=
  if ¬(0 ≤ bw ∧ bw ≤ 510) then none
  else match ⌊bw / 2 + 1 / 100⌋ with
    | 3 => some 0x00
    | 5 => some 0x08
    | 7 => some 0x01
    | 10 => some 0x09
    | 15 => some 0x02
    | 20 => some 0x0A
    | 31 => some 0x03
    | 62 => some 0x04
    | 125 => some 0x05
    | 250 => some 0x06
    | _ => none

def setBandwidth (s : SX126x) (bw : ℚ) : Hal κ (Int16 × SX126x) :=
  s.setLoRa (bandwidth? bw) RADIOLIB_ERR_INVALID_BANDWIDTH
    fun bandwidth => { s with bandwidth, bandwidthKhz := bw }

def setSyncWord (syncWord controlBits : UInt8) : Hal κ Int16 := do
  if (← getPacketType) ≠ RADIOLIB_SX126X_PACKET_TYPE_LORA then return RADIOLIB_ERR_WRONG_MODEM
  let nibble : UInt8 := 4
  let high : UInt8 := (syncWord &&& 0xF0) ||| ((controlBits &&& 0xF0) >>> nibble)
  let low : UInt8 := ((syncWord &&& 0x0F) <<< nibble) ||| (controlBits &&& 0x0F)
  writeRegister 0x0740 [high,low]

/-- With the settings that are kept. -/
def updatePacket (s : SX126x) : Hal κ (Int16 × SX126x) := do
  let state ← setPacketParams s.preambleLengthLoRa s.crcTypeLoRa s.implicitLen.toUInt8 s.headerType
    s.invertIQEnabled
  return (state,s)

def setPreambleLength (s : SX126x) (preambleLength : UInt64) : Hal κ (Int16 × SX126x) := do
  if (← getPacketType) = RADIOLIB_SX126X_PACKET_TYPE_LORA then
    updatePacket { s with preambleLengthLoRa := preambleLength.toBitVec.setWidth 16 }
  -- The other modems of the family are not modelled.
  else .stuck

def setCRC (s : SX126x) (len : UInt8) : Hal κ (Int16 × SX126x) := do
  if (← getPacketType) = RADIOLIB_SX126X_PACKET_TYPE_LORA then
    updatePacket { s with crcTypeLoRa := if len ≠ 0 then 0x01 else 0x00 }
  -- The other modems of the family are not modelled.
  else .stuck

def invertIQ (s : SX126x) (enable : Bool) : Hal κ (Int16 × SX126x) := do
  if (← getPacketType) ≠ RADIOLIB_SX126X_PACKET_TYPE_LORA then return (RADIOLIB_ERR_WRONG_MODEM,s)
  updatePacket { s with invertIQEnabled := if enable then RADIOLIB_SX126X_LORA_IQ_INVERTED else 0x00 }

def forceLDRO (s : SX126x) (enable : Bool) : Hal κ (Int16 × SX126x) := do
  if (← getPacketType) ≠ RADIOLIB_SX126X_PACKET_TYPE_LORA then return (RADIOLIB_ERR_WRONG_MODEM,s)
  updateModulation { s with ldroAuto := false, ldrOptimize := if enable then 0x01 else 0x00 }

def autoLDRO (s : SX126x) : Hal κ (Int16 × SX126x) := do
  if (← getPacketType) ≠ RADIOLIB_SX126X_PACKET_TYPE_LORA then return (RADIOLIB_ERR_WRONG_MODEM,s)
  return (RADIOLIB_ERR_NONE,{ s with ldroAuto := true })

def setHeaderType (s : SX126x) (hdrType : UInt8) (len : UInt64) : Hal κ (Int16 × SX126x) := do
  if (← getPacketType) ≠ RADIOLIB_SX126X_PACKET_TYPE_LORA then return (RADIOLIB_ERR_WRONG_MODEM,s)
  RADIOLIB_ASSERT (setPacketParams s.preambleLengthLoRa s.crcTypeLoRa len.toUInt8 hdrType
    s.invertIQEnabled) (·,s) <|
  pure (RADIOLIB_ERR_NONE,{ s with headerType := hdrType, implicitLen := len })

/-- To be kept through a sleep, the register is named in the retention memory. -/
def setRxBoostedGainMode (rxbgm persist : Bool) : Hal κ Int16 :=
  RADIOLIB_ASSERT (writeRegister 0x08AC [if rxbgm then 0x96 else 0x94]) id <|
  if persist then writeRegister 0x029F [0x01,0x08,0xAC] else pure RADIOLIB_ERR_NONE

def setCurrentLimit (currentLimit : ℚ) : Hal κ Int16 :=
  if ¬(0 ≤ currentLimit ∧ currentLimit ≤ 140) then pure RADIOLIB_ERR_INVALID_CURRENT_LIMIT
  else writeRegister 0x08E7 [UInt8.ofNat ⌊currentLimit / (5 / 2)⌋.toNat]

def setDio2AsRfSwitch (enable : Bool) : Hal κ Int16 :=
  SPIwriteStream [0x9D] [if enable then 0x01 else 0x00] true

/-- What `begin` overwrites in the driver before it looks for the chip. -/
def defaults (s : SX126x) (preambleLength : BitVec 16) : SX126x :=
  { s with
    bandwidthKhz := 500, spreadingFactor := 9, bandwidth := 0x06, codingRate := 0x03
    ldrOptimize := 0x00, crcTypeLoRa := 0x01, preambleLengthLoRa := preambleLength
    tcxoDelay := 0, headerType := 0x00, implicitLen := 0xFF }

/-- The part that the chips of the family have in common. -/
def begin (s : SX126x) (cr syncWord : UInt8) (preambleLength : BitVec 16) (tcxoVoltage : ℚ)
    (useRegulatorLDO : Bool) : Hal κ (Int16 × SX126x) :=
  assertSet ((s.defaults preambleLength).modSetup tcxoVoltage useRegulatorLDO
    RADIOLIB_SX126X_PACKET_TYPE_LORA) fun s =>
  assertSet (s.setCodingRate cr false) fun s =>
  RADIOLIB_ASSERT (setSyncWord syncWord 0x44) (·,s) <|
  assertSet (s.setPreambleLength ⟨preambleLength.setWidth 64⟩) fun s =>
  RADIOLIB_ASSERT (setCurrentLimit 60) (·,s) <|
  RADIOLIB_ASSERT (setDio2AsRfSwitch true) (·,s) <|
  assertSet (s.setCRC 2) fun s => s.invertIQ false

/-- The bands whose calibration the datasheet tells. -/
def imageBands : List ((ℤ × ℤ) × List UInt8) :=
  [((902,928),[0xE1,0xE9]),((863,870),[0xD7,0xDB]),((779,787),[0xC1,0xC5]),
   ((470,510),[0x75,0x81]),((430,440),[0x6B,0x6F])]

/-- Steps of four megahertz around the frequency, an odd number on either side. -/
def calibrateImageRejection (freqMin freqMax : ℚ) : List UInt8 :=
  let low := UInt8.ofNat ⌊(freqMin - 1) / 4⌋.toNat
  let high := UInt8.ofNat ⌈(freqMax + 1) / 4⌉.toNat
  [if low % 2 ≠ 0 then low else low - 1,if high % 2 ≠ 0 then high else high + 1]

def calibrateImage (freq : ℚ) : Hal κ Int16 :=
  let data := match imageBands.find? fun b => b.1.1 ≤ ⌊freq⌋ ∧ ⌊freq⌋ ≤ b.1.2 with
    | some band => band.2
    | none => calibrateImageRejection (freq - 4) (freq + 4)
  SPIwriteStream [0x98] data true

def setRfFrequency (frf : UInt32) : Hal κ Int16 :=
  SPIwriteStream [Opcode.setRfFrequency.byte]
    [(frf >>> 24).toUInt8,(frf >>> 16).toUInt8,(frf >>> 8).toUInt8,frf.toUInt8] true

def setFrequencyRaw (s : SX126x) (freq : ℚ) : Hal κ (Int16 × SX126x) := do
  let state ← setRfFrequency (UInt32.ofNat ⌊freq * 33554432 / 32⌋.toNat)
  return (state,{ s with freqMHz := freq })

/-- `fixPaClamping(true)` -/
def fixPaClamping : Hal κ Int16 := do
  let (state,clampConfig) ← readRegister 0x08D8 1
  RADIOLIB_ASSERT (pure state) id <|
  writeRegister 0x08D8 [arg clampConfig 0 ||| 0x1E]

def setPaConfig (paDutyCycle deviceSel hpMax paLut : UInt8) : Hal κ Int16 :=
  SPIwriteStream [0x95] [paDutyCycle,hpMax,deviceSel,paLut] true

def setTxParams (s : SX126x) (pwr rampTime : UInt8) : Hal κ (Int16 × SX126x) := do
  let state ← SPIwriteStream [Opcode.setTxParams.byte] [pwr,rampTime] true
  return (state,if state = RADIOLIB_ERR_NONE then { s with pwr } else s)

def setPaRampTime (s : SX126x) (rampTime : UInt8) : Hal κ (Int16 × SX126x) :=
  s.setTxParams s.pwr rampTime

/-- The limit of the current is restored, as the chip changes it with the rest. -/
def setOutputPower (s : SX126x) (power : Int8) (paDutyCycle hpMax deviceSel : UInt8) :
    Hal κ (Int16 × SX126x) := do
  let (state,ocp) ← readRegister 0x08E7 1
  RADIOLIB_ASSERT (pure state) (·,s) <|
  RADIOLIB_ASSERT (setPaConfig paDutyCycle deviceSel hpMax 0x01) (·,s) <|
  assertSet (s.setTxParams power.toUInt8 0x04) fun s => do
    let state ← writeRegister 0x08E7 [arg ocp 0]
    return (state,s)

end SX126x

namespace SX1262

structure paTableEntry_t where
  paDutyCycle : UInt8
  hpMax : UInt8
  paVal : Int8

/-- From -9 to 22 dBm. -/
def paOptTable : List paTableEntry_t :=
  [⟨2,2,-5⟩,⟨2,1,0⟩,⟨1,1,3⟩,⟨1,2,0⟩,⟨1,1,6⟩,⟨1,2,3⟩,⟨2,2,2⟩,⟨4,1,6⟩,⟨1,1,11⟩,⟨2,1,11⟩,⟨1,1,14⟩,
   ⟨2,1,14⟩,⟨1,1,20⟩,⟨1,1,22⟩,⟨2,2,11⟩,⟨3,1,21⟩,⟨1,2,17⟩,⟨4,2,13⟩,⟨1,2,20⟩,⟨1,2,22⟩,⟨2,2,21⟩,
   ⟨3,2,21⟩,⟨1,4,19⟩,⟨1,4,20⟩,⟨3,3,20⟩,⟨2,5,19⟩,⟨1,6,22⟩,⟨2,5,22⟩,⟨3,5,22⟩,⟨3,6,22⟩,⟨4,6,22⟩,
   ⟨4,7,22⟩]

def paEntry (power : Int8) : paTableEntry_t := paOptTable.getD (power.toInt + 9).toNat ⟨4,7,22⟩

/-- The value that the amplifier is set to for a power. -/
def paVal (power : Int8) (optimize : Bool) : Int8 :=
  if optimize then (paEntry power).paVal else power

def setOutputPower (s : SX126x) (power : Int8) (optimize : Bool) : Hal κ (Int16 × SX126x) :=
  if ¬(-9 ≤ power ∧ power ≤ 22) then pure (RADIOLIB_ERR_INVALID_OUTPUT_POWER,s)
  else
    s.setOutputPower (paVal power optimize) (if optimize then (paEntry power).paDutyCycle else 0x04)
      (if optimize then (paEntry power).hpMax else 0x07) 0x00

def setFrequency (s : SX126x) (freq : ℚ) (skipCalibration : Bool) : Hal κ (Int16 × SX126x) :=
  if ¬(150 ≤ freq ∧ freq ≤ 960) then pure (RADIOLIB_ERR_INVALID_FREQUENCY,s)
  else
    RADIOLIB_ASSERT (if skipCalibration = false ∧ 20 ≤ |freq - s.freqMHz| then
      SX126x.calibrateImage freq else pure RADIOLIB_ERR_NONE) (·,s) <|
    s.setFrequencyRaw freq

def begin (s : SX126x) (freq bw : ℚ) (sf cr syncWord : UInt8) (power : Int8)
    (preambleLength : BitVec 16) (tcxoVoltage : ℚ) (useRegulatorLDO : Bool) :
    Hal κ (Int16 × SX126x) :=
  SX126x.assertSet (s.begin cr syncWord preambleLength tcxoVoltage useRegulatorLDO) fun s =>
  SX126x.assertSet (s.setSpreadingFactor sf) fun s =>
  SX126x.assertSet (s.setBandwidth bw) fun s =>
  SX126x.assertSet (setFrequency s freq false) fun s =>
  RADIOLIB_ASSERT SX126x.fixPaClamping (·,s) <|
  setOutputPower s power true

/-- What a driver that has begun can be asked to change. -/
inductive Setting where
  | frequency (freq : ℚ) (skipCalibration : Bool)
  | bandwidth (bw : ℚ)
  | spreadingFactor (sf : UInt8)
  | codingRate (cr : UInt8) (longInterleave : Bool)
  | preambleLength (preambleLength : UInt64)
  | headerType (hdrType : UInt8) (len : UInt64)
  | CRC (len : UInt8)
  | IQ (inverted : Bool)
  | forceLDRO (enable : Bool)
  | autoLDRO
  | rxBoostedGainMode (rxbgm persist : Bool)
  | outputPower (power : Int8) (optimize : Bool)
  | paRampTime (rampTime : UInt8)

def set (s : SX126x) : Setting → Hal κ (Int16 × SX126x)
  | .frequency freq skipCalibration => setFrequency s freq skipCalibration
  | .bandwidth bw => s.setBandwidth bw
  | .spreadingFactor sf => s.setSpreadingFactor sf
  | .codingRate cr longInterleave => s.setCodingRate cr longInterleave
  | .preambleLength preambleLength => s.setPreambleLength preambleLength
  | .headerType hdrType len => s.setHeaderType hdrType len
  | .CRC len => s.setCRC len
  | .IQ inverted => s.invertIQ inverted
  | .forceLDRO enable => s.forceLDRO enable
  | .autoLDRO => s.autoLDRO
  | .rxBoostedGainMode rxbgm persist => (·,s) <$> SX126x.setRxBoostedGainMode rxbgm persist
  | .outputPower power optimize => setOutputPower s power optimize
  | .paRampTime rampTime => s.setPaRampTime rampTime

/-- One after another, whatever becomes of each. -/
def setAll (s : SX126x) : List Setting → Hal κ (List Int16 × SX126x)
  | [] => pure ([],s)
  | setting :: rest => do
    let (state,s) ← set s setting
    let (states,s) ← setAll s rest
    return (state :: states,s)

end SX1262
end Meshcore
