import Meshcore.Chip

/-! The command decoder and the two ways of clocking it, as the source computes
them: every access to an array is checked, so a fault is `none`. -/
namespace Meshcore

open Checked Flags

/-- The constants of the decoder; anything else is acknowledged and ignored. -/
inductive Opcode where
  | setSleep | setStandby | setTx | setRx | setCad | setRfFrequency | setPacketType
  | getPacketType | setTxParams | setModulationParams | setPacketParams | setCadParams
  | calibrate | setBufferBase | writeBuffer | readBuffer | writeRegister | readRegister
  | setDioIrqParams | getIrqStatus | clearIrqStatus | getRxBufferStatus | getPacketStatus
  | getStatus | getDeviceErrors | clearDeviceErrors | getRssiInst
  deriving DecidableEq, Repr

def Opcode.byte : Opcode → UInt8
  | .setSleep => 0x84
  | .setStandby => 0x80
  | .setTx => 0x83
  | .setRx => 0x82
  | .setCad => 0xC5
  | .setRfFrequency => 0x86
  | .setPacketType => 0x8A
  | .getPacketType => 0x11
  | .setTxParams => 0x8E
  | .setModulationParams => 0x8B
  | .setPacketParams => 0x8C
  | .setCadParams => 0x88
  | .calibrate => 0x89
  | .setBufferBase => 0x8F
  | .writeBuffer => 0x0E
  | .readBuffer => 0x1E
  | .writeRegister => 0x0D
  | .readRegister => 0x1D
  | .setDioIrqParams => 0x08
  | .getIrqStatus => 0x12
  | .clearIrqStatus => 0x02
  | .getRxBufferStatus => 0x13
  | .getPacketStatus => 0x14
  | .getStatus => 0xC0
  | .getDeviceErrors => 0x17
  | .clearDeviceErrors => 0x07
  | .getRssiInst => 0x15

def Opcode.all : List Opcode :=
  [.setSleep,.setStandby,.setTx,.setRx,.setCad,.setRfFrequency,.setPacketType,.getPacketType,
   .setTxParams,.setModulationParams,.setPacketParams,.setCadParams,.calibrate,.setBufferBase,
   .writeBuffer,.readBuffer,.writeRegister,.readRegister,.setDioIrqParams,.getIrqStatus,
   .clearIrqStatus,.getRxBufferStatus,.getPacketStatus,.getStatus,.getDeviceErrors,
   .clearDeviceErrors,.getRssiInst]

def opcode? (op : UInt8) : Option Opcode := Opcode.all.find? fun o => o.byte == op

@[simp] theorem opcode?_byte (o : Opcode) : opcode? o.byte = some o := by cases o <;> rfl

/-- `((uint16_t)hi << 8) | lo` -/
def be16 (hi lo : UInt8) : BitVec 16 := (hi.toBitVec.setWidth 16 <<< 8) ||| lo.toBitVec.setWidth 16

def be32 (a b c d : UInt8) : UInt32 :=
  (a.toUInt32 <<< 24) ||| (b.toUInt32 <<< 16) ||| (c.toUInt32 <<< 8) ||| d.toUInt32

def hiByte (v : BitVec 16) : UInt8 := ⟨(v >>> 8).setWidth 8⟩
def loByte (v : BitVec 16) : UInt8 := ⟨(v &&& 0xFF).setWidth 8⟩

theorem be16_bytes (v : BitVec 16) : be16 (hiByte v) (loByte v) = v := by
  refine BitVec.eq_of_getLsbD_eq fun i inside => ?_
  have low : ∀ i < 16, (0xFF : BitVec 16).getLsbD i = decide (i < 8) := by decide
  simp only [be16, hiByte, loByte, BitVec.getLsbD_or, BitVec.getLsbD_shiftLeft,
    BitVec.getLsbD_setWidth, BitVec.getLsbD_ushiftRight, BitVec.getLsbD_and, low i inside, inside]
  rcases Nat.lt_or_ge i 8 with below | above
  · simp [below]
  · have byte : i - 8 < 8 ∧ i - 8 < 16 := by omega
    simp [Nat.not_lt.mpr above,byte,Nat.add_sub_cancel' above]

/-- A float converts to an integer by dropping its fraction, and to a byte
through the low bits of that integer. -/
def toByte (x : ℚ) : UInt8 := UInt8.ofInt (x.num.tdiv x.den)

def encodeRssi (rssi : ℚ) : UInt8 := toByte (-rssi * 2)
def encodeSnr (snr : ℚ) : UInt8 := toByte (snr * 4)

namespace Chip

/-- The datasheet's bandwidth index; an unmapped one keeps the current setting. -/
def bandwidth (current : ℚ) : UInt8 → ℚ
  | 0x00 => 781 / 100
  | 0x08 => 1042 / 100
  | 0x01 => 1563 / 100
  | 0x09 => 2083 / 100
  | 0x02 => 3125 / 100
  | 0x0A => 4167 / 100
  | 0x03 => 625 / 10
  | 0x04 => 125
  | 0x05 => 250
  | 0x06 => 500
  | _ => current

def applyModulation (c : Chip) (p0 p1 p2 : UInt8) : Chip :=
  { c with
    sf := p0.toNat
    bwKHz := bandwidth c.bwKHz p1
    cr := if p2 ≠ 0 then 4 + p2.toNat else c.cr }

def applyPacketParams (c : Chip) (p0 p1 p3 : UInt8) : Chip :=
  { c with preambleSyms := (p0.toUInt32 <<< 8) ||| p1.toUInt32, txLenForSend := p3 }

def countIrqRead (c : Chip) : Chip :=
  { c with
    irqReads := c.irqReads + 1
    busyReads := if any c.irq (kIrqPreambleDetected ||| kIrqHeaderValid) then c.busyReads + 1
      else c.busyReads }

/-- `runCommand(out, len, in)`: `out` and `inp` are the `len` bytes its two
pointers may reach, and the result carries what it left in `in`. -/
def runCommand (c : Chip) (out inp : List UInt8) : Option (Chip × List UInt8) := do
  let len := out.length
  let op ← out[0]?
  let inp ← putWhen (len > 1) inp 1 0x22
  match opcode? op with
  | some .setStandby => some ({ c with mode := .standby },inp)
  | some .setSleep => some ({ c with mode := .standby },inp)
  | some .setRx => some (c.startRx,inp)
  | some .setTx => some (← c.startTx,inp)
  | some .setCad => some (c.startCad,inp)
  | some .setRfFrequency =>
    if len ≥ 5 then
      let raw := be32 (← out[1]?) (← out[2]?) (← out[3]?) (← out[4]?)
      -- The product fits a double exactly, and so does the quotient before truncation.
      some ({ c with freqHz := UInt32.ofNat (raw.toNat * 32000000 / 33554432) },inp)
    else some (c,inp)
  | some .setTxParams =>
    if len ≥ 2 then some ({ c with txPowerDbm := (← out[1]?).toInt8 },inp) else some (c,inp)
  | some .calibrate =>
    some ({ c with regs := ← c.regs.set? kRegRxGain kRxGainPowerSaving },inp)
  | some .setModulationParams =>
    if len ≥ 4 then some (c.applyModulation (← out[1]?) (← out[2]?) (← out[3]?),inp)
    else some (c,inp)
  | some .setPacketParams =>
    if len ≥ 7 then some (c.applyPacketParams (← out[1]?) (← out[2]?) (← out[4]?),inp)
    else some (c,inp)
  | some .setBufferBase =>
    if len ≥ 3 then some ({ c with txBase := ← out[1]?, rxBase := ← out[2]? },inp)
    else some (c,inp)
  | some .writeBuffer =>
    if len ≥ 2 then
      let offset ← out[1]?
      some ({ c with buffer := ← c.buffer.copyIn offset.toNat 2 out },inp)
    else some (c,inp)
  | some .readBuffer =>
    if len ≥ 3 then
      let offset ← out[1]?
      some (c,← c.buffer.copyOut offset.toNat 3 0 inp)
    else some (c,inp)
  | some .writeRegister =>
    if len ≥ 3 then
      let addr := be16 (← out[1]?) (← out[2]?)
      some ({ c with regs := ← c.regs.copyIn addr.toNat 3 out },inp)
    else some (c,inp)
  | some .readRegister =>
    if len ≥ 4 then
      let addr := be16 (← out[1]?) (← out[2]?)
      some (c,← c.regs.copyOut addr.toNat 4 0 inp)
    else some (c,inp)
  | some .setDioIrqParams =>
    if len ≥ 9 then some ({ c with irqMask := be16 (← out[1]?) (← out[2]?) },inp)
    else some (c,inp)
  | some .getIrqStatus =>
    let c := c.countIrqRead
    let inp ← putWhen (len ≥ 4) inp 2 (hiByte c.irq)
    let inp ← putWhen (len ≥ 5) inp 3 (loByte c.irq)
    some (c,inp)
  | some .clearIrqStatus =>
    if len ≥ 3 then
      let clear := be16 (← out[1]?) (← out[2]?)
      some ({ c with
        irq := c.irq &&& ~~~clear
        preambleRaised := if any clear kIrqPreambleDetected then false else c.preambleRaised
        headerRaised := if any clear kIrqHeaderValid then false else c.headerRaised },inp)
    else some (c,inp)
  | some .getRxBufferStatus =>
    let inp ← putWhen (len ≥ 4) inp 2 c.rxLen
    let inp ← putWhen (len ≥ 5) inp 3 c.rxBase
    some (c,inp)
  | some .getPacketStatus =>
    let inp ← putWhen (len ≥ 3) inp 2 (encodeRssi c.rssi)
    let inp ← putWhen (len ≥ 4) inp 3 (encodeSnr c.snr)
    let inp ← putWhen (len ≥ 5) inp 4 (encodeRssi c.rssi)
    some (c,inp)
  | some .getRssiInst =>
    some (c,← putWhen (len ≥ 3) inp 2 (encodeRssi c.rssi))
  | some .getPacketType =>
    some (c,← putWhen (len ≥ 3) inp 2 0x01)
  | some .getStatus | some .getDeviceErrors | some .clearDeviceErrors => some (c,inp)
  | some .setPacketType | some .setCadParams | none => some (c,inp)

/-- `memset(in, 0, len)` and one command; an empty transfer is not a command. -/
def spiTransfer (c : Chip) (out : List UInt8) : Option (Chip × List UInt8) :=
  if out.length = 0 then some (c,[]) else c.runCommand out (List.replicate out.length 0)

end Chip

/-- Commands that answer with data rather than just a status byte. -/
def returnsData (op : UInt8) : Bool :=
  match opcode? op with
  | some .readBuffer | some .readRegister | some .getIrqStatus | some .getRxBufferStatus
  | some .getPacketStatus | some .getStatus | some .getDeviceErrors | some .getPacketType => true
  | _ => false

namespace Chip

def beginTransaction (c : Chip) : Chip := { c with txn := [], inTxn := true }

def pushByte (c : Chip) (out : UInt8) : Chip :=
  let c := if c.inTxn then c else c.beginTransaction
  { c with txn := c.txn ++ [out] }

/-- One byte on the streaming path. A command that answers is evaluated on every
byte, against the bytes so far padded to at least sixteen. -/
def transferByte (c : Chip) (out : UInt8) : Option (Chip × UInt8) := do
  let c := c.pushByte out
  let i := c.txn.length - 1
  if returnsData (← c.txn[0]?) then
    let scratch : Block 260 UInt8 := fun _ => 0
    let padded : Block 260 UInt8 := fun _ => 0
    let given := if c.txn.length < 260 then c.txn.length else 260
    let padded ← padded.memcpy? 0 c.txn given
    let n := if given > 16 then given else 16
    let (c,answer) ← c.runCommand (← padded.slice? 0 n) (← scratch.slice? 0 n)
    let scratch ← scratch.memcpy? 0 answer n
    some (c,← scratch.getOr 0 i)
  else some (c,if i = 1 then 0x22 else 0x00)

def endTransaction (c : Chip) : Option Chip := do
  let c := { c with inTxn := false }
  if c.txn = [] then some c
  else if returnsData (← c.txn[0]?) then some { c with txn := [] }
  else
    let scratch : Block 260 UInt8 := fun _ => 0
    let n := if c.txn.length < 260 then c.txn.length else 260
    let (c,_) ← c.runCommand (c.txn.take n) (← scratch.slice? 0 n)
    some { c with txn := [] }

end Chip
end Meshcore
