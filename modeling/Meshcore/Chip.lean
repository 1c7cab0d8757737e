import Meshcore.Library.Checked
import Meshcore.Library.Flags
import Mathlib.Data.Rat.Floor

/-! The state of the virtual SX1262 and the simulator's side of it: time passing,
the air turning busy or quiet, frames arriving and waveforms ending. Milliseconds
are exact rationals where the source has doubles, and the chip's floats are the
decimals the source writes. -/
namespace Meshcore

open Checked Flags

/-- `mode_`; 0, 1, 2 and 3 on the wire. -/
inductive Mode where
  | standby
  | rx
  | tx
  | cad
  deriving DecidableEq, Repr

def Mode.toByte : Mode → UInt8
  | .standby => 0
  | .rx => 1
  | .tx => 2
  | .cad => 3

def Mode.ofByte? : UInt8 → Option Mode
  | 0 => some .standby
  | 1 => some .rx
  | 2 => some .tx
  | 3 => some .cad
  | _ => none

theorem Mode.ofByte?_toByte (m : Mode) : Mode.ofByte? m.toByte = some m := by
  cases m <;> rfl

def kIrqTxDone : BitVec 16 := 1 <<< 0
def kIrqRxDone : BitVec 16 := 1 <<< 1
def kIrqPreambleDetected : BitVec 16 := 1 <<< 2
def kIrqSyncWordValid : BitVec 16 := 1 <<< 3
def kIrqHeaderValid : BitVec 16 := 1 <<< 4
def kIrqCadDone : BitVec 16 := 1 <<< 7
def kIrqCadDetected : BitVec 16 := 1 <<< 8

def kPreambleSymbols : ℚ := 4
def kHeaderSymbols : ℚ := 12

def kRegRxGain : Nat := 0x08AC
def kRxGainPowerSaving : UInt8 := 0x94

-- "SX1261", which is how the part reports its family.
def kVersion : List UInt8 := [0x53,0x58,0x31,0x32,0x36,0x31]

structure Chip where
  hasPendingTx : Bool := false
  pendingTx : List UInt8 := []
  inbox : List (List UInt8) := []
  buffer : Block 256 UInt8 := fun _ => 0
  rxLen : UInt8 := 0
  irq : BitVec 16 := 0
  irqMask : BitVec 16 := 0
  mode : Mode := .standby
  txBase : UInt8 := 0
  rxBase : UInt8 := 0
  txLenForSend : UInt8 := 0
  regs : Block 0x1000 UInt8 := fun _ => 0
  sf : Nat := 10
  bwKHz : ℚ := 250
  cr : Nat := 5
  preambleSyms : UInt32 := 16
  freqHz : UInt32 := 869525000
  txPowerDbm : Int8 := -128
  femEnabled : Bool := false
  femAtTx : Bool := false
  hasTransmitted : Bool := false
  channelBusy : Bool := false
  busySinceMs : UInt64 := 0
  txn : List UInt8 := []
  inTxn : Bool := false
  preambleRaised : Bool := false
  headerRaised : Bool := false
  rssi : ℚ := -100
  snr : ℚ := 0
  nowMs : UInt64 := 0
  irqReads : UInt32 := 0
  busyReads : UInt32 := 0
  busyMs : UInt32 := 0
  preambleRaises : UInt32 := 0
  lastBusyTickMs : UInt64 := 0
  stuckIrqMs : UInt32 := 0
  nextSpuriousMs : UInt64 := 0
  spuriousRaises : UInt32 := 0

theorem one_shiftLeft (n : Nat) : ((1 : UInt32) <<< UInt32.ofNat n).toNat = 2 ^ (n % 32) := by
  have count : (UInt32.ofNat n).toNat % 32 = n % 32 := by
    rw [UInt32.toNat_ofNat']
    omega
  have small : 2 ^ (n % 32) < 2 ^ 32 :=
    Nat.pow_lt_pow_right (by decide) (Nat.mod_lt _ (by decide))
  rw [UInt32.toNat_shiftLeft, count, Nat.shiftLeft_eq, UInt32.toNat_one, Nat.one_mul,
    Nat.mod_eq_of_lt small]

namespace Chip

/-- The constructor, with the fault period the build or the command line sets. -/
def new (stuckIrqMs : UInt32) : Chip where
  regs := (Block.overlay (fun _ => 0) 0x0320 kVersion).overlay kRegRxGain [kRxGainPowerSaving]
  stuckIrqMs := stuckIrqMs

/-- `1u << sf_` shifts in 32 bits, with the count taken modulo 32 as the targets do. -/
def symbolMs (c : Chip) : ℚ :=
  (((1 : UInt32) <<< UInt32.ofNat c.sf).toNat : ℚ) / (if c.bwKHz > 0 then c.bwKHz else 250)

def irqAsserted (c : Chip) : Bool := any c.irq c.irqMask

def setFemEnabled (c : Chip) (on : Bool) : Chip := { c with femEnabled := on }

def setChannelBusy (c : Chip) (busy : Bool) : Chip :=
  { c with
    busySinceMs := if busy ∧ ¬c.channelBusy then c.nowMs else c.busySinceMs
    -- The flags stay set until the firmware clears them; only the latches reset.
    preambleRaised := if busy then c.preambleRaised else false
    headerRaised := if busy then c.headerRaised else false
    channelBusy := busy }

def transmitFinished (c : Chip) : Chip :=
  if c.mode = .tx then { c with irq := c.irq ||| kIrqTxDone, mode := .standby } else c

def deliverPending (c : Chip) : Option Chip :=
  match c.inbox with
  | [] => some c
  | f :: rest => do
    let rxLen := UInt8.ofNat (if f.length > 255 then 255 else f.length)
    let buffer ← c.buffer.memcpy? c.rxBase.toNat f rxLen.toNat
    some { c with
      rxLen, buffer, inbox := rest
      irq := c.irq ||| kIrqRxDone |||
        (kIrqPreambleDetected ||| kIrqHeaderValid ||| kIrqSyncWordValid) }

def startRx (c : Chip) : Chip := { c with mode := .rx }

def startTx (c : Chip) : Option Chip := do
  let pendingTx ← c.buffer.slice? c.txBase.toNat c.txLenForSend.toNat
  some { c with
    mode := .tx, femAtTx := c.femEnabled, hasTransmitted := true, pendingTx, hasPendingTx := true }

-- CAD answers in one go, so the mode is back in standby before anyone can look.
def startCad (c : Chip) : Chip :=
  { c with
    irq := if c.channelBusy then c.irq ||| kIrqCadDone ||| kIrqCadDetected
      else c.irq ||| kIrqCadDone
    mode := .standby }

/-! `tick` in the source's order: the clock and the time with the busy flags up,
the injected fault, the delivery of one frame, and the detector. -/

def accrueBusy (c : Chip) (nowMs : UInt64) : Chip :=
  let busyMs :=
    if any c.irq (kIrqPreambleDetected ||| kIrqHeaderValid) ∧ nowMs > c.lastBusyTickMs then
      c.busyMs + (nowMs - c.lastBusyTickMs).toUInt32
    else c.busyMs
  { c with busyMs, lastBusyTickMs := nowMs, nowMs }

def injectFault (c : Chip) : Chip :=
  if c.stuckIrqMs > 0 ∧ c.mode = .rx ∧ c.nowMs ≥ c.nextSpuriousMs then
    { c with
      irq := c.irq ||| kIrqPreambleDetected
      spuriousRaises := c.spuriousRaises + 1
      nextSpuriousMs := c.nowMs + c.stuckIrqMs.toUInt64 }
  else c

def sinceMs (c : Chip) : ℚ := ((c.nowMs - c.busySinceMs).toNat : ℚ)

def detectPreamble (c : Chip) : Chip :=
  if ¬c.preambleRaised ∧ c.sinceMs ≥ kPreambleSymbols * c.symbolMs then
    { c with
      irq := c.irq ||| kIrqPreambleDetected
      preambleRaised := true
      preambleRaises := c.preambleRaises + 1 }
  else c

def detectHeader (c : Chip) : Chip :=
  if ¬c.headerRaised ∧ c.sinceMs ≥ kHeaderSymbols * c.symbolMs then
    { c with irq := c.irq ||| (kIrqHeaderValid ||| kIrqSyncWordValid), headerRaised := true }
  else c

def detect (c : Chip) : Chip := if c.channelBusy then c.detectPreamble.detectHeader else c

def tick (c : Chip) (nowMs : UInt64) : Option Chip := do
  let c := (c.accrueBusy nowMs).injectFault
  let c ← if c.mode = .rx then c.deliverPending else some c
  -- Half duplex: a node hears nothing while its own transmitter is keyed.
  if c.mode ≠ .rx then some c else some c.detect

end Chip
end Meshcore
