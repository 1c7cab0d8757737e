import Meshcore.Radio

/-! The bridge of an emulated node: one message at a time from the emulator or from
the engine, each handled whole before the next. -/
namespace Meshcore

open Checked Runs

variable {stuckIrqMs : UInt32}

/-- The first thirty-six bytes of the statistics both bridges report. -/
def statsPrefix (c : Chip) : List UInt8 :=
  let put32 (v : UInt32) : List UInt8 :=
    [(v >>> 24).toUInt8,(v >>> 16).toUInt8,(v >>> 8).toUInt8,v.toUInt8]
  let put16 (v : BitVec 16) : List UInt8 := [hiByte v,loByte v]
  let hertz := c.bwKHz * 1000 + 1 / 2
  put32 c.irqReads ++ put32 c.busyReads ++ put32 c.busyMs ++ put32 c.spuriousRaises ++
    [c.regs ⟨kRegRxGain,by decide⟩,c.txPowerDbm.toUInt8,if c.femEnabled then 1 else 0,
     c.mode.toByte,UInt8.ofNat c.sf,UInt8.ofNat c.cr] ++
    put32 c.freqHz ++ put32 (UInt32.ofInt (hertz.num.tdiv hertz.den)) ++
    put16 (c.preambleSyms.toBitVec.setWidth 16) ++ put16 c.irqMask ++ put16 c.irq

theorem statsPrefix_length (c : Chip) : (statsPrefix c).length = 36 := rfl

/-- The four bytes of a tick, as the time they carry. -/
def tickTarget (payload : { p : List UInt8 // p.length = 4 }) : UInt32 :=
  match payload with
  | ⟨[a,b,c,d],_⟩ => be32 a b c d

/-- What the emulator sends; `unknown` is any other tag. -/
inductive QemuMsg where
  | csAssert
  | csRelease
  | xfer (out : UInt8)
  | readBusy
  | readIrq
  | setFem (level : UInt8)
  | unknown (tag : UInt8)
  deriving DecidableEq, Repr

/-- The access to the chip it asks for, if it asks for one. -/
def QemuMsg.op? : QemuMsg → Option ChipOp
  | .csAssert => some .csAssert
  | .csRelease => some .csRelease
  | .xfer out => some (.xfer out)
  | .setFem level => some (.setFem (decide (level ≠ 0)))
  | .readIrq | .readBusy | .unknown _ => none

theorem QemuMsg.op?_pins {m : QemuMsg} (asked : m.op? = some op) :
    op ≠ .txDone ∧ ∀ t, op ≠ .tick t := by
  cases m <;> cases asked <;> simp

structure RadioServer (stuckIrqMs : UInt32) where
  radio : Radio stuckIrqMs
  gSimMillis : UInt32 := 0
  toQemu : List UInt8 := []
  transactions : UInt64 := 0
  bytes : UInt64 := 0
  running : Bool := true

namespace RadioServer

def init (stuckIrqMs : UInt32) : RadioServer stuckIrqMs := { radio := .init stuckIrqMs }

def chip (s : RadioServer stuckIrqMs) : Chip := s.radio.chip.state

def reply (s : RadioServer stuckIrqMs) (b : UInt8) : RadioServer stuckIrqMs :=
  { s with toQemu := s.toQemu ++ [b] }

/-- Three states, because a node that has not transmitted has not done so with the module out. -/
def femByte (c : Chip) : UInt8 := if ¬c.hasTransmitted then 0 else if c.femAtTx then 2 else 1

def writeRadioStats (s : RadioServer stuckIrqMs) : RadioServer stuckIrqMs :=
  let sb := ⟨statsPrefix s.chip ++ [femByte s.chip],by simp [statsPrefix_length]⟩
  { s with radio := s.radio.send (.radioStats sb) rfl }

def drainTx (s : RadioServer stuckIrqMs) : RadioServer stuckIrqMs :=
  { s with radio := s.radio.drainTx }

/-- One message from the emulator. -/
def serviceQemu (s : RadioServer stuckIrqMs) : QemuMsg → Option (RadioServer stuckIrqMs)
  | .csAssert => do some { s with radio := ← s.radio.perform .csAssert nofun }
  | .csRelease => do
    some { s with radio := ← s.radio.perform .csRelease nofun, transactions := s.transactions + 1 }
  | .xfer out => do
    let (_,inp) ← s.chip.transferByte out
    let s := { s with radio := ← s.radio.perform (.xfer out) nofun, bytes := s.bytes + 1 }
    some (s.reply inp)
  | .readIrq => some (s.reply (if s.chip.irqAsserted then 1 else 0))
  | .setFem level => do
    some { s with radio := ← s.radio.perform (.setFem (decide (level ≠ 0))) nofun }
  | .readBusy => some (s.reply 0)
  | .unknown _ => some { s with running := false }

/-- Such a message makes its access, and the clock of the engine stands still. -/
theorem serviceQemu_cases {s s' : RadioServer stuckIrqMs} (serviced : s.serviceQemu m = some s') :
    s'.gSimMillis = s.gSimMillis ∧ ((m.op? = none ∧ s'.radio = s.radio) ∨
      ∃ op other, m.op? = some op ∧ s.radio.perform op other = some s'.radio) := by
  cases m with
  | csAssert | csRelease | setFem level =>
    simp only [serviceQemu, Option.bind_eq_bind, Option.bind_eq_some_iff, Option.some.injEq] at serviced
    obtain ⟨_,performed,rfl⟩ := serviced
    exact ⟨rfl,.inr ⟨_,_,rfl,performed⟩⟩
  | xfer out =>
    simp only [serviceQemu, Option.bind_eq_bind, Option.bind_eq_some_iff, Option.some.injEq] at serviced
    obtain ⟨_,_,_,performed,rfl⟩ := serviced
    exact ⟨rfl,.inr ⟨_,_,rfl,performed⟩⟩
  | readIrq | readBusy | unknown _ => exact Option.some.inj serviced ▸ ⟨rfl,.inl ⟨rfl,rfl⟩⟩

/-- `gSimMillis++; gChip.tick(gSimMillis); drainTx(fd);` -/
def tickOnce (s : RadioServer stuckIrqMs) : Option (RadioServer stuckIrqMs) := do
  let gSimMillis := s.gSimMillis + 1
  let s := { s with gSimMillis, radio := ← s.radio.tick gSimMillis.toUInt64 }
  some s.drainTx

/-- `while (gSimMillis < at)`, a millisecond at a time. -/
def tickTo (s : RadioServer stuckIrqMs) (atMs : UInt32) : Option (RadioServer stuckIrqMs) :=
  whileLoop (fun s => decide (s.gSimMillis < atMs)) tickOnce (atMs.toNat - s.gSimMillis.toNat) s

theorem tickOnce_ticks {s s' : RadioServer stuckIrqMs} (ticked : s.tickOnce = some s') : ∃ radio,
    s.radio.tick (s.gSimMillis + 1).toUInt64 = some radio ∧
      s' = drainTx { s with gSimMillis := s.gSimMillis + 1, radio } := by
  simp only [tickOnce, Option.bind_eq_bind, Option.bind_eq_some_iff, Option.some.injEq] at ticked
  obtain ⟨radio,performed,rfl⟩ := ticked
  exact ⟨radio,performed,rfl⟩

theorem tickOnce_clock {s s' : RadioServer stuckIrqMs} (ticked : s.tickOnce = some s') :
    s'.gSimMillis = s.gSimMillis + 1 := by
  obtain ⟨_,_,rfl⟩ := tickOnce_ticks ticked
  rfl

/-- The loop takes one turn for each millisecond that is missing. -/
theorem tickTo_eq (s : RadioServer stuckIrqMs) (atMs : UInt32) :
    s.tickTo atMs = repeated tickOnce (atMs.toNat - s.gSimMillis.toNat) s :=
  whileLoop_repeats gSimMillis atMs (fun _ _ => tickOnce_clock) s

theorem tickTo_clock {s s' : RadioServer stuckIrqMs} (ticked : s.tickTo atMs = some s') :
    s'.gSimMillis.toNat = max s.gSimMillis.toNat atMs.toNat :=
  whileLoop_counts gSimMillis atMs (fun _ _ => tickOnce_clock) ticked

def handleTick (s : RadioServer stuckIrqMs) (payload : { p : List UInt8 // p.length = 4 }) :
    Option (RadioServer stuckIrqMs) := do
  let s ← s.tickTo (tickTarget payload)
  let s := { s with radio := ← s.radio.tick s.gSimMillis.toUInt64 }
  let s := s.drainTx.writeRadioStats
  some { s with radio := s.radio.ack payload }

/-- After the loop the chip is ticked at the clock once more, and the engine answered. -/
theorem handleTick_ticks {s s' : RadioServer stuckIrqMs} (handled : s.handleTick payload = some s') :
    ∃ caught radio, s.tickTo (tickTarget payload) = some caught ∧
      caught.radio.tick caught.gSimMillis.toUInt64 = some radio ∧
      s' = { caught with
        radio := (drainTx { caught with radio }).writeRadioStats.radio.ack payload } := by
  simp only [handleTick, Option.bind_eq_bind, Option.bind_eq_some_iff, Option.some.injEq] at handled
  obtain ⟨caught,ticked,radio,last,rfl⟩ := handled
  exact ⟨caught,radio,ticked,last,rfl⟩

/-- A tick that has been acknowledged has left nothing pending. -/
theorem handleTick_drained {s s' : RadioServer stuckIrqMs} (handled : s.handleTick payload = some s') :
    s'.chip.hasPendingTx = false := by
  obtain ⟨_,radio,_,_,rfl⟩ := handleTick_ticks handled
  exact radio.drainTx_empties

/-- One message from the engine. -/
def serviceBridge (s : RadioServer stuckIrqMs) (m : Msg) : Option (RadioServer stuckIrqMs) :=
  if m.kind = kFrame then do some { s with radio := ← s.radio.pushFrame m.payload }
  else if m.kind = kTxDone then do some { s with radio := ← s.radio.transmitFinished }
  else if m.kind = kChannelBusy then
    match m.payload with
    | [] => some s
    | b :: _ => do some { s with radio := ← s.radio.setChannelBusy (decide (b ≠ 0)) }
  else if m.kind = kTick then
    if four : m.payload.length = 4 then s.handleTick ⟨m.payload,four⟩ else some s
  -- Console input belongs to the emulator's serial port; any other kind is skipped.
  else some s

/-- Such a message makes an access that is no tick, or is a tick, or changes nothing. -/
theorem serviceBridge_cases {s s' : RadioServer stuckIrqMs} (serviced : s.serviceBridge m = some s') :
    (∃ op other, (∀ t, op ≠ .tick t) ∧ s.radio.perform op other = some s'.radio) ∨
      (∃ payload, s.handleTick payload = some s') ∨ s' = s := by
  simp only [serviceBridge, Option.bind_eq_bind] at serviced
  split at serviced
  case isTrue =>
    obtain ⟨_,queued,same⟩ := Option.bind_eq_some_iff.mp serviced
    exact Option.some.inj same ▸ .inl ⟨_,_,by simp,queued⟩
  split at serviced
  case isTrue =>
    obtain ⟨_,ended,same⟩ := Option.bind_eq_some_iff.mp serviced
    exact Option.some.inj same ▸ .inl ⟨_,_,by simp,ended⟩
  split at serviced
  case isTrue =>
    split at serviced
    · exact .inr (.inr (Option.some.inj serviced).symm)
    · obtain ⟨_,told,same⟩ := Option.bind_eq_some_iff.mp serviced
      exact Option.some.inj same ▸ .inl ⟨_,_,by simp,told⟩
  split at serviced
  case isTrue =>
    split at serviced
    · exact .inr (.inl ⟨_,serviced⟩)
    · exact .inr (.inr (Option.some.inj serviced).symm)
  case isFalse => exact .inr (.inr (Option.some.inj serviced).symm)

inductive Event where
  | qemu (m : QemuMsg)
  | bridge (m : Msg)

/-- A turn of the poll loop; once a handler has said stop nothing is handled. -/
def step (s : RadioServer stuckIrqMs) : Event → Option (RadioServer stuckIrqMs)
  | .qemu m => if s.running then s.serviceQemu m else some s
  | .bridge m => if s.running then s.serviceBridge m else some s

end RadioServer
end Meshcore
