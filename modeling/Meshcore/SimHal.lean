import Meshcore.Radio

/-! The hardware RadioLib runs on: the chip behind it, the node's own clock, and the
interrupt the firmware attached. Every wait and every transfer moves the clock and
ticks the chip before anything else happens. -/
namespace Meshcore

variable {κ : Type} {stuckIrqMs : UInt32}

def GpioLevelLow : UInt32 := 0x0
def GpioLevelHigh : UInt32 := 0x1

def kPinDio1 : UInt32 := 2
def kPinBusy : UInt32 := 4

/-- `κ` names the callbacks the firmware can attach. -/
structure SimHal (κ : Type) (stuckIrqMs : UInt32) where
  radio : Radio stuckIrqMs
  isr : Option κ := none
  inIsr : Bool := false
  localUs : UInt64 := 0

namespace SimHal

def chip (h : SimHal κ stuckIrqMs) : Chip := h.radio.chip.state

def advanceUs (h : SimHal κ stuckIrqMs) (us : UInt64) : Option (SimHal κ stuckIrqMs) := do
  let localUs := h.localUs + us
  some { h with localUs, radio := ← h.radio.tick (localUs / 1000) }

def digitalRead (h : SimHal κ stuckIrqMs) (pin : UInt32) : UInt32 :=
  -- BUSY, the only line RadioLib reads, is never raised.
  if pin = kPinBusy then GpioLevelLow
  else if pin = kPinDio1 then
    if h.chip.irqAsserted then GpioLevelHigh else GpioLevelLow
  else GpioLevelLow

def attachInterrupt (h : SimHal κ stuckIrqMs) (cb : κ) : SimHal κ stuckIrqMs :=
  { h with isr := some cb }

def detachInterrupt (h : SimHal κ stuckIrqMs) : SimHal κ stuckIrqMs := { h with isr := none }

def delay (h : SimHal κ stuckIrqMs) (ms : UInt64) : Option (SimHal κ stuckIrqMs) :=
  h.advanceUs (ms * 1000)

def delayMicroseconds (h : SimHal κ stuckIrqMs) (us : UInt64) : Option (SimHal κ stuckIrqMs) :=
  h.advanceUs us

def yield (h : SimHal κ stuckIrqMs) : Option (SimHal κ stuckIrqMs) := h.advanceUs 50

def millis (h : SimHal κ stuckIrqMs) : UInt64 := h.localUs / 1000

def micros (h : SimHal κ stuckIrqMs) : UInt64 := h.localUs

/-- A command costs time, and its time passes before it is carried out. -/
def spiTransfer (h : SimHal κ stuckIrqMs) (out : List UInt8) :
    Option (SimHal κ stuckIrqMs × List UInt8) := do
  let h ← h.advanceUs (30 + UInt64.ofNat out.length * 2)
  let (_,inp) ← h.chip.spiTransfer out
  some ({ h with radio := ← h.radio.perform (.spiTransfer out) nofun },inp)

/-- The excess of a tick whose work took longer than it was worth carries over. -/
def beginTick (h : SimHal κ stuckIrqMs) (networkMs : UInt32) : Option (SimHal κ stuckIrqMs) := do
  let want := networkMs.toUInt64 * 1000
  let localUs := if want > h.localUs then want else h.localUs
  some { h with localUs, radio := ← h.radio.tick (localUs / 1000) }

/-- What an application can do to its hardware. -/
inductive Uses (h : SimHal κ stuckIrqMs) : SimHal κ stuckIrqMs → Prop where
  | spiTransfer (transferred : h.spiTransfer out = some (h',inp)) : Uses h h'
  | delay (waited : h.delay ms = some h') : Uses h h'
  | delayMicroseconds (waited : h.delayMicroseconds us = some h') : Uses h h'
  | yield (waited : h.yield = some h') : Uses h h'
  | attachInterrupt (cb : κ) : Uses h (h.attachInterrupt cb)
  | detachInterrupt : Uses h h.detachInterrupt

theorem advanceUs_ticks {h h' : SimHal κ stuckIrqMs} (advanced : h.advanceUs us = some h') :
    h'.localUs = h.localUs + us ∧ h.radio.tick (h'.localUs / 1000) = some h'.radio := by
  simp only [advanceUs, Option.bind_eq_bind, Option.bind_eq_some_iff, Option.some.injEq] at advanced
  obtain ⟨_,ticked,rfl⟩ := advanced
  exact ⟨rfl,ticked⟩

theorem spiTransfer_performs {h h' : SimHal κ stuckIrqMs}
    (transferred : h.spiTransfer out = some (h',inp)) : ∃ late,
      h.advanceUs (30 + UInt64.ofNat out.length * 2) = some late ∧ h'.localUs = late.localUs ∧
      late.radio.perform (.spiTransfer out) nofun = some h'.radio := by
  simp only [spiTransfer, Option.bind_eq_bind, Option.bind_eq_some_iff, Option.some.injEq,
    Prod.mk.injEq] at transferred
  obtain ⟨late,advanced,_,_,_,performed,rfl,_⟩ := transferred
  exact ⟨late,advanced,rfl,performed⟩

theorem beginTick_ticks {h h' : SimHal κ stuckIrqMs} (begun : h.beginTick networkMs = some h') :
    h'.localUs = (if networkMs.toUInt64 * 1000 > h.localUs then networkMs.toUInt64 * 1000
      else h.localUs) ∧ h.radio.tick (h'.localUs / 1000) = some h'.radio := by
  simp only [beginTick, Option.bind_eq_bind, Option.bind_eq_some_iff, Option.some.injEq] at begun
  obtain ⟨_,ticked,rfl⟩ := begun
  exact ⟨rfl,ticked⟩

/-- The callback `servicePendingIrq` runs, if it runs one. -/
def pendingIsr (h : SimHal κ stuckIrqMs) : Option κ :=
  if h.chip.irqAsserted ∧ ¬h.inIsr then h.isr else none

/-- The DIO1 pin is high exactly while the chip asserts its line. -/
theorem digitalRead_dio1 (h : SimHal κ stuckIrqMs) :
    h.digitalRead kPinDio1 = GpioLevelHigh ↔ h.chip.irqAsserted = true := by
  have pin : kPinDio1 ≠ kPinBusy := by decide
  have levels : GpioLevelLow ≠ GpioLevelHigh := by decide
  simp [digitalRead,pin,levels]

theorem pendingIsr_isSome (h : SimHal κ stuckIrqMs) (attached : h.isr = some cb)
    (outside : h.inIsr = false) : h.pendingIsr = some cb ↔ h.chip.irqAsserted = true := by
  simp [pendingIsr,attached,outside]

end SimHal
end Meshcore
