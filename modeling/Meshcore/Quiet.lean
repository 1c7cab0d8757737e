import Meshcore.Library.Programs
import Meshcore.Waiting

/-! The hardware as driver code sees it. A tick delivers the next frame to a chip that
listens, raises what a receiver hears and moves the clocks; of the three no command of
the driver can tell more than the delivery. -/
namespace Meshcore

open Checked Flags Programs

variable {κ : Type} {stuckIrqMs : UInt32}

/-- What a receiver raises before it has a frame. -/
def kIrqHeard : BitVec 16 := kIrqPreambleDetected ||| kIrqSyncWordValid ||| kIrqHeaderValid

namespace Chip

/-- What a tick delivers. -/
def arrive (c : Chip) : Option Chip := if c.mode = .rx then c.deliverPending else some c

/-- Nothing can be delivered: the receiver is off or no frame is queued. -/
abbrev Settled (c : Chip) : Prop := c.mode = .rx → c.inbox = []

theorem arrive_settled {c : Chip} (settled : c.Settled) : c.arrive = some c := by
  rw [arrive]
  split
  case isTrue hears => exact deliverPending_nil (settled hears)
  case isFalse => rfl

theorem settled_standby {c : Chip} (mode : c.mode = .standby) : c.Settled :=
  fun rx => absurd (mode.symm.trans rx) (by decide)

theorem settled_tx {c : Chip} (mode : c.mode = .tx) : c.Settled :=
  fun rx => absurd (mode.symm.trans rx) (by decide)

/-- The chip with what time moves left out. -/
def still (c : Chip) : Chip :=
  { c with
    irq := c.irq &&& ~~~kIrqHeard, preambleRaised := false, headerRaised := false
    nowMs := 0, irqReads := 0, busyReads := 0, busyMs := 0, preambleRaises := 0
    lastBusyTickMs := 0, nextSpuriousMs := 0, spuriousRaises := 0 }

theorem still_heard (word raised : BitVec 16) (heard : raised &&& ~~~kIrqHeard = 0) :
    (word ||| raised) &&& ~~~kIrqHeard = word &&& ~~~kIrqHeard := by
  rw [BitVec.and_or_distrib_right, heard]
  exact BitVec.or_zero

theorem injectFault_still (c : Chip) : c.injectFault.still = c.still := by
  rw [injectFault]
  split
  · have raised : (c.irq ||| kIrqPreambleDetected) &&& ~~~kIrqHeard = c.irq &&& ~~~kIrqHeard :=
      still_heard _ _ (by decide)
    simp only [still, raised]
  · rfl

theorem detectPreamble_still (c : Chip) : c.detectPreamble.still = c.still := by
  rw [detectPreamble]
  split
  · have raised : (c.irq ||| kIrqPreambleDetected) &&& ~~~kIrqHeard = c.irq &&& ~~~kIrqHeard :=
      still_heard _ _ (by decide)
    simp only [still, raised]
  · rfl

theorem detectHeader_still (c : Chip) : c.detectHeader.still = c.still := by
  rw [detectHeader]
  split
  · have raised : (c.irq ||| (kIrqHeaderValid ||| kIrqSyncWordValid)) &&& ~~~kIrqHeard =
        c.irq &&& ~~~kIrqHeard :=
      still_heard _ _ (by decide)
    simp only [still, raised]
  · rfl

theorem detect_still (c : Chip) : c.detect.still = c.still := by
  rw [detect]
  split
  · exact (detectHeader_still _).trans (detectPreamble_still c)
  · rfl

/-- Chips that only time has parted agree on all that time does not move. -/
theorem timeless_eq {α : Type} {c d : Chip} (same : c.still = d.still) (f : Chip → α)
    (timeless : ∀ c, f c.still = f c) : f c = f d := by
  rw [← timeless c, same, timeless d]

theorem deliverPending_still (c : Chip) :
    c.deliverPending.map still = c.still.deliverPending.map still := by
  cases waiting : c.inbox with
  | nil =>
    have idle : c.still.inbox = [] := waiting
    rw [deliverPending_nil waiting, deliverPending_nil idle]
    simp [still,BitVec.and_assoc]
  | cons f rest =>
    have queued : c.still.inbox = f :: rest := waiting
    have same : c.still.buffer.memcpy? c.still.rxBase.toNat f (min f.length 255) =
      c.buffer.memcpy? c.rxBase.toNat f (min f.length 255) := rfl
    rw [deliverPending_cons waiting, deliverPending_cons queued, same]
    cases c.buffer.memcpy? c.rxBase.toNat f (min f.length 255) with
    | none => rfl
    | some buffer =>
      have flags (raised : BitVec 16) : (c.irq &&& ~~~kIrqHeard ||| raised) &&& ~~~kIrqHeard =
          (c.irq ||| raised) &&& ~~~kIrqHeard := by
        rw [BitVec.and_or_distrib_right, BitVec.and_assoc, BitVec.and_self,
          BitVec.and_or_distrib_right]
      simp [still,received,BitVec.or_assoc,flags]

/-- All that a tick does is to deliver. -/
theorem tick_still (c : Chip) (nowMs : UInt64) :
    (c.tick nowMs).map still = c.still.arrive.map still := by
  have mode : c.still.mode = c.mode := rfl
  rw [tick_eq, arrive, mode]
  by_cases hears : c.mode = .rx
  · have same : (c.accrueBusy nowMs).injectFault.still = c.still := injectFault_still _
    have detected : still ∘ detect = still := funext detect_still
    rw [if_pos hears, if_pos hears, Option.map_map, detected, deliverPending_still, same]
  · rw [if_neg hears, if_neg hears]
    simp [accrueBusy,still,BitVec.and_assoc]

/-- What has the same effect on chips that only time has parted. -/
theorem step_of_still {c d : Chip} {f g : Chip → Option Chip}
    (timeless : ∀ c, (f c).map still = (g c.still).map still) (same : c.still = d.still)
    (stepped : g d = some d') (alike : ∀ c, (g c).map still = (g c.still).map still) :
    ∃ c', f c = some c' ∧ c'.still = d'.still := by
  have both := timeless c
  rw [same, ← alike d, stepped, Option.map_some, Option.map_eq_some_iff] at both
  exact both

theorem arrive_still (c : Chip) : c.arrive.map still = c.still.arrive.map still := by
  have mode : c.still.mode = c.mode := rfl
  rw [arrive, arrive, mode]
  split
  · exact deliverPending_still c
  · simp [still,BitVec.and_assoc]

theorem tick_of_still {c d : Chip} (same : c.still = d.still) (arrived : d.arrive = some d')
    (nowMs : UInt64) : ∃ c', c.tick nowMs = some c' ∧ c'.still = d'.still :=
  step_of_still (tick_still · nowMs) same arrived arrive_still

theorem startTx_still (c : Chip) : c.startTx.map still = c.still.startTx.map still := by
  have same : c.still.buffer.slice? c.still.txBase.toNat c.still.txLenForSend.toNat =
    c.buffer.slice? c.txBase.toNat c.txLenForSend.toNat := rfl
  simp only [startTx, same, Option.bind_eq_bind]
  cases c.buffer.slice? c.txBase.toNat c.txLenForSend.toNat with
  | none => rfl
  | some payload => simp [still,BitVec.and_assoc]

/-- What a command does to the rest of the chip, it does whatever time has done. -/
theorem act_still (c : Chip) (cmd : List UInt8) :
    (c.act cmd).map still = (c.still.act cmd).map still := by
  have twice : c.irq &&& ~~~kIrqHeard &&& ~~~kIrqHeard = c.irq &&& ~~~kIrqHeard := by
    rw [BitVec.and_assoc, BitVec.and_self]
  unfold act
  cases opcode? (arg cmd 0) with
  | none => simp [still,twice]
  | some o =>
    cases o
    case setTx => exact startTx_still c
    case clearIrqStatus =>
      have cleared (m : BitVec 16) : c.irq &&& ~~~kIrqHeard &&& ~~~m &&& ~~~kIrqHeard =
          c.irq &&& ~~~m &&& ~~~kIrqHeard := by
        ext i
        simp only [BitVec.getElem_and]
        cases (~~~kIrqHeard)[i] <;> simp
      simp only [Option.map_some, Option.some.injEq]
      split
      · simp [still,cleared]
      · simp [still,twice]
    case setCad =>
      have raised (m : BitVec 16) : (c.irq &&& ~~~kIrqHeard ||| m) &&& ~~~kIrqHeard =
          (c.irq ||| m) &&& ~~~kIrqHeard := by
        rw [BitVec.and_or_distrib_right, twice, BitVec.and_or_distrib_right]
      cases busy : c.channelBusy <;> simp [startCad,still,busy,raised,BitVec.or_assoc]
    case getIrqStatus => simp [countIrqRead,still,twice]
    all_goals simp only [Option.map_some, Option.some.injEq]
    all_goals try split
    all_goals simp [still,startRx,applyModulation,applyPacketParams,twice]

theorem hiByte_still (v : BitVec 16) : hiByte (v &&& ~~~kIrqHeard) = hiByte v := by
  have kept : ((~~~kIrqHeard) >>> 8).setWidth 8 = BitVec.allOnes 8 := by decide
  rw [hiByte, hiByte, BitVec.ushiftRight_and_distrib, BitVec.setWidth_and, kept,
    BitVec.and_allOnes]

/-- A reply the driver waits for: it never clocks the interrupt register to its end. -/
def Curt (cmd : List UInt8) : Prop := opcode? (arg cmd 0) = some .getIrqStatus → cmd.length ≤ 4

instance (cmd : List UInt8) : Decidable (Curt cmd) := inferInstanceAs (Decidable (_ → _))

theorem answer_still (c : Chip) {cmd : List UInt8} (curt : Curt cmd) :
    c.still.answer cmd = c.answer cmd := by
  refine tabulate_congr fun i _ => ?_
  unfold answerByte dataByte
  cases op : opcode? (arg cmd 0) with
  | none => rfl
  | some o =>
    cases o
    case getIrqStatus =>
      have short : ¬5 ≤ cmd.length := by
        have := curt op
        omega
      have high : hiByte c.still.irq = hiByte c.irq := hiByte_still c.irq
      simp [short,high]
    all_goals rfl

theorem act_of_still {c d : Chip} (same : c.still = d.still) (acted : d.act cmd = some d') :
    ∃ c', c.act cmd = some c' ∧ c'.still = d'.still :=
  step_of_still (act_still · cmd) same acted (act_still · cmd)

theorem answer_of_still {c d : Chip} (same : c.still = d.still) (curt : Curt cmd) :
    c.answer cmd = d.answer cmd := by
  rw [← answer_still c curt, same, answer_still d curt]

end Chip

/-- What driver code asks of its hardware; `κ` names the callbacks it can attach. -/
inductive DriverCall (κ : Type) where
  | spiTransfer (out : List UInt8)
  | digitalRead (pin : UInt32)
  | attachInterrupt (cb : κ)
  | detachInterrupt
  | delay (ms : UInt64)
  | delayMicroseconds (us : UInt64)
  | yield
  | millis
  | micros

def DriverCall.Reply : DriverCall κ → Type
  | .spiTransfer _ => List UInt8
  | .digitalRead _ => UInt32
  | .millis | .micros => UInt64
  | _ => Unit

/-- Driver code: a program over its `RadioLibHal`. -/
abbrev Hal (κ : Type) := Program (DriverCall κ) DriverCall.Reply

namespace Hal

def spiTransfer (out : List UInt8) : Hal κ (List UInt8) := .call (DriverCall.spiTransfer out)
def digitalRead (pin : UInt32) : Hal κ UInt32 := .call (DriverCall.digitalRead pin)
def delay (ms : UInt64) : Hal κ Unit := .call (DriverCall.delay ms)
def delayMicroseconds (us : UInt64) : Hal κ Unit := .call (DriverCall.delayMicroseconds us)
def yield : Hal κ Unit := .call DriverCall.yield
def millis : Hal κ UInt64 := .call DriverCall.millis
def micros : Hal κ UInt64 := .call DriverCall.micros

end Hal

def SimHal.answer : Machine (DriverCall κ) DriverCall.Reply (SimHal κ stuckIrqMs)
  | .spiTransfer out, h => h.spiTransfer out
  | .digitalRead pin, h => some (h,h.digitalRead pin)
  | .attachInterrupt cb, h => some (h.attachInterrupt cb,())
  | .detachInterrupt, h => some (h.detachInterrupt,())
  | .delay ms, h => (h.delay ms).map (·,())
  | .delayMicroseconds us, h => (h.delayMicroseconds us).map (·,())
  | .yield, h => h.yield.map (·,())
  | .millis, h => some (h,h.millis)
  | .micros, h => some (h,h.micros)

/-- The hardware with deliveries for ticks. -/
structure Quiet (κ : Type) where
  chip : Chip
  isr : Option κ := none
  localUs : UInt64 := 0

namespace Quiet

def advanceUs (q : Quiet κ) (us : UInt64) : Option (Quiet κ) := do
  some { q with localUs := q.localUs + us, chip := ← q.chip.arrive }

/-- The pin shows what commands and frames have raised; whether more is heard is not known. -/
def dio1? (c : Chip) : Option UInt32 :=
  if any (c.irq &&& ~~~kIrqHeard) c.irqMask then some GpioLevelHigh
  else if any kIrqHeard c.irqMask then none else some GpioLevelLow

def answer : Machine (DriverCall κ) DriverCall.Reply (Quiet κ)
  | .spiTransfer out, q => do
    let q ← q.advanceUs (30 + UInt64.ofNat out.length * 2)
    if out ≠ [] ∧ Chip.Curt out then
      some ({ q with chip := ← q.chip.act out },q.chip.answer out)
    else none
  | .digitalRead pin, q =>
    if pin = kPinBusy then some (q,GpioLevelLow)
    else if pin = kPinDio1 then (dio1? q.chip).map (q,·) else some (q,GpioLevelLow)
  | .attachInterrupt cb, q => some ({ q with isr := some cb },())
  | .detachInterrupt, q => some ({ q with isr := none },())
  | .delay ms, q => (q.advanceUs (ms * 1000)).map (·,())
  | .delayMicroseconds us, q => (q.advanceUs us).map (·,())
  | .yield, q => (q.advanceUs 50).map (·,())
  | .millis, q => some (q,q.localUs / 1000)
  | .micros, q => some (q,q.localUs)

end Quiet

namespace SimHal

/-- The hardware, up to what time moves, and with nothing more sent to the engine. -/
structure Like (sent : List Outgoing) (h : SimHal κ stuckIrqMs) (q : Quiet κ) : Prop where
  chip : h.chip.still = q.chip.still
  isr : h.isr = q.isr
  localUs : h.localUs = q.localUs
  toEngine : h.radio.toEngine = sent

variable {sent : List Outgoing} {h : SimHal κ stuckIrqMs} {q q' : Quiet κ}

theorem Like.advanceUs (like : h.Like sent q) (advanced : q.advanceUs us = some q') :
    ∃ h', h.advanceUs us = some h' ∧ h'.Like sent q' := by
  obtain ⟨chip,arrived,same⟩ := Option.bind_eq_some_iff.mp advanced
  obtain rfl := Option.some.inj same
  obtain ⟨d,ticked,still⟩ := Chip.tick_of_still like.chip arrived ((h.localUs + us) / 1000)
  have stepped : h.radio.chip.state.step (.tick ((h.localUs + us) / 1000)) = some d := ticked
  obtain ⟨radio,performed⟩ := h.radio.perform_of_step (by simp) stepped
  obtain ⟨taken,kept⟩ := Radio.perform_eq_some performed
  have state : radio.chip.state = d := Option.some.inj (taken.symm.trans ticked)
  refine ⟨{ h with localUs := h.localUs + us, radio },?_,?_,like.isr,?_,kept.trans like.toEngine⟩
  · simp only [SimHal.advanceUs, Radio.tick, performed, Option.bind_eq_bind, Option.bind_some]
  · change radio.chip.state.still = _
    rw [state, still]
  · change h.localUs + us = q.localUs + us
    rw [like.localUs]

theorem Like.spiTransfer (like : h.Like sent q) (nonempty : out ≠ []) (curt : Chip.Curt out)
    (advanced : q.advanceUs (30 + UInt64.ofNat out.length * 2) = some late)
    (acted : late.chip.act out = some d) : ∃ h', h.spiTransfer out = some (h',late.chip.answer out) ∧
      h'.Like sent { late with chip := d } := by
  obtain ⟨h₁,waited,like⟩ := like.advanceUs advanced
  obtain ⟨c,executed,still⟩ := Chip.act_of_still like.chip acted
  have stepped : h₁.chip.step (.spiTransfer out) = some c := by
    rw [Chip.step_spiTransfer, if_neg nonempty, executed]
  obtain ⟨radio,performed⟩ := h₁.radio.perform_of_step (by simp) stepped
  obtain ⟨taken,same⟩ := Radio.perform_eq_some performed
  have chip : radio.chip.state = c := Option.some.inj (taken.symm.trans stepped)
  refine ⟨{ h₁ with radio },?_,?_,like.isr,like.localUs,same.trans like.toEngine⟩
  · simp only [SimHal.spiTransfer, waited, Chip.spiTransfer_eq _ out nonempty, executed, performed,
      Option.bind_eq_bind, Option.bind_some, Option.map_some, Option.some.injEq,
      Prod.mk.injEq, true_and]
    exact Chip.answer_of_still like.chip curt
  · change radio.chip.state.still = d.still
    rw [chip, still]

/-- A pin whose level commands alone settle is read the same. -/
theorem Like.dio1 (like : h.Like sent q) (known : Quiet.dio1? q.chip = some level) :
    h.digitalRead kPinDio1 = level := by
  have kept : h.chip.irq &&& ~~~kIrqHeard = q.chip.irq &&& ~~~kIrqHeard :=
    congrArg Chip.irq like.chip
  have mask : h.chip.irqMask = q.chip.irqMask :=
    Chip.timeless_eq like.chip Chip.irqMask fun _ => rfl
  rw [Quiet.dio1?, ← kept, ← mask] at known
  have pin : kPinDio1 ≠ kPinBusy := by decide
  simp only [digitalRead, pin, ite_false, ite_true]
  split at known
  case isTrue raised =>
    have high : h.chip.irqAsserted = true := any_of_any_clear raised
    rw [if_pos high]
    exact Option.some.inj known
  case isFalse low =>
    split at known
    case isTrue => cases known
    case isFalse deaf =>
      have apart : any kIrqHeard h.chip.irqMask = false := by simpa using deaf
      have quiet : ¬h.chip.irqAsserted = true := by rwa [any_clear_of_apart apart] at low
      rw [if_neg quiet]
      exact Option.some.inj known

/-- The hardware does what it does with deliveries for ticks. -/
theorem answer_follows (sent : List Outgoing) :
    Program.Follows (fun (h : SimHal κ stuckIrqMs) q => h.Like sent q) answer Quiet.answer := by
  intro i h q q' r like asked
  have waits (us : UInt64) {u : Unit} (ran : (q.advanceUs us).map (·,()) = some (q',u)) :
      ∃ h', (h.advanceUs us).map (·,()) = some (h',u) ∧ h'.Like sent q' := by
    obtain ⟨late,advanced,same⟩ := Option.map_eq_some_iff.mp ran
    obtain ⟨rfl,_⟩ := Prod.mk.inj same
    obtain ⟨h',waited,like'⟩ := like.advanceUs advanced
    exact ⟨h',by rw [waited]; rfl,like'⟩
  cases i with
  | spiTransfer out =>
    obtain ⟨late,advanced,ran⟩ := Option.bind_eq_some_iff.mp asked
    by_cases fine : out ≠ [] ∧ Chip.Curt out
    · rw [if_pos fine] at ran
      obtain ⟨d,acted,same⟩ := Option.bind_eq_some_iff.mp ran
      obtain ⟨rfl,rfl⟩ := Prod.mk.inj (Option.some.inj same)
      exact like.spiTransfer fine.1 fine.2 advanced acted
    · rw [if_neg fine] at ran
      cases ran
  | digitalRead pin =>
    simp only [Quiet.answer] at asked
    by_cases busy : pin = kPinBusy
    · rw [if_pos busy] at asked
      obtain ⟨rfl,rfl⟩ := Prod.mk.inj (Option.some.inj asked)
      exact ⟨h,by simp [answer,digitalRead,busy],like⟩
    rw [if_neg busy] at asked
    by_cases irq : pin = kPinDio1
    · subst irq
      rw [if_pos rfl] at asked
      obtain ⟨level,known,same⟩ := Option.map_eq_some_iff.mp asked
      obtain ⟨rfl,rfl⟩ := Prod.mk.inj same
      exact ⟨h,by rw [answer, like.dio1 known],like⟩
    · rw [if_neg irq] at asked
      obtain ⟨rfl,rfl⟩ := Prod.mk.inj (Option.some.inj asked)
      exact ⟨h,by simp [answer,digitalRead,busy,irq],like⟩
  | attachInterrupt cb =>
    obtain ⟨rfl,rfl⟩ := Prod.mk.inj (Option.some.inj asked)
    exact ⟨_,rfl,{ like with isr := rfl }⟩
  | detachInterrupt =>
    obtain ⟨rfl,rfl⟩ := Prod.mk.inj (Option.some.inj asked)
    exact ⟨_,rfl,{ like with isr := rfl }⟩
  | delay ms => exact waits (ms * 1000) asked
  | delayMicroseconds us => exact waits us asked
  | yield => exact waits 50 asked
  | millis | micros =>
    obtain ⟨rfl,rfl⟩ := Prod.mk.inj (Option.some.inj asked)
    exact ⟨h,by rw [answer, ← like.localUs]; rfl,like⟩

/-- Driver code that goes through with deliveries alone goes through on the hardware: it gets
the same replies by the same clock, sends nothing to the engine, and leaves a chip that
differs in no more than what a receiver hears and the clocks have moved. -/
theorem deliveries_suffice (p : Hal κ α) (h : SimHal κ stuckIrqMs)
    (ran : p.run Quiet.answer ⟨h.chip,h.isr,h.localUs⟩ = some (q',a)) :
    ∃ h', p.run answer h = some (h',a) ∧ h'.chip.still = q'.chip.still ∧ h'.isr = q'.isr ∧
      h'.localUs = q'.localUs ∧ h'.radio.toEngine = h.radio.toEngine := by
  have start : h.Like h.radio.toEngine ⟨h.chip,h.isr,h.localUs⟩ := ⟨rfl,rfl,rfl,rfl⟩
  obtain ⟨h',ran',like⟩ := (answer_follows h.radio.toEngine).run p start ran
  exact ⟨h',ran',like.chip,like.isr,like.localUs,like.toEngine⟩

/-- The receiver is switched on and the line read a millisecond later. -/
def listenBriefly : Hal Unit UInt32 := do
  let _ ← Hal.spiTransfer [0x82,0,0,0]
  Hal.delay 1
  Hal.digitalRead kPinDio1

theorem deliveries_suffice_briefly : ∃ h' : SimHal Unit 0,
    listenBriefly.run answer { radio := .init 0 } = some (h',GpioLevelLow) ∧ h'.localUs = 1038 := by
  have heard : (listenBriefly.run Quiet.answer ⟨.new 0,none,0⟩).map
      (fun r => decide (r.1.localUs = 1038 ∧ r.2 = GpioLevelLow)) = some true := by
    decide +kernel
  obtain ⟨⟨q,level⟩,ran,holds⟩ := Option.map_eq_some_iff.mp heard
  obtain ⟨clock,rfl⟩ := of_decide_eq_true holds
  obtain ⟨h',ran',_,_,time,_⟩ := deliveries_suffice listenBriefly { radio := .init 0 } ran
  exact ⟨h',ran',time.trans clock⟩

end SimHal
end Meshcore
