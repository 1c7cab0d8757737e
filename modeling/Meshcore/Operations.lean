import Meshcore.Streaming
import Meshcore.Library.Runs

/-! Everything that can reach a chip, as one step function. A step is an event
behind the link, or nothing but the link moving; `step_core` says which, and every
later fact about runs goes through it. -/
namespace Meshcore

open Checked Flags

/-- The buffered transfer, the four messages of the emulator, the four of the
engine, and the bridge taking the transmission that is pending. -/
inductive ChipOp where
  | spiTransfer (out : List UInt8)
  | csAssert
  | xfer (out : UInt8)
  | csRelease
  | setFem (on : Bool)
  | frame (payload : List UInt8)
  | tick (nowMs : UInt64)
  | txDone
  | channelBusy (busy : Bool)
  | drain
  deriving DecidableEq, Repr

/-- What an operation means to the chip behind the link. -/
inductive Event where
  | command (cmd : List UInt8)
  | setFem (on : Bool)
  | frame (payload : List UInt8)
  | tick (nowMs : UInt64)
  | txDone
  | channelBusy (busy : Bool)
  | drain
  deriving DecidableEq, Repr

/-- The operation an event is, when it is not a command. -/
def Event.op? : Event → Option ChipOp
  | .command _ => none
  | .setFem on => some (.setFem on)
  | .frame payload => some (.frame payload)
  | .tick nowMs => some (.tick nowMs)
  | .txDone => some .txDone
  | .channelBusy busy => some (.channelBusy busy)
  | .drain => some .drain

namespace Chip

def pushFrame (c : Chip) (payload : List UInt8) : Chip := { c with inbox := c.inbox ++ [payload] }

def takePending (c : Chip) : Chip := { c with hasPendingTx := false }

def step (c : Chip) : ChipOp → Option Chip
  | .spiTransfer out => (c.spiTransfer out).map Prod.fst
  | .csAssert => some c.beginTransaction
  | .xfer out => (c.transferByte out).map Prod.fst
  | .csRelease => c.endTransaction
  | .setFem on => some (c.setFemEnabled on)
  | .frame payload => some (c.pushFrame payload)
  | .tick nowMs => c.tick nowMs
  | .txDone => some c.transmitFinished
  | .channelBusy busy => some (c.setChannelBusy busy)
  | .drain => some c.takePending

def apply (c : Chip) : Event → Option Chip
  | .command cmd => c.act cmd
  | .setFem on => some (c.setFemEnabled on)
  | .frame payload => some (c.pushFrame payload)
  | .tick nowMs => c.tick nowMs
  | .txDone => some c.transmitFinished
  | .channelBusy busy => some (c.setChannelBusy busy)
  | .drain => some c.takePending

/-- The event an operation delivers, if it delivers one. A streamed command is
executed by the release that closes it, unless it is one of those that answer. -/
def event (c : Chip) : ChipOp → Option Event
  | .spiTransfer out => if out = [] then none else some (.command out)
  | .csAssert | .xfer _ => none
  | .csRelease =>
    if c.txn = [] ∨ returnsData (arg c.txn 0) then none else some (.command (c.txn.take 260))
  | .setFem on => some (.setFem on)
  | .frame payload => some (.frame payload)
  | .tick nowMs => some (.tick nowMs)
  | .txDone => some .txDone
  | .channelBusy busy => some (.channelBusy busy)
  | .drain => some .drain

/-- An event that is not a command comes from the one operation of its name. -/
theorem event_eq_some {c : Chip} (named : e.op? = some o) : c.event op = some e ↔ op = o := by
  cases e with
  | command cmd => cases named
  | _ =>
    obtain rfl := Option.some.inj named
    cases op <;> simp only [event, reduceCtorEq, Option.some.injEq, Event.setFem.injEq,
      Event.frame.injEq, Event.tick.injEq, Event.channelBusy.injEq, ChipOp.setFem.injEq,
      ChipOp.frame.injEq, ChipOp.tick.injEq, ChipOp.channelBusy.injEq, iff_false]
    all_goals split <;> simp

def effect (c : Chip) (op : ChipOp) : Option Chip :=
  match c.event op with
  | none => some c
  | some e => c.apply e

theorem step_spiTransfer (c : Chip) (out : List UInt8) :
    c.step (.spiTransfer out) = if out = [] then some c else c.act out := by
  by_cases empty : out = []
  · simp [step,spiTransfer,empty]
  · simp [step,spiTransfer_eq c out empty,empty,Function.comp_def]

/-- A step, seen behind the link, is its event. -/
theorem step_core (c : Chip) (op : ChipOp) : (c.step op).map core = (c.effect op).map core := by
  cases op with
  | spiTransfer out =>
    rw [step_spiTransfer, effect, event]
    split <;> rfl
  | csAssert => rfl
  | xfer out =>
    obtain ⟨d,byte,same,_⟩ := transferByte_spec c out
    simp [step,byte,effect,event,same]
  | csRelease =>
    simp only [step, endTransaction_eq, effect, event]
    split
    · rfl
    · simp [apply,Function.comp_def]
  | _ => rfl

theorem step_effect {c next : Chip} (stepped : c.step op = some next) :
    ∃ d, c.effect op = some d ∧ next.core = d.core := by
  have same := step_core c op
  rw [stepped, Option.map_some, eq_comm, Option.map_eq_some_iff] at same
  obtain ⟨d,effect,core⟩ := same
  exact ⟨d,effect,core.symm⟩

theorem step_isSome (c : Chip) (op : ChipOp) : (c.step op).isSome = (c.effect op).isSome := by
  have same := congrArg Option.isSome (step_core c op)
  simpa using same

/-- The chip once frame `f` is in `buffer` and `rest` is still queued. -/
def received (c : Chip) (f : List UInt8) (rest : List (List UInt8)) (buffer : Block 256 UInt8) :
    Chip :=
  { c with
    rxLen := UInt8.ofNat (if f.length > 255 then 255 else f.length), buffer, inbox := rest
    irq := c.irq ||| kIrqRxDone ||| (kIrqPreambleDetected ||| kIrqHeaderValid ||| kIrqSyncWordValid) }

theorem deliverPending_nil {c : Chip} (idle : c.inbox = []) : c.deliverPending = some c := by
  simp [deliverPending,idle]

theorem rxLen_toNat (n : Nat) : (UInt8.ofNat (if n > 255 then 255 else n)).toNat = min n 255 := by
  have byte : (if n > 255 then 255 else n) < UInt8.size := by
    rw [show UInt8.size = 256 from rfl]
    split <;> omega
  rw [UInt8.toNat_ofNat_of_lt' byte]
  split <;> omega

theorem deliverPending_cons {c : Chip} (waiting : c.inbox = f :: rest) :
    c.deliverPending = (c.buffer.memcpy? c.rxBase.toNat f (min f.length 255)).map
      (c.received f rest) := by
  simp only [deliverPending, waiting, rxLen_toNat, Option.bind_eq_bind]
  cases c.buffer.memcpy? c.rxBase.toNat f (min f.length 255) <;> rfl

theorem injectFault_of_ne {c : Chip} (deaf : c.mode ≠ .rx) : c.injectFault = c := by
  simp [injectFault,deaf]

@[simp] theorem injectFault_mode (c : Chip) : c.injectFault.mode = c.mode := by
  rw [injectFault]
  split <;> rfl

/-- What neither the flags nor the mode move, the end of a transmission does not. -/
theorem transmitFinished_keeps {α : Type} (f : Chip → α)
    (kept : ∀ (c : Chip) irq mode, f { c with irq, mode } = f c) (c : Chip) :
    f c.transmitFinished = f c := by
  rw [transmitFinished]
  split
  · exact kept c _ _
  · rfl

/-- What the arrival of a frame does not move, a delivery does not. -/
theorem deliverPending_keeps {α : Type} {c d : Chip} (f : Chip → α)
    (kept : ∀ frame rest buffer, f (c.received frame rest buffer) = f c)
    (delivered : c.deliverPending = some d) : f d = f c := by
  cases waiting : c.inbox with
  | nil => rw [deliverPending_nil waiting] at delivered; rw [← Option.some.inj delivered]
  | cons frame rest =>
    rw [deliverPending_cons waiting, Option.map_eq_some_iff] at delivered
    obtain ⟨buffer,_,rfl⟩ := delivered
    exact kept frame rest buffer

@[simp] theorem deliverPending_mode {c d : Chip} (delivered : c.deliverPending = some d) :
    d.mode = c.mode :=
  deliverPending_keeps mode (fun _ _ _ => rfl) delivered

/-- A tick out of receive mode only moves the clock; in receive mode it delivers
before it detects. -/
theorem tick_eq (c : Chip) (nowMs : UInt64) : c.tick nowMs =
    if c.mode = .rx then (c.accrueBusy nowMs).injectFault.deliverPending.map detect
    else some (c.accrueBusy nowMs) := by
  have mode : (c.accrueBusy nowMs).mode = c.mode := rfl
  rw [tick]
  by_cases hears : c.mode = .rx
  · simp only [injectFault_mode, mode, hears, ite_true, Option.bind_eq_bind]
    cases delivered : (c.accrueBusy nowMs).injectFault.deliverPending with
    | none => rfl
    | some d => simp [deliverPending_mode delivered,mode,hears]
  · simp [mode,hears,injectFault_of_ne]

/-- An update that leaves the queue and the slot alone goes past a delivery. -/
theorem deliverPending_comm {c : Chip} (f : Chip → Chip) (inbox : (f c).inbox = c.inbox)
    (buffer : (f c).buffer = c.buffer) (rxBase : (f c).rxBase = c.rxBase)
    (after : ∀ frame rest b, (f c).received frame rest b = f (c.received frame rest b)) :
    (f c).deliverPending = c.deliverPending.map f := by
  cases waiting : c.inbox with
  | nil => rw [deliverPending_nil waiting, deliverPending_nil (inbox.trans waiting)]; rfl
  | cons frame rest =>
    rw [deliverPending_cons waiting, deliverPending_cons (inbox.trans waiting), buffer, rxBase,
      Option.map_map, funext (after frame rest)]
    rfl

theorem deliverPending_onLink (c : Chip) (l : Link) :
    (c.onLink l).deliverPending = c.deliverPending.map (·.onLink l) :=
  deliverPending_comm (·.onLink l) rfl rfl rfl fun _ _ _ => rfl

theorem onLink_ite (p : Prop) [Decidable p] (c d : Chip) (l : Link) :
    (if p then c else d).onLink l = if p then c.onLink l else d.onLink l :=
  apply_ite (fun e : Chip => e.onLink l) p c d

theorem injectFault_onLink (c : Chip) (l : Link) :
    (c.onLink l).injectFault = c.injectFault.onLink l := by
  unfold injectFault
  rw [onLink_ite]
  rfl

theorem detectPreamble_onLink (c : Chip) (l : Link) :
    (c.onLink l).detectPreamble = c.detectPreamble.onLink l := by
  unfold detectPreamble
  rw [onLink_ite]
  rfl

theorem detectHeader_onLink (c : Chip) (l : Link) :
    (c.onLink l).detectHeader = c.detectHeader.onLink l := by
  unfold detectHeader
  rw [onLink_ite]
  rfl

theorem detect_onLink (c : Chip) (l : Link) : (c.onLink l).detect = c.detect.onLink l := by
  unfold detect
  rw [detectPreamble_onLink, detectHeader_onLink, onLink_ite]
  rfl

theorem transmitFinished_onLink (c : Chip) (l : Link) :
    (c.onLink l).transmitFinished = c.transmitFinished.onLink l := by
  unfold transmitFinished
  rw [onLink_ite]
  rfl

theorem tick_onLink (c : Chip) (l : Link) (nowMs : UInt64) :
    (c.onLink l).tick nowMs = (c.tick nowMs).map (·.onLink l) := by
  have clock : (c.onLink l).accrueBusy nowMs = (c.accrueBusy nowMs).onLink l := rfl
  rw [tick_eq, tick_eq, clock, injectFault_onLink, deliverPending_onLink]
  by_cases hears : c.mode = .rx
  · simp only [show (c.onLink l).mode = c.mode from rfl, hears, ite_true, Option.map_map,
      Function.comp_def, detect_onLink]
  · simp [show (c.onLink l).mode = c.mode from rfl,hears]

/-- Events ride over the link, but for the counted read of the interrupt register. -/
theorem apply_onLink (c : Chip) (l : Link) (e : Event)
    (counted : ∀ cmd, e = .command cmd → opcode? (arg cmd 0) ≠ some .getIrqStatus) :
    (c.onLink l).apply e = (c.apply e).map (·.onLink l) := by
  cases e with
  | command cmd => exact act_onLink c l cmd (counted cmd rfl)
  | tick nowMs => exact tick_onLink c l nowMs
  | txDone => exact congrArg some (transmitFinished_onLink c l)
  | _ => rfl

theorem apply_core (c : Chip) (e : Event) : (c.apply e).map core = (c.core.apply e).map core := by
  cases e with
  | command cmd => exact act_core c cmd
  | _ =>
    rw [core, apply_onLink c _ _ (by simp), Option.map_map]
    rfl

theorem apply_link {c d : Chip} (applied : c.apply e = some d) :
    d.txn = c.txn ∧ d.inTxn = c.inTxn := by
  cases e with
  | command cmd => exact act_txn applied
  | tick nowMs =>
    rw [apply, ← onLink_link c, tick_onLink] at applied
    obtain ⟨d,_,rfl⟩ := Option.map_eq_some_iff.mp applied
    exact ⟨rfl,rfl⟩
  | txDone =>
    obtain rfl := Option.some.inj applied
    exact ⟨transmitFinished_keeps txn (fun _ _ _ => rfl) c,
      transmitFinished_keeps inTxn (fun _ _ _ => rfl) c⟩
  | _ =>
    obtain rfl := Option.some.inj applied
    exact ⟨rfl,rfl⟩

end Chip
end Meshcore
