import Meshcore.SimHal
import Meshcore.RadioServer

/-! The native bridge: an application linked with it, whose `setup` and `loop` are
programs over the hardware it runs on, driven by the engine's messages. -/
namespace Meshcore

open Checked

variable {κ σ : Type} {stuckIrqMs : UInt32}

/-- What an application does between entry and return: calls to its hardware, its
clocks and its console, each choosing the rest by what it answered. -/
inductive Prog (κ σ : Type) where
  | done (s : σ)
  | spiTransfer (out : List UInt8) (next : List UInt8 → Prog κ σ)
  | digitalRead (pin : UInt32) (next : UInt32 → Prog κ σ)
  | attachInterrupt (cb : κ) (next : Prog κ σ)
  | detachInterrupt (next : Prog κ σ)
  | delay (ms : UInt64) (next : Prog κ σ)
  | delayMicroseconds (us : UInt64) (next : Prog κ σ)
  | yield (next : Prog κ σ)
  | millis (next : UInt64 → Prog κ σ)
  | micros (next : UInt64 → Prog κ σ)
  | simMillis (next : UInt32 → Prog κ σ)
  | getCurrentTime (next : UInt32 → Prog κ σ)
  | setCurrentTime (t : UInt32) (next : Prog κ σ)
  | consoleWrite (p : List UInt8) (next : Prog κ σ)
  | consoleRead (next : Option UInt8 → Prog κ σ)
  | consoleAvailable (next : Nat → Prog κ σ)
  | consolePeek (next : Option UInt8 → Prog κ σ)

/-- The application linked beside the bridge, with its state as linked. -/
structure App (κ σ : Type) where
  start : σ
  setup : σ → Prog κ σ
  loop : σ → Prog κ σ
  isr : κ → σ → Prog κ σ

structure NativeNode (κ σ : Type) (stuckIrqMs : UInt32) where
  hal : SimHal κ stuckIrqMs
  app : σ
  g_sim_millis : UInt32 := 0
  rtc : UInt32 := 1754700000
  gConsoleIn : List UInt8 := []
  gConsoleOut : List UInt8 := []
  running : Bool := true

namespace NativeNode

def radio (n : NativeNode κ σ stuckIrqMs) : Radio stuckIrqMs := n.hal.radio

def chip (n : NativeNode κ σ stuckIrqMs) : Chip := n.hal.chip

def onRadio (n : NativeNode κ σ stuckIrqMs) (radio : Radio stuckIrqMs) :
    NativeNode κ σ stuckIrqMs :=
  { n with hal := { n.hal with radio } }

/-- The application runs to its return. -/
def exec (n : NativeNode κ σ stuckIrqMs) : Prog κ σ → Option (NativeNode κ σ stuckIrqMs)
  | .done s => some { n with app := s }
  | .spiTransfer out next => do
    let (hal,inp) ← n.hal.spiTransfer out
    exec { n with hal } (next inp)
  | .digitalRead pin next => n.exec (next (n.hal.digitalRead pin))
  | .attachInterrupt cb next => exec { n with hal := n.hal.attachInterrupt cb } next
  | .detachInterrupt next => exec { n with hal := n.hal.detachInterrupt } next
  | .delay ms next => do exec { n with hal := ← n.hal.delay ms } next
  | .delayMicroseconds us next => do exec { n with hal := ← n.hal.delayMicroseconds us } next
  | .yield next => do exec { n with hal := ← n.hal.yield } next
  | .millis next => n.exec (next n.hal.millis)
  | .micros next => n.exec (next n.hal.micros)
  | .simMillis next => n.exec (next n.g_sim_millis)
  | .getCurrentTime next => n.exec (next n.rtc)
  | .setCurrentTime t next => exec { n with rtc := t } next
  | .consoleWrite p next => exec { n with gConsoleOut := n.gConsoleOut ++ p } next
  | .consoleRead next => exec { n with gConsoleIn := n.gConsoleIn.tail } (next n.gConsoleIn.head?)
  | .consoleAvailable next => n.exec (next n.gConsoleIn.length)
  | .consolePeek next => n.exec (next n.gConsoleIn.head?)

/-- What holds of each thing an application does holds of all it does before it returns. -/
theorem exec_rel (R : NativeNode κ σ stuckIrqMs → NativeNode κ σ stuckIrqMs → Prop)
    (trans : ∀ {a b c}, R a b → R b c → R a c)
    (uses : ∀ (n : NativeNode κ σ stuckIrqMs) hal, n.hal.Uses hal → R n { n with hal })
    (own : ∀ (n : NativeNode κ σ stuckIrqMs) rtc gConsoleIn gConsoleOut app,
      R n { n with rtc, gConsoleIn, gConsoleOut, app })
    (p : Prog κ σ) {n n' : NativeNode κ σ stuckIrqMs} (ran : n.exec p = some n') : R n n' := by
  induction p generalizing n with
  | done s => exact Option.some.inj ran ▸ own n n.rtc n.gConsoleIn n.gConsoleOut s
  | spiTransfer out next ih =>
    simp only [exec, Option.bind_eq_bind, Option.bind_eq_some_iff] at ran
    obtain ⟨⟨hal,inp⟩,transferred,ran⟩ := ran
    exact trans (uses n hal (.spiTransfer transferred)) (ih inp ran)
  | delay ms next ih =>
    simp only [exec, Option.bind_eq_bind, Option.bind_eq_some_iff] at ran
    obtain ⟨hal,waited,ran⟩ := ran
    exact trans (uses n hal (.delay waited)) (ih ran)
  | delayMicroseconds us next ih =>
    simp only [exec, Option.bind_eq_bind, Option.bind_eq_some_iff] at ran
    obtain ⟨hal,waited,ran⟩ := ran
    exact trans (uses n hal (.delayMicroseconds waited)) (ih ran)
  | yield next ih =>
    simp only [exec, Option.bind_eq_bind, Option.bind_eq_some_iff] at ran
    obtain ⟨hal,waited,ran⟩ := ran
    exact trans (uses n hal (.yield waited)) (ih ran)
  | attachInterrupt cb next ih => exact trans (uses n _ (.attachInterrupt cb)) (ih ran)
  | detachInterrupt next ih => exact trans (uses n _ .detachInterrupt) (ih ran)
  | setCurrentTime t next ih => exact trans (own n t n.gConsoleIn n.gConsoleOut n.app) (ih ran)
  | consoleWrite p next ih =>
    exact trans (own n n.rtc n.gConsoleIn (n.gConsoleOut ++ p) n.app) (ih ran)
  | consoleRead next ih =>
    exact trans (own n n.rtc n.gConsoleIn.tail n.gConsoleOut n.app) (ih _ ran)
  | digitalRead _ next ih | millis next ih | micros next ih | simMillis next ih
  | getCurrentTime next ih | consoleAvailable next ih | consolePeek next ih => exact ih _ ran

def flushConsole (n : NativeNode κ σ stuckIrqMs) : NativeNode κ σ stuckIrqMs :=
  if n.gConsoleOut = [] then n
  else { n.onRadio (n.radio.send (.consoleOut n.gConsoleOut) rfl) with gConsoleOut := [] }

def drainTx (n : NativeNode κ σ stuckIrqMs) : NativeNode κ σ stuckIrqMs :=
  n.onRadio n.radio.drainTx

def beginTick (n : NativeNode κ σ stuckIrqMs) : Option (NativeNode κ σ stuckIrqMs) := do
  some { n with hal := ← n.hal.beginTick n.g_sim_millis }

variable (app : App κ σ)

/-- The interrupt runs with itself masked, and not in the middle of a transfer. -/
def servicePendingIrq (n : NativeNode κ σ stuckIrqMs) : Option (NativeNode κ σ stuckIrqMs) :=
  match n.hal.pendingIsr with
  | none => some n
  | some cb => do
    let n ← exec { n with hal := { n.hal with inIsr := true } } (app.isr cb n.app)
    some { n with hal := { n.hal with inIsr := false } }

/-- `main` up to its message loop. -/
def boot (stuckIrqMs : UInt32) : Option (NativeNode κ σ stuckIrqMs) := do
  let n ← exec { hal := { radio := .init stuckIrqMs }, app := app.start } (app.setup app.start)
  some n.drainTx.flushConsole

/-- One pass at the current millisecond: clock, interrupt, `loop()`, transmission. -/
def pass (n : NativeNode κ σ stuckIrqMs) : Option (NativeNode κ σ stuckIrqMs) := do
  let n ← n.beginTick
  let n ← n.servicePendingIrq app
  let n ← n.exec (app.loop n.app)
  some n.drainTx

def tickOnce (n : NativeNode κ σ stuckIrqMs) : Option (NativeNode κ σ stuckIrqMs) :=
  let g_sim_millis := n.g_sim_millis + 1
  -- The RTC has second resolution, and moves once per thousand of these.
  pass app { n with g_sim_millis, rtc := if g_sim_millis % 1000 = 0 then n.rtc + 1 else n.rtc }

/-- `while (g_sim_millis < at)`, one loop per millisecond of simulated time. -/
def tickTo (n : NativeNode κ σ stuckIrqMs) (atMs : UInt32) : Option (NativeNode κ σ stuckIrqMs) :=
  whileLoop (fun n => decide (n.g_sim_millis < atMs)) (tickOnce app)
    (atMs.toNat - n.g_sim_millis.toNat) n

/-- What is the message loop's: the network's clock, and whether it goes on. -/
def network (n : NativeNode κ σ stuckIrqMs) : UInt32 × Bool := (n.g_sim_millis,n.running)

/-- The application cannot move it. -/
theorem exec_network (p : Prog κ σ) {n n' : NativeNode κ σ stuckIrqMs} (ran : n.exec p = some n') :
    n'.network = n.network :=
  exec_rel (fun a b => b.network = a.network) (fun first rest => rest.trans first)
    (fun _ _ _ => rfl) (fun _ _ _ _ _ => rfl) p ran

/-- If an interrupt is entered, its handler runs with the rest of them masked. -/
theorem servicePendingIrq_cases {n n' : NativeNode κ σ stuckIrqMs}
    (serviced : n.servicePendingIrq app = some n') : n' = n ∨ ∃ cb last,
      exec { n with hal := { n.hal with inIsr := true } } (app.isr cb n.app) = some last ∧
      n' = { last with hal := { last.hal with inIsr := false } } := by
  rw [servicePendingIrq] at serviced
  split at serviced
  · exact .inl (Option.some.inj serviced).symm
  · simp only [Option.bind_eq_bind, Option.bind_eq_some_iff, Option.some.injEq] at serviced
    obtain ⟨last,ran,rfl⟩ := serviced
    exact .inr ⟨_,last,ran,rfl⟩

theorem servicePendingIrq_network {n n' : NativeNode κ σ stuckIrqMs}
    (serviced : n.servicePendingIrq app = some n') : n'.network = n.network := by
  obtain rfl | ⟨_,_,ran,rfl⟩ := servicePendingIrq_cases app serviced
  · rfl
  · have kept := exec_network _ ran
    exact kept

/-- The four parts of a pass. -/
theorem pass_parts {n n' : NativeNode κ σ stuckIrqMs} (passed : n.pass app = some n') :
    ∃ hal mid last, n.hal.beginTick n.g_sim_millis = some hal ∧
      servicePendingIrq app { n with hal } = some mid ∧ mid.exec (app.loop mid.app) = some last ∧
      n' = last.drainTx := by
  simp only [pass, beginTick, Option.bind_eq_bind, Option.bind_eq_some_iff,
    Option.some.injEq] at passed
  obtain ⟨_,⟨hal,begun,rfl⟩,mid,serviced,last,looped,rfl⟩ := passed
  exact ⟨hal,mid,last,begun,serviced,looped,rfl⟩

theorem pass_network {n n' : NativeNode κ σ stuckIrqMs} (passed : n.pass app = some n') :
    n'.network = n.network := by
  obtain ⟨_,_,_,_,serviced,looped,rfl⟩ := pass_parts app passed
  have before := servicePendingIrq_network app serviced
  exact (exec_network _ looped).trans before

theorem tickOnce_clock {n n' : NativeNode κ σ stuckIrqMs} (ticked : n.tickOnce app = some n') :
    n'.g_sim_millis = n.g_sim_millis + 1 :=
  congrArg Prod.fst (pass_network app ticked)

/-- The loop takes one turn for each millisecond that is missing. -/
theorem tickTo_eq (n : NativeNode κ σ stuckIrqMs) (atMs : UInt32) :
    n.tickTo app atMs = repeated (tickOnce app) (atMs.toNat - n.g_sim_millis.toNat) n :=
  whileLoop_repeats g_sim_millis atMs (fun _ _ => tickOnce_clock app) n

theorem tickTo_clock {n n' : NativeNode κ σ stuckIrqMs} (ticked : n.tickTo app atMs = some n') :
    n'.g_sim_millis.toNat = max n.g_sim_millis.toNat atMs.toNat :=
  whileLoop_counts g_sim_millis atMs (fun _ _ => tickOnce_clock app) ticked

theorem tickTo_running {n n' : NativeNode κ σ stuckIrqMs} (ticked : n.tickTo app atMs = some n') :
    n'.running = n.running := by
  rw [tickTo_eq] at ticked
  refine repeated_rel (fun a b : NativeNode κ σ stuckIrqMs => b.running = a.running)
    (fun _ => rfl) (fun _ _ _ first rest => rest.trans first) ?_ _ ticked
  intro a b turn
  have kept := congrArg Prod.snd (pass_network app turn)
  exact kept

/-- No front-end module is wired, so its byte always says it was not asked. -/
def writeRadioStats (n : NativeNode κ σ stuckIrqMs) : NativeNode κ σ stuckIrqMs :=
  let sb := ⟨statsPrefix n.chip ++ [0],by simp [statsPrefix_length]⟩
  n.onRadio (n.radio.send (.radioStats sb) rfl)

def handleTick (n : NativeNode κ σ stuckIrqMs) (payload : { p : List UInt8 // p.length = 4 }) :
    Option (NativeNode κ σ stuckIrqMs) := do
  let n ← n.tickTo app (tickTarget payload)
  let n ← n.pass app
  let n := n.flushConsole.writeRadioStats
  some (n.onRadio (n.radio.ack payload))

/-- After the loop there is a pass at the clock, and the engine is answered. -/
theorem handleTick_parts {n n' : NativeNode κ σ stuckIrqMs}
    (handled : n.handleTick app payload = some n') : ∃ caught last,
      n.tickTo app (tickTarget payload) = some caught ∧ caught.pass app = some last ∧
      n' = last.flushConsole.writeRadioStats.onRadio
        (last.flushConsole.writeRadioStats.radio.ack payload) := by
  simp only [handleTick, Option.bind_eq_bind, Option.bind_eq_some_iff, Option.some.injEq] at handled
  obtain ⟨caught,ticked,last,passed,rfl⟩ := handled
  exact ⟨caught,last,ticked,passed,rfl⟩

theorem pass_drained {n n' : NativeNode κ σ stuckIrqMs} (passed : n.pass app = some n') :
    n'.chip.hasPendingTx = false := by
  obtain ⟨_,_,last,_,_,_,rfl⟩ := pass_parts app passed
  exact last.radio.drainTx_empties

/-- A tick that has been acknowledged has left nothing pending. -/
theorem handleTick_drained {n n' : NativeNode κ σ stuckIrqMs}
    (handled : n.handleTick app payload = some n') : n'.chip.hasPendingTx = false := by
  obtain ⟨_,n,_,passed,rfl⟩ := handleTick_parts app handled
  have flushed : n.flushConsole.chip = n.chip := by
    rw [flushConsole]
    split <;> rfl
  exact (congrArg Chip.hasPendingTx flushed).trans (pass_drained app passed)

/-- One message from the engine. -/
def handle (n : NativeNode κ σ stuckIrqMs) (m : Msg) : Option (NativeNode κ σ stuckIrqMs) :=
  if m.kind = kFrame then do some (n.onRadio (← n.radio.pushFrame m.payload))
  else if m.kind = kTxDone then do some (n.onRadio (← n.radio.transmitFinished))
  else if m.kind = kChannelBusy then do
    let busy := match m.payload with
      | [] => false
      | b :: _ => decide (b ≠ 0)
    some (n.onRadio (← n.radio.setChannelBusy busy))
  else if m.kind = kConsoleIn then some { n with gConsoleIn := n.gConsoleIn ++ m.payload }
  else if m.kind = kOriginate then some n
  else if m.kind = kTick then
    if four : m.payload.length = 4 then n.handleTick app ⟨m.payload,four⟩ else some n
  else some { n with running := false }

/-- A message makes an access that is no tick, or is a tick, or is between the loop and the
console. -/
theorem handle_cases {n n' : NativeNode κ σ stuckIrqMs} (handled : n.handle app m = some n') :
    (∃ op other radio, (∀ t, op ≠ .tick t) ∧ n.radio.perform op other = some radio ∧
      n' = n.onRadio radio) ∨
      (∃ payload, n.handleTick app payload = some n') ∨
      ∃ gConsoleIn running, n' = { n with gConsoleIn, running } := by
  simp only [handle, Option.bind_eq_bind] at handled
  split at handled
  case isTrue =>
    obtain ⟨_,queued,same⟩ := Option.bind_eq_some_iff.mp handled
    exact .inl ⟨_,_,_,by simp,queued,(Option.some.inj same).symm⟩
  split at handled
  case isTrue =>
    obtain ⟨_,ended,same⟩ := Option.bind_eq_some_iff.mp handled
    exact .inl ⟨_,_,_,by simp,ended,(Option.some.inj same).symm⟩
  split at handled
  case isTrue =>
    obtain ⟨_,told,same⟩ := Option.bind_eq_some_iff.mp handled
    exact .inl ⟨_,_,_,by simp,told,(Option.some.inj same).symm⟩
  split at handled
  case isTrue => exact .inr (.inr ⟨_,_,(Option.some.inj handled).symm⟩)
  split at handled
  case isTrue => exact .inr (.inr ⟨n.gConsoleIn,n.running,(Option.some.inj handled).symm⟩)
  split at handled
  case isTrue =>
    split at handled
    · exact .inr (.inl ⟨_,handled⟩)
    · exact .inr (.inr ⟨n.gConsoleIn,n.running,(Option.some.inj handled).symm⟩)
  case isFalse => exact .inr (.inr ⟨_,_,(Option.some.inj handled).symm⟩)

/-- A turn of the message loop; nothing is read once it has been left. -/
def step (n : NativeNode κ σ stuckIrqMs) (m : Msg) : Option (NativeNode κ σ stuckIrqMs) :=
  if n.running then n.handle app m else some n

end NativeNode
end Meshcore
