import Meshcore.Accesses
import Meshcore.Dispatch
import Meshcore.Library.Lockstep

/-! The engine's ticks and what either bridge answers them with: the frames of the
catching up, natively what the application printed, one report of the radio, and the
acknowledgement, with the clock where the tick wanted it or where it was. -/
namespace Meshcore

open Checked Lockstep Radio Runs

variable {κ σ : Type} {stuckIrqMs : UInt32}

/-- The payload of a tick. -/
abbrev TickPayload := { p : List UInt8 // p.length = 4 }

/-- The tick a message is; of another length it is none. -/
def Msg.tick? (m : Msg) : Option TickPayload :=
  if m.kind = kTick then if four : m.payload.length = 4 then some ⟨m.payload,four⟩ else none
  else none

def Outgoing.isAck : Outgoing → Bool
  | .ack _ => true
  | .frame _ | .consoleOut _ | .radioStats _ => false

/-- What is written while a tick is handled, with at most `prints` flushes of a console. -/
def TickWork (prints : ℕ) (work : List Outgoing) : Prop :=
  ∃ (sent : List { p : List UInt8 // p.length ≤ 255 }) (printed : List (List UInt8))
    (sb : { p : List UInt8 // p.length = 37 }), printed.length ≤ prints ∧
    work = sent.map .frame ++ printed.map .consoleOut ++ [.radioStats sb]

theorem Msg.tick?_eq_some {m : Msg} {payload : TickPayload} :
    m.tick? = some payload ↔ m.kind = kTick ∧ m.payload = payload.1 := by
  rw [tick?]
  constructor
  · intro found
    split at found
    next kind =>
      split at found
      next four => exact ⟨kind,congrArg Subtype.val (Option.some.inj found)⟩
      next => cases found
    next => cases found
  · rintro ⟨kind,same⟩
    rw [if_pos kind, dif_pos (same ▸ payload.2)]
    exact congrArg some (Subtype.ext same)

/-- The protocol of the ticks, over the inputs of either bridge. -/
def tickProtocol {ι : Type} (asks : ι → Option TickPayload) (prints : ℕ) :
    Protocol ι TickPayload Outgoing where
  asks := asks
  due payload := (tickTarget payload).toNat
  acked := .ack
  isAck := Outgoing.isAck
  proper := TickWork prints
  isAck_acked _ := rfl
  proper_work := by
    rintro work ⟨sent,printed,sb,_,rfl⟩ o member
    simp only [List.mem_append, List.mem_map, List.mem_singleton] at member
    rcases member with (⟨_,_,rfl⟩ | ⟨_,_,rfl⟩) | rfl <;> rfl

namespace NativeNode

/-- A message that ends the message loop. -/
def Stops (m : Msg) : Prop := m.kind ≠ kTick ∧ m.kind ∉ nativeKinds

theorem flushConsole_says (n : NativeNode κ σ stuckIrqMs) :
    ∃ printed : List (List UInt8), printed.length ≤ 1 ∧
      n.flushConsole.radio.toEngine = n.radio.toEngine ++ printed.map .consoleOut := by
  rw [flushConsole]
  split
  · exact ⟨[],by simp,by simp⟩
  · exact ⟨[n.gConsoleOut],by simp,rfl⟩

theorem flushConsole_network (n : NativeNode κ σ stuckIrqMs) :
    n.flushConsole.network = n.network := by
  rw [flushConsole]
  split <;> rfl

variable (app : App κ σ)

theorem handleTick_answers {n n' : NativeNode κ σ stuckIrqMs} {payload : TickPayload}
    (handled : n.handleTick app payload = some n') : n'.running = n.running ∧
      n'.g_sim_millis.toNat = max n.g_sim_millis.toNat (tickTarget payload).toNat ∧
      ∃ work, TickWork 1 work ∧ n'.radio.toEngine = n.radio.toEngine ++ (work ++ [.ack payload]) := by
  obtain ⟨caught,last,ticked,passed,rfl⟩ := handleTick_parts app handled
  obtain ⟨clock,running⟩ := Prod.mk.inj (pass_network app passed)
  obtain ⟨flushed,goes⟩ := Prod.mk.inj (flushConsole_network last)
  refine ⟨goes.trans (running.trans (tickTo_running app ticked)),?_,?_⟩
  · rw [← tickTo_clock app ticked, ← clock, ← flushed]
    rfl
  · obtain ⟨sent,said⟩ := ((tickTo_evolves app ticked).trans (pass_evolves app passed)).relays
    obtain ⟨printed,once,flush⟩ := flushConsole_says last
    let sb : { p : List UInt8 // p.length = 37 } :=
      ⟨statsPrefix last.flushConsole.chip ++ [0],by simp [statsPrefix_length]⟩
    refine ⟨_,⟨sent,printed,sb,once,rfl⟩,?_⟩
    have whole : last.flushConsole.radio.toEngine ++ [.radioStats sb] ++ [.ack payload] =
        n.radio.toEngine ++ (sent.map .frame ++ printed.map .consoleOut ++ [.radioStats sb] ++
          [.ack payload]) := by
      simp [flush,said]
    exact whole

theorem step_tick {n : NativeNode κ σ stuckIrqMs} {payload : TickPayload} (high : n.running = true)
    (asked : m.tick? = some payload) : n.step app m = n.handleTick app payload := by
  obtain ⟨kind,same⟩ := Msg.tick?_eq_some.mp asked
  have four : m.payload.length = 4 := same ▸ payload.2
  have found : (⟨m.payload,four⟩ : TickPayload) = payload := Subtype.ext same
  rw [step, if_pos high, handle, kind]
  simp only [show kTick ≠ kFrame by decide, show kTick ≠ kTxDone by decide,
    show kTick ≠ kChannelBusy by decide, show kTick ≠ kConsoleIn by decide,
    show kTick ≠ kOriginate by decide, ite_true, ite_false, four, dite_true, found]

/-- A tick of another length is passed by. -/
theorem step_odd {n : NativeNode κ σ stuckIrqMs} (high : n.running = true) (kind : m.kind = kTick)
    (unasked : m.tick? = none) : n.step app m = some n := by
  have odd : m.payload.length ≠ 4 := fun four => by simp [Msg.tick?,kind,four] at unasked
  rw [step, if_pos high, handle, kind]
  simp only [show kTick ≠ kFrame by decide, show kTick ≠ kTxDone by decide,
    show kTick ≠ kChannelBusy by decide, show kTick ≠ kConsoleIn by decide,
    show kTick ≠ kOriginate by decide, ite_true, ite_false, odd, dite_false]

theorem serves : Serves (tickProtocol Msg.tick? 1) (step app)
    (fun n : NativeNode κ σ stuckIrqMs => n.radio.toEngine) (fun n => n.g_sim_millis.toNat)
    (fun n => n.running = true) Stops where
  down n m n' low stepped := by
    rw [step, if_neg low] at stepped
    exact (Option.some.inj stepped).symm
  goesOn n m n' high stepped := by
    by_cases kind : m.kind = kTick
    · have still : n'.running = n.running := by
        cases asked : m.tick? with
        | none => rw [Option.some.inj ((step_odd app high kind asked).symm.trans stepped)]
        | some payload => exact (handleTick_answers app (step_tick app high asked ▸ stepped)).1
      simp [still,high,Stops,kind]
    · obtain ⟨d,told,_,goes,_⟩ := n.step_told app m high kind
      obtain rfl := Option.some.inj (told.symm.trans stepped)
      simp [goes,Stops,kind]
  quiet n m n' high stepped unasked := by
    by_cases kind : m.kind = kTick
    · obtain rfl := Option.some.inj ((step_odd app high kind unasked).symm.trans stepped)
      exact ⟨rfl,rfl⟩
    · obtain ⟨d,told,_,_,silent,clock⟩ := n.step_told app m high kind
      obtain rfl := Option.some.inj (told.symm.trans stepped)
      exact ⟨silent,congrArg UInt32.toNat clock⟩
  answer n m n' payload high stepped asked := by
    rw [step_tick app high asked] at stepped
    have kind := (Msg.tick?_eq_some.mp asked).1
    exact ⟨fun stops => stops.1 kind,(handleTick_answers app stepped).2⟩

theorem boot_running {n : NativeNode κ σ stuckIrqMs} (booted : boot app stuckIrqMs = some n) :
    n.running = true := by
  simp only [boot, Option.bind_eq_bind, Option.bind_eq_some_iff, Option.some.injEq] at booted
  obtain ⟨set,ran,rfl⟩ := booted
  have setup : set.running = true := congrArg Prod.snd (exec_network _ ran)
  have drained : set.drainTx.network = set.network := rfl
  exact (congrArg Prod.snd ((flushConsole_network set.drainTx).trans drained)).trans setup

end NativeNode

namespace RadioServer

/-- The tick an event of the poll loop carries. -/
def Event.tick? : Event → Option TickPayload
  | .qemu _ => none
  | .bridge m => m.tick?

/-- An event that ends the poll loop. -/
def Stops : Event → Prop
  | .qemu (.unknown _) => True
  | .qemu _ | .bridge _ => False

/-- The emulator's messages reach the chip and the emulator, never the engine. -/
theorem serviceQemu_silent {s s' : RadioServer stuckIrqMs} (serviced : s.serviceQemu m = some s') :
    s'.radio.toEngine = s.radio.toEngine ∧ s'.gSimMillis = s.gSimMillis ∧
      (s.running = true → (s'.running = true ↔ ¬Stops (.qemu m))) := by
  cases m with
  | csAssert | csRelease | setFem level =>
    simp only [serviceQemu, Option.bind_eq_bind, Option.bind_eq_some_iff, Option.some.injEq] at serviced
    obtain ⟨_,performed,rfl⟩ := serviced
    exact ⟨(perform_eq_some performed).2,rfl,fun high => by simp [high,Stops]⟩
  | xfer out =>
    simp only [serviceQemu, Option.bind_eq_bind, Option.bind_eq_some_iff, Option.some.injEq] at serviced
    obtain ⟨_,_,_,performed,rfl⟩ := serviced
    exact ⟨(perform_eq_some performed).2,rfl,fun high => by simp [high,Stops,reply]⟩
  | readIrq | readBusy =>
    obtain rfl := Option.some.inj serviced
    exact ⟨rfl,rfl,fun high => by simp [high,Stops,reply]⟩
  | unknown tag =>
    obtain rfl := Option.some.inj serviced
    exact ⟨rfl,rfl,fun _ => by simp [Stops]⟩

theorem tickTo_running {s s' : RadioServer stuckIrqMs} (ticked : s.tickTo atMs = some s') :
    s'.running = s.running := by
  rw [tickTo_eq] at ticked
  refine repeated_rel (fun a b : RadioServer stuckIrqMs => b.running = a.running)
    (fun _ => rfl) (fun _ _ _ first rest => rest.trans first) ?_ _ ticked
  intro a b turn
  obtain ⟨_,_,rfl⟩ := tickOnce_ticks turn
  rfl

theorem handleTick_answers {s s' : RadioServer stuckIrqMs} {payload : TickPayload}
    (handled : s.handleTick payload = some s') : s'.running = s.running ∧
      s'.gSimMillis.toNat = max s.gSimMillis.toNat (tickTarget payload).toNat ∧
      ∃ work, TickWork 0 work ∧ s'.radio.toEngine = s.radio.toEngine ++ (work ++ [.ack payload]) := by
  obtain ⟨caught,radio,ticked,last,rfl⟩ := handleTick_ticks handled
  have running := tickTo_running ticked
  have clock := tickTo_clock ticked
  refine ⟨running,clock,?_⟩
  have turns : Evolves s.radio radio.drainTx :=
    .drainTx (.perform (tickTo_evolves ticked) last (by simp))
  obtain ⟨sent,said⟩ := turns.relays
  let c := radio.drainTx.chip.state
  let sb : { p : List UInt8 // p.length = 37 } :=
    ⟨statsPrefix c ++ [femByte c],by simp [statsPrefix_length]⟩
  refine ⟨_,⟨sent,[],sb,Nat.le_refl _,rfl⟩,?_⟩
  have whole : radio.drainTx.toEngine ++ [.radioStats sb] ++ [.ack payload] =
      s.radio.toEngine ++ (sent.map .frame ++ List.map .consoleOut [] ++ [.radioStats sb] ++
        [.ack payload]) := by
    simp [said]
  exact whole

theorem step_tick {s : RadioServer stuckIrqMs} {payload : TickPayload} (high : s.running = true)
    (asked : m.tick? = some payload) : s.step (.bridge m) = s.handleTick payload := by
  obtain ⟨kind,same⟩ := Msg.tick?_eq_some.mp asked
  have four : m.payload.length = 4 := same ▸ payload.2
  have found : (⟨m.payload,four⟩ : TickPayload) = payload := Subtype.ext same
  rw [step, if_pos high, serviceBridge, kind]
  simp only [show kTick ≠ kFrame by decide, show kTick ≠ kTxDone by decide,
    show kTick ≠ kChannelBusy by decide, ite_true, ite_false, four, dite_true, found]

theorem step_odd {s : RadioServer stuckIrqMs} (high : s.running = true) (kind : m.kind = kTick)
    (unasked : m.tick? = none) : s.step (.bridge m) = some s := by
  have odd : m.payload.length ≠ 4 := fun four => by simp [Msg.tick?,kind,four] at unasked
  rw [step, if_pos high, serviceBridge, kind]
  simp only [show kTick ≠ kFrame by decide, show kTick ≠ kTxDone by decide,
    show kTick ≠ kChannelBusy by decide, ite_true, ite_false, odd, dite_false]

/-- What a message that is no tick leaves alone. -/
theorem step_silent {s s' : RadioServer stuckIrqMs} (high : s.running = true)
    (stepped : s.step (.bridge m) = some s') (unasked : m.tick? = none) :
    s'.radio.toEngine = s.radio.toEngine ∧ s'.gSimMillis = s.gSimMillis ∧ s'.running = true := by
  by_cases kind : m.kind = kTick
  · obtain rfl := Option.some.inj ((step_odd high kind unasked).symm.trans stepped)
    exact ⟨rfl,rfl,high⟩
  · obtain ⟨d,told,_,running,silent,clock⟩ := s.step_told m high kind
    obtain rfl := Option.some.inj (told.symm.trans stepped)
    exact ⟨silent,clock,running⟩

theorem serves : Serves (tickProtocol Event.tick? 0) step
    (fun s : RadioServer stuckIrqMs => s.radio.toEngine) (fun s => s.gSimMillis.toNat)
    (fun s => s.running = true) Stops where
  down s event s' low stepped := by
    cases event <;>
      (simp only [step, if_neg low] at stepped; exact (Option.some.inj stepped).symm)
  goesOn s event s' high stepped := by
    cases event with
    | qemu m =>
      rw [step, if_pos high] at stepped
      exact (serviceQemu_silent stepped).2.2 high
    | bridge m =>
      refine iff_of_true ?_ id
      cases asked : m.tick? with
      | none => exact (step_silent high stepped asked).2.2
      | some payload => exact (handleTick_answers (step_tick high asked ▸ stepped)).1.trans high
  quiet s event s' high stepped unasked := by
    cases event with
    | qemu m =>
      rw [step, if_pos high] at stepped
      obtain ⟨silent,clock,_⟩ := serviceQemu_silent stepped
      exact ⟨silent,congrArg UInt32.toNat clock⟩
    | bridge m =>
      obtain ⟨silent,clock,_⟩ := step_silent high stepped unasked
      exact ⟨silent,congrArg UInt32.toNat clock⟩
  answer s event s' payload high stepped asked := by
    cases event with
    | qemu m => cases asked
    | bridge m =>
      rw [step_tick high asked] at stepped
      exact ⟨id,(handleTick_answers stepped).2⟩

end RadioServer

/-- In every run each bridge answers the ticks in order, one acknowledgement each, with the
clock where it should be, and is silent otherwise, exactly when no tick comes after the
message that stopped it. -/
theorem ticks_acknowledged_iff {κ σ : Type} (app : App κ σ) (stuckIrqMs : UInt32) :
    (∀ (booted n : NativeNode κ σ stuckIrqMs) (ms : List Msg),
      NativeNode.boot app stuckIrqMs = some booted →
      run (NativeNode.step app) booted ms = some n →
      ((∃ out, n.radio.toEngine = booted.radio.toEngine ++ out ∧
          (tickProtocol Msg.tick? 1).Answered booted.g_sim_millis.toNat ms out
            n.g_sim_millis.toNat) ↔
        ms.Pairwise fun j i => NativeNode.Stops j → i.tick? = none)) ∧
    ∀ (s : RadioServer stuckIrqMs) (events : List RadioServer.Event),
      run RadioServer.step (.init stuckIrqMs) events = some s →
      ((tickProtocol RadioServer.Event.tick? 0).Answered 0 events s.radio.toEngine
          s.gSimMillis.toNat ↔
        events.Pairwise fun j i => RadioServer.Stops j → i.tick? = none) := by
  constructor
  · intro booted n ms boots ran
    exact (NativeNode.serves app).run_answered_iff (NativeNode.boot_running app boots) ran
  · intro s events ran
    have silent : (RadioServer.init stuckIrqMs).radio.toEngine = [] := rfl
    have answered := RadioServer.serves.run_answered_iff (s := .init stuckIrqMs) rfl ran
    simp only [silent, List.nil_append, exists_eq_left'] at answered
    exact answered

theorem ticks_acknowledged_twice : ∃ s : RadioServer 0,
    run RadioServer.step (.init 0) [.bridge ⟨kTick,[0,0,0,2]⟩,.bridge ⟨0x00,[]⟩,
      .bridge ⟨kTick,[0,0,0,1]⟩] = some s ∧
    (tickProtocol RadioServer.Event.tick? 0).Answered 0 [.bridge ⟨kTick,[0,0,0,2]⟩,
      .bridge ⟨0x00,[]⟩,.bridge ⟨kTick,[0,0,0,1]⟩] s.radio.toEngine s.gSimMillis.toNat := by
  have reached : (run RadioServer.step (.init 0) [.bridge ⟨kTick,[0,0,0,2]⟩,.bridge ⟨0x00,[]⟩,
      .bridge ⟨kTick,[0,0,0,1]⟩]).isSome = true := by
    decide +kernel
  obtain ⟨s,ran⟩ := Option.isSome_iff_exists.mp reached
  refine ⟨s,ran,((ticks_acknowledged_iff .inert 0).2 s _ ran).mpr ?_⟩
  simp [RadioServer.Stops]

/-- A message of a kind the native bridge does not know, and then a tick. -/
theorem tick_unacknowledged : ∃ n,
    NativeNode.boot .inert 0 = some (.fresh 0) ∧
    run (NativeNode.step .inert) (.fresh 0) [⟨0x00,[]⟩,⟨kTick,[0,0,0,1]⟩] = some n ∧
    n.radio.toEngine = [] ∧ n.g_sim_millis = 0 :=
  ⟨_,rfl,rfl,rfl,rfl⟩

end Meshcore
