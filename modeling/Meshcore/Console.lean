import Meshcore.Instruments

/-! The console of a native node. The engine's bytes wait until the application reads them,
and what it prints waits for the end of a tick; both are queues that lose nothing. -/
namespace Meshcore

open Checked Runs

variable {κ σ : Type} {stuckIrqMs : UInt32}

/-- What the application does with its console, with the answers it gets. -/
inductive ConsoleCall where
  | write (p : List UInt8)
  | read (c : Option UInt8)
  | available (bytes : ℕ)
  | peek (c : Option UInt8)
  deriving DecidableEq

def ConsoleCall.written : ConsoleCall → List UInt8
  | .write p => p
  | _ => []

def ConsoleCall.read? : ConsoleCall → Option UInt8
  | .read c => c
  | _ => none

/-- The same calls, with a record of those that concern the console. -/
def Prog.transcribed (calls : List ConsoleCall) : Prog κ σ → Prog κ (σ × List ConsoleCall)
  | .done s => .done (s,calls)
  | .spiTransfer out next => .spiTransfer out fun inp => (next inp).transcribed calls
  | .digitalRead pin next => .digitalRead pin fun level => (next level).transcribed calls
  | .attachInterrupt cb next => .attachInterrupt cb (next.transcribed calls)
  | .detachInterrupt next => .detachInterrupt (next.transcribed calls)
  | .delay ms next => .delay ms (next.transcribed calls)
  | .delayMicroseconds us next => .delayMicroseconds us (next.transcribed calls)
  | .yield next => .yield (next.transcribed calls)
  | .millis next => .millis fun t => (next t).transcribed calls
  | .micros next => .micros fun t => (next t).transcribed calls
  | .simMillis next => .simMillis fun t => (next t).transcribed calls
  | .getCurrentTime next => .getCurrentTime fun t => (next t).transcribed calls
  | .setCurrentTime t next => .setCurrentTime t (next.transcribed calls)
  | .consoleWrite p next => .consoleWrite p (next.transcribed (calls ++ [.write p]))
  | .consoleRead next => .consoleRead fun b => (next b).transcribed (calls ++ [.read b])
  | .consoleAvailable next => .consoleAvailable fun n => (next n).transcribed (calls ++ [.available n])
  | .consolePeek next => .consolePeek fun b => (next b).transcribed (calls ++ [.peek b])

/-- The application with that record. -/
def App.transcribed (app : App κ σ) : App κ (σ × List ConsoleCall) where
  start := (app.start,[])
  setup s := (app.setup s.1).transcribed s.2
  loop s := (app.loop s.1).transcribed s.2
  isr cb s := (app.isr cb s.1).transcribed s.2

theorem Prog.transcribed_shows (p : Prog κ σ) (calls : List ConsoleCall) :
    (p.transcribed calls).Shows Prod.fst p := by
  intro stuckIrqMs n
  induction p generalizing n calls with
  | done s => rfl
  | spiTransfer out next ih =>
    simp only [transcribed, NativeNode.exec, Option.bind_eq_bind, Option.map_bind]
    exact Option.bind_congr fun answer _ => ih answer.2 calls { n with hal := answer.1 }
  | delay _ next ih | delayMicroseconds _ next ih | yield next ih =>
    simp only [transcribed, NativeNode.exec, Option.bind_eq_bind, Option.map_bind]
    exact Option.bind_congr fun hal _ => ih calls { n with hal }
  | attachInterrupt cb next ih => exact ih calls { n with hal := n.hal.attachInterrupt cb }
  | detachInterrupt next ih => exact ih calls { n with hal := n.hal.detachInterrupt }
  | setCurrentTime t next ih => exact ih _ { n with rtc := t }
  | consoleWrite p next ih => exact ih _ { n with gConsoleOut := n.gConsoleOut ++ p }
  | consoleRead next ih => exact ih _ _ { n with gConsoleIn := n.gConsoleIn.tail }
  | digitalRead _ next ih | millis next ih | micros next ih | simMillis next ih
  | getCurrentTime next ih | consoleAvailable next ih | consolePeek next ih => exact ih _ _ n

theorem App.transcribed_shows (app : App κ σ) : App.Shows Prod.fst app.transcribed app where
  start := rfl
  setup s := (app.setup s.1).transcribed_shows s.2
  loop s := (app.loop s.1).transcribed_shows s.2
  isr cb s := (app.isr cb s.1).transcribed_shows s.2

def Outgoing.printed : Outgoing → List UInt8
  | .consoleOut bytes => bytes
  | _ => []

def Msg.typed (m : Msg) : List UInt8 := if m.kind = kConsoleIn then m.payload else []

/-- A console with nothing between its two ends: the bytes that wait to be read, and all
that was ever written. -/
structure Console where
  waiting : List UInt8 := []
  printed : List UInt8 := []
  deriving DecidableEq

namespace Console

/-- A call with the answer it ought to get. -/
def call (c : Console) : ConsoleCall → Option Console
  | .write p => some { c with printed := c.printed ++ p }
  | .read b => if b = c.waiting.head? then some { c with waiting := c.waiting.tail } else none
  | .available bytes => if bytes = c.waiting.length then some c else none
  | .peek b => if b = c.waiting.head? then some c else none

/-- Some bytes are typed, and then calls are made. -/
def turn (c : Console) (t : List UInt8 × List ConsoleCall) : Option Console :=
  run call { c with waiting := c.waiting ++ t.1 } t.2

variable {c c' : Console}

/-- What was waiting has been read or still is, and what was written is there. -/
theorem calls_convey {calls : List ConsoleCall} (ran : run call c calls = some c') :
    calls.filterMap ConsoleCall.read? ++ c'.waiting = c.waiting ∧
      c'.printed = c.printed ++ calls.flatMap ConsoleCall.written := by
  induction calls generalizing c with
  | nil =>
    obtain rfl := Option.some.inj ran
    exact ⟨rfl,(List.append_nil _).symm⟩
  | cons first rest ih =>
    obtain ⟨next,answered,ran⟩ := run_cons_eq_some.mp ran
    obtain ⟨left,written⟩ := ih ran
    cases first with
    | write p =>
      obtain rfl := Option.some.inj answered
      exact ⟨left,by rw [written, List.flatMap_cons, ← List.append_assoc]; rfl⟩
    | read b =>
      simp only [call, Option.ite_none_right_eq_some, Option.some.injEq] at answered
      obtain ⟨rfl,rfl⟩ := answered
      refine ⟨?_,written⟩
      rcases c with ⟨_ | ⟨byte,more⟩,printed⟩
      · exact left
      · exact congrArg (byte :: ·) left
    | available bytes | peek b =>
      simp only [call, Option.ite_none_right_eq_some, Option.some.injEq] at answered
      obtain ⟨_,rfl⟩ := answered
      exact ⟨left,written⟩

theorem turns_convey {turns : List (List UInt8 × List ConsoleCall)}
    (ran : run turn c turns = some c') :
    (turns.flatMap Prod.snd).filterMap ConsoleCall.read? ++ c'.waiting =
        c.waiting ++ turns.flatMap Prod.fst ∧
      c'.printed = c.printed ++ (turns.flatMap Prod.snd).flatMap ConsoleCall.written := by
  induction turns generalizing c with
  | nil =>
    obtain rfl := Option.some.inj ran
    simp
  | cons first rest ih =>
    obtain ⟨next,turned,ran⟩ := run_cons_eq_some.mp ran
    obtain ⟨left,written⟩ := ih ran
    obtain ⟨before,wrote⟩ := calls_convey turned
    constructor
    · rw [List.flatMap_cons, List.filterMap_append, List.append_assoc, left, ← List.append_assoc,
        before, List.flatMap_cons, List.append_assoc]
    · rw [written, wrote, List.flatMap_cons, List.flatMap_append, List.append_assoc]

end Console

namespace NativeNode

variable (app : App κ σ) {n n' d : NativeNode κ (σ × List ConsoleCall) stuckIrqMs}

def sentConsole {σ : Type} (n : NativeNode κ σ stuckIrqMs) : List UInt8 :=
  n.radio.toEngine.flatMap Outgoing.printed

/-- What the node's queues come to, with what has left them. -/
def console {σ : Type} (n : NativeNode κ σ stuckIrqMs) : Console :=
  ⟨n.gConsoleIn,n.sentConsole ++ n.gConsoleOut⟩

theorem sentConsole_of_evolves {σ : Type} {n n' : NativeNode κ σ stuckIrqMs}
    (evolves : Radio.Evolves n.radio n'.radio) : n'.sentConsole = n.sentConsole := by
  obtain ⟨sent,same⟩ := evolves.relays
  have silent : (sent.map Outgoing.frame).flatMap Outgoing.printed = [] := by
    simp [List.flatMap_map,Outgoing.printed]
  rw [sentConsole, same, List.flatMap_append, silent, List.append_nil]
  rfl

theorem drainTx_console {σ : Type} (n : NativeNode κ σ stuckIrqMs) :
    n.drainTx.console = n.console := by
  have quiet : n.drainTx.sentConsole = n.sentConsole := sentConsole_of_evolves (.drainTx .refl)
  rw [console, quiet]
  rfl

/-- The application's calls up to its return have the answers of a console. -/
theorem exec_calls (p : Prog κ σ) {earlier : List ConsoleCall} (sent : List UInt8)
    (ran : n.exec (p.transcribed earlier) = some n') : ∃ calls, n'.app.2 = earlier ++ calls ∧
      run Console.call ⟨n.gConsoleIn,sent ++ n.gConsoleOut⟩ calls =
        some ⟨n'.gConsoleIn,sent ++ n'.gConsoleOut⟩ := by
  induction p generalizing n earlier with
  | done t =>
    obtain rfl := Option.some.inj ran
    exact ⟨[],(List.append_nil _).symm,rfl⟩
  | spiTransfer out next ih =>
    simp only [Prog.transcribed, exec, Option.bind_eq_bind, Option.bind_eq_some_iff] at ran
    obtain ⟨⟨hal,inp⟩,_,ran⟩ := ran
    exact ih inp (n := { n with hal }) ran
  | delay _ next ih | delayMicroseconds _ next ih | yield next ih =>
    simp only [Prog.transcribed, exec, Option.bind_eq_bind, Option.bind_eq_some_iff] at ran
    obtain ⟨hal,_,ran⟩ := ran
    exact ih (n := { n with hal }) ran
  | setCurrentTime t next ih => exact ih (n := { n with rtc := t }) ran
  | attachInterrupt cb next ih => exact ih (n := { n with hal := n.hal.attachInterrupt cb }) ran
  | detachInterrupt next ih => exact ih (n := { n with hal := n.hal.detachInterrupt }) ran
  | consoleWrite p next ih =>
    obtain ⟨calls,made,answered⟩ := ih (n := { n with gConsoleOut := n.gConsoleOut ++ p }) ran
    refine ⟨.write p :: calls,by simp [made],run_cons_eq_some.mpr ⟨_,rfl,?_⟩⟩
    rw [List.append_assoc]
    exact answered
  | consoleRead next ih =>
    obtain ⟨calls,made,answered⟩ := ih _ (n := { n with gConsoleIn := n.gConsoleIn.tail }) ran
    exact ⟨.read n.gConsoleIn.head? :: calls,by simp [made],
      run_cons_eq_some.mpr ⟨_,if_pos rfl,answered⟩⟩
  | consoleAvailable next ih =>
    obtain ⟨calls,made,answered⟩ := ih _ ran
    exact ⟨.available n.gConsoleIn.length :: calls,by simp [made],
      run_cons_eq_some.mpr ⟨_,if_pos rfl,answered⟩⟩
  | consolePeek next ih =>
    obtain ⟨calls,made,answered⟩ := ih _ ran
    exact ⟨.peek n.gConsoleIn.head? :: calls,by simp [made],
      run_cons_eq_some.mpr ⟨_,if_pos rfl,answered⟩⟩
  | digitalRead _ next ih | millis next ih | micros next ih | simMillis next ih
  | getCurrentTime next ih => exact ih _ ran

/-- Between the one and the other the calls were made, and answered as a console answers. -/
structure Conveys (n n' : NativeNode κ (σ × List ConsoleCall) stuckIrqMs)
    (calls : List ConsoleCall) : Prop where
  made : n'.app.2 = n.app.2 ++ calls
  answered : run Console.call n.console calls = some n'.console

theorem Conveys.silent (made : n'.app = n.app) (same : n'.console = n.console) :
    Conveys n n' [] := ⟨by simp [made],by simp [same]⟩

theorem Conveys.trans {first later : List ConsoleCall} (begins : Conveys n d first)
    (goesOn : Conveys d n' later) : Conveys n n' (first ++ later) where
  made := by rw [goesOn.made, begins.made, List.append_assoc]
  answered := run_append_eq_some.mpr ⟨_,begins.answered,goesOn.answered⟩

theorem exec_conveys (p : Prog κ σ) (ran : n.exec (p.transcribed n.app.2) = some n') :
    ∃ calls, Conveys n n' calls := by
  obtain ⟨calls,made,answered⟩ := exec_calls p n.sentConsole ran
  refine ⟨calls,made,answered.trans ?_⟩
  rw [console, sentConsole_of_evolves (exec_evolves _ ran)]

theorem pass_conveys (passed : n.pass app.transcribed = some n') : ∃ calls, Conveys n n' calls := by
  obtain ⟨hal,m,last,begun,serviced,looped,rfl⟩ := pass_parts app.transcribed passed
  have start : Conveys n { n with hal } [] := .silent rfl <| by
    have quiet : NativeNode.sentConsole { n with hal } = n.sentConsole :=
      sentConsole_of_evolves (SimHal.beginTick_evolves begun)
    rw [console, console, quiet]
  have interrupt : ∃ calls, Conveys { n with hal } m calls := by
    obtain rfl | ⟨_,d,ran,rfl⟩ := servicePendingIrq_cases app.transcribed serviced
    · exact ⟨[],.silent rfl rfl⟩
    · obtain ⟨calls,conveys⟩ := exec_conveys
        (n := { n with hal := { hal with inIsr := true } }) _ ran
      exact ⟨calls,conveys.made,conveys.answered⟩
  obtain ⟨interrupted,before⟩ := interrupt
  obtain ⟨calls,conveys⟩ := exec_conveys _ looped
  exact ⟨_,start.trans (before.trans (conveys.trans (.silent rfl last.drainTx_console)))⟩

theorem tickTo_conveys (ticked : n.tickTo app.transcribed atMs = some n') :
    ∃ calls, Conveys n n' calls := by
  rw [tickTo_eq] at ticked
  refine repeated_rel (fun a b => ∃ calls, Conveys a b calls) (fun _ => ⟨[],.silent rfl rfl⟩) ?_ ?_ _
    ticked
  · rintro a b c ⟨_,first⟩ ⟨_,later⟩
    exact ⟨_,first.trans later⟩
  · intro a b turn
    obtain ⟨calls,conveys⟩ := pass_conveys app (n := { a with
      g_sim_millis := a.g_sim_millis + 1
      rtc := if (a.g_sim_millis + 1) % 1000 = 0 then a.rtc + 1 else a.rtc }) turn
    exact ⟨calls,conveys.made,conveys.answered⟩

/-- What has been printed is sent, and counts as printed all the same. -/
theorem flushConsole_console {σ : Type} (n : NativeNode κ σ stuckIrqMs) :
    n.flushConsole.console = n.console ∧ n.flushConsole.gConsoleOut = [] := by
  rw [flushConsole]
  split
  next empty => exact ⟨rfl,empty⟩
  next =>
    refine ⟨?_,rfl⟩
    have sent : (n.radio.send (.consoleOut n.gConsoleOut) rfl).toEngine.flatMap Outgoing.printed =
        n.sentConsole ++ n.gConsoleOut := by
      simp [Radio.send,sentConsole,Outgoing.printed]
    simp only [console, sentConsole]
    exact congrArg (Console.mk _) ((List.append_nil _).trans sent)

theorem handleTick_conveys {payload : TickPayload}
    (handled : n.handleTick app.transcribed payload = some n') :
    (∃ calls, Conveys n n' calls) ∧ n'.gConsoleOut = [] := by
  obtain ⟨_,last,ticked,passed,rfl⟩ := handleTick_parts app.transcribed handled
  obtain ⟨_,first⟩ := tickTo_conveys app ticked
  obtain ⟨_,later⟩ := pass_conveys app passed
  obtain ⟨flushed,empty⟩ := last.flushConsole_console
  refine ⟨⟨_,first.trans (later.trans (.silent ?_ ?_))⟩,empty⟩
  · have kept : last.flushConsole.app = last.app := by
      rw [flushConsole]
      split <;> rfl
    exact kept
  · rw [← flushed]
    simp [console,sentConsole,writeRadioStats,Radio.ack,Radio.send,onRadio,radio,Outgoing.printed]

/-- Only a tick and what is typed change what waits. -/
theorem handle_waiting {σ : Type} {app : App κ σ} {n n' : NativeNode κ σ stuckIrqMs}
    (other : m.kind ≠ kTick) (quiet : m.kind ≠ kConsoleIn) (handled : n.handle app m = some n') :
    n'.gConsoleIn = n.gConsoleIn := by
  rw [handle, if_neg quiet, if_neg other] at handled
  simp only [Option.bind_eq_bind] at handled
  have kept {taken : Option (Radio stuckIrqMs)}
      (moved : (taken.bind fun r => some (n.onRadio r)) = some n') :
      n'.gConsoleIn = n.gConsoleIn := by
    obtain ⟨_,_,same⟩ := Option.bind_eq_some_iff.mp moved
    exact Option.some.inj same ▸ rfl
  split at handled
  · exact kept handled
  split at handled
  · exact kept handled
  split at handled
  · exact kept handled
  split at handled <;> exact Option.some.inj handled ▸ rfl

/-- A message is a turn at the console, in which it is typed at or the firmware runs. -/
theorem step_conveys (high : n.running = true) (stepped : n.step app.transcribed m = some n') :
    ∃ calls, n'.app.2 = n.app.2 ++ calls ∧
      n.console.turn (m.typed,calls) = some n'.console := by
  by_cases consoleIn : m.kind = kConsoleIn
  · rw [step, if_pos high, handle, consoleIn] at stepped
    obtain rfl := Option.some.inj stepped
    refine ⟨[],(List.append_nil _).symm,?_⟩
    rw [Console.turn, Msg.typed, if_pos consoleIn]
    rfl
  -- Nothing has been typed, and what is left is to say which calls were made.
  suffices ran : ∃ calls, Conveys n n' calls by
    obtain ⟨calls,conveys⟩ := ran
    refine ⟨calls,conveys.made,?_⟩
    rw [Console.turn, Msg.typed, if_neg consoleIn, List.append_nil]
    exact conveys.answered
  by_cases kind : m.kind = kTick
  · cases asked : m.tick? with
    | none =>
      obtain rfl := Option.some.inj ((step_odd app.transcribed high kind asked).symm.trans stepped)
      exact ⟨[],.silent rfl rfl⟩
    | some payload =>
      rw [step_tick app.transcribed high asked] at stepped
      exact (handleTick_conveys app stepped).1
  rw [step, if_pos high] at stepped
  have waiting := handle_waiting kind consoleIn stepped
  rcases handle_cases app.transcribed stepped with ⟨_,_,r,_,performed,rfl⟩ | ticked | ⟨_,_,rfl⟩
  · refine ⟨[],.silent rfl ?_⟩
    have silent : r.toEngine = n.radio.toEngine := (Radio.perform_eq_some performed).2
    simp only [console, sentConsole]
    exact congrArg (fun sent =>
      Console.mk n.gConsoleIn (sent.flatMap Outgoing.printed ++ n.gConsoleOut)) silent
  · obtain ⟨_,ticked⟩ := ticked
    exact (handleTick_conveys app ticked).1
  · exact ⟨[],.silent rfl (congrArg (Console.mk · _) waiting)⟩

theorem boot_conveys (booted : boot app.transcribed stuckIrqMs = some n) :
    Console.turn {} ([],n.app.2) = some n.console := by
  simp only [boot, Option.bind_eq_bind, Option.bind_eq_some_iff, Option.some.injEq] at booted
  obtain ⟨set,ran,rfl⟩ := booted
  obtain ⟨calls,conveys⟩ := exec_conveys _ ran
  have made : set.drainTx.flushConsole.app.2 = calls := by
    have kept : set.drainTx.flushConsole.app = set.app := by
      rw [flushConsole]
      split <;> rfl
    rw [kept, conveys.made]
    rfl
  rw [made, set.drainTx.flushConsole_console.1, set.drainTx_console]
  exact conveys.answered

instance : DecidablePred Stops := fun m =>
  inferInstanceAs (Decidable (m.kind ≠ kTick ∧ m.kind ∉ nativeKinds))

theorem step_stops {σ : Type} {app : App κ σ} {n : NativeNode κ σ stuckIrqMs}
    (high : n.running = true) (stops : Stops m) :
    n.step app m = some { n with running := false } := by
  obtain ⟨tick,other⟩ := stops
  simp only [nativeKinds, List.mem_cons, List.not_mem_nil, or_false, not_or] at other
  rw [step, if_pos high, handle]
  simp [tick,other]

/-- The messages that are handled before the loop is left. -/
def served (ms : List Msg) : List Msg := ms.takeWhile (¬Stops ·)

/-- A run is the turns of the messages that are handled. -/
theorem run_conveys (high : n.running = true) (ran : run (step app.transcribed) n ms = some n') :
    ∃ turns : List (List UInt8 × List ConsoleCall),
      n'.app.2 = n.app.2 ++ turns.flatMap Prod.snd ∧
      turns.map Prod.fst = (served ms).map Msg.typed ∧
      run Console.turn n.console turns = some n'.console := by
  induction ms generalizing n with
  | nil =>
    obtain rfl := Option.some.inj ran
    exact ⟨[],(List.append_nil _).symm,rfl,rfl⟩
  | cons m rest ih =>
    obtain ⟨next,stepped,ran⟩ := run_cons_eq_some.mp ran
    by_cases stops : Stops m
    · obtain rfl := Option.some.inj ((step_stops high stops).symm.trans stepped)
      obtain rfl := (serves app.transcribed).run_down (by simp) ran
      refine ⟨[],(List.append_nil _).symm,?_,rfl⟩
      rw [served, List.takeWhile_cons_of_neg (by simpa using stops)]
      rfl
    · obtain ⟨calls,made,turned⟩ := step_conveys app high stepped
      have goes := ((serves app.transcribed).goesOn n m next high stepped).mpr stops
      obtain ⟨turns,rest_made,typed,rest_turned⟩ := ih goes ran
      refine ⟨(m.typed,calls) :: turns,?_,?_,run_cons_eq_some.mpr ⟨_,turned,rest_turned⟩⟩
      · rw [rest_made, made, List.flatMap_cons, List.append_assoc]
      · rw [List.map_cons, typed, served, served, List.takeWhile_cons_of_pos (by simpa using stops),
          List.map_cons]

/-- A tick that a node acknowledges leaves nothing printed behind. -/
theorem run_flushed {payload : TickPayload} (ran : run (step app.transcribed) n (ms ++ [m]) = some n')
    (asked : m.tick? = some payload) (goes : n'.running = true) : n'.gConsoleOut = [] := by
  obtain ⟨d,_,stepped⟩ := run_concat_eq_some.mp ran
  by_cases high : d.running = true
  · rw [step_tick app.transcribed high asked] at stepped
    exact (handleTick_conveys app stepped).2
  · obtain rfl := (serves app.transcribed).down d m n' high stepped
    exact absurd goes high

end NativeNode

open NativeNode

/-- Whatever a node is sent, its console is a queue each way: the firmware reads, peeks at and
counts the bytes that were typed, in their order and each once, and what it prints is sent
in its order, all of it by the time a tick is acknowledged. -/
theorem console_faithful (app : App κ σ) (ms : List Msg) {n : NativeNode κ σ stuckIrqMs}
    (ran : (boot app stuckIrqMs).bind (run (step app) · ms) = some n) :
    ∃ (first : List ConsoleCall) (turns : List (List UInt8 × List ConsoleCall)),
      let calls := first ++ turns.flatMap Prod.snd
      (boot app.transcribed stuckIrqMs).bind (run (step app.transcribed) · ms) =
        some (n.holding (n.app,calls)) ∧
      turns.map Prod.fst = (served ms).map Msg.typed ∧
      run Console.turn {} (([],first) :: turns) = some n.console ∧
      calls.filterMap ConsoleCall.read? ++ n.gConsoleIn = (served ms).flatMap Msg.typed ∧
      n.sentConsole ++ n.gConsoleOut = calls.flatMap ConsoleCall.written ∧
      ∀ pre m payload, ms = pre ++ [m] → m.tick? = some payload → n.running = true →
        n.gConsoleOut = [] := by
  have seen : ((boot app.transcribed stuckIrqMs).bind
      (run (step app.transcribed) · ms)).map (·.seen Prod.fst) =
      (boot app stuckIrqMs).bind (run (step app) · ms) := run_seen app.transcribed_shows ms
  rw [ran, Option.map_eq_some_iff] at seen
  obtain ⟨d,recorded,rfl⟩ := seen
  obtain ⟨start,booted,steps⟩ := Option.bind_eq_some_iff.mp recorded
  have begun := boot_conveys app booted
  obtain ⟨turns,made,typed,turned⟩ := run_conveys app (boot_running app.transcribed booted) steps
  have whole : run Console.turn {} (([],start.app.2) :: turns) = some d.console :=
    run_cons_eq_some.mpr ⟨_,begun,turned⟩
  obtain ⟨left,written⟩ := Console.turns_convey whole
  refine ⟨start.app.2,turns,?_,typed,whole,?_,?_,?_⟩
  · rw [← made]
    exact recorded
  · have same : (served ms).flatMap Msg.typed = turns.flatMap Prod.fst := by
      rw [List.flatMap_def, List.flatMap_def, typed]
    rw [same]
    exact left
  · exact written
  · rintro pre m payload rfl asked goes
    exact run_flushed app steps asked goes

/-- An application that answers each byte typed with its successor, and looks before it reads. -/
def echo : App Unit Unit where
  start := ()
  setup _ := .consoleWrite [7] (.done ())
  loop _ := .consoleAvailable fun bytes =>
    if bytes = 0 then .consoleRead fun _ => .done ()
    else .consolePeek fun _ => .consoleRead fun b => .consoleWrite [b.getD 0 + 1] (.done ())
  isr _ _ := .done ()

/-- Two bytes are typed and a third once the loop has been left. -/
theorem console_faithful_echo : ∃ (n : NativeNode Unit Unit 0) (calls : List ConsoleCall),
    (boot echo 0).bind (run (step echo) ·
      [⟨kConsoleIn,[1,2]⟩,⟨kTick,[0,0,0,1]⟩,⟨99,[]⟩,⟨kConsoleIn,[3]⟩]) = some n ∧
      calls.filterMap ConsoleCall.read? ++ n.gConsoleIn = [1,2] := by
  have runs : ((boot echo 0).bind (run (step echo) ·
      [⟨kConsoleIn,[1,2]⟩,⟨kTick,[0,0,0,1]⟩,⟨99,[]⟩,⟨kConsoleIn,[3]⟩])).isSome := by decide +kernel
  obtain ⟨n,ran⟩ := Option.isSome_iff_exists.mp runs
  obtain ⟨first,turns,_,_,_,read,_⟩ := console_faithful echo _ ran
  exact ⟨n,_,ran,read⟩

end Meshcore
