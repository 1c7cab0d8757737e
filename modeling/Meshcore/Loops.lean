import Meshcore.Acknowledgement

/-! The milliseconds at which a native application runs. A wrapper notes the clock at each
entry of `loop()`, and is otherwise the application it wraps: a tick enters it at every
millisecond the clock has to go, and once more at the one it ends at. -/
namespace Meshcore

open Checked

variable {κ σ τ : Type} {stuckIrqMs : UInt32}

/-- The milliseconds at which a tick makes a turn: those the clock has to go, and the
one it ends at. -/
def turnsTo (clock target : UInt32) : List ℕ :=
  List.range' (clock.toNat + 1) (target.toNat - clock.toNat) ++ [max clock.toNat target.toNat]

/-- The same calls, with something made of the state they end in. -/
def Prog.map (f : σ → τ) : Prog κ σ → Prog κ τ
  | .done s => .done (f s)
  | .spiTransfer out next => .spiTransfer out fun inp => (next inp).map f
  | .digitalRead pin next => .digitalRead pin fun level => (next level).map f
  | .attachInterrupt cb next => .attachInterrupt cb (next.map f)
  | .detachInterrupt next => .detachInterrupt (next.map f)
  | .delay ms next => .delay ms (next.map f)
  | .delayMicroseconds us next => .delayMicroseconds us (next.map f)
  | .yield next => .yield (next.map f)
  | .millis next => .millis fun t => (next t).map f
  | .micros next => .micros fun t => (next t).map f
  | .simMillis next => .simMillis fun t => (next t).map f
  | .getCurrentTime next => .getCurrentTime fun t => (next t).map f
  | .setCurrentTime t next => .setCurrentTime t (next.map f)
  | .consoleWrite p next => .consoleWrite p (next.map f)
  | .consoleRead next => .consoleRead fun b => (next b).map f
  | .consoleAvailable next => .consoleAvailable fun n => (next n).map f
  | .consolePeek next => .consolePeek fun b => (next b).map f

/-- The application, noting the clock whenever its `loop()` is entered. -/
def App.logged (app : App κ σ) : App κ (σ × List ℕ) where
  start := (app.start,[])
  setup s := (app.setup s.1).map fun t => (t,s.2)
  loop s := .simMillis fun now => (app.loop s.1).map fun t => (t,s.2 ++ [now.toNat])
  isr cb s := (app.isr cb s.1).map fun t => (t,s.2)

namespace NativeNode

/-- The node with another state of its application. -/
def holding (n : NativeNode κ σ stuckIrqMs) (app : τ) : NativeNode κ τ stuckIrqMs :=
  { hal := n.hal, app, g_sim_millis := n.g_sim_millis, rtc := n.rtc, gConsoleIn := n.gConsoleIn
    gConsoleOut := n.gConsoleOut, running := n.running }

/-- The node, with notes. -/
def noting (n : NativeNode κ σ stuckIrqMs) (notes : List ℕ) :
    NativeNode κ (σ × List ℕ) stuckIrqMs := n.holding (n.app,notes)

/-- The same calls have the same answers and the same effects. -/
theorem exec_map (p : Prog κ σ) (f : σ → τ) (n : NativeNode κ σ stuckIrqMs) (t : τ) :
    (n.holding t).exec (p.map f) = (n.exec p).map fun d => d.holding (f d.app) := by
  induction p generalizing n with
  | done s => rfl
  | spiTransfer out next ih =>
    have hal : (n.holding t).hal = n.hal := rfl
    simp only [Prog.map, exec, Option.bind_eq_bind, hal]
    cases n.hal.spiTransfer out with
    | none => rfl
    | some answer => exact ih answer.2 { n with hal := answer.1 }
  | delay ms next ih =>
    have hal : (n.holding t).hal = n.hal := rfl
    simp only [Prog.map, exec, Option.bind_eq_bind, hal]
    cases n.hal.delay ms with
    | none => rfl
    | some after => exact ih { n with hal := after }
  | delayMicroseconds us next ih =>
    have hal : (n.holding t).hal = n.hal := rfl
    simp only [Prog.map, exec, Option.bind_eq_bind, hal]
    cases n.hal.delayMicroseconds us with
    | none => rfl
    | some after => exact ih { n with hal := after }
  | yield next ih =>
    have hal : (n.holding t).hal = n.hal := rfl
    simp only [Prog.map, exec, Option.bind_eq_bind, hal]
    cases n.hal.yield with
    | none => rfl
    | some after => exact ih { n with hal := after }
  | attachInterrupt cb next ih => exact ih { n with hal := n.hal.attachInterrupt cb }
  | detachInterrupt next ih => exact ih { n with hal := n.hal.detachInterrupt }
  | setCurrentTime t next ih => exact ih { n with rtc := t }
  | consoleWrite p next ih => exact ih { n with gConsoleOut := n.gConsoleOut ++ p }
  | consoleRead next ih => exact ih _ { n with gConsoleIn := n.gConsoleIn.tail }
  | digitalRead _ next ih | millis next ih | micros next ih | simMillis next ih
  | getCurrentTime next ih | consoleAvailable next ih | consolePeek next ih => exact ih _ n

/-! Around the calls of the application a node goes on alike, whatever is in its state. -/

theorem beginTick_holding (view : τ → σ) (n : NativeNode κ τ stuckIrqMs) :
    n.beginTick.map (fun d => d.holding (view d.app)) = (n.holding (view n.app)).beginTick := by
  simp only [beginTick, Option.bind_eq_bind, Option.map_bind]
  rfl

theorem flushConsole_holding (view : τ → σ) (n : NativeNode κ τ stuckIrqMs) :
    n.flushConsole.holding (view n.flushConsole.app) =
      (n.holding (view n.app)).flushConsole := by
  have out : (n.holding (view n.app)).gConsoleOut = n.gConsoleOut := rfl
  rw [flushConsole, flushConsole, out]
  split <;> rfl

theorem servicePendingIrq_holding (view : τ → σ) {app : App κ τ} {plain : App κ σ}
    (isr : ∀ cb (n : NativeNode κ τ stuckIrqMs),
      (n.exec (app.isr cb n.app)).map (fun d => d.holding (view d.app)) =
        (n.holding (view n.app)).exec (plain.isr cb (view n.app)))
    (n : NativeNode κ τ stuckIrqMs) :
    (n.servicePendingIrq app).map (fun d => d.holding (view d.app)) =
      (n.holding (view n.app)).servicePendingIrq plain := by
  have hal : (n.holding (view n.app)).hal = n.hal := rfl
  simp only [servicePendingIrq, hal]
  cases n.hal.pendingIsr with
  | none => rfl
  | some cb =>
    have ran := isr cb { n with hal := { n.hal with inIsr := true } }
    simp only [Option.bind_eq_bind, Option.map_bind]
    refine Eq.trans ?_ (congrArg (Option.bind · _) ran)
    rw [Option.bind_map]
    rfl

variable (app : App κ σ)

theorem servicePendingIrq_noting (n : NativeNode κ σ stuckIrqMs) (notes : List ℕ) :
    (n.noting notes).servicePendingIrq app.logged =
      (n.servicePendingIrq app).map fun d => d.noting notes := by
  refine (servicePendingIrq_holding (fun s => (s,notes)) (fun cb m => ?_) n).symm
  exact (exec_map (app.isr cb m.app) (fun s => (s,notes)) m (m.app,notes)).symm

/-- A pass is a call of `loop()` at the clock. -/
theorem pass_noting (n : NativeNode κ σ stuckIrqMs) (notes : List ℕ) :
    (n.noting notes).pass app.logged =
      (n.pass app).map fun d => d.noting (notes ++ [n.g_sim_millis.toNat]) := by
  have begun : (n.noting notes).beginTick = n.beginTick.map fun d => d.noting notes :=
    (beginTick_holding (fun s => (s,notes)) n).symm
  simp only [pass, Option.bind_eq_bind, begun]
  cases starts : n.beginTick with
  | none => rfl
  | some a =>
    simp only [Option.map_some, Option.bind_some, servicePendingIrq_noting]
    cases serviced : a.servicePendingIrq app with
    | none => rfl
    | some b =>
      simp only [Option.map_some, Option.bind_some]
      have clock : b.g_sim_millis = n.g_sim_millis := by
        have before := congrArg Prod.fst (servicePendingIrq_network app serviced)
        simp only [beginTick, Option.bind_eq_bind, Option.bind_eq_some_iff,
          Option.some.injEq] at starts
        obtain ⟨_,_,rfl⟩ := starts
        exact before
      have ran := exec_map (app.loop b.app) (fun t => (t,notes ++ [n.g_sim_millis.toNat])) b
        (b.app,notes)
      have looped : (b.noting notes).exec (app.logged.loop (b.noting notes).app) =
          (b.exec (app.loop b.app)).map fun d =>
            d.noting (notes ++ [n.g_sim_millis.toNat]) := by
        rw [← clock] at ran ⊢
        exact ran
      rw [looped]
      cases b.exec (app.loop b.app) <;> rfl

theorem tickOnce_noting (n : NativeNode κ σ stuckIrqMs) (notes : List ℕ) :
    (n.noting notes).tickOnce app.logged =
      (n.tickOnce app).map fun d => d.noting (notes ++ [(n.g_sim_millis + 1).toNat]) :=
  pass_noting app { n with
    g_sim_millis := n.g_sim_millis + 1
    rtc := if (n.g_sim_millis + 1) % 1000 = 0 then n.rtc + 1 else n.rtc } notes

theorem repeated_noting (turns : ℕ) (n : NativeNode κ σ stuckIrqMs) (notes : List ℕ)
    (fits : n.g_sim_millis.toNat + turns < UInt32.size) :
    repeated (tickOnce app.logged) turns (n.noting notes) =
      (repeated (tickOnce app) turns n).map fun d =>
        d.noting (notes ++ List.range' (n.g_sim_millis.toNat + 1) turns) := by
  induction turns generalizing n notes with
  | zero => simp [repeated]
  | succ turns ih =>
    have next : (n.g_sim_millis + 1).toNat = n.g_sim_millis.toNat + 1 := by
      rw [UInt32.size] at fits
      rw [UInt32.toNat_add, UInt32.toNat_one]
      omega
    simp only [repeated, tickOnce_noting, Option.bind_map, Option.map_bind]
    refine Option.bind_congr fun d ticked => ?_
    have clock : d.g_sim_millis.toNat = n.g_sim_millis.toNat + 1 := by
      rw [tickOnce_clock app ticked, next]
    have rest := ih d (notes ++ [(n.g_sim_millis + 1).toNat]) (by omega)
    rw [Function.comp, rest, clock, next, List.append_assoc]
    rfl

/-- The milliseconds at which a tick makes a turn. -/
theorem handleTick_noting (n : NativeNode κ σ stuckIrqMs) (notes : List ℕ) (payload : TickPayload) :
    (n.noting notes).handleTick app.logged payload =
      (n.handleTick app payload).map fun d =>
        d.noting (notes ++ turnsTo n.g_sim_millis (tickTarget payload)) := by
  have target := (tickTarget payload).toNat_lt_size
  have clock := n.g_sim_millis.toNat_lt_size
  have caught : (n.noting notes).tickTo app.logged (tickTarget payload) =
      (n.tickTo app (tickTarget payload)).map fun d => d.noting (notes ++
        List.range' (n.g_sim_millis.toNat + 1)
          ((tickTarget payload).toNat - n.g_sim_millis.toNat)) := by
    have same : (n.noting notes).g_sim_millis = n.g_sim_millis := rfl
    rw [tickTo_eq, tickTo_eq, same]
    exact repeated_noting app _ n notes (by omega)
  have flushed (d : NativeNode κ σ stuckIrqMs) (more : List ℕ) :
      (d.noting more).flushConsole = d.flushConsole.noting more :=
    (flushConsole_holding (fun s => (s,more)) d).symm
  simp only [handleTick, Option.bind_eq_bind, caught, Option.bind_map, Option.map_bind]
  refine Option.bind_congr fun d ticked => ?_
  simp only [Function.comp, pass_noting, Option.bind_map, Option.map_bind]
  refine Option.bind_congr fun last _ => ?_
  rw [tickTo_clock app ticked, List.append_assoc]
  simp only [flushed]
  rfl

/-- In one tick or in two, `loop()` is entered at the same milliseconds. -/
def LoopsAlike (n : NativeNode κ σ stuckIrqMs) (first last : TickPayload) : Prop :=
  ∃ whole middle sliced, (n.noting []).handleTick app.logged last = some whole ∧
    (n.noting []).handleTick app.logged first = some middle ∧
    middle.handleTick app.logged last = some sliced ∧ sliced.app.2 = whole.app.2

/-- A tick enters `loop()` once for each millisecond it moves the clock by. -/
def LoopsOnce (n : NativeNode κ σ stuckIrqMs) (last : TickPayload) : Prop :=
  ∃ whole, (n.noting []).handleTick app.logged last = some whole ∧ whole.app.2 =
    List.range' (n.g_sim_millis.toNat + 1) ((tickTarget last).toNat - n.g_sim_millis.toNat)

theorem not_loopsOnce (n : NativeNode κ σ stuckIrqMs) (last : TickPayload) :
    ¬n.LoopsOnce app last := by
  rintro ⟨whole,handled,once⟩
  rw [handleTick_noting] at handled
  obtain ⟨d,_,rfl⟩ := Option.map_eq_some_iff.mp handled
  have lengths := congrArg List.length once
  simp [noting,holding,turnsTo] at lengths

theorem not_loopsAlike (n : NativeNode κ σ stuckIrqMs) (first last : TickPayload) :
    ¬n.LoopsAlike app first last := by
  rintro ⟨whole,middle,sliced,handled,begun,ended,alike⟩
  rw [handleTick_noting] at handled begun
  obtain ⟨d,_,rfl⟩ := Option.map_eq_some_iff.mp handled
  obtain ⟨e,reached,rfl⟩ := Option.map_eq_some_iff.mp begun
  rw [handleTick_noting] at ended
  obtain ⟨f,_,rfl⟩ := Option.map_eq_some_iff.mp ended
  have clock := (handleTick_answers app reached).2.1
  have lengths := congrArg List.length alike
  simp only [noting, holding, turnsTo, clock, List.nil_append, List.length_append,
    List.length_range', List.length_singleton] at lengths
  omega

end NativeNode

end Meshcore
