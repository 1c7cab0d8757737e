import Meshcore.Loops

/-! Instruments on an application. A program that does to a node what another does, and
keeps something more in the state of the application, may stand in for it: the node
that is seen, the rest of that state left out, goes through the same messages alike. -/
namespace Meshcore

open Checked Runs

variable {κ σ τ : Type} {stuckIrqMs : UInt32}

/-- The node, of its application's state what is in view. -/
def NativeNode.seen (view : τ → σ) (n : NativeNode κ τ stuckIrqMs) : NativeNode κ σ stuckIrqMs :=
  n.holding (view n.app)

/-- The one program does to a node what the other does to the node as it is seen. -/
def Prog.Shows (view : τ → σ) (p : Prog κ τ) (plain : Prog κ σ) : Prop :=
  ∀ {stuckIrqMs : UInt32} (n : NativeNode κ τ stuckIrqMs),
    (n.exec p).map (·.seen view) = (n.seen view).exec plain

structure App.Shows (view : τ → σ) (app : App κ τ) (plain : App κ σ) : Prop where
  start : view app.start = plain.start
  setup : ∀ s, (app.setup s).Shows view (plain.setup (view s))
  loop : ∀ s, (app.loop s).Shows view (plain.loop (view s))
  isr : ∀ cb s, (app.isr cb s).Shows view (plain.isr cb (view s))

namespace NativeNode

variable {view : τ → σ} {app : App κ τ} {plain : App κ σ} (shows : App.Shows view app plain)
include shows

theorem servicePendingIrq_seen (n : NativeNode κ τ stuckIrqMs) :
    (n.servicePendingIrq app).map (·.seen view) = (n.seen view).servicePendingIrq plain :=
  servicePendingIrq_holding view (fun cb m => shows.isr cb m.app m) n

theorem pass_seen (n : NativeNode κ τ stuckIrqMs) :
    (n.pass app).map (·.seen view) = (n.seen view).pass plain := by
  have begun : n.beginTick.map (·.seen view) = (n.seen view).beginTick := beginTick_holding view n
  simp only [pass, Option.bind_eq_bind, ← begun, Option.bind_map, Option.map_bind]
  refine Option.bind_congr fun a _ => ?_
  simp only [Function.comp, ← servicePendingIrq_seen shows, Option.bind_map, Option.map_bind]
  refine Option.bind_congr fun b _ => ?_
  have looped := shows.loop b.app b
  refine Eq.trans ?_ (congrArg (Option.bind · _) looped)
  rw [Option.bind_map]
  rfl

theorem tickTo_seen (n : NativeNode κ τ stuckIrqMs) (atMs : UInt32) :
    (n.tickTo app atMs).map (·.seen view) = (n.seen view).tickTo plain atMs := by
  rw [tickTo_eq, tickTo_eq]
  refine repeated_map _ (fun s => ?_) _ n
  exact pass_seen shows { s with
    g_sim_millis := s.g_sim_millis + 1
    rtc := if (s.g_sim_millis + 1) % 1000 = 0 then s.rtc + 1 else s.rtc }

omit shows in
theorem flushConsole_seen (n : NativeNode κ τ stuckIrqMs) :
    n.flushConsole.seen view = (n.seen view).flushConsole := flushConsole_holding view n

theorem handleTick_seen (n : NativeNode κ τ stuckIrqMs) (payload : TickPayload) :
    (n.handleTick app payload).map (·.seen view) = (n.seen view).handleTick plain payload := by
  simp only [handleTick, Option.bind_eq_bind, ← tickTo_seen shows, Option.bind_map, Option.map_bind]
  refine Option.bind_congr fun a _ => ?_
  simp only [Function.comp, ← pass_seen shows, Option.bind_map, Option.map_bind]
  refine Option.bind_congr fun b _ => ?_
  simp only [← flushConsole_seen]
  rfl

theorem step_seen (n : NativeNode κ τ stuckIrqMs) (m : Msg) :
    (n.step app m).map (·.seen view) = (n.seen view).step plain m := by
  have running : (n.seen view).running = n.running := rfl
  simp only [step, handle, running]
  split
  case isFalse => rfl
  split
  case isTrue => simp only [Option.bind_eq_bind, Option.map_bind]; rfl
  split
  case isTrue => simp only [Option.bind_eq_bind, Option.map_bind]; rfl
  split
  case isTrue => simp only [Option.bind_eq_bind, Option.map_bind]; rfl
  split
  case isTrue => rfl
  split
  case isTrue => rfl
  split
  case isTrue =>
    split
    · exact handleTick_seen shows n _
    · rfl
  case isFalse => rfl

theorem boot_seen : (boot app stuckIrqMs).map (·.seen view) = boot plain stuckIrqMs := by
  let linked : NativeNode κ τ stuckIrqMs := { hal := { radio := .init stuckIrqMs }, app := app.start }
  have start : linked.seen view = { hal := { radio := .init stuckIrqMs }, app := plain.start } := by
    rw [← shows.start]
    rfl
  have ran := shows.setup app.start linked
  rw [start, shows.start] at ran
  simp only [boot, Option.bind_eq_bind, Option.map_bind, ← ran, Option.bind_map]
  refine Option.bind_congr fun a _ => ?_
  simp only [Function.comp, Option.map_some, flushConsole_seen]
  rfl

/-- The instruments change nothing that is seen, from the start on. -/
theorem run_seen (ms : List Msg) :
    ((boot app stuckIrqMs).bind (run (step app) · ms)).map (·.seen view) =
      (boot plain stuckIrqMs).bind (run (step plain) · ms) := by
  rw [← boot_seen shows, Option.bind_map, Option.map_bind]
  exact Option.bind_congr fun n _ => run_map _ (step_seen shows) ms n

end NativeNode
end Meshcore
