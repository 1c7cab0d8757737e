import Meshcore.NativeNode

/-! What a bridge sends the engine against what its chip was told to transmit, over
every run of either bridge. -/
namespace Meshcore

open Runs

/-- The radios a run of either bridge can end with. -/
inductive Bridged {stuckIrqMs : UInt32} : Radio stuckIrqMs → Prop where
  | radioserver {s : RadioServer stuckIrqMs} (events : List RadioServer.Event)
    (ran : run RadioServer.step (.init stuckIrqMs) events = some s) : Bridged s.radio
  | native {κ σ : Type} {booted n : NativeNode κ σ stuckIrqMs} (app : App κ σ) (ms : List Msg)
    (boots : NativeNode.boot app stuckIrqMs = some booted)
    (ran : run (NativeNode.step app) booted ms = some n) : Bridged n.radio

/-- Once nothing is pending, a bridge has sent exactly the payloads its `SetTx`
commands latched, in order, if and only if none of them found another pending. -/
theorem transmissions_reach_engine_iff {stuckIrqMs : UInt32} (r : Radio stuckIrqMs)
    (reached : Bridged r) (drained : r.chip.state.hasPendingTx = false) :
    frames r.toEngine = r.latched ↔ r.NoOverrun := by
  cases reached with
  | radioserver events ran => exact Radio.frames_eq_latched_iff _ drained
  | native app ms boots ran => exact Radio.frames_eq_latched_iff _ drained

/-- One command as the emulator clocks it. -/
def clocked (cmd : List UInt8) : List RadioServer.Event :=
  .qemu .csAssert :: cmd.map (fun b => .qemu (.xfer b)) ++ [.qemu .csRelease]

theorem transmissions_reach_engine_once : ∃ s : RadioServer 0,
    run RadioServer.step (.init 0) (clocked [0x83,0x00,0x00,0x00] ++
      [.bridge ⟨kTick,[0x00,0x00,0x00,0x01]⟩]) = some s ∧
    (frames s.radio.toEngine = s.radio.latched ↔ s.radio.NoOverrun) := by
  have reached : (run RadioServer.step (.init 0) (clocked [0x83,0x00,0x00,0x00] ++
      [.bridge ⟨kTick,[0x00,0x00,0x00,0x01]⟩])).map (fun s => s.radio.chip.state.hasPendingTx) =
        some false := by
    decide +kernel
  obtain ⟨s,ran,drained⟩ := Option.map_eq_some_iff.mp reached
  exact ⟨s,ran,transmissions_reach_engine_iff s.radio (.radioserver _ ran) drained⟩

/-- Two transmissions between two ticks. -/
theorem second_transmission_replaces : ¬∀ (stuckIrqMs : UInt32) (r : Radio stuckIrqMs),
    Bridged r → r.chip.state.hasPendingTx = false → frames r.toEngine = r.latched := by
  intro complete
  let events := clocked [0x8C,0x00,0x10,0x00,0x01,0x00,0x00] ++ clocked [0x0E,0x00,0x41] ++
    clocked [0x83,0x00,0x00,0x00] ++ clocked [0x0E,0x00,0x42] ++ clocked [0x83,0x00,0x00,0x00] ++
    [.bridge ⟨kTick,[0x00,0x00,0x00,0x01]⟩]
  have reached : (run RadioServer.step (.init 0) events).map (fun s =>
      (s.radio.chip.state.hasPendingTx,frames s.radio.toEngine,s.radio.latched)) =
        some (false,[[0x42]],[[0x41],[0x42]]) := by
    decide +kernel
  obtain ⟨s,ran,rest⟩ := Option.map_eq_some_iff.mp reached
  obtain ⟨drained,sent,latched⟩ : s.radio.chip.state.hasPendingTx = false ∧ _ ∧ _ := by
    simpa using rest
  have same := complete 0 s.radio (.radioserver events ran) drained
  rw [sent, latched] at same
  simp at same

end Meshcore
