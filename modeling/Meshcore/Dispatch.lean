import Meshcore.Instants
import Meshcore.NativeNode

/-! The two dispatchers of the engine's messages, but for the tick. Each is what it makes
of the chip and whether it goes on: they part on the kinds the native bridge does not
know, and on a report of the air that carries no byte. -/
namespace Meshcore

open Runs

variable {κ σ : Type} {stuckIrqMs : UInt32}

/-- The kinds the native bridge has a case for, but for the tick. -/
def nativeKinds : List UInt8 := [kFrame,kTxDone,kChannelBusy,kConsoleIn,kOriginate]

/-- What a message other than a tick makes of a native node's chip. -/
def Chip.told (c : Chip) (m : Msg) : Chip :=
  if m.kind = kFrame then c.pushFrame m.payload
  else if m.kind = kTxDone then c.transmitFinished
  else if m.kind = kChannelBusy then
    c.setChannelBusy (match m.payload with
      | [] => false
      | b :: _ => decide (b ≠ 0))
  else c

/-- What each of the engine's events leads to, being told of one does. -/
theorem Chip.told_induction {motive : Chip → Prop} (c : Chip) (m : Msg)
    (frame : motive (c.pushFrame m.payload)) (txDone : motive c.transmitFinished)
    (air : ∀ busy, motive (c.setChannelBusy busy)) (other : motive c) : motive (c.told m) := by
  rw [told]
  split
  · exact frame
  split
  · exact txDone
  split
  · exact air _
  · exact other

theorem Radio.perform_always (r : Radio stuckIrqMs) {next : Chip} (other : op ≠ .drain)
    (stepped : r.chip.state.step op = some next) :
    ∃ r', r.perform op other = some r' ∧ r'.chip.state = next ∧ r'.toEngine = r.toEngine := by
  obtain ⟨r',performed⟩ := r.perform_of_step other stepped
  obtain ⟨taken,silent⟩ := Radio.perform_eq_some performed
  exact ⟨r',performed,Option.some.inj (taken.symm.trans stepped),silent⟩

/-- A message other than a tick moves the chip or stops the bridge; the clock stands
still and nothing is said. -/
theorem NativeNode.step_told (app : App κ σ) (n : NativeNode κ σ stuckIrqMs) (m : Msg)
    (running : n.running = true) (other : m.kind ≠ kTick) :
    ∃ n', n.step app m = some n' ∧ n'.chip = n.chip.told m ∧
      (n'.running = true ↔ m.kind ∈ nativeKinds) ∧
      n'.radio.toEngine = n.radio.toEngine ∧ n'.g_sim_millis = n.g_sim_millis := by
  have told {o : ChipOp} {next : Chip} (plain : o ≠ .drain) (stepped : n.chip.step o = some next) :
      ∃ r, n.radio.perform o plain = some r ∧ (n.onRadio r).chip = next ∧
        (n.onRadio r).radio.toEngine = n.radio.toEngine :=
    n.radio.perform_always plain stepped
  rw [step, if_pos running, handle, Chip.told]
  by_cases frame : m.kind = kFrame
  · obtain ⟨r,performed,chip,silent⟩ := told (o := .frame m.payload) (by simp) rfl
    refine ⟨n.onRadio r,?_,?_,iff_of_true running (frame ▸ by decide),silent,rfl⟩
    · rw [if_pos frame, Radio.pushFrame, performed]
      rfl
    · rw [if_pos frame, chip]
  rw [if_neg frame, if_neg frame]
  by_cases txDone : m.kind = kTxDone
  · obtain ⟨r,performed,chip,silent⟩ := told (o := .txDone) (by simp) rfl
    refine ⟨n.onRadio r,?_,?_,iff_of_true running (txDone ▸ by decide),silent,rfl⟩
    · rw [if_pos txDone, Radio.transmitFinished, performed]
      rfl
    · rw [if_pos txDone, chip]
  rw [if_neg txDone, if_neg txDone]
  by_cases air : m.kind = kChannelBusy
  · rw [if_pos air, if_pos air]
    have goes := iff_of_true running (air ▸ by decide : m.kind ∈ nativeKinds)
    cases m.payload with
    | nil =>
      obtain ⟨r,performed,chip,silent⟩ := told (o := .channelBusy false) (by simp) rfl
      exact ⟨n.onRadio r,by simp [Radio.setChannelBusy,performed],chip,goes,silent,rfl⟩
    | cons b rest =>
      obtain ⟨r,performed,chip,silent⟩ := told (o := .channelBusy (decide (b ≠ 0))) (by simp) rfl
      refine ⟨n.onRadio r,?_,chip,goes,silent,rfl⟩
      simp only [Radio.setChannelBusy, performed]
      rfl
  rw [if_neg air, if_neg air]
  by_cases consoleIn : m.kind = kConsoleIn
  · rw [if_pos consoleIn]
    exact ⟨_,rfl,rfl,iff_of_true running (consoleIn ▸ by decide),rfl,rfl⟩
  rw [if_neg consoleIn]
  by_cases originate : m.kind = kOriginate
  · rw [if_pos originate]
    exact ⟨n,rfl,rfl,iff_of_true running (originate ▸ by decide),rfl,rfl⟩
  rw [if_neg originate, if_neg other]
  refine ⟨_,rfl,rfl,?_,rfl,rfl⟩
  simp [nativeKinds,frame,txDone,air,consoleIn,originate]

theorem RadioServer.step_told (s : RadioServer stuckIrqMs) (m : Msg) (running : s.running = true)
    (other : m.kind ≠ kTick) :
    ∃ s', s.step (.bridge m) = some s' ∧
      s'.chip = (if m.kind = kChannelBusy ∧ m.payload = [] then s.chip else s.chip.told m) ∧
      s'.running = true ∧ s'.radio.toEngine = s.radio.toEngine ∧
      s'.gSimMillis = s.gSimMillis := by
  have told {o : ChipOp} {next : Chip} (plain : o ≠ .drain) (stepped : s.chip.step o = some next) :
      ∃ r, s.radio.perform o plain = some r ∧ RadioServer.chip { s with radio := r } = next ∧
        r.toEngine = s.radio.toEngine :=
    s.radio.perform_always plain stepped
  rw [step, if_pos running, serviceBridge, Chip.told]
  by_cases frame : m.kind = kFrame
  · obtain ⟨r,performed,chip,silent⟩ := told (o := .frame m.payload) (by simp) rfl
    refine ⟨{ s with radio := r },?_,?_,running,silent,rfl⟩
    · rw [if_pos frame, Radio.pushFrame, performed]
      rfl
    · rw [if_neg fun both => absurd (frame.symm.trans both.1) (by decide), if_pos frame, chip]
  rw [if_neg frame, if_neg frame]
  by_cases txDone : m.kind = kTxDone
  · obtain ⟨r,performed,chip,silent⟩ := told (o := .txDone) (by simp) rfl
    refine ⟨{ s with radio := r },?_,?_,running,silent,rfl⟩
    · rw [if_pos txDone, Radio.transmitFinished, performed]
      rfl
    · rw [if_neg fun both => absurd (txDone.symm.trans both.1) (by decide), if_pos txDone, chip]
  rw [if_neg txDone, if_neg txDone]
  by_cases air : m.kind = kChannelBusy
  · rw [if_pos air, if_pos air]
    cases payload : m.payload with
    | nil => exact ⟨s,rfl,(if_pos ⟨air,rfl⟩).symm,running,rfl,rfl⟩
    | cons b rest =>
      obtain ⟨r,performed,chip,silent⟩ := told (o := .channelBusy (decide (b ≠ 0))) (by simp) rfl
      refine ⟨{ s with radio := r },?_,?_,running,silent,rfl⟩
      · simp only [Radio.setChannelBusy, performed]
        rfl
      · rw [if_neg (by simp), chip]
  rw [if_neg air, if_neg other, if_neg air]
  exact ⟨s,rfl,(if_neg fun both => air both.1).symm,running,rfl,rfl⟩

/-- Saying that the air is quiet to a chip that takes it to be quiet changes nothing. -/
theorem Chip.setChannelBusy_false_iff {c : Chip} (idle : c.Idle) :
    c.setChannelBusy false = c ↔ c.channelBusy = false := by
  constructor
  · exact fun same => (congrArg Chip.channelBusy same).symm
  · intro quiet
    obtain ⟨preamble,header⟩ := Prod.mk.inj (idle.unlatched quiet)
    cases c
    simp_all [setChannelBusy]

/-- Two bridges over chips in one state treat a message other than a tick alike exactly
when the native one knows its kind, and it is no empty report to a chip that takes the
air to be busy. -/
theorem bridges_agree_iff (app : App κ σ) (n : NativeNode κ σ stuckIrqMs)
    (s : RadioServer stuckIrqMs) (m : Msg) (same : n.chip = s.chip) (native : n.running = true)
    (emulated : s.running = true) (other : m.kind ≠ kTick) :
    (∃ n' s', n.step app m = some n' ∧ s.step (.bridge m) = some s' ∧ n'.chip = s'.chip ∧
      n'.running = s'.running) ↔
    m.kind ∈ nativeKinds ∧
      ¬(m.kind = kChannelBusy ∧ m.payload = [] ∧ n.chip.channelBusy = true) := by
  have idle : n.chip.Idle := Chip.run_idle n.radio.chip.replay
  obtain ⟨n',handled,chip,running,_⟩ := n.step_told app m native other
  obtain ⟨s',serviced,chip',running',_⟩ := s.step_told m emulated other
  have agree : (∃ a b, n.step app m = some a ∧ s.step (.bridge m) = some b ∧ a.chip = b.chip ∧
      a.running = b.running) ↔ n'.chip = s'.chip ∧ n'.running = s'.running := by
    rw [handled, serviced]
    constructor
    · rintro ⟨a,b,first,second,both⟩
      obtain rfl := Option.some.inj first
      obtain rfl := Option.some.inj second
      exact both
    · exact fun both => ⟨n',s',rfl,rfl,both⟩
  rw [agree, chip, chip', running', running, ← same, and_comm]
  refine and_congr_right fun _ => ?_
  by_cases empty : m.kind = kChannelBusy ∧ m.payload = []
  · have quiet : n.chip.told m = n.chip.setChannelBusy false := by
      rw [Chip.told, empty.1, empty.2]
      rfl
    rw [if_pos empty, quiet, Chip.setChannelBusy_false_iff idle]
    simp [empty]
  · rw [if_neg empty]
    exact iff_of_true rfl fun all => empty ⟨all.1,all.2.1⟩

/-- An application that does nothing. -/
def App.inert : App Unit Unit := ⟨(),.done,.done,fun _ => .done⟩

/-- A native node before its first message. -/
def NativeNode.fresh (stuckIrqMs : UInt32) : NativeNode Unit Unit stuckIrqMs :=
  { hal := { radio := .init stuckIrqMs }, app := () }

theorem bridges_agree_frame : ∃ n' s', (NativeNode.fresh 0).step .inert ⟨kFrame,[0x41]⟩ = some n' ∧
    (RadioServer.init 0).step (.bridge ⟨kFrame,[0x41]⟩) = some s' ∧ n'.chip = s'.chip ∧
      n'.running = s'.running :=
  (bridges_agree_iff .inert (.fresh 0) (.init 0) ⟨kFrame,[0x41]⟩ rfl rfl rfl (by decide)).mpr
    ⟨by decide,by decide⟩

/-- A kind neither of them knows stops the native bridge and not the other. -/
theorem unknown_kind_stops_native : ∃ n' s',
    (NativeNode.fresh 0).step .inert ⟨0x00,[]⟩ = some n' ∧
    (RadioServer.init 0).step (.bridge ⟨0x00,[]⟩) = some s' ∧ n'.running = false ∧
      s'.running = true :=
  ⟨_,_,rfl,rfl,rfl,rfl⟩

end Meshcore
