import Meshcore.Slicing

/-! What the server reports of the front-end module. The messages of the emulator alone say
how its line stood when the last transmission was started; the chip, which clocks the
bytes, evaluates some of them early and throws others away, is shown to agree. -/
namespace Meshcore

open Checked Runs

variable {stuckIrqMs : UInt32}

namespace Chip

/-- The module during the last transmission, if there has been one. -/
def lastFem (c : Chip) : Option Bool := if c.hasTransmitted then some c.femAtTx else none

/-- What the emulator's side of the chip is: the line of the module, and the bus. -/
structure Wires where
  femEnabled : Bool
  lastFem : Option Bool
  txn : List UInt8
  inTxn : Bool

def wires (c : Chip) : Wires := ⟨c.femEnabled,c.lastFem,c.txn,c.inTxn⟩

/-- A command, of which only `SetTx` looks at the line. -/
def Wires.execute (w : Wires) (cmd : List UInt8) : Wires :=
  { w with lastFem := if cmd.head? = some Opcode.setTx.byte then some w.femEnabled else w.lastFem }

def Wires.after (w : Wires) : ChipOp → Wires
  | .spiTransfer out => w.execute out
  | .csAssert => { w with txn := [], inTxn := true }
  | .xfer out => { w with txn := (if w.inTxn then w.txn else []) ++ [out], inTxn := true }
  | .csRelease => { w.execute w.txn with txn := [], inTxn := false }
  | .setFem on => { w with femEnabled := on }
  | .frame _ | .tick _ | .txDone | .channelBusy _ | .drain => w

theorem opcode?_setTx (cmd : List UInt8) :
    opcode? (arg cmd 0) = some .setTx ↔ cmd.head? = some Opcode.setTx.byte := by
  cases cmd with
  | nil => decide
  | cons b rest =>
    simp only [arg, List.getD_cons_zero, List.head?_cons, Option.some.injEq]
    constructor
    · intro found
      have same := List.find?_some found
      exact (eq_of_beq same).symm
    · rintro rfl
      exact opcode?_byte .setTx

/-- Every opcode, once. -/
theorem act_wires {c d : Chip} (acted : c.act cmd = some d) : d.wires = c.wires.execute cmd := by
  have setTx := opcode?_setTx cmd
  have other (op : opcode? (arg cmd 0) ≠ some .setTx) : c.wires.execute cmd = c.wires := by
    rw [Wires.execute, if_neg (mt setTx.mpr op)]
  rw [act] at acted
  cases op : opcode? (arg cmd 0) with
  | none =>
    rw [other (by simp [op])]
    obtain rfl : c = d := by simpa [op] using acted
    rfl
  | some o =>
    cases o
    case setTx =>
      simp only [op] at acted
      obtain ⟨_,_,rfl⟩ := startTx_eq_some.mp acted
      rw [Wires.execute, if_pos (setTx.mp op)]
      rfl
    all_goals
      rw [other (by simp [op])]
      simp only [op] at acted
      obtain rfl := Option.some.inj acted
    -- A command that is too short does nothing; the rest move other fields.
    all_goals try split
    all_goals simp only [wires, lastFem]
    all_goals rfl

/-- What is done to the chip moves the wires as the operation alone says. -/
theorem step_wires {c next : Chip} (stepped : c.step op = some next) :
    next.wires = c.wires.after op := by
  cases op with
  | spiTransfer out =>
    rw [step_spiTransfer] at stepped
    split at stepped
    next empty => rw [empty, ← Option.some.inj stepped]; rfl
    next => exact act_wires stepped
  | xfer out =>
    have pushed : (c.pushByte out).wires = c.wires.after (.xfer out) := by
      cases opened : c.inTxn <;> simp [pushByte,beginTransaction,wires,Wires.after,lastFem,opened]
    have byte := c.transferByte_eq out
    simp only at byte
    rw [step, byte] at stepped
    obtain rfl := Option.some.inj stepped
    rw [← pushed]
    dsimp only
    split
    · rw [evaluated]
      split <;> rfl
    · rfl
  | csRelease =>
    rw [step, endTransaction_eq] at stepped
    split at stepped
    next idle =>
      obtain rfl := Option.some.inj stepped
      have other : c.txn.head? ≠ some Opcode.setTx.byte := by
        rcases idle with empty | data
        · simp [empty]
        · intro setTx
          rw [returnsData, (opcode?_setTx c.txn).mpr setTx] at data
          cases data
      rw [Wires.after, Wires.execute, if_neg (by exact other)]
      rfl
    next =>
      obtain ⟨d,acted,rfl⟩ := Option.map_eq_some_iff.mp stepped
      have executed := act_wires acted
      have first : (c.txn.take 260).head? = c.txn.head? := by cases c.txn <;> rfl
      rw [Wires.execute, first] at executed
      have line := congrArg Wires.femEnabled executed
      have last := congrArg Wires.lastFem executed
      exact congrArg₂ (fun line last => Wires.mk line last [] false) line last
  | tick nowMs =>
    exact tick_keeps wires (fun _ _ => rfl) (fun _ => rfl) (fun _ _ _ _ => rfl) stepped
  | txDone =>
    obtain rfl := Option.some.inj stepped
    exact transmitFinished_keeps wires (fun _ _ _ => rfl) c
  | csAssert | setFem _ | frame _ | channelBusy _ | drain =>
    exact Option.some.inj stepped ▸ rfl

end Chip

/-- What the messages of the emulator come to: the line, the bytes clocked since the chip was
last selected or released, and how the line stood when the last `SetTx` was complete. -/
structure FrontEnd where
  line : Bool := false
  clocked : List UInt8 := []
  last : Option Bool := none
  running : Bool := true

namespace FrontEnd

def heard (f : FrontEnd) : QemuMsg → FrontEnd
  | .csAssert => { f with clocked := [] }
  | .xfer out => { f with clocked := f.clocked ++ [out] }
  | .csRelease =>
    { f with
      last := if f.clocked.head? = some Opcode.setTx.byte then some f.line else f.last
      clocked := [] }
  | .setFem level => { f with line := decide (level ≠ 0) }
  | .unknown _ => { f with running := false }
  | .readBusy | .readIrq => f

def after (f : FrontEnd) : RadioServer.Event → FrontEnd
  | .qemu m => if f.running then f.heard m else f
  | .bridge _ => f

/-- The byte that stands for the last transmission. -/
def reported (f : FrontEnd) : UInt8 :=
  match f.last with
  | none => 0
  | some true => 2
  | some false => 1

end FrontEnd

/-- The messages so far, from the start. -/
def frontEnd (events : List RadioServer.Event) : FrontEnd := events.foldl FrontEnd.after {}

namespace RadioServer

/-- The server's chip is as the messages have it. -/
structure Agrees (s : RadioServer stuckIrqMs) (f : FrontEnd) : Prop where
  running : s.running = f.running
  line : s.chip.femEnabled = f.line
  last : s.chip.lastFem = f.last
  clocked : s.chip.txn = f.clocked
  closed : s.chip.inTxn = false → s.chip.txn = []

variable {s s' : RadioServer stuckIrqMs} {f : FrontEnd}

theorem Agrees.of_wires (agrees : s.Agrees f) (running : s'.running = s.running)
    (same : s'.chip.wires = s.chip.wires) : s'.Agrees f where
  running := running.trans agrees.running
  line := (congrArg Chip.Wires.femEnabled same).trans agrees.line
  last := (congrArg Chip.Wires.lastFem same).trans agrees.last
  clocked := (congrArg Chip.Wires.txn same).trans agrees.clocked
  closed low := by
    have txn : s'.chip.txn = s.chip.txn := congrArg Chip.Wires.txn same
    have inTxn : s'.chip.inTxn = s.chip.inTxn := congrArg Chip.Wires.inTxn same
    rw [txn]
    exact agrees.closed (inTxn ▸ low)

theorem agrees_init : (init stuckIrqMs).Agrees {} := ⟨rfl,rfl,rfl,rfl,fun _ => rfl⟩

/-- The emulator's messages, one by one. -/
theorem serviceQemu_agrees (agrees : s.Agrees f) (serviced : s.serviceQemu m = some s') :
    s'.Agrees (f.heard m) := by
  cases m with
  | readIrq | readBusy =>
    exact Option.some.inj serviced ▸ ⟨agrees.running,agrees.line,agrees.last,agrees.clocked,agrees.closed⟩
  | unknown tag =>
    exact Option.some.inj serviced ▸ ⟨rfl,agrees.line,agrees.last,agrees.clocked,agrees.closed⟩
  | xfer out =>
    simp only [serviceQemu, Option.bind_eq_bind, Option.bind_eq_some_iff, Option.some.injEq] at serviced
    obtain ⟨_,_,r,performed,rfl⟩ := serviced
    have wires := Chip.step_wires (Radio.perform_eq_some performed).1
    have accumulated : (if s.chip.inTxn then s.chip.txn else []) = f.clocked := by
      rw [← agrees.clocked]
      split
      · rfl
      next low => exact (agrees.closed (by simpa using low)).symm
    refine ⟨agrees.running,?_,?_,?_,?_⟩
    · exact (congrArg Chip.Wires.femEnabled wires).trans agrees.line
    · exact (congrArg Chip.Wires.lastFem wires).trans agrees.last
    · exact (congrArg Chip.Wires.txn wires).trans (congrArg (· ++ [out]) accumulated)
    · intro low
      cases (congrArg Chip.Wires.inTxn wires).symm.trans low
  | csAssert =>
    simp only [serviceQemu, Option.bind_eq_bind, Option.bind_eq_some_iff, Option.some.injEq] at serviced
    obtain ⟨r,performed,rfl⟩ := serviced
    have wires := Chip.step_wires (Radio.perform_eq_some performed).1
    refine ⟨agrees.running,?_,?_,congrArg Chip.Wires.txn wires,?_⟩
    · exact (congrArg Chip.Wires.femEnabled wires).trans agrees.line
    · exact (congrArg Chip.Wires.lastFem wires).trans agrees.last
    · exact fun _ => congrArg Chip.Wires.txn wires
  | csRelease =>
    simp only [serviceQemu, Option.bind_eq_bind, Option.bind_eq_some_iff, Option.some.injEq] at serviced
    obtain ⟨r,performed,rfl⟩ := serviced
    have wires := Chip.step_wires (Radio.perform_eq_some performed).1
    have executed := congrArg Chip.Wires.lastFem wires
    refine ⟨agrees.running,?_,?_,congrArg Chip.Wires.txn wires,?_⟩
    · exact (congrArg Chip.Wires.femEnabled wires).trans agrees.line
    · refine executed.trans ?_
      rw [FrontEnd.heard, ← agrees.clocked, ← agrees.line, ← agrees.last]
      rfl
    · exact fun _ => congrArg Chip.Wires.txn wires
  | setFem level =>
    simp only [serviceQemu, Option.bind_eq_bind, Option.bind_eq_some_iff, Option.some.injEq] at serviced
    obtain ⟨r,performed,rfl⟩ := serviced
    have wires := Chip.step_wires (Radio.perform_eq_some performed).1
    have txn : r.chip.state.txn = s.chip.txn := congrArg Chip.Wires.txn wires
    have inTxn : r.chip.state.inTxn = s.chip.inTxn := congrArg Chip.Wires.inTxn wires
    refine ⟨agrees.running,congrArg Chip.Wires.femEnabled wires,?_,txn.trans agrees.clocked,?_⟩
    · exact (congrArg Chip.Wires.lastFem wires).trans agrees.last
    · exact fun low => txn.trans (agrees.closed (inTxn ▸ low))

/-- Time leaves the wires alone. -/
theorem handleTick_wires (handled : s.handleTick payload = some s') :
    s'.chip.wires = s.chip.wires := by
  have ran := s.handleTick_chip payload
  rw [handled, Option.map_some] at ran
  refine run_invariant (fun c : Chip => c.wires = s.chip.wires) ?_ ran.symm rfl
  intro c t d kept turned
  obtain ⟨m,ticked,rfl⟩ := Option.map_eq_some_iff.mp turned
  have stepped : c.step (.tick t) = some m := ticked
  exact (Chip.step_wires stepped).trans kept

theorem told_wires (c : Chip) (m : Msg) : (c.told m).wires = c.wires := by
  refine Chip.told_induction (motive := fun d => d.wires = c.wires) c m ?_ ?_ ?_ rfl
  · have queued : c.step (.frame m.payload) = some (c.pushFrame m.payload) := rfl
    exact Chip.step_wires queued
  · have ended : c.step .txDone = some c.transmitFinished := rfl
    exact Chip.step_wires ended
  · intro busy
    have heard : c.step (.channelBusy busy) = some (c.setChannelBusy busy) := rfl
    exact Chip.step_wires heard

theorem step_agrees (agrees : s.Agrees f) (stepped : s.step event = some s') :
    s'.Agrees (f.after event) := by
  by_cases high : s.running = true
  · cases event with
    | qemu m =>
      rw [step, if_pos high] at stepped
      rw [FrontEnd.after, ← agrees.running, if_pos high]
      exact serviceQemu_agrees agrees stepped
    | bridge m =>
      by_cases kind : m.kind = kTick
      · cases asked : m.tick? with
        | none => exact Option.some.inj ((step_odd high kind asked).symm.trans stepped) ▸ agrees
        | some payload =>
          rw [step_tick high asked] at stepped
          exact agrees.of_wires (handleTick_answers stepped).1 (handleTick_wires stepped)
      · obtain ⟨d,told,chip,running,_⟩ := s.step_told m high kind
        obtain rfl := Option.some.inj (told.symm.trans stepped)
        refine agrees.of_wires (running.trans high.symm) ?_
        rw [chip]
        split
        · rfl
        · exact told_wires s.chip m
  · have stopped : f.running ≠ true := agrees.running ▸ high
    cases event with
    | qemu m =>
      rw [step, if_neg high] at stepped
      rw [FrontEnd.after, if_neg stopped]
      exact Option.some.inj stepped ▸ agrees
    | bridge m =>
      rw [step, if_neg high] at stepped
      exact Option.some.inj stepped ▸ agrees

/-- The chip holds what the messages say, after any of them. -/
theorem run_agrees (events : List Event) (ran : run step (init stuckIrqMs) events = some s) :
    s.Agrees (frontEnd events) := by
  refine run_induction (motive := fun events s => s.Agrees (frontEnd events)) agrees_init ?_ events ran
  intro events c event next _ stepped agrees
  rw [frontEnd, List.foldl_append]
  exact step_agrees agrees stepped

theorem femByte_eq (agrees : s.Agrees f) : femByte s.chip = f.reported := by
  have last := agrees.last
  rw [femByte, FrontEnd.reported, ← last, Chip.lastFem]
  cases s.chip.hasTransmitted <;> cases s.chip.femAtTx <;> rfl

/-- What a tick reports of the module is how its line stood when the last `SetTx` was
complete, and that there was none before the first. -/
theorem fem_reported (events : List Event) {payload : TickPayload}
    (ran : run step (init stuckIrqMs) events = some s) (handled : s.handleTick payload = some s') :
    ∃ earlier stats, s'.radio.toEngine = earlier ++ [.radioStats stats,.ack payload] ∧
      stats.val[36]? = some (frontEnd events).reported := by
  have agrees := run_agrees events ran
  have after := agrees.of_wires (handleTick_answers handled).1 (handleTick_wires handled)
  have byte := femByte_eq after
  obtain ⟨d,r,_,_,rfl⟩ := handleTick_ticks handled
  refine ⟨r.drainTx.toEngine,⟨statsPrefix r.drainTx.chip.state ++ [femByte r.drainTx.chip.state],?_⟩,
    ?_,?_⟩
  · simp [statsPrefix_length]
  · simp [writeRadioStats,RadioServer.drainTx,Radio.send,Radio.ack,chip]
  · rw [List.getElem?_append_right (by simp [statsPrefix_length]), statsPrefix_length]
    exact congrArg some byte

/-- The line is low as the command is complete, and high before and after. -/
theorem fem_reported_toggled : ∃ (s s' : RadioServer 0) (stats : { p : List UInt8 // p.length = 37 }),
    run step (init 0) [.qemu (.setFem 1),.qemu .csAssert,.qemu (.xfer 0x83),.qemu (.setFem 0),
      .qemu (.xfer 0),.qemu .csRelease,.qemu (.setFem 1)] = some s ∧
    s.handleTick ⟨[0,0,0,1],rfl⟩ = some s' ∧ .radioStats stats ∈ s'.radio.toEngine ∧
    stats.val[36]? = some 1 := by
  have runs : ((run step (init 0) [.qemu (.setFem 1),.qemu .csAssert,.qemu (.xfer 0x83),
      .qemu (.setFem 0),.qemu (.xfer 0),.qemu .csRelease,.qemu (.setFem 1)]).bind fun s =>
        (s.handleTick ⟨[0,0,0,1],rfl⟩).map fun s' => (s,s')).isSome := by decide +kernel
  obtain ⟨pair,both⟩ := Option.isSome_iff_exists.mp runs
  obtain ⟨s,ran,ticked⟩ := Option.bind_eq_some_iff.mp both
  obtain ⟨s',handled,_⟩ := Option.map_eq_some_iff.mp ticked
  obtain ⟨earlier,stats,sent,byte⟩ := fem_reported _ ran handled
  exact ⟨s,s',stats,ran,handled,by simp [sent],byte⟩

end RadioServer
end Meshcore
