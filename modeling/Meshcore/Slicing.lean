import Meshcore.EarlyTicks
import Meshcore.Loops

/-! How the engine cuts time into ticks. Each of them ends with a turn at a millisecond that
has had one. A native application always sees it; the chip of a server does in receive
mode, when there is a frame left to deliver or something to raise. -/
namespace Meshcore

open Checked Runs

variable {stuckIrqMs : UInt32}

namespace Radio

theorem perform_state (r : Radio stuckIrqMs) (op : ChipOp) (other : op ≠ .drain) :
    (r.perform op other).map (·.chip.state) = r.chip.state.step op := by
  rw [perform]
  split
  next faults => exact faults.symm
  next taken => exact taken.symm

theorem drainTx_state (r : Radio stuckIrqMs) :
    r.drainTx.chip.state = r.chip.state.takePending := by
  rw [drainTx]
  split
  next => rfl
  next free =>
    have low : r.chip.state.hasPendingTx = false := by simpa using free
    exact congrArg (fun held => { r.chip.state with hasPendingTx := held }) low

/-- A tick and the transmission that is taken after it. -/
theorem turn_state (r : Radio stuckIrqMs) (nowMs : UInt64) :
    (r.tick nowMs).map (fun r => r.drainTx.chip.state) = r.chip.state.turn nowMs := by
  have ticked : (r.tick nowMs).map (·.chip.state) = r.chip.state.tick nowMs :=
    r.perform_state (.tick nowMs) (by simp)
  rw [Chip.turn, ← ticked, Option.map_map]
  exact Option.map_congr fun r _ => r.drainTx_state

theorem drainTx_frames (r : Radio stuckIrqMs) :
    frames r.drainTx.toEngine = frames r.toEngine ++ r.chip.state.pending.toList := by
  rw [drainTx]
  split
  next held => simp [frames,Chip.pending,held,Outgoing.frame?]
  next free => simp [Chip.pending,free]

end Radio

namespace RadioServer

theorem tickOnce_chip (s : RadioServer stuckIrqMs) :
    s.tickOnce.map chip = s.chip.turn (s.gSimMillis + 1).toUInt64 := by
  rw [chip, ← Radio.turn_state]
  simp only [tickOnce, Option.bind_eq_bind, Option.map_bind]
  cases s.radio.tick (s.gSimMillis + 1).toUInt64 <;> rfl

/-- The times of the turns a tick makes, as the chip is told them. -/
def turnTimes (clock target : UInt32) : List UInt64 := (turnsTo clock target).map UInt64.ofNat

theorem repeated_chip (turns : ℕ) (s : RadioServer stuckIrqMs)
    (fits : s.gSimMillis.toNat + turns < UInt32.size) :
    (repeated tickOnce turns s).map chip =
      run Chip.turn s.chip ((List.range' (s.gSimMillis.toNat + 1) turns).map UInt64.ofNat) := by
  induction turns generalizing s with
  | zero => rfl
  | succ turns ih =>
    have next : (s.gSimMillis + 1).toNat = s.gSimMillis.toNat + 1 := by
      rw [UInt32.size] at fits
      rw [UInt32.toNat_add, UInt32.toNat_one]
      omega
    have time : (s.gSimMillis + 1).toUInt64 = UInt64.ofNat (s.gSimMillis.toNat + 1) := by
      rw [← next, UInt64.ofNat_uInt32ToNat]
    rw [List.range'_succ, List.map_cons, run_cons, ← time, ← tickOnce_chip, repeated,
      Option.bind_map, Option.map_bind]
    refine Option.bind_congr fun d ticked => ?_
    have clock : d.gSimMillis.toNat = s.gSimMillis.toNat + 1 := by rw [tickOnce_clock ticked, next]
    rw [Function.comp, Function.comp, ih d (by omega), clock]

theorem handleTick_chip (s : RadioServer stuckIrqMs) (payload : TickPayload) :
    (s.handleTick payload).map chip =
      run Chip.turn s.chip (turnTimes s.gSimMillis (tickTarget payload)) := by
  have target := (tickTarget payload).toNat_lt_size
  have clock := s.gSimMillis.toNat_lt_size
  have caught := repeated_chip ((tickTarget payload).toNat - s.gSimMillis.toNat) s (by omega)
  rw [turnTimes, turnsTo, List.map_append, run_append, ← caught, ← tickTo_eq, Option.bind_map]
  simp only [handleTick, Option.bind_eq_bind, Option.map_bind]
  refine Option.bind_congr fun d ticked => ?_
  have time : d.gSimMillis.toUInt64 =
      UInt64.ofNat (max s.gSimMillis.toNat (tickTarget payload).toNat) := by
    rw [← tickTo_clock ticked, UInt64.ofNat_uInt32ToNat]
  have last : run Chip.turn d.chip [d.gSimMillis.toUInt64] =
      (d.radio.tick d.gSimMillis.toUInt64).map fun r => r.drainTx.chip.state := by
    rw [Radio.turn_state]
    simp [chip]
  rw [List.map_singleton, ← time]
  refine Eq.trans ?_ last.symm
  rw [Function.comp]
  cases d.radio.tick d.gSimMillis.toUInt64 <;> rfl

/-- The frames a server has sent, and the one it is about to send. -/
def sent (s : RadioServer stuckIrqMs) : List (List UInt8) :=
  frames s.radio.toEngine ++ s.chip.pending.toList

theorem drainTx_taken (s : RadioServer stuckIrqMs) : s.drainTx.chip.pending = none := by
  have taken : s.drainTx.chip.hasPendingTx = false := s.radio.drainTx_empties
  simp [Chip.pending,taken]

theorem drainTx_sent (s : RadioServer stuckIrqMs) : s.drainTx.sent = s.sent := by
  rw [sent, drainTx_taken, drainTx, Radio.drainTx_frames]
  exact List.append_nil _

theorem tick_sent {s : RadioServer stuckIrqMs} {r : Radio stuckIrqMs} {nowMs : UInt64}
    (ticked : s.radio.tick nowMs = some r) : sent { s with radio := r } = s.sent := by
  obtain ⟨taken,silent⟩ := Radio.perform_eq_some ticked
  have pending : r.chip.state.pending = s.chip.pending := Chip.tick_pending taken
  rw [sent, sent, ← pending, ← silent]
  rfl

/-- A tick sends the frame that was waiting, and no other. -/
theorem handleTick_frames {s s' : RadioServer stuckIrqMs} {payload : TickPayload}
    (handled : s.handleTick payload = some s') : frames s'.radio.toEngine = s.sent := by
  obtain ⟨caught,r,ticked,last,rfl⟩ := handleTick_ticks handled
  have before : caught.sent = s.sent := by
    rw [tickTo_eq] at ticked
    refine repeated_rel (fun a b : RadioServer stuckIrqMs => b.sent = a.sent) (fun _ => rfl)
      (fun _ _ _ first rest => rest.trans first) ?_ _ ticked
    intro a b turn
    obtain ⟨r,ticked,rfl⟩ := tickOnce_ticks turn
    rw [drainTx_sent]
    exact tick_sent (s := { a with gSimMillis := a.gSimMillis + 1 }) ticked
  have after := drainTx_sent { caught with radio := r }
  rw [tick_sent last, before, sent, drainTx_taken, Option.toList_none, List.append_nil] at after
  rw [← after]
  simp [writeRadioStats,Radio.send,Radio.ack,frames,Outgoing.frame?]

theorem turnTimes_ne_nil (clock target : UInt32) : turnTimes clock target ≠ [] := by
  simp [turnTimes,turnsTo]

theorem handleTick_stands {s s' : RadioServer stuckIrqMs} {payload : TickPayload}
    (stands : s.chip.Stands s.gSimMillis.toUInt64) (handled : s.handleTick payload = some s') :
    s'.chip.Stands s'.gSimMillis.toUInt64 := by
  have ran := s.handleTick_chip payload
  rw [handled, Option.map_some, Chip.run_turn _ (turnTimes_ne_nil _ _), turnTimes, turnsTo,
    List.map_append] at ran
  have clock := (handleTick_answers handled).2.1
  have target : UInt64.ofNat (max s.gSimMillis.toNat (tickTarget payload).toNat) =
      s'.gSimMillis.toUInt64 := by
    rw [← clock, UInt64.ofNat_uInt32ToNat]
  rw [List.map_singleton, target] at ran
  have taken : s.chip.takePending.Stands s.gSimMillis.toUInt64 :=
    ⟨stands.clock,stands.last,stands.since⟩
  refine Chip.run_tick_stands taken _ ?_ ran.symm
  rw [UInt64.le_iff_toNat_le, UInt32.toNat_toUInt64, UInt32.toNat_toUInt64, clock]
  exact Nat.le_max_left _ _

theorem told_stands {c : Chip} (stands : c.Stands nowMs) (m : Msg) : (c.told m).Stands nowMs := by
  have kept (op : ChipOp) {d : Chip} (untimed : op.time? = none) (stepped : c.step op = some d) :
      d.Stands nowMs := Chip.step_stands stands untimed stepped
  refine Chip.told_induction (motive := fun d => d.Stands nowMs) c m ?_ ?_ ?_ stands
  · exact kept (.frame m.payload) rfl rfl
  · exact kept .txDone rfl rfl
  · exact fun busy => kept (.channelBusy busy) rfl rfl

theorem serviceQemu_stands {s s' : RadioServer stuckIrqMs}
    (stands : s.chip.Stands s.gSimMillis.toUInt64) (serviced : s.serviceQemu m = some s') :
    s'.chip.Stands s'.gSimMillis.toUInt64 := by
  obtain ⟨clock,⟨_,same⟩ | ⟨op,_,asked,performed⟩⟩ := serviceQemu_cases serviced
  · rwa [chip, same, clock]
  · have untimed := ChipOp.time?_eq_none.mpr (QemuMsg.op?_pins asked).2
    rw [clock]
    exact Chip.step_stands stands untimed (Radio.perform_eq_some performed).1

/-- Between two messages the chip is at the server's millisecond. -/
theorem step_stands {s s' : RadioServer stuckIrqMs} (stands : s.chip.Stands s.gSimMillis.toUInt64)
    (stepped : s.step event = some s') : s'.chip.Stands s'.gSimMillis.toUInt64 := by
  by_cases high : s.running = true
  · cases event with
    | qemu m =>
      rw [step, if_pos high] at stepped
      exact serviceQemu_stands stands stepped
    | bridge m =>
      by_cases kind : m.kind = kTick
      · cases asked : m.tick? with
        | none => rwa [← Option.some.inj ((step_odd high kind asked).symm.trans stepped)]
        | some payload => exact handleTick_stands stands (step_tick high asked ▸ stepped)
      · obtain ⟨d,told,chip,_,_,clock⟩ := s.step_told m high kind
        obtain rfl := Option.some.inj (told.symm.trans stepped)
        rw [chip, clock]
        split
        · exact stands
        · exact told_stands stands m
  · cases event <;> (rw [step, if_neg high] at stepped; exact Option.some.inj stepped ▸ stands)

theorem run_stands {s : RadioServer stuckIrqMs} (events : List Event)
    (ran : run step (.init stuckIrqMs) events = some s) :
    s.chip.Stands s.gSimMillis.toUInt64 :=
  run_invariant (fun s : RadioServer stuckIrqMs => s.chip.Stands s.gSimMillis.toUInt64)
    (fun _ _ _ => step_stands) ran ⟨rfl,rfl,UInt64.le_refl _⟩

/-- In one tick or in two, the chip ends in the same state, and the same frames are sent. -/
def SlicesAlike (s : RadioServer stuckIrqMs) (first last : TickPayload) : Prop :=
  ∃ whole middle sliced, s.handleTick last = some whole ∧ s.handleTick first = some middle ∧
    middle.handleTick last = some sliced ∧ sliced.chip = whole.chip ∧
    frames sliced.radio.toEngine = frames whole.radio.toEngine

theorem slicesAlike_iff_runs (s : RadioServer stuckIrqMs) (first last : TickPayload)
    (ahead : s.gSimMillis ≤ tickTarget first) : s.SlicesAlike first last ↔
      ∃ d, run Chip.tick s.chip.takePending (turnTimes s.gSimMillis (tickTarget last)) = some d ∧
        run Chip.tick s.chip.takePending (turnTimes s.gSimMillis (tickTarget first) ++
          turnTimes (tickTarget first) (tickTarget last)) = some d := by
  have wholly := s.handleTick_chip last
  have slices : ((s.handleTick first).bind (·.handleTick last)).map chip =
      run Chip.turn s.chip (turnTimes s.gSimMillis (tickTarget first) ++
        turnTimes (tickTarget first) (tickTarget last)) := by
    rw [run_append, ← s.handleTick_chip first, Option.bind_map, Option.map_bind]
    refine Option.bind_congr fun middle reached => ?_
    have counted := (handleTick_answers reached).2.1
    rw [Nat.max_eq_right (UInt32.le_iff_toNat_le.mp ahead)] at counted
    rw [Function.comp, handleTick_chip, UInt32.toNat_inj.mp counted]
    rfl
  rw [Chip.run_turn _ (turnTimes_ne_nil _ _)] at wholly
  rw [Chip.run_turn _ (by simp [turnTimes_ne_nil])] at slices
  rw [← wholly, ← slices]
  constructor
  · rintro ⟨whole,middle,sliced,handled,begun,ended,same,_⟩
    exact ⟨whole.chip,by rw [handled]; rfl,by rw [begun, Option.bind_some, ended, ← same]; rfl⟩
  · rintro ⟨d,first,second⟩
    obtain ⟨whole,handled,rfl⟩ := Option.map_eq_some_iff.mp first
    obtain ⟨sliced,both,same⟩ := Option.map_eq_some_iff.mp second
    obtain ⟨middle,begun,ended⟩ := Option.bind_eq_some_iff.mp both
    refine ⟨whole,middle,sliced,handled,begun,ended,same,?_⟩
    -- Nothing is latched in a tick, so whatever waited has gone with the first turn.
    have none : middle.chip.pending = Option.none := by
      simp [Chip.pending,handleTick_drained begun]
    rw [handleTick_frames ended, handleTick_frames handled, sent, none, Option.toList_none,
      List.append_nil, handleTick_frames begun]

theorem turnTimes_length (clock target : UInt32) :
    (turnTimes clock target).length = target.toNat - clock.toNat + 1 := by
  simp [turnTimes,turnsTo]

theorem turnTimes_self (clock : UInt32) : turnTimes clock clock = [clock.toUInt64] := by
  simp [turnTimes,turnsTo]

/-- A tick that ends where the clock has been makes one turn there and a second one. -/
theorem turnTimes_twice {clock first last : UInt32} (ahead : clock ≤ first) (after : first ≤ last)
    (moves : clock < first ∨ first = last) : ∃ pre post,
      turnTimes clock last = pre ++ first.toUInt64 :: post ∧
      turnTimes clock first ++ turnTimes first last =
        pre ++ first.toUInt64 :: first.toUInt64 :: post := by
  by_cases earlier : clock < first
  · have before := UInt32.lt_iff_toNat_lt.mp earlier
    have ordered := UInt32.le_iff_toNat_le.mp after
    let pre := List.range' (clock.toNat + 1) (first.toNat - clock.toNat - 1)
    have reached : List.range' (clock.toNat + 1) (first.toNat - clock.toNat) = pre ++ [first.toNat] := by
      rw [show first.toNat - clock.toNat = first.toNat - clock.toNat - 1 + 1 by omega,
        List.range'_concat]
      congr 2
      omega
    have wholly : List.range' (clock.toNat + 1) (last.toNat - clock.toNat) =
        pre ++ [first.toNat] ++ List.range' (first.toNat + 1) (last.toNat - first.toNat) := by
      rw [← reached, show last.toNat - clock.toNat =
        first.toNat - clock.toNat + (last.toNat - first.toNat) by omega, ← List.range'_append_1]
      congr 2
      omega
    refine ⟨pre.map UInt64.ofNat,turnTimes first last,?_,?_⟩
    · simp only [turnTimes, turnsTo, wholly, List.map_append, List.append_assoc, List.map_cons,
        List.map_nil, UInt64.ofNat_uInt32ToNat, List.nil_append, List.cons_append,
        Nat.max_eq_right (Nat.le_of_lt (Nat.lt_of_lt_of_le before ordered)), Nat.max_eq_right ordered]
    · simp only [turnTimes, turnsTo, reached, List.map_append, List.append_assoc, List.map_cons,
        List.map_nil, UInt64.ofNat_uInt32ToNat, List.nil_append, List.cons_append,
        Nat.max_eq_right (Nat.le_of_lt before)]
  · obtain rfl := moves.resolve_left earlier
    obtain rfl : clock = first := UInt32.le_antisymm ahead (UInt32.not_lt.mp earlier)
    exact ⟨[],[],by simp [turnTimes_self],by simp [turnTimes_self]⟩

/-- A tick at the clock makes one turn there, and the next tick begins a millisecond later. -/
theorem turnTimes_early {clock last : UInt32} (after : clock < last) : ∃ next rest,
    turnTimes clock last = next :: rest ∧ next.toNat = clock.toNat + 1 ∧
      turnTimes clock clock ++ turnTimes clock last = clock.toUInt64 :: next :: rest := by
  have before := UInt32.lt_iff_toNat_lt.mp after
  have bound := last.toNat_lt_size
  have times : turnTimes clock last = UInt64.ofNat (clock.toNat + 1) ::
      ((List.range' (clock.toNat + 2) (last.toNat - clock.toNat - 1)) ++
        [max clock.toNat last.toNat]).map UInt64.ofNat := by
    rw [turnTimes, turnsTo, show last.toNat - clock.toNat = last.toNat - clock.toNat - 1 + 1 by omega,
      List.range'_succ]
    rfl
  refine ⟨_,_,times,?_,by rw [turnTimes_self, times]; rfl⟩
  rw [UInt32.size] at bound
  exact UInt64.toNat_ofNat_of_lt' (by rw [UInt64.size]; omega)

/-- What a chip in receive mode must be like for the engine's ticks to be cut as it pleases:
the queue is delivered in full, and a tick that does not move the clock raises nothing, or
finds the flags up and no fault due. -/
structure Steady (c : Chip) (clock first last : UInt32) : Prop where
  fits : ∀ f ∈ c.inbox, c.FitsSlot f
  delivered : c.inbox.length ≤ last.toNat - clock.toNat + 1
  unmoved : clock < first ∨ first = last ∨ c.raised (.tick clock.toUInt64) = 0 ∨
    (c.busyFlags = true ∧ ¬c.FaultDue clock.toUInt64)

/-- A tick cut where the clock has moved, or not cut short of its end. -/
theorem runsAlike_of_moves (c : Chip) {clock first last : UInt32} (ahead : clock ≤ first)
    (after : first ≤ last) (moves : clock < first ∨ first = last) :
    (∃ d, run Chip.tick c.takePending (turnTimes clock last) = some d ∧
      run Chip.tick c.takePending (turnTimes clock first ++ turnTimes first last) = some d) ↔
    (c.mode = .rx → Steady c clock first last) := by
  obtain ⟨pre,post,whole,sliced⟩ := turnTimes_twice ahead after moves
  have small : first.toUInt64.toNat < UInt32.size := by
    rw [UInt32.toNat_toUInt64]
    exact first.toNat_lt_size
  have twice : (∃ d, run Chip.tick c.takePending (turnTimes clock last) = some d ∧
      run Chip.tick c.takePending (turnTimes clock first ++ turnTimes first last) = some d) ↔
      ∃ d, run Chip.tick c.takePending (turnTimes clock last) = some d ∧ d.again = some d := by
    rw [sliced, Chip.run_twice small, ← whole]
    refine exists_congr fun d => and_congr_right fun ran => ?_
    rw [ran, Option.bind_some]
  rw [twice, Chip.run_tick_settled, turnTimes_length]
  refine imp_congr_right fun _ => ⟨fun both => ⟨both.1,both.2,?_⟩,fun steady => ?_⟩
  · exact moves.elim .inl fun same => .inr (.inl same)
  · exact ⟨steady.fits,steady.delivered⟩

/-- A tick with one before it that does not move the clock. -/
theorem runsAlike_of_still {c : Chip} {clock last : UInt32} (stands : c.Stands clock.toUInt64)
    (later : clock < last) :
    (∃ d, run Chip.tick c.takePending (turnTimes clock last) = some d ∧
      run Chip.tick c.takePending (turnTimes clock clock ++ turnTimes clock last) = some d) ↔
    (c.mode = .rx → Steady c clock clock last) := by
  obtain ⟨next,rest,whole,succ,sliced⟩ := turnTimes_early later
  have length := turnTimes_length clock last
  have taken : c.takePending.Stands clock.toUInt64 := ⟨stands.clock,stands.last,stands.since⟩
  rw [whole] at length
  rw [sliced, whole]
  by_cases hears : c.mode = .rx
  · have before := UInt32.lt_iff_toNat_lt.mp later
    have follows : Each Chip.tick Chip.Follows c.takePending (next :: rest) := by
      have bound := last.toNat_lt_size
      have here : c.takePending.nowMs.toNat = clock.toNat := by
        rw [taken.clock, UInt32.toNat_toUInt64]
      rw [← whole, turnTimes, turnsTo,
        show max clock.toNat last.toNat = clock.toNat + (last.toNat - clock.toNat) by omega]
      exact Chip.each_follows _ _ (by omega) here
    rw [Chip.early_tick_iff taken hears (by rw [succ, UInt32.toNat_toUInt64]) rest follows, length]
    constructor
    · rintro ⟨fits,delivered,unmoved⟩ _
      exact ⟨fits,delivered,.inr (.inr unmoved)⟩
    · intro steady
      obtain ⟨fits,delivered,unmoved⟩ := steady hears
      have still : ¬clock < clock ∧ clock ≠ last := ⟨UInt32.lt_irrefl _,UInt32.ne_of_lt later⟩
      exact ⟨fits,delivered,(unmoved.resolve_left still.1).resolve_left still.2⟩
  · have deaf : c.takePending.mode ≠ .rx := hears
    have same : c.takePending.tick clock.toUInt64 = some c.takePending := by
      rw [Chip.tick_eq, if_neg deaf, Chip.accrueBusy_self taken.clock taken.last]
    have ran := (Chip.run_tick_isSome c.takePending (next :: rest)).mpr fun on => absurd on deaf
    obtain ⟨d,ran⟩ := Option.isSome_iff_exists.mp ran
    refine iff_of_true ⟨d,ran,?_⟩ fun on => absurd on hears
    rw [run_cons, same, Option.bind_some, ran]

theorem slicesAlike_iff (s : RadioServer stuckIrqMs) (first last : TickPayload)
    (stands : s.chip.Stands s.gSimMillis.toUInt64) (ahead : s.gSimMillis ≤ tickTarget first)
    (after : tickTarget first ≤ tickTarget last) : s.SlicesAlike first last ↔
      (s.chip.mode = .rx → Steady s.chip s.gSimMillis (tickTarget first) (tickTarget last)) := by
  rw [slicesAlike_iff_runs s first last ahead]
  by_cases moves : s.gSimMillis < tickTarget first ∨ tickTarget first = tickTarget last
  · exact runsAlike_of_moves s.chip ahead after moves
  · obtain ⟨still,apart⟩ := not_or.mp moves
    have here := UInt32.le_antisymm ahead (UInt32.not_lt.mp still)
    rw [← here] at after apart ⊢
    exact runsAlike_of_still stands (UInt32.lt_of_le_of_ne after apart)

end RadioServer

/-- A native application sees how the engine cuts time into ticks, whatever it is: every
tick enters its `loop()` once more than it moves the clock, and so two ticks enter it once
more than one. The chip of a server sees it exactly in receive mode, when it is not
steady. -/
theorem slices_alike_iff {κ σ : Type} (app : App κ σ) (stuckIrqMs : UInt32)
    (first last : TickPayload) :
    (∀ n : NativeNode κ σ stuckIrqMs, ¬n.LoopsAlike app first last ∧ ¬n.LoopsOnce app last) ∧
    ∀ (s : RadioServer stuckIrqMs) (events : List RadioServer.Event),
      run RadioServer.step (.init stuckIrqMs) events = some s →
      s.gSimMillis ≤ tickTarget first → tickTarget first ≤ tickTarget last →
      (s.SlicesAlike first last ↔ (s.chip.mode = .rx →
        RadioServer.Steady s.chip s.gSimMillis (tickTarget first) (tickTarget last))) := by
  constructor
  · intro n
    exact ⟨n.not_loopsAlike app first last,n.not_loopsOnce app last⟩
  · intro s events ran ahead after
    exact s.slicesAlike_iff first last (RadioServer.run_stands events ran) ahead after

/-- A server in receive mode, a frame queued, and time in one tick or two. -/
theorem slices_alike_frame : ∃ s : RadioServer 0,
    run RadioServer.step (.init 0) [.qemu .csAssert,.qemu (.xfer 0x82),.qemu .csRelease,
      .bridge ⟨kFrame,[0x41]⟩] = some s ∧ s.chip.mode = .rx ∧
    s.SlicesAlike ⟨[0,0,0,1],rfl⟩ ⟨[0,0,0,2],rfl⟩ := by
  have reached : (run RadioServer.step (.init 0) [.qemu .csAssert,.qemu (.xfer 0x82),.qemu .csRelease,
      .bridge ⟨kFrame,[0x41]⟩]).map (fun s => (s.chip.mode,s.gSimMillis,s.chip.inbox,
        s.chip.rxBase)) = some (.rx,0,[[0x41]],0) := by
    decide +kernel
  obtain ⟨s,ran,state⟩ := Option.map_eq_some_iff.mp reached
  simp only [Prod.mk.injEq] at state
  obtain ⟨hears,clock,queued,base⟩ := state
  refine ⟨s,ran,hears,((slices_alike_iff .inert 0 _ _).2 s _ ran ?_ (by decide)).mpr fun _ => ?_⟩
  · rw [clock]
    decide
  · rw [clock]
    refine ⟨?_,?_,.inl (by decide)⟩
    · simp [queued,Chip.FitsSlot,base]
    · rw [queued]
      decide

/-- A node that has not been ticked yet, and ticks to 1 and to 2: `loop()` is entered at 1, 2
and 2 for the one, and at 1, 1, 2 and 2 for both. -/
theorem sliced_tick_loops_again : ¬∀ (stuckIrqMs : UInt32) (n : NativeNode Unit Unit stuckIrqMs)
    (first last : TickPayload), n.g_sim_millis ≤ tickTarget first →
      tickTarget first ≤ tickTarget last → n.LoopsAlike .inert first last ∧ n.LoopsOnce .inert last := by
  intro all
  let n : NativeNode Unit (Unit × List ℕ) 0 := (NativeNode.fresh 0).noting []
  obtain ⟨⟨whole,middle,sliced,handled,begun,ended,alike⟩,_⟩ :=
    all 0 (.fresh 0) ⟨[0,0,0,1],rfl⟩ ⟨[0,0,0,2],rfl⟩ (by decide) (by decide)
  have once : (n.handleTick App.inert.logged ⟨[0,0,0,2],rfl⟩).map (·.app.2) = some [1,2,2] := by
    decide +kernel
  have twice : ((n.handleTick App.inert.logged ⟨[0,0,0,1],rfl⟩).bind
      (·.handleTick App.inert.logged ⟨[0,0,0,2],rfl⟩)).map (·.app.2) = some [1,1,2,2] := by
    decide +kernel
  rw [begun, Option.bind_some, ended, Option.map_some, Option.some.injEq, alike] at twice
  rw [handled, Option.map_some, Option.some.injEq, twice] at once
  simp at once

end Meshcore
