import Meshcore.Instruments

/-! The real-time clock of a native node. It moves by a second at every thousandth
millisecond that a tick makes up, and by nothing else but the firmware setting it; what
it reads is told by when it was set and what the milliseconds are now. -/
namespace Meshcore

open Checked Runs

variable {κ σ : Type} {stuckIrqMs : UInt32}

/-- What the firmware does with the clock, with the milliseconds at which it does. -/
inductive RtcCall where
  | set (t m : UInt32)
  | read (m t : UInt32)
  deriving DecidableEq

/-- The last time the clock was set to and when, at first the one it is made with. -/
def lastSet (calls : List RtcCall) : UInt32 × UInt32 :=
  calls.foldl (fun last c => match c with
    | .set t m => (t,m)
    | .read _ _ => last) (1754700000,0)

/-- What the clock reads `nowMs` into the simulation. -/
def rtcAt (calls : List RtcCall) (nowMs : UInt32) : UInt32 :=
  (lastSet calls).1 + nowMs / 1000 - (lastSet calls).2 / 1000

/-- The same calls, with a record of those that concern the clock. -/
def Prog.timed (calls : List RtcCall) : Prog κ σ → Prog κ (σ × List RtcCall)
  | .done s => .done (s,calls)
  | .spiTransfer out next => .spiTransfer out fun inp => (next inp).timed calls
  | .digitalRead pin next => .digitalRead pin fun level => (next level).timed calls
  | .attachInterrupt cb next => .attachInterrupt cb (next.timed calls)
  | .detachInterrupt next => .detachInterrupt (next.timed calls)
  | .delay ms next => .delay ms (next.timed calls)
  | .delayMicroseconds us next => .delayMicroseconds us (next.timed calls)
  | .yield next => .yield (next.timed calls)
  | .millis next => .millis fun t => (next t).timed calls
  | .micros next => .micros fun t => (next t).timed calls
  | .simMillis next => .simMillis fun t => (next t).timed calls
  | .getCurrentTime next => .simMillis fun m => .getCurrentTime fun t =>
      (next t).timed (calls ++ [.read m t])
  | .setCurrentTime t next => .simMillis fun m => .setCurrentTime t
      (next.timed (calls ++ [.set t m]))
  | .consoleWrite p next => .consoleWrite p (next.timed calls)
  | .consoleRead next => .consoleRead fun b => (next b).timed calls
  | .consoleAvailable next => .consoleAvailable fun n => (next n).timed calls
  | .consolePeek next => .consolePeek fun b => (next b).timed calls

/-- The application with that record. -/
def App.timed (app : App κ σ) : App κ (σ × List RtcCall) where
  start := (app.start,[])
  setup s := (app.setup s.1).timed s.2
  loop s := (app.loop s.1).timed s.2
  isr cb s := (app.isr cb s.1).timed s.2

theorem Prog.timed_shows (p : Prog κ σ) (calls : List RtcCall) :
    (p.timed calls).Shows Prod.fst p := by
  intro stuckIrqMs n
  induction p generalizing n calls with
  | done s => rfl
  | spiTransfer out next ih =>
    simp only [timed, NativeNode.exec, Option.bind_eq_bind, Option.map_bind]
    exact Option.bind_congr fun answer _ => ih answer.2 calls { n with hal := answer.1 }
  | delay _ next ih | delayMicroseconds _ next ih | yield next ih =>
    simp only [timed, NativeNode.exec, Option.bind_eq_bind, Option.map_bind]
    exact Option.bind_congr fun hal _ => ih calls { n with hal }
  | attachInterrupt cb next ih => exact ih calls { n with hal := n.hal.attachInterrupt cb }
  | detachInterrupt next ih => exact ih calls { n with hal := n.hal.detachInterrupt }
  | setCurrentTime t next ih => exact ih _ { n with rtc := t }
  | consoleWrite p next ih => exact ih calls { n with gConsoleOut := n.gConsoleOut ++ p }
  | consoleRead next ih => exact ih _ calls { n with gConsoleIn := n.gConsoleIn.tail }
  | digitalRead _ next ih | millis next ih | micros next ih | simMillis next ih
  | getCurrentTime next ih | consoleAvailable next ih | consolePeek next ih => exact ih _ _ n

theorem App.timed_shows (app : App κ σ) : App.Shows Prod.fst app.timed app where
  start := rfl
  setup s := (app.setup s.1).timed_shows s.2
  loop s := (app.loop s.1).timed_shows s.2
  isr cb s := (app.isr cb s.1).timed_shows s.2

/-- The clock, and all that was ever read off it, is what the calls before make it. -/
structure Follows (calls : List RtcCall) (nowMs rtc : UInt32) : Prop where
  now : rtc = rtcAt calls nowMs
  reads : ∀ pre m t, pre ++ [.read m t] <+: calls → t = rtcAt pre m

variable {calls : List RtcCall} {nowMs rtc : UInt32}

/-- A time that has just been set is the time. -/
theorem Follows.set (follows : Follows calls nowMs rtc) (t : UInt32) :
    Follows (calls ++ [.set t nowMs]) nowMs t where
  now := by simp [rtcAt,lastSet]
  reads pre m u within := by
    rcases List.prefix_concat_iff.mp within with whole | earlier
    · simp at whole
    · exact follows.reads pre m u earlier

theorem Follows.read (follows : Follows calls nowMs rtc) :
    Follows (calls ++ [.read nowMs rtc]) nowMs rtc where
  now := by
    rw [follows.now]
    simp [rtcAt,lastSet]
  reads pre m u within := by
    rcases List.prefix_concat_iff.mp within with whole | earlier
    · obtain ⟨rfl,last⟩ := List.append_inj' whole rfl
      obtain ⟨rfl,rfl⟩ : m = nowMs ∧ u = rtc := by simpa using last
      exact follows.now
    · exact follows.reads pre m u earlier

/-- A second is counted where one begins. -/
theorem second_begins (before : nowMs.toNat + 1 < UInt32.size) :
    (nowMs + 1) / 1000 = nowMs / 1000 + if (nowMs + 1) % 1000 = 0 then 1 else 0 := by
  have size : UInt32.size = 4294967296 := rfl
  have next : (nowMs + 1).toNat = nowMs.toNat + 1 := by
    rw [UInt32.toNat_add, UInt32.toNat_one]
    omega
  have turns : (nowMs + 1) % 1000 = 0 ↔ (nowMs.toNat + 1) % 1000 = 0 := by
    rw [← UInt32.toNat_inj, UInt32.toNat_mod, next]
    rfl
  rw [← UInt32.toNat_inj, UInt32.toNat_div, next]
  split
  next begins =>
    rw [UInt32.toNat_add, UInt32.toNat_div]
    simp only [UInt32.reduceToNat]
    have := turns.mp begins
    omega
  next within =>
    have := mt turns.mpr within
    rw [UInt32.add_zero, UInt32.toNat_div]
    simp only [UInt32.reduceToNat]
    omega

/-- A millisecond later the clock reads a second more, or the same. -/
theorem Follows.tick (follows : Follows calls nowMs rtc) (before : nowMs.toNat + 1 < UInt32.size) :
    Follows calls (nowMs + 1) (if (nowMs + 1) % 1000 = 0 then rtc + 1 else rtc) where
  now := by
    rw [rtcAt, second_begins before, follows.now, rtcAt]
    split
    · simp only [UInt32.sub_eq_add_neg]
      ac_rfl
    · rw [UInt32.add_zero]
  reads := follows.reads

namespace NativeNode

variable (app : App κ σ) {n n' : NativeNode κ (σ × List RtcCall) stuckIrqMs}

/-- The record in the application's state is one the clock follows. -/
def KeepsTime (n : NativeNode κ (σ × List RtcCall) stuckIrqMs) : Prop :=
  Follows n.app.2 n.g_sim_millis n.rtc

theorem exec_keepsTime (p : Prog κ σ) (follows : Follows calls n.g_sim_millis n.rtc)
    (ran : n.exec (p.timed calls) = some n') : n'.KeepsTime := by
  induction p generalizing n calls with
  | done s => exact Option.some.inj ran ▸ follows
  | spiTransfer out next ih =>
    simp only [Prog.timed, exec, Option.bind_eq_bind, Option.bind_eq_some_iff] at ran
    obtain ⟨⟨hal,inp⟩,_,ran⟩ := ran
    exact ih inp (n := { n with hal }) follows ran
  | delay _ next ih | delayMicroseconds _ next ih | yield next ih =>
    simp only [Prog.timed, exec, Option.bind_eq_bind, Option.bind_eq_some_iff] at ran
    obtain ⟨hal,_,ran⟩ := ran
    exact ih (n := { n with hal }) follows ran
  | setCurrentTime t next ih => exact ih (n := { n with rtc := t }) (follows.set t) ran
  | getCurrentTime next ih => exact ih n.rtc follows.read ran
  | attachInterrupt cb next ih =>
    exact ih (n := { n with hal := n.hal.attachInterrupt cb }) follows ran
  | detachInterrupt next ih => exact ih (n := { n with hal := n.hal.detachInterrupt }) follows ran
  | consoleWrite p next ih =>
    exact ih (n := { n with gConsoleOut := n.gConsoleOut ++ p }) follows ran
  | consoleRead next ih =>
    exact ih _ (n := { n with gConsoleIn := n.gConsoleIn.tail }) follows ran
  | digitalRead _ next ih | millis next ih | micros next ih | simMillis next ih
  | consoleAvailable next ih | consolePeek next ih => exact ih _ follows ran

theorem pass_keepsTime (keeps : n.KeepsTime) (passed : n.pass app.timed = some n') :
    n'.KeepsTime := by
  obtain ⟨hal,m,last,_,serviced,looped,rfl⟩ := pass_parts app.timed passed
  have interrupted : m.KeepsTime := by
    obtain rfl | ⟨_,d,ran,rfl⟩ := servicePendingIrq_cases app.timed serviced
    · exact keeps
    · have kept : d.KeepsTime := exec_keepsTime (n := { n with hal := { hal with inIsr := true } })
        _ keeps ran
      exact kept
  have kept : last.KeepsTime := exec_keepsTime _ interrupted looped
  exact kept

/-- A millisecond of the loop, which goes no further than the clock can. -/
theorem tickOnce_keepsTime (keeps : n.KeepsTime) (before : n.g_sim_millis < atMs)
    (ticked : n.tickOnce app.timed = some n') : n'.KeepsTime := by
  have bound := atMs.toNat_lt_size
  have ahead := UInt32.lt_iff_toNat_lt.mp before
  exact pass_keepsTime app (n := { n with
    g_sim_millis := n.g_sim_millis + 1
    rtc := if (n.g_sim_millis + 1) % 1000 = 0 then n.rtc + 1 else n.rtc })
    (Follows.tick keeps (by omega)) ticked

theorem tickTo_keepsTime (keeps : n.KeepsTime) (ticked : n.tickTo app.timed atMs = some n') :
    n'.KeepsTime := by
  refine whileLoop_keeps KeepsTime (fun a b kept goes turn => ?_) _ ticked keeps
  exact tickOnce_keepsTime app kept (of_decide_eq_true goes) turn

theorem flushConsole_keepsTime (keeps : n.KeepsTime) : n.flushConsole.KeepsTime := by
  rw [flushConsole]
  split <;> exact keeps

theorem step_keepsTime (keeps : n.KeepsTime) (stepped : n.step app.timed m = some n') :
    n'.KeepsTime := by
  rw [step] at stepped
  split at stepped
  case isFalse => exact Option.some.inj stepped ▸ keeps
  rcases handle_cases app.timed stepped with ⟨_,_,_,_,_,rfl⟩ | ⟨_,handled⟩ | ⟨_,_,rfl⟩
  · exact keeps
  · obtain ⟨_,last,ticked,passed,rfl⟩ := handleTick_parts app.timed handled
    have kept := pass_keepsTime app (tickTo_keepsTime app keeps ticked) passed
    exact flushConsole_keepsTime kept
  · exact keeps

theorem boot_keepsTime (booted : boot app.timed stuckIrqMs = some n) : n.KeepsTime := by
  simp only [boot, Option.bind_eq_bind, Option.bind_eq_some_iff, Option.some.injEq] at booted
  obtain ⟨set,ran,rfl⟩ := booted
  have start : Follows [] (0 : UInt32) 1754700000 := ⟨by decide,by simp⟩
  have kept : set.KeepsTime := exec_keepsTime _ start ran
  exact flushConsole_keepsTime (n := set.drainTx) kept

end NativeNode

open NativeNode

/-- Whatever ticks a node is sent and whenever its firmware sets the clock, the clock reads,
then and to the firmware at any time, the seconds that have begun since it was set. -/
theorem rtc_follows (app : App κ σ) (ms : List Msg) {n : NativeNode κ σ stuckIrqMs}
    (ran : (boot app stuckIrqMs).bind (run (step app) · ms) = some n) :
    ∃ calls : List RtcCall,
      (boot app.timed stuckIrqMs).bind (run (step app.timed) · ms) =
        some (n.holding (n.app,calls)) ∧
      n.rtc = rtcAt calls n.g_sim_millis ∧
      ∀ pre m t, pre ++ [.read m t] <+: calls → t = rtcAt pre m := by
  have seen : ((boot app.timed stuckIrqMs).bind (run (step app.timed) · ms)).map (·.seen Prod.fst) =
      (boot app stuckIrqMs).bind (run (step app) · ms) := run_seen app.timed_shows ms
  rw [ran, Option.map_eq_some_iff] at seen
  obtain ⟨d,timed,rfl⟩ := seen
  obtain ⟨start,booted,steps⟩ := Option.bind_eq_some_iff.mp timed
  have kept := run_invariant KeepsTime (fun _ _ _ keeps stepped => step_keepsTime app keeps stepped)
    steps (boot_keepsTime app booted)
  exact ⟨d.app.2,timed,kept.now,kept.reads⟩

/-- An application that reads the clock on every pass, and sets it at the second. -/
def clockwork : App Unit Unit where
  start := ()
  setup _ := .done ()
  loop _ := .simMillis fun m =>
    if m = 2 then .setCurrentTime 7 (.getCurrentTime fun _ => .done ())
    else .getCurrentTime fun _ => .done ()
  isr _ _ := .done ()

/-- It is sent on to the third millisecond, and then back. -/
theorem rtc_follows_clockwork : ∃ (n : NativeNode Unit Unit 0) (calls : List RtcCall),
    (boot clockwork 0).bind (run (step clockwork) · [⟨kTick,[0,0,0,3]⟩,⟨kTick,[0,0,0,1]⟩]) =
      some n ∧ n.rtc = rtcAt calls n.g_sim_millis := by
  have runs : ((boot clockwork 0).bind (run (step clockwork) ·
      [⟨kTick,[0,0,0,3]⟩,⟨kTick,[0,0,0,1]⟩])).isSome := by decide +kernel
  obtain ⟨n,ran⟩ := Option.isSome_iff_exists.mp runs
  obtain ⟨calls,_,now,_⟩ := rtc_follows clockwork _ ran
  exact ⟨n,calls,ran,now⟩

end Meshcore
