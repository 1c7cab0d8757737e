import Meshcore.EarlyTicks

/-! The time with the busy flags up. It is the sum of the spans between ticks at whose end
the flags were up, whatever had put them there and whatever the chip was doing, so the
count is a part of the time that has passed. -/
namespace Meshcore

open Checked Flags Runs

namespace Chip

/-- The time of the last tick, and how much of it the flags were found up. -/
structure Stopwatch where
  clock : ℕ := 0
  busy : ℕ := 0

def Stopwatch.after (c : Chip) (op : ChipOp) (_ : Chip) (w : Stopwatch) : Stopwatch :=
  match op.time? with
  | some t => ⟨t.toNat,w.busy + if c.busyFlags then t.toNat - w.clock else 0⟩
  | none => w

/-- The ticks of a run, timed from zero. -/
def stopwatch (start : Chip) (ops : List ChipOp) : Stopwatch :=
  history step Stopwatch.after start {} ops

/-- The chip has counted what a stopwatch shows. -/
structure Counted (c : Chip) (s : Signal) (w : Stopwatch) : Prop where
  last : c.lastBusyTickMs = s.clock
  clock : s.clock.toNat = w.clock
  busy : c.busyMs = UInt32.ofNat w.busy
  within : w.busy ≤ w.clock

variable {c d : Chip} {s : Signal} {w : Stopwatch}

/-- A tick counts the time since the one before, if it finds a flag up. -/
theorem tick_counts {t : UInt64} (last : c.lastBusyTickMs ≤ t) (ticked : c.tick t = some d) :
    d.busyMs = c.busyMs +
      UInt32.ofNat (if c.busyFlags then t.toNat - c.lastBusyTickMs.toNat else 0) := by
  have span : (t - c.lastBusyTickMs).toUInt32 =
      UInt32.ofNat (t.toNat - c.lastBusyTickMs.toNat) := by
    rw [← UInt64.toNat_sub_of_le _ _ last, ← UInt32.toNat_inj, UInt64.toNat_toUInt32,
      UInt32.toNat_ofNat']
  rw [tick_busyMs ticked]
  by_cases up : c.busyFlags = true
  · rcases UInt64.lt_or_eq_of_le last with later | same
    · rw [if_pos ⟨up,later⟩, if_pos up, span]
    · have still : ¬(c.busyFlags = true ∧ t > c.lastBusyTickMs) :=
        fun both => absurd (same ▸ both.2) (UInt64.lt_irrefl _)
      rw [if_neg still, if_pos up, same]
      simp
  · have low : ¬(c.busyFlags = true ∧ t > c.lastBusyTickMs) := fun both => up both.1
    rw [if_neg low, if_neg up]
    simp

theorem counted_step (counted : Counted c s w) (stepped : c.step op = some d)
    (timely : ∀ t, op.time? = some t → s.clock ≤ t) : Counted d (s.hear op) (w.after c op d) := by
  cases timed : op.time? with
  | none =>
    obtain ⟨books,_⟩ := step_books stepped timed
    have still := s.hear_untimed timed
    rw [Stopwatch.after, timed]
    refine ⟨?_,?_,?_,counted.within⟩
    · rw [still, ← counted.last]
      exact congrArg Books.lastBusyTickMs books
    · rw [still, counted.clock]
    · rw [← counted.busy]
      exact congrArg Books.busyMs books
  | some t =>
    have after := timely t timed
    obtain rfl := ChipOp.time?_eq_some.mp timed
    have ordered := UInt64.le_iff_toNat_le.mp after
    have within := counted.within
    rw [counted.clock] at ordered
    refine ⟨tick_lastBusyTickMs stepped,rfl,?_,?_⟩
    · rw [tick_counts (counted.last ▸ after) stepped, counted.last, counted.clock, counted.busy,
        ← UInt32.ofNat_add]
      rfl
    · simp only [Stopwatch.after, ChipOp.time?]
      split <;> omega

theorem run_counted {stuckIrqMs : UInt32} (reached : run step (new stuckIrqMs) ops = some c)
    (timely : Timely ops) : Counted c (signal ops) (stopwatch (new stuckIrqMs) ops) := by
  refine run_induction (motive := fun ops c => Timely ops →
    Counted c (signal ops) (stopwatch (new stuckIrqMs) ops)) ?_ ?_ ops reached timely
  · exact fun _ => ⟨rfl,rfl,rfl,Nat.le_refl _⟩
  · intro ops c op d ran stepped counted timely
    rw [signal_concat, stopwatch, history_concat ran stepped]
    refine counted_step (counted timely.prefix) stepped fun t timed => ?_
    obtain rfl := ChipOp.time?_eq_some.mp timed
    exact (signal_bounds ops t timely).1

/-- The busy time is exact, modulo its width: the spans that end in a tick which finds a
detection flag up, in whatever mode. It is no more than the time there has been, and a
millisecond that is ticked again is not counted again. -/
theorem busy_time_exact {stuckIrqMs : UInt32} (reached : run step (new stuckIrqMs) ops = some c)
    (timely : Timely ops) :
    c.busyMs.toNat = (stopwatch (new stuckIrqMs) ops).busy % UInt32.size ∧
      c.busyMs.toNat ≤ (signal ops).clock.toNat ∧
      (∀ d, c.tick (signal ops).clock = some d → d.busyMs = c.busyMs) ∧
      ∀ t d, (signal ops).clock ≤ t → c.busyFlags = true → c.tick t = some d →
        d.busyMs = c.busyMs + UInt32.ofNat (t.toNat - (signal ops).clock.toNat) := by
  have counted := run_counted reached timely
  have last := counted.last
  have busy : c.busyMs.toNat = (stopwatch (new stuckIrqMs) ops).busy % UInt32.size := by
    rw [counted.busy]
    rfl
  refine ⟨busy,?_,fun d ticked => ?_,fun t d after up ticked => ?_⟩
  · rw [busy, counted.clock]
    exact (Nat.mod_le _ _).trans counted.within
  · rw [← last] at ticked
    rw [tick_counts (UInt64.le_refl _) ticked]
    simp
  · rw [tick_counts (last ▸ after) ticked, if_pos up, last]

/-- A frame arrives at the seventh millisecond, and its flags are still up as the chip sends. -/
theorem busy_time_exact_sending : ∃ c : Chip,
    run step (new 0) [.spiTransfer [0x82,0,0,0],.tick 5,.frame [0x41],.tick 7,.tick 9,
      .spiTransfer [0x83,0,0,0],.tick 12,.tick 12] = some c ∧ c.busyMs.toNat = 5 := by
  let ops : List ChipOp := [.spiTransfer [0x82,0,0,0],.tick 5,.frame [0x41],.tick 7,.tick 9,
    .spiTransfer [0x83,0,0,0],.tick 12,.tick 12]
  have runs : (run step (new 0) ops).isSome := by decide +kernel
  have shown : (stopwatch (new 0) ops).busy = 5 := by decide +kernel
  obtain ⟨c,ran⟩ := Option.isSome_iff_exists.mp runs
  exact ⟨c,ran,(busy_time_exact ran (by decide)).1.trans (by rw [shown]; rfl)⟩

end Chip
end Meshcore
