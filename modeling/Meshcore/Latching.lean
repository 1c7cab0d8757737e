import Meshcore.Overrun
import Meshcore.Stores

/-! The interrupt register is sticky. Whatever an operation is, it keeps the flags that
are set but for those a complete `ClearIrqStatus` names, and such a command is the
only one that lowers any. -/
namespace Meshcore

open Flags Runs

namespace Chip

/-- The flags an operation names to be cleared. -/
def clears (c : Chip) (op : ChipOp) : BitVec 16 :=
  match c.executed op .clearIrqStatus 3 with
  | some cmd => be16 (arg cmd 1) (arg cmd 2)
  | none => 0

/-- The flags an operation raises. -/
def raises (c : Chip) (op : ChipOp) : BitVec 16 :=
  match c.event op with
  | some e => c.raised e
  | none => 0

theorem step_irq {c next : Chip} (stepped : c.step op = some next) :
    next.irq = latch c.irq (c.clears op) (c.raises op) := by
  rw [clears, raises, executed]
  rcases step_event stepped with ⟨event,core⟩ | ⟨e,d,event,applied,core⟩
  · rw [core_irq core, event]
    exact (latch_none _).symm
  · rw [core_irq core, apply_irq applied, event]
    rfl

/-- A `ClearIrqStatus` raises nothing. -/
theorem raises_of_clear {c : Chip} (clear : c.executed op .clearIrqStatus 3 = some cmd) :
    c.raises op = 0 := by
  obtain ⟨event,code,_⟩ := executed_eq_some.mp clear
  simp [raises,event,raised,code]

/-- A flag that no operation of a run names is still set at its end. -/
theorem run_latched {c d : Chip} {i : Nat} (ran : run step c ops = some d)
    (kept : Each step (fun c op => (c.clears op).getLsbD i = false) c ops)
    (set : c.irq.getLsbD i = true) : d.irq.getLsbD i = true := by
  refine run_invariant_of_each (fun d : Chip => d.irq.getLsbD i = true) ?_ ran kept set
  intro c op next before unnamed stepped
  rw [step_irq stepped]
  exact latch_keeps before unnamed

/-- In every run an operation keeps the flags that are set, but for those that a complete
`ClearIrqStatus` names, which it clears exactly; and a flag no operation names in the
course of a run outlasts it. -/
theorem flags_latch {c d : Chip} (ops : List ChipOp) (ran : run step c ops = some d) :
    (∀ op next, d.step op = some next →
      (∀ i, d.irq.getLsbD i = true → next.irq.getLsbD i = true ∨ ∃ cmd,
        d.executed op .clearIrqStatus 3 = some cmd ∧
          (be16 (arg cmd 1) (arg cmd 2)).getLsbD i = true) ∧
      ∀ cmd, d.executed op .clearIrqStatus 3 = some cmd →
        next.irq = d.irq &&& ~~~be16 (arg cmd 1) (arg cmd 2)) ∧
    ∀ i, c.irq.getLsbD i = true →
      Each step (fun c op => (c.clears op).getLsbD i = false) c ops → d.irq.getLsbD i = true := by
  refine ⟨fun op next stepped => ⟨fun i set => ?_,fun cmd clear => ?_⟩,
    fun i set unnamed => run_latched ran unnamed set⟩
  · cases named : (d.clears op).getLsbD i with
    | false => exact .inl (step_irq stepped ▸ latch_keeps set named)
    | true =>
      rw [clears] at named
      split at named
      next cmd clear => exact .inr ⟨cmd,clear,named⟩
      next => simp at named
  · rw [step_irq stepped, raises_of_clear clear, clears, clear]
    simp [latch]

theorem flags_latch_cleared : ∃ c, run step (new 0) [.spiTransfer [0x83,0x00,0x00,0x00],.txDone] =
      some c ∧
    ∀ next, c.step (.spiTransfer [0x02,0x00,0x01]) = some next → next.irq = c.irq &&& ~~~0x0001 := by
  have reached : (run step (new 0) [.spiTransfer [0x83,0x00,0x00,0x00],.txDone]).map (fun c =>
      c.executed (.spiTransfer [0x02,0x00,0x01]) .clearIrqStatus 3) =
        some (some [0x02,0x00,0x01]) := by
    decide +kernel
  obtain ⟨c,ran,clear⟩ := Option.map_eq_some_iff.mp reached
  exact ⟨c,ran,fun next stepped => ((flags_latch _ ran).1 _ next stepped).2 _ clear⟩

/-- Receive base 255: a tick copies the last byte of a frame over the low byte of `irq_`,
and the end of a scan that nobody cleared is gone. -/
theorem flags_latch_overrun : ¬∀ (ops : List ChipOp) (c : Chip), run stepPast (new 0) ops = some c →
    ∀ op next, c.stepPast op = some next → ∀ i, c.irq.getLsbD i = true →
      next.irq.getLsbD i = true ∨ ∃ cmd, c.executed op .clearIrqStatus 3 = some cmd ∧
        (be16 (arg cmd 1) (arg cmd 2)).getLsbD i = true := by
  intro latch
  have lowered : (run stepPast (new 0) [.spiTransfer [0xC5],.spiTransfer [0x8F,0x00,0xFF],
      .spiTransfer [0x82,0xFF,0xFF,0xFF],.frame [0x11,0x22,0x33,0x00]]).map (fun c =>
        (c.irq.getLsbD 7,(c.stepPast (.tick 1)).map fun d => d.irq.getLsbD 7)) =
      some (true,some false) := by
    decide +kernel
  obtain ⟨c,ran,flags⟩ := Option.map_eq_some_iff.mp lowered
  obtain ⟨high,after⟩ := Prod.mk.inj flags
  obtain ⟨next,stepped,low⟩ := Option.map_eq_some_iff.mp after
  rcases latch _ c ran _ next stepped 7 high with set | ⟨cmd,clear,_⟩
  · exact absurd (set.symm.trans low) (by decide)
  · cases clear

end Chip
end Meshcore
