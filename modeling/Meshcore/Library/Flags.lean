import Mathlib.Tactic.Tauto
import Mathlib.Tactic.ByContra

/-! Status words tested and cleared through masks, of any width. -/
namespace Flags

variable {w : Nat} {word other mask named : BitVec w}

/-- `word & mask`, as a C condition reads it. -/
def any (word mask : BitVec w) : Bool := word &&& mask != 0#w

theorem any_eq_true : any word mask = true ↔ word &&& mask ≠ 0#w := by simp [any]

theorem any_eq_false : any word mask = false ↔ word &&& mask = 0#w := by simp [any]

@[simp] theorem any_zero_left : any 0#w mask = false := by simp [any]

@[simp] theorem any_or : any (word ||| other) mask = (any word mask || any other mask) := by
  rw [Bool.eq_iff_iff, Bool.or_eq_true]
  simp only [any_eq_true, ne_eq, BitVec.and_or_distrib_right, BitVec.or_eq_zero_iff]
  tauto

@[simp] theorem any_ite (p : Prop) [Decidable p] :
    any (if p then word else other) mask = if p then any word mask else any other mask :=
  apply_ite (fun v => any v mask) p word other

/-- A test finds a bit that the word and the mask share. -/
theorem any_iff_bit : any word mask = true ↔
    ∃ i, word.getLsbD i = true ∧ mask.getLsbD i = true := by
  rw [any_eq_true]
  constructor
  · intro apart
    by_contra none
    refine apart (BitVec.eq_of_getLsbD_eq fun i _ => ?_)
    rw [BitVec.getLsbD_and, BitVec.getLsbD_zero, Bool.and_eq_false_iff]
    by_contra both
    simp only [not_or, Bool.not_eq_false] at both
    exact none ⟨i,both⟩
  · rintro ⟨i,first,second⟩ zero
    have bit := congrArg (fun v : BitVec w => v.getLsbD i) zero
    simp [first,second] at bit

/-- A test through a wider mask finds no less. -/
theorem any_of_narrower (wider : named &&& mask = named) (h : any word named = true) :
    any word mask = true := by
  obtain ⟨i,set,bit⟩ := any_iff_bit.mp h
  rw [← wider, BitVec.getLsbD_and, Bool.and_eq_true] at bit
  exact any_iff_bit.mpr ⟨i,set,bit.2⟩

/-- Clearing bits never raises a test. -/
theorem any_of_any_clear (h : any (word &&& ~~~named) mask = true) : any word mask = true := by
  simp only [any_eq_true, ne_eq] at h ⊢
  intro none
  apply h
  rw [BitVec.and_assoc, BitVec.and_comm (~~~named), ← BitVec.and_assoc, none, BitVec.zero_and]

/-- Clearing bits the mask does not name leaves its test alone. -/
theorem any_clear_of_apart (apart : any named mask = false) :
    any (word &&& ~~~named) mask = any word mask := by
  have kept : ~~~named &&& mask = mask := by
    have := any_eq_false.mp apart
    ext i h
    have bit := congrArg (fun v : BitVec w => v[i]) this
    simp only [BitVec.getElem_and, BitVec.getElem_zero] at bit
    simp only [BitVec.getElem_and, BitVec.getElem_not]
    cases raised : named[i] <;> simp_all
  simp only [any, BitVec.and_assoc, kept]

/-- A mask of one bit. -/
def Single (mask : BitVec w) : Prop := ∃ i, mask = BitVec.twoPow w i

/-- A single bit that a clear names is clear afterwards. -/
theorem any_clear_of_named (single : Single mask) (h : any named mask = true) :
    any (word &&& ~~~named) mask = false := by
  obtain ⟨i,rfl⟩ := single
  rw [any_eq_true, BitVec.and_twoPow] at h
  rw [any_eq_false, BitVec.and_twoPow]
  have set : named.getLsbD i = true := by
    by_contra unset
    simp [unset] at h
  simp [set]

/-- A sticky status word: first the named bits go, then the raised ones are set. -/
def latch (word named raised : BitVec w) : BitVec w := word &&& ~~~named ||| raised

@[simp] theorem latch_none (word : BitVec w) : latch word 0#w 0#w = word := by
  simp [latch]

theorem latch_raise (word raised : BitVec w) : latch word 0#w raised = word ||| raised := by
  simp [latch]

/-- A bit of a sticky word that is not named stays set. -/
theorem latch_keeps {raised : BitVec w} {i : Nat} (set : word.getLsbD i = true)
    (kept : named.getLsbD i = false) : (latch word named raised).getLsbD i = true := by
  have bound := BitVec.lt_of_getLsbD set
  rw [latch, BitVec.getLsbD_or, BitVec.getLsbD_and, BitVec.getLsbD_not, set, kept]
  simp [bound]

/-- A bit of a sticky word is set because it was, or because it has just been raised. -/
theorem any_latch {raised : BitVec w} (h : any (latch word named raised) mask = true) :
    any word mask = true ∨ any raised mask = true := by
  rw [latch, any_or, Bool.or_eq_true] at h
  exact h.imp_left any_of_any_clear

/-- A bit that is not named stays as it is, but for what has been raised. -/
theorem any_latch_of_kept {raised : BitVec w} (kept : any named mask = false) :
    any (latch word named raised) mask = (any word mask || any raised mask) := by
  rw [latch, any_or, any_clear_of_apart kept]

theorem any_latch_of_named {raised : BitVec w} (single : Single mask)
    (cleared : any named mask = true) : any (latch word named raised) mask = any raised mask := by
  rw [latch, any_or, any_clear_of_named single cleared, Bool.false_or]

end Flags
