import Mathlib.Data.Rat.Floor
import Mathlib.Tactic.Linarith
import Mathlib.Tactic.Ring

/-! How many blocks of a fixed size it takes to hold a number of items, none for a
number that is not positive: the least count with enough room. Rounding a quotient
up and the integer idiom for it both compute it. -/
namespace Blocks

/-- The number of blocks of `size` that hold `items`. -/
def blocks (size : ℕ) (items : ℤ) : ℕ := (items.toNat + size - 1) / size

variable {size : ℕ} {items : ℤ}

theorem blocks_le_iff (room : 0 < size) (k : ℕ) : blocks size items ≤ k ↔ items ≤ k * size := by
  have cast : (items ≤ k * size) ↔ items.toNat ≤ k * size := by
    rw [Int.toNat_le]
    norm_cast
  rw [blocks, cast, Nat.div_le_iff_le_mul_add_pred room, Nat.mul_comm]
  omega

theorem lt_blocks_iff (room : 0 < size) (k : ℕ) : k < blocks size items ↔ k * size < items := by
  rw [← not_le, blocks_le_iff room, not_le]

/-- The room left over is less than a block. -/
theorem blocks_bounds (room : 0 < size) (few : -items < size) :
    items ≤ blocks size items * size ∧ blocks size items * size ≤ items + size - 1 := by
  constructor
  · exact (blocks_le_iff room _).mp (le_refl (blocks size items))
  · cases count : blocks size items with
    | zero =>
      push_cast
      omega
    | succ k =>
      have beyond : k * size < items := (lt_blocks_iff room k).mp (by omega)
      have step : ((k + 1 : ℕ) : ℤ) * size = k * size + size := by
        push_cast
        ring
      omega

/-- Rounding the quotient up. -/
theorem ceil_eq_blocks (room : 0 < size) (items : ℤ) :
    max ⌈(items : ℚ) / size⌉ 0 = blocks size items := by
  have positive : (0 : ℚ) < size := by exact_mod_cast room
  have bound (k : ℕ) : max ⌈(items : ℚ) / size⌉ 0 ≤ k ↔ blocks size items ≤ k := by
    rw [blocks_le_iff room, max_le_iff, Int.ceil_le, div_le_iff₀ positive]
    simp only [Int.natCast_nonneg, and_true]
    exact_mod_cast Iff.rfl
  apply le_antisymm
  · exact (bound _).mpr le_rfl
  · obtain ⟨n,same⟩ := Int.eq_ofNat_of_zero_le (le_max_right ⌈(items : ℚ) / size⌉ 0)
    rw [same]
    exact_mod_cast (bound n).mp same.le

theorem natCeil_eq_blocks (room : 0 < size) (items : ℕ) :
    ⌈(items : ℚ) / size⌉₊ = blocks size items := by
  have positive : (0 : ℚ) < size := by exact_mod_cast room
  refine eq_of_forall_ge_iff fun k => ?_
  rw [Nat.ceil_le, div_le_iff₀ positive, blocks_le_iff room]
  exact_mod_cast Iff.rfl

/-- Adding one less than the size before an integer division. -/
theorem tdiv_eq_blocks (room : 0 < size) (items : ℤ) :
    (max items 0 + size - 1).tdiv size = blocks size items := by
  have whole : max items 0 = items.toNat := (Int.toNat_eq_max items).symm
  have sum : (items.toNat : ℤ) + size - 1 = ((items.toNat + size - 1 : ℕ) : ℤ) := by omega
  rw [whole, sum, blocks]
  exact Int.ofNat_tdiv _ _

/-- Scaling items and blocks alike. -/
theorem blocks_mul (room : 0 < size) {factor : ℕ} (some : 0 < factor) :
    blocks (factor * size) (factor * items) = blocks size items := by
  refine eq_of_forall_ge_iff fun k => ?_
  rw [blocks_le_iff (Nat.mul_pos some room), blocks_le_iff room]
  have positive : (0 : ℤ) < factor := by exact_mod_cast some
  push_cast
  constructor
  · intro fits
    nlinarith
  · intro fits
    nlinarith

/-- Larger blocks come to the same count exactly when some count has room in the smaller
ones and one less has not in the larger. -/
theorem blocks_eq_iff {larger : ℕ} (room : 0 < size) (more : size ≤ larger) :
    blocks size items = blocks larger items ↔
      items ≤ 0 ∨ ∃ k : ℕ, k * larger < items ∧ items ≤ (k + 1) * size := by
  have room' : 0 < larger := lt_of_lt_of_le room more
  have fewer : blocks larger items ≤ blocks size items := by
    rw [blocks_le_iff room']
    have fits := (blocks_le_iff room _).mp (le_refl (blocks size items))
    have wider : (blocks size items : ℤ) * size ≤ blocks size items * larger := by
      exact_mod_cast Nat.mul_le_mul_left _ more
    exact fits.trans wider
  constructor
  · intro same
    cases count : blocks size items with
    | zero =>
      left
      simpa using (blocks_le_iff room 0).mp count.le
    | succ k =>
      right
      refine ⟨k,(lt_blocks_iff room' k).mp (by omega),?_⟩
      exact_mod_cast (blocks_le_iff room (k + 1)).mp count.le
  · rintro (none | ⟨k,beyond,fits⟩)
    · have zero := (blocks_le_iff room 0).mpr (by simpa using none)
      omega
    · have above := (lt_blocks_iff room' k).mpr beyond
      have below := (blocks_le_iff room (k + 1)).mpr (by exact_mod_cast fits)
      omega

end Blocks
