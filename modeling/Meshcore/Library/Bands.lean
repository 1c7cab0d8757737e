import Meshcore.Library.Blocks
import Mathlib.Tactic.Positivity
import Mathlib.Tactic.Ring

/-! Functions of a count that keep to a band along a straight line, as those do that climb in
steps. Scaling and shifting one scales and shifts its band, and where two bands have parted by
a whole unit, the functions in them differ by one even when they are rounded down. -/
namespace Bands

universe u
variable {R : Type u} [Field R] [LinearOrder R] [IsStrictOrderedRing R]

/-- From `base` up at `slope`, and `width` across. -/
structure Band (R : Type u) where
  slope : R
  base : R
  width : R

namespace Band

/-- The lower edge at `n`; the upper is `width` above it. -/
def edge (b : Band R) (n : ℕ) : R := b.slope * n + b.base

def Holds (b : Band R) (f : ℕ → R) : Prop :=
  ∀ n, b.edge n ≤ f n ∧ f n ≤ b.edge n + b.width

def affine (scale shift : R) (b : Band R) : Band R :=
  ⟨scale * b.slope,scale * b.base + shift,scale * b.width⟩

/-- From `start` on the first is a whole unit below the second. -/
def Below (a b : Band R) (start : ℕ) : Prop :=
  a.slope ≤ b.slope ∧ a.edge start + a.width + 1 ≤ b.edge start

instance (a b : Band R) (start : ℕ) : Decidable (a.Below b start) :=
  inferInstanceAs (Decidable (_ ∧ _))

/-- Where a steeper band has made up for its base. -/
def meets [FloorSemiring R] (a b : Band R) : ℕ :=
  ⌈(a.base + a.width + 1 - b.base) / (b.slope - a.slope)⌉₊

end Band

open Band

variable {a b : Band R} {f g : ℕ → R}

theorem Band.Holds.affine (held : b.Holds f) {scale : R} (positive : 0 ≤ scale) (shift : R) :
    (b.affine scale shift).Holds fun n => scale * f n + shift := by
  intro n
  have lower := mul_le_mul_of_nonneg_left (held n).1 positive
  have upper := mul_le_mul_of_nonneg_left (held n).2 positive
  simp only [edge, Band.affine] at lower upper ⊢
  constructor <;> linarith

/-- Bands that part do not come together again. -/
theorem Band.Below.edge (below : a.Below b start) (late : start ≤ n) :
    a.edge n + a.width + 1 ≤ b.edge n := by
  obtain ⟨slope,clear⟩ := below
  have later : (start : R) ≤ n := by exact_mod_cast late
  have gained := mul_le_mul_of_nonneg_right slope (sub_nonneg.mpr later)
  simp only [Band.edge] at clear ⊢
  linarith

theorem floor_lt [FloorRing R] (lower : a.Holds f) (upper : b.Holds g)
    (below : a.Below b start) (late : start ≤ n) : ⌊f n⌋ < ⌊g n⌋ := by
  have apart : f n + 1 ≤ g n := by
    have under := (lower n).2
    have above := (upper n).1
    have parted := below.edge late
    linarith
  have rounded := Int.floor_mono apart
  rw [Int.floor_add_one] at rounded
  exact Int.lt_of_add_one_le rounded

/-- Blocks that fill at a constant rate. -/
theorem blocks_holds {size : ℕ} (room : 0 < size) (rate : ℕ) {offset : ℤ} (few : -offset < size) :
    Band.Holds (⟨rate / size,offset / size,(size - 1) / size⟩ : Band R)
      fun n => (Blocks.blocks size (rate * n + offset) : R) := by
  intro n
  have positive : (0 : R) < size := by exact_mod_cast room
  have filled : (0 : ℤ) ≤ rate * n := by positivity
  have some : -(rate * n + offset : ℤ) < size := by omega
  obtain ⟨lower,upper⟩ := Blocks.blocks_bounds room some
  have lower : (rate * n + offset : R) ≤ Blocks.blocks size (rate * n + offset) * size := by
    exact_mod_cast lower
  have upper : (Blocks.blocks size (rate * n + offset) * size : R) ≤
      rate * n + offset + size - 1 := by
    exact_mod_cast upper
  have edge : (rate / size * n + offset / size : R) = (rate * n + offset) / size := by ring
  have above : ((rate * n + offset) / size + (size - 1) / size : R) =
      (rate * n + offset + size - 1) / size := by ring
  simp only [Band.edge]
  rw [edge, above]
  exact ⟨(div_le_iff₀ positive).mpr lower,(le_div_iff₀ positive).mpr upper⟩

end Bands
