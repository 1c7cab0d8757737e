import Meshcore.Library.Checked

/-! A bounded memory as a total map: every address has a value, a store past the bound
is dropped cell by cell, and a block of cells is seen through what each of its
addresses reads as. -/
namespace Cells

open Checked

universe u
variable {α : Type u} {n : Nat}

/-- `m` with `src` stored from `start` on, as far as there are cells below `n`. -/
def store (n : Nat) (m : Nat → α) (start : Nat) (src : List α) : Nat → α := fun i =>
  if start ≤ i ∧ i < n then (src[i - start]?).getD (m i) else m i

/-- Every address of the block, and every one past it, reads as the map has it. -/
def Reads (b : Block n α) (fill : α) (m : Nat → α) : Prop := ∀ i, (b.get? i).getD fill = m i

theorem store_of_ge (m : Nat → α) (start : Nat) (src : List α) (h : n ≤ i) :
    store n m start src i = m i := if_neg fun both => Nat.not_lt.mpr h both.2

theorem reads_fill (fill : α) : Reads (fun _ : Fin n => fill) fill fun _ => fill := by
  intro i
  simp only [Block.get?]
  split <;> rfl

theorem Reads.overlay {b : Block n α} {fill : α} {m : Nat → α} (reads : Reads b fill m)
    (start : Nat) (src : List α) : Reads (b.overlay start src) fill (store n m start src) := by
  intro i
  rw [get?_overlay_or, store, ← reads i]
  split
  · cases src[i - start]? <;> rfl
  · rfl

end Cells
