/-! Fields of a word, named by a mask: a field is replaced with the rest of the word left
as it is, and read back. -/
namespace Fields

variable {w : Nat} {mask other old new : BitVec w}

/-- `old` with the field `mask` taken from `new`. -/
def replace (mask old new : BitVec w) : BitVec w := old &&& ~~~mask ||| new &&& mask

theorem getLsbD_replace (inside : i < w) : (replace mask old new).getLsbD i =
    if mask.getLsbD i = true then new.getLsbD i else old.getLsbD i := by
  simp only [replace, BitVec.getLsbD_or, BitVec.getLsbD_and, BitVec.getLsbD_not, inside,
    decide_true, Bool.true_and]
  cases mask.getLsbD i <;> simp

/-- A field that is replaced is read back. -/
theorem replace_field : replace mask old new &&& mask = new &&& mask := by
  refine BitVec.eq_of_getLsbD_eq fun i inside => ?_
  rw [BitVec.getLsbD_and, getLsbD_replace inside, BitVec.getLsbD_and]
  cases mask.getLsbD i <;> simp

/-- A word that has the field already is its own replacement. -/
theorem replace_of_field (same : old &&& mask = new &&& mask) : replace mask old new = old := by
  refine BitVec.eq_of_getLsbD_eq fun i inside => ?_
  have bit := congrArg (fun v : BitVec w => v.getLsbD i) same
  rw [getLsbD_replace inside]
  simp only [BitVec.getLsbD_and] at bit
  split
  next named => simpa [named] using bit.symm
  next => rfl

end Fields
