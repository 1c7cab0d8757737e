import Mathlib.Data.Int.ModEq
import Mathlib.Data.Nat.Prime.Defs
import Mathlib.Logic.Function.Iterate
import Mathlib.RingTheory.ZMod.UnitsCyclic
import Mathlib.Tactic.Ring
import Mathlib.Tactic.Linarith

/-! Pseudo-random generators over words. A word xored with a shift of itself can be told
from the result. Two states of a congruential generator keep apart, and far enough that
a window of their bits shows it. -/
namespace Generators

section Shifts

variable {w k : ℕ}

/-- The bits of the operand are found from the top down. -/
theorem xorRight_injective (moved : 0 < k) :
    Function.Injective fun x : BitVec w => x ^^^ x >>> k := by
  intro x y same
  have bits (i : ℕ) : ((x.getLsbD i) ^^ x.getLsbD (k + i)) = (y.getLsbD i ^^ y.getLsbD (k + i)) := by
    simpa using congrArg (BitVec.getLsbD · i) same
  have fromTop (depth i : ℕ) (far : w ≤ i + depth) : x.getLsbD i = y.getLsbD i := by
    induction depth generalizing i with
    | zero => rw [BitVec.getLsbD_of_ge x i far, BitVec.getLsbD_of_ge y i far]
    | succ depth ih =>
      have above := ih (k + i) (by omega)
      have here := bits i
      rw [above] at here
      exact Bool.xor_left_inj.mp here
  exact BitVec.eq_of_getLsbD_eq fun i _ => fromTop w i (by omega)

/-- The bits of the operand are found from the bottom up. -/
theorem xorLeft_injective (moved : 0 < k) :
    Function.Injective fun x : BitVec w => x ^^^ x <<< k := by
  intro x y same
  refine BitVec.eq_of_getLsbD_eq fun i inside => ?_
  induction i using Nat.strongRecOn with
  | ind i below =>
    have here : ((x ^^^ x <<< k).getLsbD i) = (y ^^^ y <<< k).getLsbD i :=
      congrArg (BitVec.getLsbD · i) same
    simp only [BitVec.getLsbD_xor, BitVec.getLsbD_shiftLeft, inside, decide_true,
      Bool.true_and] at here
    by_cases low : i < k
    · simpa [low] using here
    · rw [below (i - k) (by omega) (by omega)] at here
      exact Bool.xor_left_inj.mp here

end Shifts

section Congruential

/-- One step of the congruential generator. -/
def advance (a c m x : ℕ) : ℕ := (a * x + c) % m

variable {a c m : ℕ}

/-- A step multiplies what two states differ by. -/
theorem iterate_sub (n x y : ℕ) :
    ((advance a c m)^[n] x : ℤ) - (advance a c m)^[n] y ≡ a ^ n * (x - y) [ZMOD m] := by
  induction n with
  | zero => simp
  | succ n ih =>
    rw [Function.iterate_succ_apply', Function.iterate_succ_apply']
    generalize (advance a c m)^[n] x = u at ih ⊢
    generalize (advance a c m)^[n] y = v at ih ⊢
    have step (z : ℕ) : (advance a c m z : ℤ) ≡ a * z + c [ZMOD m] := by
      simpa [advance] using Int.mod_modEq (a * z + c : ℤ) m
    calc (advance a c m u : ℤ) - advance a c m v
        ≡ (a * u + c) - (a * v + c) [ZMOD m] := (step u).sub (step v)
      _ = a * (u - v) := by ring
      _ ≡ a * (a ^ n * (x - y)) [ZMOD m] := ih.mul_left _
      _ = a ^ (n + 1) * (x - y) := by ring

/-- A multiplier that is five modulo eight, raised to a power of two. -/
theorem pow_two_pow (five : a % 8 = 5) (j : ℕ) :
    ∃ q : ℤ, (a : ℤ) ^ 2 ^ j = 1 + 2 ^ (j + 2) * (2 * q + 1) := by
  obtain ⟨b,rfl⟩ : ∃ b, a = 1 + 4 * (2 * b + 1) := ⟨a / 8,by omega⟩
  obtain ⟨r,power⟩ := ZMod.exists_one_add_mul_pow_prime_pow_eq (u := (4 : ℤ)) (v := 2)
    Nat.prime_two (by norm_num) (by norm_num) (2 * b + 1) j
  refine ⟨b + r,?_⟩
  push_cast at power ⊢
  rw [power]
  ring

/-- Equal windows of bits leave two states close together, as far as the window tells. -/
theorem close_of_window {low width x y : ℕ}
    (same : x / 2 ^ low % 2 ^ width = y / 2 ^ low % 2 ^ width) :
    ∃ e : ℤ, |e| < 2 ^ low ∧ (x : ℤ) - y ≡ e [ZMOD 2 ^ (low + width)] := by
  have positive : 0 < 2 ^ low := Nat.two_pow_pos low
  have xParts := Nat.div_add_mod x (2 ^ low)
  have yParts := Nat.div_add_mod y (2 ^ low)
  have xHigh := Nat.div_add_mod (x / 2 ^ low) (2 ^ width)
  have yHigh := Nat.div_add_mod (y / 2 ^ low) (2 ^ width)
  refine ⟨(x % 2 ^ low : ℕ) - (y % 2 ^ low : ℕ),?_,?_⟩
  · apply abs_sub_lt_of_nonneg_of_lt
    · exact Int.natCast_nonneg _
    · exact_mod_cast Nat.mod_lt x positive
    · exact Int.natCast_nonneg _
    · exact_mod_cast Nat.mod_lt y positive
  · apply Int.ModEq.symm
    rw [Int.modEq_iff_dvd]
    refine ⟨(x / 2 ^ low / 2 ^ width : ℕ) - (y / 2 ^ low / 2 ^ width : ℕ),?_⟩
    zify at xParts yParts xHigh yHigh same
    push_cast
    rw [pow_add]
    linear_combination (-1 : ℤ) * xParts + yParts - 2 ^ low * xHigh + 2 ^ low * yHigh +
      2 ^ low * same

theorem exists_two_pow_mul_odd {d : ℤ} (nonzero : d ≠ 0) : ∃ t o, d = 2 ^ t * (2 * o + 1) := by
  have finite : FiniteMultiplicity 2 d := Int.finiteMultiplicity_iff.mpr ⟨by decide,nonzero⟩
  obtain ⟨odd,split,notEven⟩ := finite.exists_eq_pow_mul_and_not_dvd
  exact ⟨_,odd / 2,split.trans (by congr 1; omega)⟩

/-- Two states that are closer than a window of bits is low are told apart in it. -/
theorem windows_differ (bits low width : ℕ) {x y : ℕ} (five : a % 8 = 5) (wide : 2 ≤ width)
    (inside : low + width ≤ bits) (ne : x ≠ y) (near : |(x : ℤ) - y| < 2 ^ low) :
    ∃ n, 0 < n ∧ (advance a c (2 ^ bits))^[n] x / 2 ^ low % 2 ^ width ≠
      (advance a c (2 ^ bits))^[n] y / 2 ^ low % 2 ^ width := by
  by_contra same
  push Not at same
  obtain ⟨t,o,split⟩ := exists_two_pow_mul_odd (sub_ne_zero.mpr (Nat.cast_injective.ne ne))
  have odd_big (k : ℕ) (z : ℤ) : 2 ^ k ≤ |(2 : ℤ) ^ k * (2 * z + 1)| := by
    have positive : (0 : ℤ) < 2 ^ k := by positivity
    rw [abs_mul, abs_of_pos positive]
    exact le_mul_of_one_le_right positive.le (Int.one_le_abs (by omega))
  have low_bound : t < low := by
    have big := (odd_big t o).trans_lt (split ▸ near)
    exact (pow_lt_pow_iff_right₀ one_lt_two).mp big
  -- after `2 ^ j` steps the difference has moved by the window's highest bit
  obtain ⟨j,position⟩ : ∃ j, low + width = t + j + 3 := ⟨low + width - t - 3,by omega⟩
  obtain ⟨q,power⟩ := pow_two_pow five j
  obtain ⟨e,small,apart⟩ := close_of_window (same (2 ^ j) (by positivity))
  have divides : (2 : ℤ) ^ (low + width) ∣ (2 ^ bits : ℕ) := by
    push_cast
    exact pow_dvd_pow 2 inside
  have moved := (iterate_sub (a := a) (c := c) (2 ^ j) x y).of_dvd divides
  obtain ⟨z,gap⟩ := (moved.symm.trans apart).dvd
  have shift : e - (x - y) = 2 ^ (t + j + 2) * (2 * (2 * o * q + o + q + z) + 1) := by
    rw [position] at gap
    rw [power, split] at gap
    rw [split]
    linear_combination gap
  have close : |e - ((x : ℤ) - y)| < 2 ^ low + 2 ^ low := (abs_sub _ _).trans_lt (add_lt_add small near)
  have room : (2 : ℤ) ^ low + 2 ^ low ≤ 2 ^ (t + j + 2) := by
    rw [← two_mul, ← pow_succ']
    exact pow_le_pow_right₀ one_le_two (by omega)
  have big := odd_big (t + j + 2) (2 * o * q + o + q + z)
  rw [← shift] at big
  omega

end Congruential

end Generators
