import Mathlib.Algebra.Group.Nat.Defs
import Mathlib.Data.List.Basic

/-! Bytes and smaller numbers packed into words of 32 bits, and taken out of them. -/
namespace Words

/-- A number put before a smaller one, as it is assembled and as it reads. -/
theorem shiftLeft_or (n : Nat) (small : low < 2 ^ k) : n <<< k ||| low = n * 2 ^ k + low := by
  rw [← Nat.shiftLeft_add_eq_or_of_lt small, Nat.shiftLeft_eq]

theorem shiftLeft_or_byte (n : Nat) (b : UInt8) : n <<< 8 ||| b.toNat = n * 256 + b.toNat :=
  shiftLeft_or n b.toNat_lt

theorem shiftLeft_or_sextet (n : Nat) (small : low < 64) : n <<< 6 ||| low = n * 64 + low :=
  shiftLeft_or n small

/-- An index that is not wrapped. -/
theorem index_toNat (i : UInt32) (d : Nat) (fits : i.toNat + d < UInt32.size) :
    (i + UInt32.ofNat d).toNat = i.toNat + d := by
  have size : UInt32.size = 4294967296 := rfl
  rw [UInt32.toNat_add, UInt32.toNat_ofNat']
  omega

theorem ofInt_natCast (n : Nat) : UInt32.ofInt n = .ofNat n := by
  apply UInt32.toNat.inj
  simp only [UInt32.ofInt, UInt32.toNat_ofNat']
  omega

theorem shiftLeft_byte (b : UInt8) (k : UInt32) (fits : k.toNat ≤ 24) :
    (b.toUInt32 <<< k).toNat = b.toNat <<< k.toNat := by
  have small : b.toNat * 2 ^ k.toNat < 2 ^ 8 * 2 ^ 24 :=
    Nat.mul_lt_mul_of_lt_of_le b.toNat_lt (Nat.pow_le_pow_right (by decide) fits) (by decide)
  rw [UInt32.toNat_shiftLeft, UInt8.toNat_toUInt32, Nat.mod_eq_of_lt (a := k.toNat) (by omega),
    Nat.shiftLeft_eq]
  exact Nat.mod_eq_of_lt small

theorem shiftRight_toNat (v k : UInt32) (small : k.toNat < 32) :
    (v >>> k).toNat = v.toNat / 2 ^ k.toNat := by
  rw [UInt32.toNat_shiftRight, Nat.mod_eq_of_lt small, Nat.shiftRight_eq_div_pow]

/-- A byte out of the middle of a word. -/
theorem shiftRight_byte (v k : UInt32) (small : k.toNat < 32) :
    (v >>> k).toUInt8.toNat = v.toNat / 2 ^ k.toNat % 256 := by
  rw [UInt32.toNat_toUInt8, shiftRight_toNat v k small]

/-- Three bytes in a word. -/
theorem pack_bytes (a b c : UInt8) :
    (a.toUInt32 <<< 16 ||| b.toUInt32 <<< 8 ||| c.toUInt32).toNat =
      (a.toNat * 256 + b.toNat) * 256 + c.toNat := by
  have nested : a.toNat <<< 16 ||| b.toNat <<< 8 ||| c.toNat =
      (a.toNat <<< 8 ||| b.toNat) <<< 8 ||| c.toNat := by
    simp only [Nat.shiftLeft_or_distrib, ← Nat.shiftLeft_add]
  rw [UInt32.toNat_or, UInt32.toNat_or, shiftLeft_byte a 16 (by decide),
    shiftLeft_byte b 8 (by decide), UInt8.toNat_toUInt32]
  refine Eq.trans nested ?_
  rw [shiftLeft_or_byte, shiftLeft_or_byte]

/-- Four numbers of six bits in a word. -/
theorem pack_sextets (p q r s : UInt8) (qLt : q.toNat < 64) (rLt : r.toNat < 64)
    (sLt : s.toNat < 64) :
    (p.toUInt32 <<< 18 ||| q.toUInt32 <<< 12 ||| r.toUInt32 <<< 6 ||| s.toUInt32).toNat =
      ((p.toNat * 64 + q.toNat) * 64 + r.toNat) * 64 + s.toNat := by
  have nested : p.toNat <<< 18 ||| q.toNat <<< 12 ||| r.toNat <<< 6 ||| s.toNat =
      ((p.toNat <<< 6 ||| q.toNat) <<< 6 ||| r.toNat) <<< 6 ||| s.toNat := by
    simp only [Nat.shiftLeft_or_distrib, ← Nat.shiftLeft_add]
  rw [UInt32.toNat_or, UInt32.toNat_or, UInt32.toNat_or, shiftLeft_byte p 18 (by decide),
    shiftLeft_byte q 12 (by decide), shiftLeft_byte r 6 (by decide), UInt8.toNat_toUInt32]
  refine Eq.trans nested ?_
  rw [shiftLeft_or_sextet _ sLt, shiftLeft_or_sextet _ rLt, shiftLeft_or_sextet _ qLt]

end Words
