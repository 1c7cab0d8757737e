import Meshcore.Command
import Meshcore.Library.Blocks
import Mathlib.Tactic.Positivity
import Mathlib.Tactic.Zify

/-! The two airtime formulas: the chip's, from what the firmware programmed, and the one
the firmware itself computes with. Both round a number of bits up to coded blocks, and
they differ only in how many bits they take a block to hold. -/
namespace Meshcore

open Blocks

namespace Chip

/-- `payloadSyms` of `estAirtimeMs`. The low-data-rate bit the firmware programs is not
among the parameters the chip keeps. -/
def payloadSyms (c : Chip) (lenBytes : ℤ) : ℚ :=
  let de : ℤ := if c.sf ≥ 11 then 1 else 0
  let crc : ℚ := 1
  let header : ℚ := 0
  let crDen := c.cr
  let num : ℚ := 8 * lenBytes - 4 * c.sf + 28 + 16 * crc - 20 * header
  let den : ℚ := 4 * ((c.sf - 2 * de : ℤ) : ℚ)
  8 + max ((⌈num / den⌉ : ℚ) * crDen) 0

def estAirtimeMs (c : Chip) (lenBytes : ℤ) : UInt32 :=
  let bwHz := c.bwKHz * 1000
  let tSym := (((1 : UInt32) <<< UInt32.ofNat c.sf).toNat : ℚ) / bwHz
  let t := (c.preambleSyms.toNat + 425 / 100 + c.payloadSyms lenBytes) * tSym
  let ms := t * 1000 + 1 / 2
  UInt32.ofInt (ms.num.tdiv ms.den)

end Chip

/-- `g_sf`, `g_bwKHz` and `g_cr`. -/
structure HostRadio where
  sf : ℕ
  bwKHz : ℚ
  cr : ℕ

namespace HostRadio

def symbolMs (h : HostRadio) : ℚ := (((1 : UInt32) <<< UInt32.ofNat h.sf).toNat : ℚ) / h.bwKHz

/-- `coded * (g_cr + 4)` and the constant it is added to. -/
def payloadSyms (h : HostRadio) (len : ℤ) : ℚ :=
  let sfCoeff2 : ℤ := if h.sf = 5 ∨ h.sf = 6 then 0 else 8
  let sfDivisor : ℤ := if h.symbolMs ≥ 16 then 4 * (h.sf - 2) else 4 * h.sf
  let bits := 8 * len + 16 - 4 * h.sf + sfCoeff2 + 20
  let bits := if bits < 0 then 0 else bits
  let coded := (bits + sfDivisor - 1).tdiv sfDivisor
  8 + (coded * (h.cr + 4) : ℤ)

def getEstAirtimeFor (h : HostRadio) (len : ℤ) : UInt32 :=
  let sfCoeff1 : ℚ := if h.sf = 5 ∨ h.sf = 6 then 625 / 100 else 425 / 100
  let preamble : ℚ := if h.sf ≤ 8 then 32 else 16
  let ms := h.symbolMs * (preamble + sfCoeff1 + h.payloadSyms len)
  UInt32.ofInt (ms.num.tdiv ms.den)

end HostRadio

/-- The data of a payload and its checksum, in the units a block of which a symbol of the
spreading factor carries one each. -/
def nibbles (sf len : ℕ) : ℤ := 2 * len + 11 - sf

theorem Chip.payloadSyms_eq (c : Chip) (range : 2 < c.sf) (len : ℕ) : c.payloadSyms len =
    8 + blocks (if 11 ≤ c.sf then c.sf - 2 else c.sf) (nibbles c.sf len) * c.cr := by
  have size : (c.sf : ℤ) - 2 * (if c.sf ≥ 11 then 1 else 0) =
      ((if 11 ≤ c.sf then c.sf - 2 else c.sf : ℕ) : ℤ) := by
    split <;> omega
  have room : 0 < if 11 ≤ c.sf then c.sf - 2 else c.sf := by
    split <;> omega
  have num : (8 : ℚ) * (len : ℚ) - 4 * c.sf + 28 + 16 * 1 - 20 * 0 =
      4 * ((nibbles c.sf len : ℤ) : ℚ) := by
    rw [nibbles]
    push_cast
    ring
  have positive : (0 : ℚ) ≤ c.cr := Nat.cast_nonneg _
  simp only [payloadSyms, size, Int.cast_natCast, num]
  rw [mul_div_mul_left _ _ (by norm_num : (4 : ℚ) ≠ 0), ← zero_mul (c.cr : ℚ),
    ← max_mul_of_nonneg _ _ positive]
  have count := ceil_eq_blocks room (nibbles c.sf len)
  rw [← Int.cast_natCast (blocks _ _), ← count]
  push_cast
  rfl

theorem HostRadio.payloadSyms_eq (h : HostRadio) (range : 7 ≤ h.sf) (len : ℕ) :
    h.payloadSyms len =
      8 + blocks (if 16 ≤ h.symbolMs then h.sf - 2 else h.sf) (nibbles h.sf len) * (4 + h.cr) := by
  have divisor : (if h.symbolMs ≥ 16 then 4 * ((h.sf : ℤ) - 2) else 4 * h.sf) =
      ((4 * if 16 ≤ h.symbolMs then h.sf - 2 else h.sf : ℕ) : ℤ) := by
    split <;> push_cast <;> omega
  have room : 0 < if 16 ≤ h.symbolMs then h.sf - 2 else h.sf := by
    split <;> omega
  have plain : ¬(h.sf = 5 ∨ h.sf = 6) := by omega
  have bits : (if 8 * (len : ℤ) + 16 - 4 * h.sf + 8 + 20 < 0 then 0
      else 8 * (len : ℤ) + 16 - 4 * h.sf + 8 + 20) = max ((4 : ℕ) * nibbles h.sf len) 0 := by
    rw [nibbles]
    split <;> omega
  simp only [payloadSyms, plain, ite_false, divisor, bits]
  rw [tdiv_eq_blocks (by omega), blocks_mul room (by decide)]
  push_cast
  ring

/-- `g_sf`, `g_bwKHz` and `g_cr` as the same parameters have them. -/
def HostRadio.mirroring (c : Chip) (rate : UInt8) : HostRadio := ⟨c.sf,c.bwKHz,rate.toNat⟩

theorem HostRadio.symbolMs_eq (h : HostRadio) (range : h.sf < 32) :
    h.symbolMs = 2 ^ h.sf / h.bwKHz := by
  rw [symbolMs, one_shiftLeft, Nat.mod_eq_of_lt range]
  norm_cast

/-- Blocks that hold two units less of a payload come to the same count. -/
theorem nibbles_agree_iff (sf len : ℕ) (range : 2 < sf) :
    blocks (sf - 2) (nibbles sf len) = blocks sf (nibbles sf len) ↔
      ∃ k : ℕ, k * sf < 2 * len + 11 ∧ 2 * len + 11 ≤ k * (sf - 2) + sf := by
  rw [blocks_eq_iff (by omega) (Nat.sub_le _ _), nibbles]
  constructor
  · rintro (none | ⟨k,beyond,fits⟩)
    · exact ⟨0,by omega,by omega⟩
    · refine ⟨k + 1,?_,?_⟩
      · zify
        linarith
      · zify
        linarith
  · rintro ⟨k,beyond,fits⟩
    cases k with
    | zero => exact .inl (by omega)
    | succ k =>
      zify at beyond fits
      exact .inr ⟨k,by linarith,by linarith⟩

/-- The two counts of payload symbols agree exactly when the two rules for low data rate
do, or when the smaller blocks of one of them make no more of them. -/
theorem payload_symbols_agree_iff (c : Chip) (p0 p1 p2 : UInt8) (len : ℕ)
    (factor : 7 ≤ p0 ∧ p0 ≤ 12) (rate : 1 ≤ p2 ∧ p2 ≤ 4) :
    (c.applyModulation p0 p1 p2).payloadSyms len =
      (HostRadio.mirroring (c.applyModulation p0 p1 p2) p2).payloadSyms len ↔
    (11 ≤ p0 ↔ 2 ^ p0.toNat / (c.applyModulation p0 p1 p2).bwKHz ≥ 16) ∨
      ∃ k : ℕ, k * p0.toNat < 2 * len + 11 ∧ 2 * len + 11 ≤ k * (p0.toNat - 2) + p0.toNat := by
  have low : 7 ≤ p0.toNat := UInt8.le_iff_toNat_le.mp factor.1
  have high : p0.toNat ≤ 12 := UInt8.le_iff_toNat_le.mp factor.2
  have optimised : 11 ≤ p0 ↔ 11 ≤ p0.toNat := UInt8.le_iff_toNat_le
  have coded : p2 ≠ 0 := fun zero => absurd (zero ▸ rate.1) (by decide)
  generalize programmed : c.applyModulation p0 p1 p2 = d
  have sf : d.sf = p0.toNat := programmed ▸ rfl
  have cr : d.cr = 4 + p2.toNat := by
    rw [← programmed]
    exact if_pos coded
  have mirrored : (HostRadio.mirroring d p2).sf = p0.toNat ∧
      (HostRadio.mirroring d p2).bwKHz = d.bwKHz ∧ (HostRadio.mirroring d p2).cr = p2.toNat :=
    ⟨sf,rfl,rfl⟩
  rw [d.payloadSyms_eq (by omega), HostRadio.payloadSyms_eq _ (by omega),
    HostRadio.symbolMs_eq _ (by omega), cr, optimised, ← nibbles_agree_iff _ _ (by omega)]
  have positive : (4 : ℚ) + p2.toNat ≠ 0 := by positivity
  have count (a b : ℕ) : (8 : ℚ) + a * (4 + p2.toNat : ℕ) = 8 + b * (4 + p2.toNat) ↔ a = b := by
    push_cast
    rw [add_right_inj, mul_left_inj' positive, Nat.cast_inj]
  rw [mirrored.1, mirrored.2.1, mirrored.2.2, sf, count]
  by_cases chip : 11 ≤ p0.toNat <;>
    by_cases firmware : 2 ^ p0.toNat / d.bwKHz ≥ 16
  · simp [chip,firmware]
  · simp [chip,firmware]
  · simp [chip,firmware,eq_comm]
  · simp [chip,firmware]

theorem payload_symbols_agree_default : ((Chip.new 0).applyModulation 10 0x05 1).payloadSyms 32 =
    (HostRadio.mirroring ((Chip.new 0).applyModulation 10 0x05 1) 1).payloadSyms 32 := by
  have bandwidth : ((Chip.new 0).applyModulation 10 0x05 1).bwKHz = 250 := rfl
  have factor : UInt8.toNat 10 = 10 := rfl
  refine (payload_symbols_agree_iff (.new 0) 10 0x05 1 32 (by decide) (by decide)).mpr (.inl ?_)
  rw [bandwidth, factor]
  exact iff_of_false (by decide) (by norm_num)

/-- Spreading factor 11 at 250 kHz, five bytes: the chip takes the low data rate to be in
force, and makes two blocks of a payload that the firmware sends in one. -/
theorem payload_symbols_differ : ((Chip.new 0).applyModulation 11 0x05 1).payloadSyms 5 = 18 ∧
    (HostRadio.mirroring ((Chip.new 0).applyModulation 11 0x05 1) 1).payloadSyms 5 = 13 := by
  decide +kernel

end Meshcore
