import Meshcore.Bringup
import Meshcore.SelfReport

/-! How long the driver takes a packet to be, in whole microseconds and by its own
settings, beside the answer of the chip that it tuned. -/
namespace Meshcore

open Blocks Checked Programs Program

variable {κ : Type} {stuckIrqMs : UInt32} {c : Chip}

structure LoRaRate_t where
  spreadingFactor : UInt8
  bandwidth : ℚ
  codingRate : UInt8

structure LoRaPacketConfig_t where
  preambleLength : BitVec 16
  implicitHeader : Bool
  crcEnabled : Bool
  ldrOptimize : Bool

namespace SX126x

def symbolLength_us (spreadingFactor : UInt8) (bandwidth : ℚ) : UInt32 :=
  .ofNat ⌊(((10000 : UInt32) <<< spreadingFactor.toUInt32).toNat : ℚ) / (bandwidth * 10)⌋.toNat

def sfDivisor (spreadingFactor : UInt8) (ldrOptimize : Bool) : UInt8 :=
  if ldrOptimize then 4 * (spreadingFactor - 2) else 4 * spreadingFactor

/-- The factors with a synchronisation of their own. -/
abbrev Short (spreadingFactor : UInt8) : Prop := spreadingFactor = 5 ∨ spreadingFactor = 6

/-- `len` counts bytes, but the bits of a long packet are more than `int16_t` has room for. -/
def nPreCodedSymbols (spreadingFactor : UInt8) (pc : LoRaPacketConfig_t) (len : UInt64) : UInt16 :=
  let sfCoeff2 : ℤ := if Short spreadingFactor then 0 else 8
  let sfDivisor := sfDivisor spreadingFactor pc.ldrOptimize
  let bitsPerCrc : ℤ := 16
  let N_symbol_header : ℤ := if pc.implicitHeader then 0 else 20
  let bitCount := Int16.ofInt (8 * len.toNat + (if pc.crcEnabled then bitsPerCrc else 0) -
    4 * spreadingFactor.toNat + sfCoeff2 + N_symbol_header)
  let bitCount := if bitCount < 0 then 0 else bitCount
  .ofInt ((bitCount.toInt + sfDivisor.toNat - 1).tdiv sfDivisor.toNat)

/-- The LoRa modem's; the other modems of the family are not modelled. -/
def calculateTimeOnAir (dr : LoRaRate_t) (pc : LoRaPacketConfig_t) (len : UInt64) : UInt64 :=
  let sfCoeff1_x4 := if Short dr.spreadingFactor then 25 else 17
  let nSymbol_x4 : UInt32 := .ofNat ((pc.preambleLength.toNat + 8) * 4 + sfCoeff1_x4 +
    (nPreCodedSymbols dr.spreadingFactor pc len).toNat * dr.codingRate.toNat * 4)
  (symbolLength_us dr.spreadingFactor dr.bandwidth * nSymbol_x4 / 4).toUInt64

/-- Long interleaving and short come to the same. -/
def rate (s : SX126x) : LoRaRate_t where
  spreadingFactor := s.spreadingFactor
  bandwidth := s.bandwidthKhz
  codingRate :=
    if s.codingRate < 5 then s.codingRate + 4
    else if s.codingRate = 7 then s.codingRate + 1 else s.codingRate

def packetConfig (s : SX126x) : LoRaPacketConfig_t where
  preambleLength := s.preambleLengthLoRa
  implicitHeader := decide (s.headerType = RADIOLIB_SX126X_LORA_HEADER_IMPLICIT)
  crcEnabled := decide (s.crcTypeLoRa ≠ 0)
  ldrOptimize := decide (s.ldrOptimize ≠ 0)

def timeOnAir (s : SX126x) (len : UInt64) : UInt64 := calculateTimeOnAir s.rate s.packetConfig len

/-- Two divisions and a conversion to 32 bits, which are not defined for all settings. -/
def Timed (s : SX126x) : Prop :=
  s.bandwidthKhz ≠ 0 ∧ sfDivisor s.spreadingFactor s.packetConfig.ldrOptimize ≠ 0 ∧
    (toUInt32? ((((10000 : UInt32) <<< s.spreadingFactor.toUInt32).toNat : ℚ) /
      (s.bandwidthKhz * 10))).isSome

instance (s : SX126x) : Decidable s.Timed := inferInstanceAs (Decidable (_ ∧ _))

def getTimeOnAir (s : SX126x) (len : UInt64) : Hal κ UInt64 := do
  if (← getPacketType) = RADIOLIB_SX126X_PACKET_TYPE_LORA then
    if s.Timed then return s.timeOnAir len else .stuck
  -- The other modems of the family are not modelled.
  else .stuck

theorem getTimeOnAir_does (settled : c.Settled) {s : SX126x} (timed : s.Timed) (len : UInt64) :
    Does (κ := κ) (s.getTimeOnAir len) c c (s.timeOnAir len) := by
  refine (getPacketType_does settled).bind ?_
  rw [if_pos rfl, if_pos timed]
  exact .done _ _

/-- Bandwidths of which a symbol is a whole number of microseconds long. -/
def wholeBandwidths : List ℚ := [125 / 2,125,250,500]

theorem symbolLength_us_exact {spreadingFactor : UInt8} {bandwidth : ℚ}
    (factor : 5 ≤ spreadingFactor.toNat ∧ spreadingFactor.toNat ≤ 12)
    (listed : bandwidth ∈ wholeBandwidths) :
    ((symbolLength_us spreadingFactor bandwidth).toNat : ℚ) * bandwidth =
      1000 * 2 ^ spreadingFactor.toNat ∧
    4 ∣ (symbolLength_us spreadingFactor bandwidth).toNat ∧
    (symbolLength_us spreadingFactor bandwidth).toNat ≤ 65536 := by
  have table : ∀ sf < 13, 5 ≤ sf → ∀ bw ∈ wholeBandwidths,
      ((symbolLength_us (.ofNat sf) bw).toNat : ℚ) * bw = 1000 * 2 ^ sf ∧
        4 ∣ (symbolLength_us (.ofNat sf) bw).toNat ∧
        (symbolLength_us (.ofNat sf) bw).toNat ≤ 65536 := by
    decide +kernel
  have entry := table spreadingFactor.toNat (by omega) factor.1 bandwidth listed
  rwa [UInt8.ofNat_toNat] at entry

/-- The units in a coded block, by the driver's choice. -/
def blockRoom (s : SX126x) : ℕ :=
  if s.ldrOptimize ≠ 0 then s.spreadingFactor.toNat - 2 else s.spreadingFactor.toNat

/-- What the driver frames its packets with, and modulates them by. -/
structure Plain (s : SX126x) : Prop where
  factor : 5 ≤ s.spreadingFactor.toNat ∧ s.spreadingFactor.toNat ≤ 12
  whole : s.bandwidthKhz ∈ wholeBandwidths
  coded : 1 ≤ s.codingRate.toNat ∧ s.codingRate.toNat ≤ 4
  checked : s.crcTypeLoRa ≠ 0
  explicit : s.headerType ≠ RADIOLIB_SX126X_LORA_HEADER_IMPLICIT

/-- The data of a payload, its checksum and its header, in the units of a block. -/
def units (s : SX126x) (len : ℕ) : ℤ :=
  2 * len + (if Short s.spreadingFactor then 9 else 11) - s.spreadingFactor.toNat

theorem not_short {spreadingFactor : UInt8} (long : 7 ≤ spreadingFactor.toNat) :
    ¬Short spreadingFactor := by
  rintro (rfl | rfl)
  all_goals exact absurd long (by decide)

theorem units_eq_nibbles {s : SX126x} (long : 7 ≤ s.spreadingFactor.toNat) (len : ℕ) :
    s.units len = nibbles s.spreadingFactor.toNat len := by
  rw [units, if_neg (not_short long), nibbles]

theorem three_le_room {s : SX126x} (long : 7 ≤ s.spreadingFactor.toNat) :
    3 ≤ room s.spreadingFactor.toNat := by
  rw [room]
  split <;> omega

/-- Symbols of a packet of `count` blocks, in quarters. -/
def quarters (s : SX126x) (count : ℕ) : ℕ :=
  (s.preambleLengthLoRa.toNat + 8) * 4 + (if Short s.spreadingFactor then 25 else 17) +
    count * (s.codingRate.toNat + 4) * 4

/-- And in microseconds. -/
def microseconds (s : SX126x) (count : ℕ) : ℕ :=
  (symbolLength_us s.spreadingFactor s.bandwidthKhz).toNat * s.quarters count / 4

/-- A symbol of whole quarters makes a packet of whole microseconds. -/
theorem microseconds_quarters {s : SX126x}
    (symbol : (symbolLength_us s.spreadingFactor s.bandwidthKhz).toNat = 4 * k) (count : ℕ) :
    s.microseconds count = k * s.quarters count := by
  rw [microseconds, symbol, Nat.mul_assoc, Nat.mul_div_cancel_left _ (by decide)]

section Plain

variable {s : SX126x} (plain : s.Plain) {len : ℕ} (short : len ≤ 255)
include plain

theorem Plain.wide : 0 < s.bandwidthKhz := by
  have all : ∀ bw ∈ wholeBandwidths, 0 < bw := by decide +kernel
  exact all _ plain.whole

theorem Plain.three_le : 3 ≤ s.blockRoom := by
  have low := plain.factor.1
  rw [blockRoom]
  split <;> omega

theorem Plain.sfDivisor :
    (sfDivisor s.spreadingFactor s.packetConfig.ldrOptimize).toNat = 4 * s.blockRoom := by
  obtain ⟨low,high⟩ := plain.factor
  have two : (2 : UInt8) ≤ s.spreadingFactor := UInt8.le_iff_toNat_le.mpr (by change 2 ≤ _; omega)
  have less : (s.spreadingFactor - 2).toNat = s.spreadingFactor.toNat - 2 :=
    UInt8.toNat_sub_of_le _ _ two
  have four : (4 : UInt8).toNat = 4 := rfl
  simp only [SX126x.sfDivisor, packetConfig, blockRoom, decide_eq_true_eq]
  split
  · rw [UInt8.toNat_mul, less, four, Nat.mod_eq_of_lt (by omega)]
  · rw [UInt8.toNat_mul, four, Nat.mod_eq_of_lt (by omega)]

theorem Plain.timed : s.Timed := by
  have table : ∀ sf < 13, 5 ≤ sf → ∀ bw ∈ wholeBandwidths, bw ≠ 0 ∧
      (toUInt32? ((((10000 : UInt32) <<< (UInt8.ofNat sf).toUInt32).toNat : ℚ) /
        (bw * 10))).isSome := by
    decide +kernel
  have factor := plain.factor
  have entry := table s.spreadingFactor.toNat (by omega) factor.1 s.bandwidthKhz plain.whole
  rw [UInt8.ofNat_toNat] at entry
  refine ⟨entry.1,fun none => ?_,entry.2⟩
  have room := plain.three_le
  have divisor := plain.sfDivisor
  rw [none] at divisor
  change 0 = 4 * s.blockRoom at divisor
  omega

include short

theorem Plain.units_bounds : -1 ≤ s.units len ∧ s.units len ≤ 514 := by
  obtain ⟨low,high⟩ := plain.factor
  rw [units]
  split
  case isTrue small =>
    have least : s.spreadingFactor.toNat ≤ 6 := by
      rcases small with same | same
      all_goals
        rw [same]
        decide
    omega
  case isFalse large =>
    have least : 7 ≤ s.spreadingFactor.toNat := by
      by_contra less
      have which : s.spreadingFactor.toNat = 5 ∨ s.spreadingFactor.toNat = 6 := by omega
      exact large (which.imp UInt8.toNat_inj.mp UInt8.toNat_inj.mp)
    omega

omit plain short in
theorem four_units (s : SX126x) (len : ℕ) : 8 * (len : ℤ) + 16 - 4 * s.spreadingFactor.toNat +
    (if Short s.spreadingFactor then 0 else 8) + 20 = 4 * s.units len := by
  rw [units]
  split <;> ring

/-- The bits of a packet that fits are counted without a wrap. -/
theorem Plain.bitCount : (if Int16.ofInt (4 * s.units len) < 0 then 0
    else Int16.ofInt (4 * s.units len)).toInt = max ((4 : ℕ) * s.units len) 0 := by
  have few := plain.units_bounds short
  have count : (Int16.ofInt (4 * s.units len)).toInt = 4 * s.units len := by
    rw [Int16.toInt_ofInt]
    exact Int.bmod_eq_of_le (by simp; omega) (by simp; omega)
  have negative : Int16.ofInt (4 * s.units len) < 0 ↔ 4 * s.units len < 0 := by
    rw [Int16.lt_iff_toInt_lt, count]
    rfl
  simp only [negative]
  split
  · change (0 : ℤ) = _
    omega
  · rw [count]
    omega

theorem Plain.blocks_le (size : ℕ) (room : 3 ≤ size) : blocks size (s.units len) ≤ 172 := by
  have few := (plain.units_bounds short).2
  rw [blocks_le_iff (by omega)]
  push_cast
  omega

theorem Plain.nPreCodedSymbols :
    (nPreCodedSymbols s.spreadingFactor s.packetConfig (.ofNat len)).toNat =
      blocks s.blockRoom (s.units len) := by
  have bytes : (UInt64.ofNat len).toNat = len :=
    UInt64.toNat_ofNat_of_lt' (by change len < 2 ^ 64; omega)
  have crc : (if s.packetConfig.crcEnabled then (16 : ℤ) else 0) = 16 :=
    if_pos (decide_eq_true plain.checked)
  have header : (if s.packetConfig.implicitHeader then (0 : ℤ) else 20) = 20 :=
    if_neg (by simpa [packetConfig] using plain.explicit)
  have room := plain.three_le
  have most := plain.blocks_le short s.blockRoom room
  simp only [SX126x.nPreCodedSymbols, bytes, crc, header, four_units, plain.bitCount short,
    plain.sfDivisor]
  rw [tdiv_eq_blocks (by omega), blocks_mul (by omega) (by decide),
    UInt16.ofInt, Int.emod_eq_of_lt (by omega) (by omega), Int.toNat_natCast]
  exact UInt16.toNat_ofNat_of_lt' (by change _ < 65536; omega)

/-- A product of 32 bits, for a preamble that is not too long. -/
theorem Plain.wrapless (preamble : s.preambleLengthLoRa.toNat ≤ 10000) (size : ℕ)
    (room : 3 ≤ size) : s.quarters (blocks size (s.units len)) < 65536 ∧
    (symbolLength_us s.spreadingFactor s.bandwidthKhz).toNat *
      s.quarters (blocks size (s.units len)) < 4294967296 := by
  have most := plain.blocks_le short size room
  obtain ⟨_,_,symbol⟩ := symbolLength_us_exact plain.factor plain.whole
  obtain ⟨_,coded⟩ := plain.coded
  generalize blocks size _ = count at most
  have product : count * (s.codingRate.toNat + 4) ≤ 172 * 8 :=
    Nat.mul_le_mul most (by omega)
  have small : s.quarters count < 65536 := by
    rw [quarters]
    split <;> omega
  exact ⟨small,(Nat.mul_le_mul symbol (Nat.le_of_lt_succ small)).trans_lt (by decide)⟩

theorem Plain.timeOnAir (preamble : s.preambleLengthLoRa.toNat ≤ 10000) :
    (s.timeOnAir (.ofNat len)).toNat =
      s.microseconds (blocks s.blockRoom (s.units len)) := by
  obtain ⟨small,product⟩ := plain.wrapless short preamble s.blockRoom plain.three_le
  have symbols := plain.nPreCodedSymbols short
  generalize blocks s.blockRoom (s.units len) = count at small product symbols
  have kept : (UInt32.ofNat (s.quarters count)).toNat = s.quarters count :=
    UInt32.toNat_ofNat_of_lt' (by change _ < 4294967296; omega)
  have rate : s.rate.codingRate.toNat = s.codingRate.toNat + 4 := by
    have coded := plain.coded.2
    have few : s.codingRate < 5 := UInt8.lt_iff_toNat_lt.mpr (by change _ < 5; omega)
    have four : (4 : UInt8).toNat = 4 := rfl
    simp only [SX126x.rate, if_pos few]
    rw [UInt8.toNat_add, four, Nat.mod_eq_of_lt (by omega)]
  have sum : (s.packetConfig.preambleLength.toNat + 8) * 4 +
      (if Short s.spreadingFactor then 25 else 17) + count * s.rate.codingRate.toNat * 4 =
      s.quarters count := by
    rw [rate]
    rfl
  have shifted : s.timeOnAir (.ofNat len) = (symbolLength_us s.spreadingFactor s.bandwidthKhz *
      .ofNat (s.quarters count) / 4).toUInt64 := by
    have spread : s.rate.spreadingFactor = s.spreadingFactor := rfl
    have width : s.rate.bandwidth = s.bandwidthKhz := rfl
    rw [SX126x.timeOnAir, calculateTimeOnAir, spread, width, symbols, sum]
  have four : (4 : UInt32).toNat = 4 := rfl
  rw [shifted, UInt32.toNat_toUInt64, UInt32.toNat_div, UInt32.toNat_mul, kept,
    Nat.mod_eq_of_lt product, four, microseconds]

omit short in
/-- The bandwidth the chip was told is the one that was meant. -/
theorem Plain.bwKHz (tuned : s.Modulated c) : c.bwKHz = s.bandwidthKhz := by
  have told : Chip.bandwidth 0 s.bandwidth = c.bwKHz := tuned.bandwidth 0
  have listed : Chip.bandwidth 0 s.bandwidth ∈ [781 / 100,1042 / 100,1563 / 100,2083 / 100,
      3125 / 100,4167 / 100,625 / 10,125,250,500,0] := by
    unfold Chip.bandwidth
    split <;> simp
  have apart : ∀ x ∈ [781 / 100,1042 / 100,1563 / 100,2083 / 100,3125 / 100,4167 / 100,625 / 10,
      125,250,500,(0 : ℚ)], ∀ y ∈ wholeBandwidths, |x - y| < 2 → x = y := by
    decide +kernel
  rw [told] at listed
  exact apart _ listed _ plain.whole tuned.bwKHz

/-- The chip counts by its own choice of blocks, and rounds to milliseconds. -/
theorem Plain.estAirtimeMs? (long : 7 ≤ s.spreadingFactor.toNat) (tuned : s.Modulated c)
    (preamble : s.preambleLengthLoRa.toNat ≤ 10000) : c.estAirtimeMs? len =
      some (.ofNat ((s.microseconds (blocks (room s.spreadingFactor.toNat) (s.units len)) + 500) /
        1000)) := by
  have high := plain.factor.2
  obtain ⟨small,product⟩ := plain.wrapless short preamble _ (three_le_room long)
  obtain ⟨exact',⟨k,symbol⟩,_⟩ := symbolLength_us_exact plain.factor plain.whole
  have symbols := c.payloadSyms_eq (by rw [tuned.sf]; omega) len
  have coded : c.cr = 4 + s.codingRate.toNat :=
    tuned.cr fun none => absurd plain.coded.1 (by rw [none]; decide)
  change c.payloadSyms len = 8 + (blocks (room c.sf) (nibbles c.sf len) : ℚ) * c.cr at symbols
  rw [tuned.sf, coded, ← units_eq_nibbles long] at symbols
  generalize blocks (room _) _ = count at *
  have shifted : (((1 : UInt32) <<< UInt32.ofNat c.sf).toNat : ℚ) = 2 ^ s.spreadingFactor.toNat := by
    rw [one_shiftLeft, tuned.sf, Nat.mod_eq_of_lt (by omega)]
    norm_cast
  have whole := microseconds_quarters symbol count
  have ms : c.airtimeMs len = ((s.microseconds count + 500 : ℕ) : ℚ) / (1000 : ℕ) := by
    have length : (2 : ℚ) ^ s.spreadingFactor.toNat / (s.bandwidthKhz * 1000) * 1000 = 4 * k / 1000 := by
      have positive := plain.wide.ne'
      rw [symbol] at exact'
      push_cast at exact'
      field_simp
      linarith
    rw [Chip.airtimeMs, symbols, shifted, plain.bwKHz tuned, tuned.preambleSyms, mul_assoc, length,
      whole, quarters, if_neg (not_short long)]
    push_cast
    ring
  have positive : 0 ≤ c.airtimeMs len := by
    rw [ms]
    positivity
  have fits : (s.microseconds count + 500) / 1000 < UInt32.size := by
    change _ < 4294967296
    rw [microseconds]
    omega
  rw [Chip.estAirtimeMs?, toUInt32?_eq_some positive, ms, Rat.floor_natCast_div_natCast,
    UInt32.toNat_ofNat_of_lt' fits]
  rfl

omit plain short in
/-- A few blocks more take whole milliseconds. -/
theorem microseconds_apart (coded : 1 ≤ s.codingRate.toNat)
    (symbol : 256 ≤ (symbolLength_us s.spreadingFactor s.bandwidthKhz).toNat)
    (more : few + 8 ≤ many) : s.microseconds few + 1000 ≤ s.microseconds many := by
  have blocks' : few * (s.codingRate.toNat + 4) + 40 ≤ many * (s.codingRate.toNat + 4) := by
    nlinarith
  have quarters' : s.quarters few + 160 ≤ s.quarters many := by
    rw [quarters, quarters]
    omega
  rw [microseconds, microseconds]
  generalize (symbolLength_us s.spreadingFactor s.bandwidthKhz).toNat = length at symbol
  have product : length * s.quarters few + 40960 ≤ length * s.quarters many := by
    nlinarith
  omega

omit short in
/-- By far the longest packets tell the two choices of blocks apart. -/
theorem Plain.agree_iff (long : 7 ≤ s.spreadingFactor.toNat) : (∀ len ≤ 255,
    (s.microseconds (blocks (room s.spreadingFactor.toNat) (s.units len)) + 500) / 1000 =
      (s.microseconds (blocks s.blockRoom (s.units len)) + 500) / 1000) ↔
    (s.ldrOptimize ≠ 0 ↔ 11 ≤ s.spreadingFactor.toNat) := by
  have high := plain.factor.2
  have symbol : 256 ≤ (symbolLength_us s.spreadingFactor s.bandwidthKhz).toNat := by
    have table : ∀ sf < 13, 7 ≤ sf → ∀ bw ∈ wholeBandwidths,
        256 ≤ (symbolLength_us (.ofNat sf) bw).toNat := by
      decide +kernel
    have entry := table s.spreadingFactor.toNat (by omega) long s.bandwidthKhz plain.whole
    rwa [UInt8.ofNat_toNat] at entry
  have fewer : ∀ sf < 13, 7 ≤ sf →
      blocks sf (nibbles sf 255) + 8 ≤ blocks (sf - 2) (nibbles sf 255) := by
    decide
  have more := fewer s.spreadingFactor.toNat (by omega) long
  rw [← units_eq_nibbles long] at more
  have apart := microseconds_apart plain.coded.1 symbol more
  constructor
  · intro agree
    have longest := agree 255 le_rfl
    by_cases optimizes : s.ldrOptimize ≠ 0
    · rw [blockRoom, if_pos optimizes, room] at longest
      refine iff_of_true optimizes (by_contra fun narrow => ?_)
      rw [if_neg narrow] at longest
      omega
    · rw [blockRoom, if_neg optimizes, room] at longest
      refine iff_of_false optimizes fun wide => ?_
      rw [if_pos wide] at longest
      omega
  · intro same len _
    have rooms : room s.spreadingFactor.toNat = s.blockRoom := by
      simp only [room, blockRoom, same]
    rw [rooms]

end Plain

/-- `g_sf`, `g_bwKHz` and `g_cr` for the same settings. -/
def hostRadio (s : SX126x) : HostRadio :=
  ⟨s.spreadingFactor.toNat,s.bandwidthKhz,s.codingRate.toNat⟩

/-- The automatic choice, as it was made last. -/
theorem ldrOptimize_eq {s : SX126x} (auto : s.ldroAuto = true) (chosen : s.optimized = s) :
    s.ldrOptimize = if 16 * s.bandwidthKhz ≤
      ((1 : UInt32) <<< s.spreadingFactor.toUInt32).toNat then 0x01 else 0x00 := by
  have kept := congrArg SX126x.ldrOptimize chosen
  simp only [optimized, auto, if_true] at kept
  exact kept.symm

/-- Factors for which the driver's automatic choice is not the chip's: the one goes by the
length of a symbol, the other by the factor alone. -/
def partings : List (ℚ × UInt8) := [(125 / 2,10),(250,11),(500,11),(500,12)]

theorem Plain.optimized_iff {s : SX126x} (plain : s.Plain) (auto : s.ldroAuto = true)
    (chosen : s.optimized = s) : (s.ldrOptimize ≠ 0 ↔ 11 ≤ s.spreadingFactor.toNat) ↔
      (s.bandwidthKhz,s.spreadingFactor) ∉ partings := by
  have table : ∀ sf < 13, 5 ≤ sf → ∀ bw ∈ wholeBandwidths,
      ((if 16 * bw ≤ ((1 : UInt32) <<< (UInt8.ofNat sf).toUInt32).toNat then (0x01 : UInt8)
        else 0x00) ≠ 0 ↔ 11 ≤ sf) ↔ (bw,UInt8.ofNat sf) ∉ partings := by
    decide +kernel
  have factor := plain.factor
  have entry := table s.spreadingFactor.toNat (by omega) factor.1 s.bandwidthKhz plain.whole
  rwa [UInt8.ofNat_toNat, ← ldrOptimize_eq auto chosen] at entry

/-- The driver's time on air is the airtime that the chip reports, to the millisecond and for
every packet that fits, exactly when the two choose their blocks alike. -/
theorem time_on_air_agrees {h : SimHal κ stuckIrqMs} {s : SX126x} (settled : h.chip.Settled)
    (tuned : s.Modulated h.chip) (plain : s.Plain) (long : 7 ≤ s.spreadingFactor.toNat)
    (preamble : s.preambleLengthLoRa.toNat ≤ 10000) :
    ((∀ len ≤ 255, ∃ h' t, (s.getTimeOnAir (.ofNat len)).run SimHal.answer h = some (h',t) ∧
        h.chip.estAirtimeMs? len = some (.ofNat ((t.toNat + 500) / 1000))) ↔
      (s.ldrOptimize ≠ 0 ↔ 11 ≤ s.spreadingFactor.toNat)) ∧
    (s.ldroAuto = true → s.optimized = s →
      ((s.ldrOptimize ≠ 0 ↔ 11 ≤ s.spreadingFactor.toNat) ↔
        (s.bandwidthKhz,s.spreadingFactor) ∉ partings)) := by
  refine ⟨?_,plain.optimized_iff⟩
  rw [← plain.agree_iff long]
  refine forall₂_congr fun len short => ?_
  obtain ⟨h₁,ran,_⟩ := (getTimeOnAir_does (κ := κ) settled plain.timed (.ofNat len)).real rfl
  have fits {size : ℕ} (wide : 3 ≤ size) :
      (UInt32.ofNat ((s.microseconds (blocks size (s.units len)) + 500) / 1000)).toNat =
      (s.microseconds (blocks size (s.units len)) + 500) / 1000 := by
    have product := (plain.wrapless short preamble size wide).2
    refine UInt32.toNat_ofNat_of_lt' ?_
    change _ < 4294967296
    rw [microseconds]
    omega
  rw [← fits (three_le_room long), ← fits plain.three_le, ← plain.timeOnAir short preamble,
    UInt32.toNat_inj, plain.estAirtimeMs? short long tuned preamble]
  constructor
  · rintro ⟨h',t,ran',reported⟩
    obtain ⟨_,rfl⟩ := Prod.mk.inj (Option.some.inj (ran.symm.trans ran'))
    exact Option.some.inj reported
  · intro agree
    exact ⟨h₁,_,ran,congrArg some agree⟩

/-- The settings a node starts with. -/
theorem time_on_air_agrees_started : ∃ (h : SimHal Unit 0) (s : SX126x),
    s.asked = ⟨7123149 / 8192,250,10,1,16,0x80,0x00,0xFF,0x01,0x00,none⟩ ∧ ∀ len ≤ 255, ∃ h' t,
      (s.getTimeOnAir (.ofNat len)).run SimHal.answer h = some (h',t) ∧
      h.chip.estAirtimeMs? len = some (.ofNat ((t.toNat + 500) / 1000)) := by
  obtain ⟨h,s,mode,_,tuned,started⟩ := SX1262.tuned_written
  have asked := (Asked.mk.injEq ..).mp started
  obtain ⟨_,bandwidthKhz,spreadingFactor,codingRate,preamble,_,hdrType,_,crcType,_,ldro⟩ := asked
  let t : SX126x := { s with ldrOptimize := 0x00 }
  have same : t.asked = s.asked := by
    cases auto : s.ldroAuto with
    | true => simp [SX126x.asked,t,auto]
    | false =>
      rw [auto] at ldro
      cases ldro
  have plain : t.Plain := {
    factor := by
      rw [show t.spreadingFactor = 10 from spreadingFactor]
      decide
    whole := by
      rw [show t.bandwidthKhz = 250 from bandwidthKhz]
      simp [wholeBandwidths]
    coded := by
      rw [show t.codingRate = 1 from codingRate]
      decide
    checked := by
      rw [show t.crcTypeLoRa = 0x01 from crcType]
      decide
    explicit := by
      rw [show t.headerType = 0x00 from hdrType]
      decide }
  have short : t.preambleLengthLoRa.toNat ≤ 10000 := by
    rw [show t.preambleLengthLoRa = 16 from preamble]
    decide
  have alike : t.ldrOptimize ≠ 0 ↔ 11 ≤ t.spreadingFactor.toNat := by
    refine iff_of_false (fun on => on rfl) ?_
    rw [show t.spreadingFactor = 10 from spreadingFactor]
    decide
  have long : 7 ≤ t.spreadingFactor.toNat := by
    rw [show t.spreadingFactor = 10 from spreadingFactor]
    decide
  have modulated : t.Modulated h.chip := { tuned with }
  exact ⟨h,t,same.trans started,
    (time_on_air_agrees (Chip.settled_standby mode) modulated plain long short).1.mpr alike⟩

theorem short_iff (s : SX126x) :
    (s.hostRadio.sf = 5 ∨ s.hostRadio.sf = 6) ↔ Short s.spreadingFactor := by
  have same (n : UInt8) : s.hostRadio.sf = n.toNat ↔ s.spreadingFactor = n := UInt8.toNat_inj
  exact or_congr (same 5) (same 6)

section Transcription

variable {s : SX126x} (plain : s.Plain)
include plain

theorem Plain.symbolMs : s.hostRadio.symbolMs =
    ((symbolLength_us s.spreadingFactor s.bandwidthKhz).toNat : ℚ) / 1000 := by
  obtain ⟨exact',_,_⟩ := symbolLength_us_exact plain.factor plain.whole
  have high := plain.factor.2
  rw [s.hostRadio.symbolMs_eq (by change s.spreadingFactor.toNat < 32; omega)]
  change (2 : ℚ) ^ s.spreadingFactor.toNat / s.bandwidthKhz = _
  rw [div_eq_div_iff plain.wide.ne' (by norm_num)]
  linarith

theorem Plain.host_room (auto : s.ldroAuto = true) (chosen : s.optimized = s) :
    (if s.hostRadio.symbolMs ≥ 16 then s.spreadingFactor.toNat - 2 else s.spreadingFactor.toNat) =
      s.blockRoom := by
  have high := plain.factor.2
  have length : ((1 : UInt32) <<< s.spreadingFactor.toUInt32).toNat = 2 ^ s.spreadingFactor.toNat := by
    have shift : s.spreadingFactor.toUInt32 = UInt32.ofNat s.spreadingFactor.toNat := by
      apply UInt32.toNat_inj.mp
      rw [UInt8.toNat_toUInt32, UInt32.toNat_ofNat_of_lt' (by change _ < 4294967296; omega)]
    rw [shift, one_shiftLeft, Nat.mod_eq_of_lt (by omega)]
  have rule : s.ldrOptimize ≠ 0 ↔ s.hostRadio.symbolMs ≥ 16 := by
    rw [ldrOptimize_eq auto chosen, length,
      s.hostRadio.symbolMs_eq (by change s.spreadingFactor.toNat < 32; omega)]
    change _ ↔ (2 : ℚ) ^ s.spreadingFactor.toNat / s.bandwidthKhz ≥ 16
    rw [ge_iff_le, le_div_iff₀ plain.wide]
    push_cast
    split <;> simp_all
  simp only [blockRoom, rule]

theorem Plain.host_payloadSyms (auto : s.ldroAuto = true) (chosen : s.optimized = s) (len : ℕ) :
    s.hostRadio.payloadSyms len =
      8 + blocks s.blockRoom (s.units len) * (s.codingRate.toNat + 4) := by
  obtain ⟨low,high⟩ := plain.factor
  have room := plain.three_le
  have divisor : (if s.hostRadio.symbolMs ≥ 16 then 4 * ((s.hostRadio.sf : ℤ) - 2)
      else 4 * s.hostRadio.sf) = ((4 * s.blockRoom : ℕ) : ℤ) := by
    have factor : s.hostRadio.sf = s.spreadingFactor.toNat := rfl
    rw [← plain.host_room auto chosen, factor]
    split <;> push_cast <;> omega
  have bits : 8 * (len : ℤ) + 16 - 4 * s.hostRadio.sf +
      (if s.hostRadio.sf = 5 ∨ s.hostRadio.sf = 6 then 0 else 8) + 20 = (4 : ℕ) * s.units len := by
    simp only [short_iff]
    exact four_units s len
  have least : (if ((4 : ℕ) : ℤ) * s.units len < 0 then 0 else (4 : ℕ) * s.units len) =
      max ((4 : ℕ) * s.units len) 0 := by
    split <;> omega
  simp only [HostRadio.payloadSyms, bits, divisor, least]
  rw [tdiv_eq_blocks (by omega), blocks_mul (by omega) (by decide)]
  push_cast
  rfl

/-- The formula out of line is the driver's, truncated to milliseconds, as long as the driver
keeps the preamble that the formula takes it to. -/
theorem getEstAirtimeFor_transcribes (auto : s.ldroAuto = true) (chosen : s.optimized = s)
    (preamble : s.preambleLengthLoRa.toNat = if s.spreadingFactor.toNat ≤ 8 then 32 else 16)
    {len : ℕ} (short : len ≤ 255) :
    s.hostRadio.getEstAirtimeFor len = (s.timeOnAir (.ofNat len) / 1000).toUInt32 := by
  have count := plain.host_payloadSyms auto chosen len
  have time := plain.timeOnAir short (by rw [preamble]; split <;> decide)
  obtain ⟨_,product⟩ := plain.wrapless short (by rw [preamble]; split <;> decide) _ plain.three_le
  obtain ⟨_,⟨k,symbol⟩,_⟩ := symbolLength_us_exact plain.factor plain.whole
  generalize blocks s.blockRoom (s.units len) = blocks' at count time product
  have whole := microseconds_quarters symbol blocks'
  have ms : s.hostRadio.symbolMs * ((if s.hostRadio.sf ≤ 8 then 32 else 16) +
      (if s.hostRadio.sf = 5 ∨ s.hostRadio.sf = 6 then 625 / 100 else 425 / 100) +
      s.hostRadio.payloadSyms len) = ((s.microseconds blocks' : ℕ) : ℚ) / (1000 : ℕ) := by
    have rule : ((if s.hostRadio.sf ≤ 8 then 32 else 16 : ℚ)) = s.preambleLengthLoRa.toNat := by
      rw [preamble]
      change (if s.spreadingFactor.toNat ≤ 8 then (32 : ℚ) else 16) = _
      split <;> rfl
    rw [rule, plain.symbolMs, count, whole, symbol, quarters]
    simp only [short_iff]
    split
    all_goals
      push_cast
      ring
  have positive : (0 : ℚ) ≤ (s.microseconds blocks' : ℚ) / (1000 : ℕ) := by positivity
  have truncated : toUInt32? ((s.microseconds blocks' : ℚ) / (1000 : ℕ)) =
      some (s.timeOnAir (.ofNat len) / 1000).toUInt32 := by
    have thousand : (1000 : UInt64).toNat = 1000 := rfl
    have small : s.microseconds blocks' / 1000 < 2 ^ 32 := by
      rw [microseconds]
      omega
    rw [toUInt32?_eq_some positive, Rat.floor_natCast_div_natCast, UInt64.toNat_toUInt32,
      UInt64.toNat_div, time, thousand, Nat.mod_eq_of_lt small]
    rfl
  rw [toUInt32?, Option.ite_none_right_eq_some, Option.some.injEq] at truncated
  simp only [HostRadio.getEstAirtimeFor, ms]
  exact truncated.2

end Transcription

/-- The longest packet at the settings a node starts with takes a little over a second. -/
theorem getEstAirtimeFor_transcribes_longest : ∃ s : SX126x,
    s.hostRadio = ⟨10,250,1⟩ ∧ s.timeOnAir 255 = 1180672 ∧
      s.hostRadio.getEstAirtimeFor 255 = (s.timeOnAir 255 / 1000).toUInt32 := by
  let s : SX126x := {
    spreadingFactor := 10, bandwidth := 0x05, bandwidthKhz := 250, codingRate := 1
    crcTypeLoRa := 0x01, preambleLengthLoRa := 16 }
  have plain : s.Plain := ⟨by decide,by simp [wholeBandwidths,s],by decide,by decide,by decide⟩
  have quick : (if 16 * (250 : ℚ) ≤ ((1 : UInt32) <<< (10 : UInt8).toUInt32).toNat then
      (0x01 : UInt8) else 0x00) = 0x00 := by
    decide +kernel
  have chosen : s.optimized = s := congrArg (fun ldrOptimize => { s with ldrOptimize }) quick
  have time : s.timeOnAir 255 = 1180672 := by decide +kernel
  have widest : 255 ≤ 255 := le_rfl
  exact ⟨s,rfl,time,getEstAirtimeFor_transcribes plain rfl chosen rfl widest⟩

end SX126x
end Meshcore
