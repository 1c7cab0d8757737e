import Meshcore.CommandLine
import Meshcore.Library.Bands
import Meshcore.Reports

/-! The airtime report against the settings on the line. The chip that answers has its
constructor's, so two staircases are compared, one of them always the same: they climb at
rates of their own, and past where they part no length makes them agree. -/
namespace Meshcore

open Bands Blocks

/-- The chip as it would answer for settings it had been given. -/
def Chip.withModem (stuckIrqMs : UInt32) (sf : ℕ) (bwKHz : ℚ) (cr : ℕ) : Chip :=
  { Chip.new stuckIrqMs with sf, bwKHz, cr }

/-- What a chip is tuned to when the firmware has programmed it. -/
theorem Chip.applyModulation_withModem (stuckIrqMs : UInt32) (p0 p1 p2 : UInt8) (coded : p2 ≠ 0) :
    (new stuckIrqMs).applyModulation p0 p1 p2 =
      withModem stuckIrqMs p0.toNat (bandwidth 250 p1) (p2.toNat + 4) := by
  have rate : (if p2 ≠ 0 then 4 + p2.toNat else (new stuckIrqMs).cr) = p2.toNat + 4 :=
    (if_pos coded).trans (Nat.add_comm _ _)
  rw [applyModulation, rate]
  rfl

theorem Chip.new_withModem (stuckIrqMs : UInt32) :
    new stuckIrqMs = withModem stuckIrqMs 10 250 5 := rfl

/-- The nibbles a block carries. -/
def room (sf : ℕ) : ℕ := if 11 ≤ sf then sf - 2 else sf

/-- Preamble, sync word and header, and `cr` symbols for each block. -/
def airtime (sf : ℕ) (bwKHz : ℚ) (cr len : ℕ) : ℚ :=
  cr * (2 ^ sf / bwKHz) * blocks (room sf) ((2 : ℕ) * len + (11 - sf)) +
    (113 / 4 * (2 ^ sf / bwKHz) + 1 / 2)

theorem Chip.airtimeMs_withModem (stuckIrqMs : UInt32) {sf : ℕ} {bwKHz : ℚ}
    (range : 2 < sf ∧ sf < 32) (positive : 0 < bwKHz) (cr len : ℕ) :
    (withModem stuckIrqMs sf bwKHz cr).airtimeMs len = airtime sf bwKHz cr len := by
  have shifted : (((1 : UInt32) <<< UInt32.ofNat sf).toNat : ℚ) = 2 ^ sf := by
    rw [one_shiftLeft, Nat.mod_eq_of_lt range.2]
    norm_cast
  have preamble : (((withModem stuckIrqMs sf bwKHz cr).preambleSyms.toNat : ℕ) : ℚ) = 16 := rfl
  have symbols := (withModem stuckIrqMs sf bwKHz cr).payloadSyms_eq range.1 len
  have items : nibbles sf len = (2 : ℕ) * len + (11 - sf) := by
    rw [nibbles]
    push_cast
    ring
  rw [airtimeMs, preamble, symbols]
  change (16 + 425 / 100 + (8 + (blocks (room sf) (nibbles sf len) : ℚ) * cr)) *
    ((((1 : UInt32) <<< UInt32.ofNat sf).toNat : ℚ) / (bwKHz * 1000)) * 1000 + 1 / 2 = _
  rw [shifted, items, airtime]
  field_simp
  ring

theorem airtime_nonneg (positive : 0 < bwKHz) (sf cr len : ℕ) : 0 ≤ airtime sf bwKHz cr len := by
  rw [airtime]
  positivity

def band (sf : ℕ) (bwKHz : ℚ) (cr : ℕ) : Band ℚ :=
  .affine (cr * (2 ^ sf / bwKHz)) (113 / 4 * (2 ^ sf / bwKHz) + 1 / 2)
    ⟨(2 : ℕ) / room sf,(11 - sf : ℤ) / room sf,(room sf - 1) / room sf⟩

theorem band_holds (range : 7 ≤ sf ∧ sf ≤ 12) (positive : 0 < bwKHz) (cr : ℕ) :
    (band sf bwKHz cr).Holds (airtime sf bwKHz cr) := by
  have few : 0 < room sf ∧ -(11 - sf : ℤ) < room sf := by
    rw [room]
    split <;> omega
  have count := blocks_holds (R := ℚ) few.1 2 few.2
  have climb : 0 ≤ cr * (2 ^ sf / bwKHz) := by positivity
  exact count.affine climb (113 / 4 * (2 ^ sf / bwKHz) + 1 / 2)

/-- Settings that are not the chip's, and lengths they happen to agree with it on. -/
def coincidences : List ((ℕ × ℚ × ℕ) × List ℕ) := [
  ((7,3125 / 100,1),[0,1,5]),
  ((7,4167 / 100,4),[2,3,4]),
  ((7,625 / 10,4),[69,86,87,88,89,105,106]),
  ((8,625 / 10,1),[0,1,2,5,6,10]),
  ((9,125,1),[0,1,2,3,5,6,7,8,10,11,12,15,16,17,20,21,25,26,30,35]),
  ((11,500,1),[1,2,3,4,5,6,7,8,9,10,11,12,13,15,16,17,18,20,21,22,25,26,27,30,31,35,36,40,45])]

def Coincides (sf : ℕ) (bwKHz : ℚ) (cr len : ℕ) : Prop :=
  ∃ row ∈ coincidences, row.1 = (sf,bwKHz,cr) ∧ len ∈ row.2

instance (sf : ℕ) (bwKHz : ℚ) (cr len : ℕ) : Decidable (Coincides sf bwKHz cr len) :=
  inferInstanceAs (Decidable (∃ row ∈ coincidences, row.1 = (sf,bwKHz,cr) ∧ len ∈ row.2))

def Agrees (sf : ℕ) (bwKHz : ℚ) (cr len : ℕ) : Prop :=
  ⌊airtime sf bwKHz (cr + 4) len⌋ = ⌊airtime 10 250 5 len⌋

instance (sf : ℕ) (bwKHz : ℚ) (cr len : ℕ) : Decidable (Agrees sf bwKHz cr len) :=
  inferInstanceAs (Decidable (_ = _))

theorem coincidences_agree : ∀ row ∈ coincidences, ∀ len ∈ row.2,
    Agrees row.1.1 row.1.2.1 row.1.2.2 len := by
  decide +kernel

/-- Where the staircase of other settings has parted from the chip's, above it or below. -/
def parting (sf : ℕ) (bwKHz : ℚ) (cr : ℕ) : ℕ :=
  if (band sf bwKHz (cr + 4)).slope ≤ (band 10 250 5).slope then
    (band sf bwKHz (cr + 4)).meets (band 10 250 5)
  else (band 10 250 5).meets (band sf bwKHz (cr + 4))

theorem parted : ∀ sf ∈ [7,8,9,10,11,12], ∀ bwKHz ∈ bandwidths, ∀ cr ∈ [1,2,3,4],
    (sf,bwKHz,cr) ≠ (10,250,1) →
    ((band sf bwKHz (cr + 4)).Below (band 10 250 5) (parting sf bwKHz cr) ∨
      (band 10 250 5).Below (band sf bwKHz (cr + 4)) (parting sf bwKHz cr)) ∧
    ∀ len < parting sf bwKHz cr, Agrees sf bwKHz cr len → Coincides sf bwKHz cr len := by
  decide +kernel

theorem bandwidths_positive : ∀ bwKHz ∈ bandwidths, 0 < bwKHz := by
  decide +kernel

/-- Which settings and lengths have the airtime of the chip's own. -/
theorem agrees_iff (factor : 7 ≤ sf ∧ sf ≤ 12) (listed : bwKHz ∈ bandwidths)
    (rate : 1 ≤ cr ∧ cr ≤ 4) (len : ℕ) : Agrees sf bwKHz cr len ↔
      (sf,bwKHz,cr) = (10,250,1) ∨ Coincides sf bwKHz cr len := by
  constructor
  · intro agrees
    by_cases own : (sf,bwKHz,cr) = (10,250,1)
    · exact .inl own
    · obtain ⟨clear,below⟩ := parted sf (by simp; omega) bwKHz listed cr (by simp; omega) own
      have other := band_holds factor (bandwidths_positive bwKHz listed) (cr + 4)
      have chip : (band 10 250 5).Holds (airtime 10 250 5) :=
        band_holds (by decide) (by norm_num) 5
      by_cases late : parting sf bwKHz cr ≤ len
      · rcases clear with under | beyond
        · exact absurd agrees (floor_lt other chip under late).ne
        · exact absurd agrees (floor_lt chip other beyond late).ne'
      · exact .inr (below len (by omega) agrees)
  · rintro (own | ⟨row,listed,same,inside⟩)
    · cases own
      rfl
    · have agree := coincidences_agree row listed len inside
      rw [same] at agree
      exact agree

/-- A length that tells all other settings from the chip's. -/
theorem agrees_fourteen_iff (factor : 7 ≤ sf ∧ sf ≤ 12) (listed : bwKHz ∈ bandwidths)
    (rate : 1 ≤ cr ∧ cr ≤ 4) : Agrees sf bwKHz cr 14 ↔ (sf,bwKHz,cr) = (10,250,1) := by
  have unlisted : ∀ row ∈ coincidences, 14 ∉ row.2 := by decide +kernel
  have none : ¬Coincides sf bwKHz cr 14 := fun ⟨row,inside,_,coincides⟩ =>
    unlisted row inside coincides
  rw [agrees_iff factor listed rate, or_iff_left none]

/-- The lengths whose airtime an `unsigned` holds. -/
theorem airtime_fits_iff (len : ℕ) :
    ⌊airtime 10 250 5 len⌋ < UInt32.size ↔ len ≤ 1048575969 := by
  have value : airtime 10 250 5 len =
      512 / 25 * blocks 10 ((2 : ℕ) * len + (11 - (10 : ℕ))) + 116212 / 1000 := by
    rw [airtime, room]
    norm_num
  have most : len ≤ 1048575969 ↔ blocks 10 ((2 : ℕ) * len + (11 - (10 : ℕ))) ≤ 209715194 := by
    rw [blocks_le_iff (by decide)]
    omega
  have size : ((UInt32.size : ℤ) : ℚ) = 4294967296 := by norm_num [UInt32.size]
  rw [Int.floor_lt, value, most, size]
  generalize blocks 10 _ = symbols
  constructor
  · intro small
    by_contra more
    have more : (209715195 : ℚ) ≤ symbols := by exact_mod_cast not_le.mp more
    linarith
  · intro few
    have few : (symbols : ℚ) ≤ 209715194 := by exact_mod_cast few
    linarith

/-- A chip as it is built and one with other settings answer alike. -/
theorem Chip.estAirtimeMs?_agree_iff (stuckIrqMs : UInt32) {sf cr : ℕ} {bwKHz : ℚ}
    (factor : 7 ≤ sf ∧ sf ≤ 12) (listed : bwKHz ∈ bandwidths) (rate : 1 ≤ cr ∧ cr ≤ 4)
    (len : ℕ) :
    (∃ ms, (new stuckIrqMs).estAirtimeMs? len = some ms ∧
      (withModem stuckIrqMs sf bwKHz (cr + 4)).estAirtimeMs? len = some ms) ↔
    len ≤ 1048575969 ∧ ((sf,bwKHz,cr) = (10,250,1) ∨ Coincides sf bwKHz cr len) := by
  have positive := bandwidths_positive bwKHz listed
  have left : 0 ≤ airtime 10 250 5 len := airtime_nonneg (by norm_num) 10 5 len
  have right := airtime_nonneg positive sf (cr + 4) len
  rw [new_withModem, estAirtimeMs?, estAirtimeMs?,
    airtimeMs_withModem stuckIrqMs (by decide) (by norm_num),
    airtimeMs_withModem stuckIrqMs (by omega) positive, toUInt32?_agree_iff left right,
    airtime_fits_iff, and_comm, ← agrees_iff factor listed rate len, Agrees]

/-- What is asked for with settings is answered for them only when they are those the chip
has before anything is set up, and the answer fits its type, or by coincidence. -/
theorem selfReport_answers_iff (stuckIrqMs : UInt32) {sf cr len : ℕ} (factor : 7 ≤ sf ∧ sf ≤ 12)
    (listed : bwKHz ∈ bandwidths) (rate : 1 ≤ cr ∧ cr ≤ 4)
    {sfText bwText crText lenText : String} (sfRead : integer sfText = sf)
    (bwRead : atof bwText = some bwKHz) (crRead : integer crText = cr)
    (lenRead : integer lenText = len) (order : List (String × String))
    (given : order.Perm
      [("--sf",sfText),("--bw-khz",bwText),("--cr",crText),("--print-airtime",lenText)]) :
    (∃ ms, main stuckIrqMs (Options.commandLine order) = some (.report ms) ∧
      (Chip.withModem stuckIrqMs sf bwKHz (cr + 4)).estAirtimeMs? len = some ms) ↔
    len ≤ 1048575969 ∧ ((sf,bwKHz,cr) = (10,250,1) ∨ Coincides sf bwKHz cr len) := by
  have sfRead : atoi sfText = some ↑sf := by
    rw [atoi, sfRead]
    exact if_pos (by omega)
  have crRead : atoi crText = some ↑cr := by
    rw [atoi, crRead]
    exact if_pos (by omega)
  have reported := main_settings stuckIrqMs sfRead bwRead crRead given (by omega)
  have agree := Chip.estAirtimeMs?_agree_iff stuckIrqMs factor listed rate len
  rw [atoi, lenRead] at reported
  by_cases fits : (len : ℤ) ≤ 2147483647
  · rw [if_pos ⟨by omega,fits⟩, Option.bind_some] at reported
    have printed (ms : UInt32) : ((Chip.new stuckIrqMs).estAirtimeMs? len).map Start.report =
        some (.report ms) ↔ (Chip.new stuckIrqMs).estAirtimeMs? len = some ms := by
      simp
    simp only [reported, printed, agree]
  · rw [if_neg fun range => fits range.2, Option.bind_none] at reported
    have beyond : ¬len ≤ 1048575969 := by omega
    simp [reported, beyond]

theorem selfReport_answers_default : ∃ ms,
    main 0 ["--print-airtime","32","--cr","1","--sf","10","--bw-khz","250"] =
      some (.report ms) ∧ (Chip.withModem 0 10 250 5).estAirtimeMs? 32 = some ms := by
  have read : integer "10" = 10 ∧ atof "250" = some 250 ∧ integer "1" = 1 ∧ integer "32" = 32 := by
    decide +kernel
  exact (selfReport_answers_iff 0 (by decide) (by decide +kernel) (by decide) read.1 read.2.1
    read.2.2.1 read.2.2.2
    [("--print-airtime","32"),("--cr","1"),("--sf","10"),("--bw-khz","250")] (by decide)).mpr
    ⟨by decide,.inl rfl⟩

/-- Spreading factor 7 at 125 kHz, twenty bytes: the answer is that of the chip's own
settings, and three times too long. -/
theorem selfReport_differs :
    main 0 ["--sf","7","--bw-khz","125","--cr","1","--print-airtime","20"] =
      some (.report 218) ∧ (Chip.withModem 0 7 125 5).estAirtimeMs? 20 = some 65 ∧
    ¬∃ ms, main 0 ["--sf","7","--bw-khz","125","--cr","1","--print-airtime","20"] =
      some (.report ms) ∧ (Chip.withModem 0 7 125 5).estAirtimeMs? 20 = some ms := by
  have printed : main 0 ["--sf","7","--bw-khz","125","--cr","1","--print-airtime","20"] =
      some (.report 218) := by
    decide +kernel
  have right : (Chip.withModem 0 7 125 5).estAirtimeMs? 20 = some 65 := by decide +kernel
  refine ⟨printed,right,?_⟩
  rw [printed, right]
  rintro ⟨ms,same,again⟩
  cases same
  cases again

end Meshcore
