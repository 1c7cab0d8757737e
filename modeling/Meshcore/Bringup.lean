import Meshcore.Sending
import Meshcore.Settings

/-! What bringing the radio up does to the chip: it is found by its version, set up by
commands of which the chip obeys those it knows, and told its settings one by one. -/
namespace Meshcore

open Checked Flags Programs Program Words

variable {κ : Type} {stuckIrqMs : UInt32} {c d e : Chip}

namespace Does

/-- The clock may read anything. -/
theorem clocked {rest : UInt64 → Hal κ α} (then' : ∀ t, Does (rest t) c d a) :
    Does (Hal.millis >>= rest) c d a := by
  intro q start
  obtain ⟨t,ran⟩ := then' (q.localUs / 1000) q start
  exact ⟨t,by rw [run_bind]; exact ran⟩

/-- A loop whose first turn is its last. -/
theorem once {turn : Hal κ (Option α)} (ends : Does turn c d (some a)) (turns : Nat) :
    Does (loop turn (turns + 1)) c d a := by
  intro q start
  obtain ⟨t,ran⟩ := ends q start
  exact ⟨t,run_loop_of_ends ran turns⟩

variable {p : Hal κ (Int16 × SX126x)} {rest : SX126x → Hal κ (Int16 × SX126x)}

theorem assertSet (first : Does p c d (RADIOLIB_ERR_NONE,s)) (then' : Does (rest s) d e r) :
    Does (SX126x.assertSet p rest) c e r := by
  refine first.bind ?_
  simpa using then'

theorem assertSet_stops (first : Does p c d (state,s)) (failed : state ≠ RADIOLIB_ERR_NONE) :
    Does (SX126x.assertSet p rest) c d (state,s) := by
  refine first.bind ?_
  simp only [ne_eq, failed, not_false_eq_true, ite_true]
  exact .done _ _

end Does

theorem delay_does (settled : c.Settled) (ms : UInt64) : Does (κ := κ) (Hal.delay ms) c c () := by
  rintro q rfl
  refine ⟨q.localUs + ms * 1000,?_⟩
  change (q.advanceUs (ms * 1000)).map (·,()) >>= some = _
  rw [Quiet.advanceUs, Chip.arrive_settled settled]
  rfl

/-- A command that is acknowledged and ignored. -/
theorem ignored_does (settled : c.Settled) (ignored : ∀ data, c.act (op :: data) = some c)
    (other : opcode? op ≠ some .getIrqStatus) (data : List UInt8) (fits : data.length ≤ 255) :
    Does (κ := κ) (SPIwriteStream [op] data true) c c RADIOLIB_ERR_NONE :=
  writeStream_does op [] data true settled settled (by simp; omega)
    (fun reads => absurd reads other) (ignored data)

namespace Chip

/-- The part by which a driver tells the chip. -/
def version (c : Chip) : List UInt8 :=
  (tabulate 16 fun i => (c.regs.get? (0x0320 + i)).getD 0).take 6

/-- A chip that has been reset: the virtual one has no pin for it and only stands by. -/
abbrev standing (c : Chip) : Chip := { c with mode := .standby }

/-- And once every block has been calibrated. -/
def configured (c : Chip) : Chip :=
  { c.cleared with
    txBase := 0, rxBase := 0, irqMask := 0
    regs := c.regs.overlay kRegRxGain [kRxGainPowerSaving] }

end Chip

namespace SX126x

variable (s : SX126x)

theorem reset_does (settled : c.Settled) :
    Does (κ := κ) (s.reset true) c c.standing RADIOLIB_ERR_NONE := by
  refine (delay_does settled 1).bind ?_
  refine Does.clocked fun start => ?_
  refine Does.once ((s.standby_does settled).bind ?_) 101
  exact .done _ _

theorem findChip_does (settled : c.Settled) (is : c.version = RADIOLIB_SX1262_CHIP_TYPE)
    (tries : Nat) :
    Does (κ := κ) (s.findChip RADIOLIB_SX1262_CHIP_TYPE (tries + 1)) c c.standing true := by
  refine (s.reset_does settled).bind ?_
  refine (SPIreadRegisterBurst_does (Chip.settled_standby rfl) 0x0320 16 (by decide)).bind ?_
  have found : (tabulate 16 fun i => (c.standing.regs.get? ((0x0320 : UInt32).toNat % 65536 + i)).getD
      0).take 6 = RADIOLIB_SX1262_CHIP_TYPE := is
  rw [if_pos found]
  exact .done _ _

theorem findChip_fails (settled : c.Settled) (isnt : c.version ≠ RADIOLIB_SX1262_CHIP_TYPE)
    (tries : Nat) : ∃ d : Chip,
      Does (κ := κ) (s.findChip RADIOLIB_SX1262_CHIP_TYPE tries) c d false := by
  induction tries generalizing c with
  | zero => exact ⟨c,.done _ _⟩
  | succ tries ih =>
    have again : Chip.Settled c.standing := Chip.settled_standby rfl
    obtain ⟨d,rest⟩ := ih again isnt
    refine ⟨d,(s.reset_does settled).bind ?_⟩
    refine (SPIreadRegisterBurst_does again 0x0320 16 (by decide)).bind ?_
    have other : ¬(tabulate 16 fun i => (c.standing.regs.get? ((0x0320 : UInt32).toNat % 65536 +
        i)).getD 0).take 6 = RADIOLIB_SX1262_CHIP_TYPE := isnt
    rw [if_neg other]
    exact (delay_does again 10).bind rest

theorem getDeviceErrors_does (settled : c.Settled) : Does (κ := κ) getDeviceErrors c c 0 := by
  have read := readStream_does (κ := κ) Opcode.getDeviceErrors.byte [] [0x00,0x00] settled settled
    rfl (by simp) (by simp [Chip.Curt,arg]) (by simp [Chip.act,arg])
  have answer : (tabulate [(0x00 : UInt8),0x00].length fun i => c.dataByte
      (Opcode.getDeviceErrors.byte :: [] ++ List.replicate ([(0x00 : UInt8),0x00].length + 1) 0x00)
        ([].length (α := UInt8) + 2 + i)) = [0x00,0x00] := rfl
  rw [answer] at read
  exact read.bind (.done _ _)

theorem config_does (settled : c.Settled) (modem : UInt8) :
    Does (κ := κ) (s.config modem) c c.configured RADIOLIB_ERR_NONE := by
  refine Does.asserted (setBufferBaseAddress_does settled) ?_
  refine Does.asserted (ignored_does (by exact settled) (fun _ => rfl) (by decide) _ (by simp)) ?_
  refine Does.asserted (ignored_does (by exact settled) (fun _ => rfl) (by decide) _ (by simp)) ?_
  refine Does.asserted (ignored_does (by exact settled) (fun _ => rfl) (by decide) _ (by simp)) ?_
  refine Does.asserted ((clearIrqStatus_does (by exact settled)).bind
    ((setDioIrqParams_does (by exact settled) 0 0).bind (.done _ _))) ?_
  have after : c.configured.Settled := settled
  refine Does.asserted (d := c.configured) (writeStream_does _ [] _ true (by exact settled) after
    (by simp) (by simp [Chip.Curt,arg]) rfl) ?_
  refine (delay_does after 5).bind ((waitForRampUp_does _).bind ?_)
  exact SPIcheckStream_does after

/-- The voltages there are for the oscillator's supply; next to nothing turns it off. -/
def Supplies (voltage : ℚ) : Prop := |voltage| ≤ 1 / 1000 ∨ (tcxoOutput voltage).isSome

instance : DecidablePred Supplies := fun voltage =>
  inferInstanceAs (Decidable (|voltage| ≤ 1 / 1000 ∨ (tcxoOutput voltage).isSome))

theorem setTCXO_does (settled : c.Settled) (oscillates : s.XTAL = false) (voltage : ℚ)
    (delay : UInt32) : ∃ tcxoDelay, Does (κ := κ) (s.setTCXO voltage delay) c c.standing
      (if Supplies voltage then RADIOLIB_ERR_NONE else RADIOLIB_ERR_INVALID_TCXO_VOLTAGE,
        { s with tcxoDelay }) := by
  have stands : Chip.Settled c.standing := Chip.settled_standby rfl
  have tcxo : ¬s.XTAL = true := by simp [oscillates]
  rw [setTCXO, if_neg tcxo]
  by_cases off : |voltage| ≤ 1 / 1000
  · rw [if_pos off, if_pos (show Supplies voltage from .inl off)]
    refine ⟨s.tcxoDelay,(s.standby_does settled).bind ((getDeviceErrors_does stands).bind ?_)⟩
    exact Does.bind (a := RADIOLIB_ERR_NONE) (.done _ _) ((s.reset_does stands).bind (.done _ _))
  rw [if_neg off]
  cases found : tcxoOutput voltage with
  | none =>
    have dry : ¬Supplies voltage := fun wet => wet.elim off (by simp [found])
    rw [if_neg dry]
    refine ⟨s.tcxoDelay,(s.standby_does settled).bind ((getDeviceErrors_does stands).bind ?_)⟩
    exact Does.bind (a := RADIOLIB_ERR_NONE) (.done _ _) (.done _ _)
  | some output =>
    have wet : Supplies voltage := .inr (by simp [found])
    rw [if_pos wet]
    refine ⟨delay,(s.standby_does settled).bind ((getDeviceErrors_does stands).bind ?_)⟩
    exact Does.bind (a := RADIOLIB_ERR_NONE) (.done _ _)
      ((ignored_does stands (fun _ => rfl) (by decide) _ (by simp [timeoutBytes])).bind (.done _ _))

/-- The first of the results that is an error. -/
def firstError : List Int16 → Int16
  | [] => RADIOLIB_ERR_NONE
  | state :: rest => if state = RADIOLIB_ERR_NONE then firstError rest else state

/-- What a check results in. -/
def required (ok : Prop) [Decidable ok] (error : Int16) : Int16 :=
  if ok then RADIOLIB_ERR_NONE else error

theorem firstError_append (xs ys : List Int16) : firstError (xs ++ ys) =
    if firstError xs = RADIOLIB_ERR_NONE then firstError ys else firstError xs := by
  induction xs with
  | nil => rfl
  | cons state rest ih =>
    rw [List.cons_append, firstError, firstError]
    by_cases fine : state = RADIOLIB_ERR_NONE
    · rw [if_pos fine, if_pos fine, ih]
    · rw [if_neg fine, if_neg fine, if_neg fine]

theorem none_of_firstError {states : List Int16} (fine : firstError states = RADIOLIB_ERR_NONE)
    (member : state ∈ states) : state = RADIOLIB_ERR_NONE := by
  induction states with
  | nil => cases member
  | cons first rest ih =>
    rw [firstError] at fine
    split at fine
    case isTrue here =>
      rcases List.mem_cons.mp member with rfl | later
      · exact here
      · exact ih fine later
    case isFalse fails => exact absurd fine fails

@[simp] theorem firstError_singleton (state : Int16) : firstError [state] = state := by
  rw [firstError]
  split
  case isTrue fine => exact fine.symm
  case isFalse => rfl

@[simp] theorem required_eq_none {ok : Prop} [Decidable ok] {error : Int16}
    (fails : error ≠ RADIOLIB_ERR_NONE) : required ok error = RADIOLIB_ERR_NONE ↔ ok := by
  rw [required]
  split <;> simp [*]

/-- Where no result is an error, what was checked holds. -/
theorem holds_of_firstError {ok : Prop} [Decidable ok] (error : Int16) {states : List Int16}
    (fine : firstError states = RADIOLIB_ERR_NONE) (checked : required ok error ∈ states)
    (fails : error ≠ RADIOLIB_ERR_NONE) : ok :=
  (required_eq_none fails).mp (none_of_firstError fine checked)

theorem required_congr {ok ok' : Prop} [Decidable ok] [Decidable ok'] (same : ok ↔ ok')
    (error : Int16) : required ok error = required ok' error := by
  simp only [required, same]

/-- The first error of `states` is the result; without one, `left` holds of what is left. -/
def Sets (p : Hal κ (Int16 × SX126x)) (c : Chip) (states : List Int16)
    (left : SX126x → Chip → Prop) : Prop :=
  ∃ s d, Does p c d (firstError states,s) ∧ (firstError states = RADIOLIB_ERR_NONE → left s d)

namespace Sets

variable {p : Hal κ (Int16 × SX126x)} {rest : SX126x → Hal κ (Int16 × SX126x)}
  {left after : SX126x → Chip → Prop} {states more : List Int16}

theorem assertSet (sets : Sets p c states left)
    (then' : ∀ s d, left s d → Sets (rest s) d more after) :
    Sets (SX126x.assertSet p rest) c (states ++ more) after := by
  obtain ⟨s,d,first,holds⟩ := sets
  rw [Sets, firstError_append]
  by_cases fine : firstError states = RADIOLIB_ERR_NONE
  · obtain ⟨s',e,next,holds'⟩ := then' s d (holds fine)
    rw [fine] at first
    rw [if_pos fine]
    exact ⟨s',e,first.assertSet next,holds'⟩
  · rw [if_neg fine]
    exact ⟨s,d,first.assertSet_stops fine,fun none => absurd none fine⟩

/-- A part that cannot fail adds no error. -/
theorem assertSet_does {s : SX126x} (first : Does p c d (RADIOLIB_ERR_NONE,s))
    (then' : Sets (rest s) d states left) : Sets (SX126x.assertSet p rest) c states left := by
  obtain ⟨s',e,next,holds⟩ := then'
  exact ⟨s',e,first.assertSet next,holds⟩

theorem asserted {p : Hal κ Int16} {q : Hal κ (Int16 × SX126x)} {failed : Int16 → Int16 × SX126x}
    (first : Does p c d RADIOLIB_ERR_NONE) (then' : Sets q d states left) :
    Sets (RADIOLIB_ASSERT p failed q) c states left := by
  obtain ⟨s,e,next,holds⟩ := then'
  exact ⟨s,e,first.asserted next,holds⟩

end Sets

theorem setTCXO_sets (settled : c.Settled) (oscillates : s.XTAL = false) (voltage : ℚ)
    (delay : UInt32) : Sets (κ := κ) (s.setTCXO voltage delay) c
      [required (Supplies voltage) RADIOLIB_ERR_INVALID_TCXO_VOLTAGE]
      fun s' d => d = c.standing ∧ ∃ tcxoDelay, s' = { s with tcxoDelay } := by
  obtain ⟨tcxoDelay,does⟩ := s.setTCXO_does (κ := κ) settled oscillates voltage delay
  rw [Sets, firstError_singleton]
  exact ⟨_,_,does,fun _ => ⟨rfl,tcxoDelay,rfl⟩⟩

/-- An oscillator with a supply it cannot have is not brought up. -/
def Powers (s : SX126x) (tcxoVoltage : ℚ) : Prop :=
  s.XTAL = false → 0 < tcxoVoltage → Supplies tcxoVoltage

instance (s : SX126x) : DecidablePred s.Powers := fun tcxoVoltage =>
  inferInstanceAs (Decidable (s.XTAL = false → 0 < tcxoVoltage → Supplies tcxoVoltage))

theorem supply_sets (c : Chip) (tcxoVoltage : ℚ) : Sets (κ := κ)
    (if s.XTAL = false ∧ 0 < tcxoVoltage then s.setTCXO tcxoVoltage 5000
      else pure (RADIOLIB_ERR_NONE,s)) c.standing
    [required (s.Powers tcxoVoltage) RADIOLIB_ERR_INVALID_TCXO_VOLTAGE]
    fun s' d => d = c.standing ∧ ∃ tcxoDelay, s' = { s with tcxoDelay } := by
  by_cases asked : s.XTAL = false ∧ 0 < tcxoVoltage
  · have same : required (s.Powers tcxoVoltage) RADIOLIB_ERR_INVALID_TCXO_VOLTAGE =
        required (Supplies tcxoVoltage) RADIOLIB_ERR_INVALID_TCXO_VOLTAGE := by
      simp [required,Powers,asked]
    rw [if_pos asked, same]
    exact s.setTCXO_sets (Chip.settled_standby rfl) asked.1 tcxoVoltage 5000
  · have powers : s.Powers tcxoVoltage := fun oscillates powered => absurd ⟨oscillates,powered⟩ asked
    rw [if_neg asked, required, if_pos powers]
    exact ⟨s,c.standing,.done _ _,fun _ => ⟨rfl,s.tcxoDelay,rfl⟩⟩

/-- The chip is looked for, its oscillator supplied and its blocks configured. -/
theorem modSetup_sets (settled : c.Settled) (tcxoVoltage : ℚ) (useRegulatorLDO : Bool)
    (modem : UInt8) : Sets (κ := κ) (s.modSetup tcxoVoltage useRegulatorLDO modem) c
      [required (c.version = RADIOLIB_SX1262_CHIP_TYPE) RADIOLIB_ERR_CHIP_NOT_FOUND,
       required (s.Powers tcxoVoltage) RADIOLIB_ERR_INVALID_TCXO_VOLTAGE]
      fun s' d => d = c.standing.configured ∧ ∃ tcxoDelay, s' = { s with tcxoDelay } := by
  by_cases is : c.version = RADIOLIB_SX1262_CHIP_TYPE
  · have stands : Chip.Settled c.standing := Chip.settled_standby rfl
    have after : Chip.Settled c.standing.configured := Chip.settled_standby rfl
    obtain ⟨s',d,rest,left⟩ : Sets (κ := κ)
        (assertSet (if s.XTAL = false ∧ 0 < tcxoVoltage then s.setTCXO tcxoVoltage 5000
          else pure (RADIOLIB_ERR_NONE,s)) fun s =>
        assertSet (do
          let state ← s.config modem
          s.configAgain state modem) fun s => do
        let state ← setRegulatorMode (if useRegulatorLDO then 0x00 else 0x01)
        return (state,s)) c.standing
        ([required (s.Powers tcxoVoltage) RADIOLIB_ERR_INVALID_TCXO_VOLTAGE] ++ [])
        fun s' d => d = c.standing.configured ∧ ∃ tcxoDelay, s' = { s with tcxoDelay } := by
      refine (s.supply_sets c tcxoVoltage).assertSet ?_
      rintro _ _ ⟨rfl,tcxoDelay,rfl⟩
      refine ⟨{ s with tcxoDelay },c.standing.configured,?_,fun _ => ⟨rfl,tcxoDelay,rfl⟩⟩
      refine Does.assertSet (d := c.standing.configured) (s := { s with tcxoDelay }) ?_ ?_
      · refine (config_does _ stands modem).bind ?_
        rw [configAgain, if_pos rfl]
        exact .done _ _
      · exact (ignored_does after (fun _ => rfl) (by decide) _ (by simp)).bind (.done _ _)
    rw [Sets, required, if_pos is]
    refine ⟨s',d,(s.findChip_does settled is 9).bind ?_,left⟩
    rw [if_neg (by decide)]
    exact rest
  · obtain ⟨d,missed⟩ := s.findChip_fails (κ := κ) settled is 10
    rw [Sets, required, if_neg is, firstError, if_neg (by decide)]
    refine ⟨s,d,missed.bind ?_,fun fine => absurd fine (by decide)⟩
    rw [if_pos rfl]
    exact .done _ _

/-! A setting is either made, or refused before anything has changed. -/

def Makes (p : Hal κ (Int16 × SX126x)) (s : SX126x) (c : Chip) (state : Int16)
    (made : SX126x → Chip → Prop) : Prop :=
  ∃ s' d, Does p c d (state,s') ∧
    if state = RADIOLIB_ERR_NONE then made s' d else s' = s ∧ d = c

theorem Makes.sets {s : SX126x} {p : Hal κ (Int16 × SX126x)} {made : SX126x → Chip → Prop}
    (makes : Makes p s c state made) : Sets p c [state] made := by
  obtain ⟨s',d,does,left⟩ := makes
  rw [Sets, firstError_singleton]
  refine ⟨s',d,does,fun fine => ?_⟩
  rwa [if_pos fine] at left

theorem Makes.mono {s : SX126x} {p : Hal κ (Int16 × SX126x)}
    {made made' : SX126x → Chip → Prop}
    (makes : Makes p s c state made) (more : ∀ s d, made s d → made' s d) :
    Makes p s c state made' := by
  obtain ⟨s',d,does,left⟩ := makes
  refine ⟨s',d,does,?_⟩
  by_cases fine : state = RADIOLIB_ERR_NONE
  · rw [if_pos fine] at left ⊢
    exact more s' d left
  · rw [if_neg fine] at left ⊢
    exact left

/-- The optimisation as it is chosen along with the modulation. -/
def optimized (s : SX126x) : SX126x :=
  { s with ldrOptimize :=
      if s.ldroAuto then
        if 16 * s.bandwidthKhz ≤ ((1 : UInt32) <<< s.spreadingFactor.toUInt32).toNat then 0x01
        else 0x00
      else s.ldrOptimize }

/-- The chip with the modulation that the driver keeps. -/
def modulate (s : SX126x) (c : Chip) : Chip :=
  c.applyModulation s.spreadingFactor s.bandwidth s.codingRate

/-- And with its packets framed as the driver keeps it. -/
def frame (s : SX126x) (c : Chip) : Chip :=
  (c.rewritten 0x0736 (iqConfigured s.invertIQEnabled)).applyPacketParams
    (hiByte s.preambleLengthLoRa) (loByte s.preambleLengthLoRa) s.implicitLen.toUInt8

/-- The two bytes of a sync word in their registers. -/
def syncWordBytes (syncWord controlBits : UInt8) : List UInt8 :=
  [(syncWord &&& 0xF0) ||| ((controlBits &&& 0xF0) >>> (4 : UInt8)),
   ((syncWord &&& 0x0F) <<< (4 : UInt8)) ||| (controlBits &&& 0x0F)]

/-- The frequency as the chip takes it from the steps it is told. -/
def tunedHz (freq : ℚ) : UInt32 :=
  UInt32.ofNat ((UInt32.ofNat ⌊freq * 33554432 / 32⌋.toNat).toNat * 32000000 / 33554432)

/-- A register written back as it was read. -/
theorem rewritten_id (c : Chip) (a : Nat) : c.rewritten a id = c := by
  have same : c.regs.overlay a [(c.regs.get? a).getD 0] = c.regs := by
    funext j
    rw [Block.overlay]
    split
    case isTrue at' =>
      have here : a = j := by
        have := at'.2
        simp at this
        omega
      subst here
      simp [get?_of_lt c.regs j.isLt]
    case isFalse => rfl
  rw [Chip.rewritten, id, same]

section Setters

variable (settled : c.Settled)
include settled

theorem updateModulation_does :
    Does (κ := κ) s.updateModulation c (s.modulate c) (RADIOLIB_ERR_NONE,s.optimized) :=
  (writeStream_does _ [] _ true settled (by exact settled) (by simp) (by simp [Chip.Curt,arg])
    (by simp [Chip.act,arg,modulate])).bind (.done _ _)

theorem updatePacket_does :
    Does (κ := κ) s.updatePacket c (s.frame c) (RADIOLIB_ERR_NONE,s) :=
  (setPacketParams_sets settled _ _ _ _ _).bind (.done _ _)

theorem setLoRa_makes (value : Option α) (fails : refused ≠ RADIOLIB_ERR_NONE)
    (keep : α → SX126x) : Makes (κ := κ) (s.setLoRa value refused keep) s c
      (required value.isSome refused)
      fun s' d => ∃ given, value = some given ∧ s' = (keep given).optimized ∧
        d = (keep given).modulate c := by
  cases value with
  | none =>
    have refuses : required (none : Option α).isSome refused = refused := rfl
    refine ⟨s,c,(getPacketType_does settled).bind (.done _ _),?_⟩
    rw [refuses, if_neg fails]
    exact ⟨rfl,rfl⟩
  | some given =>
    refine ⟨_,_,(getPacketType_does settled).bind ((keep given).updateModulation_does settled),?_⟩
    exact ⟨given,rfl,rfl,rfl⟩

theorem setCodingRate_makes (cr : UInt8) (longInterleave : Bool) : Makes (κ := κ)
    (s.setCodingRate cr longInterleave) s c
    (required (codingRate? cr longInterleave).isSome RADIOLIB_ERR_INVALID_CODING_RATE)
    fun s' d => ∃ codingRate, codingRate? cr longInterleave = some codingRate ∧
      s' = optimized { s with codingRate } ∧ d = modulate { s with codingRate } c :=
  s.setLoRa_makes settled _ (by decide) _

theorem setSpreadingFactor_makes (sf : UInt8) : Makes (κ := κ) (s.setSpreadingFactor sf) s c
    (required (5 ≤ sf ∧ sf ≤ 12) RADIOLIB_ERR_INVALID_SPREADING_FACTOR)
    fun s' d => s' = optimized { s with spreadingFactor := sf } ∧
      d = modulate { s with spreadingFactor := sf } c := by
  have same : (if 5 ≤ sf ∧ sf ≤ 12 then some sf else none).isSome = true ↔ 5 ≤ sf ∧ sf ≤ 12 := by
    simp
  rw [← required_congr same]
  have fails : RADIOLIB_ERR_INVALID_SPREADING_FACTOR ≠ RADIOLIB_ERR_NONE := by decide
  refine (s.setLoRa_makes settled _ fails _).mono ?_
  rintro s' d ⟨given,found,rfl,rfl⟩
  rw [Option.ite_none_right_eq_some] at found
  obtain ⟨_,⟨⟩⟩ := found
  exact ⟨rfl,rfl⟩

theorem setBandwidth_makes (bw : ℚ) : Makes (κ := κ) (s.setBandwidth bw) s c
    (required (bandwidth? bw).isSome RADIOLIB_ERR_INVALID_BANDWIDTH)
    fun s' d => ∃ bandwidth, bandwidth? bw = some bandwidth ∧
      s' = optimized { s with bandwidth, bandwidthKhz := bw } ∧
      d = modulate { s with bandwidth, bandwidthKhz := bw } c :=
  s.setLoRa_makes settled _ (by decide) _

theorem setPreambleLength_does (preambleLength : UInt64) : Does (κ := κ)
    (s.setPreambleLength preambleLength) c
    (frame { s with preambleLengthLoRa := preambleLength.toBitVec.setWidth 16 } c)
    (RADIOLIB_ERR_NONE,{ s with preambleLengthLoRa := preambleLength.toBitVec.setWidth 16 }) :=
  (getPacketType_does settled).bind (updatePacket_does _ settled)

theorem setCRC_does (len : UInt8) : Does (κ := κ) (s.setCRC len) c (s.frame c)
    (RADIOLIB_ERR_NONE,{ s with crcTypeLoRa := if len ≠ 0 then 0x01 else 0x00 }) :=
  (getPacketType_does settled).bind (updatePacket_does _ settled)

theorem invertIQ_does (enable : Bool) : Does (κ := κ) (s.invertIQ enable) c
    (frame { s with invertIQEnabled := if enable then 0x01 else 0x00 } c)
    (RADIOLIB_ERR_NONE,{ s with invertIQEnabled := if enable then 0x01 else 0x00 }) :=
  (getPacketType_does settled).bind (updatePacket_does _ settled)

theorem setHeaderType_does (hdrType : UInt8) (len : UInt64) : Does (κ := κ)
    (s.setHeaderType hdrType len) c (frame { s with implicitLen := len } c)
    (RADIOLIB_ERR_NONE,{ s with headerType := hdrType, implicitLen := len }) :=
  (getPacketType_does settled).bind
    ((setPacketParams_sets settled _ _ _ _ _).asserted (.done _ _))

theorem forceLDRO_does (enable : Bool) : Does (κ := κ) (s.forceLDRO enable) c (s.modulate c)
    (RADIOLIB_ERR_NONE,{ s with ldroAuto := false, ldrOptimize := if enable then 0x01 else 0x00 }) :=
  (getPacketType_does settled).bind (updateModulation_does _ settled)

theorem autoLDRO_does : Does (κ := κ) s.autoLDRO c c
    (RADIOLIB_ERR_NONE,{ s with ldroAuto := true }) :=
  (getPacketType_does settled).bind (.done _ _)

theorem setRxBoostedGainMode_does (rxbgm persist : Bool) : ∃ regs, Does (κ := κ)
      (setRxBoostedGainMode rxbgm persist) c { c with regs } RADIOLIB_ERR_NONE ∧
    ∀ a, ¬(0x029F ≤ a ∧ a < 0x02A2) →
      regs.get? a = (c.regs.overlay 0x08AC [if rxbgm then 0x96 else 0x94]).get? a := by
  have gain := writeRegister_does (κ := κ) settled 0x08AC [if rxbgm then 0x96 else 0x94]
    (by simp)
  cases persist with
  | false => exact ⟨_,gain.asserted (.done _ _),fun _ _ => rfl⟩
  | true =>
    refine ⟨_,gain.asserted (writeRegister_does (by exact settled) 0x029F [0x01,0x08,0xAC]
      (by simp)),fun a apart => ?_⟩
    exact get?_overlay_apart _ _ (by simp; omega)

theorem setCurrentLimit_does {currentLimit : ℚ} (allowed : 0 ≤ currentLimit ∧ currentLimit ≤ 140) :
    Does (κ := κ) (setCurrentLimit currentLimit) c
      { c with regs := c.regs.overlay 0x08E7 [UInt8.ofNat ⌊currentLimit / (5 / 2)⌋.toNat] }
      RADIOLIB_ERR_NONE := by
  rw [setCurrentLimit, if_neg (not_not.mpr allowed)]
  exact writeRegister_does settled 0x08E7 _ (by simp)

theorem setSyncWord_does (syncWord controlBits : UInt8) : Does (κ := κ)
    (setSyncWord syncWord controlBits) c
    { c with regs := c.regs.overlay 0x0740 (syncWordBytes syncWord controlBits) }
    RADIOLIB_ERR_NONE :=
  (getPacketType_does settled).bind (writeRegister_does settled 0x0740 _ (by simp))

theorem setDio2AsRfSwitch_does (enable : Bool) :
    Does (κ := κ) (setDio2AsRfSwitch enable) c c RADIOLIB_ERR_NONE :=
  ignored_does settled (fun _ => rfl) (by decide) _ (by simp)

theorem fixPaClamping_does : Does (κ := κ) fixPaClamping c (c.rewritten 0x08D8 (· ||| 0x1E))
    RADIOLIB_ERR_NONE :=
  rewriteRegister_does settled 0x08D8 (· ||| 0x1E) id

theorem setRfFrequency_does (frf : UInt32) : Does (κ := κ) (setRfFrequency frf) c
    { c with freqHz := UInt32.ofNat (frf.toNat * 32000000 / 33554432) } RADIOLIB_ERR_NONE :=
  writeStream_does _ [] _ true settled (by exact settled) (by simp) (by simp [Chip.Curt,arg])
    (by simp [Chip.act,arg,be32_put32])

theorem setFrequencyRaw_does (freq : ℚ) : Does (κ := κ) (s.setFrequencyRaw freq) c
    { c with freqHz := tunedHz freq } (RADIOLIB_ERR_NONE,{ s with freqMHz := freq }) :=
  (setRfFrequency_does settled _).bind (.done _ _)

theorem calibrateImage_does (freq : ℚ) :
    Does (κ := κ) (calibrateImage freq) c c RADIOLIB_ERR_NONE := by
  have pairs : ∀ band ∈ imageBands, band.2.length = 2 := by decide
  rw [calibrateImage]
  refine ignored_does settled (fun _ => rfl) (by decide) _ ?_
  split
  next band found =>
    rw [pairs band (List.mem_of_find?_eq_some found)]
    decide
  next => simp [calibrateImageRejection]

/-- The calibration is not for this chip, which obeys only the tuning. -/
theorem setFrequency_makes (freq : ℚ) (skipCalibration : Bool) : Makes (κ := κ)
    (SX1262.setFrequency s freq skipCalibration) s c
    (required (150 ≤ freq ∧ freq ≤ 960) RADIOLIB_ERR_INVALID_FREQUENCY)
    fun s' d => (150 ≤ freq ∧ freq ≤ 960) ∧ s' = { s with freqMHz := freq } ∧
      d = { c with freqHz := tunedHz freq } := by
  by_cases allowed : 150 ≤ freq ∧ freq ≤ 960
  · have calibrated : Does (κ := κ) (if skipCalibration = false ∧ 20 ≤ |freq - s.freqMHz| then
        calibrateImage freq else pure RADIOLIB_ERR_NONE) c c RADIOLIB_ERR_NONE := by
      split
      · exact calibrateImage_does settled freq
      · exact .done _ _
    rw [Makes, required, if_pos allowed, SX1262.setFrequency, if_neg (not_not.mpr allowed)]
    exact ⟨_,_,calibrated.asserted (s.setFrequencyRaw_does settled freq),allowed,rfl,rfl⟩
  · rw [Makes, required, if_neg allowed, SX1262.setFrequency, if_pos allowed]
    exact ⟨s,c,.done _ _,rfl,rfl⟩

theorem setTxParams_does (pwr rampTime : UInt8) : Does (κ := κ) (s.setTxParams pwr rampTime) c
    { c with txPowerDbm := pwr.toInt8 } (RADIOLIB_ERR_NONE,{ s with pwr }) :=
  (writeStream_does _ [] _ true settled (by exact settled) (by simp) (by simp [Chip.Curt,arg])
    (by simp [Chip.act,arg])).bind (.done _ _)

theorem writeBack_does (addr : UInt32) : Does (κ := κ)
    (writeRegister addr [(c.regs.get? (addr.toNat % 65536)).getD 0]) c c RADIOLIB_ERR_NONE := by
  have wrote := writeRegister_does (κ := κ) settled addr [(c.regs.get? (addr.toNat % 65536)).getD 0]
    (by simp)
  change Does _ c (c.rewritten (addr.toNat % 65536) id) _ at wrote
  rwa [rewritten_id] at wrote

/-- The power is set and the limit of the current written back as it was read. -/
theorem setOutputPower_does (power : Int8) (paDutyCycle hpMax deviceSel : UInt8) : Does (κ := κ)
    (s.setOutputPower power paDutyCycle hpMax deviceSel) c
    { c with txPowerDbm := power } (RADIOLIB_ERR_NONE,{ s with pwr := power.toUInt8 }) := by
  have same : power.toUInt8.toInt8 = power := rfl
  have set := s.setTxParams_does (κ := κ) settled power.toUInt8 0x04
  rw [same] at set
  refine (readRegister_does settled 0x08E7 1 (by decide)).bind (Does.asserted (.done _ _) ?_)
  refine Does.asserted (ignored_does settled (fun _ => rfl) (by decide) _ (by simp)) ?_
  have after : Chip.Settled { c with txPowerDbm := power } := settled
  exact set.assertSet ((writeBack_does after 0x08E7).bind (.done _ _))

theorem setOutputPower_makes (power : Int8) (optimize : Bool) : Makes (κ := κ)
    (SX1262.setOutputPower s power optimize) s c
    (required (-9 ≤ power ∧ power ≤ 22) RADIOLIB_ERR_INVALID_OUTPUT_POWER)
    fun s' d => (-9 ≤ power ∧ power ≤ 22) ∧
      s' = { s with pwr := (SX1262.paVal power optimize).toUInt8 } ∧
      d = { c with txPowerDbm := SX1262.paVal power optimize } := by
  by_cases allowed : -9 ≤ power ∧ power ≤ 22
  · rw [Makes, required, if_pos allowed, SX1262.setOutputPower, if_neg (not_not.mpr allowed)]
    exact ⟨_,_,s.setOutputPower_does settled _ _ _ _,allowed,rfl,rfl⟩
  · rw [Makes, required, if_neg allowed, SX1262.setOutputPower, if_pos allowed]
    exact ⟨s,c,.done _ _,rfl,rfl⟩

end Setters

/-! The settings that the driver keeps are those of the chip. -/

theorem preambleSyms_put16 (preambleLength : BitVec 16) :
    ((hiByte preambleLength).toUInt32 <<< 8 ||| (loByte preambleLength).toUInt32).toNat =
      preambleLength.toNat := by
  have word := congrArg BitVec.toNat (be16_bytes preambleLength)
  rw [be16_toNat] at word
  rw [UInt32.toNat_or, shiftLeft_byte _ 8 (by decide), UInt8.toNat_toUInt32]
  exact (shiftLeft_or_byte _ _).trans word

/-- Two roundings down, the first to a step of less than a hertz. -/
theorem tunedHz_near {freq : ℚ} (low : 0 ≤ freq) (high : freq ≤ 960) :
    (tunedHz freq).toNat ≤ freq * 1000000 ∧ freq * 1000000 < (tunedHz freq).toNat + 2 := by
  obtain ⟨steps,floor⟩ := Int.eq_ofNat_of_zero_le (Int.floor_nonneg.mpr
    (show 0 ≤ freq * 33554432 / 32 by positivity))
  obtain ⟨under,above⟩ := Int.floor_eq_iff.mp floor
  push_cast at under above
  have few : steps ≤ 960 * 1048576 := by
    have : (steps : ℚ) ≤ 960 * 1048576 := by linarith
    exact_mod_cast this
  have word : (UInt32.ofNat steps).toNat = steps :=
    UInt32.toNat_ofNat_of_lt' (show steps < 4294967296 by omega)
  have hertz : (tunedHz freq).toNat = steps * 32000000 / 33554432 := by
    rw [tunedHz, floor]
    change (UInt32.ofNat ((UInt32.ofNat steps).toNat * 32000000 / 33554432)).toNat = _
    rw [word]
    exact UInt32.toNat_ofNat_of_lt' (show steps * 32000000 / 33554432 < 4294967296 by omega)
  have down : (steps * 32000000 / 33554432 : ℕ) * 33554432 ≤ steps * 32000000 :=
    Nat.div_mul_le_self _ _
  have up : steps * 32000000 < (steps * 32000000 / 33554432 + 1) * 33554432 := by omega
  rw [hertz]
  constructor
  · have : ((steps * 32000000 / 33554432 : ℕ) : ℚ) * 33554432 ≤ steps * 32000000 := by
      exact_mod_cast down
    linarith
  · have : (steps : ℚ) * 32000000 < ((steps * 32000000 / 33554432 : ℕ) + 1) * 33554432 := by
      exact_mod_cast up
    linarith

theorem bandwidth?_near {bw : ℚ} (found : bandwidth? bw = some i) (current : ℚ) :
    Chip.bandwidth current i = Chip.bandwidth 0 i ∧ |Chip.bandwidth 0 i - bw| < 2 := by
  rw [bandwidth?, Option.ite_none_left_eq_some] at found
  obtain ⟨_,found⟩ := found
  split at found
  case h_11 => cases found
  all_goals
    rename_i half
    cases found
    obtain ⟨under,above⟩ := Int.floor_eq_iff.mp half
    push_cast at under above
    refine ⟨rfl,abs_lt.mpr ?_⟩
    rw [Chip.bandwidth]
    constructor <;> linarith

/-- What has been asked for that the chip alone keeps. -/
structure Marks where
  syncWord : UInt8
  gain : UInt8

/-- The registers of it, and that of the limit of the current. -/
structure Marked (marks : Marks) (regs : Block 0x1000 UInt8) : Prop where
  word : [regs.get? 0x0740,regs.get? 0x0741] = (syncWordBytes marks.syncWord 0x44).map some
  gain : regs.get? 0x08AC = some marks.gain
  limit : regs.get? 0x08E7 = some 24

def markedRegs : List ℕ := [0x0740,0x0741,0x08AC,0x08E7]

/-- The bit of the IQ setup that the driver writes. -/
def iqBit (invertIQ : UInt8) : UInt8 :=
  if invertIQ = RADIOLIB_SX126X_LORA_IQ_INVERTED then 0x00 else 0x04

theorem iqConfigured_bit (iqConfig current : UInt8) :
    iqConfigured iqConfig current &&& 0x04 = iqBit iqConfig := by
  have table : ∀ i < 256, UInt8.ofNat i &&& 0xFB &&& 0x04 = 0x00 ∧
      (UInt8.ofNat i ||| 0x04) &&& 0x04 = 0x04 := by decide +kernel
  have entry := table current.toNat current.toNat_lt
  rw [UInt8.ofNat_toNat] at entry
  unfold iqConfigured iqBit
  split
  · exact entry.1
  · exact entry.2

theorem frame_iq (s : SX126x) (c : Chip) :
    ((s.frame c).regs.get? 0x0736).map (· &&& 0x04) = some (iqBit s.invertIQEnabled) := by
  rw [frame, Chip.applyPacketParams, Chip.rewritten, get?_overlay_or, if_pos (by omega)]
  exact congrArg some (iqConfigured_bit s.invertIQEnabled _)

/-- The modulation and the preamble of the chip are the driver's; for a coding rate of zero
the chip keeps its own. -/
structure Modulated (s : SX126x) (c : Chip) : Prop where
  sf : c.sf = s.spreadingFactor.toNat
  bandwidth : ∀ current, Chip.bandwidth current s.bandwidth = c.bwKHz
  bwKHz : |c.bwKHz - s.bandwidthKhz| < 2
  cr : s.codingRate ≠ 0 → c.cr = 4 + s.codingRate.toNat
  preambleSyms : c.preambleSyms.toNat = s.preambleLengthLoRa.toNat

/-- And so are the carrier, in the steps there are of it, the power and the IQ setup; the
bandwidth is the one that the driver's rule chooses. -/
structure Tuned (s : SX126x) (marks : Marks) (c : Chip) : Prop extends Modulated s c where
  chosen : bandwidth? s.bandwidthKhz = some s.bandwidth
  freqHz : c.freqHz = tunedHz s.freqMHz
  txPowerDbm : c.txPowerDbm = s.pwr.toInt8
  iq : (c.regs.get? 0x0736).map (· &&& 0x04) = some (iqBit s.invertIQEnabled)
  marked : Marked marks c.regs

/-- Registers rewritten elsewhere leave the marks. -/
theorem Marked.of_kept {regs regs' : Block 0x1000 UInt8} (marked : Marked marks regs)
    (kept : ∀ a ∈ markedRegs, regs'.get? a = regs.get? a) : Marked marks regs' := by
  refine ⟨?_,(kept 0x08AC (by decide)).trans marked.gain,(kept 0x08E7 (by decide)).trans marked.limit⟩
  rw [kept 0x0740 (by decide), kept 0x0741 (by decide)]
  exact marked.word

theorem Marked.overlaid {regs : Block 0x1000 UInt8} (marked : Marked marks regs) (value : UInt8)
    (apart : a ∉ markedRegs) : Marked marks (regs.overlay a [value]) := by
  refine marked.of_kept fun b among => get?_overlay_apart _ _ ?_
  simp [markedRegs] at apart among ⊢
  omega

theorem Marked.gained {regs : Block 0x1000 UInt8} (marked : Marked marks regs) (gain : UInt8) :
    Marked { marks with gain } (regs.overlay 0x08AC [gain]) := by
  have apart (a : ℕ) (other : a < 0x08AC ∨ 0x08AC < a) :
      (regs.overlay 0x08AC [gain]).get? a = regs.get? a :=
    get?_overlay_apart _ _ (by simp; omega)
  refine ⟨?_,?_,(apart _ (by omega)).trans marked.limit⟩
  · rw [apart _ (by omega), apart _ (by omega)]
    exact marked.word
  · rw [get?_overlay_or, if_pos (by omega)]
    rfl

/-- All are written by `begin`, and the IQ setup in between; the gain is that of a chip whose
blocks have been calibrated. -/
theorem Marked.of_written {regs : Block 0x1000 UInt8} {g : UInt8}
    (gained : regs.get? 0x08AC = some g) (syncWord value : UInt8) : Marked ⟨syncWord,g⟩
      (((regs.overlay 0x0740 (syncWordBytes syncWord 0x44)).overlay 0x0736 [value]).overlay 0x08E7
        [24]) := by
  have word (a : Nat) (below : a < 0x0742) (above : 0x0740 ≤ a) :
      (((regs.overlay 0x0740 (syncWordBytes syncWord 0x44)).overlay 0x0736 [value]).overlay 0x08E7
        [24]).get? a = (syncWordBytes syncWord 0x44)[a - 0x0740]? := by
    have written : a - 0x0740 < (syncWordBytes syncWord 0x44).length := by
      simp [syncWordBytes]
      omega
    rw [get?_overlay_apart _ _ (.inl (by omega)), get?_overlay_apart _ _ (.inr (by simp; omega)),
      get?_overlay_or, if_pos ⟨above,by omega⟩, List.getElem?_eq_getElem written, Option.some_or]
  refine ⟨?_,?_,?_⟩
  · rw [word 0x0740 (by omega) (by omega), word 0x0741 (by omega) (by omega)]
    rfl
  · rw [get?_overlay_apart _ _ (.inl (by omega)), get?_overlay_apart _ _ (.inr (by simp)),
      get?_overlay_apart _ _ (.inr (by simp [syncWordBytes]))]
    exact gained
  · rw [get?_overlay_or, if_pos (by omega)]
    rfl

section Kept

variable {s : SX126x} (tuned : s.Tuned marks c)
include tuned

theorem Tuned.remodulated (sf codingRate : UInt8) {bandwidth : UInt8} {bandwidthKhz : ℚ}
    (chosen : bandwidth? bandwidthKhz = some bandwidth) (ldroAuto : Bool) (ldrOptimize : UInt8) :
    Tuned { s with
        spreadingFactor := sf, codingRate, bandwidth, bandwidthKhz, ldroAuto, ldrOptimize } marks
      (modulate { s with spreadingFactor := sf, codingRate, bandwidth, bandwidthKhz } c) :=
  have near := bandwidth?_near chosen
  { tuned with
    sf := rfl
    bandwidth := fun current => (near current).1.trans (near c.bwKHz).1.symm
    bwKHz := lt_of_eq_of_lt (congrArg (fun kHz => |kHz - bandwidthKhz|) (near c.bwKHz).1) (near 0).2
    cr := fun rate => if_pos rate
    chosen }

/-- Where the bandwidth is kept. -/
theorem Tuned.respread (sf codingRate : UInt8) (ldroAuto : Bool) (ldrOptimize : UInt8) :
    Tuned { s with spreadingFactor := sf, codingRate, ldroAuto, ldrOptimize } marks
      (modulate { s with spreadingFactor := sf, codingRate } c) :=
  tuned.remodulated sf codingRate tuned.chosen ldroAuto ldrOptimize

theorem Tuned.framed (preambleLengthLoRa : BitVec 16) (invertIQEnabled headerType crcTypeLoRa : UInt8)
    (implicitLen : UInt64) :
    Tuned { s with preambleLengthLoRa, invertIQEnabled, headerType, crcTypeLoRa, implicitLen } marks
      (frame { s with preambleLengthLoRa, invertIQEnabled, implicitLen } c) :=
  { tuned with
    preambleSyms := preambleSyms_put16 preambleLengthLoRa
    iq := frame_iq _ c
    marked := tuned.marked.overlaid _ (by decide) }

/-- Time changes none of this. -/
theorem Tuned.of_still (same : d.still = c.still) : s.Tuned marks d := by
  have timeless : s.Tuned marks c.still := { tuned with }
  rw [← same] at timeless
  exact { timeless with }

end Kept

/-- What a setting results in. -/
def settingState : SX1262.Setting → Int16
  | .frequency freq _ => required (150 ≤ freq ∧ freq ≤ 960) RADIOLIB_ERR_INVALID_FREQUENCY
  | .bandwidth bw => required (bandwidth? bw).isSome RADIOLIB_ERR_INVALID_BANDWIDTH
  | .spreadingFactor sf => required (5 ≤ sf ∧ sf ≤ 12) RADIOLIB_ERR_INVALID_SPREADING_FACTOR
  | .codingRate cr longInterleave =>
    required (codingRate? cr longInterleave).isSome RADIOLIB_ERR_INVALID_CODING_RATE
  | .outputPower power _ => required (-9 ≤ power ∧ power ≤ 22) RADIOLIB_ERR_INVALID_OUTPUT_POWER
  | _ => RADIOLIB_ERR_NONE

/-- What a radio has been asked for; `none` leaves the optimisation to the driver. -/
structure Asked where
  freq : ℚ
  bw : ℚ
  sf : UInt8
  codingRate : UInt8
  preambleLength : BitVec 16
  power : UInt8
  hdrType : UInt8
  implicitLen : UInt64
  crcType : UInt8
  invertIQ : UInt8
  ldro : Option UInt8
  deriving DecidableEq

def asked (s : SX126x) : Asked where
  freq := s.freqMHz
  bw := s.bandwidthKhz
  sf := s.spreadingFactor
  codingRate := s.codingRate
  preambleLength := s.preambleLengthLoRa
  power := s.pwr
  hdrType := s.headerType
  implicitLen := s.implicitLen
  crcType := s.crcTypeLoRa
  invertIQ := s.invertIQEnabled
  ldro := if s.ldroAuto then none else some s.ldrOptimize

theorem asked_optimized (s : SX126x) : s.optimized.asked = s.asked := by
  obtain ⟨_,_,_,ldroAuto,_⟩ := s
  cases ldroAuto <;> rfl

/-- What a setting adds to it. -/
def Asked.made (asked : Asked) : SX1262.Setting → Asked
  | .frequency freq _ => { asked with freq }
  | .bandwidth bw => { asked with bw }
  | .spreadingFactor sf => { asked with sf }
  | .codingRate cr longInterleave =>
    { asked with codingRate := (codingRate? cr longInterleave).getD asked.codingRate }
  | .preambleLength preambleLength =>
    { asked with preambleLength := preambleLength.toBitVec.setWidth 16 }
  | .headerType hdrType implicitLen => { asked with hdrType, implicitLen }
  | .CRC len => { asked with crcType := if len ≠ 0 then 0x01 else 0x00 }
  | .IQ inverted =>
    { asked with invertIQ := if inverted then RADIOLIB_SX126X_LORA_IQ_INVERTED else 0x00 }
  | .forceLDRO enable => { asked with ldro := some (if enable then 0x01 else 0x00) }
  | .autoLDRO => { asked with ldro := none }
  | .outputPower power optimize => { asked with power := (SX1262.paVal power optimize).toUInt8 }
  -- The driver keeps neither of these two, and the chip only the first.
  | .rxBoostedGainMode _ _ | .paRampTime _ => asked

def Marks.after (marks : Marks) : SX1262.Setting → Marks
  | .rxBoostedGainMode rxbgm _ => { marks with gain := if rxbgm then 0x96 else 0x94 }
  | _ => marks

/-- A setting that is refused adds nothing. -/
def Asked.after (asked : Asked) (setting : SX1262.Setting) : Asked :=
  if settingState setting = RADIOLIB_ERR_NONE then asked.made setting else asked

theorem Makes.keeps {p : Hal κ (Int16 × SX126x)} {made : SX126x → Chip → Prop} {s : SX126x}
    {asked' : Asked} (makes : Makes p s c state made) (settled : c.Settled)
    (tuned : s.Tuned marks c)
    (keeps : ∀ s' d, made s' d → d.Settled ∧ s'.Tuned marks d ∧ s'.asked = asked') :
    ∃ s' d, Does p c d (state,s') ∧ d.Settled ∧ s'.Tuned marks d ∧
      s'.asked = if state = RADIOLIB_ERR_NONE then asked' else s.asked := by
  obtain ⟨s',d,does,left⟩ := makes
  refine ⟨s',d,does,?_⟩
  by_cases fine : state = RADIOLIB_ERR_NONE
  · rw [if_pos fine] at left ⊢
    exact keeps s' d left
  · rw [if_neg fine] at left ⊢
    obtain ⟨rfl,rfl⟩ := left
    exact ⟨settled,tuned,rfl⟩

/-- Every setting is made as it was asked for or changes nothing. -/
theorem set_keeps (settled : c.Settled) (tuned : s.Tuned marks c) (setting : SX1262.Setting) :
    ∃ s' d, Does (κ := κ) (SX1262.set s setting) c d (settingState setting,s') ∧ d.Settled ∧
      s'.Tuned (marks.after setting) d ∧ s'.asked = s.asked.after setting := by
  cases setting with
  | frequency freq skipCalibration =>
    refine (s.setFrequency_makes settled freq skipCalibration).keeps settled tuned ?_
    rintro _ _ ⟨_,rfl,rfl⟩
    exact ⟨settled,{ tuned with freqHz := rfl },rfl⟩
  | bandwidth bw =>
    refine (s.setBandwidth_makes settled bw).keeps settled tuned ?_
    rintro _ _ ⟨bandwidth,found,rfl,rfl⟩
    exact ⟨settled,tuned.remodulated s.spreadingFactor s.codingRate found _ _,asked_optimized _⟩
  | spreadingFactor sf =>
    refine (s.setSpreadingFactor_makes settled sf).keeps settled tuned ?_
    rintro _ _ ⟨rfl,rfl⟩
    exact ⟨settled,tuned.respread sf s.codingRate _ _,asked_optimized _⟩
  | codingRate cr longInterleave =>
    refine (s.setCodingRate_makes settled cr longInterleave).keeps settled tuned ?_
    rintro _ _ ⟨codingRate,found,rfl,rfl⟩
    refine ⟨settled,tuned.respread s.spreadingFactor codingRate _ _,?_⟩
    rw [asked_optimized, Asked.made, found]
    rfl
  | preambleLength preambleLength =>
    exact ⟨_,_,s.setPreambleLength_does settled preambleLength,settled,
      tuned.framed _ s.invertIQEnabled s.headerType s.crcTypeLoRa s.implicitLen,rfl⟩
  | headerType hdrType len =>
    exact ⟨_,_,s.setHeaderType_does settled hdrType len,settled,
      tuned.framed s.preambleLengthLoRa s.invertIQEnabled hdrType s.crcTypeLoRa len,rfl⟩
  | CRC len =>
    exact ⟨_,_,s.setCRC_does settled len,settled,
      tuned.framed s.preambleLengthLoRa s.invertIQEnabled s.headerType _ s.implicitLen,rfl⟩
  | IQ inverted =>
    exact ⟨_,_,s.invertIQ_does settled inverted,settled,
      tuned.framed s.preambleLengthLoRa _ s.headerType s.crcTypeLoRa s.implicitLen,rfl⟩
  | forceLDRO enable =>
    exact ⟨_,_,s.forceLDRO_does settled enable,settled,
      tuned.respread s.spreadingFactor s.codingRate false _,rfl⟩
  | autoLDRO => exact ⟨_,_,s.autoLDRO_does settled,settled,{ tuned with },rfl⟩
  | rxBoostedGainMode rxbgm persist =>
    obtain ⟨regs,does,kept⟩ := setRxBoostedGainMode_does (κ := κ) settled rxbgm persist
    have marked : Marked _ regs := (tuned.marked.gained (if rxbgm then 0x96 else 0x94)).of_kept
      fun a among => kept a (by simp [markedRegs] at among; omega)
    have iq : regs.get? 0x0736 = c.regs.get? 0x0736 :=
      (kept _ (by omega)).trans (get?_overlay_apart _ _ (.inl (by omega)))
    exact ⟨s,_,does.map (·,s),settled,{ tuned with marked, iq := iq ▸ tuned.iq },rfl⟩
  | outputPower power optimize =>
    refine (s.setOutputPower_makes settled power optimize).keeps settled tuned ?_
    rintro _ _ ⟨_,rfl,rfl⟩
    exact ⟨settled,{ tuned with txPowerDbm := rfl },rfl⟩
  | paRampTime rampTime =>
    exact ⟨_,_,s.setTxParams_does settled s.pwr rampTime,settled,{ tuned with txPowerDbm := rfl },rfl⟩

/-- Whatever is asked for in whatever order, each setting results in what its arguments say. -/
theorem setAll_keeps (settled : c.Settled) (tuned : s.Tuned marks c)
    (settings : List SX1262.Setting) : ∃ s' d, Does (κ := κ) (SX1262.setAll s settings) c d
      (settings.map settingState,s') ∧ d.Settled ∧ s'.Tuned (settings.foldl Marks.after marks) d ∧
        s'.asked = settings.foldl Asked.after s.asked := by
  induction settings generalizing s marks c with
  | nil => exact ⟨s,c,.done _ _,settled,tuned,rfl⟩
  | cons setting rest ih =>
    obtain ⟨s₁,c₁,does,settled₁,tuned₁,asked⟩ := s.set_keeps (κ := κ) settled tuned setting
    obtain ⟨s₂,c₂,then',after⟩ := ih s₁ settled₁ tuned₁
    rw [asked] at after
    exact ⟨s₂,c₂,does.bind (then'.bind (.done _ _)),after⟩

/-- The rate of a chip that is told `codingRate`, where zero leaves the one it had. -/
def rated (codingRate : UInt8) (cr : ℕ) : ℕ :=
  if codingRate ≠ 0 then 4 + codingRate.toNat else cr

/-- Telling it again changes nothing. -/
@[simp] theorem rated_rated (codingRate : UInt8) (cr : ℕ) :
    rated codingRate (rated codingRate cr) = rated codingRate cr := by
  unfold rated
  split <;> rfl

/-- The chip and the driver after the part of `begin` that the family has in common; `before`
is the rate that the chip had. -/
structure Introduced (before : ℕ) (asked : Asked) (marks : Marks) (s : SX126x) (c : Chip) :
    Prop where
  mode : c.mode = .standby
  irqMask : c.irqMask = 0
  cr : c.cr = rated asked.codingRate before
  preambleSyms : c.preambleSyms.toNat = s.preambleLengthLoRa.toNat
  iq : (c.regs.get? 0x0736).map (· &&& 0x04) = some (iqBit s.invertIQEnabled)
  marked : Marked marks c.regs
  asked : s.asked = asked

theorem codingRate?_short (cr : UInt8) :
    codingRate? cr false = if 4 ≤ cr ∧ cr ≤ 8 then some (cr - 4) else none := by
  rw [codingRate?]
  split <;> simp_all

theorem setCodingRate_sets (settled : c.Settled) (cr : UInt8) : Sets (κ := κ)
    (s.setCodingRate cr false) c [required (4 ≤ cr ∧ cr ≤ 8) RADIOLIB_ERR_INVALID_CODING_RATE]
    fun s' d => s' = optimized { s with codingRate := cr - 4 } ∧
      d = modulate { s with codingRate := cr - 4 } c := by
  have coded : (codingRate? cr false).isSome = true ↔ 4 ≤ cr ∧ cr ≤ 8 := by
    rw [codingRate?_short]
    simp
  rw [← required_congr coded]
  refine ((s.setCodingRate_makes settled cr false).mono ?_).sets
  rintro _ _ ⟨codingRate,found,rfl,rfl⟩
  rw [codingRate?_short, Option.ite_none_right_eq_some] at found
  obtain ⟨_,⟨⟩⟩ := found
  exact ⟨rfl,rfl⟩

theorem begin_introduces (settled : c.Settled) (cr syncWord : UInt8) (preambleLength : BitVec 16)
    (tcxoVoltage : ℚ) (useRegulatorLDO : Bool) : Sets (κ := κ)
    (s.begin cr syncWord preambleLength tcxoVoltage useRegulatorLDO) c
    ([required (c.version = RADIOLIB_SX1262_CHIP_TYPE) RADIOLIB_ERR_CHIP_NOT_FOUND,
      required (s.Powers tcxoVoltage) RADIOLIB_ERR_INVALID_TCXO_VOLTAGE] ++
     ([required (4 ≤ cr ∧ cr ≤ 8) RADIOLIB_ERR_INVALID_CODING_RATE] ++ []))
    (Introduced c.cr { (s.defaults preambleLength).asked with codingRate := cr - 4, invertIQ := 0x00 }
      ⟨syncWord,kRxGainPowerSaving⟩) := by
  refine ((s.defaults preambleLength).modSetup_sets settled tcxoVoltage useRegulatorLDO
    RADIOLIB_SX126X_PACKET_TYPE_LORA).assertSet ?_
  rintro s₁ d ⟨rfl,tcxoDelay,found⟩
  have stands : Chip.Settled c.standing.configured := Chip.settled_standby rfl
  refine (s₁.setCodingRate_sets stands cr).assertSet ?_
  rintro s' _ ⟨given,rfl⟩
  have made : s'.asked = { (s.defaults preambleLength).asked with codingRate := cr - 4 } := by
    rw [given, asked_optimized, found]
    rfl
  have calibrated : c.standing.configured.regs.get? 0x08AC = some kRxGainPowerSaving := by
    rw [Chip.configured, kRegRxGain, get?_overlay_or, if_pos (by omega)]
    rfl
  have limit : UInt8.ofNat ⌊(60 : ℚ) / (5 / 2)⌋.toNat = 24 := by
    rw [show ⌊(60 : ℚ) / (5 / 2)⌋ = 24 by norm_num]
    rfl
  have word : (UInt64.ofBitVec (preambleLength.setWidth 64)).toBitVec.setWidth 16 =
      preambleLength := by simp
  refine Sets.asserted (setSyncWord_does (by exact stands) syncWord 0x44) ?_
  refine Sets.assertSet_does (setPreambleLength_does s' (by exact stands) _) ?_
  refine Sets.asserted (setCurrentLimit_does (by exact stands) (by norm_num)) ?_
  refine Sets.asserted (setDio2AsRfSwitch_does (by exact stands) true) ?_
  refine Sets.assertSet_does (setCRC_does _ (by exact stands) 2) ?_
  refine ⟨_,_,invertIQ_does _ (by exact stands) false,fun _ => ⟨rfl,rfl,rfl,?_,?_,?_,?_⟩⟩
  · exact preambleSyms_put16 _
  · exact frame_iq _ _
  · rw [limit]
    exact ((Marked.of_written calibrated syncWord _).overlaid _ (by decide)).overlaid _ (by decide)
  · change { s'.asked with
      preambleLength := (UInt64.ofBitVec (preambleLength.setWidth 64)).toBitVec.setWidth 16
      crcType := 0x01, invertIQ := 0x00 } = _
    rw [made, word]
    rfl

end SX126x

namespace SX1262

open SX126x

variable (s : SX126x)

/-- The checks of `begin` in their order. -/
def beginStates (s : SX126x) (c : Chip) (freq bw : ℚ) (sf cr : UInt8) (power : Int8)
    (tcxoVoltage : ℚ) : List Int16 :=
  [required (c.version = RADIOLIB_SX1262_CHIP_TYPE) RADIOLIB_ERR_CHIP_NOT_FOUND,
   required (s.Powers tcxoVoltage) RADIOLIB_ERR_INVALID_TCXO_VOLTAGE,
   required (4 ≤ cr ∧ cr ≤ 8) RADIOLIB_ERR_INVALID_CODING_RATE,
   required (5 ≤ sf ∧ sf ≤ 12) RADIOLIB_ERR_INVALID_SPREADING_FACTOR,
   required (bandwidth? bw).isSome RADIOLIB_ERR_INVALID_BANDWIDTH,
   required (150 ≤ freq ∧ freq ≤ 960) RADIOLIB_ERR_INVALID_FREQUENCY,
   required (-9 ≤ power ∧ power ≤ 22) RADIOLIB_ERR_INVALID_OUTPUT_POWER]

/-- What `begin` asks for, partly of its own accord. -/
def beginAsked (s : SX126x) (freq bw : ℚ) (sf cr : UInt8) (power : Int8)
    (preambleLength : BitVec 16) : Asked where
  freq
  bw
  sf
  codingRate := cr - 4
  preambleLength
  power := (paVal power true).toUInt8
  hdrType := 0x00
  implicitLen := 0xFF
  crcType := 0x01
  invertIQ := 0x00
  ldro := if s.ldroAuto then none else some 0x00

/-- The radio stands by with all interrupts off, tuned to what was asked for; `before` is the
rate its chip had. -/
structure Begun (before : ℕ) (asked : Asked) (marks : Marks) (s : SX126x) (c : Chip) :
    Prop where
  mode : c.mode = .standby
  irqMask : c.irqMask = 0
  cr : c.cr = rated asked.codingRate before
  tuned : s.Tuned marks c
  asked : s.asked = asked

theorem begin_sets (settled : c.Settled) (freq bw : ℚ) (sf cr syncWord : UInt8) (power : Int8)
    (preambleLength : BitVec 16) (tcxoVoltage : ℚ) (useRegulatorLDO : Bool) : Sets (κ := κ)
    (begin s freq bw sf cr syncWord power preambleLength tcxoVoltage useRegulatorLDO) c
    (beginStates s c freq bw sf cr power tcxoVoltage)
    (Begun c.cr (beginAsked s freq bw sf cr power preambleLength) ⟨syncWord,kRxGainPowerSaving⟩) := by
  refine (s.begin_introduces settled cr syncWord preambleLength tcxoVoltage
    useRegulatorLDO).assertSet ?_
  intro s₀ c₀ introduced
  have stands : c₀.Settled := Chip.settled_standby introduced.mode
  refine (s₀.setSpreadingFactor_makes stands sf).sets.assertSet ?_
  rintro s₁ _ ⟨spread,rfl⟩
  have spreadAs : s₁.asked = { s₀.asked with sf } := spread ▸ asked_optimized _
  refine (s₁.setBandwidth_makes (by exact stands) bw).sets.assertSet ?_
  rintro s₂ _ ⟨bandwidth,found,banded,rfl⟩
  have bandedAs : s₂.asked = { s₁.asked with bw } := banded ▸ asked_optimized _
  have near := bandwidth?_near found
  refine (s₂.setFrequency_makes (by exact stands) freq false).sets.assertSet ?_
  rintro s₃ _ ⟨_,carried,rfl⟩
  have total : asked { s₃ with pwr := (paVal power true).toUInt8 } =
      beginAsked s freq bw sf cr power preambleLength := by
    rw [carried]
    change { s₂.asked with freq, power := (paVal power true).toUInt8 } = _
    rw [bandedAs, spreadAs, introduced.asked]
    rfl
  refine Sets.asserted (fixPaClamping_does (by exact stands)) ?_
  refine ((s₃.setOutputPower_makes (by exact stands) power true).mono ?_).sets
  rintro _ _ ⟨_,rfl,rfl⟩
  subst carried banded spread
  exact {
    mode := introduced.mode
    irqMask := introduced.irqMask
    cr := by
      have coded : s₀.codingRate = cr - 4 := congrArg Asked.codingRate introduced.asked
      change rated s₀.codingRate (rated s₀.codingRate c₀.cr) = _
      rw [rated_rated, introduced.cr, coded]
      exact rated_rated ..
    tuned := {
      sf := rfl
      bandwidth := fun current => (near current).1.trans (near _).1.symm
      bwKHz := lt_of_eq_of_lt (congrArg (fun kHz => |kHz - bw|) (near _).1) (near 0).2
      cr := fun rate => if_pos rate
      preambleSyms := introduced.preambleSyms
      chosen := found
      freqHz := rfl
      txPowerDbm := rfl
      iq := (congrArg (Option.map (· &&& 0x04))
        (get?_overlay_apart _ _ (.inl (by decide)))).trans introduced.iq
      marked := introduced.marked.overlaid _ (by decide) }
    asked := total }

theorem Begun.of_still {asked : Asked} (begun : Begun before asked marks s c)
    (same : d.still = c.still) : Begun before asked marks s d where
  mode := (Chip.timeless_eq same Chip.mode fun _ => rfl).trans begun.mode
  irqMask := (Chip.timeless_eq same Chip.irqMask fun _ => rfl).trans begun.irqMask
  cr := (Chip.timeless_eq same Chip.cr fun _ => rfl).trans begun.cr
  tuned := begun.tuned.of_still same
  asked := begun.asked

/-- What the amplifier is set to is never less than what was asked for. -/
theorem le_paVal {power : Int8} (low : -9 ≤ power) (high : power ≤ 22) :
    power ≤ paVal power true ∧ (paVal power true = power ↔ power = 22) := by
  have table : ∀ i < 32, Int8.ofInt ((i : ℕ) - 9) ≤ paVal (Int8.ofInt ((i : ℕ) - 9)) true ∧
      (paVal (Int8.ofInt ((i : ℕ) - 9)) true = Int8.ofInt ((i : ℕ) - 9) ↔
        Int8.ofInt ((i : ℕ) - 9) = 22) := by decide
  have from' : -9 ≤ power.toInt := Int8.le_iff_toInt_le.mp low
  have to' : power.toInt ≤ 22 := Int8.le_iff_toInt_le.mp high
  obtain ⟨i,place⟩ := Int.eq_ofNat_of_zero_le (show 0 ≤ power.toInt + 9 by omega)
  have entry := table i (by omega)
  rwa [show (i : ℤ) - 9 = power.toInt by omega, Int8.ofInt_toInt] at entry

/-- A chip told its carrier and with three registers written, and a driver of its defaults. -/
theorem tuned_written : ∃ (h : SimHal Unit 0) (s : SX126x), h.chip.mode = .standby ∧
    h.chip.inbox = [] ∧ s.Tuned ⟨0x12,0x94⟩ h.chip ∧
    s.asked = ⟨7123149 / 8192,250,10,1,16,0x80,0x00,0xFF,0x01,0x00,none⟩ := by
  let ops : List ChipOp :=
    [.spiTransfer [0x0D,0x07,0x40,0x14,0x24],.spiTransfer [0x0D,0x07,0x36,0x04],
     .spiTransfer [0x0D,0x08,0xE7,24],.spiTransfer [0x86,0x36,0x58,0x66,0x80]]
  have written : (Runs.run Chip.step (.new 0) ops).map (fun c =>
      decide (c.mode = .standby ∧ c.inbox = [] ∧ c.sf = 10 ∧ c.bwKHz = 250 ∧ c.cr = 5 ∧
        c.preambleSyms = 16 ∧ c.freqHz = 869525024 ∧ c.txPowerDbm = -128 ∧
        [c.regs.get? 0x0740,c.regs.get? 0x0741] = [some 0x14,some 0x24] ∧
        c.regs.get? 0x08AC = some 0x94 ∧ c.regs.get? 0x08E7 = some 24 ∧
        c.regs.get? 0x0736 = some 0x04)) = some true := by
    decide +kernel
  obtain ⟨c,ran,holds⟩ := Option.map_eq_some_iff.mp written
  obtain ⟨mode,inbox,sf,bwKHz,cr,preambleSyms,freqHz,txPowerDbm,word,gain,limit,iq⟩ :=
    of_decide_eq_true holds
  let h : SimHal Unit 0 := { radio := ⟨⟨c,ops,ran⟩,[],rfl⟩ }
  let s : SX126x := {
    spreadingFactor := 10, bandwidth := 0x05, bandwidthKhz := 250, codingRate := 1
    preambleLengthLoRa := 16, freqMHz := 7123149 / 8192, pwr := 0x80, crcTypeLoRa := 0x01
    implicitLen := 0xFF }
  have tuned : s.Tuned ⟨0x12,0x94⟩ h.chip := {
    sf
    bandwidth := fun _ => bwKHz.symm
    bwKHz := by
      rw [show h.chip.bwKHz = 250 from bwKHz]
      norm_num [s]
    cr := fun _ => cr
    preambleSyms := congrArg UInt32.toNat preambleSyms
    chosen := by decide +kernel
    freqHz := freqHz.trans (show 869525024 = tunedHz (7123149 / 8192) by decide +kernel)
    txPowerDbm
    iq := congrArg (Option.map (· &&& 0x04)) iq
    marked := ⟨word,gain,limit⟩ }
  exact ⟨h,s,mode,inbox,tuned,rfl⟩

end SX1262
end Meshcore
