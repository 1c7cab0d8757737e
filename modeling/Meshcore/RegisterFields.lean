import Meshcore.Library.Fields
import Meshcore.SpiModule

/-! The driver's access to the fields of a register: the register is read, the field
replaced in what was read, and the result written and read again until it is there. -/
namespace Meshcore

open Checked Fields Programs Program

variable {κ : Type} {stuckIrqMs : UInt32}

/-- `((0xFF << lsb) & (0xFF >> (7 - msb)))`, computed in an `int`. -/
def readMask (msb lsb : UInt8) : UInt8 :=
  ⟨((0xFF#32 <<< lsb.toNat) &&& (0xFF#32 >>> (7 - msb.toNat))).setWidth 8⟩

/-- `~((0xFF << (msb + 1)) | (0xFF >> (8 - lsb)))`, likewise. -/
def writeMask (msb lsb : UInt8) : UInt8 :=
  ⟨(~~~((0xFF#32 <<< (msb.toNat + 1)) ||| (0xFF#32 >>> (8 - lsb.toNat)))).setWidth 8⟩

/-- The value masked, or an error that no byte is. -/
def SPIgetRegValue (reg : UInt32) (msb lsb : UInt8) : Hal κ Int16 := do
  if msb > 7 ∨ lsb > 7 ∨ lsb > msb then return RADIOLIB_ERR_INVALID_BIT_RANGE
  let rawValue ← SPIreadRegister reg
  return Int16.ofNat (rawValue &&& readMask msb lsb).toNat

def checkTurn (start : UInt64) (reg : UInt32) (newValue checkInterval checkMask : UInt8) :
    Hal κ (Option Int16) := do
  if (← Hal.micros) - start < checkInterval.toUInt64 * 1000 then
    let val ← SPIreadRegister reg
    return if val &&& checkMask = newValue &&& checkMask then some RADIOLIB_ERR_NONE else none
  else return some RADIOLIB_ERR_SPI_WRITE_FAILED

/-- The register is read until the part to check is there; a read takes more than forty
microseconds, which bounds the turns. -/
def checkRegValue (reg : UInt32) (newValue checkInterval checkMask : UInt8) : Hal κ Int16 := do
  let start ← Hal.micros
  loop (checkTurn start reg newValue checkInterval checkMask) 6400

def SPIsetRegValue (reg : UInt32) (value msb lsb checkInterval checkMask : UInt8) (force : Bool) :
    Hal κ Int16 := do
  if msb > 7 ∨ lsb > 7 ∨ lsb > msb then return RADIOLIB_ERR_INVALID_BIT_RANGE
  let currentValue ← SPIreadRegister reg
  let mask := writeMask msb lsb
  if currentValue &&& mask = value &&& mask ∧ force = false then return RADIOLIB_ERR_NONE
  let newValue := currentValue &&& ~~~mask ||| value &&& mask
  SPIwriteRegister reg newValue
  checkRegValue reg newValue checkInterval checkMask

/-- Both masks name the bits of the field and no others. -/
theorem mask_bit {msb lsb : UInt8} (top : msb.toNat ≤ 7) (bottom : lsb.toNat ≤ 7) (i : Nat) :
    ((readMask msb lsb).toBitVec.getLsbD i = true ↔ lsb.toNat ≤ i ∧ i ≤ msb.toNat) ∧
      ((writeMask msb lsb).toBitVec.getLsbD i = true ↔ lsb.toNat ≤ i ∧ i ≤ msb.toNat) := by
  by_cases inside : i < 8
  · have all : ∀ hi lo i : Fin 8,
        ((readMask (UInt8.ofNat hi) (UInt8.ofNat lo)).toBitVec.getLsbD i = true ↔
          (UInt8.ofNat lo).toNat ≤ i.val ∧ i.val ≤ (UInt8.ofNat hi).toNat) ∧
        ((writeMask (UInt8.ofNat hi) (UInt8.ofNat lo)).toBitVec.getLsbD i = true ↔
          (UInt8.ofNat lo).toNat ≤ i.val ∧ i.val ≤ (UInt8.ofNat hi).toNat) := by
      decide +kernel
    simpa using all ⟨msb.toNat,by omega⟩ ⟨lsb.toNat,by omega⟩ ⟨i,inside⟩
  · have past : ¬i ≤ msb.toNat := by omega
    simp [BitVec.getLsbD_of_ge _ _ (Nat.le_of_not_lt inside),past]

theorem masks_agree {msb lsb : UInt8} (top : msb.toNat ≤ 7) (bottom : lsb.toNat ≤ 7) :
    readMask msb lsb = writeMask msb lsb := by
  refine UInt8.toBitVec_inj.mp (BitVec.eq_of_getLsbD_eq fun i _ => ?_)
  have bit := mask_bit top bottom i
  exact Bool.eq_iff_iff.mpr (bit.1.trans bit.2.symm)

section Fields

variable {c : Chip} (settled : c.Settled) (reg : UInt32) (value msb lsb : UInt8)
include settled

theorem SPIgetRegValue_does (top : msb.toNat ≤ 7) (bottom : lsb.toNat ≤ msb.toNat) :
    Does (κ := κ) (SPIgetRegValue reg msb lsb) c c (Int16.ofNat
      (((c.regs.get? (reg.toNat % 65536)).getD 0) &&& readMask msb lsb).toNat) := by
  have range : ¬(msb > 7 ∨ lsb > 7 ∨ lsb > msb) := by
    simp only [gt_iff_lt, UInt8.lt_iff_toNat_lt, UInt8.reduceToNat]
    omega
  simp only [SPIgetRegValue, if_neg range]
  exact (SPIreadRegister_does settled reg).bind (.done _ _)

/-- A register that reads as written passes its check at once, if it is checked at all. -/
theorem checkRegValue_does (checkInterval checkMask : UInt8) (checks : checkInterval ≠ 0)
    (written : (c.regs.get? (reg.toNat % 65536)).getD 0 = value) :
    Does (κ := κ) (checkRegValue reg value checkInterval checkMask) c c RADIOLIB_ERR_NONE := by
  rintro q rfl
  obtain ⟨t,read⟩ := SPIreadRegister_does (κ := κ) settled reg q rfl
  have positive : 0 < checkInterval.toNat :=
    Nat.pos_of_ne_zero fun zero => checks (UInt8.toNat_inj.mp zero)
  have soon : q.localUs - q.localUs < checkInterval.toUInt64 * 1000 := by
    rw [UInt64.sub_self, UInt64.lt_iff_toNat_lt, UInt64.toNat_mul, UInt8.toNat_toUInt64]
    have := checkInterval.toNat_lt
    change 0 < checkInterval.toNat * 1000 % 18446744073709551616
    omega
  have turn : (checkTurn q.localUs reg value checkInterval checkMask).run Quiet.answer q =
      some ({ q with chip := q.chip, localUs := t },some RADIOLIB_ERR_NONE) := by
    rw [checkTurn, run_bind]
    change (if q.localUs - q.localUs < checkInterval.toUInt64 * 1000 then _ else _ :
      Hal κ (Option Int16)).run Quiet.answer q = _
    rw [if_pos soon, run_bind, read, written]
    simp
  have start : (Hal.micros (κ := κ)).run Quiet.answer q = some (q,q.localUs) := rfl
  refine ⟨t,?_⟩
  rw [checkRegValue, run_bind, start, Option.bind_some]
  exact run_loop_of_ends turn 6399

end Fields

/-- The chip with a field of the register at `a` replaced by that of `value`. -/
def Chip.withField (c : Chip) (a : Nat) (mask value : UInt8) : Chip :=
  let old := (c.regs.get? a).getD 0
  { c with regs := c.regs.overlay a [⟨replace mask.toBitVec old.toBitVec value.toBitVec⟩] }

section Write

variable {c : Chip} {a : Nat} (mask value : UInt8)

theorem get?_withField (inside : a < 0x1000) : (c.withField a mask value).regs.get? a =
    some ⟨replace mask.toBitVec ((c.regs.get? a).getD 0).toBitVec value.toBitVec⟩ := by
  rw [Chip.withField, get?_overlay_or, if_pos ⟨Nat.le_refl a,inside⟩, Nat.sub_self]
  rfl

theorem get?_withField_ne (other : b ≠ a) :
    (c.withField a mask value).regs.get? b = c.regs.get? b := by
  rw [Chip.withField, get?_overlay_or]
  split
  next within =>
    have past : 1 ≤ b - a := by omega
    rw [List.getElem?_eq_none (by simpa using past), Option.none_or]
  next => rfl

theorem withField_of_same (inside : a < 0x1000)
    (same : (c.regs.get? a).getD 0 &&& mask = value &&& mask) : c.withField a mask value = c := by
  have bits := congrArg UInt8.toBitVec same
  rw [UInt8.toBitVec_and, UInt8.toBitVec_and] at bits
  have kept : ∀ b, (c.withField a mask value).regs.get? b = c.regs.get? b := by
    intro b
    by_cases there : b = a
    · subst there
      rw [get?_withField mask value inside, replace_of_field bits, get?_of_lt _ inside]
      rfl
    · exact get?_withField_ne mask value there
  have regs : (c.withField a mask value).regs = c.regs := by
    funext j
    have cell := kept j.val
    rw [get?_of_lt _ j.isLt, get?_of_lt _ j.isLt] at cell
    exact Option.some.inj cell
  change { c with regs := (c.withField a mask value).regs } = c
  rw [regs]

/-- The field is written, whether or not the register had to be. -/
theorem SPIsetRegValue_does (settled : c.Settled) (reg : UInt32) {msb lsb : UInt8}
    (top : msb.toNat ≤ 7) (bottom : lsb.toNat ≤ msb.toNat) (checkInterval checkMask : UInt8)
    (checks : checkInterval ≠ 0) (force : Bool) (inside : reg.toNat % 65536 < 0x1000) :
    Does (κ := κ) (SPIsetRegValue reg value msb lsb checkInterval checkMask force) c
      (c.withField (reg.toNat % 65536) (writeMask msb lsb) value) RADIOLIB_ERR_NONE := by
  have range : ¬(msb > 7 ∨ lsb > 7 ∨ lsb > msb) := by
    simp only [gt_iff_lt, UInt8.lt_iff_toNat_lt, UInt8.reduceToNat]
    omega
  simp only [SPIsetRegValue, if_neg range]
  refine (SPIreadRegister_does settled reg).bind ?_
  split
  next unchanged =>
    rw [withField_of_same _ _ inside unchanged.1]
    exact .done _ _
  next =>
    have written := get?_withField (c := c) (writeMask msb lsb) value inside
    refine (SPIwriteRegister_does settled reg _).bind ?_
    exact checkRegValue_does (c := c.withField _ _ _) settled reg _ _ _ checks
      (congrArg (Option.getD · 0) written)

end Write

/-- A field that is set reads back as set, on the hardware and whatever time passes: its
bits come from the value, and every other bit of the registers stays. -/
theorem field_written (h : SimHal κ stuckIrqMs) (quiet : h.chip.Settled) (reg : UInt32)
    (value msb lsb checkInterval checkMask : UInt8) (force : Bool) (top : msb.toNat ≤ 7)
    (bottom : lsb.toNat ≤ msb.toNat) (checks : checkInterval ≠ 0)
    (inside : reg.toNat % 65536 < 0x1000) :
    ∃ h', Program.run SimHal.answer (do
        let state ← SPIsetRegValue reg value msb lsb checkInterval checkMask force
        let field ← SPIgetRegValue reg msb lsb
        return (state,field)) h =
      some (h',RADIOLIB_ERR_NONE,Int16.ofNat (value &&& readMask msb lsb).toNat) ∧
      (∀ i, (h'.chip.regs ⟨_,inside⟩).toBitVec.getLsbD i =
        if lsb.toNat ≤ i ∧ i ≤ msb.toNat then value.toBitVec.getLsbD i
        else (h.chip.regs ⟨_,inside⟩).toBitVec.getLsbD i) ∧
      (∀ b, b.val ≠ reg.toNat % 65536 → h'.chip.regs b = h.chip.regs b) ∧
      h'.chip.still = { h.chip with regs := h'.chip.regs }.still ∧
      h'.radio.toEngine = h.radio.toEngine := by
  let d := h.chip.withField (reg.toNat % 65536) (writeMask msb lsb) value
  have field : (⟨replace (writeMask msb lsb).toBitVec
      ((h.chip.regs.get? (reg.toNat % 65536)).getD 0).toBitVec value.toBitVec⟩ : UInt8) &&&
        readMask msb lsb = value &&& readMask msb lsb := by
    rw [masks_agree top (by omega)]
    exact UInt8.toBitVec_inj.mp replace_field
  have read := SPIgetRegValue_does (κ := κ) (c := d) quiet reg msb lsb top bottom
  rw [get?_withField _ value inside, Option.getD_some, field] at read
  have does : Does (κ := κ) (do
      let state ← SPIsetRegValue reg value msb lsb checkInterval checkMask force
      let field ← SPIgetRegValue reg msb lsb
      return (state,field)) h.chip d
      (RADIOLIB_ERR_NONE,Int16.ofNat (value &&& readMask msb lsb).toNat) := by
    refine (SPIsetRegValue_does value quiet reg top bottom checkInterval checkMask checks force
      inside).bind ?_
    refine read.bind ?_
    exact .done _ _
  obtain ⟨h',ran,still,_,sent⟩ := does.real rfl
  have regs : h'.chip.regs = d.regs := Chip.timeless_eq still Chip.regs fun _ => rfl
  refine ⟨h',ran,fun i => ?_,fun b other => ?_,?_,sent⟩
  · have cell := get?_withField (c := h.chip) (writeMask msb lsb) value inside
    rw [get?_of_lt _ inside, get?_of_lt _ inside] at cell
    rw [regs, Option.some.inj cell, Option.getD_some]
    by_cases within : i < 8
    · rw [getLsbD_replace within]
      exact if_congr (mask_bit top (by omega) i).2 rfl rfl
    · simp [BitVec.getLsbD_of_ge _ _ (Nat.le_of_not_lt within)]
  · have cell := get?_withField_ne (c := h.chip) (writeMask msb lsb) value other
    rw [get?_of_lt _ b.isLt, get?_of_lt _ b.isLt] at cell
    rw [regs]
    exact Option.some.inj cell
  · rw [still, regs]
    rfl

/-- The gain register, three bits of it. -/
theorem field_written_gain : ∃ h' : SimHal Unit 0, Program.run SimHal.answer (do
      let state ← SPIsetRegValue 0x08AC 0xB6 5 3 2 0xFF false
      let field ← SPIgetRegValue 0x08AC 5 3
      return (state,field)) { radio := .init 0 } =
    some (h',RADIOLIB_ERR_NONE,Int16.ofNat 0x30) := by
  obtain ⟨h',ran,_⟩ := field_written ({ radio := .init 0 } : SimHal Unit 0)
    (Chip.settled_standby rfl) 0x08AC 0xB6 5 3 2 0xFF false (by decide) (by decide) (by decide)
    (by decide)
  exact ⟨h',ran⟩

end Meshcore
