import Meshcore.Library.Checked
import Meshcore.Library.Framing
import Meshcore.Library.Runs

/-! The telemetry buffer. A record goes in whole or not at all, so that what the buffer
holds is always a row of records, and a reader that goes by their types gets them back. -/
namespace Meshcore

open Checked Framing Runs

def lppTemperature : UInt8 := 103
def lppRelativeHumidity : UInt8 := 104
def lppBarometricPressure : UInt8 := 115
def lppVoltage : UInt8 := 116

/-- The buffer is allocated with the capacity and holds whatever was there. -/
structure CayenneLPP (cap_ : UInt8) where
  buf_ : Block cap_.toNat UInt8
  len_ : UInt8

namespace CayenneLPP

variable {cap_ : UInt8}

def new (buf_ : Block cap_.toNat UInt8) : CayenneLPP cap_ := ⟨buf_,0⟩

def reset (lpp : CayenneLPP cap_) : CayenneLPP cap_ := { lpp with len_ := 0 }

def getSize (lpp : CayenneLPP cap_) : UInt8 := lpp.len_

/-- `buf_[len_++] = byte;` -/
def put (lpp : CayenneLPP cap_) (byte : UInt8) : Option (CayenneLPP cap_) := do
  let buf_ ← lpp.buf_.set? lpp.len_.toNat byte
  some ⟨buf_,lpp.len_ + 1⟩

/-- The buffer after the call and what the call returns; the sum is one of `int`s. -/
def add2 (lpp : CayenneLPP cap_) (channel type : UInt8) (value : Int16) :
    Option (CayenneLPP cap_ × UInt8) :=
  if lpp.len_.toNat + 4 > cap_.toNat then some (lpp,0)
  else do
    let lpp ← lpp.put channel
    let lpp ← lpp.put type
    let lpp ← lpp.put (value >>> 8).toInt8.toUInt8
    let lpp ← lpp.put (value &&& 0xFF).toInt8.toUInt8
    some (lpp,lpp.len_)

def addVoltage (lpp : CayenneLPP cap_) (channel : UInt8) (v : Int16) := lpp.add2 channel lppVoltage v

def addTemperature (lpp : CayenneLPP cap_) (channel : UInt8) (c : Int16) :=
  lpp.add2 channel lppTemperature c

def addBarometricPressure (lpp : CayenneLPP cap_) (channel : UInt8) (hpa : Int16) :=
  lpp.add2 channel lppBarometricPressure hpa

def addRelativeHumidity (lpp : CayenneLPP cap_) (channel : UInt8) (pct : UInt8) :
    Option (CayenneLPP cap_ × UInt8) :=
  if lpp.len_.toNat + 3 > cap_.toNat then some (lpp,0)
  else do
    let lpp ← lpp.put channel
    let lpp ← lpp.put lppRelativeHumidity
    let lpp ← lpp.put pct
    some (lpp,lpp.len_)

end CayenneLPP

/-- A reading, as the integer it is converted to. -/
inductive LppValue where
  | voltage (v : Int16)
  | temperature (c : Int16)
  | relativeHumidity (pct : UInt8)
  | barometricPressure (hpa : Int16)
  deriving DecidableEq

structure LppRecord where
  channel : UInt8
  value : LppValue
  deriving DecidableEq

/-- A value of two bytes, the high one first, negative ones in two's complement. -/
def bigEndian (value : Int16) : List UInt8 :=
  [UInt8.ofNat (value.toUInt16.toNat / 256),UInt8.ofNat (value.toUInt16.toNat % 256)]

/-- A record on the wire. -/
def LppRecord.bytes (r : LppRecord) : List UInt8 := r.channel :: match r.value with
  | .voltage v => lppVoltage :: bigEndian v
  | .temperature c => lppTemperature :: bigEndian c
  | .relativeHumidity pct => [lppRelativeHumidity,pct]
  | .barometricPressure hpa => lppBarometricPressure :: bigEndian hpa

/-- The two bytes at the front, with their sign. -/
def readInt16 : List UInt8 → Option (Int16 × List UInt8)
  | high :: low :: rest => some (Int16.ofInt (high.toNat * 256 + low.toNat),rest)
  | _ => none

/-- A receiver that goes by the type byte. -/
def LppRecord.read : List UInt8 → Option (LppRecord × List UInt8)
  | channel :: type :: rest =>
    if type = lppVoltage then (readInt16 rest).map fun r => (⟨channel,.voltage r.1⟩,r.2)
    else if type = lppTemperature then (readInt16 rest).map fun r => (⟨channel,.temperature r.1⟩,r.2)
    else if type = lppBarometricPressure then
      (readInt16 rest).map fun r => (⟨channel,.barometricPressure r.1⟩,r.2)
    else if type = lppRelativeHumidity then
      rest.head?.map fun pct => (⟨channel,.relativeHumidity pct⟩,rest.tail)
    else none
  | _ => none

theorem high_byte (value : Int16) :
    (value >>> 8).toInt8.toUInt8 = UInt8.ofNat (value.toUInt16.toNat / 256) := by
  apply UInt8.toBitVec_inj.mp
  change (value.toBitVec.sshiftRight 8).signExtend 8 = BitVec.ofNat 8 (value.toBitVec.toNat / 2 ^ 8)
  apply BitVec.eq_of_getLsbD_eq
  intro i inside
  have low : 8 + i < 16 := by omega
  have narrow : i < 16 := by omega
  rw [BitVec.getLsbD_signExtend, BitVec.getLsbD_sshiftRight, BitVec.getLsbD_ofNat,
    Nat.testBit_div_two_pow, Nat.add_comm i, BitVec.testBit_toNat]
  simp only [inside, low, narrow, Nat.not_le.mpr narrow, decide_true, decide_false, Bool.not_false,
    Bool.true_and, if_true]

theorem low_byte (value : Int16) :
    (value &&& 0xFF).toInt8.toUInt8 = UInt8.ofNat (value.toUInt16.toNat % 256) := by
  apply UInt8.toBitVec_inj.mp
  change (value.toBitVec &&& 255#16).signExtend 8 = BitVec.ofNat 8 (value.toBitVec.toNat % 2 ^ 8)
  apply BitVec.eq_of_toNat_eq
  rw [BitVec.signExtend_eq_setWidth_of_le _ (by decide), BitVec.toNat_setWidth, BitVec.toNat_and,
    BitVec.toNat_ofNat, BitVec.toNat_ofNat]
  exact congrArg (· % 2 ^ 8) (Nat.and_two_pow_sub_one_eq_mod _ 8)

theorem readInt16_bigEndian (value : Int16) (rest : List UInt8) :
    readInt16 (bigEndian value ++ rest) = some (value,rest) := by
  have word : value.toUInt16.toNat < 65536 := value.toUInt16.toNat_lt
  have signed : Int16.ofInt value.toUInt16.toNat = value := by
    apply Int16.toBitVec_inj.mp
    change BitVec.ofInt 16 value.toBitVec.toNat = value.toBitVec
    simp
  have joined : ((value.toUInt16.toNat / 256 % 256 : Nat) * 256 +
      (value.toUInt16.toNat % 256 % 256 : Nat) : Int) = value.toUInt16.toNat := by omega
  change some (Int16.ofInt ((value.toUInt16.toNat / 256 % 256 : Nat) * 256 +
    (value.toUInt16.toNat % 256 % 256 : Nat)),rest) = _
  rw [joined, signed]

/-- Every record is read back, whatever comes after it. -/
theorem LppRecord.readsBack (r : LppRecord) : ReadsBack LppRecord.read LppRecord.bytes r := by
  intro rest
  rcases r with ⟨channel,v | c | pct | hpa⟩
  · simp [bytes, read, readInt16_bigEndian]
  · simp [bytes, read, readInt16_bigEndian, lppTemperature, lppVoltage]
  · simp [bytes, read, lppTemperature, lppVoltage, lppBarometricPressure, lppRelativeHumidity]
  · simp [bytes, read, readInt16_bigEndian, lppTemperature, lppVoltage, lppBarometricPressure]

theorem LppRecord.bytes_ne_nil (r : LppRecord) : r.bytes ≠ [] := by simp [bytes]

namespace CayenneLPP

variable {cap_ : UInt8}

def add (lpp : CayenneLPP cap_) (r : LppRecord) : Option (CayenneLPP cap_ × UInt8) :=
  match r.value with
  | .voltage v => lpp.addVoltage r.channel v
  | .temperature c => lpp.addTemperature r.channel c
  | .relativeHumidity pct => lpp.addRelativeHumidity r.channel pct
  | .barometricPressure hpa => lpp.addBarometricPressure r.channel hpa

/-- The buffer with bytes laid behind what it holds. -/
def behind (lpp : CayenneLPP cap_) (bytes : List UInt8) : CayenneLPP cap_ :=
  ⟨lpp.buf_.overlay lpp.len_.toNat bytes,lpp.len_ + UInt8.ofNat bytes.length⟩

theorem behind_nil (lpp : CayenneLPP cap_) : lpp.behind [] = lpp := by
  simp [behind]

theorem behind_len (lpp : CayenneLPP cap_) (bytes : List UInt8)
    (room : lpp.len_.toNat + bytes.length ≤ cap_.toNat) :
    (lpp.behind bytes).len_.toNat = lpp.len_.toNat + bytes.length := by
  have := cap_.toNat_lt
  simp only [behind, UInt8.toNat_add, UInt8.toNat_ofNat']
  omega

theorem put_behind (lpp : CayenneLPP cap_) (byte : UInt8)
    (room : lpp.len_.toNat + (bytes.length + 1) ≤ cap_.toNat) :
    (lpp.behind bytes).put byte = some (lpp.behind (bytes ++ [byte])) := by
  have here := lpp.behind_len bytes (by omega)
  have free : lpp.len_.toNat + bytes.length < cap_.toNat := by omega
  rw [put, here, set?_of_lt _ _ free]
  simp only [behind, overlay_concat _ _ _ free, Option.bind_eq_bind, Option.bind_some,
    List.length_append, List.length_singleton, UInt8.ofNat_add, UInt8.add_assoc]
  rfl

theorem puts_behind (lpp : CayenneLPP cap_) (before bytes : List UInt8)
    (room : lpp.len_.toNat + (before.length + bytes.length) ≤ cap_.toNat) :
    bytes.foldlM put (lpp.behind before) = some (lpp.behind (before ++ bytes)) := by
  induction bytes generalizing before with
  | nil => simp
  | cons byte bytes ih =>
    rw [List.length_cons] at room
    rw [List.foldlM_cons, put_behind lpp byte (by omega)]
    simpa using ih (before ++ [byte]) (by simp; omega)

theorem puts_eq (lpp : CayenneLPP cap_) (bytes : List UInt8)
    (room : lpp.len_.toNat + bytes.length ≤ cap_.toNat) :
    bytes.foldlM put lpp = some (lpp.behind bytes) := by
  simpa [behind_nil] using lpp.puts_behind [] bytes (by simpa using room)

/-- Bytes that go in behind a guard for the room they take. -/
theorem guarded_eq (lpp : CayenneLPP cap_) (bytes : List UInt8) :
    (if lpp.len_.toNat + bytes.length > cap_.toNat then some (lpp,0)
      else (bytes.foldlM put lpp).bind fun lpp => some (lpp,lpp.len_)) =
    some (if lpp.len_.toNat + bytes.length ≤ cap_.toNat
      then (lpp.behind bytes,(lpp.behind bytes).len_) else (lpp,0)) := by
  by_cases room : lpp.len_.toNat + bytes.length ≤ cap_.toNat
  · rw [if_neg (Nat.not_lt.mpr room), if_pos room, puts_eq lpp bytes room]
    rfl
  · rw [if_pos (Nat.not_le.mp room), if_neg room]

theorem add2_eq (lpp : CayenneLPP cap_) (channel type : UInt8) (value : Int16) :
    lpp.add2 channel type value = some
      (if lpp.len_.toNat + 4 ≤ cap_.toNat then (lpp.behind (channel :: type :: bigEndian value),
        (lpp.behind (channel :: type :: bigEndian value)).len_) else (lpp,0)) := by
  rw [bigEndian, ← high_byte, ← low_byte]
  simpa [add2, Option.bind_assoc] using lpp.guarded_eq
    [channel,type,(value >>> 8).toInt8.toUInt8,(value &&& 0xFF).toInt8.toUInt8]

/-- A record goes in whole when it fits, and not at all when it does not. -/
theorem add_eq (lpp : CayenneLPP cap_) (r : LppRecord) : lpp.add r = some
    (if lpp.len_.toNat + r.bytes.length ≤ cap_.toNat
      then (lpp.behind r.bytes,(lpp.behind r.bytes).len_) else (lpp,0)) := by
  rcases r with ⟨channel,v | c | pct | hpa⟩
  · exact lpp.add2_eq channel lppVoltage v
  · exact lpp.add2_eq channel lppTemperature c
  · simpa [add, addRelativeHumidity, LppRecord.bytes, Option.bind_assoc] using
      lpp.guarded_eq [channel,lppRelativeHumidity,pct]
  · exact lpp.add2_eq channel lppBarometricPressure hpa

end CayenneLPP

/-- What the firmware does with the buffer. -/
inductive LppCall where
  | reset
  | add (r : LppRecord)
  deriving DecidableEq

/-- A call, with a record of those accepted since the last reset: a call that returns
zero was rejected. -/
def LppCall.on {cap_ : UInt8} (s : CayenneLPP cap_ × List LppRecord) :
    LppCall → Option (CayenneLPP cap_ × List LppRecord)
  | .reset => some (s.1.reset,[])
  | .add r => do
    let (lpp,returned) ← s.1.add r
    some (lpp,if returned = 0 then s.2 else s.2 ++ [r])

/-- The buffer holds the records, and nothing else. -/
structure CayenneLPP.Holds {cap_ : UInt8} (lpp : CayenneLPP cap_) (records : List LppRecord) : Prop where
  contents : lpp.buf_.slice? 0 lpp.len_.toNat = some (records.flatMap LppRecord.bytes)
  length : lpp.len_.toNat = (records.flatMap LppRecord.bytes).length
  room : lpp.len_.toNat ≤ cap_.toNat

namespace CayenneLPP

variable {cap_ : UInt8} {lpp : CayenneLPP cap_}

theorem holds_empty (lpp : CayenneLPP cap_) (empty : lpp.len_ = 0) : lpp.Holds [] := by
  constructor <;> simp [empty, Block.slice?]

theorem Holds.behind (holds : lpp.Holds records) (r : LppRecord)
    (room : lpp.len_.toNat + r.bytes.length ≤ cap_.toNat) :
    (lpp.behind r.bytes).Holds (records ++ [r]) := by
  have len := lpp.behind_len r.bytes room
  refine ⟨?_,?_,?_⟩
  · rw [len]
    simpa [CayenneLPP.behind] using slice?_overlay_behind holds.contents room
  · simp [len, holds.length]
  · omega

/-- What a call returns is zero exactly when the record does not fit. -/
theorem returned_eq_zero_iff (lpp : CayenneLPP cap_) (r : LppRecord) :
    (if lpp.len_.toNat + r.bytes.length ≤ cap_.toNat then (lpp.behind r.bytes).len_ else 0) = 0 ↔
      cap_.toNat < lpp.len_.toNat + r.bytes.length := by
  by_cases room : lpp.len_.toNat + r.bytes.length ≤ cap_.toNat
  · have len := lpp.behind_len r.bytes room
    have positive := List.length_pos_iff.mpr r.bytes_ne_nil
    have zero : (0 : UInt8).toNat = 0 := rfl
    rw [if_pos room, ← UInt8.toNat_inj, len, zero]
    omega
  · simp [room]
    omega

/-- Every call succeeds, and leaves the buffer with the records accepted. -/
theorem Holds.on (holds : lpp.Holds records) (c : LppCall) :
    ∃ next, c.on (lpp,records) = some next ∧ next.1.Holds next.2 := by
  cases c with
  | reset => exact ⟨_,rfl,lpp.reset.holds_empty rfl⟩
  | add r =>
    have rejects := lpp.returned_eq_zero_iff r
    by_cases room : lpp.len_.toNat + r.bytes.length ≤ cap_.toNat
    · rw [if_pos room] at rejects
      refine ⟨(lpp.behind r.bytes,records ++ [r]),?_,holds.behind r room⟩
      have accepted : (lpp.behind r.bytes).len_ ≠ 0 := fun zero => by
        have := rejects.mp zero
        omega
      simp [LppCall.on, add_eq, room, accepted]
    · refine ⟨(lpp,records),?_,holds⟩
      simp [LppCall.on, add_eq, room]

theorem run_holds (calls : List LppCall) (holds : lpp.Holds records) :
    ∃ final, run LppCall.on (lpp,records) calls = some final ∧ final.1.Holds final.2 := by
  induction calls generalizing lpp records with
  | nil => exact ⟨_,rfl,holds⟩
  | cons c calls ih =>
    obtain ⟨⟨next,accepted⟩,taken,kept⟩ := holds.on c
    obtain ⟨final,ran,last⟩ := ih kept
    exact ⟨final,run_cons_eq_some.mpr ⟨_,taken,ran⟩,last⟩

/-- A receiver finds the records in the buffer. -/
theorem Holds.parses (holds : lpp.Holds records) :
    parseAll LppRecord.read lpp.len_.toNat (records.flatMap LppRecord.bytes) = some records := by
  have decided (r : LppRecord) : ReadsBack LppRecord.read LppRecord.bytes r ∨
      Misread LppRecord.read LppRecord.bytes r := .inl r.readsBack
  exact (parseAll_flatMap_iff LppRecord.bytes_ne_nil decided records _ (Nat.le_of_eq holds.length.symm)).mpr
    fun r _ => r.readsBack

end CayenneLPP

/-- Whatever the calls, the buffer holds the records accepted since the last reset, whole and
in order, and they are read back from it. The next record is rejected exactly when it does
not fit, and then nothing changes. -/
theorem telemetry_whole {cap_ : UInt8} (buf_ : Block cap_.toNat UInt8) (calls : List LppCall) :
    ∃ lpp records, run LppCall.on (CayenneLPP.new buf_,[]) calls = some (lpp,records) ∧
      lpp.buf_.slice? 0 lpp.getSize.toNat = some (records.flatMap LppRecord.bytes) ∧
      lpp.getSize.toNat = (records.flatMap LppRecord.bytes).length ∧
      lpp.getSize.toNat ≤ cap_.toNat ∧
      parseAll LppRecord.read lpp.getSize.toNat (records.flatMap LppRecord.bytes) = some records ∧
      ∀ r, ∃ next returned, lpp.add r = some (next,returned) ∧
        (returned = 0 ↔ cap_.toNat < lpp.getSize.toNat + r.bytes.length) ∧
        (returned = 0 → next = lpp) ∧
        (returned ≠ 0 → returned = next.getSize ∧
          next.getSize.toNat = lpp.getSize.toNat + r.bytes.length) := by
  obtain ⟨⟨lpp,records⟩,ran,holds⟩ := CayenneLPP.run_holds calls ((CayenneLPP.new buf_).holds_empty rfl)
  refine ⟨lpp,records,ran,holds.contents,holds.length,holds.room,holds.parses,fun r => ?_⟩
  have rejects := lpp.returned_eq_zero_iff r
  have added := lpp.add_eq r
  by_cases room : lpp.len_.toNat + r.bytes.length ≤ cap_.toNat
  · rw [if_pos room] at added rejects
    refine ⟨_,_,added,rejects,fun zero => ?_,fun _ => ⟨rfl,lpp.behind_len r.bytes room⟩⟩
    exact absurd (rejects.mp zero) (Nat.not_lt.mpr room)
  · rw [if_neg room] at added rejects
    exact ⟨_,_,added,rejects,fun _ => rfl,fun nonzero => absurd rfl nonzero⟩

end Meshcore
