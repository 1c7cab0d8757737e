import Meshcore.Sending

/-! A reception through the driver. A frame lies in the chip until a tick delivers the
next one, and a dozen ticks pass while it is read. -/
namespace Meshcore

open Checked Flags Programs Program Runs

variable {κ : Type} {stuckIrqMs : UInt32} {c d e : Chip} {g : List UInt8} {q : List (List UInt8)}

namespace Chip

/-- The receiver is on and holds `g`; the frames of `q` are queued behind it. -/
structure Hears (c : Chip) (g : List UInt8) (q : List (List UInt8)) : Prop where
  mode : c.mode = .rx
  base : c.rxBase = 0
  inbox : c.inbox = q
  length : c.rxLen.toNat = min g.length 255
  bytes : c.buffer.slice? 0 (min g.length 255) = some (g.take 255)

/-- The frame it holds after `n` ticks. -/
def holds (n : Nat) (g : List UInt8) (q : List (List UInt8)) : List UInt8 := (q.take n).getLastD g

theorem holds_add (n m : Nat) (g : List UInt8) (q : List (List UInt8)) :
    holds m (holds n g q) (q.drop n) = holds (n + m) g q := by
  have split : q.take (n + m) = q.take n ++ (q.drop n).take m := List.take_add
  rw [holds, holds, holds, split]
  cases late : (q.drop n).take m with
  | nil => simp
  | cons f fs => simp [List.getLastD_eq_getLast?]

theorem received_hears (base : c.rxBase = 0) (listens : c.mode = .rx) (f : List UInt8)
    (rest : List (List UInt8)) :
    (c.received f rest (c.buffer.overlay 0 (f.take (min f.length 255)))).Hears f rest := by
  have short : f.take (min f.length 255) = f.take 255 := by
    rw [List.take_eq_take_iff]
    omega
  have length : (f.take 255).length = min f.length 255 := by
    rw [List.length_take]
    omega
  refine ⟨listens,base,rfl,rxLen_toNat f.length,?_⟩
  rw [received, short, ← length]
  exact slice?_overlay c.buffer 0 (f.take 255) (by omega)

theorem Hears.arrive (hears : c.Hears g q) :
    ∃ d, c.arrive = some d ∧ d.Hears (holds 1 g q) (q.drop 1) := by
  rw [Chip.arrive, if_pos hears.mode]
  cases q with
  | nil => exact ⟨c,deliverPending_nil hears.inbox,hears⟩
  | cons f rest =>
    have room : c.rxBase.toNat + min f.length 255 ≤ 256 := by
      rw [hears.base]
      change 0 + _ ≤ 256
      omega
    rw [deliverPending_cons hears.inbox, memcpy?_of_le _ _ room (by omega)]
    refine ⟨_,rfl,?_⟩
    rw [hears.base]
    exact received_hears hears.base hears.mode f rest

theorem Hears.countIrqRead (hears : c.Hears g q) : c.countIrqRead.Hears g q := { hears with }

/-- A command that only asks. -/
def Asks (out : List UInt8) : Prop := ∀ c : Chip, c.act out = some c ∨ c.act out = some c.countIrqRead

/-- Asking takes two ticks, and the answer is from between them. -/
theorem Hears.asked (hears : c.Hears g q) (op : UInt8) (rest data : List UInt8)
    (sent : op :: rest ++ List.replicate (data.length + 1) 0x00 = out)
    (fits : out.length ≤ RADIOLIB_STATIC_ARRAY_SIZE) (curt : Curt out) (asks : Asks out) :
    ∃ d e : Chip, d.Hears (holds 1 g q) (q.drop 1) ∧
      Does (κ := κ) (SPItransferStream (op :: rest) false data true) c e (RADIOLIB_ERR_NONE,
        tabulate data.length fun i => d.dataByte out (rest.length + 2 + i)) ∧
      e.Hears (holds 2 g q) (q.drop 2) := by
  obtain ⟨d,before,first⟩ := hears.arrive
  obtain ⟨m,acted,still⟩ : ∃ m, d.act out = some m ∧ m.Hears (holds 1 g q) (q.drop 1) := by
    rcases asks d with none | counted
    · exact ⟨d,none,first⟩
    · exact ⟨_,counted,first.countIrqRead⟩
  obtain ⟨e,after,second⟩ := still.arrive
  rw [holds_add, List.drop_drop] at second
  exact ⟨d,e,first,readStream_arrives op rest data sent fits curt before acted after,second⟩

/-- Any other command leaves the frame alone, if it touches neither slot nor receiver. -/
theorem Hears.told (hears : c.Hears g q) (op : UInt8) (rest data : List UInt8)
    (fits : (op :: rest ++ data).length ≤ RADIOLIB_STATIC_ARRAY_SIZE)
    (curt : Curt (op :: rest ++ data))
    (acts : ∀ {d : Chip}, d.Hears (holds 1 g q) (q.drop 1) →
      ∃ m, d.act (op :: rest ++ data) = some m ∧ m.Hears (holds 1 g q) (q.drop 1)) :
    ∃ e, Does (κ := κ) (SPIwriteStream (op :: rest) data true) c e RADIOLIB_ERR_NONE ∧
      e.Hears (holds 2 g q) (q.drop 2) := by
  obtain ⟨d,before,first⟩ := hears.arrive
  obtain ⟨m,acted,still⟩ := acts first
  obtain ⟨e,after,second⟩ := still.arrive
  rw [holds_add, List.drop_drop] at second
  exact ⟨e,(SPItransferStream_does _ true data true (by simp) rfl fits curt before acted after).map
    _,second⟩

end Chip

namespace SX126x

variable (s : SX126x) (hears : c.Hears g q)
include hears

theorem checkStream_hears : ∃ e, Does (κ := κ) SPIcheckStream c e RADIOLIB_ERR_NONE ∧
    e.Hears (Chip.holds 2 g q) (q.drop 2) := by
  obtain ⟨_,e,_,does,after⟩ := hears.asked (κ := κ) Opcode.getStatus.byte [] [0] rfl
    (by simp) (by simp [Chip.Curt,arg]) fun c => .inl (by simp [Chip.act,arg])
  exact ⟨e,does.map Prod.fst,after⟩

theorem getIrqFlags_hears : ∃ hi e, Does (κ := κ) getIrqFlags c e (be16 hi 0) ∧
    e.Hears (Chip.holds 2 g q) (q.drop 2) := by
  obtain ⟨d,e,_,does,after⟩ := hears.asked (κ := κ) Opcode.getIrqStatus.byte [] [0,0] rfl
    (by simp) (by simp [Chip.Curt,arg]) fun c => .inr (by simp [Chip.act,arg])
  exact ⟨hiByte d.irq,e,does.bind (.done _ _),after⟩

theorem getPacketType_hears : ∃ e,
    Does (κ := κ) getPacketType c e RADIOLIB_SX126X_PACKET_TYPE_LORA ∧
      e.Hears (Chip.holds 2 g q) (q.drop 2) := by
  obtain ⟨_,e,_,does,after⟩ := hears.asked (κ := κ) Opcode.getPacketType.byte [] [0xFF] rfl
    (by simp) (by simp [Chip.Curt,arg]) fun c => .inl (by simp [Chip.act,arg])
  exact ⟨e,does.bind (.done _ _),after⟩

/-- The length is that of the frame held in the third tick. -/
theorem getPacketLength_hears : ∃ (len : UInt8) (e : Chip),
    Does (κ := κ) (s.getPacketLength true) c e (len.toUInt64,0) ∧
      len.toNat = min (Chip.holds 3 g q).length 255 ∧ e.Hears (Chip.holds 4 g q) (q.drop 4) := by
  obtain ⟨m,typed,between⟩ := getPacketType_hears (κ := κ) hears
  obtain ⟨d,e,held,does,after⟩ := between.asked (κ := κ) Opcode.getRxBufferStatus.byte [] [0,0] rfl
    (by simp) (by simp [Chip.Curt,arg]) fun c => .inl (by simp [Chip.act,arg])
  rw [Chip.holds_add, List.drop_drop] at held after
  refine ⟨d.rxLen,e,?_,held.length,after⟩
  rw [getPacketLength]
  refine typed.bind ?_
  simp only [Bool.true_eq_false, and_false, ite_false]
  exact does.bind (.done _ _)

/-- The bytes are those of the buffer in the first. -/
theorem readBuffer_hears (numBytes : UInt8) (fits : numBytes.toNat ≤ 253) : ∃ d e : Chip,
    Does (κ := κ) (readBuffer numBytes 0) c e
      (RADIOLIB_ERR_NONE,tabulate numBytes.toNat fun i => (d.buffer.get? i).getD 0) ∧
      d.Hears (Chip.holds 1 g q) (q.drop 1) ∧ e.Hears (Chip.holds 2 g q) (q.drop 2) := by
  obtain ⟨d,e,held,does,after⟩ := hears.asked (κ := κ) Opcode.readBuffer.byte [0]
    (List.replicate numBytes.toNat 0) rfl (by simp; omega) (by simp [Chip.Curt,arg]) fun c =>
      .inl (by simp [Chip.act,arg])
  refine ⟨d,e,?_,held,after⟩
  have bytes : (tabulate (List.replicate numBytes.toNat (0 : UInt8)).length fun i =>
      d.dataByte (Opcode.readBuffer.byte :: [0] ++
        List.replicate ((List.replicate numBytes.toNat (0 : UInt8)).length + 1) 0x00) (1 + 2 + i)) =
      tabulate numBytes.toNat fun i => (d.buffer.get? i).getD 0 := by
    rw [List.length_replicate]
    refine tabulate_congr fun i _ => ?_
    simp [Chip.dataByte,arg,show 3 ≤ 1 + 2 + i by omega]
  rw [← bytes]
  exact does

theorem clearIrqStatus_hears : ∃ e, Does (κ := κ) clearIrqStatus c e RADIOLIB_ERR_NONE ∧
    e.Hears (Chip.holds 2 g q) (q.drop 2) :=
  hears.told _ [] _ (by simp) (by simp [Chip.Curt,arg]) fun held =>
    ⟨_,Chip.act_clearIrqStatus _,{ held with }⟩

omit hears in
/-- A word whose low byte is withheld has none of its flags. -/
theorem any_high (hi : UInt8) {mask : BitVec 16} (low : mask >>> 8 = 0) :
    any (be16 hi 0) mask = false := by
  rw [any_eq_false]
  refine BitVec.eq_of_getLsbD_eq fun i inside => ?_
  rw [BitVec.getLsbD_and, BitVec.getLsbD_zero]
  rcases Nat.lt_or_ge i 8 with below | above
  · have none : (be16 hi 0).getLsbD i = false := by simp [be16,below]
    rw [none, Bool.false_and]
  · have bit := congrArg (·.getLsbD (i - 8)) low
    simp only [BitVec.getLsbD_ushiftRight, Nat.add_sub_cancel' above] at bit
    rw [bit]
    simp

omit hears in
theorem readBytes (held : d.Hears g q) (n : Nat) (inside : i < min n (min g.length 255)) :
    (tabulate n fun i => (d.buffer.get? i).getD 0)[i]? = g[i]? := by
  have cell : d.buffer.get? i = (g.take 255)[i]? := by
    rw [← get?_of_slice? held.bytes (by omega), Nat.zero_add]
  have there : i < g.length := by omega
  rw [tabulate, List.getElem?_map, List.getElem?_range (by omega), Option.map_some, cell,
    List.getElem?_take_of_lt (by omega), List.getElem?_eq_getElem there, Option.getD_some]

/-- What is read has the length of the frame that the chip held in the seventh tick and the
bytes of the one that it held in the ninth. -/
theorem readData_hears (short : (Chip.holds 7 g q).length ≤ 253) :
    ∃ r e, Does (κ := κ) (s.readData 0) c e (RADIOLIB_ERR_NONE,r) ∧
      r.length = (Chip.holds 7 g q).length ∧
      (∀ i < min r.length (Chip.holds 9 g q).length, r[i]? = (Chip.holds 9 g q)[i]?) ∧
      e.Hears (Chip.holds 12 g q) (q.drop 12) := by
  obtain ⟨c₂,checked,hears⟩ := checkStream_hears (κ := κ) hears
  obtain ⟨hi,c₄,flags,hears⟩ := getIrqFlags_hears (κ := κ) hears
  rw [Chip.holds_add, List.drop_drop] at hears
  obtain ⟨len,c₈,sized,length,hears⟩ := s.getPacketLength_hears (κ := κ) hears
  rw [Chip.holds_add, List.drop_drop] at hears
  rw [Chip.holds_add] at length
  have size : len.toNat = (Chip.holds 7 g q).length :=
    length.trans (Nat.min_eq_left (Nat.le_trans short (by decide)))
  obtain ⟨d,c₁₀,read,held,hears⟩ := readBuffer_hears (κ := κ) hears len (by omega)
  rw [Chip.holds_add, List.drop_drop] at hears held
  obtain ⟨e,cleared,hears⟩ := clearIrqStatus_hears (κ := κ) hears
  rw [Chip.holds_add, List.drop_drop] at hears
  have bytes : ∀ i < min len.toNat (Chip.holds 9 g q).length,
      (tabulate len.toNat fun i => (d.buffer.get? i).getD 0)[i]? = (Chip.holds 9 g q)[i]? :=
    fun i inside => readBytes (g := Chip.holds 9 g q) held _ (by omega)
  refine ⟨tabulate len.toNat fun i => (d.buffer.get? i).getD 0,e,?_,by rw [tabulate_length, size],
    by rwa [tabulate_length],hears⟩
  have crc := @any_high hi RADIOLIB_SX126X_IRQ_CRC_ERR (by decide)
  have header := @any_high hi RADIOLIB_SX126X_IRQ_HEADER_ERR (by decide)
  have status : RADIOLIB_ERR_NONE ≠ RADIOLIB_ERR_SPI_CMD_TIMEOUT := by decide
  rw [readData]
  refine checked.bind (flags.bind ?_)
  simp only [status, false_and, ite_false, crc, header, Bool.false_eq_true, or_false]
  refine Does.asserted (.done _ _) (sized.bind ?_)
  refine Does.bind (by simpa using read) ?_
  refine Does.asserted (.done _ _) (cleared.bind ?_)
  exact .done _ _

omit hears in
/-- With nothing behind it the frame is read as it is. -/
theorem readData_does (hears : c.Hears g []) (short : g.length ≤ 253) :
    Does (κ := κ) (s.readData 0) c c.countIrqRead.cleared (RADIOLIB_ERR_NONE,g) := by
  have settled : c.Settled := fun _ => hears.inbox
  have crc := @any_high (hiByte c.irq) RADIOLIB_SX126X_IRQ_CRC_ERR (by decide)
  have header := @any_high (hiByte c.irq) RADIOLIB_SX126X_IRQ_HEADER_ERR (by decide)
  have status : RADIOLIB_ERR_NONE ≠ RADIOLIB_ERR_SPI_CMD_TIMEOUT := by decide
  have length : c.rxLen.toUInt64.toUInt8.toNat = g.length := by
    have held := hears.length
    rw [UInt8.toUInt8_toUInt64]
    omega
  have bytes : tabulate c.rxLen.toUInt64.toUInt8.toNat (fun i =>
      (c.buffer.get? ((0 : UInt8).toNat + i)).getD 0) = g := by
    refine List.ext_getElem? fun i => ?_
    rw [length]
    rcases Nat.lt_or_ge i g.length with inside | outside
    · have cell := readBytes hears g.length (i := i) (by omega)
      simpa using cell
    · rw [List.getElem?_eq_none (by simpa using outside), List.getElem?_eq_none outside]
  rw [readData]
  refine (SPIcheckStream_does settled).bind ((getIrqFlags_does settled).bind ?_)
  simp only [status, false_and, ite_false, crc, header, Bool.false_eq_true, or_false]
  refine Does.asserted (.done _ _) ((s.getPacketLength_does (by exact settled)).bind ?_)
  refine Does.bind (readBuffer_does (by exact settled) _ _ (length ▸ short)) ?_
  refine Does.asserted (.done _ _) ((clearIrqStatus_does (by exact settled)).bind ?_)
  rw [← bytes]
  exact .done _ _

end SX126x

theorem Chip.Hears.of_still {c d : Chip} (same : c.still = d.still) (hears : d.Hears g q) :
    c.Hears g q where
  mode := (timeless_eq same Chip.mode fun _ => rfl).trans hears.mode
  base := (timeless_eq same Chip.rxBase fun _ => rfl).trans hears.base
  inbox := (timeless_eq same Chip.inbox fun _ => rfl).trans hears.inbox
  length := (congrArg UInt8.toNat (timeless_eq same Chip.rxLen fun _ => rfl)).trans hears.length
  bytes := (timeless_eq same (fun c => c.buffer.slice? 0 (min g.length 255)) fun _ => rfl).trans
    hears.bytes

/-- Frames that reach a listening chip faster than the driver reads them are lost but for the
last, and when there are more than seven what is read may be of no frame at all: its length
is of one and its bytes are of another. The length has to be one the driver's buffers hold. -/
theorem frames_overtaken (s : SX126x) {h : SimHal κ stuckIrqMs} (hears : h.chip.Hears g q)
    (short : (Chip.holds 7 g q).length ≤ 253) :
    ∃ h' r, (s.readData 0).run SimHal.answer h = some (h',(RADIOLIB_ERR_NONE,r)) ∧
      r.length = (Chip.holds 7 g q).length ∧
      (∀ i < min r.length (Chip.holds 9 g q).length, r[i]? = (Chip.holds 9 g q)[i]?) ∧
      h'.chip.Hears (Chip.holds 12 g q) (q.drop 12) ∧
      (q.length ≤ 7 → r = q.getLastD g) ∧
      h'.radio.toEngine = h.radio.toEngine := by
  obtain ⟨r,e,does,length,bytes,after⟩ := s.readData_hears (κ := κ) hears short
  obtain ⟨h',ran,still,_,sent⟩ := does.real rfl
  refine ⟨h',r,ran,length,bytes,after.of_still still,fun few => ?_,sent⟩
  have seventh : Chip.holds 7 g q = q.getLastD g := by rw [Chip.holds, List.take_of_length_le few]
  have ninth : Chip.holds 9 g q = q.getLastD g := by
    rw [Chip.holds, List.take_of_length_le (by omega)]
  rw [seventh] at length
  rw [ninth] at bytes
  refine List.ext_getElem? fun i => ?_
  rcases Nat.lt_or_ge i (q.getLastD g).length with inside | outside
  · exact bytes i (by omega)
  · rw [List.getElem?_eq_none (by omega), List.getElem?_eq_none outside]

/-- Two frames in one millisecond. -/
theorem frames_overtaken_pair : ∃ h h' : SimHal Unit 0,
    h.chip.Hears [0x41] [[0x42,0x43]] ∧
      (SX126x.readData {} 0).run SimHal.answer h = some (h',(RADIOLIB_ERR_NONE,[0x42,0x43])) := by
  let ops : List ChipOp := [.spiTransfer [0x82,0,0,0],.frame [0x41],.frame [0x42,0x43],.tick 1]
  have heard : (run Chip.step (.new 0) ops).map (fun c =>
      decide (c.mode = .rx ∧ c.rxBase = 0 ∧ c.inbox = [[0x42,0x43]] ∧ c.rxLen.toNat = 1 ∧
        c.buffer.slice? 0 1 = some [0x41])) = some true := by
    decide +kernel
  obtain ⟨c,ran,holds⟩ := Option.map_eq_some_iff.mp heard
  obtain ⟨mode,base,inbox,length,bytes⟩ := of_decide_eq_true holds
  let h : SimHal Unit 0 := { radio := ⟨⟨c,ops,ran⟩,[],rfl⟩ }
  have hears : h.chip.Hears [0x41] [[0x42,0x43]] := ⟨mode,base,inbox,length,bytes⟩
  obtain ⟨h',r,read,_,_,_,last,_⟩ := frames_overtaken {} hears (by decide)
  obtain rfl : r = [0x42,0x43] := last (by decide)
  exact ⟨h,h',hears,read⟩

end Meshcore
