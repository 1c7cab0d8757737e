import Meshcore.Wire

/-! The writers over a socket that may take less than it is given. A loop puts its bytes
whole however they are split; the native bridge has its header outside the loop. -/
namespace Meshcore

/-- The system takes at least a byte of every write, at most all of it, and never fails. -/
def Obliging (accept : Nat → Nat → Option Nat) : Prop :=
  ∀ call n, 0 < n → ∃ k, accept call n = some k ∧ 1 ≤ k ∧ k ≤ n

variable {accept : Nat → Nat → Option Nat}

theorem sockWrite_obliging (obliging : Obliging accept) (s : OutSock) (p : List UInt8)
    (nonempty : p ≠ []) (short : p.length < 2 ^ 31) : ∃ k, accept s.calls p.length = some k ∧
      1 ≤ k ∧ k ≤ p.length ∧ sockWrite accept s p = (⟨s.written ++ p.take k,s.calls + 1⟩,(k : Int)) := by
  obtain ⟨k,taken,some',most⟩ := obliging s.calls p.length (List.length_pos_iff.mpr nonempty)
  refine ⟨k,taken,some',most,?_⟩
  rw [sockWrite, taken]
  simp only [Nat.min_eq_left most, toInt32_of_lt (Nat.lt_of_le_of_lt most short)]

/-- However the loop's bytes are split, they all go out. -/
theorem writeLoop_obliging (obliging : Obliging accept) (fuel : Nat) (s : OutSock) (p : List UInt8)
    (enough : p.length ≤ fuel) (short : p.length < 2 ^ 31) :
    ∃ calls, writeLoop accept fuel s p = (⟨s.written ++ p,calls⟩,true) := by
  induction fuel generalizing s p with
  | zero =>
    obtain rfl : p = [] := List.length_eq_zero_iff.mp (by omega)
    exact ⟨s.calls,by simp [writeLoop]⟩
  | succ fuel ih =>
    by_cases empty : p = []
    · exact ⟨s.calls,by simp [writeLoop,empty]⟩
    obtain ⟨k,_,some',most,written⟩ := sockWrite_obliging obliging s p empty short
    obtain ⟨calls,rest⟩ := ih ⟨s.written ++ p.take k,s.calls + 1⟩ (p.drop k)
      (by simp only [List.length_drop]; omega) (by simp only [List.length_drop]; omega)
    refine ⟨calls,?_⟩
    have going : ¬(k : Int) ≤ 0 := by omega
    simp only [writeLoop, if_neg empty, written, if_neg going, Int.toNat_natCast, rest,
      List.append_assoc, List.take_append_drop]

/-- The message is on the stream whole, after what was there, and the writer says so. -/
def Delivered (s : OutSock) (kind : UInt8) (p : List UInt8) (r : OutSock × Bool) : Prop :=
  r.1.written = s.written ++ (header kind p.length ++ p) ∧ r.2 = true

theorem RadioServer.writeMsg_delivered (obliging : Obliging accept) (s : OutSock) (kind : UInt8)
    (p : List UInt8) (short : p.length < 65536) :
    Delivered s kind p (writeMsg accept s kind p) := by
  obtain ⟨calls,head⟩ := writeLoop_obliging obliging (header kind p.length).length s
    (header kind p.length) (Nat.le_refl _) (by simp [header])
  rw [writeMsg, writeAll, head]
  by_cases empty : p.length = 0
  · obtain rfl := List.length_eq_zero_iff.mp empty
    simp [Delivered]
  · obtain ⟨calls',rest⟩ := writeLoop_obliging obliging p.length
      ⟨s.written ++ header kind p.length,calls⟩ p (Nat.le_refl _) (by omega)
    simp only [not_true_eq_false, ite_false, empty, writeAll, rest, Delivered, List.append_assoc,
      and_self]

/-- The native bridge gives up when its header is split, and leaves the piece behind. -/
theorem writeMsg_split (s : OutSock) (kind : UInt8) (p : List UInt8) (k : Nat) (split : k < 3)
    (taken : accept s.calls 3 = some k) : writeMsg accept s kind p =
      (⟨s.written ++ (header kind p.length).take k,s.calls + 1⟩,false) := by
  have three : (header kind p.length).length = 3 := rfl
  have said : toInt32 (min k 3) = k := by
    rw [Nat.min_eq_left (Nat.le_of_lt split)]
    exact toInt32_of_lt (by omega)
  rw [writeMsg, sockWrite, three, taken]
  simp only [said]
  rw [if_pos (by omega)]

/-- Both bridges put a whole message on the stream, over every schedule of short writes,
exactly when the native bridge's first write takes all three bytes of its header. -/
theorem messages_delivered_iff (obliging : Obliging accept) (s : OutSock) (kind : UInt8)
    (p : List UInt8) (short : p.length < 65536) :
    Delivered s kind p (writeMsg accept s kind p) ∧
        Delivered s kind p (RadioServer.writeMsg accept s kind p) ↔
      accept s.calls 3 = some 3 := by
  have three : (header kind p.length).length = 3 := rfl
  obtain ⟨k,taken,_,most,written⟩ := sockWrite_obliging obliging s (header kind p.length)
    (by simp [header]) (by simp [header])
  rw [three] at taken most
  constructor
  · rintro ⟨⟨_,told⟩,_⟩
    by_contra split
    have less : k < 3 := by
      refine Nat.lt_of_le_of_ne most fun same => split ?_
      rw [taken, same]
    rw [writeMsg_split s kind p k less taken] at told
    cases told
  · intro whole
    obtain rfl : k = 3 := Option.some.inj (taken.symm.trans whole)
    refine ⟨?_,RadioServer.writeMsg_delivered obliging s kind p short⟩
    obtain ⟨calls,rest⟩ := writeLoop_obliging obliging p.length
      ⟨s.written ++ header kind p.length,s.calls + 1⟩ p (Nat.le_refl _) (by omega)
    have all : (header kind p.length).take 3 = header kind p.length := rfl
    rw [writeMsg, written, all]
    simp only [Nat.cast_ofNat, ne_eq, not_true_eq_false, ite_false, rest, Delivered,
      List.append_assoc, and_self]

theorem messages_delivered_small : ∃ accept : Nat → Nat → Option Nat,
    (Delivered {} kAck [0,0,0,1] (writeMsg accept {} kAck [0,0,0,1]) ∧
      Delivered {} kAck [0,0,0,1] (RadioServer.writeMsg accept {} kAck [0,0,0,1]) ↔
        accept 0 3 = some 3) ∧ accept 0 3 = some 3 ∧ accept 1 4 = some 1 :=
  ⟨fun call n => some (if call = 0 then n else 1),
    messages_delivered_iff (fun call n some' => ⟨_,rfl,by split <;> omega,by split <;> omega⟩)
      {} kAck [0,0,0,1] (by decide),rfl,rfl⟩

/-- A socket that takes two bytes of its first write, and the rest whole. -/
def splitting : Nat → Nat → Option Nat := fun call n => some (if call = 0 then min n 2 else n)

/-- A frame whose header is split is lost, and the acknowledgement behind it is glued to
the piece. -/
theorem split_header_lost : (¬∀ (accept : Nat → Nat → Option Nat), Obliging accept →
    ∀ (s : OutSock) (kind : UInt8) (p : List UInt8), p.length < 65536 →
      Delivered s kind p (writeMsg accept s kind p) ∧
        Delivered s kind p (RadioServer.writeMsg accept s kind p)) ∧
    (writeMsgs splitting {} [⟨kFrame,[0x41,0x42]⟩,⟨kAck,[0,0,0,1]⟩]).written =
      [0x01,0x00] ++ [0x03,0x00,0x04,0,0,0,1] ∧
    readFrame ([0x01,0x00] ++ [0x03,0x00,0x04,0,0,0,1]) =
      some (⟨kFrame,[0x00,0x04,0]⟩,[0,0,1]) := by
  refine ⟨fun claimed => ?_,by decide,by decide⟩
  have obliging : Obliging splitting := fun call n some' =>
    ⟨_,rfl,by split <;> omega,by split <;> omega⟩
  obtain ⟨⟨_,told⟩,_⟩ := claimed splitting obliging {} kFrame [0x41,0x42] (by decide)
  exact absurd told (by decide)

end Meshcore
