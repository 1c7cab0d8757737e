import Meshcore.Library.Framing
import Mathlib.Data.Int.Init
import Mathlib.Tactic.NormNum

/-! The bytes between a bridge and the engine: sockets that move as much as they
can at each call, the writers and the reader of both bridges over them, and the
messages a bridge sends. -/
namespace Meshcore

open Framing

def kFrame : UInt8 := 0x01
def kTick : UInt8 := 0x02
def kAck : UInt8 := 0x03
def kTxDone : UInt8 := 0x04
def kOriginate : UInt8 := 0x05
def kConsoleIn : UInt8 := 0x06
def kConsoleOut : UInt8 := 0x07
def kChannelBusy : UInt8 := 0x08
def kRadioStats : UInt8 := 0x09

structure Msg where
  kind : UInt8
  payload : List UInt8
  deriving DecidableEq, Repr

structure OutSock where
  written : List UInt8 := []
  calls : Nat := 0

/-- The value of an `int` a `size_t` is cast to. -/
def toInt32 (n : Nat) : Int := (n : Int).bmod (2 ^ 32)

/-- `accept` says what the system takes of each write: `none` is an error. -/
def sockWrite (accept : Nat → Nat → Option Nat) (s : OutSock) (p : List UInt8) : OutSock × Int :=
  match accept s.calls p.length with
  | none => ({ s with calls := s.calls + 1 },-1)
  | some k => (⟨s.written ++ p.take k,s.calls + 1⟩,toInt32 (min k p.length))

/-- The loop of both writers; every turn that goes on takes at least a byte off `p`. -/
def writeLoop (accept : Nat → Nat → Option Nat) : Nat → OutSock → List UInt8 → OutSock × Bool
  | 0, s, p => (s,p.isEmpty)
  | fuel + 1, s, p =>
    if p = [] then (s,true)
    else
      let (s,w) := sockWrite accept s p
      if w ≤ 0 then (s,false) else writeLoop accept fuel s (p.drop w.toNat)

def header (kind : UInt8) (n : Nat) : List UInt8 := [kind,UInt8.ofNat (n >>> 8),UInt8.ofNat n]

/-- The native bridge's `writeMsg`: one write for the header, and the loop for the rest. -/
def writeMsg (accept : Nat → Nat → Option Nat) (s : OutSock) (kind : UInt8) (p : List UInt8) :
    OutSock × Bool :=
  let (s,w) := sockWrite accept s (header kind p.length)
  if w ≠ 3 then (s,false) else writeLoop accept p.length s p

namespace RadioServer

def writeAll (accept : Nat → Nat → Option Nat) (s : OutSock) (p : List UInt8) : OutSock × Bool :=
  writeLoop accept p.length s p

/-- The emulator's bridge loops over the header too. -/
def writeMsg (accept : Nat → Nat → Option Nat) (s : OutSock) (kind : UInt8) (p : List UInt8) :
    OutSock × Bool :=
  let (s,ok) := writeAll accept s (header kind p.length)
  if ¬ok then (s,false) else if p.length = 0 then (s,true) else writeAll accept s p

end RadioServer

structure InSock where
  stream : List UInt8
  calls : Nat := 0

/-- A blocking read gives at least a byte and at most `n` of them, as `give` has
it, while there are any; it gives none at the end of the stream. -/
def sockRead (give : Nat → Nat → Nat) (s : InSock) (n : Nat) : InSock × List UInt8 :=
  let k := min (max 1 (give s.calls n)) n
  (⟨s.stream.drop k,s.calls + 1⟩,s.stream.take k)

def readLoop (give : Nat → Nat → Nat) : Nat → InSock → Nat → Option (InSock × List UInt8)
  | 0, s, n => if n = 0 then some (s,[]) else none
  | fuel + 1, s, n =>
    if n = 0 then some (s,[])
    else
      let (s,got) := sockRead give s n
      if got = [] then none
      else (readLoop give fuel s (n - got.length)).map fun r => (r.1,got ++ r.2)

def readAll (give : Nat → Nat → Nat) (s : InSock) (n : Nat) : Option (InSock × List UInt8) :=
  readLoop give n s n

/-- The header reader of both bridges. -/
def readMsg (give : Nat → Nat → Nat) (s : InSock) : Option (Msg × InSock) := do
  let (s,hdr) ← readAll give s 3
  let n := (← hdr[1]?).toNat <<< 8 ||| (← hdr[2]?).toNat
  let (s,payload) ← if n = 0 then some (s,[]) else readAll give s n
  some (⟨← hdr[0]?,payload⟩,s)

/-- Messages until the stream ends, which it may only do between two of them. -/
def readMsgs (give : Nat → Nat → Nat) : Nat → InSock → Option (List Msg)
  | 0, s => if s.stream = [] then some [] else none
  | fuel + 1, s =>
    if s.stream = [] then some []
    else (readMsg give s).bind fun r => (readMsgs give fuel r.2).map (r.1 :: ·)

/-- One message off a byte stream, however it is chunked. -/
def readFrame (bytes : List UInt8) : Option (Msg × List UInt8) :=
  match bytes with
  | kind :: hi :: lo :: rest =>
    let n := hi.toNat <<< 8 ||| lo.toNat
    if n ≤ rest.length then some (⟨kind,rest.take n⟩,rest.drop n) else none
  | _ => none

theorem readLoop_eq (give : Nat → Nat → Nat) (fuel : Nat) (s : InSock) (n : Nat)
    (enough : n ≤ fuel) : ∃ calls, readLoop give fuel s n =
      if n ≤ s.stream.length then some (⟨s.stream.drop n,calls⟩,s.stream.take n) else none := by
  induction fuel generalizing s n with
  | zero =>
    obtain rfl : n = 0 := by omega
    exact ⟨s.calls,by simp [readLoop]⟩
  | succ fuel ih =>
    by_cases zero : n = 0
    · exact ⟨s.calls,by simp [readLoop,zero]⟩
    obtain ⟨k,chunk⟩ : ∃ k, min (max 1 (give s.calls n)) n = k := ⟨_,rfl⟩
    have some' : 1 ≤ k ∧ k ≤ n := by omega
    simp only [readLoop, zero, ite_false, sockRead, chunk]
    by_cases ended : s.stream = []
    · exact ⟨0,by simp [ended,zero]⟩
    have positive : 0 < s.stream.length := List.length_pos_iff.mpr ended
    have got : s.stream.take k ≠ [] := by
      simp only [ne_eq, List.take_eq_nil_iff, ended, or_false]
      omega
    obtain ⟨calls,rest⟩ := ih ⟨s.stream.drop k,s.calls + 1⟩ (n - (s.stream.take k).length)
      (by simp only [List.length_take]; omega)
    refine ⟨calls,?_⟩
    rw [if_neg got, rest]
    simp only [List.length_take, List.length_drop]
    by_cases whole : n ≤ s.stream.length
    · -- The chunk is whole too, and the rest of the loop reads what it left.
      rw [if_pos (by omega), if_pos whole, Nat.min_eq_left (by omega)]
      simp only [Option.map_some, List.drop_drop, Option.some.injEq, Prod.mk.injEq]
      rw [← List.take_add, Nat.add_sub_cancel' some'.2]
      exact ⟨rfl,rfl⟩
    · rw [if_neg (by omega), if_neg whole]; rfl

theorem readAll_eq (give : Nat → Nat → Nat) (s : InSock) (n : Nat) : ∃ calls, readAll give s n =
    if n ≤ s.stream.length then some (⟨s.stream.drop n,calls⟩,s.stream.take n) else none :=
  readLoop_eq give n s n (Nat.le_refl _)

/-- Chunking does not show in what is read. -/
theorem readMsg_eq (give : Nat → Nat → Nat) (s : InSock) :
    (readMsg give s).map (fun r => (r.1,r.2.stream)) = readFrame s.stream := by
  obtain ⟨calls,head⟩ := readAll_eq give s 3
  rw [readMsg]
  rw [head]
  match stream : s.stream with
  | [] => rfl
  | [a] => rfl
  | [a,b] => rfl
  | kind :: hi :: lo :: rest =>
    obtain ⟨calls',tail⟩ := readAll_eq give ⟨rest,calls⟩ (hi.toNat <<< 8 ||| lo.toNat)
    simp only [readFrame, List.length_cons, List.take_succ_cons, List.drop_succ_cons,
      List.take_zero, List.drop_zero, Option.bind_eq_bind, show 3 ≤ rest.length + 1 + 1 + 1 by omega,
      ite_true, Option.bind_some, List.getElem?_cons_zero, List.getElem?_cons_succ]
    generalize hi.toNat <<< 8 ||| lo.toNat = n at tail ⊢
    by_cases none : n = 0
    · simp [none]
    · rw [if_neg none, tail]
      by_cases whole : n ≤ rest.length <;> simp [whole]

theorem readMsgs_eq (give : Nat → Nat → Nat) (fuel : Nat) (s : InSock) :
    readMsgs give fuel s = parseAll readFrame fuel s.stream := by
  induction fuel generalizing s with
  | zero => cases left : s.stream <;> simp [readMsgs,parseAll,left]
  | succ fuel ih =>
    by_cases ended : s.stream = []
    · simp [readMsgs,parseAll,ended]
    · rw [readMsgs, if_neg ended, parseAll_eq_read ended, ← readMsg_eq give]
      cases readMsg give s with
      | none => rfl
      | some r => simp [ih]

/-- The two length bytes hold the length modulo their width. -/
theorem header_length (n : Nat) :
    (UInt8.ofNat (n >>> 8)).toNat <<< 8 ||| (UInt8.ofNat n).toNat = n % 65536 := by
  have hi : (UInt8.ofNat (n >>> 8)).toNat = n / 256 % 256 := by
    rw [UInt8.toNat_ofNat', Nat.shiftRight_eq_div_pow]
  have lo : (UInt8.ofNat n).toNat = n % 256 := UInt8.toNat_ofNat'
  have low : n % 256 < 2 ^ 8 := Nat.mod_lt _ (by decide)
  rw [hi, lo, ← Nat.shiftLeft_add_eq_or_of_lt low, Nat.shiftLeft_eq]
  omega

/-- What the reader makes of a header, a payload and whatever follows. -/
theorem readFrame_header (kind : UInt8) (n : Nat) (bytes : List UInt8) :
    readFrame (header kind n ++ bytes) = if n % 65536 ≤ bytes.length then
      some (⟨kind,bytes.take (n % 65536)⟩,bytes.drop (n % 65536)) else none := by
  simp only [header, List.cons_append, List.nil_append, readFrame, header_length]

theorem toInt32_of_lt (h : n < 2 ^ 31) : toInt32 n = n := by
  unfold toInt32
  apply Int.bmod_eq_of_le_mul_two <;> omega

/-- A socket that takes every write whole. -/
def fully : Nat → Nat → Option Nat := fun _ n => some n

theorem sockWrite_fully (s : OutSock) (p : List UInt8) :
    sockWrite fully s p = (⟨s.written ++ p,s.calls + 1⟩,toInt32 p.length) := by
  simp only [sockWrite, fully, List.take_length, Nat.min_self]

theorem writeLoop_fully_turn (fuel : Nat) (s : OutSock) (nonempty : p ≠ []) :
    writeLoop fully (fuel + 1) s p = if toInt32 p.length ≤ 0 then
      (⟨s.written ++ p,s.calls + 1⟩,false)
    else
      writeLoop fully fuel ⟨s.written ++ p,s.calls + 1⟩ (p.drop (toInt32 p.length).toNat) := by
  rw [writeLoop, if_neg nonempty, sockWrite_fully]

/-- On such a socket the loop puts the payload first, whatever is on it already. -/
theorem writeLoop_fully (fuel : Nat) (p : List UInt8) (enough : p.length ≤ fuel) :
    ∃ extra, ∀ s, (writeLoop fully fuel s p).1.written = s.written ++ (p ++ extra) := by
  induction fuel generalizing p with
  | zero =>
    obtain rfl : p = [] := List.length_eq_zero_iff.mp (by omega)
    exact ⟨[],by simp [writeLoop]⟩
  | succ fuel ih =>
    by_cases empty : p = []
    · exact ⟨[],by simp [writeLoop,empty]⟩
    by_cases failed : toInt32 p.length ≤ 0
    · refine ⟨[],fun s => ?_⟩
      rw [writeLoop_fully_turn fuel s empty, if_pos failed, List.append_nil]
    · obtain ⟨extra,written⟩ := ih (p.drop (toInt32 p.length).toNat)
        (by simp only [List.length_drop]; omega)
      refine ⟨p.drop (toInt32 p.length).toNat ++ extra,fun s => ?_⟩
      rw [writeLoop_fully_turn fuel s empty, if_neg failed, written, List.append_assoc]

/-- A payload an `int` can count goes out whole, in one write. -/
theorem writeLoop_fully_short (s : OutSock) (nonempty : p ≠ []) (short : p.length < 2 ^ 31) :
    writeLoop fully p.length s p = (⟨s.written ++ p,s.calls + 1⟩,true) := by
  cases p with
  | nil => exact absurd rfl nonempty
  | cons b rest =>
    have whole := toInt32_of_lt short
    rw [List.length_cons, writeLoop_fully_turn _ _ (List.cons_ne_nil b rest), whole,
      if_neg (by simp only [List.length_cons]; omega), Int.toNat_natCast, List.drop_length]
    cases rest.length <;> rfl

/-- The bytes of one message on a socket that takes every write whole. -/
def wireBytes (m : Msg) : List UInt8 := (writeMsg fully {} m.kind m.payload).1.written

theorem writeMsg_fully (s : OutSock) (kind : UInt8) (p : List UInt8) :
    writeMsg fully s kind p =
      writeLoop fully p.length ⟨s.written ++ header kind p.length,s.calls + 1⟩ p := by
  have three : toInt32 (header kind p.length).length = 3 := toInt32_of_lt (by simp [header])
  simp only [writeMsg, sockWrite_fully, three, ne_eq, not_true_eq_false, ite_false]

/-- The bridges put the same bytes on it. -/
theorem serverWriteMsg_fully (s : OutSock) (kind : UInt8) (p : List UInt8) :
    (RadioServer.writeMsg fully s kind p).1.written = (writeMsg fully s kind p).1.written := by
  have whole := writeLoop_fully_short s (p := header kind p.length) (by simp [header])
    (by simp [header])
  rw [writeMsg_fully, RadioServer.writeMsg, RadioServer.writeAll, whole]
  by_cases empty : p.length = 0
  · obtain rfl := List.length_eq_zero_iff.mp empty
    simp [writeLoop]
  · simp only [not_true_eq_false, ite_false, empty, RadioServer.writeAll]

theorem wireBytes_eq (m : Msg) : ∃ extra,
    wireBytes m = header m.kind m.payload.length ++ (m.payload ++ extra) ∧
      (m.payload.length < 2 ^ 31 → extra = []) ∧
      ∀ s, (writeMsg fully s m.kind m.payload).1.written = s.written ++ wireBytes m := by
  obtain ⟨extra,written⟩ := writeLoop_fully m.payload.length m.payload (Nat.le_refl _)
  have bytes : wireBytes m = header m.kind m.payload.length ++ (m.payload ++ extra) := by
    rw [wireBytes, writeMsg_fully, written]
    rfl
  refine ⟨extra,bytes,?_,fun s => ?_⟩
  · intro short
    by_cases empty : m.payload = []
    · simpa [empty,writeLoop] using (written {}).symm
    · simpa [writeLoop_fully_short _ empty short] using (written {}).symm
  · rw [writeMsg_fully, written, bytes, List.append_assoc]

theorem wireBytes_readsBack (m : Msg) (short : m.payload.length < 65536) :
    ReadsBack readFrame wireBytes m := by
  intro rest
  obtain ⟨extra,bytes,none,_⟩ := wireBytes_eq m
  obtain rfl := none (by omega)
  rw [bytes, List.append_assoc, readFrame_header, Nat.mod_eq_of_lt short]
  simp

theorem wireBytes_misread (m : Msg) (long : 65536 ≤ m.payload.length) :
    Misread readFrame wireBytes m := by
  intro rest m' rest' found same
  obtain ⟨extra,bytes,_⟩ := wireBytes_eq m
  rw [bytes, List.append_assoc, readFrame_header] at found
  split at found
  · obtain ⟨rfl,_⟩ := Prod.mk.inj (Option.some.inj found)
    have length := congrArg (fun m : Msg => m.payload.length) same
    simp only [List.length_take] at length
    omega
  · cases found

/-- Messages written one after another to a socket. -/
def writeMsgs (accept : Nat → Nat → Option Nat) (s : OutSock) (ms : List Msg) : OutSock :=
  ms.foldl (fun s m => (writeMsg accept s m.kind m.payload).1) s

theorem writeMsgs_fully (s : OutSock) (ms : List Msg) :
    (writeMsgs fully s ms).written = s.written ++ ms.flatMap wireBytes := by
  induction ms generalizing s with
  | nil => simp [writeMsgs]
  | cons m ms ih =>
    obtain ⟨_,_,_,written⟩ := wireBytes_eq m
    have rest := ih (writeMsg fully s m.kind m.payload).1
    rw [written, List.append_assoc] at rest
    rw [List.flatMap_cons, writeMsgs, List.foldl_cons]
    exact rest

/-- A stream of messages survives the wire when every length fits its header. -/
theorem readMsgs_writeMsgs_iff (give : Nat → Nat → Nat) (ms : List Msg) (bytes : List UInt8)
    (sent : (writeMsgs fully {} ms).written = bytes) :
    readMsgs give bytes.length { stream := bytes } = some ms ↔
      ∀ m ∈ ms, m.payload.length < 65536 := by
  rw [writeMsgs_fully, List.nil_append] at sent
  subst sent
  have nonempty : ∀ m, wireBytes m ≠ [] := by
    intro m
    obtain ⟨_,bytes,_⟩ := wireBytes_eq m
    simp [bytes,header]
  have decided : ∀ m, ReadsBack readFrame wireBytes m ∨ Misread readFrame wireBytes m := fun m =>
    (Nat.lt_or_ge m.payload.length 65536).imp (wireBytes_readsBack m) (wireBytes_misread m)
  rw [readMsgs_eq, parseAll_flatMap_iff nonempty decided ms _ (Nat.le_refl _)]
  refine forall₂_congr fun m _ => ⟨fun reads => ?_,wireBytes_readsBack m⟩
  by_contra long
  exact wireBytes_misread m (Nat.not_lt.mp long) [] m [] (reads []) rfl

/-- What the bridges send, each in the shape its writer gives it. -/
inductive Outgoing where
  | frame (payload : { p : List UInt8 // p.length ≤ 255 })
  | consoleOut (bytes : List UInt8)
  | radioStats (sb : { p : List UInt8 // p.length = 37 })
  | ack (payload : { p : List UInt8 // p.length = 4 })
  deriving DecidableEq

def Outgoing.msg : Outgoing → Msg
  | frame payload => ⟨kFrame,payload⟩
  | consoleOut bytes => ⟨kConsoleOut,bytes⟩
  | radioStats sb => ⟨kRadioStats,sb⟩
  | ack payload => ⟨kAck,payload⟩

/-- Only what the application printed can be too long for its header. -/
theorem outgoing_short_iff (ms : List Outgoing) :
    (∀ m ∈ ms.map Outgoing.msg, m.payload.length < 65536) ↔
      ∀ bytes, .consoleOut bytes ∈ ms → bytes.length < 65536 := by
  simp only [List.forall_mem_map]
  constructor
  · intro short bytes member
    exact short _ member
  · intro short m member
    cases m with
    | frame payload => exact Nat.lt_of_le_of_lt payload.2 (by decide)
    | consoleOut bytes => exact short bytes member
    | radioStats sb => exact sb.2 ▸ (by decide)
    | ack payload => exact payload.2 ▸ (by decide)

/-- What a bridge sends reads back whole exactly when no flush of the console
reaches the 65536 bytes its length field cannot tell from none. -/
theorem outgoing_roundtrip_iff (give : Nat → Nat → Nat) (ms : List Outgoing) (bytes : List UInt8)
    (sent : (writeMsgs fully {} (ms.map Outgoing.msg)).written = bytes) :
    readMsgs give bytes.length { stream := bytes } = some (ms.map Outgoing.msg) ↔
      ∀ out, .consoleOut out ∈ ms → out.length < 65536 := by
  rw [readMsgs_writeMsgs_iff give _ bytes sent, outgoing_short_iff]

theorem outgoing_roundtrip_ack : ∃ bytes,
    (writeMsgs fully {} ([.consoleOut [0x2A],.ack ⟨[0,0,0,1],rfl⟩].map Outgoing.msg)).written =
      bytes ∧
    (readMsgs (fun _ n => n) bytes.length { stream := bytes } =
        some ([.consoleOut [0x2A],.ack ⟨[0,0,0,1],rfl⟩].map Outgoing.msg) ↔
      ∀ out, .consoleOut out ∈ [Outgoing.consoleOut [0x2A],.ack ⟨[0,0,0,1],rfl⟩] →
        out.length < 65536) :=
  ⟨_,rfl,outgoing_roundtrip_iff (fun _ n => n) _ _ rfl⟩

/-- One flush of 65536 bytes. -/
theorem long_flush_lost : ¬∀ (give : Nat → Nat → Nat) (ms : List Outgoing) (bytes : List UInt8),
    (writeMsgs fully {} (ms.map Outgoing.msg)).written = bytes →
      readMsgs give bytes.length { stream := bytes } = some (ms.map Outgoing.msg) := by
  intro roundtrip
  have whole := roundtrip (fun _ n => n) [.consoleOut (List.replicate 65536 0x2A)] _ rfl
  have short := (readMsgs_writeMsgs_iff _ _ _ rfl).mp whole _ (List.mem_singleton.mpr rfl)
  simp only [Outgoing.msg, List.length_replicate] at short
  omega

end Meshcore
