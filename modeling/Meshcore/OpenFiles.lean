import Meshcore.Library.Trees

/-! A file of the node while it is open. The host reads it or writes it, not both, and
keeps what is written when it is closed. -/
namespace Meshcore

open Trees

/-- An open file of the host; one that is written has a place to be kept at. A directory can
be opened too: it holds no bytes, and where it ends is the host's to say. -/
structure HostFile where
  place : Option Place := none
  contents : List UInt8 := []
  pos : ℕ := 0
  directory : Option ℕ := none

namespace HostFile

/-- Where `SEEK_END` leads. -/
def ends (f : HostFile) : ℕ := f.directory.getD f.contents.length

/-- What is left to be read. -/
def rest (f : HostFile) : List UInt8 := f.contents.drop f.pos

def fgetc (f : HostFile) : HostFile × Option UInt8 :=
  match f.place, f.contents[f.pos]? with
  | none, some c => ({ f with pos := f.pos + 1 },some c)
  | _, _ => (f,none)

def fread (f : HostFile) (len : ℕ) : HostFile × List UInt8 :=
  match f.place with
  | none =>
    let got := (f.contents.drop f.pos).take len
    ({ f with pos := f.pos + got.length },got)
  | some _ => (f,[])

/-- Zeros come before what is written past the end. -/
def fwrite (f : HostFile) (buf : List UInt8) : HostFile × ℕ :=
  match f.place with
  | none => (f,0)
  | some _ =>
    if buf = [] then (f,0)
    else ({ f with
      contents := (f.contents.take f.pos).rightpad f.pos 0 ++ buf ++
        f.contents.drop (f.pos + buf.length)
      pos := f.pos + buf.length },buf.length)

end HostFile

/-- `File`, which may hold no file. -/
abbrev File := Option HostFile

namespace File

def read : File → File × Option UInt8
  | none => (none,none)
  | some f => (some f.fgetc.1,f.fgetc.2)

def size : File → UInt32
  | none => 0
  | some f => .ofNat f.ends

def available : File → Int32
  | none => 0
  | some f => (size (some f) - .ofNat f.pos).toInt32

def readBytes (file : File) (len : ℕ) : File × List UInt8 :=
  match file with
  | none => (none,[])
  | some f => (some (f.fread len).1,(f.fread len).2)

def write (file : File) (buf : List UInt8) : File × ℕ :=
  match file with
  | none => (none,0)
  | some f => (some (f.fwrite buf).1,(f.fwrite buf).2)

def print (file : File) (s : Option (List UInt8)) : File × ℕ :=
  match s with
  | none => (file,0)
  | some s => file.write s

/-- What has been written to it, or is there to be read. -/
def contents : File → List UInt8
  | none => []
  | some f => f.contents

def seek (file : File) (pos : UInt32) : File × Bool :=
  match file with
  | none => (none,false)
  | some f => (some { f with pos := pos.toNat },true)

end File

inductive FileCall where
  | read | peek | flush | available | size
  | readBytes (len : ℕ)
  | write (buf : List UInt8)
  | print (s : Option (List UInt8))
  | seek (pos : UInt32)

/-- What a call returns, and the bytes that it takes from the file. -/
structure FileReply where
  value : ℤ
  taken : List UInt8 := []

/-- How many bytes a call would take. -/
def FileCall.asks : FileCall → ℕ
  | read => 1
  | readBytes len => len
  | _ => 0

def FileCall.allAsk : List FileCall → ℕ
  | [] => 0
  | c :: rest => c.asks + allAsk rest

namespace File

def call (file : File) : FileCall → File × FileReply
  | .read => match file.read with
    | (file,some c) => (file,⟨c.toNat,[c]⟩)
    | (file,none) => (file,⟨-1,[]⟩)
  | .peek => (file,⟨-1,[]⟩)
  | .flush => (file,⟨0,[]⟩)
  | .available => (file,⟨file.available.toInt,[]⟩)
  | .size => (file,⟨file.size.toNat,[]⟩)
  | .readBytes len => ((file.readBytes len).1,⟨(file.readBytes len).2.length,(file.readBytes len).2⟩)
  | .write buf => ((file.write buf).1,⟨(file.write buf).2,[]⟩)
  | .print s => ((file.print s).1,⟨(file.print s).2,[]⟩)
  | .seek pos => ((file.seek pos).1,⟨if (file.seek pos).2 then 1 else 0,[]⟩)

def calls (file : File) : List FileCall → File × List FileReply
  | [] => (file,[])
  | c :: rest => (((file.call c).1.calls rest).1,(file.call c).2 :: ((file.call c).1.calls rest).2)

theorem call_none (c : FileCall) : (call none c).1 = none := by
  cases c with
  | print s => cases s <;> rfl
  | _ => rfl

/-- The place a file is kept at stays. -/
theorem call_place (f : HostFile) (c : FileCall) : ∃ g, call (some f) c = (some g,(call (some f) c).2) ∧
    g.place = f.place := by
  cases c with
  | read =>
    rw [call, read, HostFile.fgetc]
    cases kept : f.place <;> cases f.contents[f.pos]? <;> exact ⟨_,rfl,by simp [kept]⟩
  | readBytes len =>
    rw [call, readBytes, HostFile.fread]
    cases kept : f.place <;> exact ⟨_,rfl,by simp [kept]⟩
  | write buf =>
    rw [call, write, HostFile.fwrite]
    cases kept : f.place
    · exact ⟨_,rfl,kept⟩
    · dsimp only
      split <;> exact ⟨_,rfl,by simp [kept]⟩
  | print s =>
    cases s with
    | none => exact ⟨f,rfl,rfl⟩
    | some s =>
      rw [call, print, write, HostFile.fwrite]
      cases kept : f.place
      · exact ⟨_,rfl,kept⟩
      · dsimp only
        split <;> exact ⟨_,rfl,by simp [kept]⟩
  | peek | flush | available | size => exact ⟨f,rfl,rfl⟩
  | seek pos => exact ⟨_,rfl,rfl⟩

theorem calls_none (cs : List FileCall) : (calls none cs).1 = none := by
  induction cs with
  | nil => rfl
  | cons c rest ih => rwa [calls, call_none]

theorem calls_place (f : HostFile) (cs : List FileCall) :
    ∃ g, (calls (some f) cs).1 = some g ∧ g.place = f.place := by
  induction cs generalizing f with
  | nil => exact ⟨f,rfl,rfl⟩
  | cons c rest ih =>
    obtain ⟨g,after,same⟩ := call_place f c
    obtain ⟨last,ends,kept⟩ := ih g
    rw [calls, after]
    exact ⟨last,ends,kept.trans same⟩

/-- A call that does not seek takes the first of what is left, as many as it asks for. -/
theorem call_taken {f : HostFile} (unkept : f.place = none) (still : ∀ pos, c ≠ .seek pos) :
    ∃ g, call (some f) c = (some g,(call (some f) c).2) ∧ g.place = none ∧
      (call (some f) c).2.taken = f.rest.take c.asks ∧ g.rest = f.rest.drop c.asks := by
  cases c with
  | read =>
    have head : f.contents[f.pos]? = f.rest[0]? := by simp [HostFile.rest]
    have tail : f.contents.drop (f.pos + 1) = f.rest.tail := by simp [HostFile.rest]
    cases left : f.rest with
    | nil =>
      rw [left] at head
      have ended : call (some f) .read = (some f,⟨-1,[]⟩) := by
        simp [call,read,HostFile.fgetc,unkept,head]
      rw [ended]
      exact ⟨f,rfl,unkept,by simp,by simp [left]⟩
    | cons b more =>
      rw [left] at head tail
      have got : call (some f) .read = (some { f with pos := f.pos + 1 },⟨b.toNat,[b]⟩) := by
        simp [call,read,HostFile.fgetc,unkept,head]
      rw [got]
      exact ⟨_,rfl,unkept,by simp [FileCall.asks],by simpa [HostFile.rest,FileCall.asks] using tail⟩
  | readBytes len =>
    have got : readBytes (some f) len =
        (some { f with pos := f.pos + (f.rest.take len).length },f.rest.take len) := by
      simp [readBytes,HostFile.fread,unkept,HostFile.rest]
    rw [call, got]
    refine ⟨_,rfl,unkept,rfl,?_⟩
    simp only [HostFile.rest, FileCall.asks, ← List.drop_drop, List.length_take]
    exact List.drop_eq_drop_min.symm
  | write buf => exact ⟨f,by simp [call,write,HostFile.fwrite,unkept],unkept,rfl,rfl⟩
  | print s =>
    refine ⟨f,?_,unkept,rfl,rfl⟩
    cases s <;> simp [call,print,write,HostFile.fwrite,unkept]
  | peek | flush | available | size => exact ⟨f,rfl,unkept,rfl,rfl⟩
  | seek pos => exact absurd rfl (still pos)

/-- What is read from a file without seeking is what it holds, in its order. -/
theorem calls_taken {f : HostFile} (unkept : f.place = none) {cs : List FileCall}
    (still : ∀ c ∈ cs, ∀ pos, c ≠ .seek pos) :
    (calls (some f) cs).2.flatMap FileReply.taken = f.rest.take (FileCall.allAsk cs) := by
  induction cs generalizing f with
  | nil => rfl
  | cons c others ih =>
    obtain ⟨first,later⟩ := List.forall_mem_cons.mp still
    obtain ⟨g,after,place,taken,rest⟩ := call_taken unkept first
    rw [calls, List.flatMap_cons, after, ih place later, rest, FileCall.allAsk, List.take_add, taken]

end File

end Meshcore
