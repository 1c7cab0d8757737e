import Mathlib.Data.List.Basic

/-! Messages laid end to end on a byte stream, and the reader that takes them off
one at a time. Neither the messages nor the bytes are fixed: a message is read back
when the reader finds exactly it at the front, whatever follows. -/
namespace Framing

universe u v
variable {μ : Type u} {β : Type v}

/-- Messages off the front of `bytes` until there are none. A reader takes at least
one byte a message, so the length of the stream is fuel enough. -/
def parseAll (read : List β → Option (μ × List β)) : Nat → List β → Option (List μ)
  | _, [] => some []
  | 0, _ :: _ => none
  | fuel + 1, b :: bytes =>
    (read (b :: bytes)).bind fun r => (parseAll read fuel r.2).map (r.1 :: ·)

variable {read : List β → Option (μ × List β)} {write : μ → List β}

/-- The reader finds the message it was written from, and stops where it ended. -/
def ReadsBack (read : List β → Option (μ × List β)) (write : μ → List β) (m : μ) : Prop :=
  ∀ rest, read (write m ++ rest) = some (m,rest)

/-- Whatever follows, the reader finds some other message, or none. -/
def Misread (read : List β → Option (μ × List β)) (write : μ → List β) (m : μ) : Prop :=
  ∀ rest m' rest', read (write m ++ rest) = some (m',rest') → m' ≠ m

theorem parseAll_eq_read (nonempty : bytes ≠ []) (fuel : Nat) :
    parseAll read (fuel + 1) bytes =
      (read bytes).bind fun r => (parseAll read fuel r.2).map (r.1 :: ·) := by
  cases bytes with
  | nil => exact absurd rfl nonempty
  | cons b bytes => rfl

/-- A stream of messages parses back exactly when each of them reads back, provided
that each does or never does. -/
theorem parseAll_flatMap_iff (nonempty : ∀ m, write m ≠ [])
    (decided : ∀ m, ReadsBack read write m ∨ Misread read write m)
    (ms : List μ) (fuel : Nat) (enough : (ms.flatMap write).length ≤ fuel) :
    parseAll read fuel (ms.flatMap write) = some ms ↔ ∀ m ∈ ms, ReadsBack read write m := by
  induction ms generalizing fuel with
  | nil => cases fuel <;> simp [parseAll]
  | cons m ms ih =>
    have positive : 0 < (write m).length := List.length_pos_iff.mpr (nonempty m)
    simp only [List.flatMap_cons, List.length_append] at enough ⊢
    obtain ⟨fuel,rfl⟩ : ∃ k, fuel = k + 1 := ⟨fuel - 1,by omega⟩
    rw [parseAll_eq_read (by simp [nonempty m]), List.forall_mem_cons]
    rcases decided m with reads | misread
    · rw [reads]
      simpa [reads] using ih fuel (by omega)
    · constructor
      · intro parsed
        obtain ⟨⟨m',rest'⟩,found,tail⟩ := Option.bind_eq_some_iff.mp parsed
        obtain ⟨ms',_,same⟩ := Option.map_eq_some_iff.mp tail
        exact absurd (List.cons.inj same).1 (misread _ _ _ found)
      · rintro ⟨reads,_⟩
        exact absurd rfl (misread _ _ _ (reads []))

/-- The messages that are whole, up to `fuel` of them, off the front of `bytes`. -/
def whole (read : List β → Option (μ × List β)) : Nat → List β → List μ
  | 0, _ => []
  | fuel + 1, bytes =>
    match read bytes with
    | none => []
    | some (m,rest) => m :: whole read fuel rest

theorem whole_of_none (ended : read bytes = none) (fuel : Nat) : whole read fuel bytes = [] := by
  cases fuel <;> simp [whole,ended]

theorem whole_of_some (found : read bytes = some (m,rest)) (fuel : Nat) :
    whole read (fuel + 1) bytes = m :: whole read fuel rest := by simp [whole,found]

/-- A stream that is cut short still gives every message before the cut. -/
theorem whole_written {ms : List μ} (reads : ∀ m ∈ ms, ReadsBack read write m)
    (cut : read tail = none) (enough : ms.length ≤ fuel) :
    whole read fuel (ms.flatMap write ++ tail) = ms := by
  induction ms generalizing fuel with
  | nil => exact whole_of_none cut fuel
  | cons m ms ih =>
    obtain ⟨first,rest⟩ := List.forall_mem_cons.mp reads
    obtain ⟨fuel,rfl⟩ : ∃ k, fuel = k + 1 := ⟨fuel - 1,by simp at enough; omega⟩
    rw [List.flatMap_cons, List.append_assoc, whole_of_some (first _),
      ih rest (by simpa using enough)]

/-- `ms` are read off the front of `bytes`, which leaves `rest`. -/
inductive Takes (read : List β → Option (μ × List β)) : List β → List μ → List β → Prop where
  | stop : Takes read bytes [] bytes
  | next : read bytes = some (m,rest) → Takes read rest ms left → Takes read bytes (m :: ms) left

theorem Takes.append {ms ns : List μ} (first : Takes read bytes ms rest)
    (last : Takes read rest ns left) : Takes read bytes (ms ++ ns) left := by
  induction first with
  | stop => exact last
  | next found _ ih => exact .next found (ih last)

/-- Nothing is read off a stream but what was written to it. -/
theorem Takes.isPrefix {ms taken : List μ} (took : Takes read (ms.flatMap write ++ tail) taken rest)
    (reads : ∀ m ∈ ms, ReadsBack read write m) (cut : read tail = none) : taken <+: ms := by
  induction ms generalizing taken with
  | nil =>
    cases took with
    | stop => exact List.prefix_refl _
    | next found _ => simp [cut] at found
  | cons m ms ih =>
    obtain ⟨first,later⟩ := List.forall_mem_cons.mp reads
    cases took with
    | stop => exact List.nil_prefix
    | next found more =>
      rw [List.flatMap_cons, List.append_assoc, first] at found
      obtain ⟨rfl,rfl⟩ := Prod.mk.inj (Option.some.inj found)
      exact List.cons_prefix_cons.mpr ⟨rfl,ih more later⟩

/-- And any part of it can be. -/
theorem Takes.of_prefix {ms taken : List μ} (tail : List β)
    (reads : ∀ m ∈ ms, ReadsBack read write m) (part : taken <+: ms) :
    ∃ rest, Takes read (ms.flatMap write ++ tail) taken rest := by
  induction taken generalizing ms with
  | nil => exact ⟨_,.stop⟩
  | cons m taken ih =>
    cases ms with
    | nil => simp at part
    | cons m' ms =>
      obtain ⟨rfl,fewer⟩ := List.cons_prefix_cons.mp part
      obtain ⟨first,later⟩ := List.forall_mem_cons.mp reads
      obtain ⟨rest,more⟩ := ih later fewer
      refine ⟨rest,.next ?_ more⟩
      rw [List.flatMap_cons, List.append_assoc]
      exact first _

end Framing
