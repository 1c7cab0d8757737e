import Mathlib.Algebra.Group.Nat.Defs
import Mathlib.Data.List.Basic

/-! Bytes as text over sixty-four characters, three bytes to four of them, and back. The
characters are whatever tells its digits apart; text that uses them in one way only, the
canonical, and lists of bytes are the same thing. -/
namespace Base64

universe u
variable {β : Type u}

/-- Sixty-four characters with their digits, and one that is none of them. -/
structure Alphabet (β : Type u) where
  char : Nat → β
  digit : β → Nat
  pad : β
  digit_char : ∀ d, d < 64 → digit (char d) = d
  digit_lt : ∀ c, digit c < 64
  char_ne_pad : ∀ d, d < 64 → char d ≠ pad

variable (A : Alphabet β)

def encodeText : List UInt8 → List β
  | [] => []
  | [a] => [A.char (a.toNat / 4),A.char (a.toNat % 4 * 16),A.pad,A.pad]
  | [a,b] => [A.char (a.toNat / 4),A.char (a.toNat % 4 * 16 + b.toNat / 16),
      A.char (b.toNat % 16 * 4),A.pad]
  | a :: b :: c :: rest => A.char (a.toNat / 4) :: A.char (a.toNat % 4 * 16 + b.toNat / 16) ::
      A.char (b.toNat % 16 * 4 + c.toNat / 64) :: A.char (c.toNat % 64) :: encodeText rest

/-- The bytes of four characters: the padding is looked for in the last two, each by itself. -/
def decodeGroup [DecidableEq β] (p q r s : β) : List UInt8 :=
  UInt8.ofNat (A.digit p * 4 + A.digit q / 16) ::
    ((if r = A.pad then [] else [UInt8.ofNat (A.digit q * 16 + A.digit r / 4)]) ++
      if s = A.pad then [] else [UInt8.ofNat (A.digit r * 64 + A.digit s)])

/-- Characters that do not make up a group at the end are left out. -/
def decodeText [DecidableEq β] : List β → List UInt8
  | p :: q :: r :: s :: rest => decodeGroup A p q r s ++ decodeText rest
  | _ => []

/-- Whole groups of characters with at most two of padding after them, and no bit set
that belongs to no byte. -/
def Canonical (text : List β) : Prop :=
  ∃ body padding, text = body ++ List.replicate padding A.pad ∧ text.length % 4 = 0 ∧
    padding ≤ 2 ∧ (∀ c ∈ body, ∃ d, d < 64 ∧ A.char d = c) ∧
    ∀ c ∈ body.getLast?, A.digit c % 4 ^ padding = 0

/-- The same, group by group. -/
inductive Grouped : List β → Prop where
  | nil : Grouped []
  | one (p q : Nat) (pLt : p < 64) (qLt : q < 64) (unused : q % 16 = 0) :
      Grouped [A.char p,A.char q,A.pad,A.pad]
  | two (p q r : Nat) (pLt : p < 64) (qLt : q < 64) (rLt : r < 64) (unused : r % 4 = 0) :
      Grouped [A.char p,A.char q,A.char r,A.pad]
  | more (p q r s : Nat) (pLt : p < 64) (qLt : q < 64) (rLt : r < 64) (sLt : s < 64)
      (rest : Grouped text) : Grouped (A.char p :: A.char q :: A.char r :: A.char s :: text)

variable {A}

theorem encodeText_length (bytes : List UInt8) :
    (encodeText A bytes).length = (bytes.length + 2) / 3 * 4 := by
  induction bytes using encodeText.induct with
  | case1 => rfl
  | case2 a => simp [encodeText]
  | case3 a b => simp [encodeText]
  | case4 a b c rest ih =>
    simp only [encodeText, List.length_cons, ih]
    omega

theorem encodeText_grouped (bytes : List UInt8) : Grouped A (encodeText A bytes) := by
  induction bytes using encodeText.induct with
  | case1 => exact .nil
  | case2 a =>
    have := a.toNat_lt
    exact .one _ _ (by omega) (by omega) (by omega)
  | case3 a b =>
    have := a.toNat_lt
    have := b.toNat_lt
    exact .two _ _ _ (by omega) (by omega) (by omega) (by omega)
  | case4 a b c rest ih =>
    have := a.toNat_lt
    have := b.toNat_lt
    have := c.toNat_lt
    exact .more _ _ _ _ (by omega) (by omega) (by omega) (by omega) ih

theorem grouped_of_body (body : List β) (padding : Nat)
    (whole : (body.length + padding) % 4 = 0) (few : padding ≤ 2)
    (chars : ∀ c ∈ body, ∃ d, d < 64 ∧ A.char d = c)
    (unused : ∀ c ∈ body.getLast?, A.digit c % 4 ^ padding = 0) :
    Grouped A (body ++ List.replicate padding A.pad) := by
  match body with
  | [] =>
    obtain rfl : padding = 0 := by
      rw [List.length_nil] at whole
      omega
    exact .nil
  | [_] =>
    rw [List.length_singleton] at whole
    omega
  | [p,q] =>
    obtain rfl : padding = 2 := by
      simp only [List.length_cons, List.length_nil] at whole
      omega
    obtain ⟨p,pLt,rfl⟩ := chars p (by simp)
    obtain ⟨q,qLt,rfl⟩ := chars q (by simp)
    have zero := unused (A.char q) (by simp)
    rw [A.digit_char q qLt] at zero
    exact .one p q pLt qLt zero
  | [p,q,r] =>
    obtain rfl : padding = 1 := by
      simp only [List.length_cons, List.length_nil] at whole
      omega
    obtain ⟨p,pLt,rfl⟩ := chars p (by simp)
    obtain ⟨q,qLt,rfl⟩ := chars q (by simp)
    obtain ⟨r,rLt,rfl⟩ := chars r (by simp)
    have zero := unused (A.char r) (by simp)
    rw [A.digit_char r rLt] at zero
    exact .two p q r pLt qLt rLt zero
  | p :: q :: r :: s :: body =>
    have later : Grouped A (body ++ List.replicate padding A.pad) := by
      apply grouped_of_body body padding _ few
      · exact fun c inside => chars c (by simp [inside])
      · intro c last
        apply unused
        cases body with
        | nil => simp at last
        | cons b body => simpa [List.getLast?_cons_cons] using last
      · simp only [List.length_cons] at whole
        omega
    obtain ⟨p,pLt,rfl⟩ := chars p (by simp)
    obtain ⟨q,qLt,rfl⟩ := chars q (by simp)
    obtain ⟨r,rLt,rfl⟩ := chars r (by simp)
    obtain ⟨s,sLt,rfl⟩ := chars s (by simp)
    exact .more p q r s pLt qLt rLt sLt later

theorem Grouped.canonical (grouped : Grouped A text) : Canonical A text := by
  induction grouped with
  | nil => exact ⟨[],0,rfl,rfl,by decide,by simp,by simp⟩
  | one p q pLt qLt unused =>
    refine ⟨[A.char p,A.char q],2,rfl,by simp,by decide,?_,?_⟩
    · simpa using ⟨⟨p,pLt,rfl⟩,q,qLt,rfl⟩
    · simpa [A.digit_char q qLt] using unused
  | two p q r pLt qLt rLt unused =>
    refine ⟨[A.char p,A.char q,A.char r],1,rfl,by simp,by decide,?_,?_⟩
    · simpa using ⟨⟨p,pLt,rfl⟩,⟨q,qLt,rfl⟩,r,rLt,rfl⟩
    · simpa [A.digit_char r rLt] using unused
  | more p q r s pLt qLt rLt sLt rest ih =>
    obtain ⟨body,padding,rfl,whole,few,chars,unused⟩ := ih
    refine ⟨A.char p :: A.char q :: A.char r :: A.char s :: body,padding,rfl,?_,few,?_,?_⟩
    · simp only [List.length_cons]
      omega
    · simpa using ⟨⟨p,pLt,rfl⟩,⟨q,qLt,rfl⟩,⟨r,rLt,rfl⟩,⟨s,sLt,rfl⟩,chars⟩
    · cases body with
      | nil =>
        obtain rfl : padding = 0 := by
          simp only [List.nil_append, List.length_replicate] at whole
          omega
        simp [Nat.mod_one]
      | cons b body => simpa [List.getLast?_cons_cons] using unused

theorem canonical_iff_grouped : Canonical A text ↔ Grouped A text := by
  constructor
  · rintro ⟨body,padding,rfl,whole,few,chars,unused⟩
    rw [List.length_append, List.length_replicate] at whole
    exact grouped_of_body body padding whole few chars unused
  · exact Grouped.canonical

section Decoding

variable [DecidableEq β]

theorem decodeGroup_length (p q r s : β) :
    1 ≤ (decodeGroup A p q r s).length ∧ (decodeGroup A p q r s).length ≤ 3 := by
  simp only [decodeGroup, List.length_cons, List.length_append]
  split <;> split <;> simp

theorem decodeText_short (text : List β) (short : text.length < 4) : decodeText A text = [] := by
  match text with
  | [] | [_] | [_,_] | [_,_,_] => simp [decodeText]
  | p :: q :: r :: s :: rest =>
    simp only [List.length_cons] at short
    omega

/-- Every group of characters is one byte at least and three at most. -/
theorem decodeText_length (text : List β) :
    text.length / 4 ≤ (decodeText A text).length ∧ (decodeText A text).length ≤ text.length / 4 * 3 := by
  induction text using decodeText.induct with
  | case1 p q r s rest ih =>
    have group := decodeGroup_length (A := A) p q r s
    simp only [decodeText, List.length_append, List.length_cons]
    omega
  | case2 text short =>
    match text with
    | [] | [_] | [_,_] | [_,_,_] => simp [decodeText]
    | p :: q :: r :: s :: rest => exact absurd rfl (short p q r s rest)

variable {p q r s : Nat}

theorem decodeGroup_one (pLt : p < 64) (qLt : q < 64) :
    decodeGroup A (A.char p) (A.char q) A.pad A.pad = [UInt8.ofNat (p * 4 + q / 16)] := by
  simp [decodeGroup, A.digit_char, pLt, qLt]

theorem decodeGroup_two (pLt : p < 64) (qLt : q < 64) (rLt : r < 64) :
    decodeGroup A (A.char p) (A.char q) (A.char r) A.pad =
      [UInt8.ofNat (p * 4 + q / 16),UInt8.ofNat (q * 16 + r / 4)] := by
  rw [decodeGroup, if_neg (A.char_ne_pad r rLt), if_pos rfl, A.digit_char p pLt, A.digit_char q qLt,
    A.digit_char r rLt]
  rfl

theorem decodeGroup_more (pLt : p < 64) (qLt : q < 64) (rLt : r < 64) (sLt : s < 64) :
    decodeGroup A (A.char p) (A.char q) (A.char r) (A.char s) =
      [UInt8.ofNat (p * 4 + q / 16),UInt8.ofNat (q * 16 + r / 4),UInt8.ofNat (r * 64 + s)] := by
  rw [decodeGroup, if_neg (A.char_ne_pad r rLt), if_neg (A.char_ne_pad s sLt), A.digit_char p pLt,
    A.digit_char q qLt, A.digit_char r rLt, A.digit_char s sLt]
  rfl

theorem byte_eq {a : UInt8} (same : n % 256 = a.toNat) : UInt8.ofNat n = a := by
  rw [← UInt8.toNat_inj, UInt8.toNat_ofNat']
  exact same

/-- Bytes survive the text they are written as. -/
theorem decode_encode (bytes : List UInt8) : decodeText A (encodeText A bytes) = bytes := by
  induction bytes using encodeText.induct with
  | case1 => rfl
  | case2 a =>
    have := a.toNat_lt
    rw [encodeText, decodeText, decodeGroup_one (by omega) (by omega), byte_eq (a := a) (by omega)]
    rfl
  | case3 a b =>
    have := a.toNat_lt
    have := b.toNat_lt
    rw [encodeText, decodeText, decodeGroup_two (by omega) (by omega) (by omega),
      byte_eq (a := a) (by omega), byte_eq (a := b) (by omega)]
    rfl
  | case4 a b c rest ih =>
    have := a.toNat_lt
    have := b.toNat_lt
    have := c.toNat_lt
    rw [encodeText, decodeText, decodeGroup_more (by omega) (by omega) (by omega) (by omega),
      byte_eq (a := a) (by omega), byte_eq (a := b) (by omega), byte_eq (a := c) (by omega), ih]
    rfl

theorem high_toNat (pLt : p < 64) (qLt : q < 64) :
    (UInt8.ofNat (p * 4 + q / 16)).toNat = p * 4 + q / 16 := by
  rw [UInt8.toNat_ofNat']
  omega

theorem middle_toNat (rLt : r < 64) :
    (UInt8.ofNat (q * 16 + r / 4)).toNat = q % 16 * 16 + r / 4 := by
  rw [UInt8.toNat_ofNat']
  omega

theorem low_toNat (sLt : s < 64) : (UInt8.ofNat (r * 64 + s)).toNat = r % 4 * 64 + s := by
  rw [UInt8.toNat_ofNat']
  omega

/-- Canonical text is the text of the bytes it is read as. -/
theorem encode_decode (canonical : Canonical A text) : encodeText A (decodeText A text) = text := by
  induction canonical_iff_grouped.mp canonical with
  | nil => rfl
  | one p q pLt qLt unused =>
    have first : (p * 4 + q / 16) / 4 = p := by omega
    have second : (p * 4 + q / 16) % 4 * 16 = q := by omega
    rw [decodeText, decodeGroup_one pLt qLt]
    simp only [decodeText, List.append_nil, encodeText, high_toNat pLt qLt, first, second]
  | two p q r pLt qLt rLt unused =>
    have first : (p * 4 + q / 16) / 4 = p := by omega
    have second : (p * 4 + q / 16) % 4 * 16 + (q % 16 * 16 + r / 4) / 16 = q := by omega
    have third : (q % 16 * 16 + r / 4) % 16 * 4 = r := by omega
    rw [decodeText, decodeGroup_two pLt qLt rLt]
    simp only [decodeText, List.append_nil, encodeText, high_toNat pLt qLt, middle_toNat rLt, first,
      second, third]
  | more p q r s pLt qLt rLt sLt rest ih =>
    have first : (p * 4 + q / 16) / 4 = p := by omega
    have second : (p * 4 + q / 16) % 4 * 16 + (q % 16 * 16 + r / 4) / 16 = q := by omega
    have third : (q % 16 * 16 + r / 4) % 16 * 4 + (r % 4 * 64 + s) / 64 = r := by omega
    have fourth : (r % 4 * 64 + s) % 64 = s := by omega
    rw [decodeText, decodeGroup_more pLt qLt rLt sLt]
    simp only [List.cons_append, List.nil_append, encodeText, high_toNat pLt qLt, middle_toNat rLt,
      low_toNat sLt, first, second, third, fourth, ih rest.canonical]

end Decoding

end Base64
