import Meshcore.Library.Base64
import Meshcore.Library.Waits
import Meshcore.Library.Words

/-! Channel keys as text. The encoder packs three bytes into a word and takes four
characters out of it, the decoder goes the other way; both walk indices of 32 bits over
arrays whose lengths they are only told. -/
namespace Meshcore

open Base64 Checked Waits Words

def b64Alphabet : List UInt8 := [
  'A','B','C','D','E','F','G','H','I','J','K','L','M','N','O','P',
  'Q','R','S','T','U','V','W','X','Y','Z','a','b','c','d','e','f',
  'g','h','i','j','k','l','m','n','o','p','q','r','s','t','u','v',
  'w','x','y','z','0','1','2','3','4','5','6','7','8','9','+','/'].map Char.toUInt8

/-- Anything but a character of the alphabet counts as the first. -/
def b64Index (c : UInt8) : UInt8 :=
  if 'A'.toUInt8 ≤ c ∧ c ≤ 'Z'.toUInt8 then c - 'A'.toUInt8
  else if 'a'.toUInt8 ≤ c ∧ c ≤ 'z'.toUInt8 then c - 'a'.toUInt8 + 26
  else if '0'.toUInt8 ≤ c ∧ c ≤ '9'.toUInt8 then c - '0'.toUInt8 + 52
  else if c = '+'.toUInt8 then 62
  else if c = '/'.toUInt8 then 63
  else 0

def encodeBase64Length (input_length : UInt32) : UInt32 := (input_length + 2) / 3 * 4

def decodeBase64Length (input_length : UInt32) : UInt32 := input_length / 4 * 3

/-- The indices of either loop and the array it writes. -/
structure Base64State (m : ℕ) where
  i : UInt32
  o : UInt32
  output : Block m UInt8

/-- `output[o++] = byte;` -/
def Base64State.put (s : Base64State m) (byte : UInt8) : Option (Base64State m) := do
  let output ← s.output.set? s.o.toNat byte
  some { s with o := s.o + 1, output }

/-- `if (p) output[o++] = byte;` -/
def Base64State.putWhen (s : Base64State m) (p : Prop) [Decidable p] (byte : UInt8) :
    Option (Base64State m) := if p then s.put byte else some s

/-- `b64_alphabet[v & 0x3F]` -/
def b64Char (v : UInt32) : Option UInt8 := b64Alphabet[(v &&& 0x3F).toNat]?

/-- A turn of the encoder's loop. -/
def encodeTurn (input : List UInt8) (input_length : UInt32) (s : Base64State m) :
    Option (Base64State m) := do
  let v := (← input[s.i.toNat]?).toUInt32 <<< 16
  let v ← if s.i + 1 < input_length
    then (input[(s.i + 1).toNat]?).map fun (b : UInt8) => v ||| b.toUInt32 <<< 8 else some v
  let v ← if s.i + 2 < input_length
    then (input[(s.i + 2).toNat]?).map fun (b : UInt8) => v ||| b.toUInt32 else some v
  let t ← s.put (← b64Char (v >>> 18))
  let t ← t.put (← b64Char (v >>> 12))
  let t ← t.put (← if s.i + 1 < input_length then b64Char (v >>> 6) else some '='.toUInt8)
  let t ← t.put (← if s.i + 2 < input_length then b64Char v else some '='.toUInt8)
  some { t with i := s.i + 3 }

def encodeBase64 (input : List UInt8) (input_length : UInt32) (output : Block m UInt8) :
    Option (Block m UInt8 × UInt32) := do
  let s ← loopWithin (fun s => decide (s.i < input_length)) (encodeTurn input input_length)
    input_length.toNat ⟨0,0,output⟩
  let output ← s.output.set? s.o.toNat 0
  some (output,s.o)

/-- `i + 3 < input_length`, the guard of the decoder's loop. -/
def groupLeft (input_length : UInt32) (s : Base64State m) : Bool := decide (s.i + 3 < input_length)

/-- A turn of the decoder's loop. -/
def decodeTurn (input : List UInt8) (s : Base64State m) : Option (Base64State m) := do
  let p ← input[s.i.toNat]?
  let q ← input[(s.i + 1).toNat]?
  let r ← input[(s.i + 2).toNat]?
  let t ← input[(s.i + 3).toNat]?
  let v := (b64Index p).toUInt32 <<< 18 ||| (b64Index q).toUInt32 <<< 12 |||
    (b64Index r).toUInt32 <<< 6 ||| (b64Index t).toUInt32
  let next ← s.put (v >>> 16).toUInt8
  let next ← next.putWhen (r ≠ '='.toUInt8) (v >>> 8).toUInt8
  let next ← next.putWhen (t ≠ '='.toUInt8) v.toUInt8
  some { next with i := s.i + 4 }

def decodeBase64 (input : List UInt8) (input_length : UInt32) (output : Block m UInt8) :
    Option (Block m UInt8 × UInt32) := do
  let s ← loopWithin (groupLeft input_length) (decodeTurn input) input_length.toNat ⟨0,0,output⟩
  some (s.output,s.o)

/-- `input[n]`, as a condition; that there is such a byte is left to the turn. -/
def nonzeroAt (input : List UInt8) (n : UInt32) : Bool := decide (input[n.toNat]? ≠ some 0)

def countTurn (input : List UInt8) (n : UInt32) : Option UInt32 :=
  (input[n.toNat]?).map fun _ => n + 1

/-- `while (input[n]) n++;` -/
def terminated (input : List UInt8) : Option UInt32 :=
  loopWithin (nonzeroAt input) (countTurn input) input.length 0

/-- The overload for text that ends with a zero. -/
def decodeBase64Terminated (input : List UInt8) (output : Block m UInt8) :
    Option (Block m UInt8 × UInt32) := do
  let n ← terminated input
  decodeBase64 input n output

theorem b64Index_lt (c : UInt8) : (b64Index c).toNat < 64 := by
  have every : ∀ n, n < 256 → (b64Index (UInt8.ofNat n)).toNat < 64 := by decide +kernel
  simpa using every c.toNat c.toNat_lt

/-- The alphabet of the source. -/
def base64 : Alphabet UInt8 where
  char d := b64Alphabet.getD d 0
  digit c := (b64Index c).toNat
  pad := '='.toUInt8
  digit_char := by decide
  digit_lt := b64Index_lt
  char_ne_pad := by decide

theorem b64Char_eq (v : UInt32) : b64Char v = some (base64.char (v.toNat % 64)) := by
  have masked : (v &&& 0x3F).toNat = v.toNat % 64 := by
    rw [UInt32.toNat_and]
    exact Nat.and_two_pow_sub_one_eq_mod _ 6
  have inside : v.toNat % 64 < b64Alphabet.length := Nat.mod_lt _ (by decide)
  rw [b64Char, masked, List.getElem?_eq_getElem inside]
  simp [base64, inside]

/-- What a loop has written so far: bytes from the start of the array, and no others. -/
structure Wrote (base : Block m UInt8) (written : List UInt8) (s : Base64State m) : Prop where
  output : s.output = base.overlay 0 written
  o : s.o.toNat = written.length

theorem Wrote.init (base : Block m UInt8) : Wrote base [] ⟨0,0,base⟩ := ⟨(overlay_nil base).symm,rfl⟩

variable {base : Block m UInt8} {s : Base64State m}

theorem Wrote.put (wrote : Wrote base written s) (room : written.length < m)
    (fits : written.length + 1 < UInt32.size) (byte : UInt8) :
    ∃ next, s.put byte = some next ∧ next.i = s.i ∧ Wrote base (written ++ [byte]) next := by
  have free : 0 + written.length < m := by omega
  refine ⟨⟨s.i,s.o + 1,base.overlay 0 (written ++ [byte])⟩,?_,rfl,rfl,?_⟩
  · rw [Base64State.put, wrote.output, wrote.o, set?_of_lt _ _ room, overlay_concat _ _ _ free]
    simp
  · have size : UInt32.size = 4294967296 := rfl
    rw [UInt32.toNat_add, wrote.o, UInt32.toNat_one, List.length_append, List.length_singleton]
    omega

/-- A byte that is written when a condition does not hold. -/
theorem Wrote.putWhen (wrote : Wrote base written s) (c : Prop) [Decidable c] (byte : UInt8)
    (room : written.length + (if c then [] else [byte]).length ≤ m)
    (fits : written.length + 1 < UInt32.size) :
    ∃ next, s.putWhen (¬c) byte = some next ∧ next.i = s.i ∧
      Wrote base (written ++ if c then [] else [byte]) next := by
  by_cases skipped : c
  · exact ⟨s,by simp [Base64State.putWhen, skipped],rfl,by simpa [skipped] using wrote⟩
  · simp only [skipped, if_false, List.length_singleton] at room
    obtain ⟨next,took,same,written⟩ := wrote.put room fits byte
    exact ⟨next,by simpa [Base64State.putWhen, skipped] using took,same,by simpa [skipped] using written⟩

/-- The three bytes of the word that four digits are packed into. -/
theorem packed_bytes (p q r t : UInt8) :
    let v := (b64Index p).toUInt32 <<< 18 ||| (b64Index q).toUInt32 <<< 12 |||
      (b64Index r).toUInt32 <<< 6 ||| (b64Index t).toUInt32
    (v >>> 16).toUInt8 = UInt8.ofNat (base64.digit p * 4 + base64.digit q / 16) ∧
      (v >>> 8).toUInt8 = UInt8.ofNat (base64.digit q * 16 + base64.digit r / 4) ∧
      v.toUInt8 = UInt8.ofNat (base64.digit r * 64 + base64.digit t) := by
  intro v
  have word : v.toNat = ((base64.digit p * 64 + base64.digit q) * 64 + base64.digit r) * 64 +
      base64.digit t := pack_sextets _ _ _ _ (b64Index_lt q) (b64Index_lt r) (b64Index_lt t)
  have qLt := base64.digit_lt q
  have rLt := base64.digit_lt r
  have tLt := base64.digit_lt t
  refine ⟨?_,?_,?_⟩ <;> apply UInt8.toNat_inj.mp
  · rw [shiftRight_byte v 16 (by decide), UInt8.toNat_ofNat', word]
    simp only [UInt32.reduceToNat]
    omega
  · rw [shiftRight_byte v 8 (by decide), UInt8.toNat_ofNat', word]
    simp only [UInt32.reduceToNat]
    omega
  · rw [UInt32.toNat_toUInt8, UInt8.toNat_ofNat', word]
    omega

theorem decodeTurn_spec (wrote : Wrote base written s) (first : input[s.i.toNat]? = some p)
    (second : input[(s.i + 1).toNat]? = some q) (third : input[(s.i + 2).toNat]? = some r)
    (fourth : input[(s.i + 3).toNat]? = some t)
    (room : (written ++ decodeGroup base64 p q r t).length ≤ m)
    (fits : written.length + 3 < UInt32.size) :
    ∃ next, decodeTurn input s = some next ∧ next.i = s.i + 4 ∧
      Wrote base (written ++ decodeGroup base64 p q r t) next := by
  obtain ⟨high,middle,low⟩ := packed_bytes p q r t
  rw [decodeGroup] at room ⊢
  generalize UInt8.ofNat (base64.digit p * 4 + base64.digit q / 16) = b0 at *
  generalize UInt8.ofNat (base64.digit q * 16 + base64.digit r / 4) = b1 at *
  generalize UInt8.ofNat (base64.digit r * 64 + base64.digit t) = b2 at *
  simp only [List.length_append, List.length_cons] at room
  have few : (if r = base64.pad then [] else [b1]).length ≤ 1 := by split <;> simp
  obtain ⟨s1,took1,_,wrote1⟩ := wrote.put (by omega) (by omega) b0
  obtain ⟨s2,took2,_,wrote2⟩ := wrote1.putWhen (r = base64.pad) b1
    (by simp only [List.length_append, List.length_singleton]; omega)
    (by simp only [List.length_append, List.length_singleton]; omega)
  obtain ⟨s3,took3,_,wrote3⟩ := wrote2.putWhen (t = base64.pad) b2
    (by simp only [List.length_append, List.length_singleton]; omega)
    (by simp only [List.length_append, List.length_singleton]; omega)
  refine ⟨{ s3 with i := s.i + 4 },?_,rfl,?_⟩
  · simp only [decodeTurn, first, second, third, fourth, Option.bind_eq_bind, Option.bind_some, high,
      middle, low, took1]
    change s1.putWhen (r ≠ '='.toUInt8) b1 = some s2 at took2
    change s2.putWhen (t ≠ '='.toUInt8) b2 = some s3 at took3
    rw [took2, Option.bind_some, took3, Option.bind_some]
  · simpa using (⟨wrote3.output,wrote3.o⟩ : Wrote base _ { s3 with i := s.i + 4 })

/-- Before a turn: so many groups are read, and what they and the rest decode to is what
the text does. -/
structure Decoding (base : Block m UInt8) (text : List UInt8) (k : ℕ) (s : Base64State m) : Prop where
  i : s.i.toNat = 4 * k
  wrote : ∃ written, Wrote base written s ∧ k ≤ written.length ∧ written.length ≤ 3 * k ∧
    written ++ decodeText base64 (text.drop (4 * k)) = decodeText base64 text

theorem Decoding.init (base : Block m UInt8) (text : List UInt8) : Decoding base text 0 ⟨0,0,base⟩ :=
  ⟨rfl,[],.init base,le_rfl,le_rfl,rfl⟩

/-- The indices of a group are not wrapped. -/
theorem Decoding.index (here : Decoding base text k s) (inside : 4 * k ≤ text.length)
    (fits : text.length < UInt32.size) (d : ℕ) (within : d ≤ 3) :
    (s.i + UInt32.ofNat d).toNat = 4 * k + d := by
  have size : UInt32.size = 4294967296 := rfl
  have i := here.i
  rw [index_toNat _ _ (by omega), i]

theorem Decoding.goes (here : Decoding base text k s) (whole : text.length = n.toNat)
    (inside : k ≤ text.length / 4) : groupLeft n s = decide (k < text.length / 4) := by
  have bound := n.toNat_lt_size
  have guard : (s.i + 3).toNat = 4 * k + 3 := here.index (by omega) (by omega) 3 le_rfl
  rw [groupLeft, decide_eq_decide, UInt32.lt_iff_toNat_lt, guard]
  omega

theorem drop_four (text : List UInt8) (j : ℕ) (inside : j + 4 ≤ text.length) :
    ∃ p q r t, text.drop j = p :: q :: r :: t :: text.drop (j + 4) := by
  refine ⟨text[j],text[j + 1],text[j + 2],text[j + 3],?_⟩
  rw [List.drop_eq_getElem_cons (by omega), List.drop_eq_getElem_cons (by omega),
    List.drop_eq_getElem_cons (by omega), List.drop_eq_getElem_cons (by omega)]

theorem Decoding.turn (here : Decoding base text k s) (inside : k < text.length / 4)
    (fits : text.length < UInt32.size) (room : (decodeText base64 text).length ≤ m)
    (rest : List UInt8) :
    ∃ next, decodeTurn (text ++ rest) s = some next ∧ Decoding base text (k + 1) next := by
  obtain ⟨written,wrote,least,most,same⟩ := here.wrote
  obtain ⟨p,q,r,t,group⟩ := drop_four text (4 * k) (by omega)
  have read (d : ℕ) (within : d ≤ 3) : (text ++ rest)[(s.i + UInt32.ofNat d).toNat]? =
      (p :: q :: r :: t :: text.drop (4 * k + 4))[d]? := by
    rw [here.index (by omega) fits d within, List.getElem?_append_left (by omega), ← group,
      List.getElem?_drop]
  have first : (text ++ rest)[s.i.toNat]? = some p := by simpa using read 0 (by decide)
  rw [group, decodeText, ← List.append_assoc] at same
  have total := congrArg List.length same
  rw [List.length_append] at total
  obtain ⟨next,took,i,wrote'⟩ := decodeTurn_spec wrote first (read 1 (by decide)) (read 2 (by decide))
    (read 3 le_rfl) (by omega) (by omega)
  have size := decodeGroup_length (A := base64) p q r t
  refine ⟨next,took,?_,_,wrote',?_,?_,same⟩
  · have moved := index_toNat s.i 4 (by have := here.i; omega)
    rw [i]
    exact moved.trans (by rw [here.i]; omega)
  · rw [List.length_append]
    omega
  · rw [List.length_append]
    omega

/-- The decoder's loop: it ends after as many turns as there are whole groups, with what
the text decodes to written and nothing else. -/
theorem decode_loop (base : Block m UInt8) (whole : text.length = n.toNat)
    (room : (decodeText base64 text).length ≤ m) (rest : List UInt8) :
    ∃ last, Loop (groupLeft n) (decodeTurn (text ++ rest)) (text.length / 4) ⟨0,0,base⟩ (some last) ∧
      Wrote base (decodeText base64 text) last := by
  have fits : text.length < UInt32.size := whole ▸ n.toNat_lt_size
  obtain ⟨last,loop,done⟩ := loop_counts (Decoding base text) (text.length / 4)
    (fun k s here inside => here.goes whole inside)
    (fun k s here inside => here.turn inside fits room rest) (.init base text)
  obtain ⟨written,wrote,_,_,same⟩ := done.wrote
  rw [decodeText_short (A := base64) (text.drop _) (by rw [List.length_drop]; omega), List.append_nil]
    at same
  exact ⟨last,loop,same ▸ wrote⟩

theorem decodeBase64_eq (base : Block m UInt8) (whole : text.length = n.toNat)
    (room : (decodeText base64 text).length ≤ m) (rest : List UInt8) :
    decodeBase64 (text ++ rest) n base = some (base.overlay 0 (decodeText base64 text),
      UInt32.ofNat (decodeText base64 text).length) := by
  obtain ⟨last,loop,wrote⟩ := decode_loop base whole room rest
  have within : loopWithin (groupLeft n) (decodeTurn (text ++ rest)) n.toNat ⟨0,0,base⟩ = some last :=
    loopWithin_eq_some_iff.mpr ⟨_,by omega,loop⟩
  have count : last.o = UInt32.ofNat (decodeText base64 text).length := by
    rw [← wrote.o, UInt32.ofNat_toNat]
  rw [decodeBase64, within, Option.bind_eq_bind, Option.bind_some, wrote.output, count]

theorem decodeBase64Length_toNat (n : UInt32) : (decodeBase64Length n).toNat = n.toNat / 4 * 3 := by
  have bound := n.toNat_lt
  have four : (4 : UInt32).toNat = 4 := rfl
  have three : (3 : UInt32).toNat = 3 := rfl
  rw [decodeBase64Length, UInt32.toNat_mul, UInt32.toNat_div, four, three]
  exact Nat.mod_eq_of_lt (by omega)

/-- The four characters of a turn. -/
theorem Wrote.puts (wrote : Wrote base written s) (room : written.length + 4 ≤ m)
    (fits : written.length + 4 < UInt32.size) (p q r t : UInt8) (j : UInt32) :
    ∃ next, ((s.put p).bind fun s => (s.put q).bind fun s => (s.put r).bind fun s => (s.put t).bind
        fun s => some { s with i := j }) = some next ∧ next.i = j ∧
      Wrote base (written ++ [p,q,r,t]) next := by
  obtain ⟨s1,took1,_,wrote1⟩ := wrote.put (by omega) (by omega) p
  obtain ⟨s2,took2,_,wrote2⟩ := wrote1.put (by simp; omega) (by simp; omega) q
  obtain ⟨s3,took3,_,wrote3⟩ := wrote2.put (by simp; omega) (by simp; omega) r
  obtain ⟨s4,took4,_,wrote4⟩ := wrote3.put (by simp; omega) (by simp; omega) t
  refine ⟨{ s4 with i := j },?_,rfl,?_⟩
  · rw [took1, Option.bind_some, took2, Option.bind_some, took3, Option.bind_some, took4,
      Option.bind_some]
  · simpa using (⟨wrote4.output,wrote4.o⟩ : Wrote base _ { s4 with i := j })

/-- The characters of the word that three bytes are packed into. -/
theorem packed_chars (a b c : UInt8) (v : UInt32)
    (word : v.toNat = (a.toNat * 256 + b.toNat) * 256 + c.toNat) :
    b64Char (v >>> 18) = some (base64.char (a.toNat / 4)) ∧
      b64Char (v >>> 12) = some (base64.char (a.toNat % 4 * 16 + b.toNat / 16)) ∧
      b64Char (v >>> 6) = some (base64.char (b.toNat % 16 * 4 + c.toNat / 64)) ∧
      b64Char v = some (base64.char (c.toNat % 64)) := by
  have aLt := a.toNat_lt
  have bLt := b.toNat_lt
  have cLt := c.toNat_lt
  have high : v.toNat / 2 ^ 18 % 64 = a.toNat / 4 := by omega
  have second : v.toNat / 2 ^ 12 % 64 = a.toNat % 4 * 16 + b.toNat / 16 := by omega
  have third : v.toNat / 2 ^ 6 % 64 = b.toNat % 16 * 4 + c.toNat / 64 := by omega
  have low : v.toNat % 64 = c.toNat % 64 := by omega
  refine ⟨?_,?_,?_,?_⟩
  · rw [b64Char_eq, shiftRight_toNat v 18 (by decide), ← high]
    rfl
  · rw [b64Char_eq, shiftRight_toNat v 12 (by decide), ← second]
    rfl
  · rw [b64Char_eq, shiftRight_toNat v 6 (by decide), ← third]
    rfl
  · rw [b64Char_eq, low]

/-- A turn writes the characters of the next three bytes, or of as many as there are. -/
theorem encodeTurn_spec (input : List UInt8) (n : UInt32) (wrote : Wrote base written s)
    (room : written.length + 4 ≤ m) (fits : written.length + 4 < UInt32.size) (nonempty : tail ≠ [])
    (read : ∀ d ≤ 2, input[(s.i + UInt32.ofNat d).toNat]? = tail[d]?)
    (guard : ∀ d ≤ 2, s.i + UInt32.ofNat d < n ↔ d < tail.length) :
    ∃ next, encodeTurn input n s = some next ∧ next.i = s.i + 3 ∧
      ∃ group, group.length = 4 ∧ Wrote base (written ++ group) next ∧
        group ++ encodeText base64 (tail.drop 3) = encodeText base64 tail := by
  have first : input[s.i.toNat]? = tail[0]? := by simpa using read 0 (by decide)
  have second : input[(s.i + 1).toNat]? = tail[1]? := read 1 (by decide)
  have third : input[(s.i + 2).toNat]? = tail[2]? := read 2 (by decide)
  have more : s.i + 1 < n ↔ 1 < tail.length := guard 1 (by decide)
  have most : s.i + 2 < n ↔ 2 < tail.length := guard 2 (by decide)
  match tail with
  | [a] =>
    obtain ⟨high,low,_⟩ := packed_chars a 0 0 (a.toUInt32 <<< 16) (by simpa using pack_bytes a 0 0)
    have noSecond : ¬s.i + 1 < n := by simp [more]
    have noThird : ¬s.i + 2 < n := by simp [most]
    obtain ⟨next,took,i,wrote⟩ := wrote.puts room fits (base64.char (a.toNat / 4))
      (base64.char (a.toNat % 4 * 16)) base64.pad base64.pad (s.i + 3)
    refine ⟨next,?_,i,_,rfl,wrote,by simp [encodeText]⟩
    rw [← took]
    simp only [encodeTurn, first, noSecond, noThird, high, low, if_false, List.getElem?_cons_zero,
      Option.bind_eq_bind, Option.bind_some]
    rfl
  | [a,b] =>
    obtain ⟨high,middle,low,_⟩ := packed_chars a b 0 (a.toUInt32 <<< 16 ||| b.toUInt32 <<< 8)
      (by simpa using pack_bytes a b 0)
    have hasSecond : s.i + 1 < n := by simp [more]
    have noThird : ¬s.i + 2 < n := by simp [most]
    obtain ⟨next,took,i,wrote⟩ := wrote.puts room fits (base64.char (a.toNat / 4))
      (base64.char (a.toNat % 4 * 16 + b.toNat / 16)) (base64.char (b.toNat % 16 * 4)) base64.pad
      (s.i + 3)
    refine ⟨next,?_,i,_,rfl,wrote,by simp [encodeText]⟩
    rw [← took]
    rw [UInt8.toNat_zero, Nat.zero_div, Nat.add_zero] at low
    simp only [encodeTurn, first, second, hasSecond, noThird, high, middle, low, if_true, if_false,
      List.getElem?_cons_zero, List.getElem?_cons_succ, Option.map_some, Option.bind_eq_bind,
      Option.bind_some]
    rfl
  | a :: b :: c :: rest =>
    obtain ⟨high,middle,low,last⟩ := packed_chars a b c _ (pack_bytes a b c)
    have hasSecond : s.i + 1 < n := by simp [more]
    have hasThird : s.i + 2 < n := by simp [most]
    obtain ⟨next,took,i,wrote⟩ := wrote.puts room fits (base64.char (a.toNat / 4))
      (base64.char (a.toNat % 4 * 16 + b.toNat / 16))
      (base64.char (b.toNat % 16 * 4 + c.toNat / 64)) (base64.char (c.toNat % 64)) (s.i + 3)
    refine ⟨next,?_,i,_,rfl,wrote,by simp [encodeText]⟩
    rw [← took]
    simp only [encodeTurn, first, second, third, hasSecond, hasThird, high, middle, low, last, if_true,
      List.getElem?_cons_zero, List.getElem?_cons_succ, Option.map_some, Option.bind_eq_bind,
      Option.bind_some]

/-- Before a turn of the encoder's loop. -/
structure Encoding (base : Block m UInt8) (bytes : List UInt8) (k : ℕ) (s : Base64State m) : Prop where
  i : s.i.toNat = 3 * k
  wrote : ∃ written, Wrote base written s ∧ written.length = 4 * k ∧
    written ++ encodeText base64 (bytes.drop (3 * k)) = encodeText base64 bytes

theorem Encoding.init (base : Block m UInt8) (bytes : List UInt8) : Encoding base bytes 0 ⟨0,0,base⟩ :=
  ⟨rfl,[],.init base,rfl,rfl⟩

theorem Encoding.goes (here : Encoding base bytes k s) (whole : bytes.length = n.toNat) :
    decide (s.i < n) = decide (k < (bytes.length + 2) / 3) := by
  rw [decide_eq_decide, UInt32.lt_iff_toNat_lt, here.i]
  omega

theorem Encoding.turn (here : Encoding base bytes k s) (inside : k < (bytes.length + 2) / 3)
    (whole : bytes.length = n.toNat) (fits : (bytes.length + 2) / 3 * 4 < UInt32.size)
    (room : (bytes.length + 2) / 3 * 4 < m) :
    ∃ next, encodeTurn bytes n s = some next ∧ Encoding base bytes (k + 1) next := by
  have size : UInt32.size = 4294967296 := rfl
  have start := here.i
  obtain ⟨written,wrote,count,same⟩ := here.wrote
  have index (d : ℕ) (within : d ≤ 3) : (s.i + UInt32.ofNat d).toNat = 3 * k + d := by
    rw [index_toNat _ _ (by omega), start]
  have nonempty : bytes.drop (3 * k) ≠ [] := by
    rw [Ne, List.drop_eq_nil_iff]
    omega
  obtain ⟨next,took,i,group,four,wrote',step⟩ := encodeTurn_spec bytes n wrote
    (by omega) (by omega) nonempty
    (fun d within => by rw [index d (by omega), List.getElem?_drop])
    (fun d within => by
      rw [UInt32.lt_iff_toNat_lt, index d (by omega), List.length_drop]
      omega)
  refine ⟨next,took,?_,_,wrote',?_,?_⟩
  · have moved : (s.i + 3).toNat = 3 * k + 3 := index 3 le_rfl
    rw [i, moved]
    omega
  · rw [List.length_append, count, four]
    omega
  · rw [List.drop_drop] at step
    rw [List.append_assoc, Nat.mul_succ, step, same]

/-- The encoder's loop: it ends after as many turns as there are groups, a last short one
included, with the text written and nothing else. -/
theorem encode_loop (base : Block m UInt8) (whole : bytes.length = n.toNat)
    (fits : (bytes.length + 2) / 3 * 4 < UInt32.size) (room : (bytes.length + 2) / 3 * 4 < m) :
    ∃ last, Loop (fun s => decide (s.i < n)) (encodeTurn bytes n) ((bytes.length + 2) / 3)
      ⟨0,0,base⟩ (some last) ∧ Wrote base (encodeText base64 bytes) last := by
  obtain ⟨last,loop,done⟩ := loop_counts (Encoding base bytes) ((bytes.length + 2) / 3)
    (fun k s here _ => here.goes whole)
    (fun k s here inside => here.turn inside whole fits room) (.init base bytes)
  obtain ⟨written,wrote,_,same⟩ := done.wrote
  have finished : bytes.drop (3 * ((bytes.length + 2) / 3)) = [] := by
    rw [List.drop_eq_nil_iff]
    omega
  rw [finished, encodeText, List.append_nil] at same
  exact ⟨last,loop,same ▸ wrote⟩

theorem encodeBase64_eq (base : Block m UInt8) (whole : bytes.length = n.toNat)
    (fits : (bytes.length + 2) / 3 * 4 < UInt32.size) (room : (bytes.length + 2) / 3 * 4 < m) :
    encodeBase64 bytes n base = some (base.overlay 0 (encodeText base64 bytes ++ [0]),
      UInt32.ofNat (encodeText base64 bytes).length) := by
  obtain ⟨last,loop,wrote⟩ := encode_loop base whole fits room
  have within : loopWithin (fun s => decide (s.i < n)) (encodeTurn bytes n) n.toNat ⟨0,0,base⟩ =
      some last := loopWithin_eq_some_iff.mpr ⟨_,by omega,loop⟩
  have length := encodeText_length (A := base64) bytes
  have count : last.o = UInt32.ofNat (encodeText base64 bytes).length := by
    rw [← wrote.o, UInt32.ofNat_toNat]
  have free : 0 + (encodeText base64 bytes).length < m := by omega
  rw [encodeBase64, within, Option.bind_eq_bind, Option.bind_some, wrote.output, wrote.o,
    set?_of_lt _ _ (by omega), overlay_concat _ _ _ free, count]
  simp

/-- No character of a text is the zero that ends one. -/
theorem zero_not_mem (canonical : Canonical base64 text) : 0 ∉ text := by
  obtain ⟨body,padding,rfl,_,_,chars,_⟩ := canonical
  have alphabet : ∀ d, d < 64 → base64.char d ≠ 0 := by decide
  have pad : base64.pad ≠ 0 := by decide
  rw [List.mem_append]
  rintro (inBody | inPadding)
  · obtain ⟨d,dLt,same⟩ := chars 0 inBody
    exact alphabet d dLt same
  · exact pad (List.eq_of_mem_replicate inPadding).symm

theorem terminated_eq (noZero : 0 ∉ text) (fits : text.length < UInt32.size) (rest : List UInt8) :
    terminated (text ++ 0 :: rest) = some (UInt32.ofNat text.length) := by
  have size : UInt32.size = 4294967296 := rfl
  have goes (k : ℕ) (n : UInt32) (here : n.toNat = k) (inside : k ≤ text.length) :
      nonzeroAt (text ++ 0 :: rest) n = decide (k < text.length) := by
    obtain rfl := here
    rw [nonzeroAt, decide_eq_decide]
    by_cases early : n.toNat < text.length
    · have char : text[n.toNat] ≠ 0 := fun zero => noZero (zero ▸ List.getElem_mem early)
      simp [List.getElem?_append_left early, char, early]
    · obtain same : n.toNat = text.length := by omega
      simp [same]
  have turn (k : ℕ) (n : UInt32) (here : n.toNat = k) (inside : k < text.length) :
      ∃ next, countTurn (text ++ 0 :: rest) n = some next ∧ next.toNat = k + 1 := by
    obtain rfl := here
    refine ⟨n + 1,?_,index_toNat n 1 (by omega)⟩
    simp [countTurn, List.getElem?_append_left inside, List.getElem?_eq_getElem inside]
  obtain ⟨last,loop,done⟩ := loop_counts (fun k (n : UInt32) => n.toNat = k) text.length goes turn
    UInt32.toNat_zero
  have stops : last = UInt32.ofNat text.length := by rw [← done, UInt32.ofNat_toNat]
  exact loopWithin_eq_some_iff.mpr ⟨text.length,by simp,stops ▸ loop⟩

/-- Both overloads read the same from a text that a zero ends. -/
theorem decodeBase64Terminated_eq (base : Block m UInt8) (noZero : 0 ∉ text)
    (fits : text.length < UInt32.size) (rest : List UInt8) :
    decodeBase64Terminated (text ++ 0 :: rest) base =
      decodeBase64 (text ++ 0 :: rest) (UInt32.ofNat text.length) base := by
  rw [decodeBase64Terminated, terminated_eq noZero fits]
  rfl

theorem encodeBase64Length_toNat (n : UInt32) (fits : (n.toNat + 2) / 3 * 4 < UInt32.size) :
    (encodeBase64Length n).toNat = (n.toNat + 2) / 3 * 4 := by
  have size : UInt32.size = 4294967296 := rfl
  have two : (2 : UInt32).toNat = 2 := rfl
  have three : (3 : UInt32).toNat = 3 := rfl
  have four : (4 : UInt32).toNat = 4 := rfl
  have sum : (n.toNat + 2) % 2 ^ 32 = n.toNat + 2 := Nat.mod_eq_of_lt (by omega)
  rw [encodeBase64Length, UInt32.toNat_mul, UInt32.toNat_div, UInt32.toNat_add, two, three, four, sum]
  exact Nat.mod_eq_of_lt fits

/-- The encoder writes the text and a zero, into any array that has the room. -/
def EncodesTo (bytes text : List UInt8) : Prop :=
  ∀ m (output : Block m UInt8), text.length < m →
    encodeBase64 bytes (UInt32.ofNat bytes.length) output =
      some (output.overlay 0 (text ++ [0]),UInt32.ofNat text.length)

/-- Both decoders write the bytes, whatever comes after the text. -/
def DecodesTo (text bytes : List UInt8) : Prop :=
  ∀ m (output : Block m UInt8) rest, bytes.length ≤ m →
    decodeBase64 (text ++ rest) (UInt32.ofNat text.length) output =
      some (output.overlay 0 bytes,UInt32.ofNat bytes.length) ∧
    decodeBase64Terminated (text ++ 0 :: rest) output =
      some (output.overlay 0 bytes,UInt32.ofNat bytes.length)

theorem encodesTo (bytes : List UInt8) (fits : (bytes.length + 2) / 3 * 4 < UInt32.size) :
    EncodesTo bytes (encodeText base64 bytes) := by
  intro m output room
  have size : UInt32.size = 4294967296 := rfl
  rw [encodeText_length] at room
  exact encodeBase64_eq output (UInt32.toNat_ofNat_of_lt' (by omega)).symm fits room

theorem decodesTo (canonical : Canonical base64 text) (fits : text.length < UInt32.size) :
    DecodesTo text (decodeText base64 text) := by
  intro m output rest room
  have decoded := decodeBase64_eq output (UInt32.toNat_ofNat_of_lt' fits).symm room
  refine ⟨decoded rest,?_⟩
  rw [decodeBase64Terminated_eq output (zero_not_mem canonical) fits]
  exact decoded (0 :: rest)

/-- Bytes whose text is not too long and canonical text are the same thing, written and read
by these functions. -/
theorem base64_bijection :
    (∀ bytes : List UInt8, (bytes.length + 2) / 3 * 4 < UInt32.size →
      ∃ text, Canonical base64 text ∧
        text.length = (encodeBase64Length (UInt32.ofNat bytes.length)).toNat ∧
        EncodesTo bytes text ∧ DecodesTo text bytes) ∧
    ∀ text, Canonical base64 text → text.length < UInt32.size →
      ∃ bytes, DecodesTo text bytes ∧ EncodesTo bytes text := by
  have size : UInt32.size = 4294967296 := rfl
  constructor
  · intro bytes fits
    have whole : bytes.length = (UInt32.ofNat bytes.length).toNat :=
      (UInt32.toNat_ofNat_of_lt' (by omega)).symm
    have length := encodeText_length (A := base64) bytes
    have canonical := (encodeText_grouped (A := base64) bytes).canonical
    have decodes := decodesTo canonical (length ▸ fits)
    rw [decode_encode] at decodes
    refine ⟨_,canonical,?_,encodesTo bytes fits,decodes⟩
    rw [encodeBase64Length_toNat _ (whole ▸ fits), length, ← whole]
  · intro text canonical fits
    have same := encode_decode canonical
    have encodes := encodesTo (decodeText base64 text) (by rw [← encodeText_length, same]; exact fits)
    rw [same] at encodes
    exact ⟨_,decodesTo canonical fits,encodes⟩

theorem base64_bijection_short :
    (∃ text, text.length = 4 ∧ EncodesTo [72,105] text ∧ DecodesTo text [72,105]) ∧
      ∃ bytes, DecodesTo [81,85,73,61] bytes ∧ EncodesTo bytes [81,85,73,61] := by
  have canonical : Canonical base64 [81,85,73,61] :=
    (Grouped.two (A := base64) 16 20 8 (by decide) (by decide) (by decide) (by decide)).canonical
  obtain ⟨text,_,length,encodes,decodes⟩ := base64_bijection.1 [72,105] (by decide)
  exact ⟨⟨text,length,encodes,decodes⟩,base64_bijection.2 _ canonical (by decide)⟩

end Meshcore
