import Meshcore.Airtime
import Meshcore.Library.Words
import Mathlib.Data.List.TakeWhile

/-! What the command line says: the options, the numbers in them as the C library reads
them, and the report of an airtime, which is made before anything is set up. -/
namespace Meshcore

open Words

/-- The white space `atoi`, `atof` and `strtoul` pass over. -/
def isspace (c : Char) : Bool := c == ' ' || ('\t' ≤ c && c ≤ '\r')

/-- A sign in front, and whether it is a minus. -/
def sign : List Char → Bool × List Char
  | '-' :: text => (true,text)
  | '+' :: text => (false,text)
  | text => (false,text)

/-- The whole number a text starts with, zero if it starts with none. -/
def numeral (text : List Char) : ℤ :=
  let (minus,text) := sign text
  let n := Nat.ofDigitChars 10 (text.takeWhile Char.isDigit) 0
  if minus then -n else n

/-- The same of an argument, after white space. -/
def integer (text : String) : ℤ := numeral (text.toList.dropWhile isspace)

theorem sign_digit (digit : c.isDigit) : sign (c :: text) = (false,c :: text) := by
  have unlike {d : Char} (other : d.isDigit = false) : c ≠ d := by
    rintro rfl
    exact absurd digit (by simp [other])
  simp [sign, unlike (d := '-') rfl, unlike (d := '+') rfl]

theorem isspace_digit (digit : c.isDigit) : isspace c = false := by
  have low := (Char.isDigit_iff_toNat.mp digit).1
  have blank : c ≠ ' ' := by
    rintro rfl
    cases digit
  have beyond : ¬c ≤ '\r' := by
    rw [Char.le_def, UInt32.le_iff_toNat_le]
    exact fun most => absurd (low.trans most) (by decide)
  simp [isspace, blank, beyond]

/-- A number as it is written. -/
theorem integer_repr (n : ℕ) : integer n.repr = n := by
  have digits : ∀ c ∈ Nat.toDigits 10 n, c.isDigit := fun c =>
    Nat.isDigit_of_mem_toDigits (by decide) (by decide)
  rw [integer, Nat.toList_repr]
  have value := Nat.ofDigitChars_ten_toDigits (n := n)
  cases text : Nat.toDigits 10 n with
  | nil => exact absurd text Nat.toDigits_ne_nil
  | cons c cs =>
    rw [text] at digits value
    have first := digits c List.mem_cons_self
    rw [List.dropWhile_cons_of_neg (by simp [isspace_digit first])]
    simp only [numeral, sign_digit first]
    rw [List.takeWhile_eq_self_iff.mpr digits, value]
    rfl

/-- Undefined for a number beyond `int`. -/
def atoi (text : String) : Option ℤ :=
  let n := integer text
  if -2147483648 ≤ n ∧ n ≤ 2147483647 then some n else none

/-- In base ten, for an `unsigned long` of 64 bits: a minus negates what fits. -/
def strtoul (text : String) : UInt64 :=
  let (minus,text) := sign (text.toList.dropWhile isspace)
  let n := Nat.ofDigitChars 10 (text.takeWhile Char.isDigit) 0
  if n < UInt64.size then if minus then -UInt64.ofNat n else .ofNat n else -1

def isxdigit (c : Char) : Bool := c.isDigit || ('a' ≤ c.toLower && c.toLower ≤ 'f')

def xdigit (c : Char) : ℕ :=
  if c.isDigit then c.toNat - '0'.toNat else c.toLower.toNat - 'a'.toNat + 10

/-- Digits with a point among them, and a power of `radix` after the `mark`. -/
def magnitude (base radix : ℕ) (digit : Char → Bool) (mark : Char) (text : List Char) : ℚ :=
  let whole := text.takeWhile digit
  let rest := text.dropWhile digit
  let (part,rest) := match rest with
    | '.' :: rest => (rest.takeWhile digit,rest.dropWhile digit)
    | rest => ([],rest)
  let exponent := match rest with
    | c :: rest => if c.toLower = mark then numeral rest else 0
    | [] => 0
  let digits := (whole ++ part).foldl (fun n c => base * n + xdigit c) 0
  let significand := (digits : ℚ) / (base ^ part.length : ℕ)
  if 0 ≤ exponent then significand * (radix ^ exponent.toNat : ℕ)
  else significand / (radix ^ (-exponent).toNat : ℕ)

/-- The number exactly; infinity and what is no number at all are none. -/
def atof (text : String) : Option ℚ :=
  let (minus,text) := sign (text.toList.dropWhile isspace)
  let word := (text.take 3).map Char.toLower
  if word = ['i','n','f'] ∨ word = ['n','a','n'] then none
  else
    let x := match text with
      | '0' :: c :: text =>
        if c.toLower = 'x' then magnitude 16 2 isxdigit 'p' text
        else magnitude 10 10 Char.isDigit 'e' ('0' :: c :: text)
      | text => magnitude 10 10 Char.isDigit 'e' text
    some (if minus then -x else x)

/-- What the options set: two variables of `main`, and `g_identity_seed`, `g_sf`, `g_bwKHz`,
`g_cr` and `g_stuck_irq_ms`. -/
structure Options where
  bridge : String := ""
  printAirtimeFor : ℤ := -1
  identitySeed : UInt32 := 4417
  sf : ℤ := 10
  bwKHz : ℚ := 250
  cr : ℤ := 1
  stuckIrqMs : ℤ := 0
  deriving DecidableEq

namespace Options

/-- What an argument does with the value after it, none for one that takes no value. -/
def option? (arg : String) : Option (Options → String → Option Options) :=
  if arg = "--bridge" then some fun s next => some { s with bridge := next }
  else if arg = "--seed" then
    some fun s next => some { s with identitySeed := (strtoul next).toUInt32 }
  else if arg = "--sf" then some fun s next => (atoi next).map ({ s with sf := · })
  else if arg = "--bw-khz" then some fun s next => (atof next).map ({ s with bwKHz := · })
  else if arg = "--cr" then some fun s next => (atoi next).map ({ s with cr := · })
  else if arg = "--stuck-irq-ms" then
    some fun s next => (atoi next).map ({ s with stuckIrqMs := · })
  else if arg = "--print-airtime" then
    some fun s next => (atoi next).map ({ s with printAirtimeFor := · })
  else none

/-- The loop over `argv`. An option at its end has an empty value. -/
def parse (s : Options) : List String → Option Options
  | [] => some s
  | arg :: rest =>
    match option? arg, rest with
    | none, rest => parse s rest
    | some set, [] => set s ""
    | some set, next :: rest => (set s next).bind (parse · rest)

end Options

/-- A conversion to `uint32_t`, undefined for what the type does not hold. -/
def toUInt32? (x : ℚ) : Option UInt32 :=
  let whole := x.num.tdiv x.den
  if 0 ≤ whole ∧ whole < UInt32.size then some (.ofInt whole) else none

namespace Options

variable {set : Options → String → Option Options}

theorem parse_option {name : String} (known : option? name = some set) (s : Options) :
    parse s (name :: next :: rest) = (set s next).bind (parse · rest) := by
  simp [parse, known]

theorem option?_sf : option? "--sf" =
    some fun s next => (atoi next).map ({ s with sf := · }) := by
  simp [option?]

theorem option?_bwKHz : option? "--bw-khz" =
    some fun s next => (atof next).map ({ s with bwKHz := · }) := by
  simp [option?]

theorem option?_cr : option? "--cr" =
    some fun s next => (atoi next).map ({ s with cr := · }) := by
  simp [option?]

theorem option?_printAirtime : option? "--print-airtime" =
    some fun s next => (atoi next).map ({ s with printAirtimeFor := · }) := by
  simp [option?]

/-- Options with a value each, in the order they stand. -/
def commandLine (order : List (String × String)) : List String :=
  order.flatMap fun p => [p.1,p.2]

/-- An option that is understood and leaves alone what is asked for. -/
def Aside (p : String × String) : Prop :=
  ∃ set, option? p.1 = some set ∧
    ∀ s, ∃ s', set s p.2 = some s' ∧ s'.printAirtimeFor = s.printAirtimeFor

theorem aside_sf (read : atoi text = some n) : Aside ("--sf",text) :=
  ⟨_,option?_sf,fun s => ⟨{ s with sf := n },by rw [read]; rfl,rfl⟩⟩

theorem aside_bwKHz (read : atof text = some x) : Aside ("--bw-khz",text) :=
  ⟨_,option?_bwKHz,fun s => ⟨{ s with bwKHz := x },by rw [read]; rfl,rfl⟩⟩

theorem aside_cr (read : atoi text = some n) : Aside ("--cr",text) :=
  ⟨_,option?_cr,fun s => ⟨{ s with cr := n },by rw [read]; rfl,rfl⟩⟩

theorem not_aside (text : String) : ¬Aside ("--print-airtime",text) := by
  rintro ⟨set,known,aside⟩
  obtain rfl := Option.some.inj (option?_printAirtime.symm.trans known)
  have same (s : Options) : ∃ n, atoi text = some n ∧ n = s.printAirtimeFor := by
    obtain ⟨s',assigned,same⟩ := aside s
    obtain ⟨n,read,rfl⟩ := Option.map_eq_some_iff.mp assigned
    exact ⟨n,read,same⟩
  obtain ⟨n,read,zero⟩ := same { printAirtimeFor := 0 }
  obtain ⟨m,again,one⟩ := same { printAirtimeFor := 1 }
  cases (zero.symm.trans (Option.some.inj (read.symm.trans again))).trans one

/-- Whatever stands beside it, the one length asked for is the one kept. -/
theorem parse_commandLine (s : Options)
    (beside : ∀ p ∈ order, p = ("--print-airtime",text) ∨ Aside p) :
    (parse s (commandLine order)).map (·.printAirtimeFor) =
      if ("--print-airtime",text) ∈ order then atoi text else some s.printAirtimeFor := by
  induction order generalizing s with
  | nil => rfl
  | cons p order ih =>
    obtain ⟨here,later⟩ := List.forall_mem_cons.mp beside
    rcases here with rfl | ⟨set,known,aside⟩
    · rw [if_pos List.mem_cons_self]
      refine Eq.trans (congrArg _ (parse_option option?_printAirtime s)) ?_
      cases read : atoi text with
      | none => rfl
      | some n =>
        have kept := ih { s with printAirtimeFor := n } later
        rw [read, ite_self] at kept
        exact kept
    · obtain ⟨s',assigned,same⟩ := aside s
      refine Eq.trans (congrArg _ (parse_option known s)) ?_
      rw [assigned, Option.bind_some]
      refine (ih s' later).trans ?_
      have other : ("--print-airtime",text) ≠ p := by
        rintro rfl
        exact not_aside text ⟨set,known,aside⟩
      simp [other, same]

end Options

namespace Chip

/-- `t * 1000.0 + 0.5` of `estAirtimeMs`. -/
def airtimeMs (c : Chip) (lenBytes : ℤ) : ℚ :=
  let bwHz := c.bwKHz * 1000
  let tSym := (((1 : UInt32) <<< UInt32.ofNat c.sf).toNat : ℚ) / bwHz
  let t := (c.preambleSyms.toNat + 425 / 100 + c.payloadSyms lenBytes) * tSym
  t * 1000 + 1 / 2

/-- `estAirtimeMs` where its conversion is defined. -/
def estAirtimeMs? (c : Chip) (lenBytes : ℤ) : Option UInt32 := toUInt32? (c.airtimeMs lenBytes)

theorem estAirtimeMs_eq (defined : estAirtimeMs? c len = some ms) : c.estAirtimeMs len = ms := by
  rw [estAirtimeMs?, toUInt32?, Option.ite_none_right_eq_some] at defined
  exact Option.some.inj defined.2

end Chip

/-- Where the command line leads: a report, the usage text, or the simulator. -/
inductive Start where
  | report (ms : UInt32)
  | usage
  | connect (o : Options)
  deriving DecidableEq

/-- `main` up to its connection. The chip is as its constructor left it, with the fault
period of the build. -/
def main (stuckIrqMs : UInt32) (args : List String) : Option Start := do
  let o ← Options.parse {} args
  if 0 ≤ o.printAirtimeFor then
    some (.report (← (Chip.new stuckIrqMs).estAirtimeMs? o.printAirtimeFor))
  else if o.bridge = "" then some .usage
  else some (.connect o)

theorem toUInt32?_eq_some (positive : 0 ≤ x) : toUInt32? x = some ms ↔ ⌊x⌋ = ms.toNat := by
  have whole : x.num.tdiv x.den = ⌊x⌋ := by
    rw [Rat.floor_def', Int.tdiv_eq_ediv_of_nonneg (Rat.num_nonneg.mpr positive)]
  obtain ⟨n,same⟩ := Int.eq_ofNat_of_zero_le (Int.floor_nonneg.mpr positive)
  rw [toUInt32?, whole, same, ofInt_natCast, Option.ite_none_right_eq_some, Option.some.injEq, Nat.cast_inj]
  constructor
  · rintro ⟨⟨_,high⟩,rfl⟩
    exact (UInt32.toNat_ofNat_of_lt (by exact_mod_cast high)).symm
  · rintro rfl
    exact ⟨⟨Int.natCast_nonneg _,by exact_mod_cast ms.toNat_lt⟩,UInt32.ofNat_toNat⟩

/-- Two conversions with one result. -/
theorem toUInt32?_agree_iff (left : 0 ≤ x) (right : 0 ≤ y) :
    (∃ ms, toUInt32? x = some ms ∧ toUInt32? y = some ms) ↔ ⌊y⌋ = ⌊x⌋ ∧ ⌊x⌋ < UInt32.size := by
  simp only [toUInt32?_eq_some left, toUInt32?_eq_some right]
  constructor
  · rintro ⟨ms,same,again⟩
    rw [same, again]
    exact ⟨rfl,by exact_mod_cast ms.toNat_lt⟩
  · rintro ⟨same,small⟩
    obtain ⟨n,whole⟩ := Int.eq_ofNat_of_zero_le (Int.floor_nonneg.mpr left)
    rw [whole] at same small
    have kept : (UInt32.ofNat n).toNat = n :=
      UInt32.toNat_ofNat_of_lt' (by exact_mod_cast small)
    exact ⟨.ofNat n,by rw [whole, kept],by rw [same, kept]⟩

open Options in
/-- The report answers what was asked, and nothing else on the line changes it. -/
theorem main_commandLine (stuckIrqMs : UInt32)
    (beside : ∀ p ∈ order, p = ("--print-airtime",text) ∨ Aside p)
    (asked : ("--print-airtime",text) ∈ order) (positive : 0 ≤ integer text) :
    main stuckIrqMs (commandLine order) = (atoi text).bind fun len =>
      ((Chip.new stuckIrqMs).estAirtimeMs? len).map .report := by
  have parsed := parse_commandLine {} beside
  rw [if_pos asked] at parsed
  rw [main, ← parsed]
  cases left : parse {} (commandLine order) with
  | none => rfl
  | some o =>
    rw [left, atoi] at parsed
    obtain ⟨_,same⟩ := Option.ite_none_right_eq_some.mp parsed.symm
    have asked : 0 ≤ o.printAirtimeFor := positive.trans_eq (Option.some.inj same)
    refine (if_pos asked).trans ?_
    rw [Option.map_some, Option.bind_some]
    cases (Chip.new stuckIrqMs).estAirtimeMs? o.printAirtimeFor <;> rfl

/-- The settings that come with it, in whatever order, make no difference. -/
theorem main_settings (stuckIrqMs : UInt32) (sfRead : atoi sfText = some sf)
    (bwRead : atof bwText = some bwKHz) (crRead : atoi crText = some cr)
    (given : List.Perm order
      [("--sf",sfText),("--bw-khz",bwText),("--cr",crText),("--print-airtime",lenText)])
    (positive : 0 ≤ integer lenText) :
    main stuckIrqMs (Options.commandLine order) = (atoi lenText).bind fun len =>
      ((Chip.new stuckIrqMs).estAirtimeMs? len).map .report := by
  have beside : ∀ p ∈ order, p = ("--print-airtime",lenText) ∨ Options.Aside p := by
    intro p inside
    have inside := given.mem_iff.mp inside
    simp only [List.mem_cons, List.not_mem_nil, or_false] at inside
    rcases inside with rfl | rfl | rfl | rfl
    · exact .inr (Options.aside_sf sfRead)
    · exact .inr (Options.aside_bwKHz bwRead)
    · exact .inr (Options.aside_cr crRead)
    · exact .inl rfl
  have asked : ("--print-airtime",lenText) ∈ order := given.mem_iff.mpr (by simp)
  exact main_commandLine stuckIrqMs beside asked positive

/-- Asked for alone, in the digits it is written with. -/
theorem main_printAirtime (stuckIrqMs : UInt32) (len : ℕ) (small : len ≤ 2147483647) :
    main stuckIrqMs ["--print-airtime",len.repr] =
      ((Chip.new stuckIrqMs).estAirtimeMs? len).map .report := by
  have read := integer_repr len
  have asked := List.mem_singleton_self ("--print-airtime",len.repr)
  have reported := main_commandLine stuckIrqMs (by simp) asked (by omega)
  refine reported.trans ?_
  rw [atoi, read, if_pos ⟨by omega,by omega⟩, Option.bind_some]

end Meshcore
