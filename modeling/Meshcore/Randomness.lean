import Mathlib.Data.UInt
import Meshcore.Library.Generators

/-! Where a node's random numbers come from. The platform's generator, which the
application seeds, never comes to rest but from the one seed it rests at. The generator
of identities, which the simulator seeds, tells any two seeds apart but the default and
the zero that stands for it. -/
namespace Meshcore

open Generators Function

/-- The state of the platform's generator before anything seeds it. -/
def hostRandomState : UInt64 := 0x9E3779B97F4A7C15

/-- The state that seeding leaves, on a platform whose `unsigned long` has 64 bits. -/
def randomSeed (seed : UInt64) : UInt64 := seed * 0x2545F4914F6CDD1D + 0x9E3779B97F4A7C15

/-- The state after a call and what the call returns. -/
def hostRandom (state : UInt64) : UInt64 × Int64 :=
  let x := state ^^^ (state >>> 12)
  let x := x ^^^ (x <<< 25)
  let x := x ^^^ (x >>> 27)
  (x,((x * 0x2545F4914F6CDD1D) >>> 33).toInt64)

/-- The state that seeding and a number of calls leave. -/
def hostStateAfter (seed : UInt64) (calls : ℕ) : UInt64 :=
  (fun state => (hostRandom state).1)^[calls] (randomSeed seed)

/-- The seed that seeding takes to zero. -/
def restingSeed : UInt64 := 0x53A068EFBDC17EA7

theorem xor_shiftRight_injective (k : UInt64) (moved : 0 < k.toNat % 64) :
    Injective fun x : UInt64 => x ^^^ (x >>> k) := by
  intro x y same
  apply UInt64.toBitVec_inj.mp
  apply xorRight_injective moved
  simpa using congrArg UInt64.toBitVec same

theorem xor_shiftLeft_injective (k : UInt64) (moved : 0 < k.toNat % 64) :
    Injective fun x : UInt64 => x ^^^ (x <<< k) := by
  intro x y same
  apply UInt64.toBitVec_inj.mp
  apply xorLeft_injective moved
  simpa using congrArg UInt64.toBitVec same

/-- A call takes no two states to one. -/
theorem hostRandom_injective : Injective fun state => (hostRandom state).1 := by
  have first := xor_shiftRight_injective 12 (by decide)
  have second := xor_shiftLeft_injective 25 (by decide)
  have third := xor_shiftRight_injective 27 (by decide)
  exact third.comp (second.comp first)

theorem hostRandom_eq_zero_iff (state : UInt64) : (hostRandom state).1 = 0 ↔ state = 0 :=
  hostRandom_injective.eq_iff (b := 0)

theorem randomSeed_eq_zero_iff (seed : UInt64) : randomSeed seed = 0 ↔ seed = restingSeed := by
  have inverse : (0x2545F4914F6CDD1D : UInt64) * 0x59071D96D81ECD35 = 1 := by decide
  rw [randomSeed, restingSeed]
  grind

theorem hostStateAfter_eq_zero_iff (seed : UInt64) (calls : ℕ) :
    hostStateAfter seed calls = 0 ↔ seed = restingSeed := by
  induction calls with
  | zero => exact randomSeed_eq_zero_iff seed
  | succ calls ih =>
    rw [hostStateAfter, iterate_succ_apply', hostRandom_eq_zero_iff]
    exact ih

/-- The generator keeps moving from every seed but one. -/
theorem hostStateAfter_ne_zero_iff (seed : UInt64) :
    (∀ calls, hostStateAfter seed calls ≠ 0) ↔ seed ≠ restingSeed := by
  simp [hostStateAfter_eq_zero_iff]

theorem restingSeed_stops : ¬∀ seed calls, hostStateAfter seed calls ≠ 0 :=
  fun moving => moving restingSeed 0 (by decide)

/-- From the one seed every call returns the same. -/
theorem hostRandom_resting (calls : ℕ) : (hostRandom (hostStateAfter restingSeed calls)).2 = 0 := by
  rw [(hostStateAfter_eq_zero_iff restingSeed calls).mpr rfl]
  rfl

/-- No seed of 32 bits is that one. -/
theorem randomSeed_small (seed : UInt64) (small : seed.toNat < UInt32.size) : seed ≠ restingSeed := by
  rintro rfl
  exact absurd small (by decide)

/-- What the application does with the generator. -/
inductive RandomCall where
  | randomSeed (seed : UInt64)
  | random
  deriving DecidableEq

def RandomCall.after (state : UInt64) : RandomCall → UInt64
  | .randomSeed seed => Meshcore.randomSeed seed
  | .random => (hostRandom state).1

/-- Whatever the order of seeding and drawing. -/
theorem randomCalls_ne_zero (calls : List RandomCall) (others : .randomSeed restingSeed ∉ calls) :
    calls.foldl RandomCall.after hostRandomState ≠ 0 := by
  induction calls using List.reverseRecOn with
  | nil => decide
  | append_singleton calls last ih =>
    rw [List.mem_append, not_or, List.mem_singleton] at others
    rw [List.foldl_concat]
    cases last with
    | randomSeed seed =>
      have other : seed ≠ restingSeed := fun same => others.2 (same ▸ rfl)
      exact mt (randomSeed_eq_zero_iff seed).mp other
    | random => exact mt (hostRandom_eq_zero_iff _).mp (ih others.1)

/-- The generator of identities. -/
structure HostRNG where
  state_ : UInt64
  deriving DecidableEq

namespace HostRNG

def new (seed : UInt64) : HostRNG := ⟨if seed ≠ 0 then seed else 4417⟩

/-- One turn of the loop: the byte it writes and the generator it leaves. -/
def turn (rng : HostRNG) : UInt8 × HostRNG :=
  let state := rng.state_ * 6364136223846793005 + 1442695040888963407
  ((state >>> 33).toUInt8,⟨state⟩)

/-- The bytes written to the destination, in order. -/
def random (rng : HostRNG) : ℕ → List UInt8 × HostRNG
  | 0 => ([],rng)
  | sz + 1 =>
    let rest := rng.turn.2.random sz
    (rng.turn.1 :: rest.1,rest.2)

/-- The bytes the generator would give if it were asked for ever. -/
def stream (rng : HostRNG) (i : ℕ) : UInt8 := ((fun rng => rng.turn.2)^[i] rng).turn.1

theorem stream_turn (rng : HostRNG) (i : ℕ) : rng.turn.2.stream i = rng.stream (i + 1) := by
  rw [stream, stream, iterate_succ_apply]

/-- However the calls slice it, what they write is the stream from its beginning. -/
theorem random_eq (rng : HostRNG) (sz : ℕ) :
    rng.random sz = ((List.range sz).map rng.stream,(fun rng => rng.turn.2)^[sz] rng) := by
  induction sz generalizing rng with
  | zero => rfl
  | succ sz ih =>
    have later : (List.range sz).map rng.turn.2.stream =
        (List.range sz).map fun i => rng.stream (i + 1) :=
      List.map_congr_left fun i _ => rng.stream_turn i
    rw [random, ih, later, List.range_succ_eq_map, List.map_cons, List.map_map, iterate_succ_apply]
    rfl

theorem iterate_toNat (rng : HostRNG) (n : ℕ) :
    ((fun rng => rng.turn.2)^[n] rng).state_.toNat =
      (advance 6364136223846793005 1442695040888963407 (2 ^ 64))^[n] rng.state_.toNat := by
  induction n with
  | zero => simp only [iterate_zero_apply]
  | succ n ih =>
    rw [iterate_succ_apply', iterate_succ_apply', ← ih]
    generalize (fun rng : HostRNG => rng.turn.2)^[n] rng = here
    have multiplier : (6364136223846793005 : UInt64).toNat = 6364136223846793005 := by decide
    have increment : (1442695040888963407 : UInt64).toNat = 1442695040888963407 := by decide
    change (here.state_ * 6364136223846793005 + 1442695040888963407).toNat = _
    rw [UInt64.toNat_add, UInt64.toNat_mul, multiplier, increment, Nat.mod_add_mod, advance,
      Nat.mul_comm]

/-- A byte of the stream is eight bits of the state it is drawn in. -/
theorem stream_toNat (rng : HostRNG) (i : ℕ) :
    (rng.stream i).toNat = ((fun rng => rng.turn.2)^[i + 1] rng).state_.toNat / 2 ^ 33 % 2 ^ 8 := by
  rw [iterate_succ_apply', stream]
  generalize (fun rng : HostRNG => rng.turn.2)^[i] rng = here
  simp [turn, Nat.shiftRight_eq_div_pow]

end HostRNG

/-- The bytes an identity is drawn from. -/
def identityStream (g_identity_seed : UInt32) : ℕ → UInt8 :=
  (HostRNG.new g_identity_seed.toUInt64).stream

/-- Zero stands for the default seed. -/
theorem identityStream_zero : identityStream 0 = identityStream 4417 := by
  have same : HostRNG.new (0 : UInt32).toUInt64 = HostRNG.new (4417 : UInt32).toUInt64 := by decide
  exact congrArg HostRNG.stream same

/-- The number an identity's generator starts from. -/
def effectiveSeed (g_identity_seed : UInt32) : ℕ :=
  if g_identity_seed.toNat = 0 then 4417 else g_identity_seed.toNat

theorem new_toNat (g_identity_seed : UInt32) :
    (HostRNG.new g_identity_seed.toUInt64).state_.toNat = effectiveSeed g_identity_seed := by
  have zero : g_identity_seed.toUInt64 = 0 ↔ g_identity_seed.toNat = 0 := by
    rw [← UInt64.toNat_inj]
    simp
  by_cases none : g_identity_seed.toNat = 0
  · simp [HostRNG.new, effectiveSeed, zero.mpr none, none]
  · simp [HostRNG.new, effectiveSeed, mt zero.mp none, none]

theorem effectiveSeed_lt (g_identity_seed : UInt32) : effectiveSeed g_identity_seed < 2 ^ 32 := by
  have := g_identity_seed.toNat_lt
  rw [effectiveSeed]
  split <;> omega

/-- The byte of the stream at a place, from the seed. -/
theorem identityStream_toNat (g_identity_seed : UInt32) (i : ℕ) :
    (identityStream g_identity_seed i).toNat =
      (advance 6364136223846793005 1442695040888963407 (2 ^ 64))^[i + 1]
        (effectiveSeed g_identity_seed) / 2 ^ 33 % 2 ^ 8 := by
  rw [identityStream, HostRNG.stream_toNat, HostRNG.iterate_toNat, new_toNat]

/-- Any two seeds are told apart, except the default and the zero that stands for it. -/
theorem identityStreams_differ_iff (first second : UInt32) :
    (∃ i, identityStream first i ≠ identityStream second i) ↔
      first ≠ second ∧ ¬(first = 0 ∧ second = 4417) ∧ ¬(first = 4417 ∧ second = 0) := by
  constructor
  · rintro ⟨i,differ⟩
    refine ⟨?_,?_,?_⟩
    · rintro rfl
      exact differ rfl
    · rintro ⟨rfl,rfl⟩
      exact differ (congrFun identityStream_zero i)
    · rintro ⟨rfl,rfl⟩
      exact differ (congrFun identityStream_zero i).symm
  · rintro ⟨ne,notDefault,notZero⟩
    have zero : (0 : UInt32).toNat = 0 := by decide
    have default : (4417 : UInt32).toNat = 4417 := by decide
    rw [← UInt32.toNat_inj, ← UInt32.toNat_inj, zero, default] at notDefault notZero
    rw [Ne, ← UInt32.toNat_inj] at ne
    have apart : effectiveSeed first ≠ effectiveSeed second := by
      rw [effectiveSeed, effectiveSeed]
      split <;> split <;> omega
    have near : |(effectiveSeed first : ℤ) - effectiveSeed second| < 2 ^ 33 := by
      have firstBound := effectiveSeed_lt first
      have secondBound := effectiveSeed_lt second
      rw [abs_lt]
      omega
    obtain ⟨n,later,differ⟩ := windows_differ 64 33 8 (a := 6364136223846793005)
      (c := 1442695040888963407) (by decide) (by decide) (by decide) apart near
    obtain ⟨i,rfl⟩ := Nat.exists_eq_add_of_lt later
    refine ⟨i,fun same => differ ?_⟩
    rw [Nat.zero_add, ← identityStream_toNat, ← identityStream_toNat, same]

theorem default_collides :
    ¬∀ first second, first ≠ second → ∃ i, identityStream first i ≠ identityStream second i := by
  intro apart
  obtain ⟨i,differ⟩ := apart 0 4417 (by decide)
  exact differ (congrFun identityStream_zero i)

end Meshcore
