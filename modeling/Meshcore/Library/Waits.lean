import Meshcore.Library.Blocks
import Meshcore.Library.Checked

/-! Loops without a bound on their turns, and waits among them: a wait goes on until a
clock has run for so long, and the clock wraps. It ends because each turn moves the
clock, by the same amount, which may not overshoot a whole turn of the clock. -/
namespace Waits

open Blocks Checked

universe u
variable {σ : Type u}

/-- `while (cond(s)) body(s)`: after so many turns it is left, or the next turn faults. -/
inductive Loop (cond : σ → Bool) (body : σ → Option σ) : ℕ → σ → Option σ → Prop where
  | leave (stops : cond s = false) : Loop cond body 0 s (some s)
  | fault (goes : cond s = true) (faults : body s = none) : Loop cond body 0 s none
  | turn (goes : cond s = true) (took : body s = some next)
      (rest : Loop cond body turns next out) : Loop cond body (turns + 1) s out

variable {cond : σ → Bool} {body : σ → Option σ} {s s' : σ}

/-- A loop ends in one way at most. -/
theorem loop_unique (first : Loop cond body turns s out) (second : Loop cond body turns' s out') :
    turns = turns' ∧ out = out' := by
  induction first generalizing turns' out' with
  | leave stops =>
    cases second with
    | leave => exact ⟨rfl,rfl⟩
    | fault goes | turn goes => simp [stops] at goes
  | fault goes faults =>
    cases second with
    | leave stops => simp [stops] at goes
    | fault => exact ⟨rfl,rfl⟩
    | turn _ took => simp [faults] at took
  | turn goes took rest ih =>
    cases second with
    | leave stops => simp [stops] at goes
    | fault _ faults => simp [faults] at took
    | turn _ took' rest' =>
      obtain rfl := Option.some.inj (took.symm.trans took')
      obtain ⟨rfl,rfl⟩ := ih rest'
      exact ⟨rfl,rfl⟩

/-- A condition that holds for so many turns and no longer makes a loop of so many turns,
of which one may fault. -/
theorem loop_of_turns (count : ℕ) (goes : ∀ k g, k ≤ count → repeated body k s = some g →
    cond g = decide (k < count)) : match repeated body count s with
    | some s' => Loop cond body count s (some s')
    | none => ∃ turns < count, Loop cond body turns s none := by
  induction count generalizing s with
  | zero => exact .leave (by simpa using goes 0 s le_rfl rfl)
  | succ count ih =>
    have enters : cond s = true := by simpa using goes 0 s (Nat.zero_le _) rfl
    rw [repeated]
    cases took : body s with
    | none => exact ⟨0,Nat.succ_pos _,.fault enters took⟩
    | some next =>
      have later := ih (s := next) fun k g within ran => by
        have ahead := goes (k + 1) g (Nat.succ_le_succ within) (by rw [repeated, took]; exact ran)
        simpa using ahead
      rw [Option.bind_some]
      cases ran : repeated body count next with
      | some last =>
        rw [ran] at later
        exact .turn enters took later
      | none =>
        rw [ran] at later
        obtain ⟨turns,fewer,rest⟩ := later
        exact ⟨turns + 1,Nat.succ_lt_succ fewer,.turn enters took rest⟩

/-- The loop with so many turns to spend, without a result when they do not do. -/
def loopWithin (cond : σ → Bool) (body : σ → Option σ) : ℕ → σ → Option σ
  | 0, s => if cond s then none else some s
  | fuel + 1, s => if cond s then (body s).bind (loopWithin cond body fuel) else some s

theorem loopWithin_eq_some_iff : loopWithin cond body fuel s = some last ↔
    ∃ turns, turns ≤ fuel ∧ Loop cond body turns s (some last) := by
  constructor
  · intro ran
    induction fuel generalizing s with
    | zero =>
      cases test : cond s with
      | true => simp [loopWithin, test] at ran
      | false =>
        rw [loopWithin, test] at ran
        obtain rfl := Option.some.inj ran
        exact ⟨0,le_rfl,.leave test⟩
    | succ fuel ih =>
      cases test : cond s with
      | true =>
        rw [loopWithin, test, if_pos rfl] at ran
        obtain ⟨next,took,rest⟩ := Option.bind_eq_some_iff.mp ran
        obtain ⟨turns,within,loop⟩ := ih rest
        exact ⟨turns + 1,Nat.succ_le_succ within,.turn test took loop⟩
      | false =>
        rw [loopWithin, test] at ran
        obtain rfl := Option.some.inj ran
        exact ⟨0,Nat.zero_le _,.leave test⟩
  · rintro ⟨turns,within,loop⟩
    induction fuel generalizing s turns with
    | zero =>
      cases loop with
      | leave stops => simp [loopWithin, stops]
      | turn => omega
    | succ fuel ih =>
      cases loop with
      | leave stops => simp [loopWithin, stops]
      | turn goes took rest =>
        rw [loopWithin, if_pos goes, took, Option.bind_some]
        exact ih _ (by omega) rest

/-- What each turn takes from one count to the next is reached at every count. -/
theorem repeated_counts (inv : ℕ → σ → Prop) (count : ℕ)
    (turn : ∀ k s, inv k s → k < count → ∃ next, body s = some next ∧ inv (k + 1) next)
    (turns k : ℕ) (within : k + turns ≤ count) (here : inv k s) :
    ∃ last, repeated body turns s = some last ∧ inv (k + turns) last := by
  induction turns generalizing k s with
  | zero => exact ⟨s,rfl,here⟩
  | succ turns ih =>
    obtain ⟨next,took,there⟩ := turn k s here (by omega)
    obtain ⟨last,ran,done⟩ := ih (k + 1) (by omega) there
    refine ⟨last,by rw [repeated, took]; exact ran,?_⟩
    rwa [Nat.add_right_comm] at done

/-- The rule of a counted loop: it ends, and in what was reached at its last count. -/
theorem loop_counts (inv : ℕ → σ → Prop) (count : ℕ)
    (goes : ∀ k s, inv k s → k ≤ count → cond s = decide (k < count))
    (turn : ∀ k s, inv k s → k < count → ∃ next, body s = some next ∧ inv (k + 1) next)
    (entry : inv 0 s) : ∃ last, Loop cond body count s (some last) ∧ inv count last := by
  have reached (k : ℕ) (within : k ≤ count) :=
    repeated_counts inv count turn k 0 (by omega) entry
  simp only [Nat.zero_add] at reached
  obtain ⟨last,ran,done⟩ := reached count le_rfl
  have loop := @loop_of_turns _ cond body s count fun k g within here => by
    obtain ⟨g',ran',there⟩ := reached k within
    obtain rfl := Option.some.inj (here.symm.trans ran')
    exact goes k g there within
  rw [ran] at loop
  exact ⟨last,loop,done⟩

section Clock

variable {w : ℕ} (clock : σ → BitVec w) {stride len : BitVec w}

theorem repeated_elapsed (advances : ∀ s s', body s = some s' → clock s' = clock s + stride)
    (turns : ℕ) (ran : repeated body turns s = some s') :
    clock s' - clock s = BitVec.ofNat w turns * stride := by
  rw [BitVec.sub_eq_iff_eq_add]
  induction turns generalizing s with
  | zero =>
    obtain rfl := Option.some.inj ran
    simp
  | succ turns ih =>
    obtain ⟨next,took,rest⟩ := Option.bind_eq_some_iff.mp ran
    rw [ih rest, advances s next took, ← BitVec.ofNat_add_ofNat, BitVec.add_mul, BitVec.one_mul]
    ac_rfl

/-- What the clock shows of a number of turns before it has gone round. -/
theorem elapsed_toNat (moves : 0 < stride.toNat) (room : len.toNat + stride.toNat ≤ 2 ^ w)
    (within : k ≤ blocks stride.toNat len.toNat) :
    (BitVec.ofNat w k * stride).toNat = k * stride.toNat ∧
      k * stride.toNat < len.toNat + stride.toNat := by
  have short : k * stride.toNat < len.toNat + stride.toNat := by
    cases k with
    | zero =>
      rw [Nat.zero_mul]
      exact Nat.add_pos_right _ moves
    | succ k =>
      have before := (lt_blocks_iff moves k).mp within
      rw [Nat.succ_mul]
      exact Nat.add_lt_add_right (by exact_mod_cast before) _
  refine ⟨?_,short⟩
  rw [BitVec.toNat_mul, BitVec.toNat_ofNat, Nat.mod_mul_mod]
  exact Nat.mod_eq_of_lt (short.trans_le room)

/-- `while (clock() - start < len)`, entered at `start`: the loop takes as many turns as make
up the length, whether or not the clock wraps in the course of them. -/
theorem wait_ends (moves : 0 < stride.toNat) (room : len.toNat + stride.toNat ≤ 2 ^ w)
    (advances : ∀ s s', body s = some s' → clock s' = clock s + stride) (s : σ) :
    match repeated body (blocks stride.toNat len.toNat) s with
    | some s' => Loop (fun g => decide (clock g - clock s < len)) body
        (blocks stride.toNat len.toNat) s (some s')
    | none => ∃ turns < blocks stride.toNat len.toNat,
        Loop (fun g => decide (clock g - clock s < len)) body turns s none := by
  refine loop_of_turns _ fun k g within ran => ?_
  have elapsed := repeated_elapsed clock advances k ran
  rw [decide_eq_decide, elapsed, BitVec.lt_def, (elapsed_toNat moves room within).1,
    lt_blocks_iff moves]
  exact_mod_cast Iff.rfl

end Clock

end Waits
