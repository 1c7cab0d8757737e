import Mathlib.Data.List.Induction

/-! Times of which any two are a period apart. The next may be added once a period has
passed since the last, and of such times there are few. -/
namespace Pacing

/-- The times come in order, and any two of them are a period apart. -/
def Paced (period : ℕ) (times : List ℕ) : Prop := times.Pairwise fun a b => a + period ≤ b

variable {period t now : ℕ} {times : List ℕ}

theorem Paced.le_last (paced : Paced period times) (last : times.getLast? = some t) :
    ∀ a ∈ times, a ≤ t := by
  obtain ⟨earlier,rfl⟩ := List.getLast?_eq_some_iff.mp last
  intro a member
  rcases List.mem_append.mp member with before | same
  · have apart := (List.pairwise_append.mp paced).2.2 a before t (by simp)
    omega
  · exact Nat.le_of_eq (List.mem_singleton.mp same)

theorem Paced.concat (paced : Paced period times)
    (rests : ∀ last ∈ times.getLast?, last + period ≤ t) : Paced period (times ++ [t]) := by
  refine List.pairwise_append.mpr ⟨paced,List.pairwise_singleton _ _,fun a member b same => ?_⟩
  rw [List.mem_singleton.mp same]
  cases ends : times.getLast? with
  | none =>
    rw [List.getLast?_eq_none_iff] at ends
    simp [ends] at member
  | some last =>
    have before := paced.le_last ends a member
    have apart := rests last ends
    omega

/-- The first of the times is at zero at the earliest, and each of the others a period on. -/
theorem Paced.span (paced : Paced period times) (last : times.getLast? = some t) :
    (times.length - 1) * period ≤ t := by
  induction times using List.reverseRecOn generalizing t with
  | nil => cases last
  | append_singleton earlier b ih =>
    obtain rfl : b = t := by simpa using last
    obtain ⟨before,_,apart⟩ := List.pairwise_append.mp paced
    cases ends : earlier.getLast? with
    | none =>
      rw [List.getLast?_eq_none_iff] at ends
      simp [ends]
    | some a =>
      have spanned := ih before ends
      have member := List.mem_of_getLast? ends
      have next := apart a member b (by simp)
      have positive := List.length_pos_of_mem member
      have count : (earlier ++ [b]).length - 1 = (earlier.length - 1) + 1 := by
        simp
        omega
      rw [count, Nat.succ_mul]
      exact Nat.le_trans (Nat.add_le_add_right spanned _) next

/-- So many of them fit into the time there has been. -/
theorem Paced.length_le (paced : Paced period times) (positive : 0 < period)
    (past : ∀ a ∈ times, a ≤ now) : times.length ≤ now / period + 1 := by
  cases ends : times.getLast? with
  | none =>
    rw [List.getLast?_eq_none_iff] at ends
    simp [ends]
  | some t =>
    have spanned := Nat.le_trans (paced.span ends) (past t (List.mem_of_getLast? ends))
    have fits := (Nat.le_div_iff_mul_le positive).mpr spanned
    omega

end Pacing
