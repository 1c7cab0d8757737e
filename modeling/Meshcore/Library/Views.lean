import Mathlib.Data.List.Basic

/-! Requests served one after another on one state, each answered at once. What some of
the requests see of the state is a relation between states; where it says enough for
their answers, and the other requests keep to its other side, they are answered as if
they were alone. -/
namespace Views

universe u v w
variable {σ : Type u} {ε : Type v} {ρ : Type w}

/-- The requests with their answers, and the state after them. -/
def serve (step : σ → ε → σ × ρ) (s : σ) : List ε → σ × List (ε × ρ)
  | [] => (s,[])
  | e :: rest =>
    let later := serve step (step s e).1 rest
    (later.1,(e,(step s e).2) :: later.2)

variable {step : σ → ε → σ × ρ}

theorem serve_cons : serve step s (e :: rest) =
    ((serve step (step s e).1 rest).1,(e,(step s e).2) :: (serve step (step s e).1 rest).2) := rfl

/-- What is known of the state from the requests and their answers so far. -/
theorem serve_tracks {γ : Type*} {g : γ} (allowed : ε → Prop) (track : γ → ε → ρ → γ)
    (rel : γ → σ → Prop)
    (kept : ∀ g s e, allowed e → rel g s → rel (track g e (step s e).2) (step s e).1)
    (start : rel g s) (es : List ε) (all : ∀ e ∈ es, allowed e) :
    rel ((serve step s es).2.foldl (fun g r => track g r.1 r.2) g) (serve step s es).1 := by
  induction es generalizing g s with
  | nil => exact start
  | cons e rest ih =>
    obtain ⟨first,others⟩ := List.forall_mem_cons.mp all
    exact ih (kept g s e first start) others

/-- The answers of those who see no more than `same` says are what they are alone. -/
theorem serve_apart (allowed : ε → Prop) (own : ε → Bool) (same : σ → σ → Prop)
    (agree : ∀ s s' e, allowed e → same s s' → own e = true →
      (step s e).2 = (step s' e).2 ∧ same (step s e).1 (step s' e).1)
    (apart : ∀ s s' e, allowed e → same s s' → own e = false → same (step s e).1 s')
    (start : same s s') (es : List ε) (all : ∀ e ∈ es, allowed e) :
    (serve step s es).2.filter (fun r => own r.1) = (serve step s' (es.filter own)).2 := by
  induction es generalizing s s' with
  | nil => rfl
  | cons e rest ih =>
    obtain ⟨first,others⟩ := List.forall_mem_cons.mp all
    cases mine : own e with
    | true =>
      obtain ⟨reply,next⟩ := agree s s' e first start mine
      rw [List.filter_cons_of_pos mine, serve_cons, serve_cons, ← reply, ← ih next others]
      exact List.filter_cons_of_pos mine
    | false =>
      rw [List.filter_cons_of_neg (by simp [mine]), serve_cons,
        ← ih (apart s s' e first start mine) others]
      exact List.filter_cons_of_neg (by simp [mine])

end Views
