import Mathlib.Data.List.Basic

/-! A callback run over a list of items, with a state of its own, until a call answers
something other than zero. -/
namespace Visits

universe u v
variable {σ : Type u} {α : Type v} {visitor : σ → α → σ × Int}

def visit (visitor : σ → α → σ × Int) (s : σ) : List α → σ × Int
  | [] => (s,0)
  | x :: rest =>
    let (s,err) := visitor s x
    if err ≠ 0 then (s,err) else visit visitor s rest

theorem visit_cons_of_zero (zero : (visitor s x).2 = 0) (rest : List α) :
    visit visitor s (x :: rest) = visit visitor (visitor s x).1 rest := by
  simp [visit,zero]

theorem visit_cons_of_ne (stops : (visitor s x).2 ≠ 0) (rest : List α) :
    visit visitor s (x :: rest) = visitor s x := by
  simp [visit,stops]

theorem visit_append (s : σ) (xs ys : List α) : visit visitor s (xs ++ ys) =
    if (visit visitor s xs).2 ≠ 0 then visit visitor s xs
    else visit visitor (visit visitor s xs).1 ys := by
  induction xs generalizing s with
  | nil => simp [visit]
  | cons x rest ih =>
    by_cases zero : (visitor s x).2 = 0
    · rw [List.cons_append, visit_cons_of_zero zero, visit_cons_of_zero zero, ih]
    · rw [List.cons_append, visit_cons_of_ne zero, visit_cons_of_ne zero, if_pos zero]

/-- A callback that always answers zero is called on every item, in order. -/
theorem visit_of_zero (f : σ → α → σ) (s : σ) (xs : List α) :
    visit (fun s x => (f s x,0)) s xs = (xs.foldl f s,0) := by
  induction xs generalizing s with
  | nil => rfl
  | cons x rest ih => rw [visit_cons_of_zero rfl, ih, List.foldl_cons]

/-- The first call that answers something else is the last, and its answer the result. -/
theorem visit_stops {pre post : List α} (before : visit visitor s pre = (after,0))
    (call : visitor after x = (last,err)) (stops : err ≠ 0) :
    visit visitor s (pre ++ x :: post) = (last,err) := by
  have answer : (visitor after x).2 ≠ 0 := by rwa [call]
  rw [visit_append, before, if_neg (by simp), visit_cons_of_ne answer, call]

end Visits
