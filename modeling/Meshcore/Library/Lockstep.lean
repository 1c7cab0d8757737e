import Meshcore.Library.Runs

/-! A server that answers requests one at a time and may stop serving. An answer is some
work, closed by an acknowledgement that carries the request; between answers the server
says nothing, and its clock stands still. -/
namespace Lockstep

open Runs

universe u v w
variable {σ : Type u} {ι : Type v} {α ω : Type w}

/-- Which inputs are requests, when each is due, and what an answer looks like. -/
structure Protocol (ι : Type v) (α ω : Type w) where
  asks : ι → Option α
  due : α → ℕ
  acked : α → ω
  isAck : ω → Bool
  proper : List ω → Prop
  isAck_acked : ∀ a, isAck (acked a) = true
  proper_work : ∀ work, proper work → ∀ o ∈ work, isAck o = false

variable {p : Protocol ι α ω}

/-- The outputs answer the requests among the inputs, in order and each once, while the
clock goes from the first time to the last. -/
inductive Protocol.Answered (p : Protocol ι α ω) : ℕ → List ι → List ω → ℕ → Prop where
  | nil (clock : ℕ) : Answered p clock [] [] clock
  | quiet (unasked : p.asks i = none) (later : Answered p clock rest out clock') :
      Answered p clock (i :: rest) out clock'
  | answer (asked : p.asks i = some a) (proper : p.proper work)
      (later : Answered p (max clock (p.due a)) rest out clock') :
      Answered p clock (i :: rest) (work ++ p.acked a :: out) clock'

theorem Protocol.Answered.le (answered : p.Answered clock inputs out clock') : clock ≤ clock' := by
  induction answered with
  | nil => exact Nat.le_refl _
  | quiet _ _ ih => exact ih
  | answer _ _ _ ih => exact Nat.le_trans (Nat.le_max_left _ _) ih

/-- Nothing is said where nothing is asked. -/
theorem Protocol.answered_nil_iff :
    p.Answered clock inputs [] clock' ↔ clock = clock' ∧ ∀ i ∈ inputs, p.asks i = none := by
  constructor
  · intro answered
    generalize empty : ([] : List ω) = out at answered
    induction answered with
    | nil => simp
    | quiet unasked _ ih => simpa [unasked] using ih empty
    | answer => simp at empty
  · rintro ⟨rfl,unasked⟩
    induction inputs with
    | nil => exact .nil clock
    | cons i rest ih =>
      obtain ⟨first,others⟩ := List.forall_mem_cons.mp unasked
      exact .quiet first (ih others)

/-- An input that asks nothing leaves it to the rest. -/
theorem Protocol.answered_quiet_iff (unasked : p.asks i = none) :
    p.Answered t (i :: rest) out t' ↔ p.Answered t rest out t' := by
  constructor
  · intro answered
    cases answered with
    | quiet _ later => exact later
    | answer asked => simp [unasked] at asked
  · exact .quiet unasked

/-- The work of an answer ends at its acknowledgement. -/
theorem Protocol.work_unique {work work' out out' : List ω} (proper : p.proper work)
    (proper' : p.proper work') (same : work ++ p.acked a :: out = work' ++ p.acked a :: out') :
    out = out' := by
  have cut {work : List ω} (proper : p.proper work) (out : List ω) :
      (work ++ p.acked a :: out).dropWhile (fun o => !p.isAck o) = p.acked a :: out := by
    rw [List.dropWhile_append_of_pos fun o member => by simp [p.proper_work _ proper o member]]
    simp [p.isAck_acked a]
  have tails := congrArg (List.dropWhile fun o => !p.isAck o) same
  rw [cut proper, cut proper'] at tails
  exact (List.cons.inj tails).2

/-- What a step function does for each input, while it is up and once it has stopped. -/
structure Serves (p : Protocol ι α ω) (step : σ → ι → Option σ) (outputs : σ → List ω)
    (clock : σ → ℕ) (up : σ → Prop) (stops : ι → Prop) : Prop where
  down : ∀ s i s', ¬up s → step s i = some s' → s' = s
  goesOn : ∀ s i s', up s → step s i = some s' → (up s' ↔ ¬stops i)
  quiet : ∀ s i s', up s → step s i = some s' → p.asks i = none →
    outputs s' = outputs s ∧ clock s' = clock s
  answer : ∀ s i s' a, up s → step s i = some s' → p.asks i = some a →
    ¬stops i ∧ clock s' = max (clock s) (p.due a) ∧
      ∃ work, p.proper work ∧ outputs s' = outputs s ++ (work ++ [p.acked a])

variable {step : σ → ι → Option σ} {outputs : σ → List ω} {clock : σ → ℕ} {up : σ → Prop}
  {stops : ι → Prop}

theorem Serves.run_down (serves : Serves p step outputs clock up stops) (low : ¬up s)
    (ran : run step s ops = some final) : final = s :=
  run_invariant (fun t => t = s) (fun _ i t' same stepped => serves.down s i t' low (same ▸ stepped))
    ran rfl

/-- What has been said stays said. -/
theorem Serves.run_grows (serves : Serves p step outputs clock up stops)
    (ran : run step s ops = some final) : ∃ tail, outputs final = outputs s ++ tail := by
  refine run_invariant (fun t => ∃ tail, outputs t = outputs s ++ tail) ?_ ran ⟨[],by simp⟩
  rintro t i t' ⟨tail,grown⟩ stepped
  by_cases high : up t
  · cases asked : p.asks i with
    | none => exact ⟨tail,(serves.quiet t i t' high stepped asked).1.trans grown⟩
    | some a =>
      obtain ⟨_,_,work,_,said⟩ := serves.answer t i t' a high stepped asked
      exact ⟨tail ++ (work ++ [p.acked a]),by simp [said,grown]⟩
  · exact ⟨tail,serves.down t i t' high stepped ▸ grown⟩

/-- A request is answered by its answer and whatever answers the rest. -/
theorem Serves.answered_request_iff (serves : Serves p step outputs clock up stops) (high : up s)
    (stepped : step s i = some next) (ran : run step next rest = some final)
    (asked : p.asks i = some a) :
    (∃ out, outputs final = outputs s ++ out ∧
        p.Answered (clock s) (i :: rest) out (clock final)) ↔
      ∃ out, outputs final = outputs next ++ out ∧
        p.Answered (clock next) rest out (clock final) := by
  obtain ⟨_,moved,work,proper,said⟩ := serves.answer s i next a high stepped asked
  constructor
  · rintro ⟨out,total,answered⟩
    obtain ⟨tail,grown⟩ := serves.run_grows ran
    cases answered with
    | quiet unasked => simp [asked] at unasked
    | answer asked' proper' later =>
      obtain rfl := Option.some.inj (asked.symm.trans asked')
      rw [grown, said, List.append_assoc] at total
      have same := List.append_cancel_left total
      rw [List.append_assoc, List.singleton_append] at same
      obtain rfl := p.work_unique proper proper' same
      exact ⟨tail,grown,moved ▸ later⟩
  · rintro ⟨out,total,answered⟩
    refine ⟨work ++ p.acked a :: out,by simp [total,said],.answer asked proper ?_⟩
    exact moved ▸ answered

/-- A run of a server that is up answers its requests exactly when none of them comes
after an input that stops it. -/
theorem Serves.run_answered_iff (serves : Serves p step outputs clock up stops) (high : up s)
    (ran : run step s ops = some final) :
    (∃ out, outputs final = outputs s ++ out ∧ p.Answered (clock s) ops out (clock final)) ↔
      ops.Pairwise fun j i => stops j → p.asks i = none := by
  induction ops generalizing s with
  | nil =>
    obtain rfl := Option.some.inj ran
    exact iff_of_true ⟨[],by simp,.nil _⟩ .nil
  | cons i rest ih =>
    obtain ⟨next,first,ran⟩ := run_cons_eq_some.mp ran
    have goes := serves.goesOn s i next high first
    rw [List.pairwise_cons]
    cases asked : p.asks i with
    | some a =>
      have unstopped := (serves.answer s i next a high first asked).1
      rw [serves.answered_request_iff high first ran asked, ih (goes.mpr unstopped) ran]
      simp [unstopped]
    | none =>
      obtain ⟨said,moved⟩ := serves.quiet s i next high first asked
      rw [← said, ← moved]
      simp only [Protocol.answered_quiet_iff asked]
      by_cases stopped : stops i
      · -- Whatever is still asked goes unanswered.
        obtain rfl := serves.run_down (mt goes.mp (not_not.mpr stopped)) ran
        simp only [List.self_eq_append_right, exists_eq_left, Protocol.answered_nil_iff, true_and]
        refine ⟨fun unasked => ⟨fun j member _ => unasked j member,?_⟩,
          fun both j member => both.1 j member stopped⟩
        exact List.pairwise_of_forall_mem_list fun _ _ j member _ => unasked j member
      · rw [ih (goes.mpr stopped) ran]
        simp [stopped]

end Lockstep
