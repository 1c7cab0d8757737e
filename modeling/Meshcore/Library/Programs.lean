/-! Programs that reach their surroundings through calls, each choosing the rest by what
it was answered. One program runs on any machine that answers the calls, and a machine
that answers another's calls the same way runs every program of the other. -/
namespace Programs

universe u

variable {ι : Type u} {ρ : ι → Type u} {σ τ α β γ : Type u}

/-- A program over the calls `ι`, call `i` answered by a `ρ i`; a loop that was given too
few turns is `stuck`, and so is an access outside an array. -/
inductive Program (ι : Type u) (ρ : ι → Type u) (α : Type u) where
  | done (a : α)
  | stuck
  | ask (i : ι) (next : ρ i → Program ι ρ α)

/-- A machine answers a call from its state, or faults. -/
abbrev Machine (ι : Type u) (ρ : ι → Type u) (σ : Type u) := (i : ι) → σ → Option (σ × ρ i)

namespace Program

protected def bind (p : Program ι ρ α) (rest : α → Program ι ρ β) : Program ι ρ β :=
  match p with
  | .done a => rest a
  | .stuck => .stuck
  | .ask i next => .ask i fun r => (next r).bind rest

instance : Monad (Program ι ρ) where
  pure := .done
  bind := Program.bind

theorem bind_done (p : Program ι ρ α) : p >>= done = p := by
  induction p with
  | done | stuck => rfl
  | ask i next ih => exact congrArg (ask i) (funext ih)

theorem bind_assoc (p : Program ι ρ α) (f : α → Program ι ρ β) (g : β → Program ι ρ γ) :
    p >>= f >>= g = p >>= fun a => f a >>= g := by
  induction p with
  | done | stuck => rfl
  | ask i next ih => exact congrArg (ask i) (funext ih)

instance : LawfulMonad (Program ι ρ) := LawfulMonad.mk' _ bind_done (fun _ _ => rfl) bind_assoc

def call (i : ι) : Program ι ρ (ρ i) := .ask i .done

/-- A loop: a turn either ends it with a result or leaves it for another. -/
def loop (turn : Program ι ρ (Option α)) : Nat → Program ι ρ α
  | 0 => .stuck
  | turns + 1 => turn >>= fun
    | some a => .done a
    | none => loop turn turns

/-- A program run to its return. -/
def run (answer : Machine ι ρ σ) : Program ι ρ α → σ → Option (σ × α)
  | .done a, s => some (s,a)
  | .stuck, _ => none
  | .ask i next, s => (answer i s).bind fun r => (next r.2).run answer r.1

variable {answer : Machine ι ρ σ}

@[simp] theorem run_pure (a : α) (s : σ) :
    (pure a : Program ι ρ α).run answer s = some (s,a) := rfl

@[simp] theorem run_done (a : α) (s : σ) :
    (done a : Program ι ρ α).run answer s = some (s,a) := rfl

@[simp] theorem run_call (i : ι) (s : σ) :
    (call i : Program ι ρ (ρ i)).run answer s = answer i s := by
  change (answer i s).bind some = _
  exact Option.bind_fun_some _

@[simp] theorem run_bind (p : Program ι ρ α) (rest : α → Program ι ρ β) (s : σ) :
    (p >>= rest).run answer s =
      (p.run answer s).bind fun r => (rest r.2).run answer r.1 := by
  induction p generalizing s with
  | done | stuck => rfl
  | ask i next ih =>
    change (answer i s).bind (fun r => (next r.2 >>= rest).run answer r.1) =
      ((answer i s).bind fun r => (next r.2).run answer r.1).bind _
    rw [Option.bind_assoc]
    exact congrArg (Option.bind (answer i s)) (funext fun r => ih r.2 r.1)

/-- The loop ends with the first turn that does. -/
theorem run_loop_of_ends {turn : Program ι ρ (Option α)} {s s' : σ}
    (ends : turn.run answer s = some (s',some a)) (turns : Nat) :
    (loop turn (turns + 1)).run answer s = some (s',a) := by
  rw [loop, run_bind, ends]
  rfl

theorem run_loop_of_goes {turn : Program ι ρ (Option α)} {s s' : σ}
    (goes : turn.run answer s = some (s',none)) (turns : Nat) :
    (loop turn (turns + 1)).run answer s = (loop turn turns).run answer s' := by
  rw [loop, run_bind, goes]
  rfl

/-- `answer` follows `spec` through `rel`: it answers each call the same and stays related. -/
def Follows (rel : σ → τ → Prop) (answer : Machine ι ρ σ) (spec : Machine ι ρ τ) : Prop :=
  ∀ i s t t' r, rel s t → spec i t = some (t',r) → ∃ s', answer i s = some (s',r) ∧ rel s' t'

/-- Every program does on a machine what it does on the one it follows. -/
theorem Follows.run {rel : σ → τ → Prop} {spec : Machine ι ρ τ} (follows : Follows rel answer spec)
    (p : Program ι ρ α) {s : σ} {t t' : τ} (related : rel s t)
    (ran : p.run spec t = some (t',a)) : ∃ s', p.run answer s = some (s',a) ∧ rel s' t' := by
  induction p generalizing s t with
  | done b =>
    obtain ⟨rfl,rfl⟩ := Prod.mk.inj (Option.some.inj ran)
    exact ⟨s,rfl,related⟩
  | stuck => cases ran
  | ask i next ih =>
    obtain ⟨⟨middle,r⟩,asked,rest⟩ := Option.bind_eq_some_iff.mp ran
    obtain ⟨s₁,answered,between⟩ := follows i s t middle r related asked
    obtain ⟨s',ran',after⟩ := ih r between rest
    exact ⟨s',Option.bind_eq_some_iff.mpr ⟨(s₁,r),answered,ran'⟩,after⟩

/-- However it is answered, a program makes only calls that `may`, and returns only what `post`
holds of. -/
def Confined (may : ι → Prop) (post : α → Prop) : Program ι ρ α → Prop
  | .done a => post a
  | .stuck => True
  | .ask i next => may i ∧ ∀ r, (next r).Confined may post

namespace Confined

variable {may : ι → Prop} {mid : α → Prop} {post : β → Prop}

theorem bind {p : Program ι ρ α} {rest : α → Program ι ρ β} (first : p.Confined may mid)
    (then' : ∀ a, mid a → (rest a).Confined may post) : (p >>= rest).Confined may post := by
  induction p with
  | done a => exact then' a first
  | stuck => trivial
  | ask i next ih => exact ⟨first.1,fun r => ih r (first.2 r)⟩

theorem call {i : ι} {answers : ρ i → Prop} (allowed : may i) (all : ∀ r, answers r) :
    (Program.call i : Program ι ρ (ρ i)).Confined may answers := ⟨allowed,all⟩

theorem mono {p : Program ι ρ α} {more : α → Prop} (confined : p.Confined may mid)
    (weaker : ∀ a, mid a → more a) : p.Confined may more := by
  induction p with
  | done a => exact weaker a confined
  | stuck => trivial
  | ask i next ih => exact ⟨confined.1,fun r => ih r (confined.2 r)⟩

theorem loop {turn : Program ι ρ (Option α)} (turns : Nat)
    (confined : turn.Confined may fun r => ∀ a, r = some a → mid a) :
    (Program.loop turn turns).Confined may mid := by
  induction turns with
  | zero => trivial
  | succ turns ih =>
    refine confined.bind fun r ends => ?_
    cases r with
    | none => exact ih
    | some a => exact ends a rfl

/-- What no such call breaks, no run of the program does. -/
theorem run {p : Program ι ρ α} (inv : σ → Prop) (confined : p.Confined may mid)
    (calls : ∀ i s s' r, may i → inv s → answer i s = some (s',r) → inv s') {s s' : σ}
    (holds : inv s) (ran : p.run answer s = some (s',a)) : inv s' ∧ mid a := by
  induction p generalizing s with
  | done b =>
    obtain ⟨rfl,rfl⟩ := Prod.mk.inj (Option.some.inj ran)
    exact ⟨holds,confined⟩
  | stuck => cases ran
  | ask i next ih =>
    obtain ⟨⟨middle,r⟩,asked,rest⟩ := Option.bind_eq_some_iff.mp ran
    exact ih r (confined.2 r) (calls i s middle r confined.1 holds asked) rest

end Confined
end Program
end Programs
