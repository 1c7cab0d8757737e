import Mathlib.Data.List.Induction

/-! Runs of a partial, labelled step function. A step that faults has no
successor, and neither has a run that contains one. The rules cover invariants,
guards, history variables, the last rise of a predicate, simulation and replay;
none of them mentions what is being run. -/
namespace Runs

universe u v w
variable {σ : Type u} {ι : Type v} {γ : Type w} {τ : Type u}

def run (step : σ → ι → Option σ) (s : σ) : List ι → Option σ
  | [] => some s
  | i :: rest => (step s i).bind fun next => run step next rest

variable {step : σ → ι → Option σ}

@[simp] theorem run_nil : run step s [] = some s := rfl

@[simp] theorem run_cons :
    run step s (i :: rest) = (step s i).bind fun next => run step next rest := rfl

theorem run_cons_eq_some : run step s (i :: rest) = some final ↔
    ∃ next, step s i = some next ∧ run step next rest = some final := by
  simp [Option.bind_eq_some_iff]

theorem run_append (xs ys : List ι) :
    run step s (xs ++ ys) = (run step s xs).bind fun middle => run step middle ys := by
  induction xs generalizing s with
  | nil => rfl
  | cons i rest ih => simp [ih,Option.bind_assoc]

theorem run_append_eq_some {xs ys : List ι} : run step s (xs ++ ys) = some final ↔
    ∃ middle, run step s xs = some middle ∧ run step middle ys = some final := by
  simp [run_append,Option.bind_eq_some_iff]

theorem run_concat_eq_some {xs : List ι} : run step s (xs ++ [i]) = some final ↔
    ∃ middle, run step s xs = some middle ∧ step middle i = some final := by
  simp [run_append_eq_some]

/-- Induction on a run at its last step, with the run so far in the motive. -/
theorem run_induction {motive : List ι → σ → Prop} (start : motive [] s)
    (extend : ∀ ops c i next, run step s ops = some c → step c i = some next → motive ops c →
      motive (ops ++ [i]) next)
    (ops : List ι) (ran : run step s ops = some final) : motive ops final := by
  induction ops using List.reverseRecOn generalizing final with
  | nil => exact Option.some.inj ran ▸ start
  | append_singleton rest i ih =>
    obtain ⟨middle,earlier,last⟩ := run_concat_eq_some.mp ran
    exact extend rest middle i final earlier last (ih earlier)

/-- The single-step preservation of an invariant lifts to runs. -/
theorem run_invariant (inv : σ → Prop)
    (preserved : ∀ s i s', inv s → step s i = some s' → inv s')
    (ran : run step s ops = some final) (initial : inv s) : inv final := by
  induction ops generalizing s with
  | nil => exact Option.some.inj ran ▸ initial
  | cons i rest ih =>
    obtain ⟨next,first,ran⟩ := run_cons_eq_some.mp ran
    exact ih ran (preserved _ _ _ initial first)

/-- The predicate holds of every step the run takes, judged before the step. -/
def Each (step : σ → ι → Option σ) (p : σ → ι → Prop) (s : σ) : List ι → Prop
  | [] => True
  | i :: rest => p s i ∧ ∀ next, step s i = some next → Each step p next rest

instance decidableEach {p : σ → ι → Prop} [∀ s i, Decidable (p s i)] :
    (s : σ) → (ops : List ι) → Decidable (Each step p s ops)
  | _, [] => isTrue trivial
  | s, i :: rest =>
    match first : step s i with
    | none => decidable_of_iff (p s i) (by simp [Each,first])
    | some next =>
      have : Decidable (Each step p next rest) := decidableEach next rest
      decidable_of_iff (p s i ∧ Each step p next rest) (by simp [Each,first])

theorem each_append {p : σ → ι → Prop} {xs ys : List ι} : Each step p s (xs ++ ys) ↔
    Each step p s xs ∧ ∀ middle, run step s xs = some middle → Each step p middle ys := by
  induction xs generalizing s with
  | nil => simp [Each]
  | cons i rest ih =>
    simp only [List.cons_append, Each, ih, run_cons_eq_some]
    constructor
    · rintro ⟨head,tail⟩
      exact ⟨⟨head,fun next first => (tail next first).1⟩,
        fun middle ⟨next,first,ran⟩ => (tail next first).2 middle ran⟩
    · rintro ⟨⟨head,tail⟩,later⟩
      exact ⟨head,fun next first => ⟨tail next first,fun middle ran => later middle ⟨next,first,ran⟩⟩⟩

/-- What an invariant and a guard give at each step, they give along the run. -/
theorem each_of_invariant {p q : σ → ι → Prop} (inv : σ → Prop)
    (preserved : ∀ s i s', inv s → step s i = some s' → inv s')
    (holds : ∀ s i, inv s → p s i → q s i) (guarded : Each step p s ops) (initial : inv s) :
    Each step q s ops := by
  induction ops generalizing s with
  | nil => trivial
  | cons i rest ih =>
    exact ⟨holds s i initial guarded.1,
      fun next first => ih (guarded.2 next first) (preserved s i next initial first)⟩

/-- Steps that succeed exactly under a guard make runs that succeed exactly when
every step meets it. -/
theorem run_isSome_iff {p : σ → ι → Prop} (guard : ∀ s i, (step s i).isSome ↔ p s i)
    (s : σ) (ops : List ι) : (run step s ops).isSome ↔ Each step p s ops := by
  induction ops generalizing s with
  | nil => simp [Each]
  | cons i rest ih =>
    rw [run_cons, Each, ← guard s i]
    cases step s i with
    | none => simp
    | some next => simp [ih]

/-- The value of a history variable at the end of a run: `upd` sees the state on
both sides of every step. -/
def history (step : σ → ι → Option σ) (upd : σ → ι → σ → γ → γ) (s : σ) (g : γ) : List ι → γ
  | [] => g
  | i :: rest =>
    match step s i with
    | none => g
    | some next => history step upd next (upd s i next g) rest

@[simp] theorem history_nil {upd : σ → ι → σ → γ → γ} : history step upd s g [] = g := rfl

theorem history_cons {upd : σ → ι → σ → γ → γ} (first : step s i = some next) :
    history step upd s g (i :: rest) = history step upd next (upd s i next g) rest := by
  simp [history,first]

theorem history_append {upd : σ → ι → σ → γ → γ} {xs : List ι}
    (ran : run step s xs = some middle) (ys : List ι) :
    history step upd s g (xs ++ ys) = history step upd middle (history step upd s g xs) ys := by
  induction xs generalizing s g with
  | nil => rw [Option.some.inj ran]; rfl
  | cons i rest ih =>
    obtain ⟨next,first,ran⟩ := run_cons_eq_some.mp ran
    rw [List.cons_append, history_cons first, history_cons first, ih ran]

theorem history_concat {upd : σ → ι → σ → γ → γ} {xs : List ι}
    (ran : run step s xs = some middle) (last : step middle i = some final) :
    history step upd s g (xs ++ [i]) = upd middle i final (history step upd s g xs) := by
  rw [history_append ran, history_cons last, history_nil]

/-- A counter of the steps that miss a predicate stays at zero exactly when none does. -/
theorem history_count_eq_zero {p : σ → ι → Prop} [∀ s i, Decidable (p s i)]
    (ran : run step s ops = some final) (n : Nat) :
    history step (fun s i _ n => if p s i then n else n + 1) s n ops = 0 ↔
      n = 0 ∧ Each step p s ops := by
  induction ops generalizing s n with
  | nil => simp [Each]
  | cons i rest ih =>
    obtain ⟨next,first,ran⟩ := run_cons_eq_some.mp ran
    rw [history_cons first, ih ran]
    by_cases met : p s i <;> simp [Each,first,met]

/-- A predicate on the steps of a run, read off its prefixes. -/
theorem each_iff_prefix {p : σ → ι → Prop} : Each step p s ops ↔
    ∀ pre i d, pre ++ [i] <+: ops → run step s pre = some d → p d i := by
  constructor
  · rintro each pre i d ⟨post,rfl⟩ ran
    rw [List.append_assoc] at each
    exact ((each_append.mp each).2 d ran).1
  · intro all
    induction ops generalizing s with
    | nil => trivial
    | cons i rest ih =>
      refine ⟨all [] i s ⟨rest,rfl⟩ rfl,fun next first => ih fun pre j d grown ran => ?_⟩
      exact all (i :: pre) j d (List.cons_prefix_cons.mpr ⟨rfl,grown⟩)
        (run_cons_eq_some.mpr ⟨next,first,ran⟩)

/-- How many steps of a run meet a predicate. -/
def tally (step : σ → ι → Option σ) (p : σ → ι → Bool) (s : σ) (ops : List ι) : Nat :=
  history step (fun s i _ n => if p s i then n + 1 else n) s 0 ops

theorem tally_concat {p : σ → ι → Bool} {xs : List ι} (ran : run step s xs = some middle)
    (last : step middle i = some final) :
    tally step p s (xs ++ [i]) = if p middle i then tally step p s xs + 1 else tally step p s xs :=
  history_concat ran last

/-- How many steps of a run turn a predicate from false to true. -/
def rises (step : σ → ι → Option σ) (f : σ → Bool) (s : σ) (ops : List ι) : Nat :=
  history step (fun s _ s' n => if !f s && f s' then n + 1 else n) s 0 ops

theorem rises_concat {f : σ → Bool} {xs : List ι} (ran : run step s xs = some middle)
    (last : step middle i = some final) : rises step f s (xs ++ [i]) =
      if !f middle && f final then rises step f s xs + 1 else rises step f s xs :=
  history_concat ran last

theorem each_of_forall {p : σ → ι → Prop} (all : ∀ s i, p s i) (s : σ) (ops : List ι) :
    Each step p s ops := by
  induction ops generalizing s with
  | nil => trivial
  | cons i rest ih => exact ⟨all s i,fun next _ => ih next⟩

/-- The single-step preservation of an invariant by guarded steps lifts to guarded runs. -/
theorem run_invariant_of_each {p : σ → ι → Prop} (inv : σ → Prop)
    (preserved : ∀ s i s', inv s → p s i → step s i = some s' → inv s')
    (ran : run step s ops = some final) (guarded : Each step p s ops) (initial : inv s) :
    inv final := by
  induction ops generalizing s with
  | nil => exact Option.some.inj ran ▸ initial
  | cons i rest ih =>
    obtain ⟨next,first,ran⟩ := run_cons_eq_some.mp ran
    exact ih ran (guarded.2 next first) (preserved _ _ _ initial guarded.1 first)

/-- An invariant linking the state to a history variable, kept by guarded steps. -/
theorem history_invariant_of_each {p : σ → ι → Prop} {upd : σ → ι → σ → γ → γ}
    (inv : σ → γ → Prop)
    (preserved : ∀ s i s' g, inv s g → p s i → step s i = some s' → inv s' (upd s i s' g))
    (ran : run step s ops = some final) (guarded : Each step p s ops) (initial : inv s g) :
    inv final (history step upd s g ops) := by
  induction ops generalizing s g with
  | nil => exact Option.some.inj ran ▸ initial
  | cons i rest ih =>
    obtain ⟨next,first,ran⟩ := run_cons_eq_some.mp ran
    rw [history_cons first]
    exact ih ran (guarded.2 next first) (preserved _ _ _ _ initial guarded.1 first)

theorem history_invariant {upd : σ → ι → σ → γ → γ} (inv : σ → γ → Prop)
    (preserved : ∀ s i s' g, inv s g → step s i = some s' → inv s' (upd s i s' g))
    (ran : run step s ops = some final) (initial : inv s g) :
    inv final (history step upd s g ops) :=
  history_invariant_of_each inv (fun s i s' g kept (_ : True) => preserved s i s' g kept) ran
    (each_of_forall (fun _ _ => trivial) s ops) initial

/-- The predicate holds in every state the run visits, the first one included. -/
def Throughout (step : σ → ι → Option σ) (p : σ → Prop) (s : σ) : List ι → Prop
  | [] => p s
  | i :: rest => p s ∧ ∀ next, step s i = some next → Throughout step p next rest

theorem throughout_concat {p : σ → Prop} (kept : Throughout step p s ops)
    (ran : run step s ops = some middle) (holds : ∀ next, step middle i = some next → p next) :
    Throughout step p s (ops ++ [i]) := by
  induction ops generalizing s with
  | nil =>
    obtain rfl := Option.some.inj ran
    exact ⟨kept,fun next first => holds next first⟩
  | cons j rest ih =>
    obtain ⟨next,first,ran⟩ := run_cons_eq_some.mp ran
    refine ⟨kept.1,fun other again => ?_⟩
    obtain rfl := Option.some.inj (first.symm.trans again)
    exact ih (kept.2 _ first) ran

/-- A predicate that holds at the end of a run and not at its start has a last
step that made it true, and it has held ever since. -/
theorem last_rise (p : σ → Prop) (ops : List ι) (ran : run step s ops = some final)
    (before : ¬p s) (after : p final) :
    ∃ pre i post old new, ops = pre ++ i :: post ∧ run step s pre = some old ∧
      step old i = some new ∧ run step new post = some final ∧ ¬p old ∧
      Throughout step p new post := by
  induction ops using List.reverseRecOn generalizing final with
  | nil => exact absurd (Option.some.inj ran ▸ after) before
  | append_singleton rest i ih =>
    obtain ⟨middle,earlier,last⟩ := run_concat_eq_some.mp ran
    by_cases held : p middle
    · obtain ⟨pre,j,post,old,new,rfl,first,rise,later,low,kept⟩ := ih earlier held
      refine ⟨pre,j,post ++ [i],old,new,by simp,first,rise,?_,low,?_⟩
      · exact run_concat_eq_some.mpr ⟨middle,later,last⟩
      · refine throughout_concat kept later fun other again => ?_
        exact Option.some.inj (last.symm.trans again) ▸ after
    · exact ⟨rest,i,[],middle,final,rfl,earlier,last,rfl,held,after⟩

/-- Some step of the run did the first, and every step after it the second or,
again, the first. -/
def since (step : σ → ι → Option σ) (sets keeps : σ → ι → Bool) (s : σ) (ops : List ι) : Bool :=
  history step (fun s i _ held => sets s i || held && keeps s i) s false ops

/-- What a step establishes and later ones keep holds at the end. -/
theorem since_holds {sets keeps : σ → ι → Bool} (p : σ → Prop)
    (established : ∀ s i s', sets s i = true → step s i = some s' → p s')
    (kept : ∀ s i s', p s → keeps s i = true → step s i = some s' → p s')
    (ran : run step s ops = some final) (held : since step sets keeps s ops = true) : p final := by
  refine history_invariant (g := false) (fun s held => held = true → p s) ?_ ran nofun held
  intro s i s' held holds first after
  rcases Bool.or_eq_true_iff.mp after with set | both
  · exact established s i s' set first
  · obtain ⟨before,keeps⟩ := Bool.and_eq_true_iff.mp both
    exact kept s i s' (holds before) keeps first

/-- What each step from related states relates again, two runs of the same inputs do. -/
theorem run_relates {p : σ → ι → Prop} (rel : σ → σ → Prop)
    (related : ∀ s t i s' t', rel s t → p s i → step s i = some s' → step t i = some t' → rel s' t')
    (ran : run step s ops = some s') (ran' : run step t ops = some t') (guarded : Each step p s ops)
    (initial : rel s t) : rel s' t' := by
  induction ops generalizing s t with
  | nil => exact Option.some.inj ran ▸ Option.some.inj ran' ▸ initial
  | cons i rest ih =>
    obtain ⟨next,first,ran⟩ := run_cons_eq_some.mp ran
    obtain ⟨next',first',ran'⟩ := run_cons_eq_some.mp ran'
    exact ih ran ran' (guarded.2 next first)
      (related s t i next next' initial guarded.1 first first')

/-- A view of the state that commutes with each step commutes with a run of them. -/
theorem run_map {step' : τ → ι → Option τ} (f : σ → τ)
    (same : ∀ s i, (step s i).map f = step' (f s) i) (ops : List ι) (s : σ) :
    (run step s ops).map f = run step' (f s) ops := by
  induction ops generalizing s with
  | nil => rfl
  | cons i rest ih =>
    rw [run_cons, run_cons, ← same, Option.bind_map, Option.map_bind]
    exact Option.bind_congr fun next _ => ih next

/-- An action that commutes with each step, on the states of an invariant, commutes with a
run of them. -/
theorem run_commutes (inv : σ → Prop) (act : σ → Option σ)
    (preserved : ∀ s i s', inv s → step s i = some s' → inv s')
    (commutes : ∀ s i, inv s → (act s).bind (step · i) = (step s i).bind act)
    (ops : List ι) (s : σ) (initial : inv s) :
    (act s).bind (run step · ops) = (run step s ops).bind act := by
  induction ops generalizing s with
  | nil => simp
  | cons i rest ih =>
    have first := congrArg (Option.bind · fun next => run step next rest) (commutes s i initial)
    simp only [Option.bind_assoc] at first
    simp only [run_cons, first, Option.bind_assoc]
    refine Option.bind_congr fun next taken => ?_
    exact ih next (preserved s i next initial taken)

/-- Guarded lockstep simulation, faults included: the guard is judged on the
second system. -/
theorem run_simulates {step' : τ → ι → Option τ} {p : τ → ι → Prop} (rel : σ → τ → Prop)
    (simulates : ∀ s t i, rel s t → p t i → Option.Rel rel (step s i) (step' t i))
    (ops : List ι) (s : σ) (t : τ) (start : rel s t) (guarded : Each step' p t ops) :
    Option.Rel rel (run step s ops) (run step' t ops) := by
  induction ops generalizing s t with
  | nil => exact .some start
  | cons i rest ih =>
    have first := simulates s t i start guarded.1
    simp only [run_cons]
    generalize left : step s i = x at first
    generalize right : step' t i = y at first
    cases first with
    | some related => exact ih _ _ related (guarded.2 _ right)
    | none => exact .none

/-- A state together with the log of steps that produced it from `start`. The
replay is part of the value, so that no log can disagree with its state. -/
structure Logged (step : σ → ι → Option σ) (start : σ) where
  state : σ
  log : List ι
  replay : run step start log = some state

variable {start : σ}

def Logged.init (step : σ → ι → Option σ) (start : σ) : Logged step start := ⟨start,[],rfl⟩

/-- A step that is known to succeed, taken and logged. -/
def Logged.advance (l : Logged step start) (i : ι) (next : σ) (taken : step l.state i = some next) :
    Logged step start :=
  ⟨next,l.log ++ [i],by simp [run_append,l.replay,taken]⟩

end Runs
