import Mathlib.Data.List.Basic

/-! Host paths and their lexical normal form: empty and "." components dropped, and each
".." taking the name before it away. What is left of a relative path is a number of
levels to climb and the names below. -/
namespace Paths

/-- The components of a path, without the empty ones that repeated slashes make. -/
def components (p : List Char) : List (List Char) := (p.splitOn '/').filter (· ≠ [])

def Absolute (p : List Char) : Prop := p.head? = some '/'

instance (p : List Char) : Decidable (Absolute p) := inferInstanceAs (Decidable (_ = _))

/-- Levels above the start, and the names below the highest of them. -/
structure Walk where
  climbs : Nat := 0
  names : List (List Char) := []
  deriving DecidableEq

/-- One component of the path; at the top of an absolute one there is nowhere to climb. -/
def Walk.step (top : Bool) (w : Walk) (c : List Char) : Walk :=
  if c = ['.'] then w
  else if c = ['.','.'] then
    if w.names = [] then { w with climbs := if top then w.climbs else w.climbs + 1 }
    else { w with names := w.names.dropLast }
  else { w with names := w.names ++ [c] }

def Walk.along (top : Bool) (w : Walk) (cs : List (List Char)) : Walk := cs.foldl (step top) w

/-- The normal form of a path. -/
structure Normal where
  absolute : Bool
  walk : Walk
  deriving DecidableEq

def normalise (p : List Char) : Normal :=
  ⟨decide (Absolute p),Walk.along (decide (Absolute p)) {} (components p)⟩

/-- The second path is the first or lies below it. -/
def Below (root p : Normal) : Prop :=
  p.absolute = root.absolute ∧ p.walk.climbs = root.walk.climbs ∧
    root.walk.names <+: p.walk.names

instance (root p : Normal) : Decidable (Below root p) := inferInstanceAs (Decidable (_ ∧ _ ∧ _))

/-- A component that names something. -/
def Plain (c : List Char) : Prop := c ≠ ['.'] ∧ c ≠ ['.','.']

instance (c : List Char) : Decidable (Plain c) := inferInstanceAs (Decidable (_ ∧ _))

theorem components_join (root p : List Char) :
    components (root ++ '/' :: p) = components root ++ components p := by
  rw [components, List.splitOn_append_cons_self, List.filter_append]
  rfl

theorem along_plain (top : Bool) (w : Walk) (cs : List (List Char)) (plain : ∀ c ∈ cs, Plain c) :
    w.along top cs = { w with names := w.names ++ cs } := by
  induction cs generalizing w with
  | nil => simp [Walk.along]
  | cons c rest ih =>
    obtain ⟨dot,dotdot⟩ := plain c List.mem_cons_self
    have later := ih (w.step top c) fun d member => plain d (List.mem_cons_of_mem c member)
    rw [Walk.along, List.foldl_cons]
    refine later.trans ?_
    simp [Walk.step,dot,dotdot]

/-- Where a relative walk ends that starts at `start` below the top, or below the start of
a relative path. -/
def Walk.under (top : Bool) (start : List (List Char)) (w : Walk) : Walk where
  climbs := if top then 0 else w.climbs - start.length
  names := start.take (start.length - w.climbs) ++ w.names

/-- Climbing past the names of the walk itself takes the place's own. -/
theorem climb_under (top : Bool) (start : List (List Char)) (w : Walk) (empty : w.names = []) :
    (w.under top start).step top ['.','.'] = Walk.under top start { w with climbs := w.climbs + 1 } := by
  have dot : ['.','.'] ≠ ['.'] := by decide
  simp only [Walk.step, Walk.under, dot, ite_false, ite_true, empty, List.append_nil,
    List.take_eq_nil_iff]
  by_cases inside : w.climbs < start.length
  · have left : ¬(start.length - w.climbs = 0 ∨ start = []) := by
      rintro (none | none)
      · omega
      · simp [none] at inside
    rw [if_neg left, List.dropLast_eq_take, List.take_take, List.length_take]
    congr 1
    · split <;> omega
    · congr 1
      omega
  · have gone : start.length - w.climbs = 0 := by omega
    rw [if_pos (.inl gone)]
    congr 1
    · cases top <;> simp
      omega
    · rw [gone, show start.length - (w.climbs + 1) = 0 by omega]

theorem step_under (top : Bool) (start : List (List Char)) (w : Walk) (c : List Char) :
    (w.under top start).step top c = (w.step false c).under top start := by
  by_cases dot : c = ['.']
  · simp [Walk.step,dot]
  by_cases dotdot : c = ['.','.']
  · subst dotdot
    by_cases empty : w.names = []
    · rw [climb_under top start w empty]
      simp [Walk.step,empty]
    · simp [Walk.step,Walk.under,empty,List.dropLast_append_of_ne_nil]
  · simp [Walk.step,Walk.under,dot,dotdot]

/-- Walking from a place is walking on its own, and taking the climbs off the place. -/
theorem along_under (top : Bool) (start : List (List Char)) (w : Walk) (cs : List (List Char)) :
    (w.under top start).along top cs = (w.along false cs).under top start := by
  induction cs generalizing w with
  | nil => rfl
  | cons c rest ih =>
    rw [Walk.along, List.foldl_cons, step_under]
    exact ih (w.step false c)

/-- A path joined to a root stays below it exactly when what it climbs it comes down again
by the same names. -/
theorem below_join_iff {root p : List Char} (plain : ∀ c ∈ components root, Plain c)
    (nonempty : root ≠ []) :
    Below (normalise root) (normalise (root ++ '/' :: p)) ↔
      (Absolute root ∨ (Walk.along false {} (components p)).climbs ≤ (components root).length) ∧
        (components root).drop
            ((components root).length - (Walk.along false {} (components p)).climbs) <+:
          (Walk.along false {} (components p)).names := by
  have head : (root ++ '/' :: p).head? = root.head? := by
    cases root with
    | nil => exact absurd rfl nonempty
    | cons c rest => rfl
  have absolute : Absolute (root ++ '/' :: p) ↔ Absolute root := by rw [Absolute, Absolute, head]
  generalize reached : Walk.along false {} (components p) = w
  have start : normalise root = ⟨decide (Absolute root),⟨0,components root⟩⟩ := by
    rw [normalise, along_plain _ _ _ plain]
    rfl
  have joined : normalise (root ++ '/' :: p) =
      ⟨decide (Absolute root),w.under (decide (Absolute root)) (components root)⟩ := by
    have begin (top : Bool) : Walk.along top {} (components root) =
        Walk.under top (components root) {} := by
      rw [along_plain _ _ _ plain]
      simp [Walk.under]
    have walk (top : Bool) : Walk.along top {} (components (root ++ '/' :: p)) =
        w.under top (components root) := by
      rw [components_join, Walk.along, List.foldl_append, ← reached, ← along_under, ← begin]
      rfl
    simp only [normalise, absolute, walk]
  have names : components root <+: (w.under (decide (Absolute root)) (components root)).names ↔
      (components root).drop ((components root).length - w.climbs) <+: w.names := by
    have split := List.take_append_drop ((components root).length - w.climbs) (components root)
    conv_lhs => lhs; rw [← split]
    exact List.prefix_append_right_inj _
  have climbs : (w.under (decide (Absolute root)) (components root)).climbs = 0 ↔
      Absolute root ∨ w.climbs ≤ (components root).length := by
    by_cases top : Absolute root
    · simp [Walk.under,top]
    · simp [Walk.under,top]
      omega
  rw [start, joined, Below]
  simp only [true_and, climbs, names]

end Paths
