import Meshcore.Library.Trees

/-! Walks that keep to the line through one place of a tree. What they are answered comes
from below the place, what they change is below it, and so walks that keep to two places
apart do not meet. -/
namespace Trees

open Paths

variable {β : Type} {t t' u : Hierarchy β} {p q home other : Place} {cs : List (List Char)}

/-- The place is on the way to the other, or below it. -/
def Along (home p : Place) : Prop := p <+: home ∧ p ≠ home ∨ home <+: p

/-- A walk that never leaves the line through a place. -/
def Leads (home : Place) : Place → List (List Char) → Prop
  | p, [] => Along home p
  | p, c :: rest => Along home p ∧ Leads home (step p c) rest

theorem Leads.start (leads : Leads home p cs) : Along home p := by
  cases cs with
  | nil => exact leads
  | cons c rest => exact leads.1

theorem Leads.of_append (leads : Leads home p (xs ++ ys)) : Leads home p xs := by
  induction xs generalizing p with
  | nil => exact Leads.start leads
  | cons c rest ih => exact ⟨leads.1,ih leads.2⟩

/-- Down to the place, and on from there. -/
theorem leads_append (plain : ∀ c ∈ cs, c ≠ [] → Plain c) (ds : List (List Char))
    (inside : Leads (p ++ cs.filter (· ≠ [])) (p ++ cs.filter (· ≠ [])) ds) :
    Leads (p ++ cs.filter (· ≠ [])) p (cs ++ ds) := by
  induction cs generalizing p with
  | nil => simpa using inside
  | cons c rest ih =>
    have later := ih (p := step p c) fun d member => plain d (List.mem_cons_of_mem c member)
    have on : Along (p ++ (c :: rest).filter (· ≠ [])) p := by
      by_cases all : (c :: rest).filter (· ≠ []) = []
      · rw [all, List.append_nil]
        exact .inr (List.prefix_refl p)
      · refine .inl ⟨List.prefix_append _ _,fun same => all ?_⟩
        exact List.append_cancel_left (same.symm.trans (List.append_nil p).symm)
    refine ⟨on,?_⟩
    by_cases empty : c = []
    · subst empty
      simpa [step] using later (by simpa [step] using inside)
    · obtain ⟨dot,dotdot⟩ := plain c List.mem_cons_self empty
      simpa [step,empty,dot,dotdot] using later (by simpa [step,empty,dot,dotdot] using inside)

/-- Names alone are gone down. -/
theorem ends_plain (plain : ∀ c ∈ cs, c ≠ [] → Plain c) :
    cs.foldl step p = p ++ cs.filter (· ≠ []) := by
  induction cs generalizing p with
  | nil => simp
  | cons c rest ih =>
    rw [List.foldl_cons, ih fun d member => plain d (List.mem_cons_of_mem c member)]
    by_cases empty : c = []
    · simp [empty,step]
    · obtain ⟨dot,dotdot⟩ := plain c List.mem_cons_self empty
      simp [step,empty,dot,dotdot]

theorem climbs_step_le (top : Bool) (w : Walk) (c : List Char) : w.climbs ≤ (w.step top c).climbs := by
  rw [Walk.step]
  repeat' split
  all_goals simp only [Nat.le_refl, Nat.le_add_right]

theorem climbs_along_le (top : Bool) (w : Walk) (cs : List (List Char)) :
    w.climbs ≤ (w.along top cs).climbs := by
  induction cs generalizing w with
  | nil => exact Nat.le_refl _
  | cons c rest ih => exact Nat.le_trans (climbs_step_le top w c) (ih _)

/-- A step that does not climb is the same step below the place. -/
theorem step_inside (w : Walk) (named : c ≠ []) (level : (w.step false c).climbs = w.climbs) :
    step (home ++ w.names) c = home ++ (w.step false c).names := by
  rw [Walk.step] at level ⊢
  by_cases dot : c = ['.']
  · simp [step,dot]
  by_cases dotdot : c = ['.','.']
  · by_cases top : w.names = []
    · simp [dotdot,top] at level
    · simp [step,dotdot,top,List.dropLast_append_of_ne_nil]
  · simp [step,named,dot,dotdot]

/-- A path that stays on its level does so at each component. -/
theorem level_cons (w : Walk) (named : c ≠ [])
    (level : (w.along false ((c :: rest).filter (· ≠ []))).climbs = w.climbs) :
    w.along false ((c :: rest).filter (· ≠ [])) =
        (w.step false c).along false (rest.filter (· ≠ [])) ∧
      (w.step false c).climbs = w.climbs ∧
      ((w.step false c).along false (rest.filter (· ≠ []))).climbs = (w.step false c).climbs := by
  have along : w.along false ((c :: rest).filter (· ≠ [])) =
      (w.step false c).along false (rest.filter (· ≠ [])) := by
    rw [List.filter_cons_of_pos (by simpa using named)]
    rfl
  rw [along] at level
  have still : (w.step false c).climbs = w.climbs :=
    Nat.le_antisymm (level ▸ climbs_along_le _ _ _) (climbs_step_le _ _ _)
  exact ⟨along,still,level.trans still.symm⟩

/-- A path that never climbs leads below the place, to the names it has as it is written. -/
theorem leads_inside (home : Place) (w : Walk)
    (level : (w.along false (cs.filter (· ≠ []))).climbs = w.climbs) :
    Leads home (home ++ w.names) cs ∧
      cs.foldl step (home ++ w.names) = home ++ (w.along false (cs.filter (· ≠ []))).names := by
  have below (w : Walk) : Along home (home ++ w.names) := .inr (List.prefix_append _ _)
  induction cs generalizing w with
  | nil => exact ⟨below w,rfl⟩
  | cons c rest ih =>
    by_cases empty : c = []
    · subst empty
      have stays : step (home ++ w.names) [] = home ++ w.names := rfl
      obtain ⟨leads,ends⟩ := ih w (by simpa using level)
      exact ⟨⟨below w,stays ▸ leads⟩,by simpa [stays] using ends⟩
    · obtain ⟨along,still,later⟩ := level_cons w empty level
      obtain ⟨leads,ends⟩ := ih _ later
      rw [← step_inside w empty still] at leads ends
      exact ⟨⟨below w,leads⟩,along ▸ ends⟩

/-- The components of a path from a root and below it. -/
theorem leads_join (plain : ∀ c ∈ cs, c ≠ [] → Plain c)
    (level : (Walk.along false {} (ds.filter (· ≠ []))).climbs = 0) :
    Leads (p ++ cs.filter (· ≠ [])) p (cs ++ ds) ∧ (cs ++ ds).foldl step p =
      p ++ cs.filter (· ≠ []) ++ (Walk.along false {} (ds.filter (· ≠ []))).names := by
  obtain ⟨leads,ends⟩ := leads_inside (p ++ cs.filter (· ≠ [])) {} level
  rw [List.append_nil] at leads ends
  refine ⟨leads_append plain ds leads,?_⟩
  rw [List.foldl_append, ends_plain plain, ends]

/-! What two trees have in common below a place. -/

/-- The two have the same below the place, and every directory on the way to it. -/
structure Alike (home : Place) (t t' : Hierarchy β) : Prop where
  below : ∀ p, home <+: p → t.lookup p = t'.lookup p
  standing : Standing home t
  standing' : Standing home t'

/-- What is above a place is not below it. -/
theorem not_below (above : p <+: home) (other : p ≠ home) : ¬home <+: p := fun below =>
  other (above.eq_of_length_le below.length_le)

/-- Nothing changes but below the place. -/
def Spares (home : Place) (t t' : Hierarchy β) : Prop := ∀ p, ¬home <+: p → t'.lookup p = t.lookup p

theorem Spares.refl : Spares home t t := fun _ _ => rfl

theorem Spares.trans (first : Spares home t t') (second : Spares home t' u) : Spares home t u :=
  fun p outside => (second p outside).trans (first p outside)

theorem Spares.insert (inside : home <+: q) (e : Entry β) : Spares home t (t.insert q e) :=
  fun _ outside => AList.lookup_insert_ne fun same => outside (same ▸ inside)

theorem Spares.erase (inside : home <+: q) : Spares home t (t.erase q) :=
  fun _ outside => AList.lookup_erase_ne fun same => outside (same ▸ inside)

/-- Below one of two places neither of which is on the way to the other. -/
theorem outside_other (below : home <+: p) (apart : ¬home <+: other) (apart' : ¬other <+: home) :
    ¬other <+: p := fun below' =>
  (List.prefix_or_prefix_of_prefix below below').elim apart apart'

theorem Spares.contents (spares : Spares home t t') (outside : ¬home <+: p) :
    Trees.contents t' p = Trees.contents t p := by
  rw [Trees.contents, Trees.contents, spares p outside]

/-- The way to a place stays while changes keep to another one, or below it. -/
theorem Standing.of_spares (standing : Standing other t) (spares : Spares home t t')
    (apart : ¬home <+: other ∨ home = other) : Standing other t' := by
  intro p above different
  have outside : ¬home <+: p := by
    rcases apart with apart | same
    · exact fun below => apart (below.trans above)
    · exact same ▸ not_below above different
  rw [IsDir, spares p outside]
  exact standing p above different

theorem Alike.insert (alike : Alike home t t') (inside : home <+: q) (e : Entry β) :
    Alike home (t.insert q e) (t'.insert q e) := by
  refine ⟨fun p below => ?_,alike.standing.of_spares (.insert inside e) (.inr rfl),
    alike.standing'.of_spares (.insert inside e) (.inr rfl)⟩
  by_cases same : p = q
  · rw [same, AList.lookup_insert, AList.lookup_insert]
  · rw [AList.lookup_insert_ne same, AList.lookup_insert_ne same, alike.below p below]

theorem Alike.erase (alike : Alike home t t') (inside : home <+: q) :
    Alike home (t.erase q) (t'.erase q) := by
  refine ⟨fun p below => ?_,alike.standing.of_spares (.erase inside) (.inr rfl),
    alike.standing'.of_spares (.erase inside) (.inr rfl)⟩
  by_cases same : p = q
  · rw [same, AList.lookup_erase, AList.lookup_erase]
  · rw [AList.lookup_erase_ne same, AList.lookup_erase_ne same, alike.below p below]

/-- Changes below a place apart do not show. -/
theorem Alike.of_spares (alike : Alike home t t') (spares : Spares other t u)
    (apart : ¬home <+: other) (apart' : ¬other <+: home) : Alike home u t' :=
  ⟨fun p below => (spares p (outside_other below apart apart')).trans (alike.below p below),
    alike.standing.of_spares spares (.inl apart'),alike.standing'⟩

/-- Directories along the line through the place are directories in both. -/
theorem Alike.isDir (alike : Alike home t t') (along : Along home p) : IsDir t p ↔ IsDir t' p := by
  rcases along with ⟨above,other⟩ | below
  · exact iff_of_true (alike.standing p above other) (alike.standing' p above other)
  · rw [IsDir, IsDir, alike.below p below]

theorem Alike.bare (alike : Alike home t t') (inside : home <+: p) : Bare t p ↔ Bare t' p := by
  rw [bare_iff, bare_iff]
  constructor
  · intro bare q there below
    exact bare q (alike.below q (inside.trans below) ▸ there) below
  · intro bare q there below
    exact bare q (alike.below q (inside.trans below) ▸ there) below

variable [DecidableEq β]

theorem Alike.walk (alike : Alike home t t') (leads : Leads home p cs) :
    Trees.walk t p cs = Trees.walk t' p cs := by
  induction cs generalizing p with
  | nil => rfl
  | cons c rest ih => simp only [Trees.walk, alike.isDir leads.1, ih leads.2]

theorem walk_along (leads : Leads home p cs) (led : walk t p cs = some q) : Along home q := by
  induction cs generalizing p with
  | nil => exact Option.some.inj led ▸ leads
  | cons c rest ih =>
    rw [walk] at led
    split at led
    · exact ih leads.2 led
    · contradiction

/-- A path that keeps to the line through the place and ends below it. -/
structure Within (home cwd : Place) (path : List Char) : Prop where
  leads : Leads home (start cwd path) (path.splitOn '/')
  ends : home <+: (path.splitOn '/').foldl step (start cwd path)

theorem Within.below (within : Within home cwd path) (led : locate t cwd path = some p) :
    home <+: p := by
  rw [locate] at led
  split at led
  · contradiction
  · exact walk_end led ▸ within.ends

theorem Alike.locate (alike : Alike home t t')
    (leads : Leads home (start cwd path) (path.splitOn '/')) :
    Trees.locate t cwd path = Trees.locate t' cwd path := by
  rw [Trees.locate, Trees.locate, alike.walk leads]

omit [DecidableEq β] in
theorem Alike.present (alike : Alike home t t') (along : Along home p) :
    Present t p ↔ Present t' p := by
  rcases along with ⟨above,other⟩ | below
  · exact iff_of_true (alike.standing p above other).present (alike.standing' p above other).present
  · rw [Present, Present, ← AList.lookup_isSome, ← AList.lookup_isSome, alike.below p below]

theorem stat_alike (alike : Alike home t t') (within : Within home cwd path) :
    stat t cwd path = stat t' cwd path := by
  rw [stat, stat, ← alike.locate within.leads]
  cases led : locate t cwd path with
  | none => rfl
  | some p => exact decide_eq_decide.mpr (alike.present (.inr (within.below led)))

theorem look_alike (alike : Alike home t t') (within : Within home cwd path) :
    look t cwd path = look t' cwd path := by
  rw [look, look, ← alike.locate within.leads]
  cases led : locate t cwd path with
  | none => rfl
  | some p =>
    have below := within.below led
    simp only [Option.bind_some, alike.isDir (.inr below), alike.below p below]

theorem remove_alike (alike : Alike home t t') (within : Within home cwd path) :
    (remove t cwd path).2 = (remove t' cwd path).2 ∧
      Alike home (remove t cwd path).1 (remove t' cwd path).1 := by
  rw [remove, remove, ← alike.locate within.leads]
  cases led : locate t cwd path with
  | none => exact ⟨rfl,alike⟩
  | some p =>
    have below := within.below led
    have removable : Removable t path p ↔ Removable t' path p := by
      simp only [Removable, alike.isDir (.inr below), alike.bare below, ← AList.lookup_isSome,
        alike.below p below]
    by_cases goes : Removable t path p
    · simp only [if_pos goes, if_pos (removable.mp goes)]
      exact ⟨trivial,alike.erase below⟩
    · simp only [if_neg goes, if_neg (mt removable.mpr goes)]
      exact ⟨trivial,alike⟩

theorem create_alike (alike : Alike home t t') (within : Within home cwd path) (contents : β) :
    (create t cwd path contents).2 = (create t' cwd path contents).2 ∧
      Alike home (create t cwd path contents).1 (create t' cwd path contents).1 := by
  rw [create, create, ← alike.locate within.leads]
  cases led : locate t cwd path with
  | none => exact ⟨rfl,alike⟩
  | some p =>
    have below := within.below led
    by_cases dir : IsDir t p
    · simp only [if_pos dir, if_pos ((alike.isDir (.inr below)).mp dir)]
      exact ⟨trivial,alike⟩
    · simp only [if_neg dir, if_neg (mt (alike.isDir (.inr below)).mpr dir)]
      exact ⟨trivial,alike.insert below _⟩

theorem Leads.trimmed (leads : Leads home p (path.splitOn '/')) : Leads home p (trimmed path) := by
  obtain ⟨rest,whole⟩ := List.rdropWhile_prefix (fun c : List Char => c = []) (path.splitOn '/')
  exact Leads.of_append (whole.symm ▸ leads)

/-- Directories on the way are there already, so what is made is below. -/
theorem mkdir_below (standing : Standing home t)
    (leads : Leads home (start cwd path) (path.splitOn '/'))
    (led : (if path = [] then none else walk t (start cwd path) (trimmed path)) = some p)
    (missing : ¬Present t p) : home <+: p := by
  have along : Along home p := by
    split at led
    · contradiction
    · exact walk_along leads.trimmed led
  rcases along with ⟨above,different⟩ | below
  · exact absurd (standing p above different).present missing
  · exact below

theorem mkdir_alike (alike : Alike home t t') (leads : Leads home (start cwd path) (path.splitOn '/')) :
    (mkdir t cwd path).2 = (mkdir t' cwd path).2 ∧
      Alike home (mkdir t cwd path).1 (mkdir t' cwd path).1 := by
  rw [mkdir, mkdir, ← alike.walk leads.trimmed]
  cases led : if path = [] then none else walk t (start cwd path) (trimmed path) with
  | none => exact ⟨rfl,alike⟩
  | some p =>
    have along : Along home p := by
      split at led
      · contradiction
      · exact walk_along leads.trimmed led
    by_cases there : Present t p
    · simp only [if_pos there, if_pos ((alike.present along).mp there)]
      exact ⟨trivial,alike⟩
    · simp only [if_neg there, if_neg (mt (alike.present along).mpr there)]
      exact ⟨trivial,alike.insert (mkdir_below alike.standing leads led there) _⟩

theorem remove_spares (within : Within home cwd path) : Spares home t (remove t cwd path).1 := by
  rw [remove]
  cases led : locate t cwd path with
  | none => exact .refl
  | some p =>
    by_cases goes : Removable t path p
    · simp only [if_pos goes]
      exact .erase (within.below led)
    · simp only [if_neg goes]
      exact .refl

theorem create_spares (within : Within home cwd path) (contents : β) :
    Spares home t (create t cwd path contents).1 := by
  rw [create]
  cases led : locate t cwd path with
  | none => exact .refl
  | some p =>
    by_cases dir : IsDir t p
    · simp only [if_pos dir]
      exact .refl
    · simp only [if_neg dir]
      exact .insert (within.below led) _

theorem mkdir_spares (standing : Standing home t)
    (leads : Leads home (start cwd path) (path.splitOn '/')) : Spares home t (mkdir t cwd path).1 := by
  rw [mkdir]
  cases led : if path = [] then none else walk t (start cwd path) (trimmed path) with
  | none => exact .refl
  | some p =>
    by_cases there : Present t p
    · simp only [if_pos there]
      exact .refl
    · simp only [if_neg there]
      exact .insert (mkdir_below standing leads led there) _

end Trees
