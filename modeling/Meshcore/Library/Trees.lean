import Mathlib.Data.List.AList
import Mathlib.Data.List.DropRight
import Mathlib.Data.List.Infix
import Meshcore.Library.Paths

/-! A host's directories. A place is the names on the way to it from the top, which is
itself a directory; a path is walked from where its process stands, and each name on the
way to the last has to be a directory's. -/
namespace Trees

open Paths

abbrev Place := List (List Char)

inductive Entry (β : Type) where
  | dir
  | file (contents : β)
  deriving DecidableEq

abbrev Hierarchy (β : Type) := AList fun _ : Place => Entry β

variable {β : Type} {t t' u : Hierarchy β} {p q home other : Place} {cs : List (List Char)}

/-- One component of a path. What repeated slashes make stays where it is. -/
def step (p : Place) (c : List Char) : Place :=
  if c = [] ∨ c = ['.'] then p else if c = ['.','.'] then p.dropLast else p ++ [c]

def IsDir (t : Hierarchy β) (p : Place) : Prop := p = [] ∨ t.lookup p = some .dir

instance [DecidableEq β] (t : Hierarchy β) (p : Place) : Decidable (IsDir t p) :=
  inferInstanceAs (Decidable (_ ∨ _))

/-- Nothing is left in the directory. -/
def Bare (t : Hierarchy β) (p : Place) : Prop := ∀ q ∈ t.keys, p <+: q → q = p

instance (t : Hierarchy β) (p : Place) : Decidable (Bare t p) :=
  inferInstanceAs (Decidable (∀ _ ∈ _, _))

theorem bare_iff : Bare t p ↔ ∀ q, t.lookup q ≠ none → p <+: q → q = p := by
  simp only [Bare, ne_eq, AList.lookup_eq_none, not_not, AList.mem_keys]

variable [DecidableEq β]

/-- Where a path leads, which need not be there. -/
def walk (t : Hierarchy β) (p : Place) : List (List Char) → Option Place
  | [] => some p
  | c :: rest => if IsDir t p then walk t (step p c) rest else none

/-- If it leads anywhere, it is where the path is written to lead. -/
theorem walk_end (led : walk t p cs = some q) : q = cs.foldl step p := by
  induction cs generalizing p with
  | nil => exact (Option.some.inj led).symm
  | cons c rest ih =>
    rw [walk] at led
    split at led
    · exact ih led
    · contradiction

/-! The calls of a process, each with the path as it is given. -/

/-- There is something at the place. -/
def Present (t : Hierarchy β) (p : Place) : Prop := p = [] ∨ p ∈ t

instance (t : Hierarchy β) (p : Place) : Decidable (Present t p) := inferInstanceAs (Decidable (_ ∨ _))

omit [DecidableEq β] in
theorem IsDir.present (dir : IsDir t p) : Present t p :=
  dir.imp id fun found => AList.lookup_isSome.mp (by rw [found]; rfl)

def start (cwd : Place) (path : List Char) : Place := if Absolute path then [] else cwd

/-- A path that goes on from another starts where that does. -/
theorem start_append {path : List Char} (named : path ≠ []) :
    start cwd (path ++ more) = start cwd path := by
  have same : Absolute (path ++ more) ↔ Absolute path := by
    cases path with
    | nil => exact absurd rfl named
    | cons c rest => rfl
  exact if_congr same rfl rfl

def locate (t : Hierarchy β) (cwd : Place) (path : List Char) : Option Place :=
  if path = [] then none else walk t (start cwd path) (path.splitOn '/')

/-- The components of a path without the slashes it ends in. -/
def trimmed (path : List Char) : List (List Char) := (path.splitOn '/').rdropWhile (· = [])

def stat (t : Hierarchy β) (cwd : Place) (path : List Char) : Bool :=
  match locate t cwd path with
  | some p => decide (Present t p)
  | none => false

/-- A new directory may be named with a slash at its end. -/
def mkdir (t : Hierarchy β) (cwd : Place) (path : List Char) : Hierarchy β × Bool :=
  match if path = [] then none else walk t (start cwd path) (trimmed path) with
  | some p => if Present t p then (t,false) else (t.insert p .dir,true)
  | none => (t,false)

/-- A directory goes only when it is empty, and not by its own ".". -/
def Removable (t : Hierarchy β) (path : List Char) (p : Place) : Prop :=
  (IsDir t p → p ≠ [] ∧ (trimmed path).getLast? ≠ some ['.'] ∧ Bare t p) ∧ (¬IsDir t p → p ∈ t)

instance (t : Hierarchy β) (path : List Char) (p : Place) : Decidable (Removable t path p) :=
  inferInstanceAs (Decidable (_ ∧ _))

def remove (t : Hierarchy β) (cwd : Place) (path : List Char) : Hierarchy β × Bool :=
  match locate t cwd path with
  | some p => if Removable t path p then (t.erase p,true) else (t,false)
  | none => (t,false)

/-- What is there to be read. -/
def look (t : Hierarchy β) (cwd : Place) (path : List Char) : Option (Entry β) :=
  (locate t cwd path).bind fun p => if IsDir t p then some .dir else t.lookup p

/-- A file made anew, unless a directory has its place. -/
def create (t : Hierarchy β) (cwd : Place) (path : List Char) (contents : β) :
    Hierarchy β × Option Place :=
  match locate t cwd path with
  | some p => if IsDir t p then (t,none) else (t.insert p (.file contents),some p)
  | none => (t,none)

/-! What the files hold. -/

def contents (t : Hierarchy β) (p : Place) : Option β :=
  match t.lookup p with
  | some (.file b) => some b
  | _ => none

omit [DecidableEq β] in
theorem contents_insert (e : Entry β) : contents (t.insert q e) p =
    if p = q then (match e with | .file b => some b | .dir => none) else contents t p := by
  by_cases same : p = q
  · subst same
    rw [contents, AList.lookup_insert, if_pos rfl]
    cases e <;> rfl
  · rw [contents, AList.lookup_insert_ne same, if_neg same, contents]

omit [DecidableEq β] in
theorem contents_erase : contents (t.erase q) p = if p = q then none else contents t p := by
  by_cases same : p = q
  · subst same
    rw [contents, AList.lookup_erase, if_pos rfl]
  · rw [contents, AList.lookup_erase_ne same, if_neg same, contents]

theorem locate_end (led : locate t cwd path = some q) :
    q = (path.splitOn '/').foldl step (start cwd path) := by
  rw [locate] at led
  split at led
  · contradiction
  · exact walk_end led

/-- A new directory takes no file's place. -/
theorem mkdir_contents : contents (mkdir t cwd path).1 p = contents t p := by
  rw [mkdir]
  cases led : if path = [] then none else walk t (start cwd path) (trimmed path) with
  | none => rfl
  | some q =>
    by_cases there : Present t q
    · simp only [if_pos there]
    · simp only [if_neg there]
      rw [contents_insert]
      split
      · next same =>
        have missing : t.lookup q = none := AList.lookup_eq_none.mpr fun found => there (.inr found)
        rw [same, contents, missing]
      · rfl

theorem remove_contents : contents (remove t cwd path).1 p =
    if (remove t cwd path).2 = true ∧ p = (path.splitOn '/').foldl step (start cwd path) then none
    else contents t p := by
  rw [remove]
  cases led : locate t cwd path with
  | none => simp
  | some q =>
    rw [← locate_end led]
    by_cases goes : Removable t path q
    · simp only [if_pos goes, contents_erase, true_and]
    · simp [if_neg goes]

theorem create_contents (b : β) : contents (create t cwd path b).1 p =
    if (create t cwd path b).2 = some p then some b else contents t p := by
  rw [create]
  cases led : locate t cwd path with
  | none => simp
  | some q =>
    by_cases dir : IsDir t q
    · simp [if_pos dir]
    · simp only [if_neg dir, contents_insert, Option.some.injEq, eq_comm]

theorem create_end (made : (create t cwd path b).2 = some p) :
    p = (path.splitOn '/').foldl step (start cwd path) := by
  rw [create] at made
  cases led : locate t cwd path with
  | none => simp [led] at made
  | some q =>
    simp only [led] at made
    split at made
    · contradiction
    · exact Option.some.inj made ▸ locate_end led

theorem look_file (found : look t cwd path = some (.file b)) :
    contents t ((path.splitOn '/').foldl step (start cwd path)) = some b := by
  rw [look] at found
  obtain ⟨q,led,found⟩ := Option.bind_eq_some_iff.mp found
  split at found
  · simp at found
  · rw [← locate_end led, contents, found]

theorem look_dir (found : look t cwd path = some .dir) :
    IsDir t ((path.splitOn '/').foldl step (start cwd path)) := by
  rw [look] at found
  obtain ⟨q,led,found⟩ := Option.bind_eq_some_iff.mp found
  rw [← locate_end led]
  split at found
  · next dir => exact dir
  · exact .inr found

/-! A tree that has grown from the top: what is there is in a directory. -/

/-- Every directory on the way to the place is there. -/
def Standing (home : Place) (t : Hierarchy β) : Prop := ∀ p, p <+: home → p ≠ home → IsDir t p

def Grown (t : Hierarchy β) : Prop := ∀ p ∈ t, Standing p t

instance (home : Place) (t : Hierarchy β) : Decidable (Standing home t) :=
  decidable_of_iff (∀ p ∈ home.inits, p ≠ home → IsDir t p) (by simp only [List.mem_inits, Standing])

instance (t : Hierarchy β) : Decidable (Grown t) :=
  inferInstanceAs (Decidable (∀ p ∈ t.keys, Standing p t))

omit [DecidableEq β] in
theorem Standing.of_above (standing : Standing p t) (above : q <+: p) : Standing q t :=
  fun r higher different => standing r (higher.trans above) fun same =>
    different (higher.eq_of_length_le (same ▸ above.length_le))

omit [DecidableEq β] in
theorem Standing.step (standing : Standing p t) (dir : IsDir t p) (c : List Char) :
    Standing (Trees.step p c) t := by
  rw [Trees.step]
  split
  · exact standing
  · split
    · intro q above different
      have shorter := List.dropLast_prefix p
      refine standing q (above.trans shorter) fun same => different ?_
      exact above.eq_of_length_le (same ▸ shorter.length_le)
    · intro q above different
      rcases List.prefix_concat_iff.mp above with same | above
      · exact absurd same different
      · by_cases same : q = p
        · exact same ▸ dir
        · exact standing q above same

theorem walk_standing (standing : Standing p t) (led : walk t p cs = some q) : Standing q t := by
  induction cs generalizing p with
  | nil => exact Option.some.inj led ▸ standing
  | cons c rest ih =>
    rw [walk] at led
    split at led
    · next dir => exact ih (standing.step dir c) led
    · contradiction

omit [DecidableEq β] in
theorem IsDir.insert (dir : IsDir t p) (free : ¬IsDir t q ∨ e = .dir) : IsDir (t.insert q e) p := by
  by_cases same : p = q
  · subst same
    rcases free with free | rfl
    · exact absurd dir free
    · exact .inr (AList.lookup_insert t)
  · exact dir.imp id fun found => (AList.lookup_insert_ne same).trans found

omit [DecidableEq β] in
/-- Something new in a directory, or a file made anew. -/
theorem Grown.insert (grown : Grown t) (standing : Standing q t) (free : ¬IsDir t q ∨ e = .dir) :
    Grown (t.insert q e) := by
  intro p there r above different
  rcases (AList.mem_insert t).mp there with rfl | there
  · exact (standing r above different).insert free
  · exact (grown p there r above different).insert free

omit [DecidableEq β] in
theorem Grown.erase (grown : Grown t) (last : IsDir t q → Bare t q) : Grown (t.erase q) := by
  intro p there r above different
  obtain ⟨other,was⟩ := AList.mem_erase.mp there
  have dir := grown p was r above different
  by_cases same : r = q
  · subst same
    exact absurd (last dir p (AList.mem_keys.mp was) above) other
  · exact dir.imp id fun found => (AList.lookup_erase_ne same).trans found

theorem mkdir_grown (grown : Grown t) (standing : Standing (start cwd path) t) :
    Grown (mkdir t cwd path).1 := by
  rw [mkdir]
  cases led : if path = [] then none else walk t (start cwd path) (trimmed path) with
  | none => exact grown
  | some p =>
    dsimp only
    split
    · exact grown
    · split at led
      · contradiction
      · exact grown.insert (walk_standing standing led) (.inr rfl)

theorem remove_grown (grown : Grown t) : Grown (remove t cwd path).1 := by
  rw [remove]
  cases led : locate t cwd path with
  | none => exact grown
  | some p =>
    dsimp only
    split
    · next goes => exact grown.erase fun dir => (goes.1 dir).2.2
    · exact grown

theorem create_grown (grown : Grown t) (standing : Standing (start cwd path) t) (b : β) :
    Grown (create t cwd path b).1 := by
  rw [create]
  cases led : locate t cwd path with
  | none => exact grown
  | some p =>
    dsimp only
    split
    · exact grown
    · next free =>
      rw [locate] at led
      split at led
      · contradiction
      · exact grown.insert (walk_standing standing led) (.inl free)

/-- What has been made is a file in a directory. -/
theorem create_made (made : (create t cwd path b).2 = some p) :
    ¬IsDir (create t cwd path b).1 p ∧ p ∈ (create t cwd path b).1 := by
  rw [create] at made ⊢
  cases led : locate t cwd path with
  | none => simp [led] at made
  | some q =>
    simp only [led] at made ⊢
    split at made
    · contradiction
    · next free =>
      obtain rfl := Option.some.inj made
      rw [if_neg free]
      refine ⟨?_,(AList.mem_insert t).mpr (.inl rfl)⟩
      rintro (top | dir)
      · exact free (.inl top)
      · simp at dir

omit [DecidableEq β] in
/-- A path that does not end in a slash has a name. -/
theorem named_of_last (nonempty : cs ≠ []) (last : cs.getLast? ≠ some []) :
    cs.filter (· ≠ []) ≠ [] := by
  intro none
  have empty := List.filter_eq_nil_iff.mp none _ (List.getLast_mem nonempty)
  exact last ((List.getLast?_eq_some_getLast nonempty).trans (congrArg some (by simpa using empty)))

/-- Names alone lead to what is there, unless the path ends in a slash. -/
theorem walk_plain (plain : ∀ c ∈ cs, c ≠ [] → Plain c) (last : cs.getLast? ≠ some [])
    (dirs : ∀ q, p <+: q → q <+: p ++ cs.filter (· ≠ []) → q ≠ p ++ cs.filter (· ≠ []) → IsDir t q) :
    walk t p cs = some (p ++ cs.filter (· ≠ [])) := by
  induction cs generalizing p with
  | nil => simp [walk]
  | cons c rest ih =>
    have named := named_of_last (List.cons_ne_nil c rest) last
    have here : IsDir t p := dirs p (List.prefix_refl p) (List.prefix_append _ _) fun same =>
      named (List.append_cancel_left (same.symm.trans (List.append_nil p).symm))
    have last' : rest.getLast? ≠ some [] := fun empty => last (by rw [List.getLast?_cons, empty]; rfl)
    rw [walk, if_pos here]
    have later := ih (p := step p c) (fun d member => plain d (List.mem_cons_of_mem c member)) last'
    by_cases empty : c = []
    · subst empty
      simpa [step] using later (by simpa [step] using dirs)
    · obtain ⟨dot,dotdot⟩ := plain c List.mem_cons_self empty
      have down : step p c = p ++ [c] := by simp [step,empty,dot,dotdot]
      have whole : p ++ (c :: rest).filter (· ≠ []) = p ++ [c] ++ rest.filter (· ≠ []) := by
        simp [empty]
      rw [whole] at dirs ⊢
      rw [down] at later ⊢
      exact later fun q above => dirs q ((List.prefix_append p [c]).trans above)

end Trees
