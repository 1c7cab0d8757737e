import Meshcore.Library.Paths

/-! The node's files on the host, each operation as the calls it makes there. A path is
put below the root with its leading slash taken off, and nothing else done to it. -/
namespace Meshcore

open Paths

/-- What an operation asks of the host. -/
inductive HostCall where
  | stat (path : List Char)
  | mkdir (path : List Char)
  | remove (path : List Char)
  | fopen (path mode : List Char)
  deriving DecidableEq

def HostCall.path : HostCall → List Char
  | stat path => path
  | mkdir path => path
  | remove path => path
  | fopen path _ => path

structure LittleFS where
  root_ : List Char := []

/-- The operations that take a path. -/
inductive FileOp where
  | exists'
  | mkdir
  | remove
  | open' (mode : List Char)
  deriving DecidableEq

namespace LittleFS

/-- The loop of `ensureDir`, with what it has accumulated. -/
def ensureDirFrom (acc : List Char) : List Char → List HostCall
  | [] => if acc = [] then [] else [.mkdir acc]
  | c :: rest =>
    (if c = '/' ∧ acc ≠ [] then [.mkdir acc] else []) ++ ensureDirFrom (acc ++ [c]) rest

def ensureDir (dir : List Char) : List HostCall := if dir = [] then [] else ensureDirFrom [] dir

def setRoot (fs : LittleFS) (dir : List Char) : LittleFS × List HostCall :=
  ({ fs with root_ := dir },ensureDir dir)

/-- The host path of a path, which may be null. -/
def full (fs : LittleFS) (path : Option (List Char)) : List Char :=
  let p := path.getD []
  let p := if p.head? = some '/' then p.tail else p
  if fs.root_ = [] then p else fs.root_ ++ '/' :: p

/-- `p.substr(0, p.find_last_of('/'))`, if there is a slash. -/
def parent? (p : List Char) : Option (List Char) :=
  match p.reverse.dropWhile (· ≠ '/') with
  | [] => none
  | _ :: before => some before.reverse

def calls (fs : LittleFS) (op : FileOp) (path : Option (List Char)) : List HostCall :=
  match op with
  | .exists' => [.stat (fs.full path)]
  | .mkdir => ensureDir (fs.full path)
  | .remove => [.remove (fs.full path)]
  | .open' mode =>
    let p := fs.full path
    (match parent? p with
      | some dir => ensureDir dir
      | none => []) ++ [.fopen p mode]

theorem ensureDirFrom_last (acc dir : List Char) (nonempty : acc ++ dir ≠ []) :
    (ensureDirFrom acc dir).getLast? = some (.mkdir (acc ++ dir)) := by
  induction dir generalizing acc with
  | nil =>
    rw [List.append_nil] at nonempty ⊢
    simp [ensureDirFrom,nonempty]
  | cons c rest ih =>
    have last := ih (acc ++ [c]) (by simp)
    rw [List.append_assoc, List.singleton_append] at last
    rw [ensureDirFrom, List.getLast?_append, last]
    rfl

/-- What an operation is about is the last thing it asks for. -/
theorem calls_last (fs : LittleFS) (op : FileOp) (path : Option (List Char)) (rooted : fs.root_ ≠ []) :
    ∃ call, (fs.calls op path).getLast? = some call ∧ call.path = fs.full path := by
  have nonempty : fs.full path ≠ [] := by
    rw [full, if_neg rooted]
    simp
  cases op with
  | exists' => exact ⟨_,rfl,rfl⟩
  | remove => exact ⟨_,rfl,rfl⟩
  | open' mode => exact ⟨_,List.getLast?_concat,rfl⟩
  | mkdir =>
    refine ⟨.mkdir (fs.full path),?_,rfl⟩
    rw [calls, ensureDir, if_neg nonempty]
    exact ensureDirFrom_last [] _ nonempty

/-- The slash that is taken off is no component. -/
theorem components_stripped (p : List Char) :
    components (if p.head? = some '/' then p.tail else p) = components p := by
  cases p with
  | nil => rfl
  | cons c rest =>
    by_cases slash : c = '/'
    · subst slash
      exact (components_join [] rest).symm
    · simp [slash]

/-- The normal form of a path by itself: what it climbs, and the names below. -/
def walk (path : Option (List Char)) : Walk := Walk.along false {} (components (path.getD []))

/-- What every operation asks for stays below the root exactly when the path comes down
again, by the same names, whatever it climbs. -/
theorem files_stay_iff (fs : LittleFS) (dir : List Char) (nonempty : dir ≠ [])
    (plain : ∀ c ∈ components dir, Plain c) (op : FileOp) (path : Option (List Char)) :
    (∃ call, ((fs.setRoot dir).1.calls op path).getLast? = some call ∧
        Below (normalise dir) (normalise call.path)) ↔
      (Absolute dir ∨ (walk path).climbs ≤ (components dir).length) ∧
        (components dir).drop ((components dir).length - (walk path).climbs) <+: (walk path).names := by
  obtain ⟨call,last,same⟩ := calls_last (fs.setRoot dir).1 op path nonempty
  have resolved : (fs.setRoot dir).1.full path =
      dir ++ '/' :: (if (path.getD []).head? = some '/' then (path.getD []).tail else path.getD []) :=
    if_neg nonempty
  have iff := below_join_iff (p := if (path.getD []).head? = some '/' then (path.getD []).tail
    else path.getD []) plain nonempty
  rw [← resolved, ← same, components_stripped] at iff
  rw [walk, ← iff, last]
  constructor
  · rintro ⟨_,found,below⟩
    exact Option.some.inj found ▸ below
  · exact fun below => ⟨call,rfl,below⟩

/-- A path that leaves the node's directory and comes back to it. -/
theorem files_stay_return :
    ((∃ call, ((setRoot {} "/n/1".toList).1.calls .exists' (some "../1/id".toList)).getLast? =
        some call ∧ Below (normalise "/n/1".toList) (normalise call.path)) ↔
      (Absolute "/n/1".toList ∨
          (walk (some "../1/id".toList)).climbs ≤ (components "/n/1".toList).length) ∧
        (components "/n/1".toList).drop
          ((components "/n/1".toList).length - (walk (some "../1/id".toList)).climbs) <+:
            (walk (some "../1/id".toList)).names) ∧
    (walk (some "../1/id".toList)).climbs = 1 :=
  ⟨files_stay_iff {} _ (by decide) (by decide) .exists' _,by decide⟩

/-- Another node's file, removed. -/
theorem file_escapes : ¬∀ (dir : List Char) (op : FileOp) (path : Option (List Char)), dir ≠ [] →
    (∀ c ∈ components dir, Plain c) →
      ∃ call, ((setRoot {} dir).1.calls op path).getLast? = some call ∧
        Below (normalise dir) (normalise call.path) := by
  intro claimed
  obtain ⟨call,last,below⟩ := claimed "/n/1".toList .remove (some "../2/id".toList) (by decide)
    (by decide)
  obtain rfl := Option.some.inj last
  exact absurd below (by decide)

end LittleFS
end Meshcore
