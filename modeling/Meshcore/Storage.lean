import Meshcore.Files
import Meshcore.OpenFiles
import Meshcore.Library.Separation
import Meshcore.Library.Views

/-! The files of several nodes on one host. Each node has its directory, and opens, uses
and closes one file at a time; the host does what it is asked for in the order it is asked. -/
namespace Meshcore

open Paths Trees

def FILE_O_READ : List Char := "rb".toList
def FILE_O_WRITE : List Char := "wb".toList

/-- What the host holds. -/
abbrev Disk := Hierarchy (List UInt8)

inductive HostAnswer where
  | flag (ok : Bool)
  | stream (f : Option HostFile)

/-- What the host's file system has to itself: where the stream of an open directory ends,
which nothing outside that directory has a part in. -/
structure Host where
  ends : Disk → Place → ℕ
  own : ∀ t t' p, (∀ q, p <+: q → t.lookup q = t'.lookup q) → ends t p = ends t' p

variable (host : Host)

/-- A file as it is opened to be read. -/
def Host.reading (cwd : Place) (t : Disk) (path : List Char) : Option HostFile :=
  (look t cwd path).map fun
    | .dir => { directory := some (host.ends t ((path.splitOn '/').foldl step (start cwd path))) }
    | .file bytes => { contents := bytes }

/-- A file opened for writing is emptied at once. -/
def HostCall.run (cwd : Place) (t : Disk) : HostCall → Disk × HostAnswer
  | .stat path => (t,.flag (Trees.stat t cwd path))
  | .mkdir path => ((Trees.mkdir t cwd path).1,.flag (Trees.mkdir t cwd path).2)
  | .remove path => ((Trees.remove t cwd path).1,.flag (Trees.remove t cwd path).2)
  | .fopen path mode =>
    if mode = FILE_O_WRITE then
      ((create t cwd path []).1,.stream ((create t cwd path []).2.map fun p => { place := some p }))
    else
      (t,.stream (host.reading cwd t path))

/-- One more call, whose answer is now the last. -/
def HostCall.next (cwd : Place) (s : Disk × Option HostAnswer) (call : HostCall) :
    Disk × Option HostAnswer :=
  ((call.run host cwd s.1).1,some (call.run host cwd s.1).2)

/-- The calls of an operation, and the answer to the last of them. -/
def HostCall.runAll (cwd : Place) (t : Disk) (calls : List HostCall) : Disk × Option HostAnswer :=
  calls.foldl (next host cwd) (t,none)

inductive FileMode where
  | read | write
  deriving DecidableEq

def FileMode.text : FileMode → List Char
  | read => FILE_O_READ
  | write => FILE_O_WRITE

/-- What a node asks of its files: an open file is used and closed before anything else. -/
inductive StoreOp where
  | exists' | mkdir | remove
  | file (mode : FileMode) (calls : List FileCall)

def StoreOp.op : StoreOp → FileOp
  | exists' => .exists'
  | mkdir => .mkdir
  | remove => .remove
  | file mode _ => .open' mode.text

structure StoreReply where
  ok : Bool
  replies : List FileReply := []

theorem LittleFS.last_stripped (p : List Char) :
    ((if p.head? = some '/' then p.tail else p).splitOn '/').getLast? = (p.splitOn '/').getLast? := by
  cases p with
  | nil => rfl
  | cons c rest =>
    by_cases slash : c = '/'
    · subst slash
      have cut : ('/' :: rest).splitOn '/' = [[]] ++ rest.splitOn '/' :=
        List.splitOn_append_cons_self [] rest
      rw [cut, List.getLast?_append_of_ne_nil _ (List.splitOn_ne_nil _ _)]
      rfl
    · simp [slash]

/-- A node's directory, and where its process stands. -/
structure Node where
  root : List Char
  cwd : Place
  nonempty : root ≠ []
  plain : ∀ c ∈ components root, Plain c

namespace Node

def fs (n : Node) : LittleFS := { root_ := n.root }

def home (n : Node) : Place := start n.cwd n.root ++ components n.root

/-- Closing keeps what was written. -/
def close (t : Disk) : File → Disk
  | some { place := some p, contents, .. } => t.insert p (.file contents)
  | _ => t

def perform (n : Node) (t : Disk) (op : StoreOp) (path : Option (List Char)) :
    Disk × StoreReply :=
  let done := HostCall.runAll host n.cwd t (n.fs.calls op.op path)
  match op, done.2 with
  | .exists', some (.flag ok) => (done.1,⟨ok,[]⟩)
  | .remove, some (.flag ok) => (done.1,⟨ok,[]⟩)
  | .file _ calls, some (.stream f) =>
    (close done.1 (File.calls f calls).1,⟨f.isSome,(File.calls f calls).2⟩)
  | _, _ => (done.1,⟨true,[]⟩)

/-! Every call that an operation makes keeps to the line through the node's directory. -/

/-- A path that does not climb out of where it starts. -/
def Level (path : Option (List Char)) : Prop := (LittleFS.walk path).climbs = 0

instance (path : Option (List Char)) : Decidable (Level path) := inferInstanceAs (Decidable (_ = _))

/-- Where the path leads, below the node's directory. -/
def place (n : Node) (path : Option (List Char)) : Place := n.home ++ (LittleFS.walk path).names

theorem full_split (n : Node) (path : Option (List Char)) : ∃ p,
    components p = components (path.getD []) ∧
    (p.splitOn '/').getLast? = ((path.getD []).splitOn '/').getLast? ∧
    n.fs.full path = n.root ++ '/' :: p :=
  ⟨_,LittleFS.components_stripped _,LittleFS.last_stripped _,if_neg n.nonempty⟩

theorem full_start (n : Node) (path : Option (List Char)) :
    start n.cwd (n.fs.full path) <+: n.home := by
  obtain ⟨p,_,_,whole⟩ := n.full_split path
  rw [whole, start_append n.nonempty]
  exact List.prefix_append _ _

/-- Down to the directory, and from there by the names of the path. -/
theorem full_leads (n : Node) (level : Level path) :
    Leads n.home (start n.cwd (n.fs.full path)) ((n.fs.full path).splitOn '/') ∧
      ((n.fs.full path).splitOn '/').foldl step (start n.cwd (n.fs.full path)) = n.place path := by
  obtain ⟨p,names,_,whole⟩ := n.full_split path
  rw [whole, start_append n.nonempty, List.splitOn_append_cons_self]
  rw [Level, LittleFS.walk, ← names] at level
  rw [place, LittleFS.walk, ← names]
  exact leads_join (fun c member named => n.plain c (List.mem_filter.mpr ⟨member,by simpa using named⟩))
    level

theorem full_within (n : Node) (level : Level path) : Within n.home n.cwd (n.fs.full path) :=
  ⟨(n.full_leads level).1,(n.full_leads level).2 ▸ List.prefix_append _ _⟩

end Node

/-- Each directory that is made is the path up to one of its slashes, or all of it. -/
theorem LittleFS.ensureDirFrom_paths (acc dir : List Char) (made : call ∈ ensureDirFrom acc dir) :
    ∃ q, call = .mkdir q ∧ q ≠ [] ∧ (acc ++ dir = q ∨ ∃ more, acc ++ dir = q ++ '/' :: more) := by
  induction dir generalizing acc with
  | nil =>
    rw [ensureDirFrom] at made
    split at made
    · contradiction
    · next named => exact ⟨acc,List.mem_singleton.mp made,named,.inl (List.append_nil acc)⟩
  | cons c rest ih =>
    rw [ensureDirFrom, List.mem_append] at made
    rcases made with now | later
    · split at now
      · next slash =>
        exact ⟨acc,List.mem_singleton.mp now,slash.2,.inr ⟨rest,by rw [slash.1]⟩⟩
      · contradiction
    · simpa using ih (acc ++ [c]) later

theorem LittleFS.parent_split (found : parent? p = some dir) : ∃ tail, p = dir ++ '/' :: tail := by
  rw [parent?] at found
  split at found
  · contradiction
  · next c before cut =>
    obtain rfl := Option.some.inj found
    have head := List.head?_dropWhile_not (· ≠ '/') p.reverse
    rw [cut] at head
    have slash : c = '/' := by simpa using head
    have whole := List.takeWhile_append_dropWhile (p := (· ≠ '/')) (l := p.reverse)
    rw [cut, slash] at whole
    refine ⟨(p.reverse.takeWhile (· ≠ '/')).reverse,?_⟩
    have := congrArg List.reverse whole
    simpa using this.symm

/-- A call that keeps to the line through a directory, and below it but for making one. -/
structure HostCall.Keeps (home cwd : Place) (call : HostCall) : Prop where
  from_above : start cwd call.path <+: home
  leads : Leads home (start cwd call.path) (call.path.splitOn '/')
  within : (∀ path, call ≠ .mkdir path) → Within home cwd call.path

/-- What is read is not kept anywhere. -/
theorem Host.reading_unkept {t : Disk} (opened : host.reading cwd t path = some f) :
    f.place = none := by
  obtain ⟨e,_,rfl⟩ := Option.map_eq_some_iff.mp opened
  cases e <;> rfl

theorem Host.reading_file {t : Disk} (found : look t cwd path = some (.file bytes)) :
    host.reading cwd t path = some { contents := bytes } := by
  rw [reading, found]
  rfl

/-- A directory below the place ends where it does in the other tree. -/
theorem Host.reading_alike {t t' : Disk} (alike : Alike home t t') (within : Within home cwd path) :
    host.reading cwd t path = host.reading cwd t' path := by
  have ends := host.own t t' _ fun q below => alike.below q (within.ends.trans below)
  rw [reading, reading, look_alike alike within, ends]

theorem HostCall.run_alike {t t' : Disk} (alike : Alike home t t') (keeps : Keeps home cwd call) :
    (call.run host cwd t).2 = (call.run host cwd t').2 ∧
      Alike home (call.run host cwd t).1 (call.run host cwd t').1 := by
  cases call with
  | stat path =>
    have within := keeps.within (by simp)
    exact ⟨congrArg HostAnswer.flag (stat_alike alike within),alike⟩
  | mkdir path =>
    obtain ⟨same,after⟩ := mkdir_alike alike keeps.leads
    exact ⟨congrArg HostAnswer.flag same,after⟩
  | remove path =>
    obtain ⟨same,after⟩ := remove_alike alike (keeps.within (by simp))
    exact ⟨congrArg HostAnswer.flag same,after⟩
  | fopen path mode =>
    have within : Within home cwd path := keeps.within (by simp)
    rw [run, run]
    split
    · obtain ⟨same,after⟩ := create_alike alike within []
      exact ⟨by rw [same],after⟩
    · exact ⟨by rw [host.reading_alike alike within],alike⟩

theorem HostCall.run_spares {t : Disk} (standing : Standing home t) (keeps : Keeps home cwd call) :
    Spares home t (call.run host cwd t).1 := by
  cases call with
  | stat path => exact .refl
  | mkdir path => exact mkdir_spares standing keeps.leads
  | remove path => exact remove_spares (keeps.within (by simp))
  | fopen path mode =>
    rw [run]
    split
    · exact create_spares (keeps.within (by simp)) []
    · exact .refl

theorem HostCall.run_grown {t : Disk} (grown : Grown t) (standing : Standing home t)
    (keeps : Keeps home cwd call) : Grown (call.run host cwd t).1 := by
  have above := standing.of_above keeps.from_above
  cases call with
  | stat path => exact grown
  | mkdir path => exact mkdir_grown grown above
  | remove path => exact remove_grown grown
  | fopen path mode =>
    rw [run]
    split
    · exact create_grown grown above []
    · exact grown

theorem HostCall.runAll_alike {t t' : Disk} (alike : Alike home t t')
    (keeps : ∀ call ∈ calls, Keeps home cwd call) :
    (runAll host cwd t calls).2 = (runAll host cwd t' calls).2 ∧
      Alike home (runAll host cwd t calls).1 (runAll host cwd t' calls).1 := by
  have all (answer : Option HostAnswer) (alike : Alike home t t') :
      let s := calls.foldl (next host cwd) (t,answer)
      let s' := calls.foldl (next host cwd) (t',answer)
      s.2 = s'.2 ∧ Alike home s.1 s'.1 := by
    induction calls generalizing t t' answer with
    | nil => exact ⟨rfl,alike⟩
    | cons call rest ih =>
      obtain ⟨first,others⟩ := List.forall_mem_cons.mp keeps
      obtain ⟨same,after⟩ := run_alike host alike first
      simp only [List.foldl_cons, HostCall.next, ← same]
      exact ih after others _ after
  exact all none alike

/-- What each of the calls keeps. -/
theorem HostCall.runAll_invariant {t : Disk} (inv : Disk → Prop)
    (kept : ∀ t, ∀ call ∈ calls, inv t → inv (call.run host cwd t).1) (begins : inv t) :
    inv (runAll host cwd t calls).1 := by
  have all (answer : Option HostAnswer) (begins : inv t) :
      inv (calls.foldl (next host cwd) (t,answer)).1 := by
    induction calls generalizing t answer with
    | nil => exact begins
    | cons call rest ih =>
      obtain ⟨first,others⟩ := List.forall_mem_cons.mp fun call member t => kept t call member
      exact ih (fun t call member => others call member t) (first t begins) _ (first t begins)
  exact all none begins

theorem HostCall.runAll_spares {t : Disk} (standing : Standing home t)
    (keeps : ∀ call ∈ calls, Keeps home cwd call) : Spares home t (runAll host cwd t calls).1 := by
  refine (runAll_invariant host (fun t' => Standing home t' ∧ Spares home t t') ?_ ⟨standing,.refl⟩).2
  rintro t' call member ⟨standing,before⟩
  have now := run_spares host standing (keeps call member)
  exact ⟨standing.of_spares now (.inr rfl),before.trans now⟩

theorem HostCall.runAll_grown {t : Disk} (grown : Grown t) (standing : Standing home t)
    (keeps : ∀ call ∈ calls, Keeps home cwd call) : Grown (runAll host cwd t calls).1 := by
  refine (runAll_invariant host (fun t' => Standing home t' ∧ Grown t') ?_ ⟨standing,grown⟩).2
  rintro t' call member ⟨standing,grown⟩
  have now := run_spares host standing (keeps call member)
  exact ⟨standing.of_spares now (.inr rfl),run_grown host grown standing (keeps call member)⟩

namespace Node

theorem ensureDir_keeps (n : Node) (level : Level path) (within : dir = n.fs.full path ∨
    ∃ tail, n.fs.full path = dir ++ '/' :: tail) : ∀ call ∈ LittleFS.ensureDir dir,
      HostCall.Keeps n.home n.cwd call := by
  intro call made
  rw [LittleFS.ensureDir] at made
  split at made
  · contradiction
  obtain ⟨q,rfl,named,cut⟩ := LittleFS.ensureDirFrom_paths [] dir made
  rw [List.nil_append] at cut
  -- the path is what is made, or goes on from it by a slash
  have whole : q = n.fs.full path ∨ ∃ more, n.fs.full path = q ++ '/' :: more := by
    rcases within with rfl | ⟨tail,split⟩ <;> rcases cut with rfl | ⟨more,rest⟩
    · exact .inl rfl
    · exact .inr ⟨more,rest⟩
    · exact .inr ⟨tail,split⟩
    · exact .inr ⟨more ++ '/' :: tail,by rw [split, rest, List.append_assoc, List.cons_append]⟩
  have leads := (n.full_leads level).1
  have above := n.full_start path
  rcases whole with rfl | ⟨more,whole⟩
  · exact ⟨above,leads,fun other => absurd rfl (other _)⟩
  · rw [whole, List.splitOn_append_cons_self, start_append named] at leads
    rw [whole, start_append named] at above
    exact ⟨above,leads.of_append,fun other => absurd rfl (other _)⟩

theorem parents_keep (n : Node) (level : Level path) :
    ∀ call ∈ (match LittleFS.parent? (n.fs.full path) with
      | some dir => LittleFS.ensureDir dir
      | none => []), HostCall.Keeps n.home n.cwd call := by
  cases found : LittleFS.parent? (n.fs.full path) with
  | none => simp
  | some dir => exact n.ensureDir_keeps level (.inr (LittleFS.parent_split found))

theorem calls_keep (n : Node) (level : Level path) (op : FileOp) :
    ∀ call ∈ n.fs.calls op path, HostCall.Keeps n.home n.cwd call := by
  have within := n.full_within level
  cases op with
  | exists' | remove =>
    intro call member
    obtain rfl := List.mem_singleton.mp member
    exact ⟨n.full_start path,within.leads,fun _ => within⟩
  | mkdir => exact n.ensureDir_keeps level (.inl rfl)
  | open' mode =>
    intro call member
    rw [LittleFS.calls, List.mem_append] at member
    rcases member with making | opening
    · exact n.parents_keep level call making
    · obtain rfl := List.mem_singleton.mp opening
      exact ⟨n.full_start path,within.leads,fun _ => within⟩

/-! What one operation shows and changes. -/

/-- The disk once the directories above the path are made. -/
def made (n : Node) (t : Disk) (path : Option (List Char)) : Disk :=
  (HostCall.runAll host n.cwd t (match LittleFS.parent? (n.fs.full path) with
    | some dir => LittleFS.ensureDir dir
    | none => [])).1

theorem made_alike (n : Node) (alike : Alike n.home t t') (level : Level path) :
    Alike n.home (n.made host t path) (n.made host t' path) :=
  (HostCall.runAll_alike host alike (n.parents_keep level)).2

theorem made_spares (n : Node) (standing : Standing n.home t) (level : Level path) :
    Spares n.home t (n.made host t path) := HostCall.runAll_spares host standing (n.parents_keep level)

theorem close_none (t : Disk) (calls : List FileCall) : close t (File.calls none calls).1 = t := by
  rw [File.calls_none]
  rfl

/-- What is written is kept at its place. -/
theorem close_kept (t : Disk) {f : HostFile} (kept : f.place = some p) (calls : List FileCall) :
    close t (File.calls (some f) calls).1 =
      t.insert p (.file (File.calls (some f) calls).1.contents) := by
  obtain ⟨⟨place,contents,pos,_⟩,ends,same⟩ := File.calls_place f calls
  obtain rfl : place = some p := same.trans kept
  rw [ends]
  rfl

/-- What is only read is not kept. -/
theorem close_unkept (t : Disk) {f : HostFile} (unkept : f.place = none) (calls : List FileCall) :
    close t (File.calls (some f) calls).1 = t := by
  obtain ⟨⟨place,contents,pos,_⟩,ends,same⟩ := File.calls_place f calls
  obtain rfl : place = none := same.trans unkept
  rw [ends]
  rfl

theorem perform_write (n : Node) (t : Disk) (calls : List FileCall) :
    let new := create (n.made host t path) n.cwd (n.fs.full path) []
    let used := File.calls (new.2.map fun p => { place := some p }) calls
    n.perform host t (.file .write calls) path = (close new.1 used.1,⟨new.2.isSome,used.2⟩) := by
  have last : HostCall.runAll host n.cwd t (n.fs.calls (StoreOp.file .write calls).op path) =
      ((create (n.made host t path) n.cwd (n.fs.full path) []).1,some (.stream
        ((create (n.made host t path) n.cwd (n.fs.full path) []).2.map
          fun p => { place := some p }))) := by
    rw [HostCall.runAll, StoreOp.op, LittleFS.calls, List.foldl_append]
    rfl
  simp only [perform, last, Option.isSome_map]

theorem perform_read (n : Node) (t : Disk) (calls : List FileCall) :
    let found := host.reading n.cwd (n.made host t path) (n.fs.full path)
    n.perform host t (.file .read calls) path =
      (n.made host t path,⟨found.isSome,(File.calls found calls).2⟩) := by
  have last : HostCall.runAll host n.cwd t (n.fs.calls (StoreOp.file .read calls).op path) =
      (n.made host t path,
        some (.stream (host.reading n.cwd (n.made host t path) (n.fs.full path)))) := by
    rw [HostCall.runAll, StoreOp.op, LittleFS.calls, List.foldl_append]
    rfl
  simp only [perform, last]
  cases found : host.reading n.cwd (n.made host t path) (n.fs.full path) with
  | none => exact congrArg (Prod.mk · _) (close_none _ calls)
  | some f => exact congrArg (Prod.mk · _) (close_unkept _ (host.reading_unkept found) calls)

/-- An operation is answered by what is below the directory. -/
theorem perform_alike (n : Node) (alike : Alike n.home t t') (level : Level path) (op : StoreOp) :
    (n.perform host t op path).2 = (n.perform host t' op path).2 ∧
      Alike n.home (n.perform host t op path).1 (n.perform host t' op path).1 := by
  have within := n.full_within level
  cases op with
  | exists' => exact ⟨congrArg (StoreReply.mk · []) (stat_alike alike within),alike⟩
  | mkdir => exact ⟨rfl,(HostCall.runAll_alike host alike (n.calls_keep level .mkdir)).2⟩
  | remove =>
    obtain ⟨same,after⟩ := remove_alike alike within
    exact ⟨congrArg (StoreReply.mk · []) same,after⟩
  | file mode calls =>
    have making := n.made_alike host alike level
    cases mode with
    | read =>
      rw [perform_read, perform_read, host.reading_alike making within]
      exact ⟨rfl,making⟩
    | write =>
      obtain ⟨same,new⟩ := create_alike making within []
      rw [perform_write, perform_write, ← same]
      refine ⟨rfl,?_⟩
      cases kept : (create (n.made host t path) n.cwd (n.fs.full path) []).2 with
      | none =>
        simp only [Option.map_none, close_none]
        exact new
      | some p =>
        simp only [Option.map_some]
        rw [close_kept _ rfl, close_kept _ rfl]
        exact new.insert (create_end kept ▸ within.ends) _

/-- An operation changes nothing but below the directory. -/
theorem perform_spares (n : Node) (standing : Standing n.home t) (level : Level path) (op : StoreOp) :
    Spares n.home t (n.perform host t op path).1 := by
  have within := n.full_within level
  cases op with
  | exists' => exact .refl
  | mkdir => exact HostCall.runAll_spares host standing (n.calls_keep level .mkdir)
  | remove => exact remove_spares within
  | file mode calls =>
    have making := n.made_spares host standing level
    cases mode with
    | read =>
      rw [perform_read]
      exact making
    | write =>
      rw [perform_write]
      refine making.trans ((create_spares within []).trans ?_)
      cases kept : (create (n.made host t path) n.cwd (n.fs.full path) []).2 with
      | none =>
        simp only [Option.map_none, close_none]
        exact .refl
      | some p =>
        simp only [Option.map_some]
        rw [close_kept _ rfl]
        exact .insert (create_end kept ▸ within.ends) _

/-! What is kept in the files below a node's directory. -/

theorem runAll_contents (here : Place) (t : Disk)
    (making : ∀ call ∈ calls, ∃ q, call = HostCall.mkdir q) (p : Place) :
    contents (HostCall.runAll host here t calls).1 p = contents t p := by
  refine HostCall.runAll_invariant host (fun t' => contents t' p = contents t p) ?_ rfl
  intro t' call member same
  obtain ⟨q,rfl⟩ := making call member
  exact mkdir_contents.trans same

theorem ensureDir_making (dir : List Char) : ∀ call ∈ LittleFS.ensureDir dir, ∃ q, call = .mkdir q := by
  intro call member
  rw [LittleFS.ensureDir] at member
  split at member
  · contradiction
  · obtain ⟨q,made,_⟩ := LittleFS.ensureDirFrom_paths [] dir member
    exact ⟨q,made⟩

theorem made_contents (n : Node) (t : Disk) (path : Option (List Char)) (p : Place) :
    contents (n.made host t path) p = contents t p := by
  rw [made]
  cases LittleFS.parent? (n.fs.full path) with
  | none => rfl
  | some dir => exact runAll_contents host _ t (ensureDir_making dir) p

theorem made_grown (n : Node) (grown : Grown t) (standing : Standing n.home t) (level : Level path) :
    Grown (n.made host t path) := HostCall.runAll_grown host grown standing (n.parents_keep level)

/-- What a file holds once it has been made, used and closed. -/
def written (p : Place) (calls : List FileCall) : List UInt8 :=
  (File.calls (some { place := some p }) calls).1.contents

/-- What is known to be kept under each name, when an operation has been answered. -/
def note (n : Node) (kept : List (List Char) → Option (List UInt8)) (op : StoreOp)
    (path : Option (List Char)) (reply : StoreReply) : List (List Char) → Option (List UInt8) :=
  match op with
  | .remove => if reply.ok then Function.update kept (LittleFS.walk path).names none else kept
  | .file .write calls =>
    if reply.ok then
      Function.update kept (LittleFS.walk path).names (some (written (n.place path) calls))
    else kept
  | _ => kept

/-- Two places below the directory are one when their names are. -/
theorem below_place_iff (n : Node) (names : List (List Char)) :
    n.home ++ names = n.place path ↔ names = (LittleFS.walk path).names :=
  List.append_right_inj n.home

theorem perform_remove_contents (n : Node) (t : Disk) (level : Level path) (names : List (List Char)) :
    contents (n.perform host t .remove path).1 (n.home ++ names) =
      if (n.perform host t .remove path).2.ok = true ∧ names = (LittleFS.walk path).names then none
      else contents t (n.home ++ names) := by
  have gone : contents (Trees.remove t n.cwd (n.fs.full path)).1 (n.home ++ names) = _ :=
    remove_contents
  simp only [(n.full_leads level).2, below_place_iff] at gone
  exact gone

/-- A file that could be made holds what was written to it. -/
theorem perform_write_contents (n : Node) (t : Disk) (level : Level path) (calls : List FileCall)
    (names : List (List Char)) :
    contents (n.perform host t (.file .write calls) path).1 (n.home ++ names) =
      if (n.perform host t (.file .write calls) path).2.ok = true ∧ names = (LittleFS.walk path).names
      then some (written (n.place path) calls) else contents t (n.home ++ names) := by
  rw [perform_write]
  cases kept : (create (n.made host t path) n.cwd (n.fs.full path) []).2 with
  | none =>
    simp only [Option.map_none, close_none, create_contents, kept, made_contents]
    rfl
  | some p =>
    obtain rfl : p = n.place path := (create_end kept).trans (n.full_leads level).2
    simp only [Option.map_some, Option.isSome_some, true_and]
    rw [close_kept _ rfl, contents_insert, create_contents, kept, made_contents]
    simp only [below_place_iff, Option.some.injEq, eq_comm (a := n.place path)]
    by_cases same : names = (LittleFS.walk path).names
    · simp only [same, if_true, written]
    · simp only [same, if_false]

theorem perform_note (n : Node) (t : Disk) (level : Level path) (op : StoreOp)
    (names : List (List Char)) : contents (n.perform host t op path).1 (n.home ++ names) =
      n.note (fun names => contents t (n.home ++ names)) op path
        (n.perform host t op path).2 names := by
  -- an answered removal or writing is an update at the names of the path
  have updates (ok : Bool) (new : Option (List UInt8)) :
      (if ok = true ∧ names = (LittleFS.walk path).names then new else contents t (n.home ++ names)) =
        (if ok = true then Function.update (fun names => contents t (n.home ++ names))
          (LittleFS.walk path).names new else fun names => contents t (n.home ++ names)) names := by
    cases ok with
    | true => simp only [true_and, if_true, Function.update_apply]
    | false => simp
  cases op with
  | exists' => rfl
  | mkdir => exact runAll_contents host _ t (ensureDir_making _) _
  | remove => exact (n.perform_remove_contents host t level names).trans (updates _ none)
  | file mode calls =>
    cases mode with
    | read =>
      rw [perform_read]
      exact n.made_contents host t path _
    | write => exact (n.perform_write_contents host t level calls names).trans (updates _ _)

theorem perform_grown (n : Node) (grown : Grown t) (standing : Standing n.home t) (level : Level path)
    (op : StoreOp) : Grown (n.perform host t op path).1 := by
  cases op with
  | exists' => exact grown
  | mkdir => exact HostCall.runAll_grown host grown standing (n.calls_keep level .mkdir)
  | remove => exact remove_grown grown
  | file mode calls =>
    have making := n.made_grown host grown standing level
    cases mode with
    | read =>
      rw [perform_read]
      exact making
    | write =>
      have above := (standing.of_spares (n.made_spares host standing level) (.inr rfl)).of_above
        (n.full_start path)
      have new := create_grown making above ([] : List UInt8)
      rw [perform_write]
      cases kept : (create (n.made host t path) n.cwd (n.fs.full path) []).2 with
      | none =>
        simp only [Option.map_none, close_none]
        exact new
      | some p =>
        obtain ⟨free,there⟩ := create_made kept
        simp only [Option.map_some]
        rw [close_kept _ rfl]
        exact new.insert (new p there) (.inl free)

/-- Names alone, that of a file last. -/
structure Direct (path : Option (List Char)) : Prop where
  plain : ∀ c ∈ components (path.getD []), Plain c
  last : ((path.getD []).splitOn '/').getLast? ≠ some []

theorem Direct.level (direct : Direct path) : Level path := by
  rw [Level, LittleFS.walk, along_plain _ _ _ direct.plain]

/-- A file that is kept is found by its names. -/
theorem look_kept (n : Node) {t : Disk} (grown : Grown t) (direct : Direct path)
    (kept : contents t (n.place path) = some bytes) :
    look t n.cwd (n.fs.full path) = some (.file bytes) := by
  obtain ⟨p,names,last,whole⟩ := n.full_split path
  have components_full : components (n.fs.full path) =
      components n.root ++ components (path.getD []) := by
    rw [whole, components_join, names]
  have plain : ∀ c ∈ (n.fs.full path).splitOn '/', c ≠ [] → Plain c := by
    intro c member named
    have found : c ∈ components (n.fs.full path) := List.mem_filter.mpr ⟨member,by simpa using named⟩
    rw [components_full, List.mem_append] at found
    exact found.elim (n.plain c) (direct.plain c)
  have last_full : ((n.fs.full path).splitOn '/').getLast? ≠ some [] := by
    rw [whole, List.splitOn_append_cons_self,
      List.getLast?_append_of_ne_nil _ (List.splitOn_ne_nil _ _), last]
    exact direct.last
  have ends : n.place path = start n.cwd (n.fs.full path) ++ components (n.fs.full path) :=
    (n.full_leads direct.level).2.symm.trans (ends_plain plain)
  have named : components (n.fs.full path) ≠ [] := named_of_last (List.splitOn_ne_nil _ _) last_full
  have there : t.lookup (n.place path) = some (.file bytes) := by
    rw [contents] at kept
    split at kept
    · next found => rw [found, Option.some.inj kept]
    · contradiction
  have led : locate t n.cwd (n.fs.full path) = some (n.place path) := by
    have given : n.fs.full path ≠ [] := by
      rw [whole]
      simp
    rw [locate, if_neg given, ends]
    refine walk_plain plain last_full fun q _ above different => ?_
    have entry : n.place path ∈ t := AList.lookup_isSome.mp (by rw [there]; rfl)
    exact grown _ (ends ▸ entry) q above different
  have file : ¬IsDir t (n.place path) := by
    rintro (top | dir)
    · exact named (List.append_eq_nil_iff.mp (ends.symm.trans top)).2
    · rw [there] at dir
      simp at dir
  rw [look, led, Option.bind_some, if_neg file, there]

end Node

section
variable {ι : Type} [DecidableEq ι] (node : ι → Node)

/-- What the nodes ask for, one after another: which node, what, and of which path. -/
abbrev Request (ι : Type) := ι × StoreOp × Option (List Char)

def serveRequest (t : Disk) (r : Request ι) : Disk × StoreReply := (node r.1).perform host t r.2.1 r.2.2

theorem serveRequest_standing (apart : ∀ i j, i ≠ j → ¬(node i).home <+: (node j).home) {t : Disk}
    {r : Request ι} (level : Node.Level r.2.2) (standing : ∀ j, Standing (node j).home t) (j : ι) :
    Standing (node j).home (serveRequest host node t r).1 :=
  (standing j).of_spares ((node r.1).perform_spares host (standing r.1) level r.2.1) (by
    by_cases mine : r.1 = j
    · exact .inr (by rw [mine])
    · exact .inl (apart r.1 j mine))

/-- However the nodes' requests follow one another, each node gets the replies that it would
get alone. -/
theorem nodes_apart (apart : ∀ i j, i ≠ j → ¬(node i).home <+: (node j).home) (t : Disk)
    (standing : ∀ i, Standing (node i).home t) (requests : List (Request ι))
    (level : ∀ r ∈ requests, Node.Level r.2.2) (i : ι) :
    (Views.serve (serveRequest host node) t requests).2.filter (fun r => r.1.1 = i) =
      (Views.serve (serveRequest host node) t (requests.filter (·.1 = i))).2 := by
  -- both disks show the node the same, and every directory stays where it is in both
  let same (t t' : Disk) := Alike (node i).home t t' ∧
    (∀ j, Standing (node j).home t) ∧ ∀ j, Standing (node j).home t'
  have agree (t t' : Disk) (r : Request ι) (level : Node.Level r.2.2) (alike : same t t')
      (own : decide (r.1 = i) = true) :
      (serveRequest host node t r).2 = (serveRequest host node t' r).2 ∧
        same (serveRequest host node t r).1 (serveRequest host node t' r).1 := by
    obtain ⟨alike,standing,standing'⟩ := alike
    obtain ⟨k,op,path⟩ := r
    obtain rfl : k = i := of_decide_eq_true own
    obtain ⟨reply,after⟩ := (node k).perform_alike host alike level op
    exact ⟨reply,after,serveRequest_standing host node apart level standing,
      serveRequest_standing host node apart level standing'⟩
  have others (t t' : Disk) (r : Request ι) (level : Node.Level r.2.2) (alike : same t t')
      (own : decide (r.1 = i) = false) : same (serveRequest host node t r).1 t' := by
    obtain ⟨alike,standing,standing'⟩ := alike
    have other : r.1 ≠ i := of_decide_eq_false own
    have spares := (node r.1).perform_spares host (standing r.1) level r.2.1
    exact ⟨alike.of_spares spares (apart i r.1 other.symm) (apart r.1 i other),
      serveRequest_standing host node apart level standing,standing'⟩
  exact Views.serve_apart (fun r => Node.Level r.2.2) (fun r => decide (r.1 = i)) same agree others
    ⟨⟨fun _ _ => rfl,standing i,standing i⟩,standing,standing⟩ requests level

/-- A file system where each directory's stream ends at the last place there is. -/
def endless : Host := ⟨fun _ _ => 9223372036854775807,fun _ _ _ _ => rfl⟩

/-- Two directories side by side. -/
def neighbours : Bool → Node
  | false => ⟨"/n/1".toList,[],by decide,by decide⟩
  | true => ⟨"/n/2".toList,[],by decide,by decide⟩

/-- One writes what the other removes by the same name. -/
def exchange : List (Request Bool) :=
  [(false,.file .write [.write [1],.write [2,3]],some "/prefs/id".toList),
    (true,.remove,some "prefs/id".toList),(true,.file .write [.write [4]],some "prefs/id".toList)]

/-- A host with the one directory that both nodes have theirs in. -/
def shared : Disk := (∅ : Disk).insert ["n".toList] .dir

/-- The neighbour is told that there is nothing to remove. -/
theorem nodes_apart_neighbours :
    (Views.serve (serveRequest endless neighbours) shared exchange).2.filter
        (fun r => r.1.1 = true) =
      (Views.serve (serveRequest endless neighbours) shared
        (exchange.filter (·.1 = true))).2 ∧
    ((Views.serve (serveRequest endless neighbours) shared exchange).2.map
        fun r => r.2.ok) = [true,false,true] :=
  ⟨nodes_apart endless neighbours (by decide) _ (by decide) exchange (by decide) true,by decide⟩

/-- What is known to be kept below a node's directory from its own requests and replies. -/
def savedBy (i : ι) (start : List (List Char) → Option (List UInt8))
    (served : List (Request ι × StoreReply)) : List (List Char) → Option (List UInt8) :=
  (served.filter fun r => r.1.1 = i).foldl (fun kept r => (node i).note kept r.1.2.1 r.1.2.2 r.2) start

/-- Through any requests the disk has grown from its top, and holds what the replies say. -/
theorem serve_kept (apart : ∀ i j, i ≠ j → ¬(node i).home <+: (node j).home) {t : Disk}
    (grown : Grown t) (standing : ∀ i, Standing (node i).home t) (requests : List (Request ι))
    (level : ∀ r ∈ requests, Node.Level r.2.2) (i : ι) :
    let served := Views.serve (serveRequest host node) t requests
    Grown served.1 ∧ Standing (node i).home served.1 ∧ ∀ names,
      contents served.1 ((node i).home ++ names) =
        savedBy node i (fun names => contents t ((node i).home ++ names)) served.2 names := by
  let rel (g : List (List Char) → Option (List UInt8)) (t : Disk) := Grown t ∧
    (∀ j, Standing (node j).home t) ∧ ∀ names, contents t ((node i).home ++ names) = g names
  let track (g : List (List Char) → Option (List UInt8)) (r : Request ι) (reply : StoreReply) :=
    if r.1 = i then (node i).note g r.2.1 r.2.2 reply else g
  have step (g : List (List Char) → Option (List UInt8)) (t : Disk) (r : Request ι)
      (level : Node.Level r.2.2) (known : rel g t) :
      rel (track g r (serveRequest host node t r).2) (serveRequest host node t r).1 := by
    obtain ⟨k,op,path⟩ := r
    obtain ⟨grown,standing,same⟩ := known
    refine ⟨(node k).perform_grown host grown (standing k) level op,
      serveRequest_standing host node apart level standing,fun names => ?_⟩
    by_cases own : k = i
    · subst own
      simp only [track, if_true, ← funext same]
      exact (node k).perform_note host t level op names
    · have spares := (node k).perform_spares host (standing k) level op
      have below := List.prefix_append (node i).home names
      have outside := outside_other below
        (apart i k (Ne.symm own)) (apart k i own)
      simp only [track, if_neg own, ← same names]
      exact spares.contents outside
  let start (names : List (List Char)) := contents t ((node i).home ++ names)
  have tracked : rel ((Views.serve (serveRequest host node) t requests).2.foldl
      (fun g r => track g r.1 r.2) start) (Views.serve (serveRequest host node) t requests).1 :=
    Views.serve_tracks (fun r => Node.Level r.2.2) track rel step ⟨grown,standing,fun _ => rfl⟩
      requests level
  obtain ⟨grown,standing,same⟩ := tracked
  refine ⟨grown,standing i,fun names => ?_⟩
  rw [same names, savedBy, List.foldl_filter]
  simp only [decide_eq_true_eq, track, start]

/-- Whatever the other nodes do in between, a node that opens a file reads what it last wrote
under the names of the path; by plain names it does open it, and without seeking it takes
the bytes in their order. -/
theorem saved_reads_back (apart : ∀ i j, i ≠ j → ¬(node i).home <+: (node j).home) {t : Disk}
    (grown : Grown t) (standing : ∀ i, Standing (node i).home t) (requests : List (Request ι))
    (level : ∀ r ∈ requests, Node.Level r.2.2) (i : ι) (path : Option (List Char))
    (level' : Node.Level path) (calls : List FileCall) :
    let served := Views.serve (serveRequest host node) t requests
    let saved := savedBy node i (fun names => contents t ((node i).home ++ names)) served.2
      (LittleFS.walk path).names
    let read := (node i).perform host served.1 (.file .read calls) path
    (read.2.ok = true → IsDir read.1 ((node i).place path) ∨ ∃ bytes, saved = some bytes ∧
      read.2.replies = (File.calls (some { contents := bytes }) calls).2) ∧
    ∀ bytes, Node.Direct path → saved = some bytes → read.2.ok = true ∧
      read.2.replies = (File.calls (some { contents := bytes }) calls).2 ∧
      ((∀ c ∈ calls, ∀ pos, c ≠ .seek pos) →
        read.2.replies.flatMap FileReply.taken = bytes.take (FileCall.allAsk calls)) := by
  obtain ⟨grown,standing,same⟩ := serve_kept host node apart grown standing requests level i
  intro served saved read
  have holds : contents ((node i).made host served.1 path) ((node i).place path) = saved := by
    rw [Node.made_contents host, Node.place, same]
  have ends := ((node i).full_leads level').2
  have reads : (node i).perform host served.1 (.file .read calls) path = _ :=
    (node i).perform_read host served.1 calls
  have disk : read.1 = (node i).made host served.1 path := congrArg Prod.fst reads
  have reply := congrArg Prod.snd reads
  constructor
  · intro opened
    cases found : look ((node i).made host served.1 path) (node i).cwd ((node i).fs.full path) with
    | none =>
      rw [Host.reading, found] at reply
      exact absurd (opened.symm.trans (congrArg StoreReply.ok reply)) (by simp)
    | some e =>
      cases e with
      | dir => exact .inl (disk ▸ ends ▸ look_dir found)
      | file bytes =>
        rw [host.reading_file found] at reply
        have there := look_file found
        rw [ends, holds] at there
        exact .inr ⟨bytes,there,congrArg StoreReply.replies reply⟩
  · intro bytes direct there
    have grown' := (node i).made_grown host grown standing level'
    have found := (node i).look_kept grown' direct (holds.trans there)
    rw [host.reading_file found] at reply
    have replies : read.2.replies = (File.calls (some { contents := bytes }) calls).2 :=
      congrArg StoreReply.replies reply
    refine ⟨congrArg StoreReply.ok reply,replies,fun still => ?_⟩
    rw [replies]
    exact File.calls_taken rfl still

/-- The pieces that were written before the neighbour came, read byte by byte. -/
theorem saved_reads_back_neighbours :
    ((neighbours false).perform endless
      (Views.serve (serveRequest endless neighbours) shared exchange).1
      (.file .read [.read,.available,.readBytes 8]) (some "prefs//id".toList)).2.replies.flatMap
        FileReply.taken = [1,2,3] := by
  have back := saved_reads_back endless neighbours (by decide) (t := shared)
    (by decide) (by decide) exchange (by decide) false (some "prefs//id".toList) (by decide)
    [.read,.available,.readBytes 8]
  obtain ⟨_,_,taken⟩ := back.2 [1,2,3] ⟨by decide,by decide⟩ (by decide)
  exact taken (by simp)

end
end Meshcore
