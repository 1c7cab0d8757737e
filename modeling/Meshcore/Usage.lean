import Meshcore.Library.Blocks
import Meshcore.Library.Visits
import Mathlib.Algebra.BigOperators.Group.List.Basic

/-! The usage walk of the node's filesystem, and the store it walks. The walk charges
what it finds in the root directory, in whatever order the host lists it; what a
directory there holds it charges only as far as the directory's own size goes. -/
namespace Meshcore

open Blocks Visits

/-- The geometry of `lfs_host_config`. -/
def block_size : UInt32 := 4096

/-- An entry `readdir` gives, and the size `stat` has for it, if it has one. -/
structure Dirent where
  d_name : List Char
  st_size : Option Nat
  deriving DecidableEq

def Dirent.hidden (e : Dirent) : Bool := e.d_name.head? = some '.'

/-- `((lfs_size_t)st.st_size + block_size - 1) / block_size + 1` -/
def used (st_size : Nat) : UInt32 := (UInt32.ofNat st_size + block_size - 1) / block_size + 1

variable {σ : Type}

/-- The blocks of one entry: what the callback makes of its data, its last answer, and
the next block. -/
def chargeEntry (cb : σ → UInt32 → σ × Int) : Nat → σ → UInt32 → (σ × Int) × UInt32
  | 0, data, block => ((data,0),block)
  | n + 1, data, block =>
    let (data,err) := cb data block
    if err ≠ 0 then ((data,err),block + 1) else chargeEntry cb n data (block + 1)

def chargeEntries (cb : σ → UInt32 → σ × Int) : List Dirent → σ → UInt32 → σ × Int
  | [], data, _ => (data,0)
  | e :: rest, data, block =>
    if e.hidden then chargeEntries cb rest data block
    else match e.st_size with
      | none => chargeEntries cb rest data block
      | some st_size =>
        let ((data,err),block) := chargeEntry cb (used st_size).toNat data block
        if err ≠ 0 then (data,err) else chargeEntries cb rest data block

/-- `d` is what `opendir` and `readdir` make of the root. -/
def lfs_traverse (d : Option (List Dirent)) (cb : σ → UInt32 → σ × Int) (data : σ) : σ × Int :=
  match d with
  | none => (data,0)
  | some listing => chargeEntries cb listing data 0

/-- The blocks an entry is charged. -/
def Dirent.charged (e : Dirent) : Nat :=
  if e.hidden then 0 else (e.st_size.map fun st_size => (used st_size).toNat).getD 0

def charged (listing : List Dirent) : Nat := (listing.map Dirent.charged).sum

/-- `n` block numbers in order, as the counter has them. -/
def blockNumbers (block : UInt32) (n : Nat) : List UInt32 :=
  (List.range n).map fun i => block + UInt32.ofNat i

theorem blockNumbers_succ (block : UInt32) (n : Nat) :
    blockNumbers block (n + 1) = block :: blockNumbers (block + 1) n := by
  simp only [blockNumbers, List.range_succ_eq_map, List.map_cons, List.map_map]
  refine congrArg₂ _ (UInt32.add_zero block) (List.map_congr_left fun i _ => ?_)
  rw [Function.comp_apply, Nat.succ_eq_add_one, UInt32.ofNat_add, UInt32.add_assoc]
  ac_rfl

theorem blockNumbers_add (block : UInt32) (m n : Nat) : blockNumbers block (m + n) =
    blockNumbers block m ++ blockNumbers (block + UInt32.ofNat m) n := by
  simp only [blockNumbers, List.range_add, List.map_append, List.map_map]
  refine congrArg₂ _ rfl (List.map_congr_left fun i _ => ?_)
  rw [Function.comp_apply, UInt32.ofNat_add, UInt32.add_assoc]

theorem chargeEntry_eq (cb : σ → UInt32 → σ × Int) (n : Nat) (data : σ) (block : UInt32) :
    (chargeEntry cb n data block).1 = visit cb data (blockNumbers block n) ∧
      ((chargeEntry cb n data block).1.2 = 0 →
        (chargeEntry cb n data block).2 = block + UInt32.ofNat n) := by
  induction n generalizing data block with
  | zero => exact ⟨rfl,fun _ => (UInt32.add_zero block).symm⟩
  | succ n ih =>
    rw [blockNumbers_succ]
    by_cases zero : (cb data block).2 = 0
    · obtain ⟨calls,next⟩ := ih (cb data block).1 (block + 1)
      rw [visit_cons_of_zero zero, chargeEntry]
      simp only [zero, ne_eq, not_true_eq_false, ite_false]
      refine ⟨calls,fun done => ?_⟩
      rw [next done, UInt32.ofNat_add, UInt32.add_assoc]
      ac_rfl
    · rw [visit_cons_of_ne zero, chargeEntry]
      simp [zero]

/-- The walk is its callback, run over the block numbers it charges. -/
theorem chargeEntries_eq (cb : σ → UInt32 → σ × Int) (listing : List Dirent) (data : σ)
    (block : UInt32) :
    chargeEntries cb listing data block = visit cb data (blockNumbers block (charged listing)) := by
  induction listing generalizing data block with
  | nil => rfl
  | cons e rest ih =>
    have sum : charged (e :: rest) = e.charged + charged rest := by simp [charged]
    rw [sum, blockNumbers_add, chargeEntries, Dirent.charged]
    by_cases hidden : e.hidden = true
    · simp [hidden,ih,blockNumbers]
    · simp only [hidden]
      cases e.st_size with
      | none => simp [ih,blockNumbers]
      | some st_size =>
        obtain ⟨calls,next⟩ := chargeEntry_eq cb (used st_size).toNat data block
        simp only [Bool.false_eq_true, ite_false, Option.map_some, Option.getD_some]
        rw [visit_append, ← calls]
        by_cases stopped : (chargeEntry cb (used st_size).toNat data block).1.2 = 0
        · rw [if_neg (not_not.mpr stopped), if_neg (not_not.mpr stopped), ih, next stopped]
        · rw [if_pos stopped, if_pos stopped]

/-! The store: a directory is its entries, one after another. -/

inductive Store where
  | nil
  | file (d_name : List Char) (size : Nat) (rest : Store)
  | directory (d_name : List Char) (st_size : Nat) (entries rest : Store)
  deriving DecidableEq

namespace Store

/-- What `readdir` and `stat` say of a directory's entries. -/
def dirents : Store → List Dirent
  | nil => []
  | file d_name size rest => ⟨d_name,some size⟩ :: rest.dirents
  | directory d_name st_size _ rest => ⟨d_name,some st_size⟩ :: rest.dirents

/-- Every file is small enough for the arithmetic of the walk. -/
def Fits : Store → Prop
  | nil => True
  | file _ size rest => size < UInt32.size - 4096 ∧ rest.Fits
  | directory _ _ entries rest => entries.Fits ∧ rest.Fits

/-- The blocks of a file: its data, and one for its metadata. -/
def fileBlocks (size : Nat) : Nat := blocks 4096 size + 1

/-- The blocks of all the files, at any depth. -/
def stored : Store → Nat
  | nil => 0
  | file _ size rest => fileBlocks size + rest.stored
  | directory _ _ entries rest => entries.stored + rest.stored

/-- The blocks of the files the walk does not come to: those in directories, and those in
the root whose names begin with a dot. -/
def unseen : Store → Nat
  | nil => 0
  | file d_name size rest =>
    (if d_name.head? = some '.' then fileBlocks size else 0) + rest.unseen
  | directory _ _ entries rest => entries.stored + rest.unseen

/-- The blocks the walk charges for the directories of the root themselves. -/
def directories : Store → Nat
  | nil => 0
  | file _ _ rest => rest.directories
  | directory d_name st_size _ rest =>
    (if d_name.head? = some '.' then 0 else (used st_size).toNat) + rest.directories

end Store

theorem used_toNat (fits : size < UInt32.size - 4096) :
    (used size).toNat = Store.fileBlocks size := by
  have value : (UInt32.ofNat size).toNat = size := UInt32.toNat_ofNat_of_lt' (by omega)
  have room : size + 4096 < 2 ^ 32 := by
    rw [UInt32.size] at fits
    omega
  have whole : (UInt32.ofNat size + block_size).toNat = size + 4096 := by
    rw [UInt32.toNat_add, value]
    exact Nat.mod_eq_of_lt room
  have rounded : (UInt32.ofNat size + block_size - 1).toNat = size + 4095 := by
    rw [UInt32.toNat_sub_of_le, whole]
    · rfl
    · rw [UInt32.le_iff_toNat_le, whole]
      exact Nat.le_add_left 1 _
  have quotient : (size + 4095) / 4096 < UInt32.size - 1 := by
    rw [UInt32.size]
    omega
  rw [UInt32.size] at quotient
  rw [used, UInt32.toNat_add, UInt32.toNat_div, rounded, Store.fileBlocks, blocks]
  exact Nat.mod_eq_of_lt (Nat.add_lt_of_lt_sub quotient)

/-- The files in sight are charged in full, and the directories of the root on top. -/
theorem Store.charged_dirents (t : Store) (fits : t.Fits) :
    charged t.dirents + t.unseen = t.stored + t.directories := by
  have first (e : Dirent) (rest : List Dirent) : charged (e :: rest) = e.charged + charged rest := by
    simp [charged]
  induction t with
  | nil => rfl
  | file d_name size rest ih =>
    have later := ih fits.2
    rw [dirents, first, unseen, stored, directories, Dirent.charged, Dirent.hidden]
    by_cases hidden : d_name.head? = some '.'
    · simp only [hidden, decide_true, ite_true]
      omega
    · simp only [hidden, decide_false, Bool.false_eq_true, ite_false, Option.map_some,
        Option.getD_some, used_toNat fits.1]
      omega
  | directory d_name st_size entries rest _ ih =>
    have later := ih fits.2
    rw [dirents, first, unseen, stored, directories, Dirent.charged, Dirent.hidden]
    by_cases hidden : d_name.head? = some '.'
    · simp only [hidden, decide_true, ite_true]
      omega
    · simp only [hidden, decide_false, Bool.false_eq_true, ite_false, Option.map_some,
        Option.getD_some]
      omega

/-- The root's listing: its entries, itself and its parent, in any order. -/
def Lists (listing : List Dirent) (t : Store) : Prop :=
  ∃ here up, listing.Perm (⟨['.'],here⟩ :: ⟨['.','.'],up⟩ :: t.dirents)

theorem charged_listing {listing : List Dirent} {t : Store} (lists : Lists listing t) :
    charged listing = charged t.dirents := by
  obtain ⟨here,up,same⟩ := lists
  rw [charged, (same.map _).sum_eq]
  simp [charged,Dirent.charged,Dirent.hidden]

/-- The walk calls back with the numbers from zero on, at least as many times as the store
has blocks, when no call stops it. -/
def Charges (listing : List Dirent) (stored : Nat) : Prop :=
  ∃ n, stored ≤ n ∧ ∀ (σ : Type) (f : σ → UInt32 → σ) (data : σ),
    lfs_traverse (some listing) (fun data block => (f data block,0)) data =
      (((List.range n).map UInt32.ofNat).foldl f data,0)

/-- The first call that answers something else is the last of the walk, and its answer the
walk's. -/
def Stops (listing : List Dirent) : Prop :=
  ∀ (σ : Type) (cb : σ → UInt32 → σ × Int) (data after last : σ) (err : Int) (k : Nat),
    k < charged listing → visit cb data ((List.range k).map UInt32.ofNat) = (after,0) →
      cb after (UInt32.ofNat k) = (last,err) → err ≠ 0 →
        lfs_traverse (some listing) cb data = (last,err)

theorem blockNumbers_zero (n : Nat) : blockNumbers 0 n = (List.range n).map UInt32.ofNat :=
  List.map_congr_left fun _ _ => UInt32.zero_add _

theorem lfs_traverse_eq (listing : List Dirent) (cb : σ → UInt32 → σ × Int) (data : σ) :
    lfs_traverse (some listing) cb data =
      visit cb data ((List.range (charged listing)).map UInt32.ofNat) := by
  rw [← blockNumbers_zero]
  exact chargeEntries_eq cb listing data 0

theorem stops (listing : List Dirent) : Stops listing := by
  intro σ cb data after last err k before earlier call stops
  obtain ⟨later,split⟩ : ∃ later, (List.range (charged listing)).map UInt32.ofNat =
      (List.range k).map UInt32.ofNat ++ UInt32.ofNat k :: later := by
    obtain ⟨more,sum⟩ := Nat.exists_eq_add_of_lt before
    refine ⟨(List.range more).map fun i => UInt32.ofNat (k + 1 + i),?_⟩
    rw [sum, Nat.add_assoc, Nat.add_comm more, ← Nat.add_assoc, List.range_add, List.range_succ]
    simp [Function.comp_def]
  rw [lfs_traverse_eq, split]
  exact visit_stops earlier call stops

theorem charges_iff (listing : List Dirent) (stored : Nat) :
    Charges listing stored ↔ stored ≤ charged listing := by
  constructor
  · rintro ⟨n,enough,calls⟩
    -- A callback that counts its calls tells how many there are.
    have counted := calls Nat (fun count _ => count + 1) 0
    have counts (count : Nat) (blocks : List UInt32) :
        blocks.foldl (fun count _ => count + 1) count = count + blocks.length := by
      induction blocks generalizing count with
      | nil => rfl
      | cons block rest ih => rw [List.foldl_cons, ih, List.length_cons]; omega
    rw [lfs_traverse_eq, visit_of_zero, Prod.mk.injEq, counts, counts] at counted
    simp only [List.length_map, List.length_range, Nat.zero_add, and_true] at counted
    omega
  · intro enough
    refine ⟨charged listing,enough,fun σ f data => ?_⟩
    rw [lfs_traverse_eq, visit_of_zero]

/-- The walk charges every stored file, and stops when it is told to, exactly when what it
charges for the directories of the root makes up for the files it does not come to. -/
theorem usage_charges_iff (t : Store) (fits : t.Fits) (listing : List Dirent)
    (lists : Lists listing t) :
    Charges listing t.stored ∧ Stops listing ↔ t.unseen ≤ t.directories := by
  have books := t.charged_dirents fits
  rw [charges_iff, charged_listing lists, and_iff_left (stops listing)]
  omega

/-- A small file in a directory, which the directory's own block makes up for. -/
theorem usage_charges_small : ∃ t listing,
    t = Store.file ['p'] 5000 (.directory ['d'] 4096 (.file ['f'] 10 .nil) .nil) ∧
      (Charges listing t.stored ∧ Stops listing ↔ t.unseen ≤ t.directories) ∧
      t.unseen = 2 ∧ t.directories = 2 := by
  have fits : (Store.file ['p'] 5000 (.directory ['d'] 4096 (.file ['f'] 10 .nil) .nil)).Fits :=
    ⟨by decide,⟨by decide,trivial⟩,trivial⟩
  exact ⟨_,_,rfl,usage_charges_iff _ fits _ ⟨none,none,List.Perm.refl _⟩,rfl,rfl⟩

/-- An eight-kilobyte file in a directory: two calls for three blocks. -/
theorem nested_file_uncharged : ¬∀ (t : Store) (listing : List Dirent), t.Fits →
    t.stored < UInt32.size → Lists listing t → Charges listing t.stored ∧ Stops listing := by
  intro claimed
  obtain ⟨charges,_⟩ := claimed (.directory ['d'] 4096 (.file ['f'] 8192 .nil) .nil)
    [⟨['.'],none⟩,⟨['.','.'],none⟩,⟨['d'],some 4096⟩] ⟨⟨by decide,trivial⟩,trivial⟩ (by decide)
    ⟨none,none,List.Perm.refl _⟩
  exact absurd ((charges_iff _ _).mp charges) (by decide)

end Meshcore
