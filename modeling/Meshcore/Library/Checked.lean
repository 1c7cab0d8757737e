import Mathlib.Logic.Function.Basic
import Mathlib.Data.List.Basic

/-! Fixed blocks of cells and byte lists whose every access is checked. An index
outside the block, or outside the list, has no value: a program over these
operations is `none` exactly when it would have touched memory it does not own. -/
namespace Checked

universe u
variable {α : Type u} {n : Nat}

/-- A block of `n` cells, as a fixed-size array member is. -/
abbrev Block (n : Nat) (α : Type u) := Fin n → α

def Block.get? (b : Block n α) (i : Nat) : Option α :=
  if h : i < n then some (b ⟨i,h⟩) else none

def Block.set? (b : Block n α) (i : Nat) (x : α) : Option (Block n α) :=
  if h : i < n then some (Function.update b ⟨i,h⟩ x) else none

/-- The range `[start, start + len)` of the block, read as a whole. -/
def Block.slice? (b : Block n α) (start len : Nat) : Option (List α) :=
  if h : start + len ≤ n then some (List.ofFn fun i : Fin len => b ⟨start + i, by omega⟩) else none

/-- The block with `src` laid over the cells from `start` on, as far as they reach. -/
def Block.overlay (b : Block n α) (start : Nat) (src : List α) : Block n α := fun j =>
  if h : start ≤ j ∧ j - start < src.length then src.get ⟨j - start,h.2⟩ else b j

/-- `memcpy(&b[start], src, len)`: both ranges must exist in full. -/
def Block.memcpy? (b : Block n α) (start : Nat) (src : List α) (len : Nat) : Option (Block n α) :=
  if start + len ≤ n ∧ len ≤ src.length then some (b.overlay start (src.take len)) else none

def Block.getOr (b : Block n α) (fill : α) (i : Nat) : Option α :=
  if i < n then b.get? i else some fill

def put? (xs : List α) (i : Nat) (x : α) : Option (List α) :=
  if i < xs.length then some (xs.set i x) else none

/-- `if (p) xs[i] = x;` -/
def putWhen (p : Prop) [Decidable p] (xs : List α) (i : Nat) (x : α) : Option (List α) :=
  if p then put? xs i x else some xs

theorem get?_of_lt (b : Block n α) (h : i < n) : b.get? i = some (b ⟨i,h⟩) := by
  simp [Block.get?,h]

theorem get?_of_ge (b : Block n α) (h : n ≤ i) : b.get? i = none := by
  simp [Block.get?,Nat.not_lt.mpr h]

theorem set?_of_lt (b : Block n α) (x : α) (h : i < n) :
    b.set? i x = some (Function.update b ⟨i,h⟩ x) := by simp [Block.set?,h]

theorem slice?_isSome (b : Block n α) : (b.slice? start len).isSome ↔ start + len ≤ n := by
  simp only [Block.slice?]
  split <;> simp_all

theorem slice?_length {b : Block n α} (h : b.slice? start len = some xs) : xs.length = len := by
  simp only [Block.slice?] at h
  split at h
  · rw [← Option.some.inj h, List.length_ofFn]
  · contradiction

theorem get?_of_slice? {b : Block n α} (read : b.slice? start len = some xs) (inside : i < len) :
    b.get? (start + i) = xs[i]? := by
  simp only [Block.slice?] at read
  split at read
  case isTrue room =>
    rw [← Option.some.inj read, get?_of_lt b (by omega)]
    simp [inside]
  case isFalse => cases read

theorem memcpy?_of_le (b : Block n α) (src : List α) (room : start + len ≤ n)
    (given : len ≤ src.length) : b.memcpy? start src len = some (b.overlay start (src.take len)) :=
  if_pos ⟨room,given⟩

theorem memcpy?_isSome (b : Block n α) (src : List α) (len : Nat) (h : len ≤ src.length) :
    (b.memcpy? start src len).isSome ↔ start + len ≤ n := by
  simp only [Block.memcpy?]
  split <;> simp_all

theorem getOr_eq (b : Block n α) (fill : α) (i : Nat) :
    b.getOr fill i = some ((b.get? i).getD fill) := by
  simp only [Block.getOr]
  split
  next h => simp [get?_of_lt _ h]
  next h => simp [get?_of_ge _ (Nat.not_lt.mp h)]

@[simp] theorem overlay_nil (b : Block n α) : b.overlay start [] = b := by
  funext j; simp [Block.overlay]

theorem overlay_concat (b : Block n α) (src : List α) (x : α) (h : start + src.length < n) :
    b.overlay start (src ++ [x]) =
      Function.update (b.overlay start src) ⟨start + src.length,h⟩ x := by
  funext j
  by_cases same : j = ⟨start + src.length,h⟩
  · subst same
    simp [Block.overlay]
  · have apart : j.val ≠ start + src.length := fun e => same (Fin.ext e)
    rw [Function.update_of_ne same]
    simp only [Block.overlay, List.get_eq_getElem, List.length_append, List.length_singleton]
    by_cases inside : start ≤ j.val ∧ j.val - start < src.length
    · have wider : start ≤ j.val ∧ j.val - start < src.length + 1 := ⟨inside.1, by omega⟩
      rw [dif_pos wider, dif_pos inside, List.getElem_append_left inside.2]
    · have outside : ¬(start ≤ j.val ∧ j.val - start < src.length + 1) := by omega
      rw [dif_neg outside, dif_neg inside]

theorem overlay_take (b : Block n α) (src : List α) (h : n ≤ start + len) :
    b.overlay start (src.take len) = b.overlay start src := by
  funext j
  have := j.isLt
  simp only [Block.overlay, List.get_eq_getElem, List.length_take, List.getElem_take]
  by_cases inside : start ≤ j.val ∧ j.val - start < src.length
  · rw [dif_pos inside, dif_pos ⟨inside.1, by omega⟩]
  · rw [dif_neg inside, dif_neg (by omega)]

/-- Laying a list over a uniform block and reading it back pads it. -/
theorem slice?_overlay_fill (fill : α) (src : List α) (room : len ≤ n) (fits : src.length ≤ len) :
    (Block.overlay (fun _ : Fin n => fill) 0 src).slice? 0 len =
      some (src ++ List.replicate (len - src.length) fill) := by
  rw [Block.slice?, dif_pos (by omega)]
  congr 1
  apply List.ext_getElem (by simp; omega)
  intro i _ _
  by_cases inside : i < src.length
  · simp [Block.overlay,inside]
  · simp [Block.overlay,inside,List.getElem_append_right (Nat.not_lt.mp inside)]

/-- What was laid over a block is read back. -/
theorem slice?_overlay (b : Block n α) (start : Nat) (src : List α) (room : start + src.length ≤ n) :
    (b.overlay start src).slice? start src.length = some src := by
  rw [Block.slice?, dif_pos room]
  congr 1
  apply List.ext_getElem (by simp)
  intro i _ _
  simp [Block.overlay]

/-- What was laid over a block right after a range is read back with it. -/
theorem slice?_overlay_behind {b : Block n α} {src : List α} (before : b.slice? 0 start = some xs)
    (room : start + src.length ≤ n) :
    (b.overlay start src).slice? 0 (start + src.length) = some (xs ++ src) := by
  have long := slice?_length before
  rw [Block.slice?, dif_pos (by omega)] at before ⊢
  have cells := Option.some.inj before
  congr 1
  apply List.ext_getElem (by simp [long])
  intro i inside _
  rw [List.length_ofFn] at inside
  by_cases early : i < start
  · have cell : xs[i] = b ⟨i,by omega⟩ := by simp [← cells]
    rw [List.getElem_append_left (by omega), cell]
    simp [Block.overlay,Nat.not_le.mpr early]
  · rw [List.getElem_append_right (by omega)]
    have within : i - start < src.length := by omega
    simp [Block.overlay,Nat.not_lt.mp early,within,long]

theorem slice?_fill (fill : α) (room : len ≤ n) :
    Block.slice? (fun _ : Fin n => fill) 0 len = some (List.replicate len fill) := by
  simpa using slice?_overlay_fill fill [] room (Nat.zero_le _)

theorem get?_overlay (b : Block n α) (src : List α) (inside : i < src.length) (room : i < n) :
    (b.overlay 0 src).get? i = some src[i] := by
  simp [Block.get?,Block.overlay,room,inside]

/-- A cell of the block, after a list was laid over it. -/
theorem get?_overlay_or (b : Block n α) (start : Nat) (src : List α) (i : Nat) :
    (b.overlay start src).get? i =
      if start ≤ i ∧ i < n then (src[i - start]?).or (b.get? i) else b.get? i := by
  by_cases room : i < n
  · simp only [Block.get?, room, Block.overlay, and_true, dite_true]
    by_cases later : start ≤ i
    · by_cases inside : i - start < src.length
      · simp [later,inside]
      · simp [later,inside]
    · simp [later]
  · simp [Block.get?,room]

/-- A cell that nothing is laid over. -/
theorem get?_overlay_apart (b : Block n α) (src : List α)
    (apart : i < start ∨ start + src.length ≤ i) : (b.overlay start src).get? i = b.get? i := by
  rw [get?_overlay_or]
  split
  case isTrue inside => rw [List.getElem?_eq_none (by omega), Option.none_or]
  case isFalse => rfl

/-- A range none of whose cells is written is left as it was. -/
theorem slice?_overlay_apart (b : Block n α) (src : List α)
    (apart : ∀ j, start ≤ j → j < start + src.length → ¬(first ≤ j ∧ j < first + len)) :
    (b.overlay start src).slice? first len = b.slice? first len := by
  simp only [Block.slice?]
  split
  next room =>
    congr 1
    apply List.ext_getElem (by simp)
    intro i bound _
    rw [List.length_ofFn] at bound
    have outside : ¬(start ≤ first + i ∧ first + i - start < src.length) := fun inside =>
      apart (first + i) inside.1 (by omega) ⟨by omega,by omega⟩
    simp [Block.overlay,outside]
  next => rfl

/-- `for (i = first; cond(i); i++) body(i)`, for a condition that fails within
`fuel` iterations. The body may fault, and a fault ends the loop. -/
def forWhile {σ : Type u} (cond : Nat → Bool) (body : Nat → σ → Option σ) : Nat → Nat → σ → Option σ
  | 0, _, s => some s
  | fuel + 1, i, s =>
    if cond i then (body i s).bind (forWhile cond body fuel (i + 1)) else some s

/-- The rule of the loop: an invariant that each iteration re-establishes, for an
iteration that does not fault, holds when the loop ends, past the fuel or past
the condition. -/
theorem forWhile_rule {σ : Type u} (cond : Nat → Bool) (body : Nat → σ → Option σ)
    (inv : Nat → σ → Prop)
    (iterate : ∀ i s, inv i s → cond i = true → ∃ s', body i s = some s' ∧ inv (i + 1) s')
    (fuel i : Nat) (s : σ) (entry : inv i s) :
    ∃ j s', forWhile cond body fuel i s = some s' ∧ inv j s' ∧ i ≤ j ∧
      (j = i + fuel ∨ cond j = false) := by
  induction fuel generalizing i s with
  | zero => exact ⟨i,s,rfl,entry,Nat.le_refl _,.inl rfl⟩
  | succ fuel ih =>
    cases test : cond i with
    | false => exact ⟨i,s,by simp [forWhile,test],entry,Nat.le_refl _,.inr test⟩
    | true =>
      obtain ⟨s',ran,kept⟩ := iterate i s entry test
      obtain ⟨j,final,rest,done,later,stop⟩ := ih (i + 1) s' kept
      refine ⟨j,final,by simp [forWhile,test,ran,rest],done,by omega,?_⟩
      exact stop.imp (by omega) id

/-- `while (cond(s)) body(s)`, for a condition that fails within `fuel` turns. -/
def whileLoop {σ : Type u} (cond : σ → Bool) (body : σ → Option σ) : Nat → σ → Option σ
  | 0, s => some s
  | fuel + 1, s => if cond s then (body s).bind (whileLoop cond body fuel) else some s

/-- A body that may fault, so many times over. -/
def repeated {σ : Type u} (body : σ → Option σ) : Nat → σ → Option σ
  | 0, s => some s
  | turns + 1, s => (body s).bind (repeated body turns)

/-- What each turn that is taken keeps, the loop keeps. -/
theorem whileLoop_keeps {σ : Type u} {s s' : σ} {cond : σ → Bool} {body : σ → Option σ}
    (inv : σ → Prop) (turns : ∀ s s', inv s → cond s = true → body s = some s' → inv s') (fuel : Nat)
    (ran : whileLoop cond body fuel s = some s') (initial : inv s) : inv s' := by
  induction fuel generalizing s with
  | zero => exact Option.some.inj ran ▸ initial
  | succ fuel ih =>
    rw [whileLoop] at ran
    split at ran
    next goes =>
      obtain ⟨next,turn,rest⟩ := Option.bind_eq_some_iff.mp ran
      exact ih rest (turns s next initial goes turn)
    next => exact Option.some.inj ran ▸ initial

/-- A view of the state that commutes with each turn commutes with any number of them. -/
theorem repeated_map {σ : Type u} {τ : Type v} {body : σ → Option σ} {body' : τ → Option τ}
    (f : σ → τ) (same : ∀ s, (body s).map f = body' (f s)) (turns : Nat) (s : σ) :
    (repeated body turns s).map f = repeated body' turns (f s) := by
  induction turns generalizing s with
  | zero => rfl
  | succ turns ih =>
    rw [repeated, repeated, ← same, Option.bind_map, Option.map_bind]
    exact Option.bind_congr fun next _ => ih next

/-- What each turn relates, any number of them relates. -/
theorem repeated_rel {σ : Type u} {s s' : σ} {body : σ → Option σ} (rel : σ → σ → Prop)
    (refl : ∀ s, rel s s) (trans : ∀ a b c, rel a b → rel b c → rel a c)
    (turns : ∀ s s', body s = some s' → rel s s') (count : Nat)
    (ran : repeated body count s = some s') : rel s s' := by
  induction count generalizing s with
  | zero => exact Option.some.inj ran ▸ refl s
  | succ count ih =>
    obtain ⟨next,turn,rest⟩ := Option.bind_eq_some_iff.mp ran
    exact trans _ _ _ (turns s next turn) (ih rest)

/-- A clock that each turn moves by one. -/
theorem repeated_clock {σ : Type u} {s s' : σ} {body : σ → Option σ} (clock : σ → UInt32)
    (advances : ∀ s s', body s = some s' → clock s' = clock s + 1) (count : Nat)
    (fits : (clock s).toNat + count < UInt32.size) (ran : repeated body count s = some s') :
    (clock s').toNat = (clock s).toNat + count := by
  have size : UInt32.size = 4294967296 := rfl
  induction count generalizing s with
  | zero => exact Option.some.inj ran ▸ rfl
  | succ count ih =>
    obtain ⟨next,turn,rest⟩ := Option.bind_eq_some_iff.mp ran
    have moved : (clock next).toNat = (clock s).toNat + 1 := by
      rw [advances s next turn, UInt32.toNat_add, UInt32.toNat_one]
      omega
    rw [ih (by omega) rest, moved]
    omega

/-- A loop that counts a clock up to `target` takes as many turns as are missing. -/
theorem whileLoop_repeats {σ : Type u} {body : σ → Option σ} (clock : σ → UInt32) (target : UInt32)
    (advances : ∀ s s', body s = some s' → clock s' = clock s + 1) (s : σ) :
    whileLoop (fun s => decide (clock s < target)) body (target.toNat - (clock s).toNat) s =
      repeated body (target.toNat - (clock s).toNat) s := by
  generalize missing : target.toNat - (clock s).toNat = count
  induction count generalizing s with
  | zero => rfl
  | succ count ih =>
    have before : clock s < target := UInt32.lt_iff_toNat_lt.mpr (by omega)
    rw [whileLoop, if_pos (decide_eq_true before), repeated]
    cases turn : body s with
    | none => rfl
    | some next =>
      have moved : (clock next).toNat = (clock s).toNat + 1 := by
        rw [advances s next turn, UInt32.toNat_add, UInt32.toNat_one]
        have := target.toNat_lt
        omega
      exact ih next (by omega)

/-- A loop that counts a clock up to `target` leaves it there, or where it was. -/
theorem whileLoop_counts {σ : Type u} {s s' : σ} {body : σ → Option σ} (clock : σ → UInt32)
    (target : UInt32) (advances : ∀ s s', body s = some s' → clock s' = clock s + 1)
    (ran : whileLoop (fun s => decide (clock s < target)) body
      (target.toNat - (clock s).toNat) s = some s') :
    (clock s').toNat = max (clock s).toNat target.toNat := by
  rw [whileLoop_repeats clock target advances] at ran
  have bound := target.toNat_lt_size
  have start := (clock s).toNat_lt_size
  rw [repeated_clock clock advances _ (by omega) ran]
  omega

/-- `for (i = skip; i < src.size() && start + (i - skip) < n; i++)
b[start + (i - skip)] = src[i];` -/
def Block.copyIn (b : Block n α) (start skip : Nat) (src : List α) : Option (Block n α) :=
  forWhile (fun i => decide (i < src.length ∧ start + (i - skip) < n))
    (fun i b => do b.set? (start + (i - skip)) (← src[i]?)) (src.length - skip) skip b

/-- `for (i = skip; i < dst.size(); i++) { idx = start + (i - skip);
dst[i] = idx < n ? b[idx] : fill; }` -/
def Block.copyOut (b : Block n α) (start skip : Nat) (fill : α) (dst : List α) : Option (List α) :=
  forWhile (fun i => decide (i < dst.length))
    (fun i dst => do
      put? dst i (← b.getOr fill (start + (i - skip)))) (dst.length - skip) skip dst

/-- The guarded store loop never faults, and lays the source over the block. -/
theorem copyIn_eq (b : Block n α) (start skip : Nat) (src : List α) :
    b.copyIn start skip src = some (b.overlay start (src.drop skip)) := by
  obtain ⟨j,final,ran,kept,later,stop⟩ := forWhile_rule
    (fun i => decide (i < src.length ∧ start + (i - skip) < n))
    (fun i (b : Block n α) => do b.set? (start + (i - skip)) (← src[i]?))
    (fun i s => skip ≤ i ∧ s = b.overlay start ((src.drop skip).take (i - skip)))
    (by
      rintro i s ⟨past,rfl⟩ test
      obtain ⟨inside,room⟩ := of_decide_eq_true test
      have index : (src.drop skip)[i - skip]? = some src[i] := by
        rw [List.getElem?_drop, Nat.add_sub_cancel' past, List.getElem?_eq_getElem inside]
      have next : (src.drop skip).take (i + 1 - skip) =
          (src.drop skip).take (i - skip) ++ [src[i]] := by
        rw [show i + 1 - skip = i - skip + 1 by omega, List.take_add_one, index]; rfl
      have length : ((src.drop skip).take (i - skip)).length = i - skip := by
        simp only [List.length_take, List.length_drop]; omega
      refine ⟨_,by simp [inside,set?_of_lt _ _ room]; rfl,by omega,?_⟩
      rw [next, overlay_concat _ _ _ (by rw [length]; exact room)]
      simp only [length])
    (src.length - skip) skip b ⟨Nat.le_refl _,by simp⟩
  rw [Block.copyIn, ran, kept.2]
  congr 1
  rcases stop with rfl | stop
  · rw [List.take_of_length_le (by simp only [List.length_drop]; omega)]
  · have stop := of_decide_eq_false stop
    by_cases short : src.length ≤ j
    · rw [List.take_of_length_le (by simp only [List.length_drop]; omega)]
    · exact overlay_take _ _ (by have := kept.1; omega)

/-- The filled read loop never faults. It keeps the first `skip` cells of the
destination, and every later one holds the matching cell, or the filler. -/
theorem copyOut_eq (b : Block n α) (start skip : Nat) (fill : α) (dst : List α) :
    b.copyOut start skip fill dst = some (dst.mapIdx fun i x =>
      if skip ≤ i then (b.get? (start + (i - skip))).getD fill else x) := by
  obtain ⟨j,final,ran,kept,later,stop⟩ := forWhile_rule
    (fun i => decide (i < dst.length))
    (fun i (dst : List α) => do
      put? dst i (← b.getOr fill (start + (i - skip))))
    (fun i s => skip ≤ i ∧ s = dst.mapIdx fun k x =>
      if skip ≤ k ∧ k < i then (b.get? (start + (k - skip))).getD fill else x)
    (by
      rintro i s ⟨past,rfl⟩ test
      have inside := of_decide_eq_true test
      refine ⟨_,by simp only [getOr_eq]; simp [put?,inside]; rfl,by omega,?_⟩
      apply List.ext_getElem (by simp)
      intro k _ _
      by_cases same : k = i
      · subst same; simp [past]
      · simp only [List.getElem_set_ne (Ne.symm same), List.getElem_mapIdx]
        have : (skip ≤ k ∧ k < i) ↔ (skip ≤ k ∧ k < i + 1) := by omega
        simp only [this])
    (dst.length - skip) skip dst
    ⟨Nat.le_refl _,by
      apply List.ext_getElem (by simp)
      intro k _ _
      rw [List.getElem_mapIdx, if_neg (by omega)]⟩
  rw [Block.copyOut, ran, kept.2]
  congr 1
  apply List.ext_getElem (by simp)
  intro k bound _
  simp only [List.length_mapIdx] at bound
  simp only [List.getElem_mapIdx]
  have reached : j = skip + (dst.length - skip) ∨ dst.length ≤ j :=
    stop.imp id fun h => Nat.not_lt.mp (of_decide_eq_false h)
  have : (skip ≤ k ∧ k < j) ↔ skip ≤ k := by omega
  simp only [this]

end Checked
