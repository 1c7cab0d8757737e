import Meshcore.Library.Checked

/-! Straight-line stores into a block, each at an offset of its own. Stores that tile a
range lay their values end to end over it, whatever it held. -/
namespace Checked

universe u
variable {α : Type u} {n : Nat}

/-- `p[0] = x; p[1] = y; …` from a pointer to cell `start`. -/
def Block.puts? (b : Block n α) (start : Nat) : List α → Option (Block n α)
  | [] => some b
  | x :: rest => (b.set? start x).bind fun b => b.puts? (start + 1) rest

/-- Straight-line stores, each at its own offset. -/
def Block.stores? (b : Block n α) : List (Nat × List α) → Option (Block n α)
  | [] => some b
  | (start,src) :: rest => (b.puts? start src).bind fun b => b.stores? rest

/-- Every store begins where the one before it ended. -/
def Tiles (start : Nat) : List (Nat × List α) → Prop
  | [] => True
  | (next,src) :: rest => next = start ∧ Tiles (start + src.length) rest

/-- Stores that go on where the last ones ended. -/
theorem puts?_overlay (b : Block n α) (src more : List α) (start next : Nat)
    (follows : next = start + src.length) (room : next + more.length ≤ n) :
    (b.overlay start src).puts? next more = some (b.overlay start (src ++ more)) := by
  induction more generalizing src next with
  | nil => simp [Block.puts?]
  | cons x rest ih =>
    subst follows
    rw [List.length_cons] at room
    rw [Block.puts?, set?_of_lt _ _ (by omega), Option.bind_some, ← overlay_concat _ _ _ (by omega),
      ih (src ++ [x]) _ (by simp; omega) (by omega), List.append_assoc, List.singleton_append]

/-- Stores that tile the cells from `start` on lay their bytes end to end. -/
theorem stores?_overlay (b : Block n α) (src : List α) (start : Nat)
    (stores : List (Nat × List α)) (tiles : Tiles (start + src.length) stores)
    (room : start + (src ++ stores.flatMap Prod.snd).length ≤ n) :
    (b.overlay start src).stores? stores = some (b.overlay start (src ++ stores.flatMap Prod.snd)) := by
  induction stores generalizing src with
  | nil => simp [Block.stores?]
  | cons store rest ih =>
    obtain ⟨next,more⟩ := store
    obtain ⟨follows,tiles⟩ := tiles
    rw [List.flatMap_cons, ← List.append_assoc] at room ⊢
    have part : next + more.length ≤ n := by
      simp only [List.length_append] at room
      omega
    rw [Block.stores?, puts?_overlay _ _ _ _ _ follows part, Option.bind_some]
    exact ih _ (by rwa [List.length_append, ← Nat.add_assoc]) room

/-- Stores that tile the whole block leave nothing of what it held. -/
theorem stores?_whole (b : Block n α) (stores : List (Nat × List α)) (tiles : Tiles 0 stores)
    (whole : (stores.flatMap Prod.snd).length = n) :
    ((b.stores? stores).bind fun b => b.slice? 0 n) = some (stores.flatMap Prod.snd) := by
  have laid := stores?_overlay b [] 0 stores tiles (by rw [List.nil_append]; omega)
  have read := slice?_overlay b 0 (stores.flatMap Prod.snd) (by omega)
  rw [overlay_nil, List.nil_append] at laid
  rw [laid, Option.bind_some, ← read, whole]

end Checked
