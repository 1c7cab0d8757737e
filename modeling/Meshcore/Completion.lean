import Meshcore.HalfDuplex
import Meshcore.Radio

/-! The end of a transmission, as the engine reports it. Frames and completions
travel in order, one queue each way, and each frame is known here by the number of
the `SetTx` that latched it; what the chip is told carries no such number. -/
namespace Meshcore

open Checked Flags Runs

/-- A radio and the engine it transmits through: how many `SetTx` have been executed,
the frames sent, those received and still owed an answer, the `kTxDone` messages in
flight by the frame each answers, and the frames of all that were ever sent. -/
structure Session (stuckIrqMs : UInt32) where
  radio : Radio stuckIrqMs
  issued : Nat := 0
  toEngine : List Nat := []
  owed : List Nat := []
  toChip : List Nat := []
  answered : List Nat := []

namespace Session

variable {stuckIrqMs : UInt32}

def init (stuckIrqMs : UInt32) : Session stuckIrqMs := { radio := .init stuckIrqMs }

def chip (s : Session stuckIrqMs) : Chip := s.radio.chip.state

/-- The bridge accesses its chip, the engine receives a frame, or the engine answers one. -/
inductive Label where
  | chip (op : ChipOp)
  | receive
  | answer (k : Nat)
  deriving DecidableEq, Repr

/-- The bridge's part of a step: `drainTx` sends what is pending, and `kTxDone` is
handled only when one has arrived. -/
def access (s : Session stuckIrqMs) (op : ChipOp) : Option (Session stuckIrqMs) :=
  if drains : op = .drain then
    some { s with
      radio := s.radio.drainTx
      toEngine := s.toEngine ++ if s.chip.hasPendingTx then [s.issued] else [] }
  else if op = .txDone then
    match s.toChip with
    | [] => none
    | _ :: toChip => (s.radio.perform op drains).map fun radio => { s with radio, toChip }
  else
    (s.radio.perform op drains).map fun radio =>
      { s with radio, issued := s.issued + if (s.chip.latches op).isSome then 1 else 0 }

theorem access_perform (s : Session stuckIrqMs) (other : op ≠ .drain) (plain : op ≠ .txDone) :
    s.access op = (s.radio.perform op other).map fun radio =>
      { s with radio, issued := s.issued + if (s.chip.latches op).isSome then 1 else 0 } := by
  rw [access, dif_neg other, if_neg plain]

theorem access_txDone (s : Session stuckIrqMs) {toChip : List Nat} (waiting : s.toChip = k :: toChip) :
    s.access .txDone = s.radio.transmitFinished.map fun radio => { s with radio, toChip } := by
  rw [access, dif_neg (by simp), if_pos rfl, waiting]
  rfl

/-- The engine answers a frame it has received, in whatever order, and once. -/
def step (s : Session stuckIrqMs) : Label → Option (Session stuckIrqMs)
  | .chip op => s.access op
  | .receive =>
    match s.toEngine with
    | [] => none
    | k :: toEngine => some { s with toEngine, owed := s.owed ++ [k] }
  | .answer k =>
    if k ∈ s.owed then
      some { s with
        owed := s.owed.erase k, toChip := s.toChip ++ [k], answered := s.answered ++ [k] }
    else none

/-- Frames the engine has been sent and the chip has not been told the end of. -/
def outstanding (s : Session stuckIrqMs) : List Nat := s.toEngine ++ s.owed ++ s.toChip

/-- The step has the chip raise TX_DONE. -/
def completes (s : Session stuckIrqMs) : Label → Bool
  | .chip op =>
    match s.chip.event op with
    | some e => any (s.chip.raised e) kIrqTxDone
    | none => false
  | _ => false

/-- Whoever completes a transmission has been told the end of that very one: it is
the last `SetTx`, the engine has answered its frame, and this is the answer. -/
def Truthful (s : Session stuckIrqMs) (l : Label) : Prop :=
  ∀ next, s.step l = some next → s.completes l = true →
    l = .chip .txDone ∧ s.issued ∈ s.answered ∧ s.toChip.head? = some s.issued

/-- A `kTxDone` handled in transmit mode finds the frame sent, and no other outstanding. -/
def Alone (s : Session stuckIrqMs) (l : Label) : Prop :=
  l = .chip .txDone → s.chip.mode = .tx →
    s.chip.hasPendingTx = false ∧ s.outstanding.length ≤ 1

instance (s : Session stuckIrqMs) (l : Label) : Decidable (s.Alone l) :=
  inferInstanceAs (Decidable (_ → _ → _))

/-- While the chip transmits, its frame is pending or outstanding. -/
structure Inv (s : Session stuckIrqMs) : Prop where
  current : s.chip.mode = .tx → s.chip.hasPendingTx = true ∨ s.issued ∈ s.outstanding
  answered : s.toChip ⊆ s.answered

theorem inv_init : Inv (init stuckIrqMs) := ⟨nofun,nofun⟩

/-- An access that neither drains nor completes: a `SetTx` has a new frame pending,
and nothing else starts a transmission or takes its frame. -/
theorem inv_perform {s : Session stuckIrqMs} {radio : Radio stuckIrqMs} {other : op ≠ .drain}
    (inv : Inv s) (performed : s.radio.perform op other = some radio) :
    Inv { s with radio, issued := s.issued + if (s.chip.latches op).isSome then 1 else 0 } := by
  refine ⟨fun sends => ?_,inv.answered⟩
  have stepped : s.chip.step op = some radio.chip.state := (Radio.perform_eq_some performed).1
  have kept : s.chip.drains op = none := if_neg fun both => other both.1
  have held (c : Chip) : c.hasPendingTx = true ↔ c.pending.isSome = true := by
    rw [Chip.pending_isSome]
  show radio.chip.state.hasPendingTx = true ∨ _
  rcases Chip.step_pending stepped with ⟨payload,latches,after,_⟩ | ⟨latches,after,drains⟩ |
    ⟨latches,after,_⟩
  · exact .inl ((held _).mpr (by simp [after]))
  all_goals
    have before := inv.current (Chip.step_starts stepped sends latches)
    simp only [latches, Option.isSome_none, Bool.false_eq_true, ite_false, Nat.add_zero]
  · have none : s.chip.pending = Option.none := drains ▸ kept
    exact .inr (before.resolve_left fun some' => by simp [held,none] at some')
  · exact before.imp_left fun some' => by rwa [held, after, ← held]

theorem inv_access {s next : Session stuckIrqMs} (inv : Inv s) (stepped : s.access op = some next) :
    Inv next := by
  rw [access] at stepped
  split at stepped
  next drain =>
    obtain rfl := Option.some.inj stepped
    refine ⟨fun sends => .inr ?_,inv.answered⟩
    have before := inv.current (s.radio.drainTx_mode.symm.trans sends)
    rcases before with held | flying
    · simp [outstanding,held]
    · simp only [outstanding, List.mem_append] at flying ⊢
      tauto
  next other =>
    split at stepped
    next txDone =>
      split at stepped
      next => cases stepped
      next k toChip waiting =>
        obtain ⟨radio,performed,rfl⟩ := Option.map_eq_some_iff.mp stepped
        refine ⟨fun sends => ?_,fun j member => inv.answered (by simp [waiting,member])⟩
        have ended : s.chip.transmitFinished = radio.chip.state := by
          have stepped := (Radio.perform_eq_some performed).1
          rw [txDone] at stepped
          exact Option.some.inj stepped
        exact absurd (ended ▸ sends) s.chip.transmitFinished_mode
    next plain =>
      obtain ⟨radio,performed,rfl⟩ := Option.map_eq_some_iff.mp stepped
      exact inv_perform inv performed

theorem inv_step {s next : Session stuckIrqMs} (inv : Inv s) (stepped : s.step l = some next) :
    Inv next := by
  cases l with
  | chip op => exact inv_access inv stepped
  | receive =>
    simp only [step] at stepped
    split at stepped
    next => cases stepped
    next k toEngine sent =>
      obtain rfl := Option.some.inj stepped
      refine ⟨fun sends => (inv.current sends).imp_right fun flying => ?_,inv.answered⟩
      simp only [outstanding, sent, List.mem_append, List.mem_cons, List.not_mem_nil,
        or_false] at flying ⊢
      tauto
  | answer k =>
    simp only [step] at stepped
    split at stepped
    next owed =>
      obtain rfl := Option.some.inj stepped
      refine ⟨fun sends => (inv.current sends).imp_right fun flying => ?_,?_⟩
      · simp only [outstanding, List.mem_append, List.mem_singleton] at flying ⊢
        by_cases same : s.issued = k
        · exact .inr (.inr same)
        · simpa [List.mem_erase_of_ne same,same] using flying
      · intro j member
        simp only [List.mem_append] at member ⊢
        exact member.imp_left fun earlier => inv.answered earlier
    next => cases stepped

/-- Nothing but the end of a transmission raises TX_DONE. -/
theorem completes_iff (s : Session stuckIrqMs) (l : Label) :
    s.completes l = true ↔ l = .chip .txDone ∧ s.chip.mode = .tx := by
  cases l with
  | chip op =>
    rw [Label.chip.injEq, ← Chip.raises_txDone_iff, completes, Chip.raises]
    cases s.chip.event op <;> simp
  | _ => simp [completes]

theorem truthful_of_alone (s : Session stuckIrqMs) (l : Label) (inv : Inv s) (alone : s.Alone l) :
    s.Truthful l := by
  intro next stepped completes
  obtain ⟨rfl,sends⟩ := (s.completes_iff l).mp completes
  obtain ⟨empty,single⟩ := alone rfl sends
  have flying : s.issued ∈ s.outstanding := (inv.current sends).resolve_left (by simp [empty])
  cases waiting : s.toChip with
  | nil => simp [step,access,waiting] at stepped
  | cons k rest =>
    simp only [outstanding, waiting, List.length_append, List.length_cons] at single
    have toEngine : s.toEngine = [] := List.length_eq_zero_iff.mp (by omega)
    have owed : s.owed = [] := List.length_eq_zero_iff.mp (by omega)
    have last : rest = [] := List.length_eq_zero_iff.mp (by omega)
    have same : s.issued = k := by simpa [outstanding,toEngine,owed,waiting,last] using flying
    exact ⟨rfl,inv.answered (by simp [waiting,same]),by simp [same]⟩

end Session
end Meshcore
