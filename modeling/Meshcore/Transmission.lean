import Meshcore.Effects

/-! From `SetTx` to the engine. A run latches payloads into the chip's one pending
slot and a drain takes them out; what is lost is exactly what a second `SetTx`
finds still in the slot. -/
namespace Meshcore

open Checked Flags Runs

namespace Chip

/-- The payload an operation latches, when it executes `SetTx`. -/
def latches (c : Chip) (op : ChipOp) : Option (List UInt8) :=
  match c.event op with
  | some (.command cmd) =>
    if opcode? (arg cmd 0) = some .setTx then
      c.buffer.slice? c.txBase.toNat c.txLenForSend.toNat
    else none
  | _ => none

/-- The payload an operation takes out of the pending slot. -/
def drains (c : Chip) (op : ChipOp) : Option (List UInt8) :=
  if op = .drain ∧ c.hasPendingTx then some c.pendingTx else none

def pending (c : Chip) : Option (List UInt8) := if c.hasPendingTx then some c.pendingTx else none

/-- The operation latches nothing over a payload that is still in the slot. -/
def SlotFree (c : Chip) (op : ChipOp) : Prop := (c.latches op).isSome → c.hasPendingTx = false

instance (c : Chip) (op : ChipOp) : Decidable (c.SlotFree op) :=
  inferInstanceAs (Decidable (_ → _))

/-- Every payload latched in the course of a run, in order. -/
def latched (c : Chip) (ops : List ChipOp) : List (List UInt8) :=
  history step (fun c op _ g => g ++ (c.latches op).toList) c [] ops

/-- Every payload drained in the course of a run, in order. -/
def drained (c : Chip) (ops : List ChipOp) : List (List UInt8) :=
  history step (fun c op _ g => g ++ (c.drains op).toList) c [] ops

def overruns (c : Chip) (ops : List ChipOp) : Nat :=
  history step (fun c op _ n => if c.SlotFree op then n else n + 1) c 0 ops

theorem pending_core {c d : Chip} (same : c.core = d.core) : c.pending = d.pending := by
  have := congrArg pending same
  exact this

theorem drains_of_ne {c : Chip} (other : c.event op ≠ some .drain) : c.drains op = none :=
  if_neg fun both => other ((event_eq_some rfl).mpr both.1)

theorem tick_pending {c d : Chip} {nowMs : UInt64} (ticked : c.tick nowMs = some d) :
    d.pending = c.pending :=
  congrArg (fun s : Settings => if s.hasPendingTx then some s.pendingTx else none)
    (tick_settings ticked)

/-- What a step does to the slot: it latches, or drains, or leaves it. -/
theorem step_pending {c next : Chip} (stepped : c.step op = some next) :
    (∃ payload, c.latches op = some payload ∧ next.pending = some payload ∧ c.drains op = none) ∨
    (c.latches op = none ∧ next.pending = none ∧ c.drains op = c.pending) ∨
    (c.latches op = none ∧ next.pending = c.pending ∧ c.drains op = none) := by
  rcases step_event stepped with ⟨event,core⟩ | ⟨e,d,event,applied,core⟩
  · exact .inr (.inr ⟨by simp [latches,event],pending_core core,drains_of_ne (by simp [event])⟩)
  rw [pending_core core]
  cases e with
  | command cmd =>
    have kept : c.drains op = none := drains_of_ne (by simp [event])
    by_cases setTx : opcode? (arg cmd 0) = some .setTx
    · have started : c.startTx = some d := (act_setTx c setTx).symm.trans applied
      obtain ⟨payload,latched,rfl⟩ := startTx_eq_some.mp started
      exact .inl ⟨payload,by simp [latches,event,setTx,latched],rfl,kept⟩
    · have acts := act_acts applied
      refine .inr (.inr ⟨by simp [latches,event,setTx],?_,kept⟩)
      simp [pending,acts.pendingTx setTx,acts.hasPendingTx setTx]
  | tick nowMs =>
    exact .inr (.inr ⟨by simp [latches,event],tick_pending applied,drains_of_ne (by simp [event])⟩)
  | drain =>
    obtain rfl := (event_eq_some rfl).mp event
    obtain rfl := Option.some.inj applied
    exact .inr (.inl ⟨rfl,rfl,by simp [drains,pending]⟩)
  | txDone =>
    obtain rfl := Option.some.inj applied
    refine .inr (.inr ⟨by simp [latches,event],?_,drains_of_ne (by simp [event])⟩)
    exact transmitFinished_keeps pending (fun _ _ _ => rfl) c
  | _ =>
    obtain rfl := Option.some.inj applied
    exact .inr (.inr ⟨by simp [latches,event],rfl,drains_of_ne (by simp [event])⟩)

theorem transmitFinished_mode (c : Chip) : c.transmitFinished.mode ≠ .tx := by
  rw [transmitFinished]
  split
  · simp
  next idle => exact idle

theorem pending_isSome (c : Chip) : c.pending.isSome = c.hasPendingTx := by
  cases held : c.hasPendingTx <;> simp [pending,held]

/-- Only a `SetTx` starts a transmission. -/
theorem step_starts {c next : Chip} (stepped : c.step op = some next) (sends : next.mode = .tx)
    (plain : c.latches op = none) : c.mode = .tx := by
  rcases step_event stepped with ⟨_,core⟩ | ⟨e,d,event,applied,core⟩
  · exact (congrArg Settings.mode (core_settings core)).symm.trans sends
  have after : c.modeAfter e = .tx := by
    rw [← apply_mode applied, ← sends]
    exact (congrArg Settings.mode (core_settings core)).symm
  cases e with
  | command cmd =>
    have other : opcode? (arg cmd 0) ≠ some .setTx := by
      intro setTx
      have started : c.startTx = some d := (act_setTx c setTx).symm.trans applied
      obtain ⟨payload,latched,_⟩ := startTx_eq_some.mp started
      simp [latches,event,setTx,latched] at plain
    cases code : opcode? (arg cmd 0) with
    | none => simpa [modeAfter,code] using after
    | some o => cases o <;> simp_all [modeAfter]
  | txDone =>
    by_contra idle
    simp [modeAfter,idle] at after
  | _ => exact after

/-- Where every latched payload is: drained, still pending, or lost to an overrun. -/
structure Accounted (c : Chip) (inn out : List (List UInt8)) (lost : Nat) : Prop where
  order : (out ++ c.pending.toList).Sublist inn
  count : inn.length = (out ++ c.pending.toList).length + lost

theorem accounted_step {c next : Chip} (accounted : Accounted c inn out lost)
    (stepped : c.step op = some next) :
    Accounted next (inn ++ (c.latches op).toList) (out ++ (c.drains op).toList)
      (if c.SlotFree op then lost else lost + 1) := by
  obtain ⟨order,count⟩ := accounted
  rcases step_pending stepped with ⟨payload,latches,after,drains⟩ | ⟨latches,after,drains⟩ |
    ⟨latches,after,drains⟩
  · rw [latches, drains]
    cases slot : c.hasPendingTx with
    | false =>
      have free : c.SlotFree op := fun _ => slot
      have empty : c.pending = none := by simp [pending,slot]
      simp only [empty, Option.toList_none, List.append_nil] at order count
      refine ⟨?_,?_⟩
      · simpa [after] using List.Sublist.append order (List.Sublist.refl [payload])
      · simp [after,free,count]; omega
    | true =>
      have taken : ¬c.SlotFree op := fun free => by simp [free (by simp [latches])] at slot
      have held : c.pending = some c.pendingTx := by simp [pending,slot]
      simp only [held, Option.toList_some] at order count
      have before : out.Sublist inn := (List.sublist_append_left _ _).trans order
      refine ⟨?_,?_⟩
      · simpa [after] using List.Sublist.append before (List.Sublist.refl [payload])
      · simp only [List.length_append, List.length_singleton] at count
        simp [after,taken,count]; omega
  · have free : c.SlotFree op := by simp [SlotFree,latches]
    rw [latches, drains, if_pos free]
    exact ⟨by simpa [after] using order,by simpa [after] using count⟩
  · have free : c.SlotFree op := by simp [SlotFree,latches]
    rw [latches, drains, if_pos free]
    exact ⟨by simpa [after] using order,by simpa [after] using count⟩

theorem run_accounted {c final : Chip} (empty : c.hasPendingTx = false)
    (ran : run step c ops = some final) :
    Accounted final (latched c ops) (drained c ops) (overruns c ops) := by
  refine run_induction (motive := fun ops final =>
    Accounted final (latched c ops) (drained c ops) (overruns c ops)) ?_ ?_ ops ran
  · exact ⟨by simp [latched,drained,pending,empty],by simp [latched,drained,overruns,pending,empty]⟩
  · intro ops d op next ran stepped accounted
    simp only [latched, drained, overruns, history_concat ran stepped]
    exact accounted_step accounted stepped

/-- Once the slot is empty, what was drained is what was latched exactly when no
`SetTx` was executed over a payload that was still waiting. -/
theorem drained_eq_latched_iff {c final : Chip} (empty : c.hasPendingTx = false)
    (ran : run step c ops = some final) (drainedLast : final.hasPendingTx = false) :
    drained c ops = latched c ops ↔ Each step SlotFree c ops := by
  obtain ⟨order,count⟩ := run_accounted empty ran
  have none : final.pending = Option.none := by simp [pending,drainedLast]
  simp only [none, Option.toList_none, List.append_nil] at order count
  have lost : overruns c ops = 0 ↔ Each step SlotFree c ops := by
    simpa [overruns] using history_count_eq_zero (p := SlotFree) ran 0
  rw [← lost]
  constructor
  · intro same
    rw [same] at count
    omega
  · intro zero
    exact order.eq_of_length (by omega)

end Chip
end Meshcore
