import Meshcore.Operations

/-! The streaming path refines a chip that only knows whole commands: the bytes
since the chip select last fell are collected outside it, and the release hands
them over as one transfer. -/
namespace Meshcore

open Runs

/-- A chip behind a buffered transfer, and the bytes clocked so far. -/
structure Buffered where
  chip : Chip
  bytes : List UInt8

namespace Buffered

def step (s : Buffered) (op : ChipOp) : Option Buffered :=
  match op with
  | .csAssert => some { s with bytes := [] }
  | .xfer out => some { s with bytes := s.bytes ++ [out] }
  | .csRelease =>
    if s.bytes = [] then some s else (s.chip.spiTransfer s.bytes).map fun r => ⟨r.1,[]⟩
  | .spiTransfer _ | .setFem _ | .frame _ | .tick _ | .txDone | .channelBusy _ | .drain =>
    (s.chip.step op).map fun chip => { s with chip }

/-- No transaction outgrows the arrays of the streaming path. -/
def Fits (s : Buffered) : ChipOp → Prop
  | .xfer _ => s.bytes.length < 260
  | _ => True

instance (s : Buffered) : (op : ChipOp) → Decidable (s.Fits op)
  | .xfer _ => inferInstanceAs (Decidable (_ < _))
  | .csAssert | .csRelease | .spiTransfer _ | .setFem _ | .frame _ | .tick _ | .txDone
  | .channelBusy _ | .drain => isTrue trivial

/-- The streaming chip with `bytes` in its open transaction, or none open and no bytes. -/
structure Tracks (c : Chip) (s : Buffered) : Prop where
  same : c.core = s.chip.core
  txn : c.txn = s.bytes
  closed : c.inTxn = false → s.bytes = []
  short : s.bytes.length ≤ 260

theorem Tracks.accumulated {c : Chip} {s : Buffered} (tracks : Tracks c s) :
    c.accumulated = s.bytes := by
  rw [Chip.accumulated]
  cases opened : c.inTxn with
  | true => exact tracks.txn
  | false => exact (tracks.closed opened).symm

theorem rel_of_map_core {x y : Option Chip} (same : x.map Chip.core = y.map Chip.core) :
    Option.Rel (fun c d => c.core = d.core) x y := by
  cases x <;> cases y <;> simp at same
  · exact .none
  · exact .some same

theorem apply_congr {c d : Chip} (same : c.core = d.core) (e : Event) :
    (c.apply e).map Chip.core = (d.apply e).map Chip.core := by
  rw [Chip.apply_core c, Chip.apply_core d, same]

theorem tracks_apply {c : Chip} {s : Buffered} (tracks : Tracks c s) (e : Event) :
    Option.Rel Tracks (c.apply e) ((s.chip.apply e).map fun chip => { s with chip }) := by
  have rel := rel_of_map_core (apply_congr tracks.same e)
  generalize left : c.apply e = x at rel
  generalize s.chip.apply e = y at rel
  cases rel with
  | none => exact .none
  | some same =>
    obtain ⟨txn,inTxn⟩ := Chip.apply_link left
    exact .some ⟨same,txn.trans tracks.txn,fun h => tracks.closed (inTxn ▸ h),tracks.short⟩

/-- One step of the simulation. -/
theorem tracks_step (c : Chip) (s : Buffered) (op : ChipOp) (tracks : Tracks c s)
    (fits : s.Fits op) : Option.Rel Tracks (c.step op) (s.step op) := by
  cases op with
  | csAssert => exact .some ⟨tracks.same,rfl,fun _ => rfl,Nat.zero_le _⟩
  | xfer out =>
    obtain ⟨d,byte,same,txn,inTxn⟩ := Chip.transferByte_spec c out
    rw [tracks.accumulated] at txn
    simp only [Chip.step, byte, Option.map_some]
    refine .some ⟨same.trans tracks.same,txn,fun h => by simp [inTxn] at h,?_⟩
    have room : s.bytes.length < 260 := fits
    simp only [List.length_append, List.length_singleton]
    omega
  | csRelease =>
    simp only [Chip.step, Chip.endTransaction_eq, step, tracks.txn]
    by_cases empty : s.bytes = []
    · simp only [empty, true_or, ite_true]
      exact .some ⟨tracks.same,empty.symm,fun _ => empty,tracks.short⟩
    simp only [empty, false_or, ite_false, Chip.spiTransfer_eq _ _ empty, Option.map_map]
    rw [List.take_of_length_le tracks.short]
    by_cases data : returnsData (arg s.bytes 0) = true
    · -- A getter was answered as it came in; the buffered chip only counts the read.
      simp only [data, ite_true, Chip.act_of_returnsData _ _ data, Option.map_some]
      exact .some ⟨tracks.same.trans (Chip.core_evaluated _ _).symm,rfl,fun _ => rfl,Nat.zero_le _⟩
    · simp only [data]
      have rel := rel_of_map_core (apply_congr tracks.same (.command s.bytes))
      simp only [Chip.apply] at rel
      generalize c.act s.bytes = x, s.chip.act s.bytes = y at rel
      cases rel with
      | none => exact .none
      | some same => exact .some ⟨same,rfl,fun _ => rfl,Nat.zero_le _⟩
  | spiTransfer out =>
    simp only [step, Chip.step_spiTransfer]
    split
    · exact .some tracks
    · exact tracks_apply tracks (.command out)
  | setFem on => exact tracks_apply tracks (.setFem on)
  | frame payload => exact tracks_apply tracks (.frame payload)
  | tick nowMs => exact tracks_apply tracks (.tick nowMs)
  | txDone => exact tracks_apply tracks .txDone
  | channelBusy busy => exact tracks_apply tracks (.channelBusy busy)
  | drain => exact tracks_apply tracks .drain

/-- Behind the link, a trace of streamed bytes is a trace of whole commands. -/
theorem streamed_refines_buffered (c : Chip) (ops : List ChipOp) (idle : c.txn = [])
    (short : Each step Fits ⟨c,[]⟩ ops) :
    (run Chip.step c ops).map Chip.core = (run step ⟨c,[]⟩ ops).map fun s => s.chip.core := by
  have start : Tracks c ⟨c,[]⟩ := ⟨rfl,idle,fun _ => rfl,Nat.zero_le _⟩
  have rel := run_simulates Tracks tracks_step ops c ⟨c,[]⟩ start short
  generalize run Chip.step c ops = x, run step ⟨c,[]⟩ ops = y at rel
  cases rel with
  | none => rfl
  | some tracks => exact congrArg some tracks.same

theorem streamed_refines_buffered_standby :
    (run Chip.step (.new 0) [.csAssert,.xfer 0x80,.tick 1,.csRelease]).map Chip.core =
      (run step ⟨.new 0,[]⟩ [.csAssert,.xfer 0x80,.tick 1,.csRelease]).map fun s => s.chip.core :=
  streamed_refines_buffered (.new 0) _ rfl (by decide +kernel)

end Buffered
end Meshcore
