import Meshcore.Transmission
import Meshcore.Wire

/-! The chip as its bridge holds it: every access is an operation on a log that
replays to the chip's state, and what the bridge has sent the engine stands beside
it. The frames among it are the payloads drained, by construction. -/
namespace Meshcore

open Runs

def Outgoing.frame? : Outgoing → Option (List UInt8)
  | frame payload => some payload
  | _ => none

def frames (ms : List Outgoing) : List (List UInt8) := ms.filterMap Outgoing.frame?

namespace Chip

/-- A length the chip holds in a byte bounds what it can have latched. -/
theorem pending_short {stuckIrqMs : UInt32} {c : Chip} (ops : List ChipOp)
    (ran : run step (new stuckIrqMs) ops = some c) (held : c.hasPendingTx = true) :
    c.pendingTx.length ≤ 255 := by
  have bounded : ∀ p ∈ c.pending, p.length ≤ 255 := by
    refine run_invariant (fun c => ∀ p ∈ c.pending, p.length ≤ 255) ?_ ran ?_
    · intro c op next short stepped
      rcases step_pending stepped with ⟨payload,latches,after,_⟩ | ⟨_,after,_⟩ | ⟨_,after,_⟩
      · simp only [after, Option.mem_some_iff, forall_eq']
        rw [Chip.latches] at latches
        split at latches
        · split at latches
          · rw [Checked.slice?_length latches]
            have := c.txLenForSend.toNat_lt
            omega
          · cases latches
        · cases latches
      · simp [after]
      · rw [after]
        exact short
    · intro p pending
      cases pending
  exact bounded _ (by simp [pending,held])

end Chip

structure Radio (stuckIrqMs : UInt32) where
  chip : Logged Chip.step (Chip.new stuckIrqMs)
  toEngine : List Outgoing
  synced : frames toEngine = Chip.drained (Chip.new stuckIrqMs) chip.log

namespace Radio

variable {stuckIrqMs : UInt32}

def init (stuckIrqMs : UInt32) : Radio stuckIrqMs := ⟨Logged.init _ _,[],rfl⟩

/-- Any access but the draining one. -/
def perform (r : Radio stuckIrqMs) (op : ChipOp) (other : op ≠ .drain) :
    Option (Radio stuckIrqMs) :=
  match taken : r.chip.state.step op with
  | none => none
  | some next => some
    { r with
      chip := r.chip.advance op next taken
      synced := by
        have kept : r.chip.state.drains op = none := if_neg fun both => other both.1
        simp [Chip.drained,Logged.advance,history_concat r.chip.replay taken,kept,r.synced] }

/-! What both bridges do with the chip they hold. -/

def pushFrame (r : Radio stuckIrqMs) (payload : List UInt8) : Option (Radio stuckIrqMs) :=
  r.perform (.frame payload) nofun

def tick (r : Radio stuckIrqMs) (nowMs : UInt64) : Option (Radio stuckIrqMs) :=
  r.perform (.tick nowMs) nofun

def transmitFinished (r : Radio stuckIrqMs) : Option (Radio stuckIrqMs) := r.perform .txDone nofun

def setChannelBusy (r : Radio stuckIrqMs) (busy : Bool) : Option (Radio stuckIrqMs) :=
  r.perform (.channelBusy busy) nofun

theorem perform_eq_some {r r' : Radio stuckIrqMs} {other : op ≠ .drain}
    (performed : r.perform op other = some r') :
    r.chip.state.step op = some r'.chip.state ∧ r'.toEngine = r.toEngine := by
  rw [perform] at performed
  split at performed
  next => cases performed
  next next' taken =>
    obtain rfl := Option.some.inj performed
    exact ⟨taken,rfl⟩

theorem perform_of_step (r : Radio stuckIrqMs) (other : op ≠ .drain)
    (stepped : r.chip.state.step op = some next) : ∃ r', r.perform op other = some r' := by
  rw [perform]
  split
  next faults => simp [faults] at stepped
  next => exact ⟨_,rfl⟩

/-- A message that is not a frame. -/
def send (r : Radio stuckIrqMs) (m : Outgoing) (other : m.frame? = none) : Radio stuckIrqMs :=
  { r with
    toEngine := r.toEngine ++ [m]
    synced := by simp [frames,other,← r.synced] }

/-- The acknowledgement of a tick. -/
def ack (r : Radio stuckIrqMs) (payload : { p : List UInt8 // p.length = 4 }) : Radio stuckIrqMs :=
  r.send (.ack payload) rfl

/-- `drainTx`: what is pending goes to the engine, and the slot is free again. -/
def drainTx (r : Radio stuckIrqMs) : Radio stuckIrqMs :=
  if held : r.chip.state.hasPendingTx = true then
    { chip := r.chip.advance .drain r.chip.state.takePending rfl
      toEngine := r.toEngine ++
        [.frame ⟨r.chip.state.pendingTx,Chip.pending_short r.chip.log r.chip.replay held⟩]
      synced := by
        have taken : r.chip.state.drains .drain = some r.chip.state.pendingTx := if_pos ⟨rfl,held⟩
        have after : r.chip.state.step .drain = some r.chip.state.takePending := rfl
        have earlier : r.toEngine.filterMap Outgoing.frame? =
          Chip.drained (Chip.new stuckIrqMs) r.chip.log := r.synced
        simp only [frames, List.filterMap_append, earlier, Chip.drained, Logged.advance,
          history_concat r.chip.replay after, taken]
        rfl }
  else r

theorem drainTx_mode (r : Radio stuckIrqMs) : r.drainTx.chip.state.mode = r.chip.state.mode := by
  rw [drainTx]
  split <;> rfl

theorem drainTx_empties (r : Radio stuckIrqMs) : r.drainTx.chip.state.hasPendingTx = false := by
  rw [drainTx]
  split
  · rfl
  next free => simpa using free

/-- The payloads of the executed `SetTx` commands, in order. -/
def latched (r : Radio stuckIrqMs) : List (List UInt8) :=
  Chip.latched (Chip.new stuckIrqMs) r.chip.log

/-- No `SetTx` found the payload of an earlier one still pending. -/
def NoOverrun (r : Radio stuckIrqMs) : Prop :=
  Each Chip.step Chip.SlotFree (Chip.new stuckIrqMs) r.chip.log

/-- With nothing pending, the engine has been sent exactly what was latched, if
and only if nothing was latched over. -/
theorem frames_eq_latched_iff (r : Radio stuckIrqMs) (drained : r.chip.state.hasPendingTx = false) :
    frames r.toEngine = r.latched ↔ r.NoOverrun := by
  rw [r.synced]
  exact Chip.drained_eq_latched_iff rfl r.chip.replay drained

end Radio
end Meshcore
