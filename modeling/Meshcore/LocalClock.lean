import Meshcore.Accesses
import Meshcore.EarlyTicks
import Meshcore.Library.Clocks
import Mathlib.Order.Lattice.Nat

/-! The node's own clock. Each tick sets it forward to the network's, unless what the
firmware did before has taken it past that already; every wait and every transfer takes it
further. The chip is told of it and of nothing else, so its time never runs back. -/
namespace Meshcore

open Checked Runs Clocks

variable {κ σ : Type} {stuckIrqMs : UInt32}

/-- What is done with the hardware between the start of one tick and that of the next: by
the firmware, by the interrupt as it is entered and left, and by the bridge, which
accesses the chip itself. -/
inductive HalUse (κ : Type) where
  | spiTransfer (out : List UInt8)
  | delay (ms : UInt64)
  | delayMicroseconds (us : UInt64)
  | yield
  | attachInterrupt (cb : κ)
  | detachInterrupt
  | inIsr (entered : Bool)
  | access (op : ChipOp) (other : op ≠ .drain) (untimed : op.time? = none)
  | drainTx

/-- The microseconds it takes. -/
def HalUse.costUs : HalUse κ → ℕ
  | .spiTransfer out => 30 + 2 * out.length
  | .delay ms => 1000 * ms.toNat
  | .delayMicroseconds us => us.toNat
  | .yield => 50
  | .attachInterrupt _ | .detachInterrupt | .inIsr _ | .access _ _ _ | .drainTx => 0

inductive HalCall (κ : Type) where
  | beginTick (networkMs : UInt32)
  | use (u : HalUse κ)

/-- The clock after a call, had it no width. -/
def HalCall.after (us : ℕ) : HalCall κ → ℕ
  | .beginTick networkMs => max us (1000 * networkMs.toNat)
  | .use u => us + u.costUs

theorem HalCall.le_after (us : ℕ) (c : HalCall κ) : us ≤ c.after us := by
  cases c with
  | beginTick networkMs => exact Nat.le_max_left _ _
  | use u => exact Nat.le_add_right _ _

theorem HalCall.le_foldl (calls : List (HalCall κ)) (us : ℕ) : us ≤ calls.foldl after us := by
  induction calls generalizing us with
  | nil => exact le_rfl
  | cons c rest ih => exact (c.le_after us).trans (ih _)

namespace SimHal

def use (h : SimHal κ stuckIrqMs) : HalUse κ → Option (SimHal κ stuckIrqMs)
  | .spiTransfer out => (h.spiTransfer out).map Prod.fst
  | .delay ms => h.delay ms
  | .delayMicroseconds us => h.delayMicroseconds us
  | .yield => h.yield
  | .attachInterrupt cb => some (h.attachInterrupt cb)
  | .detachInterrupt => some h.detachInterrupt
  | .inIsr entered => some { h with inIsr := entered }
  | .access op other _ => do some { h with radio := ← h.radio.perform op other }
  | .drainTx => some { h with radio := h.radio.drainTx }

def call (h : SimHal κ stuckIrqMs) : HalCall κ → Option (SimHal κ stuckIrqMs)
  | .beginTick networkMs => h.beginTick networkMs
  | .use u => h.use u

theorem Uses.exists_use {h h' : SimHal κ stuckIrqMs} (used : h.Uses h') :
    ∃ u : HalUse κ, h.use u = some h' := by
  cases used with
  | @spiTransfer out _ _ transferred => exact ⟨.spiTransfer out,by rw [use, transferred]; rfl⟩
  | @delay ms _ waited => exact ⟨.delay ms,waited⟩
  | @delayMicroseconds us _ waited => exact ⟨.delayMicroseconds us,waited⟩
  | yield waited => exact ⟨.yield,waited⟩
  | attachInterrupt cb => exact ⟨.attachInterrupt cb,rfl⟩
  | detachInterrupt => exact ⟨.detachInterrupt,rfl⟩

end SimHal

/-! The calls of the firmware and of the bridge are among these. -/
namespace NativeNode

/-- Whatever the application does, it does with the hardware it has. -/
theorem exec_uses (p : Prog κ σ) {n n' : NativeNode κ σ stuckIrqMs} (ran : n.exec p = some n') :
    ∃ uses : List (HalUse κ), run SimHal.use n.hal uses = some n'.hal := by
  refine exec_rel (fun a b => ∃ uses : List (HalUse κ), run SimHal.use a.hal uses = some b.hal)
    ?_ ?_ (fun _ _ _ _ _ => ⟨[],rfl⟩) p ran
  · rintro a b c ⟨first,begun⟩ ⟨rest,ended⟩
    exact ⟨first ++ rest,run_append_eq_some.mpr ⟨b.hal,begun,ended⟩⟩
  · intro n hal used
    obtain ⟨u,same⟩ := used.exists_use
    exact ⟨[u],run_cons_eq_some.mpr ⟨hal,same,rfl⟩⟩

variable (app : App κ σ)

theorem servicePendingIrq_uses {n n' : NativeNode κ σ stuckIrqMs}
    (serviced : n.servicePendingIrq app = some n') :
    ∃ uses : List (HalUse κ), run SimHal.use n.hal uses = some n'.hal := by
  obtain rfl | ⟨_,m,ran,rfl⟩ := servicePendingIrq_cases app serviced
  · exact ⟨[],rfl⟩
  · obtain ⟨uses,ran⟩ := exec_uses _ ran
    refine ⟨.inIsr true :: uses ++ [.inIsr false],?_⟩
    exact run_append_eq_some.mpr ⟨m.hal,ran,rfl⟩

theorem run_call_uses {h h' : SimHal κ stuckIrqMs} (uses : List (HalUse κ)) :
    run SimHal.call h (uses.map .use) = some h' ↔ run SimHal.use h uses = some h' := by
  induction uses generalizing h with
  | nil => rfl
  | cons u rest ih =>
    rw [List.map_cons, run_cons_eq_some, run_cons_eq_some]
    exact exists_congr fun next => and_congr_right fun _ => ih

/-- A pass begins a tick at the network's time, and the rest of it is work. -/
theorem pass_calls {n n' : NativeNode κ σ stuckIrqMs} (passed : n.pass app = some n') :
    ∃ uses : List (HalUse κ),
      run SimHal.call n.hal (.beginTick n.g_sim_millis :: uses.map .use) = some n'.hal := by
  obtain ⟨hal,m,last,begun,serviced,looped,rfl⟩ := pass_parts app passed
  obtain ⟨interrupt,first⟩ := servicePendingIrq_uses app serviced
  obtain ⟨loop,rest⟩ := exec_uses _ looped
  refine ⟨interrupt ++ loop ++ [.drainTx],run_cons_eq_some.mpr ⟨hal,begun,?_⟩⟩
  rw [run_call_uses, run_append_eq_some]
  exact ⟨last.hal,run_append_eq_some.mpr ⟨m.hal,first,rest⟩,rfl⟩

end NativeNode

/-- The clock of a node and of its chip, `us` having passed for the node. -/
structure OnTime (radio : Radio stuckIrqMs) (localUs : UInt64) (us : ℕ) : Prop where
  clock : localUs.toNat = us
  stands : radio.chip.state.Stands (localUs / 1000)
  timely : Timely radio.chip.log
  told : ∀ t ∈ radio.chip.log.filterMap ChipOp.time?, t ≤ localUs / 1000

theorem Radio.perform_log {r r' : Radio stuckIrqMs} {other : op ≠ .drain}
    (performed : r.perform op other = some r') : r'.chip.log = r.chip.log ++ [op] := by
  rw [perform] at performed
  split at performed
  · cases performed
  · exact Option.some.inj performed ▸ rfl

namespace OnTime

variable {r r' : Radio stuckIrqMs} {localUs later : UInt64} {us : ℕ}

theorem init (stuckIrqMs : UInt32) : OnTime (.init stuckIrqMs) 0 0 where
  clock := rfl
  stands := ⟨rfl,rfl,UInt64.zero_le⟩
  timely := .nil
  told := nofun

/-- The chip is ticked at a clock that has not run back. -/
theorem tick (onTime : OnTime r localUs us) (after : us ≤ later.toNat)
    (ticked : r.tick (later / 1000) = some r') : OnTime r' later later.toNat := by
  have forward : localUs / 1000 ≤ later / 1000 := by
    rw [UInt64.le_iff_toNat_le, UInt64.toNat_div, UInt64.toNat_div, onTime.clock]
    exact Nat.div_le_div_right after
  have earlier (t : UInt64) (told : t ∈ r.chip.log.filterMap ChipOp.time?) : t ≤ later / 1000 :=
    UInt64.le_trans (onTime.told t told) forward
  have log := Radio.perform_log ticked
  have stepped := (Radio.perform_eq_some ticked).1
  refine ⟨rfl,Chip.run_tick_stands onTime.stands [] forward (run_cons_eq_some.mpr ⟨_,stepped,rfl⟩),
    ?_,?_⟩
  · rw [log, Timely, List.filterMap_append, List.pairwise_append]
    refine ⟨onTime.timely,List.pairwise_singleton _ _,fun t told next last => ?_⟩
    obtain rfl : next = later / 1000 := by simpa [ChipOp.time?] using last
    exact earlier t told
  · intro t told
    rw [log, List.filterMap_append, List.mem_append] at told
    rcases told with told | last
    · exact earlier t told
    · obtain rfl : t = later / 1000 := by simpa [ChipOp.time?] using last
      exact UInt64.le_refl _

/-- What is no tick leaves the clocks alone. -/
theorem untimed {next : Chip} (onTime : OnTime r localUs us) (untimed : op.time? = none)
    (stepped : r.chip.state.step op = some next) (state : r'.chip.state = next)
    (log : r'.chip.log = r.chip.log ++ [op]) : OnTime r' localUs us := by
  have times : r'.chip.log.filterMap ChipOp.time? = r.chip.log.filterMap ChipOp.time? := by
    simp [log,untimed]
  refine ⟨onTime.clock,state ▸ Chip.step_stands onTime.stands untimed stepped,?_,?_⟩
  · rw [Timely, times]
    exact onTime.timely
  · rw [times]
    exact onTime.told

theorem perform {other : op ≠ .drain} (onTime : OnTime r localUs us) (plain : op.time? = none)
    (performed : r.perform op other = some r') : OnTime r' localUs us :=
  onTime.untimed plain (Radio.perform_eq_some performed).1 rfl (Radio.perform_log performed)

theorem drainTx (onTime : OnTime r localUs us) : OnTime r.drainTx localUs us := by
  rw [Radio.drainTx]
  split
  · have taken : r.chip.state.step .drain = some r.chip.state.takePending := rfl
    exact onTime.untimed (by rfl) taken rfl rfl
  · exact onTime

theorem advanceUs {h h' : SimHal κ stuckIrqMs} (onTime : OnTime h.radio h.localUs us)
    (cost : amount.toNat = costUs) (room : us + costUs < UInt64.size)
    (advanced : h.advanceUs amount = some h') : OnTime h'.radio h'.localUs (us + costUs) := by
  obtain ⟨clock,ticked⟩ := SimHal.advanceUs_ticks advanced
  have sum : h'.localUs.toNat = us + costUs := by
    rw [clock, UInt64.toNat_add, onTime.clock, cost]
    exact Nat.mod_eq_of_lt room
  have reached := onTime.tick (by omega) ticked
  rwa [sum] at reached

theorem beginTick {h h' : SimHal κ stuckIrqMs} (onTime : OnTime h.radio h.localUs us)
    (begun : h.beginTick networkMs = some h') :
    OnTime h'.radio h'.localUs (max us (1000 * networkMs.toNat)) := by
  obtain ⟨clock,ticked⟩ := SimHal.beginTick_ticks begun
  have due : (networkMs.toUInt64 * 1000).toNat = 1000 * networkMs.toNat := by
    have small := networkMs.toNat_lt
    rw [UInt64.toNat_mul, UInt32.toNat_toUInt64, Nat.mul_comm]
    exact Nat.mod_eq_of_lt (by simp; omega)
  have latest : h'.localUs.toNat = max us (1000 * networkMs.toNat) := by
    rw [clock]
    split
    next ahead =>
      rw [gt_iff_lt, UInt64.lt_iff_toNat_lt, due, onTime.clock] at ahead
      rw [due, Nat.max_eq_right ahead.le]
    next behind =>
      rw [gt_iff_lt, UInt64.lt_iff_toNat_lt, due, onTime.clock, Nat.not_lt] at behind
      rw [onTime.clock, Nat.max_eq_left behind]
  have reached := onTime.tick (latest ▸ Nat.le_max_left us _) ticked
  rwa [latest] at reached

/-- Every use costs what it is said to. -/
theorem use {h h' : SimHal κ stuckIrqMs} {u : HalUse κ} (onTime : OnTime h.radio h.localUs us)
    (room : us + u.costUs < UInt64.size) (used : h.use u = some h') :
    OnTime h'.radio h'.localUs (us + u.costUs) := by
  have bound : UInt64.size = 2 ^ 64 := rfl
  cases u with
  | spiTransfer out =>
    obtain ⟨⟨_,inp⟩,transferred,rfl⟩ := Option.map_eq_some_iff.mp used
    obtain ⟨late,advanced,clock,performed⟩ := SimHal.spiTransfer_performs transferred
    have cost : (30 + UInt64.ofNat out.length * 2).toNat = 30 + 2 * out.length := by
      simp only [HalUse.costUs] at room
      have length : (UInt64.ofNat out.length).toNat = out.length := UInt64.toNat_ofNat_of_lt' (by omega)
      rw [UInt64.toNat_add, UInt64.toNat_mul, length]
      simp
      omega
    have waited := onTime.advanceUs cost room advanced
    exact clock ▸ waited.perform rfl performed
  | delay ms =>
    have cost : (ms * 1000).toNat = 1000 * ms.toNat := by
      simp only [HalUse.costUs] at room
      rw [UInt64.toNat_mul, Nat.mul_comm]
      exact Nat.mod_eq_of_lt (by simp; omega)
    exact onTime.advanceUs cost room used
  | delayMicroseconds amount => exact onTime.advanceUs rfl room used
  | yield => exact onTime.advanceUs rfl room used
  | attachInterrupt cb | detachInterrupt | inIsr entered => exact Option.some.inj used ▸ onTime
  | access op other untimed =>
    simp only [SimHal.use, Option.bind_eq_bind, Option.bind_eq_some_iff, Option.some.injEq] at used
    obtain ⟨_,performed,rfl⟩ := used
    exact onTime.perform untimed performed
  | drainTx => exact Option.some.inj used ▸ onTime.drainTx

theorem call {h h' : SimHal κ stuckIrqMs} {c : HalCall κ} (onTime : OnTime h.radio h.localUs us)
    (room : c.after us < UInt64.size) (called : h.call c = some h') :
    OnTime h'.radio h'.localUs (c.after us) := by
  cases c with
  | beginTick networkMs => exact onTime.beginTick called
  | use u => exact onTime.use room called

/-- A run of calls moves the clock as the calls say, while it has room for what they do. -/
theorem run {h h' : SimHal κ stuckIrqMs} (onTime : OnTime h.radio h.localUs us)
    (calls : List (HalCall κ)) (room : calls.foldl HalCall.after us < UInt64.size)
    (ran : Runs.run SimHal.call h calls = some h') :
    OnTime h'.radio h'.localUs (calls.foldl HalCall.after us) := by
  induction calls generalizing h us with
  | nil => exact Option.some.inj ran ▸ onTime
  | cons c rest ih =>
    obtain ⟨next,called,ran⟩ := run_cons_eq_some.mp ran
    have small := (HalCall.le_foldl rest (c.after us)).trans_lt room
    exact ih (onTime.call small called) room ran

end OnTime

/-- The time a run of uses takes. -/
def costUs (uses : List (HalUse κ)) : ℕ := (uses.map HalUse.costUs).sum

theorem foldl_uses (uses : List (HalUse κ)) (us : ℕ) :
    (uses.map .use).foldl HalCall.after us = us + costUs uses := by
  induction uses generalizing us with
  | nil => rfl
  | cons u rest ih =>
    rw [List.map_cons, List.foldl_cons, ih, HalCall.after, costUs, costUs, List.map_cons,
      List.sum_cons, Nat.add_assoc]

/-- The ticks of a node: when each begins for the network, and what is done then. -/
structure Schedule (κ : Type) where
  before : List (HalUse κ)
  networkMs : ℕ → UInt32
  work : ℕ → List (HalUse κ)

namespace Schedule

variable (s : Schedule κ)

/-- The calls up to the work of so many ticks. -/
def calls (ticks : ℕ) : List (HalCall κ) :=
  s.before.map .use ++
    (List.range ticks).flatMap fun k => .beginTick (s.networkMs k) :: (s.work k).map .use

/-- Where that takes the clock: the latest that any of the ticks leaves it, or none. -/
def clockUs (ticks : ℕ) : ℕ :=
  max (costUs s.before + ∑ i ∈ Finset.range ticks, costUs (s.work i))
    ((Finset.range ticks).sup fun j =>
      1000 * (s.networkMs j).toNat + ∑ i ∈ Finset.Ico j ticks, costUs (s.work i))

theorem foldl_calls (ticks : ℕ) : (s.calls ticks).foldl HalCall.after 0 = s.clockUs ticks := by
  have rounds : s.clockUs ticks = Clocks.clock (fun j => 1000 * (s.networkMs j).toNat)
      (fun i => costUs (s.work i)) (costUs s.before) ticks := (clock_eq _ _ _ _).symm
  rw [rounds, calls, List.foldl_append, foldl_uses, Nat.zero_add]
  induction ticks with
  | zero => rfl
  | succ k ih =>
    have round (us : ℕ) : (HalCall.beginTick (s.networkMs k) :: (s.work k).map .use).foldl
        HalCall.after us = max us (1000 * (s.networkMs k).toNat) + costUs (s.work k) :=
      foldl_uses _ _
    rw [List.range_succ, List.flatMap_append, List.foldl_append, ih (clock_eq _ _ _ _).symm,
      List.flatMap_singleton, round, Clocks.clock]

/-- The same ticks after one more, which the work they began with now belongs to. -/
def delayed (s : Schedule κ) (networkMs : UInt32) : Schedule κ where
  before := []
  networkMs := fun i => Nat.casesOn i networkMs s.networkMs
  work := fun i => Nat.casesOn i s.before s.work

theorem calls_delayed (s : Schedule κ) (networkMs : UInt32) (ticks : ℕ) :
    (s.delayed networkMs).calls (ticks + 1) = .beginTick networkMs :: s.calls ticks := by
  rw [calls, calls, List.range_succ_eq_map, List.flatMap_cons, List.flatMap_map]
  rfl

/-- Calls in any order are the calls of some ticks. -/
theorem exists_calls (calls : List (HalCall κ)) : ∃ (s : Schedule κ) (ticks : ℕ),
    s.calls ticks = calls := by
  induction calls with
  | nil => exact ⟨⟨[],fun _ => 0,fun _ => []⟩,0,rfl⟩
  | cons c rest ih =>
    obtain ⟨s,ticks,rfl⟩ := ih
    cases c with
    | use u => exact ⟨{ s with before := u :: s.before },ticks,rfl⟩
    | beginTick networkMs => exact ⟨s.delayed networkMs,ticks + 1,s.calls_delayed networkMs ticks⟩

end Schedule

/-- Time as a node keeps it. What a tick takes too long is taken from the ticks after it,
and the chip finds neither the tick before nor the start of the signal in its future. -/
theorem excess_carries (s : Schedule κ) (ticks : ℕ) {h : SimHal κ stuckIrqMs}
    (ran : run SimHal.call { radio := .init stuckIrqMs } (s.calls ticks) = some h)
    (room : s.clockUs ticks < UInt64.size) :
    h.localUs.toNat = s.clockUs ticks ∧ Timely h.radio.chip.log ∧
      ∀ pre g, pre <+: s.calls ticks →
        run SimHal.call { radio := .init stuckIrqMs } pre = some g →
        g.localUs ≤ h.localUs ∧ g.chip.busySinceMs ≤ g.chip.nowMs ∧
          g.chip.lastBusyTickMs ≤ g.chip.nowMs := by
  rw [← s.foldl_calls] at room ⊢
  have final := (OnTime.init stuckIrqMs).run _ room ran
  refine ⟨final.clock,final.timely,?_⟩
  rintro pre g ⟨post,whole⟩ reached
  have grown : pre.foldl HalCall.after 0 ≤ (s.calls ticks).foldl HalCall.after 0 := by
    rw [← whole, List.foldl_append]
    exact HalCall.le_foldl post _
  have onTime := (OnTime.init stuckIrqMs).run pre (grown.trans_lt room) reached
  have now : g.chip.nowMs = g.localUs / 1000 := onTime.stands.clock
  refine ⟨?_,?_,?_⟩
  · rw [UInt64.le_iff_toNat_le, onTime.clock, final.clock]
    exact grown
  · rw [now]
    exact onTime.stands.since
  · rw [now]
    exact UInt64.le_of_eq onTime.stands.last

/-- Three ticks, of which the second is overrun by a frame's worth of waiting, the chip in
receive mode and the air busy. -/
def overrun : Schedule Unit where
  before := [.delay 2,.spiTransfer [0x82,0,0,0]]
  networkMs := fun k => 5 * UInt32.ofNat k
  work := fun
    | 1 => [.access (.channelBusy true) (by simp) rfl,.delay 20,.yield]
    | _ => [.yield]

theorem excess_carries_overrun : ∃ h : SimHal Unit 0,
    run SimHal.call { radio := .init 0 } (overrun.calls 3) = some h ∧
      h.localUs.toNat = 25100 := by
  have runs : (run SimHal.call { radio := .init 0 } (overrun.calls 3) :
      Option (SimHal Unit 0)).isSome := by decide +kernel
  obtain ⟨h,ran⟩ := Option.isSome_iff_exists.mp runs
  have room : overrun.clockUs 3 = 25100 := by decide +kernel
  exact ⟨h,ran,(excess_carries overrun 3 ran (by rw [room]; decide)).1.trans room⟩

end Meshcore
