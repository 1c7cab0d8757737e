import Meshcore.InterruptLine

/-! The one receive slot. A tick in receive mode copies the frame at the head of the
queue into the data buffer and raises RX_DONE, whether or not the firmware has
taken the frame before it. -/
namespace Meshcore

open Checked Flags Runs

/-- An operation of the engine rather than of the firmware. -/
def ChipOp.Engine : ChipOp → Prop
  | .frame _ | .tick _ | .txDone | .channelBusy _ => True
  | _ => False

namespace Chip

/-- The frame a step delivers, if it delivers one. -/
def delivers (c : Chip) (op : ChipOp) : Option (List UInt8) :=
  match c.event op with
  | some (.tick _) => if c.mode = .rx then c.inbox.head? else none
  | _ => none

/-- The step executes a `ClearIrqStatus` that names RX_DONE. -/
def takes (c : Chip) (op : ChipOp) : Bool :=
  match c.event op with
  | some e => any e.cleared kIrqRxDone
  | none => false

/-- The step executes a command that writes the data buffer or moves its bases. -/
def rewrites (c : Chip) (op : ChipOp) : Bool :=
  match c.event op with
  | some (.command cmd) =>
    decide (opcode? (arg cmd 0) = some .writeBuffer ∨ opcode? (arg cmd 0) = some .setBufferBase)
  | _ => false

/-- A frame has been delivered, and the firmware has not acknowledged it. -/
def awaiting (c : Chip) (ops : List ChipOp) : Bool :=
  history step (fun c op _ waits => (c.delivers op).isSome || waits && !c.takes op) c false ops

/-- The frame the firmware has still to read: delivered, not acknowledged, and not
overwritten by the firmware itself. -/
def held (c : Chip) (ops : List ChipOp) : Option (List UInt8) :=
  history step (fun c op _ f =>
    if c.takes op || c.rewrites op then none else f.or (c.delivers op)) c none ops

/-- No frame is delivered on top of one whose RX_DONE is still up. -/
def Collected (c : Chip) (op : ChipOp) : Prop :=
  (c.delivers op).isSome → any c.irq kIrqRxDone = false

instance (c : Chip) (op : ChipOp) : Decidable (c.Collected op) :=
  inferInstanceAs (Decidable (_ → _))

/-- RX_DONE is raised by deliveries and nothing else. -/
theorem raised_rxDone (c : Chip) (event : c.event op = some e) :
    any (c.raised e) kIrqRxDone = (c.delivers op).isSome := by
  rw [Bool.eq_iff_iff]
  rw [delivers]
  rw [event]
  cases e with
  | command cmd =>
    have other : any (kIrqCadDone ||| kIrqCadDetected) kIrqRxDone = false := by decide
    constructor
    · intro raises
      simp [(any_raised_command raises).2] at other
    · intro none
      cases none
  | tick nowMs =>
    have preamble : any kIrqPreambleDetected kIrqRxDone = false := by decide
    have header : any (kIrqHeaderValid ||| kIrqSyncWordValid) kIrqRxDone = false := by decide
    have frame : any deliveredFlags kIrqRxDone = true := by decide
    rw [any_raised_tick]
    simp only [preamble, header, frame, Bool.false_eq_true, and_false, false_or, or_false, and_true]
    by_cases hears : c.mode = .rx <;> cases c.inbox <;> simp [hears]
  | txDone =>
    have other : any kIrqTxDone kIrqRxDone = false := by decide
    simp [any_raised_txDone,other]
  | _ => simp [raised]

theorem single_rxDone : Single kIrqRxDone := ⟨1,by decide⟩

theorem step_rxDone {c next : Chip} (stepped : c.step op = some next) :
    any next.irq kIrqRxDone =
      ((c.delivers op).isSome || any c.irq kIrqRxDone && !c.takes op) := by
  rcases step_event stepped with ⟨event,core⟩ | ⟨e,d,event,applied,core⟩
  · rw [core_irq core]
    simp [delivers,takes,event]
  rw [core_irq core, apply_irq applied, ← raised_rxDone c event]
  have takes : c.takes op = any e.cleared kIrqRxDone := by rw [Chip.takes, event]
  cases named : any e.cleared kIrqRxDone with
  | true => rw [any_latch_of_named single_rxDone named, takes, named]; simp
  | false => rw [any_latch_of_kept named, takes, named, Bool.or_comm]; simp

/-- A frame is waiting for the firmware exactly while RX_DONE is up. -/
theorem run_awaiting {stuckIrqMs : UInt32} {c : Chip}
    (ran : run step (new stuckIrqMs) ops = some c) :
    awaiting (new stuckIrqMs) ops = any c.irq kIrqRxDone := by
  refine history_invariant (g := false) (fun (c : Chip) (waits : Bool) =>
    waits = any c.irq kIrqRxDone) ?_ ran any_zero_left.symm
  intro c op next waits same stepped
  rw [step_rxDone stepped, same]

/-- Where a delivered frame is read from. -/
structure RxSlot where
  rxLen : UInt8
  rxBase : UInt8
  buffer : Block 256 UInt8

def rxSlot (c : Chip) : RxSlot := ⟨c.rxLen,c.rxBase,c.buffer⟩

/-- The slot holds `f`, as much of it as a length byte can count. -/
def RxSlot.Holds (slot : RxSlot) (f : List UInt8) : Prop :=
  slot.rxLen.toNat = min f.length 255 ∧
    slot.buffer.slice? slot.rxBase.toNat slot.rxLen.toNat = some (f.take 255)

theorem core_rxSlot {c d : Chip} (same : c.core = d.core) : c.rxSlot = d.rxSlot := by
  have := congrArg rxSlot same
  exact this

theorem quiet_rxSlot {c d : Chip} (same : c.quiet = d.quiet) : c.rxSlot = d.rxSlot := by
  have := congrArg rxSlot same
  exact this

/-- Outside a delivery only the firmware's own commands move the received bytes. -/
theorem step_rxSlot {c next : Chip} (stepped : c.step op = some next)
    (none : c.delivers op = none) (plain : c.rewrites op = false) : next.rxSlot = c.rxSlot := by
  rcases step_event stepped with ⟨_,core⟩ | ⟨e,d,event,applied,core⟩
  · exact core_rxSlot core
  rw [core_rxSlot core]
  cases e with
  | command cmd =>
    simp only [rewrites, event, decide_eq_false_iff_not, not_or] at plain
    have around := congrArg Chip.rxLen (act_acts applied).surroundings
    have rxLen : d.rxLen = c.rxLen := around
    simp only [rxSlot, rxLen, (act_acts applied).buffer plain.1, (act_acts applied).rxBase plain.2]
  | tick nowMs =>
    obtain ⟨m,quiet,delivered⟩ := tick_delivery applied
    rw [quiet_rxSlot quiet]
    simp only [delivers, event] at none
    split at delivered
    next hears =>
      rw [if_pos hears, List.head?_eq_none_iff] at none
      rw [deliverPending_nil (c := { c with nowMs }) none] at delivered
      exact Option.some.inj delivered ▸ rfl
    next deaf => exact Option.some.inj delivered ▸ rfl
  | txDone =>
    obtain rfl := Option.some.inj applied
    exact transmitFinished_keeps rxSlot (fun _ _ _ => rfl) c
  | _ => exact Option.some.inj applied ▸ rfl

theorem step_delivers {c next : Chip} (stepped : c.step op = some next)
    (delivers : c.delivers op = some f) : next.rxSlot.Holds f := by
  rcases step_event stepped with ⟨event,_⟩ | ⟨e,d,event,applied,core⟩
  · simp [Chip.delivers,event] at delivers
  rw [core_rxSlot core]
  cases e with
  | tick nowMs =>
    simp only [Chip.delivers, event, Option.ite_none_right_eq_some] at delivers
    obtain ⟨hears,head⟩ := delivers
    obtain ⟨m,quiet,delivered⟩ := tick_delivery applied
    rw [quiet_rxSlot quiet]
    obtain ⟨rest,waiting⟩ : ∃ rest, c.inbox = f :: rest := by
      cases waiting : c.inbox with
      | nil => simp [waiting] at head
      | cons g rest => exact ⟨rest,by simpa [waiting] using head⟩
    rw [if_pos hears, deliverPending_cons (c := { c with nowMs }) waiting] at delivered
    obtain ⟨buffer,copied,rfl⟩ := Option.map_eq_some_iff.mp delivered
    refine ⟨rxLen_toNat _,?_⟩
    have room : c.rxBase.toNat + min f.length 255 ≤ 256 :=
      (memcpy?_isSome c.buffer f (min f.length 255) (Nat.min_le_left _ _)).mp (by rw [copied]; rfl)
    rw [memcpy?_of_le _ _ room (Nat.min_le_left _ _)] at copied
    obtain rfl := Option.some.inj copied
    have taken : f.take (min f.length 255) = f.take 255 := by
      rw [Nat.min_comm, ← List.take_take, List.take_length]
    have read := slice?_overlay c.buffer c.rxBase.toNat (f.take (min f.length 255)) (by
      simp only [List.length_take]; omega)
    rw [List.length_take, Nat.min_eq_left (Nat.min_le_left _ _), taken] at read
    simp only [rxSlot, received, rxLen_toNat, taken]
    exact read
  | _ => simp [Chip.delivers,event] at delivers

/-- What a run keeps of the frame the firmware has still to read. -/
structure Kept (c : Chip) (f : Option (List UInt8)) : Prop where
  waits : f.isSome → any c.irq kIrqRxDone = true
  holds : ∀ frame, f = some frame → c.rxSlot.Holds frame

theorem kept_step {c next : Chip} {f : Option (List UInt8)} (kept : Kept c f)
    (collected : c.Collected op) (stepped : c.step op = some next) :
    Kept next (if c.takes op || c.rewrites op then none else f.or (c.delivers op)) := by
  by_cases gone : (c.takes op || c.rewrites op) = true
  · rw [if_pos gone]
    exact ⟨nofun,nofun⟩
  rw [if_neg gone]
  obtain ⟨unread,plain⟩ : c.takes op = false ∧ c.rewrites op = false := by
    simpa [Bool.or_eq_false_iff] using gone
  have after := step_rxDone stepped
  cases f with
  | some frame =>
    -- RX_DONE is up, so this step delivers nothing.
    have waits := kept.waits rfl
    have none : c.delivers op = Option.none := by
      by_contra some'
      simp [collected (Option.isSome_iff_ne_none.mpr some')] at waits
    refine ⟨fun _ => by rw [after, waits, unread]; simp,fun other same => ?_⟩
    obtain rfl := Option.some.inj same
    exact step_rxSlot stepped none plain ▸ kept.holds frame rfl
  | none =>
    refine ⟨fun some' => ?_,fun frame same => step_delivers stepped same⟩
    rw [after, show (c.delivers op).isSome = true from some', Bool.true_or]

/-- In a run that delivers no frame over one whose RX_DONE is still up, no event of
the engine moves a waiting frame, and every frame can be read until the firmware
acknowledges it or writes over it. -/
theorem received_frame_stays {stuckIrqMs : UInt32} {c : Chip} (ops : List ChipOp)
    (ran : run step (new stuckIrqMs) ops = some c)
    (guarded : Each step Collected (new stuckIrqMs) ops) :
    (awaiting (new stuckIrqMs) ops = true → ∀ op next, op.Engine → c.Collected op →
      c.step op = some next → next.rxSlot = c.rxSlot) ∧
    ∀ f, held (new stuckIrqMs) ops = some f → c.rxSlot.Holds f := by
  constructor
  · intro waits op next engine collected stepped
    rw [run_awaiting ran] at waits
    have none : c.delivers op = Option.none := by
      by_contra some'
      have low := collected (Option.isSome_iff_ne_none.mpr some')
      simp [waits] at low
    have plain : c.rewrites op = false := by
      cases op <;> first | rfl | exact engine.elim
    exact step_rxSlot stepped none plain
  · have start : Kept (new stuckIrqMs) none := ⟨nofun,nofun⟩
    exact (history_invariant_of_each Kept (fun _ _ _ _ => kept_step) ran guarded start).holds

theorem received_frame_stays_once : ∃ c,
    run step (new 0) [.spiTransfer [0x82,0xFF,0xFF,0xFF],.frame [0xA1],.tick 1] = some c ∧
    (awaiting (new 0) [.spiTransfer [0x82,0xFF,0xFF,0xFF],.frame [0xA1],.tick 1] = true →
      ∀ op next, op.Engine → c.Collected op → c.step op = some next → next.rxSlot = c.rxSlot) ∧
    ∀ f, held (new 0) [.spiTransfer [0x82,0xFF,0xFF,0xFF],.frame [0xA1],.tick 1] = some f →
      c.rxSlot.Holds f := by
  have reached : (run step (new 0)
      [.spiTransfer [0x82,0xFF,0xFF,0xFF],.frame [0xA1],.tick 1]).isSome = true := by
    decide +kernel
  obtain ⟨c,ran⟩ := Option.isSome_iff_exists.mp reached
  exact ⟨c,ran,received_frame_stays _ ran (by decide +kernel)⟩

/-- Two frames queued in receive mode, and two ticks. -/
theorem waiting_frame_overwritten : ¬∀ (stuckIrqMs : UInt32) (ops : List ChipOp) (c : Chip),
    run step (new stuckIrqMs) ops = some c → awaiting (new stuckIrqMs) ops = true →
      ∀ op next, op.Engine → c.step op = some next →
        next.rxLen = c.rxLen ∧ ∀ i < c.rxLen.toNat,
          next.buffer.get? (c.rxBase.toNat + i) = c.buffer.get? (c.rxBase.toNat + i) := by
  intro stays
  let ops : List ChipOp := [.spiTransfer [0x82,0xFF,0xFF,0xFF],.frame [0xA1],.frame [0xB1,0xB2],
    .tick 1]
  have reached : (run step (new 0) ops).map (fun c => (awaiting (new 0) ops,c.rxLen,
      (c.step (.tick 2)).map Chip.rxLen)) = some (true,1,some 2) := by
    decide +kernel
  obtain ⟨c,ran,rest⟩ := Option.map_eq_some_iff.mp reached
  obtain ⟨waits,before,after⟩ : awaiting (new 0) ops = true ∧ c.rxLen = 1 ∧
      (c.step (.tick 2)).map Chip.rxLen = some 2 := by simpa using rest
  obtain ⟨next,stepped,two⟩ := Option.map_eq_some_iff.mp after
  have same := (stays 0 ops c ran waits (.tick 2) next trivial stepped).1
  simp [before,two] at same

end Chip
end Meshcore
