import Meshcore.NativeNode

/-! DIO1 as its readers see it, against the two masks the firmware programs for it:
which flags are enabled, and which of those are routed to the line. -/
namespace Meshcore

open Flags Runs

namespace Chip

structure DioMasks where
  irqMask : BitVec 16
  dio1Mask : BitVec 16
  deriving DecidableEq

/-- The masks an operation programs, when it completes `SetDioIrqParams`. -/
def programs (c : Chip) (op : ChipOp) : Option DioMasks :=
  match (c.event op).bind (·.executes .setDioIrqParams 9) with
  | some cmd => some ⟨be16 (arg cmd 1) (arg cmd 2),be16 (arg cmd 3) (arg cmd 4)⟩
  | none => none

/-- The masks of the most recent complete `SetDioIrqParams` of a run. -/
def dioMasks (c : Chip) (ops : List ChipOp) : DioMasks :=
  history step (fun c op _ masks => (c.programs op).getD masks) c ⟨0,0⟩ ops

/-- Some flag is set, enabled and routed to DIO1, all at once. -/
def Routed (c : Chip) (masks : DioMasks) : Prop :=
  any (c.irq &&& masks.irqMask) masks.dio1Mask = true

instance (c : Chip) (masks : DioMasks) : Decidable (c.Routed masks) :=
  inferInstanceAs (Decidable (_ = true))

/-- Flags are set and enabled, and none of them is routed to DIO1. -/
def Stray (c : Chip) (masks : DioMasks) : Prop :=
  any c.irq masks.irqMask = true ∧ ∀ i, c.irq.getLsbD i = true → masks.irqMask.getLsbD i = true →
    masks.dio1Mask.getLsbD i = false

theorem step_irqMask {c next : Chip} (stepped : c.step op = some next) :
    next.irqMask = match c.programs op with
      | some masks => masks.irqMask
      | none => c.irqMask := by
  rw [programs]
  rcases step_event stepped with ⟨event,core⟩ | ⟨e,d,event,applied,core⟩
  · rw [event]
    exact congrArg Settings.irqMask (core_settings core)
  · have same : next.irqMask = d.irqMask := congrArg Settings.irqMask (core_settings core)
    rw [same, apply_irqMask applied, event, Option.bind_some]
    cases e.executes .setDioIrqParams 9 <;> rfl

/-- The one mask the chip keeps is the first of the two. -/
theorem run_irqMask {stuckIrqMs : UInt32} {c : Chip}
    (ran : run step (new stuckIrqMs) ops = some c) :
    c.irqMask = (dioMasks (new stuckIrqMs) ops).irqMask := by
  refine history_invariant (g := ⟨0,0⟩) (fun (c : Chip) (masks : DioMasks) =>
    c.irqMask = masks.irqMask) ?_ ran rfl
  intro c op next masks same stepped
  rw [step_irqMask stepped]
  cases c.programs op with
  | none => exact same
  | some masks => rfl

theorem routed_iff (c : Chip) (masks : DioMasks) : c.Routed masks ↔ ∃ i,
    c.irq.getLsbD i = true ∧ masks.irqMask.getLsbD i = true ∧ masks.dio1Mask.getLsbD i = true := by
  simp only [Routed, any_iff_bit, BitVec.getLsbD_and, Bool.and_eq_true, and_assoc]

/-- The line the chip drives follows the enabled flags, so it is wrong exactly
while all of those that are set are kept off DIO1. -/
theorem asserted_routed_iff (c : Chip) (masks : DioMasks) (same : c.irqMask = masks.irqMask) :
    (c.irqAsserted = true ↔ c.Routed masks) ↔ ¬c.Stray masks := by
  rw [irqAsserted, same, Stray]
  cases enabled : any c.irq masks.irqMask with
  | false =>
    have quiet : ¬c.Routed masks := by
      rw [routed_iff]
      rintro ⟨i,set,named,_⟩
      simp [any_iff_bit.mpr ⟨i,set,named⟩] at enabled
    simp [quiet]
  | true =>
    simp only [true_iff, true_and, routed_iff]
    push Not
    simp only [ne_eq, Bool.not_eq_false]

end Chip

/-- The level of DIO1, as each of its readers finds it on a chip in state `c`. -/
inductive Dio1Level (c : Chip) : Prop → Prop where
  | irqAsserted : Dio1Level c (c.irqAsserted = true)
  | digitalRead {κ : Type} {stuckIrqMs : UInt32} (hal : SimHal κ stuckIrqMs) (same : hal.chip = c) :
    Dio1Level c (hal.digitalRead kPinDio1 = GpioLevelHigh)
  | servicePendingIrq {κ : Type} {stuckIrqMs : UInt32} (hal : SimHal κ stuckIrqMs)
    (same : hal.chip = c) (cb : κ) (attached : hal.isr = some cb) (outside : hal.inIsr = false) :
    Dio1Level c (hal.pendingIsr = some cb)
  | readIrq {stuckIrqMs : UInt32} (server : RadioServer stuckIrqMs) (same : server.chip = c) :
    Dio1Level c (server.serviceQemu .readIrq = some (server.reply 1))

theorem dio1Level_iff (observed : Dio1Level c level) : level ↔ c.irqAsserted = true := by
  cases observed with
  | irqAsserted => exact Iff.rfl
  | digitalRead hal same => exact same ▸ hal.digitalRead_dio1
  | servicePendingIrq hal same cb attached outside =>
    exact same ▸ hal.pendingIsr_isSome attached outside
  | readIrq server same =>
    subst same
    cases high : server.chip.irqAsserted with
    | true => simp [RadioServer.serviceQemu,high]
    | false =>
      simp [RadioServer.serviceQemu,high,RadioServer.reply]

/-- After any run, whoever reads DIO1 finds it where the programmed masks put it,
unless flags are set and enabled of which none is routed there. -/
theorem dio1_follows_masks_iff {stuckIrqMs : UInt32} {c : Chip} (ops : List ChipOp)
    (ran : run Chip.step (Chip.new stuckIrqMs) ops = some c) (level : Prop)
    (observed : Dio1Level c level) :
    (level ↔ c.Routed (Chip.dioMasks (Chip.new stuckIrqMs) ops)) ↔
      ¬c.Stray (Chip.dioMasks (Chip.new stuckIrqMs) ops) := by
  rw [dio1Level_iff observed]
  exact Chip.asserted_routed_iff c _ (Chip.run_irqMask ran)

theorem dio1_follows_masks_received : ∃ c, run Chip.step (.new 0)
      [.spiTransfer [0x08,0x02,0x72,0x00,0x02,0x00,0x00,0x00,0x00],.spiTransfer [0x82,0xFF,0xFF,0xFF],
       .frame [0xA1],.tick 1] = some c ∧
    ((c.irqAsserted = true ↔ c.Routed ⟨0x0272,0x0002⟩) ↔ ¬c.Stray ⟨0x0272,0x0002⟩) := by
  let ops : List ChipOp := [.spiTransfer [0x08,0x02,0x72,0x00,0x02,0x00,0x00,0x00,0x00],
    .spiTransfer [0x82,0xFF,0xFF,0xFF],.frame [0xA1],.tick 1]
  have reached : (run Chip.step (.new 0) ops).isSome = true := by decide +kernel
  have masks : Chip.dioMasks (.new 0) ops = ⟨0x0272,0x0002⟩ := by decide +kernel
  obtain ⟨c,ran⟩ := Option.isSome_iff_exists.mp reached
  exact ⟨c,ran,masks ▸ dio1_follows_masks_iff ops ran _ .irqAsserted⟩

/-- The driver's receive masks: a header raises the line it is not routed to. -/
theorem stray_header : ¬∀ (stuckIrqMs : UInt32) (ops : List ChipOp) (c : Chip),
    run Chip.step (Chip.new stuckIrqMs) ops = some c →
      (c.irqAsserted = true ↔ c.Routed (Chip.dioMasks (Chip.new stuckIrqMs) ops)) := by
  intro follows
  let ops : List ChipOp := [.spiTransfer [0x08,0x02,0x72,0x00,0x02,0x00,0x00,0x00,0x00],
    .spiTransfer [0x82,0xFF,0xFF,0xFF],.channelBusy true,.tick 100]
  have reached : (run Chip.step (Chip.new 0) ops).map (fun c => (c.irqAsserted,
      decide (c.Routed (Chip.dioMasks (Chip.new 0) ops)))) = some (true,false) := by
    decide +kernel
  obtain ⟨c,ran,levels⟩ := Option.map_eq_some_iff.mp reached
  obtain ⟨high,apart⟩ := Prod.mk.inj levels
  exact of_decide_eq_false apart ((follows 0 ops c ran).mp high)

end Meshcore
