import Meshcore.Operations

/-! The counters of interrupt reads. They sit inside the decoder, which the streaming
path enters once a byte, so what they count is the bytes clocked into a
`GetIrqStatus` rather than the times the firmware asked. -/
namespace Meshcore

open Checked Flags Runs

namespace Chip

/-- The flags the firmware defers on. -/
def busyFlags (c : Chip) : Bool := any c.irq (kIrqPreambleDetected ||| kIrqHeaderValid)

/-- The operation performs a `GetIrqStatus`, or is the byte that begins one. -/
def asks (c : Chip) : ChipOp → Bool
  | .spiTransfer out => out ≠ [] ∧ opcode? (arg out 0) = some .getIrqStatus
  | .xfer out => c.accumulated = [] ∧ opcode? out = some .getIrqStatus
  | .csAssert | .csRelease | .setFem _ | .frame _ | .tick _ | .txDone | .channelBusy _ | .drain =>
    false

def asksBusy (c : Chip) (op : ChipOp) : Bool := c.asks op && c.busyFlags

/-- The operation clocks a further byte into a streamed `GetIrqStatus`. -/
def clocksOn (c : Chip) : ChipOp → Bool
  | .xfer _ => c.accumulated ≠ [] ∧ opcode? (arg c.accumulated 0) = some .getIrqStatus
  | .spiTransfer _ | .csAssert | .csRelease | .setFem _ | .frame _ | .tick _ | .txDone
  | .channelBusy _ | .drain => false

/-- The two counters. -/
def reads (c : Chip) : UInt32 × UInt32 := (c.irqReads,c.busyReads)

theorem reads_countIrqRead (c : Chip) : c.countIrqRead.reads =
    (c.irqReads + 1,if c.busyFlags then c.busyReads + 1 else c.busyReads) := rfl

/-- Any event but a read of the interrupt register leaves the link, and with it the
counters, alone. -/
theorem apply_keeps_link {c d : Chip}
    (counted : ∀ cmd, e = .command cmd → opcode? (arg cmd 0) ≠ some .getIrqStatus)
    (applied : c.apply e = some d) : d.link = c.link := by
  rw [← onLink_link c, ← onLink_core, apply_onLink _ _ _ counted] at applied
  obtain ⟨m,_,rfl⟩ := Option.map_eq_some_iff.mp applied
  rfl

theorem act_reads {c d : Chip} (acted : c.act cmd = some d) : d.reads =
    if opcode? (arg cmd 0) = some .getIrqStatus then c.countIrqRead.reads else c.reads := by
  by_cases counted : opcode? (arg cmd 0) = some .getIrqStatus
  · have data : returnsData (arg cmd 0) = true := by simp [returnsData,counted]
    rw [act_of_returnsData _ _ data, evaluated, if_pos counted] at acted
    rw [if_pos counted, ← Option.some.inj acted]
  · have kept : d.link = c.link :=
      apply_keeps_link (e := .command cmd) (fun _ same => by cases same; exact counted) acted
    rw [if_neg counted]
    exact congrArg (fun l : Link => (l.irqReads,l.busyReads)) kept

/-- One step counts once whenever it enters the decoder with a `GetIrqStatus`. -/
theorem step_reads {c next : Chip} (stepped : c.step op = some next) : next.reads =
    if c.asks op ∨ c.clocksOn op then c.countIrqRead.reads else c.reads := by
  have link {e : Event} (applied : c.apply e = some next) (plain : ∀ cmd, e ≠ .command cmd) :
      next.reads = c.reads :=
    congrArg (fun l : Link => (l.irqReads,l.busyReads))
      (apply_keeps_link (fun cmd same => absurd same (plain cmd)) applied)
  cases op with
  | spiTransfer out =>
    rw [step_spiTransfer] at stepped
    by_cases empty : out = []
    · obtain rfl : c = next := by simpa [empty] using stepped
      simp [asks,clocksOn,empty]
    · rw [act_reads (by simpa [empty] using stepped)]
      simp [asks,clocksOn,empty]
  | xfer out =>
    rw [step, transferByte_eq, Option.map_some] at stepped
    obtain rfl := Option.some.inj stepped
    have pushed : (c.pushByte out).reads = c.reads ∧ (c.pushByte out).irq = c.irq := by
      cases opened : c.inTxn <;> simp [pushByte,beginTransaction,opened,reads]
    have counted : (c.pushByte out).countIrqRead.reads = c.countIrqRead.reads := by
      obtain ⟨reads,irq⟩ := pushed
      obtain ⟨irqReads,busyReads⟩ := Prod.mk.inj reads
      rw [reads_countIrqRead, reads_countIrqRead, busyFlags, busyFlags, irq, irqReads, busyReads]
    have asked : (c.asks (.xfer out) ∨ c.clocksOn (.xfer out)) ↔
        opcode? (arg (c.accumulated ++ [out]) 0) = some .getIrqStatus := by
      cases first : c.accumulated <;> simp [asks,clocksOn,first,arg]
    rw [pushByte_txn, if_congr asked rfl rfl]
    by_cases code : opcode? (arg (c.accumulated ++ [out]) 0) = some .getIrqStatus
    · have data : returnsData (arg (c.accumulated ++ [out]) 0) = true := by
        simp [returnsData,code]
      simp [data,code,evaluated,counted]
    · simp only [code, ite_false, evaluated]
      split <;> exact pushed.1
  | csRelease =>
    rw [step, endTransaction_eq] at stepped
    simp only [asks, clocksOn, Bool.false_eq_true, or_self, ite_false]
    split at stepped
    · obtain rfl := Option.some.inj stepped; rfl
    · obtain ⟨d,_,rfl⟩ := Option.map_eq_some_iff.mp stepped; rfl
  | csAssert => obtain rfl := Option.some.inj stepped; rfl
  | setFem on => exact link (e := .setFem on) stepped (by simp)
  | frame payload => exact link (e := .frame payload) stepped (by simp)
  | tick nowMs => exact link (e := .tick nowMs) stepped (by simp)
  | txDone => exact link (e := .txDone) stepped (by simp)
  | channelBusy busy => exact link (e := .channelBusy busy) stepped (by simp)
  | drain => exact link (e := .drain) stepped (by simp)

/-- The counters of a chip give what the firmware asked in the course of a run. -/
def Truthful (stuckIrqMs : UInt32) (ops : List ChipOp) (c : Chip) : Prop :=
  c.irqReads = UInt32.ofNat (tally step asks (new stuckIrqMs) ops) ∧
    c.busyReads = UInt32.ofNat (tally step asksBusy (new stuckIrqMs) ops)

theorem asks_of_clocksOn {c : Chip} (further : c.clocksOn op = true) : c.asks op = false := by
  cases op with
  | xfer out =>
    have opened : c.accumulated ≠ [] := (of_decide_eq_true further).1
    simp [asks,opened]
  | _ => cases further

/-- A step keeps the counters truthful exactly when it clocks no further byte. -/
theorem truthful_concat {stuckIrqMs : UInt32} {c next : Chip}
    (ran : run step (new stuckIrqMs) ops = some c) (stepped : c.step op = some next)
    (truthful : Truthful stuckIrqMs ops c) :
    Truthful stuckIrqMs (ops ++ [op]) next ↔ c.clocksOn op = false := by
  obtain ⟨irqReads,busyReads⟩ := truthful
  have counted := step_reads stepped
  rw [Truthful, tally_concat ran stepped, tally_concat ran stepped, asksBusy]
  cases further : c.clocksOn op with
  | true =>
    rw [if_pos (.inr further)] at counted
    have unasked := asks_of_clocksOn further
    have moved : next.irqReads = c.irqReads + 1 := (Prod.mk.inj counted).1
    simp [unasked,moved,← irqReads]
  | false =>
    cases asked : c.asks op with
    | false =>
      rw [if_neg (by simp [asked,further])] at counted
      obtain ⟨irq,busy⟩ := Prod.mk.inj counted
      simp [irq,busy,irqReads,busyReads]
    | true =>
      rw [if_pos (.inl asked), reads_countIrqRead] at counted
      obtain ⟨irq,busy⟩ := Prod.mk.inj counted
      cases flags : c.busyFlags <;>
        simp [irq,busy,flags,irqReads,busyReads,UInt32.ofNat_add]

/-- The counters are truthful throughout a run exactly when no `GetIrqStatus` in it is
clocked past its opcode. -/
theorem reads_truthful_iff (stuckIrqMs : UInt32) (ops : List ChipOp) :
    (∀ pre c, pre <+: ops → run step (new stuckIrqMs) pre = some c →
      c.irqReads = UInt32.ofNat (tally step asks (new stuckIrqMs) pre) ∧
      c.busyReads = UInt32.ofNat (tally step asksBusy (new stuckIrqMs) pre)) ↔
    Each step (fun c op => c.clocksOn op = false) (new stuckIrqMs) ops := by
  constructor
  · intro truthful
    refine each_iff_prefix.mpr fun pre op c grown ran => ?_
    cases further : c.clocksOn op with
    | false => rfl
    | true =>
      -- Only a streamed byte clocks on, and that never faults.
      obtain ⟨next,stepped⟩ : ∃ next, c.step op = some next := by
        cases op with
        | xfer out =>
          obtain ⟨d,byte,_⟩ := transferByte_spec c out
          exact ⟨d,by rw [step, byte]; rfl⟩
        | _ => cases further
      have before := truthful pre c ((List.prefix_append _ _).trans grown) ran
      have after := truthful (pre ++ [op]) next grown
        (run_concat_eq_some.mpr ⟨c,ran,stepped⟩)
      exact further ▸ (truthful_concat ran stepped before).mp after
  · rintro plain pre c ⟨post,rfl⟩ ran
    have kept := (each_append.mp plain).1
    refine run_induction (motive := fun pre c => Each step (fun c op => c.clocksOn op = false)
      (new stuckIrqMs) pre → Truthful stuckIrqMs pre c) ?_ ?_ pre ran kept
    · exact fun _ => ⟨rfl,rfl⟩
    · intro pre c op next ran stepped earlier plain
      obtain ⟨before,last⟩ := each_append.mp plain
      exact (truthful_concat ran stepped (earlier before)).mpr (last c ran).1

/-- One read of four bytes, asked once on either path: the buffered path counts it once
and the streaming path four times. -/
theorem streamed_read_counts_bytes :
    (∃ c, run step (new 0) [.spiTransfer [0x12,0,0,0]] = some c ∧ c.irqReads = 1) ∧
    ∃ c, run step (new 0) [.csAssert,.xfer 0x12,.xfer 0,.xfer 0,.xfer 0,.csRelease] = some c ∧
      tally step asks (new 0) [.csAssert,.xfer 0x12,.xfer 0,.xfer 0,.xfer 0,.csRelease] = 1 ∧
      c.irqReads = 4 := by
  have buffered : (run step (new 0) [.spiTransfer [0x12,0,0,0]]).map irqReads = some 1 := by
    decide +kernel
  have streamed : (run step (new 0) [.csAssert,.xfer 0x12,.xfer 0,.xfer 0,.xfer 0,.csRelease]).map
      irqReads = some 4 := by
    decide +kernel
  obtain ⟨c,ran,reads⟩ := Option.map_eq_some_iff.mp buffered
  obtain ⟨d,ran',reads'⟩ := Option.map_eq_some_iff.mp streamed
  exact ⟨⟨c,ran,reads⟩,d,ran',by decide +kernel,reads'⟩

end Chip
end Meshcore
