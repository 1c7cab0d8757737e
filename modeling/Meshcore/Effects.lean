import Meshcore.Operations

/-! Each group of the chip's fields as a function of the event: one equation a
group, which every invariant of the chip is derived from. -/
namespace Meshcore

open Checked Flags

/-- The complete command an event executes under the given opcode. -/
def Event.executes (e : Event) (o : Opcode) (len : Nat) : Option (List UInt8) :=
  match e with
  | .command cmd => if opcode? (arg cmd 0) = some o ∧ len ≤ cmd.length then some cmd else none
  | _ => none

/-- The flags an event clears. -/
def Event.cleared (e : Event) : BitVec 16 :=
  match e.executes .clearIrqStatus 3 with
  | some cmd => be16 (arg cmd 1) (arg cmd 2)
  | none => 0

namespace Chip

def deliveredFlags : BitVec 16 :=
  kIrqRxDone ||| (kIrqPreambleDetected ||| kIrqHeaderValid ||| kIrqSyncWordValid)

/-- The injected fault is due at this tick. -/
def FaultDue (c : Chip) (nowMs : UInt64) : Prop :=
  c.stuckIrqMs > 0 ∧ nowMs ≥ c.nextSpuriousMs

/-- What the detector looks at besides the flags. -/
structure Air where
  channelBusy : Bool
  busySinceMs : UInt64
  nowMs : UInt64
  preambleRaised : Bool
  headerRaised : Bool
  symbolMs : ℚ

def air (c : Chip) : Air :=
  ⟨c.channelBusy,c.busySinceMs,c.nowMs,c.preambleRaised,c.headerRaised,c.symbolMs⟩

/-- The signal on the air has lasted for `symbols`. -/
def Air.Heard (a : Air) (symbols : ℚ) : Prop :=
  a.channelBusy = true ∧ ((a.nowMs - a.busySinceMs).toNat : ℚ) ≥ symbols * a.symbolMs

instance (c : Chip) (nowMs : UInt64) : Decidable (c.FaultDue nowMs) :=
  inferInstanceAs (Decidable (_ ∧ _))

instance (a : Air) (symbols : ℚ) : Decidable (a.Heard symbols) :=
  inferInstanceAs (Decidable (_ ∧ _))

def Air.preamble (a : Air) : BitVec 16 :=
  if a.preambleRaised = false ∧ a.Heard kPreambleSymbols then kIrqPreambleDetected else 0

def Air.header (a : Air) : BitVec 16 :=
  if a.headerRaised = false ∧ a.Heard kHeaderSymbols then kIrqHeaderValid ||| kIrqSyncWordValid
  else 0

/-- The flags an event raises. -/
def raised (c : Chip) : Event → BitVec 16
  | .command cmd =>
    if opcode? (arg cmd 0) = some .setCad then
      if c.channelBusy then kIrqCadDone ||| kIrqCadDetected else kIrqCadDone
    else 0
  | .tick nowMs =>
    if c.mode = .rx then
      (if c.FaultDue nowMs then kIrqPreambleDetected else 0) |||
      (if c.inbox = [] then 0 else deliveredFlags) |||
      (Air.preamble { c.air with nowMs } ||| Air.header { c.air with nowMs })
    else 0
  | .txDone => if c.mode = .tx then kIrqTxDone else 0
  | .setFem _ | .frame _ | .channelBusy _ | .drain => 0

/-- The mode an event leaves the chip in. -/
def modeAfter (c : Chip) : Event → Mode
  | .command cmd =>
    match opcode? (arg cmd 0) with
    | some .setStandby | some .setSleep | some .setCad => .standby
    | some .setRx => .rx
    | some .setTx => .tx
    | _ => c.mode
  | .txDone => if c.mode = .tx then .standby else c.mode
  | _ => c.mode

/-- What a command cannot move: the rest of the chip is reset. -/
def surroundings (c : Chip) : Chip :=
  { inbox := c.inbox, rxLen := c.rxLen, femEnabled := c.femEnabled, channelBusy := c.channelBusy
    busySinceMs := c.busySinceMs, rssi := c.rssi, snr := c.snr, nowMs := c.nowMs
    busyMs := c.busyMs, preambleRaises := c.preambleRaises, lastBusyTickMs := c.lastBusyTickMs
    stuckIrqMs := c.stuckIrqMs, nextSpuriousMs := c.nextSpuriousMs
    spuriousRaises := c.spuriousRaises, txn := c.txn, inTxn := c.inTxn }

theorem startTx_eq_some {c d : Chip} : c.startTx = some d ↔
    ∃ payload, c.buffer.slice? c.txBase.toNat c.txLenForSend.toNat = some payload ∧
      d = { c with
        mode := .tx, femAtTx := c.femEnabled, hasTransmitted := true, pendingTx := payload
        hasPendingTx := true } := by
  simp [startTx,Option.bind_eq_some_iff,eq_comm (b := d)]

/-- What a command does to the fields that runs are judged by. -/
structure Acts (c : Chip) (cmd : List UInt8) (d : Chip) : Prop where
  irq : d.irq = latch c.irq (Event.command cmd).cleared (c.raised (.command cmd))
  mode : d.mode = c.modeAfter (.command cmd)
  irqMask : d.irqMask = match (Event.command cmd).executes .setDioIrqParams 9 with
    | some cmd => be16 (arg cmd 1) (arg cmd 2)
    | none => c.irqMask
  buffer : opcode? (arg cmd 0) ≠ some .writeBuffer → d.buffer = c.buffer
  rxBase : opcode? (arg cmd 0) ≠ some .setBufferBase → d.rxBase = c.rxBase
  pendingTx : opcode? (arg cmd 0) ≠ some .setTx → d.pendingTx = c.pendingTx
  hasPendingTx : opcode? (arg cmd 0) ≠ some .setTx → d.hasPendingTx = c.hasPendingTx
  surroundings : d.surroundings = c.surroundings

/-- Every opcode, once. -/
theorem act_acts {c d : Chip} (acted : c.act cmd = some d) : Acts c cmd d := by
  rw [act] at acted
  cases op : opcode? (arg cmd 0) with
  | none =>
    obtain rfl : c = d := by simpa [op] using acted
    constructor <;> simp [Event.cleared,Event.executes,raised,modeAfter,op]
  | some o =>
    cases o
    all_goals simp only [op] at acted
    case setTx =>
      obtain ⟨_,_,rfl⟩ := startTx_eq_some.mp acted
      constructor <;> simp [Event.cleared,Event.executes,raised,modeAfter,op,Chip.surroundings]
    all_goals obtain rfl := Option.some.inj acted
    case setCad =>
      constructor
      case irq =>
        cases busy : c.channelBusy <;>
          simp [startCad,busy,latch_raise,BitVec.or_assoc,Event.cleared,Event.executes,raised,op]
      all_goals simp [startCad,Event.executes,modeAfter,op,Chip.surroundings]
    all_goals constructor
    all_goals try simp only [Event.cleared, Event.executes, raised, modeAfter, op, reduceCtorEq,
      false_and, true_and, ite_false, Option.some.injEq, BitVec.ofNat_eq_ofNat, latch_none, ne_eq,
      not_false_iff, true_imp_iff, not_true, false_imp_iff, Chip.surroundings]
    -- A command that is too short, or that moves none of these, leaves them by definition.
    all_goals try first
      | rfl
      | (split <;> rfl)
    case clearIrqStatus.irq =>
      by_cases complete : 3 ≤ cmd.length
      · simp [complete,latch]
      · simp [complete]

/-- Only `SetTx` can fault, and only it touches the pending transmission. -/
theorem act_setTx (c : Chip) (setTx : opcode? (arg cmd 0) = some .setTx) :
    c.act cmd = c.startTx := by
  simp [act,setTx]

theorem injectFault_air (c : Chip) : c.injectFault.air = c.air := by
  rw [injectFault]
  split <;> rfl

theorem deliverPending_air {c d : Chip} (delivered : c.deliverPending = some d) : d.air = c.air :=
  deliverPending_keeps air (fun _ _ _ => rfl) delivered

theorem injectFault_irq (c : Chip) (hears : c.mode = .rx) :
    c.injectFault.irq = c.irq ||| if c.FaultDue c.nowMs then kIrqPreambleDetected else 0 := by
  by_cases due : c.FaultDue c.nowMs
  · have fires : c.stuckIrqMs > 0 ∧ c.mode = .rx ∧ c.nowMs ≥ c.nextSpuriousMs := ⟨due.1,hears,due.2⟩
    rw [injectFault, if_pos fires, if_pos due]
  · have rests : ¬(c.stuckIrqMs > 0 ∧ c.mode = .rx ∧ c.nowMs ≥ c.nextSpuriousMs) :=
      fun fires => due ⟨fires.1,fires.2.2⟩
    rw [injectFault, if_neg rests, if_neg due]
    simp

theorem deliverPending_irq {c d : Chip} (delivered : c.deliverPending = some d) :
    d.irq = c.irq ||| if c.inbox = [] then 0 else deliveredFlags := by
  cases waiting : c.inbox with
  | nil =>
    rw [deliverPending_nil waiting] at delivered
    rw [← Option.some.inj delivered]
    simp
  | cons f rest =>
    rw [deliverPending_cons waiting] at delivered
    obtain ⟨_,_,rfl⟩ := Option.map_eq_some_iff.mp delivered
    simp [received,deliveredFlags,BitVec.or_assoc]

/-- What the detector leaves on a chip: the flags it raises, and its own latches. -/
structure Marks where
  flags : BitVec 16
  preambleRaised : Bool
  headerRaised : Bool
  preambleRaises : UInt32

def mark (c : Chip) (m : Marks) : Chip :=
  { c with
    irq := c.irq ||| m.flags, preambleRaised := m.preambleRaised, headerRaised := m.headerRaised
    preambleRaises := m.preambleRaises }

/-- The detector has something new to say. -/
def HearsPreamble (c : Chip) : Prop := c.preambleRaised = false ∧ c.air.Heard kPreambleSymbols

def HearsHeader (c : Chip) : Prop := c.headerRaised = false ∧ c.air.Heard kHeaderSymbols

instance (c : Chip) : Decidable c.HearsPreamble := inferInstanceAs (Decidable (_ ∧ _))

instance (c : Chip) : Decidable c.HearsHeader := inferInstanceAs (Decidable (_ ∧ _))

/-- What the detector would leave now. -/
def marks (c : Chip) : Marks where
  flags := (if c.HearsPreamble then kIrqPreambleDetected else 0) |||
    if c.HearsHeader then kIrqHeaderValid ||| kIrqSyncWordValid else 0
  preambleRaised := if c.HearsPreamble then true else c.preambleRaised
  headerRaised := if c.HearsHeader then true else c.headerRaised
  preambleRaises := if c.HearsPreamble then c.preambleRaises + 1 else c.preambleRaises

theorem detect_eq (c : Chip) : c.detect = c.mark c.marks := by
  by_cases busy : c.channelBusy = true
  · have heard (symbols : ℚ) : c.air.Heard symbols ↔ c.sinceMs ≥ symbols * c.symbolMs := by
      simp [Air.Heard,air,busy,sinceMs]
    have preamble : c.HearsPreamble ↔
        ¬c.preambleRaised ∧ c.sinceMs ≥ kPreambleSymbols * c.symbolMs := by
      rw [HearsPreamble, heard, Bool.not_eq_true]
    have header : c.HearsHeader ↔
        ¬c.headerRaised ∧ c.sinceMs ≥ kHeaderSymbols * c.symbolMs := by
      rw [HearsHeader, heard, Bool.not_eq_true]
    rw [detect, if_pos busy, marks, mark]
    by_cases long : ¬c.preambleRaised ∧ c.sinceMs ≥ kPreambleSymbols * c.symbolMs <;>
      by_cases lasting : ¬c.headerRaised ∧ c.sinceMs ≥ kHeaderSymbols * c.symbolMs
    · rw [detectPreamble, if_pos long]
      refine (if_pos lasting).trans ?_
      simp only [if_pos (preamble.mpr long), if_pos (header.mpr lasting), BitVec.or_assoc]
    · rw [detectPreamble, if_pos long]
      refine (if_neg lasting).trans ?_
      simp only [if_pos (preamble.mpr long), if_neg (mt header.mp lasting), BitVec.ofNat_eq_ofNat,
        BitVec.or_zero]
    · rw [detectPreamble, if_neg long]
      refine (if_pos lasting).trans ?_
      simp only [if_neg (mt preamble.mp long), if_pos (header.mpr lasting), BitVec.ofNat_eq_ofNat,
        BitVec.zero_or]
    · rw [detectPreamble, if_neg long]
      refine (if_neg lasting).trans ?_
      simp only [if_neg (mt preamble.mp long), if_neg (mt header.mp lasting), BitVec.ofNat_eq_ofNat,
        BitVec.or_zero]
  · have preamble : ¬c.HearsPreamble := fun heard => busy heard.2.1
    have header : ¬c.HearsHeader := fun heard => busy heard.2.1
    simp only [detect, if_neg busy, marks, if_neg preamble, if_neg header, mark]
    simp

theorem detect_irq (c : Chip) : c.detect.irq = c.irq ||| (c.air.preamble ||| c.air.header) := by
  rw [detect_eq]
  rfl

theorem tick_irq {c d : Chip} {nowMs : UInt64} (ticked : c.tick nowMs = some d) :
    d.irq = c.irq ||| c.raised (.tick nowMs) := by
  rw [tick_eq] at ticked
  by_cases hears : c.mode = .rx
  · rw [if_pos hears] at ticked
    obtain ⟨m,delivered,rfl⟩ := Option.map_eq_some_iff.mp ticked
    have air : m.air = { c.air with nowMs } :=
      (deliverPending_air delivered).trans (injectFault_air (c.accrueBusy nowMs))
    have queued : (c.accrueBusy nowMs).injectFault.inbox = c.inbox := by
      rw [injectFault]
      split <;> rfl
    rw [detect_irq, deliverPending_irq delivered, injectFault_irq (c.accrueBusy nowMs) hears, air, queued]
    simp only [raised, hears, ite_true, BitVec.or_assoc]
    rfl
  · rw [if_neg hears] at ticked
    obtain rfl := Option.some.inj ticked
    simp [raised,hears,accrueBusy]

/-- The interrupt flags are sticky: an event clears what a complete clear names and
raises what `raised` says. -/
theorem apply_irq {c d : Chip} (applied : c.apply e = some d) :
    d.irq = latch c.irq e.cleared (c.raised e) := by
  cases e with
  | command cmd => exact (act_acts applied).irq
  | tick nowMs =>
    rw [tick_irq applied, show (Event.tick nowMs).cleared = 0 from rfl]
    exact (latch_raise _ _).symm
  | txDone =>
    obtain rfl := Option.some.inj applied
    simp only [transmitFinished, raised, show Event.txDone.cleared = 0#16 from rfl, latch_raise]
    split <;> simp
  | _ =>
    obtain rfl := Option.some.inj applied
    exact (latch_none _).symm

/-- Which flags a command can raise. -/
theorem any_raised_command {c : Chip} {mask : BitVec 16}
    (raises : any (c.raised (.command cmd)) mask = true) :
    opcode? (arg cmd 0) = some .setCad ∧ any (kIrqCadDone ||| kIrqCadDetected) mask = true := by
  simp only [raised, any_ite, any_or] at raises ⊢
  split at raises
  next setCad =>
    refine ⟨setCad,?_⟩
    split at raises
    · exact raises
    · simp [raises]
  · simp at raises

/-- Which flags a tick raises, and why. -/
theorem any_raised_tick (c : Chip) (nowMs : UInt64) (mask : BitVec 16) :
    any (c.raised (.tick nowMs)) mask = true ↔ c.mode = .rx ∧
      ((c.FaultDue nowMs ∧ any kIrqPreambleDetected mask = true) ∨
       (c.inbox ≠ [] ∧ any deliveredFlags mask = true) ∨
       (c.preambleRaised = false ∧ Air.Heard { c.air with nowMs } kPreambleSymbols ∧
          any kIrqPreambleDetected mask = true) ∨
       (c.headerRaised = false ∧ Air.Heard { c.air with nowMs } kHeaderSymbols ∧
          any (kIrqHeaderValid ||| kIrqSyncWordValid) mask = true)) := by
  have preamble : c.air.preambleRaised = c.preambleRaised := rfl
  have header : c.air.headerRaised = c.headerRaised := rfl
  by_cases hears : c.mode = .rx
  · simp only [raised, hears, ite_true, any_or, any_ite, Air.preamble, Air.header, preamble, header,
      Bool.or_eq_true, true_and, or_assoc]
    simp only [ite_eq_iff, Bool.false_eq_true, and_false, or_false, false_or, ne_eq, and_assoc,
      BitVec.ofNat_eq_ofNat, any_zero_left, Bool.or_eq_true]
  · simp [raised,hears]

theorem any_raised_txDone (c : Chip) (mask : BitVec 16) :
    any (c.raised .txDone) mask = true ↔ c.mode = .tx ∧ any kIrqTxDone mask = true := by
  by_cases sends : c.mode = .tx <;> simp [raised,sends]

/-- What the fault and the detector cannot move: the rest of the chip is reset. -/
def quiet (c : Chip) : Chip :=
  { c with
    irq := 0, preambleRaised := false, headerRaised := false, busyMs := 0, lastBusyTickMs := 0
    preambleRaises := 0, nextSpuriousMs := 0, spuriousRaises := 0 }

theorem injectFault_quiet (c : Chip) : c.injectFault.quiet = c.quiet := by
  rw [injectFault]
  split <;> rfl

theorem detect_quiet (c : Chip) : c.detect.quiet = c.quiet := by
  rw [detect_eq]
  rfl

theorem deliverPending_quiet (c : Chip) :
    c.deliverPending.map quiet = c.quiet.deliverPending.map quiet := by
  cases waiting : c.inbox with
  | nil => rw [deliverPending_nil waiting, deliverPending_nil (c := c.quiet) waiting]; rfl
  | cons f rest =>
    rw [deliverPending_cons waiting, deliverPending_cons (c := c.quiet) waiting, Option.map_map,
      Option.map_map]
    rfl

/-- Detection apart, a tick moves the clock and, in receive mode, delivers. -/
theorem tick_quiet (c : Chip) (nowMs : UInt64) : (c.tick nowMs).map quiet =
    (if c.mode = .rx then deliverPending { c with nowMs } else some { c with nowMs }).map quiet := by
  rw [tick_eq]
  split
  · have detected : quiet ∘ detect = quiet := funext detect_quiet
    rw [Option.map_map, detected, deliverPending_quiet, injectFault_quiet,
      deliverPending_quiet { c with nowMs }]
    rfl
  · rfl

/-- The fields that neither a delivery nor a detection moves. -/
structure Settings where
  mode : Mode
  irqMask : BitVec 16
  rxBase : UInt8
  hasPendingTx : Bool
  pendingTx : List UInt8
  channelBusy : Bool
  busySinceMs : UInt64
  nowMs : UInt64
  symbolMs : ℚ
  stuckIrqMs : UInt32

def settings (c : Chip) : Settings :=
  { mode := c.mode, irqMask := c.irqMask, rxBase := c.rxBase, hasPendingTx := c.hasPendingTx
    pendingTx := c.pendingTx, channelBusy := c.channelBusy, busySinceMs := c.busySinceMs
    nowMs := c.nowMs, symbolMs := c.symbolMs, stuckIrqMs := c.stuckIrqMs }

theorem settings_congr {c d : Chip} (same : c.quiet = d.quiet) : c.settings = d.settings := by
  have := congrArg settings same
  exact this

theorem core_settings {c d : Chip} (same : c.core = d.core) : c.settings = d.settings := by
  have := congrArg settings same
  exact this

theorem core_irq {c d : Chip} (same : c.core = d.core) : c.irq = d.irq := by
  have := congrArg Chip.irq same
  exact this

theorem deliverPending_settings {c d : Chip} (delivered : c.deliverPending = some d) :
    d.settings = c.settings :=
  deliverPending_keeps settings (fun _ _ _ => rfl) delivered

/-- The delivery inside a tick, and the tick up to detection. -/
theorem tick_delivery {c d : Chip} {nowMs : UInt64} (ticked : c.tick nowMs = some d) :
    ∃ m : Chip, d.quiet = m.quiet ∧
      (if c.mode = .rx then deliverPending { c with nowMs } else some { c with nowMs }) = some m := by
  have same := tick_quiet c nowMs
  rw [ticked, Option.map_some, eq_comm, Option.map_eq_some_iff] at same
  obtain ⟨m,delivered,quiet⟩ := same
  exact ⟨m,quiet.symm,delivered⟩

/-- What neither the clock, a delivery nor a detection moves, a tick does not. -/
theorem tick_keeps {α : Type} {c d : Chip} {nowMs : UInt64} (f : Chip → α)
    (clock : ∀ (c : Chip) nowMs, f { c with nowMs } = f c) (quiet : ∀ c : Chip, f c.quiet = f c)
    (received : ∀ (c : Chip) frame rest buffer, f (c.received frame rest buffer) = f c)
    (ticked : c.tick nowMs = some d) : f d = f c := by
  obtain ⟨m,same,delivered⟩ := tick_delivery ticked
  have kept : f m = f c := by
    split at delivered
    · exact (deliverPending_keeps f (received _) delivered).trans (clock c nowMs)
    · exact Option.some.inj delivered ▸ clock c nowMs
  rw [← quiet d, same, quiet m, kept]

theorem tick_settings {c d : Chip} {nowMs : UInt64} (ticked : c.tick nowMs = some d) :
    d.settings = { c.settings with nowMs } := by
  obtain ⟨m,quiet,delivered⟩ := tick_delivery ticked
  rw [settings_congr quiet]
  split at delivered
  · exact deliverPending_settings delivered
  · exact Option.some.inj delivered ▸ rfl

theorem apply_mode {c d : Chip} (applied : c.apply e = some d) : d.mode = c.modeAfter e := by
  cases e with
  | command cmd => exact (act_acts applied).mode
  | tick nowMs => exact congrArg Settings.mode (tick_settings applied)
  | txDone =>
    obtain rfl := Option.some.inj applied
    simp only [transmitFinished, modeAfter]
    split <;> simp_all
  | _ => exact Option.some.inj applied ▸ rfl

theorem apply_irqMask {c d : Chip} (applied : c.apply e = some d) :
    d.irqMask = match e.executes .setDioIrqParams 9 with
      | some cmd => be16 (arg cmd 1) (arg cmd 2)
      | none => c.irqMask := by
  cases e with
  | command cmd => exact (act_acts applied).irqMask
  | tick nowMs => exact congrArg Settings.irqMask (tick_settings applied)
  | txDone =>
    obtain rfl := Option.some.inj applied
    exact transmitFinished_keeps irqMask (fun _ _ _ => rfl) c
  | _ => exact Option.some.inj applied ▸ rfl

/-- A step, as its event. -/
theorem step_event {c next : Chip} (stepped : c.step op = some next) :
    (c.event op = none ∧ next.core = c.core) ∨
      ∃ e d, c.event op = some e ∧ c.apply e = some d ∧ next.core = d.core := by
  obtain ⟨d,effect,core⟩ := step_effect stepped
  rw [Chip.effect] at effect
  split at effect
  next none => exact .inl ⟨none,Option.some.inj effect ▸ core⟩
  next e event => exact .inr ⟨e,d,event,effect,core⟩

end Chip
end Meshcore
