import Meshcore.Scanning
import Meshcore.OnAir

/-! A node at work through its driver: it listens, hears frames, transmits and scans the
channel in any order, while ticks pass and the channel rounds busy and quiet. -/
namespace Meshcore

open Checked Flags Programs Program Runs

variable {κ : Type} {stuckIrqMs : UInt32}

/-- A frame comes with the tick that delivers it, and a transmission lasts some ticks. -/
inductive Round where
  | pass (networkMs : UInt32)
  | busy (on : Bool)
  | hear (frame : List UInt8) (networkMs : UInt32)
  | say (data : List UInt8) (waits : List UInt32)
  | scan

/-- What the driver hands to the firmware. -/
inductive Outcome where
  | received (state : Int16) (data : List UInt8)
  | transmitted (state : Int16)
  | channel (state : Int16)
  deriving DecidableEq, Repr

namespace SimHal

def onRadio (h : SimHal κ stuckIrqMs) (radio : Radio stuckIrqMs) : SimHal κ stuckIrqMs :=
  { h with radio }

/-- The receiver goes on again after anything else. -/
def resume (s : SX126x) (h : SimHal κ stuckIrqMs) (outcome : Outcome) :
    Option (SimHal κ stuckIrqMs × SX126x × List Outcome) := do
  let (h,(_,s)) ← s.startReceive.run answer h
  some (h,s,[outcome])

/-- The firmware reads a frame, and ends a transmission, when the line tells it to. -/
def round (s : SX126x) (h : SimHal κ stuckIrqMs) :
    Round → Option (SimHal κ stuckIrqMs × SX126x × List Outcome)
  | .pass networkMs => do some (← h.beginTick networkMs,s,[])
  | .busy on => do some (h.onRadio (← h.radio.setChannelBusy on),s,[])
  | .hear frame networkMs => do
    let h ← (h.onRadio (← h.radio.pushFrame frame)).beginTick networkMs
    if h.digitalRead kPinDio1 = GpioLevelLow then some (h,s,[])
    else
      let (h,(state,data)) ← (s.readData 0).run answer h
      some (h,s,[.received state data])
  | .say data waits => do
    let (h,(state,s)) ← (s.startTransmit data).run answer h
    if state ≠ RADIOLIB_ERR_NONE then some (h,s,[.transmitted state])
    else
      let h ← waits.foldlM beginTick (h.onRadio h.radio.drainTx)
      let h := h.onRadio (← h.radio.transmitFinished)
      if h.digitalRead kPinDio1 = GpioLevelLow then some (h,s,[])
      else
        let (h,state) ← s.finishTransmit.run answer h
        resume s h (.transmitted state)
  | .scan => do
    let (h,state) ← (s.scanChannel 1).run answer h
    resume s h (.channel state)

def converse (s : SX126x) (h : SimHal κ stuckIrqMs) :
    List Round → Option (SimHal κ stuckIrqMs × SX126x × List Outcome)
  | [] => some (h,s,[])
  | t :: rounds => do
    let (h,s,now) ← h.round s t
    let (h,s,later) ← converse s h rounds
    some (h,s,now ++ later)

end SimHal

/-! The same rounds as the air knows them: a channel that is busy or not. -/

namespace Round

def channel (busy : Bool) : Round → Bool
  | .busy on => on
  | _ => busy

def outcomes (busy : Bool) : Round → List Outcome
  | .pass _ | .busy _ => []
  | .hear frame _ => [.received RADIOLIB_ERR_NONE frame]
  | .say data _ =>
    [.transmitted (if data.length ≤ 255 then RADIOLIB_ERR_NONE else RADIOLIB_ERR_PACKET_TOO_LONG)]
  | .scan => [.channel (if busy then RADIOLIB_LORA_DETECTED else RADIOLIB_ERR_UNKNOWN)]

/-- The driver's buffers hold what it hears and says, or it refuses to say that. -/
def Fits : Round → Prop
  | .hear frame _ => frame.length ≤ 253
  | .say data _ => data.length ≠ 255
  | .pass _ | .busy _ | .scan => True

instance : DecidablePred Fits
  | .hear _ _ => inferInstanceAs (Decidable (_ ≤ _))
  | .say _ _ => inferInstanceAs (Decidable (_ ≠ _))
  | .pass _ | .busy _ | .scan => isTrue trivial

/-- The payload it puts on the air. -/
def onAir : Round → Option (List UInt8)
  | .say data _ => if data.length ≤ 255 then some data else none
  | _ => none

def allOutcomes (busy : Bool) : List Round → List Outcome
  | [] => []
  | t :: rounds => t.outcomes busy ++ allOutcomes (t.channel busy) rounds

end Round

/-- The receiver is on with nothing to hand over, and nothing is left to send. -/
structure Chip.Awaits (c : Chip) : Prop where
  mode : c.mode = .rx
  base : c.rxBase = 0
  inbox : c.inbox = []
  irqMask : c.irqMask = rxIrqMask
  drained : c.hasPendingTx = false

theorem Chip.Awaits.of_still {c d : Chip} (same : c.still = d.still) (awaits : d.Awaits) :
    c.Awaits where
  mode := (timeless_eq same Chip.mode fun _ => rfl).trans awaits.mode
  base := (timeless_eq same Chip.rxBase fun _ => rfl).trans awaits.base
  inbox := (timeless_eq same Chip.inbox fun _ => rfl).trans awaits.inbox
  irqMask := (timeless_eq same Chip.irqMask fun _ => rfl).trans awaits.irqMask
  drained := (timeless_eq same Chip.hasPendingTx fun _ => rfl).trans awaits.drained

theorem Chip.Awaits.settled {c : Chip} (awaits : c.Awaits) : c.Settled := fun _ => awaits.inbox

theorem Chip.channelBusy_of_still {c d : Chip} (same : c.still = d.still) :
    c.channelBusy = d.channelBusy :=
  timeless_eq same Chip.channelBusy fun _ => rfl

namespace Radio

/-- An access that is no drain leaves what was sent, and makes its step. -/
theorem performs (r : Radio stuckIrqMs) (op : ChipOp) (other : op ≠ .drain) {c : Chip}
    (stepped : r.chip.state.step op = some c) : ∃ r', r.perform op other = some r' ∧
      r'.chip.state = c ∧ r'.toEngine = r.toEngine := by
  obtain ⟨r',performed⟩ := r.perform_of_step other stepped
  obtain ⟨taken,same⟩ := perform_eq_some performed
  exact ⟨r',performed,Option.some.inj (taken.symm.trans stepped),same⟩

end Radio

theorem Chip.transmitFinished_still (c : Chip) :
    c.transmitFinished.still = c.still.transmitFinished.still := by
  have mode : c.still.mode = c.mode := rfl
  have flags (raised : BitVec 16) : (c.irq &&& ~~~kIrqHeard ||| raised) &&& ~~~kIrqHeard =
      (c.irq ||| raised) &&& ~~~kIrqHeard := by
    rw [BitVec.and_or_distrib_right, BitVec.and_assoc, BitVec.and_self, BitVec.and_or_distrib_right]
  rw [transmitFinished, transmitFinished, mode]
  split
  · simp only [still, flags]
  · simp only [still, BitVec.and_assoc, BitVec.and_self]

namespace SimHal

variable {h : SimHal κ stuckIrqMs}

theorem beginTick_arrives {c d : Chip} (same : h.chip.still = c.still) (arrived : c.arrive = some d)
    (networkMs : UInt32) : ∃ h', h.beginTick networkMs = some h' ∧ h'.chip.still = d.still ∧
      h'.radio.toEngine = h.radio.toEngine := by
  generalize at' : (if networkMs.toUInt64 * 1000 > h.localUs then networkMs.toUInt64 * 1000
    else h.localUs) = localUs
  obtain ⟨e,ticked,still⟩ := Chip.tick_of_still same arrived (localUs / 1000)
  obtain ⟨radio,performed,state,sent⟩ := h.radio.performs (.tick (localUs / 1000)) (by simp) ticked
  refine ⟨{ h with localUs, radio },?_,?_,sent⟩
  · simp only [beginTick, at', Radio.tick, performed, Option.bind_eq_bind, Option.bind_some]
  · change radio.chip.state.still = _
    rw [state, still]

/-- Ticks that deliver nothing are not noticed. -/
theorem beginTick_settled {c : Chip} (same : h.chip.still = c.still) (settled : c.Settled)
    (waits : List UInt32) : ∃ h', waits.foldlM beginTick h = some h' ∧ h'.chip.still = c.still ∧
      h'.radio.toEngine = h.radio.toEngine := by
  induction waits generalizing h with
  | nil => exact ⟨h,rfl,same,rfl⟩
  | cons networkMs waits ih =>
    obtain ⟨h₁,ticked,still,sent⟩ := beginTick_arrives same (Chip.arrive_settled settled) networkMs
    obtain ⟨h',rest,still',sent'⟩ := ih still
    refine ⟨h',?_,still',sent'.trans sent⟩
    rw [List.foldlM_cons, ticked]
    exact rest

/-- A flag that stays up keeps the line up. -/
theorem dio1_up {d : Chip} {flag : BitVec 16} (same : h.chip.still = d.still)
    (raised : any d.irq flag = true) (routed : flag &&& d.irqMask = flag)
    (apart : any kIrqHeard flag = false) : h.digitalRead kPinDio1 ≠ GpioLevelLow := by
  have flags : h.chip.irq &&& ~~~kIrqHeard = d.irq &&& ~~~kIrqHeard := congrArg Chip.irq same
  have mask : h.chip.irqMask = d.irqMask := Chip.timeless_eq same Chip.irqMask fun _ => rfl
  have up : any h.chip.irq flag = true := by
    rw [← any_clear_of_apart apart, flags, any_clear_of_apart apart]
    exact raised
  have asserted : h.chip.irqAsserted = true := any_of_narrower (mask ▸ routed) up
  rw [(digitalRead_dio1 h).mpr asserted]
  decide

/-- What a round leaves: the node listens, and just its payload was sent. -/
structure Took (h h' : SimHal κ stuckIrqMs) (t : Round) : Prop where
  awaits : h'.chip.Awaits
  channel : h'.chip.channelBusy = t.channel h.chip.channelBusy
  sent : h'.radio.toEngine.map Outgoing.msg =
    h.radio.toEngine.map Outgoing.msg ++ t.onAir.toList.map (Msg.mk kFrame)

theorem Took.quiet {h h' : SimHal κ stuckIrqMs} {c : Chip} {t : Round}
    (same : h'.chip.still = c.still) (awaits : c.Awaits)
    (channel : c.channelBusy = t.channel h.chip.channelBusy)
    (sent : h'.radio.toEngine = h.radio.toEngine) (silent : t.onAir = none) : Took h h' t where
  awaits := awaits.of_still same
  channel := (Chip.channelBusy_of_still same).trans channel
  sent := by rw [sent, silent]; simp

variable (s : SX126x) (awaits : h.chip.Awaits)
include awaits

theorem pass_takes (networkMs : UInt32) : ∃ h', h.round s (.pass networkMs) = some (h',s,[]) ∧
    Took h h' (.pass networkMs) := by
  obtain ⟨h',ticked,still,sent⟩ :=
    beginTick_arrives rfl (Chip.arrive_settled awaits.settled) networkMs
  exact ⟨h',by simp [round,ticked],.quiet still awaits rfl sent rfl⟩

theorem busy_takes (on : Bool) : ∃ h', h.round s (.busy on) = some (h',s,[]) ∧
    Took h h' (.busy on) := by
  obtain ⟨radio,told,state,sent⟩ := h.radio.performs (.channelBusy on) (by simp) rfl
  refine ⟨h.onRadio radio,?_,.quiet (c := h.chip.setChannelBusy on) ?_ { awaits with } rfl sent rfl⟩
  · simp [round,Radio.setChannelBusy,told]
  · exact congrArg Chip.still state

/-- A frame that arrives raises the line. -/
theorem frame_arrives (frame : List UInt8) : ∃ d, (h.chip.pushFrame frame).arrive = some d ∧
    d.Hears frame [] ∧ d.irqMask = rxIrqMask ∧ d.hasPendingTx = false ∧
    d.channelBusy = h.chip.channelBusy ∧ any d.irq kIrqRxDone = true := by
  have queued : (h.chip.pushFrame frame).inbox = [frame] := by simp [Chip.pushFrame,awaits.inbox]
  have room : (h.chip.pushFrame frame).rxBase.toNat + min frame.length 255 ≤ 256 := by
    change h.chip.rxBase.toNat + _ ≤ 256
    rw [awaits.base]
    change 0 + _ ≤ 256
    omega
  have listens : (h.chip.pushFrame frame).mode = .rx := awaits.mode
  have base : (h.chip.pushFrame frame).rxBase = 0 := awaits.base
  have raised : any kIrqRxDone kIrqRxDone = true := by decide
  rw [Chip.arrive, if_pos listens, Chip.deliverPending_cons queued,
    memcpy?_of_le _ _ room (by omega), base]
  exact ⟨_,rfl,Chip.received_hears base listens frame [],awaits.irqMask,awaits.drained,rfl,
    by simp [Chip.received,raised]⟩

theorem hear_takes (frame : List UInt8) (short : frame.length ≤ 253) (networkMs : UInt32) : ∃ h',
    h.round s (.hear frame networkMs) = some (h',s,[.received RADIOLIB_ERR_NONE frame]) ∧
    Took h h' (.hear frame networkMs) := by
  obtain ⟨d,arrived,hears,mask,drained,channel,raised⟩ := frame_arrives awaits frame
  obtain ⟨radio,pushed,state,sent⟩ := h.radio.performs (.frame frame) (by simp) rfl
  have same : (h.onRadio radio).chip.still = (h.chip.pushFrame frame).still :=
    congrArg Chip.still state
  obtain ⟨h₁,ticked,still,sent₁⟩ := beginTick_arrives same arrived networkMs
  have up : h₁.digitalRead kPinDio1 ≠ GpioLevelLow :=
    dio1_up still raised (by rw [mask]; decide) (by decide)
  obtain ⟨h',read,still',_,sent'⟩ := (s.readData_does (κ := κ) hears short).real still
  refine ⟨h',?_,.quiet still' ⟨hears.mode,hears.base,hears.inbox,mask,drained⟩ channel
    (sent'.trans (sent₁.trans sent)) rfl⟩
  simp [round,Radio.pushFrame,pushed,ticked,up,read]

omit awaits in
theorem resume_awaits {c : Chip} (same : h.chip.still = c.still) (settled : c.Settled)
    (idle : c.inbox = []) (drained : c.hasPendingTx = false) (outcome : Outcome) :
    ∃ h' s', resume s h outcome = some (h',s',[outcome]) ∧ h'.chip.Awaits ∧
      h'.chip.channelBusy = c.channelBusy ∧ h'.radio.toEngine = h.radio.toEngine := by
  obtain ⟨regs,preambleSyms,len,started⟩ := s.startReceive_does (κ := κ) settled idle
  obtain ⟨h',ran,still,_,sent⟩ := started.real same
  have awaits : (SX126x.listening c regs preambleSyms len).Awaits := ⟨rfl,rfl,idle,rfl,drained⟩
  have channel : h'.chip.channelBusy = c.channelBusy := (Chip.channelBusy_of_still still).trans rfl
  refine ⟨h',{ s with rxTimeout := RADIOLIB_SX126X_RX_TIMEOUT_INF, stagedMode := .none },?_,
    awaits.of_still still,channel,sent⟩
  rw [resume, ran]
  rfl

/-- Whatever was raised or not, the channel is told from the flag that says it is busy. -/
theorem scan_takes : ∃ h' s', h.round s .scan = some (h',s',Round.outcomes h.chip.channelBusy .scan) ∧
    Took h h' .scan := by
  obtain ⟨h₁,ran,still,_,sent⟩ := (s.scanChannel_does (κ := κ) awaits.settled 0).real rfl
  have deaf : (SX126x.scanned h.chip).countIrqRead.Settled := Chip.settled_standby rfl
  obtain ⟨h',s',resumed,awaits',channel,sent'⟩ := resume_awaits s still deaf awaits.inbox
    awaits.drained (.channel (if h.chip.channelBusy then RADIOLIB_LORA_DETECTED
      else RADIOLIB_ERR_UNKNOWN))
  refine ⟨h',s',?_,awaits',channel,?_⟩
  · simp only [round, ran, Option.bind_eq_bind, Option.bind_some]
    exact resumed
  · rw [sent', sent]
    simp [Round.onAir]

theorem say_refuses (long : 255 < data.length) (waits : List UInt32) :
    ∃ h', h.round s (.say data waits) = some (h',s,[.transmitted RADIOLIB_ERR_PACKET_TOO_LONG]) ∧
      Took h h' (.say data waits) := by
  obtain ⟨h',ran,still,_,sent⟩ := (s.startTransmit_refuses (κ := κ) h.chip long).real rfl
  have failed : RADIOLIB_ERR_PACKET_TOO_LONG ≠ RADIOLIB_ERR_NONE := by decide
  exact ⟨h',by simp [round,ran,failed],.quiet still awaits rfl sent
    (if_neg (by omega))⟩

omit awaits in
/-- The bridge takes what the transmission latched. -/
theorem drains {c : Chip} (still : h.chip.still = (c.keyed data).still) :
    (h.onRadio h.radio.drainTx).chip.still = (c.keyed data).takePending.still ∧
      h.radio.drainTx.toEngine.map Outgoing.msg =
        h.radio.toEngine.map Outgoing.msg ++ [⟨kFrame,data⟩] := by
  have pending : h.chip.pending = some data :=
    (Chip.timeless_eq still Chip.pending fun _ => rfl).trans rfl
  refine ⟨?_,(h.radio.drainTx_sends pending).1⟩
  change h.radio.drainTx.chip.state.still = _
  rw [h.radio.drainTx_state]
  exact congrArg Chip.takePending still

omit awaits in
/-- The engine's word that it is over raises the line. -/
theorem transmission_ends {c : Chip} (still : h.chip.still = (c.keyed data).takePending.still)
    (mask : c.irqMask = txIrqMask) : ∃ radio, h.radio.transmitFinished = some radio ∧
      (h.onRadio radio).chip.still =
        { c.keyed data with
          hasPendingTx := false, irq := c.irq ||| kIrqTxDone, mode := .standby }.still ∧
      (h.onRadio radio).digitalRead kPinDio1 ≠ GpioLevelLow ∧
      radio.toEngine = h.radio.toEngine := by
  obtain ⟨radio,ended,state,sent⟩ := h.radio.performs .txDone (by simp) rfl
  have after : (h.onRadio radio).chip.still =
      { c.keyed data with
        hasPendingTx := false, irq := c.irq ||| kIrqTxDone, mode := .standby }.still := by
    have same : h.radio.chip.state.still = (c.keyed data).takePending.still := still
    change radio.chip.state.still = _
    rw [state, Chip.transmitFinished_still, same, ← Chip.transmitFinished_still]
    rfl
  have raised : any (c.irq ||| kIrqTxDone) kIrqTxDone = true := by
    have up : any kIrqTxDone kIrqTxDone = true := by decide
    rw [any_or, up, Bool.or_true]
  have routed : kIrqTxDone &&& c.irqMask = kIrqTxDone := by
    rw [mask]
    decide
  exact ⟨radio,ended,after,dio1_up after raised routed (by decide),sent⟩

/-- The payload is taken by the bridge as it was given, and the node listens again. -/
theorem say_sends (short : data.length ≤ 254) (waits : List UInt32) :
    ∃ h' s', h.round s (.say data waits) = some (h',s',[.transmitted RADIOLIB_ERR_NONE]) ∧
      Took h h' (.say data waits) := by
  obtain ⟨regs,preambleSyms,keyed⟩ := s.startTransmit_does (κ := κ) awaits.settled short
  obtain ⟨h₁,ran,still₁,_,sent₁⟩ := keyed.real rfl
  obtain ⟨still₂,sent₂⟩ := drains still₁
  obtain ⟨h₃,waited,still₃,sent₃⟩ := beginTick_settled still₂ (Chip.settled_tx rfl) waits
  obtain ⟨radio,ended,still₄,up,sent₄⟩ := transmission_ends still₃ rfl
  obtain ⟨h₅,ran₅,still₅,_,sent₅⟩ := (SX126x.finishTransmit_does (κ := κ)
    { s with stagedMode := .none } (Chip.settled_standby rfl)).real still₄
  obtain ⟨h',s',resumed,awaits',channel,sent'⟩ := resume_awaits { s with stagedMode := .none } still₅
    (Chip.settled_standby rfl) awaits.inbox rfl (.transmitted RADIOLIB_ERR_NONE)
  refine ⟨h',s',?_,awaits',channel,?_⟩
  · simp only [round, ran, Option.bind_eq_bind, Option.bind_some, ne_eq, not_true_eq_false, ite_false,
      waited, ended, up, ran₅]
    exact resumed
  · have fits : Round.onAir (.say data waits) = some data := if_pos (Nat.le_succ_of_le short)
    have last : h₅.radio.toEngine = radio.toEngine := sent₅
    have first : h₃.radio.toEngine = h₁.radio.drainTx.toEngine := sent₃
    rw [sent', last, sent₄, first, sent₂, sent₁, fits]
    rfl

/-- One round, whatever it is. -/
theorem round_takes (t : Round) (fits : t.Fits) : ∃ h' s',
    h.round s t = some (h',s',t.outcomes h.chip.channelBusy) ∧ Took h h' t := by
  cases t with
  | pass networkMs =>
    obtain ⟨h',ran,took⟩ := pass_takes s awaits networkMs
    exact ⟨h',s,ran,took⟩
  | busy on =>
    obtain ⟨h',ran,took⟩ := busy_takes s awaits on
    exact ⟨h',s,ran,took⟩
  | hear frame networkMs =>
    obtain ⟨h',ran,took⟩ := hear_takes s awaits frame fits networkMs
    exact ⟨h',s,ran,took⟩
  | say data waits =>
    rw [Round.outcomes]
    split
    case isTrue short =>
      have held : data.length ≤ 254 := Nat.le_of_lt_succ (Nat.lt_of_le_of_ne short fits)
      exact say_sends s awaits held waits
    case isFalse long =>
      obtain ⟨h',ran,took⟩ := say_refuses s awaits (Nat.lt_of_not_le long) waits
      exact ⟨h',s,ran,took⟩
  | scan => exact scan_takes s awaits

/-- And any number of them. -/
theorem converse_takes (rounds : List Round) (fits : ∀ t ∈ rounds, t.Fits) : ∃ h' s',
    h.converse s rounds = some (h',s',Round.allOutcomes h.chip.channelBusy rounds) ∧
      h'.chip.Awaits ∧ h'.radio.toEngine.map Outgoing.msg =
        h.radio.toEngine.map Outgoing.msg ++ (rounds.filterMap Round.onAir).map (Msg.mk kFrame) := by
  induction rounds generalizing s h with
  | nil => exact ⟨h,s,rfl,awaits,by simp⟩
  | cons t rounds ih =>
    obtain ⟨first,later⟩ := List.forall_mem_cons.mp fits
    obtain ⟨h₁,s₁,ran,took⟩ := round_takes s awaits t first
    obtain ⟨h',s',rest,awaits',sent⟩ := ih s₁ took.awaits later
    rw [took.channel] at rest
    refine ⟨h',s',?_,awaits',?_⟩
    · simp only [converse, ran, rest, Option.bind_eq_bind, Option.bind_some]
      rfl
    · rw [sent, took.sent, List.append_assoc, ← List.map_append]
      cases silent : t.onAir <;> simp [silent]

end SimHal

/-- From power-up on, every frame is handed over once and in order, every payload is sent once
and in order, and every scan answers by the channel as it then is, whatever the rounds, if
the driver's buffers hold them. -/
theorem conversation (s : SX126x) (rounds : List Round) (fits : ∀ t ∈ rounds, t.Fits) :
    ∃ (h h' : SimHal κ stuckIrqMs) (s' s'' : SX126x),
      s.startReceive.run SimHal.answer { radio := .init stuckIrqMs } =
        some (h,(RADIOLIB_ERR_NONE,s')) ∧
      h.converse s' rounds = some (h',s'',Round.allOutcomes false rounds) ∧
      h'.radio.toEngine.map Outgoing.msg = (rounds.filterMap Round.onAir).map (Msg.mk kFrame) := by
  obtain ⟨regs,preambleSyms,len,started⟩ :=
    s.startReceive_does (κ := κ) (c := .new stuckIrqMs) (Chip.settled_standby rfl) rfl
  obtain ⟨h,ran,still,_,sent⟩ := started.real (h := { radio := .init stuckIrqMs }) rfl
  have listens : (SX126x.listening (.new stuckIrqMs) regs preambleSyms len).Awaits :=
    ⟨rfl,rfl,rfl,rfl,rfl⟩
  obtain ⟨h',s'',conversed,_,sent'⟩ := SimHal.converse_takes
    { s with rxTimeout := RADIOLIB_SX126X_RX_TIMEOUT_INF, stagedMode := .none }
    (listens.of_still still) rounds fits
  have quiet : h.chip.channelBusy = false := (Chip.channelBusy_of_still still).trans rfl
  rw [quiet] at conversed
  rw [sent] at sent'
  exact ⟨h,h',_,s'',ran,conversed,sent'⟩

/-- A frame, a payload and a scan of a busy channel. -/
theorem conversation_mixed : ∃ (h h' : SimHal Unit 0) (s' s'' : SX126x),
    h.converse s' [.hear [0x41] 1,.say [0x42] [2,3],.busy true,.scan] =
      some (h',s'',[.received RADIOLIB_ERR_NONE [0x41],.transmitted RADIOLIB_ERR_NONE,
        .channel RADIOLIB_LORA_DETECTED]) ∧
    h'.radio.toEngine.map Outgoing.msg = [⟨kFrame,[0x42]⟩] := by
  obtain ⟨h,h',s',s'',_,conversed,sent⟩ := @conversation Unit 0 {}
    [.hear [0x41] 1,.say [0x42] [2,3],.busy true,.scan] (by decide)
  exact ⟨h,h',s',s'',conversed,sent⟩

/-- Once the header of a frame to come is heard the line is up, though nothing has arrived;
a driver that then reads gets the frame before it once more. -/
theorem frame_read_again (s : SX126x) {h h₁ : SimHal κ stuckIrqMs} (hears : h.chip.Hears g [])
    (short : g.length ≤ 253)
    (mask : h.chip.irqMask = rxIrqMask) (busy : h.chip.channelBusy = true)
    (armed : h.chip.headerRaised = false) (ticked : h.beginTick networkMs = some h₁)
    (late : kHeaderSymbols * h.chip.symbolMs ≤
      ((h₁.localUs / 1000 - h.chip.busySinceMs).toNat : ℚ)) :
    h₁.digitalRead kPinDio1 = GpioLevelHigh ∧ h₁.chip.inbox = [] ∧
      ∃ h', (s.readData 0).run SimHal.answer h₁ = some (h',(RADIOLIB_ERR_NONE,g)) := by
  obtain ⟨_,again,still,_⟩ := SimHal.beginTick_arrives (h := h) rfl
    (Chip.arrive_settled fun _ => hears.inbox) networkMs
  obtain rfl := Option.some.inj (ticked.symm.trans again)
  have hears₁ := hears.of_still still
  have stepped := (Radio.perform_eq_some (SimHal.beginTick_ticks ticked).2).1
  have heard : any (h.chip.raised (.tick (h₁.localUs / 1000))) kIrqHeaderValid = true :=
    (Chip.any_raised_tick _ _ _).mpr ⟨hears.mode,.inr (.inr (.inr ⟨armed,⟨busy,late⟩,by decide⟩))⟩
  have raised : any h₁.chip.irq kIrqHeaderValid = true := by
    have irq : h₁.chip.irq = h.chip.irq ||| h.chip.raised (.tick (h₁.localUs / 1000)) :=
      Chip.tick_irq stepped
    rw [irq, any_or, heard, Bool.or_true]
  have routed : kIrqHeaderValid &&& h₁.chip.irqMask = kIrqHeaderValid := by
    rw [Chip.timeless_eq still Chip.irqMask fun _ => rfl, mask]
    decide
  obtain ⟨h',ran,_⟩ := (s.readData_does (κ := κ) hears₁ short).real rfl
  exact ⟨(SimHal.digitalRead_dio1 h₁).mpr (any_of_narrower routed raised),hears₁.inbox,h',ran⟩

/-- The frame of one byte, and the header of the next one fifty milliseconds into it. -/
theorem frame_read_again_byte : ∃ h₁ h' : SimHal Unit 0,
    h₁.digitalRead kPinDio1 = GpioLevelHigh ∧
      (SX126x.readData {} 0).run SimHal.answer h₁ = some (h',(RADIOLIB_ERR_NONE,[0x41])) := by
  let ops : List ChipOp := [.spiTransfer [0x82,0,0,0],.spiTransfer [0x08,0x02,0x72,0,2,0,0,0,0],
    .frame [0x41],.tick 1,.channelBusy true]
  have heard : (run Chip.step (.new 0) ops).map (fun c =>
      decide (c.mode = .rx ∧ c.rxBase = 0 ∧ c.inbox = [] ∧ c.rxLen.toNat = 1 ∧
        c.buffer.slice? 0 1 = some [0x41] ∧ c.irqMask = rxIrqMask ∧ c.channelBusy = true ∧
        c.headerRaised = false ∧ c.sf = 10 ∧ c.bwKHz = 250 ∧ c.busySinceMs = 1)) = some true := by
    decide +kernel
  obtain ⟨c,ran,holds⟩ := Option.map_eq_some_iff.mp heard
  obtain ⟨mode,base,inbox,length,bytes,mask,busy,armed,sf,bw,since⟩ := of_decide_eq_true holds
  let h : SimHal Unit 0 := { radio := ⟨⟨c,ops,ran⟩,[],rfl⟩ }
  have hears : h.chip.Hears [0x41] [] := ⟨mode,base,inbox,length,bytes⟩
  obtain ⟨h₁,ticked,_⟩ := SimHal.beginTick_arrives (h := h) rfl
    (Chip.arrive_settled fun _ => inbox) 60
  have late : kHeaderSymbols * h.chip.symbolMs ≤
      ((h₁.localUs / 1000 - h.chip.busySinceMs).toNat : ℚ) := by
    have clock : h₁.localUs = 60000 := (SimHal.beginTick_ticks ticked).1
    have symbol : c.symbolMs = 512 / 125 := by
      rw [Chip.symbolMs, sf, bw]
      decide +kernel
    change kHeaderSymbols * c.symbolMs ≤ ((h₁.localUs / 1000 - c.busySinceMs).toNat : ℚ)
    rw [symbol, since, clock]
    decide +kernel
  obtain ⟨up,_,h',read⟩ := frame_read_again {} hears (by decide) mask busy armed ticked late
  exact ⟨h₁,h',up,read⟩

end Meshcore
