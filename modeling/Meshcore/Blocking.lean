import Meshcore.Scanning
import Meshcore.Slicing
import Meshcore.TimeOnAir

/-! A transmission that the driver waits for. The engine has no say until the call is over, so
that all the wait can see pass is time. -/
namespace Meshcore

open Checked Flags Programs Program

variable {κ : Type} {stuckIrqMs : UInt32} {c : Chip}

namespace SX126x

def RADIOLIB_ERR_TX_TIMEOUT : Int16 := -5
def RADIOLIB_ERR_PACKET_TOO_SHORT : Int16 := -30
def RADIOLIB_SX126X_PACKET_TYPE_LR_FHSS : UInt8 := 0x03
def RADIOLIB_SX126X_LORA_CR_4_8 : UInt8 := 0x04
def RADIOLIB_SX126X_LORA_CRC_ON : UInt8 := 0x01

/-- A turn of the wait, which may end it by the clock or by the line. -/
def transmitTurn (modem : UInt8) (start timeout : UInt64) : Hal κ (Option Bool) := do
  Hal.yield
  if (← Hal.millis) - start > timeout then return some true
  if (← Hal.digitalRead kPinDio1) ≠ GpioLevelLow then
    if modem ≠ RADIOLIB_SX126X_PACKET_TYPE_LR_FHSS then return some false
    -- The other modems of the family are not modelled.
    else .stuck
  return none

/-- What the length alone has a packet refused for. -/
def packetRefusal (s : SX126x) (len : Nat) : Option Int16 :=
  if s.codingRate > RADIOLIB_SX126X_LORA_CR_4_8 ∧ len < 8 then some RADIOLIB_ERR_PACKET_TOO_SHORT
  else if s.codingRate > RADIOLIB_SX126X_LORA_CR_4_8 ∧
      s.crcTypeLoRa = RADIOLIB_SX126X_LORA_CRC_ON ∧ len > 255 - 2 then
    some RADIOLIB_ERR_PACKET_TOO_LONG
  else if len > 255 then some RADIOLIB_ERR_PACKET_TOO_LONG
  else none

/-- Five milliseconds and five times what the packet takes. -/
def transmitTimeout (timeOnAir : UInt64) : UInt64 := 5 + timeOnAir * 5 / 1000

/-- The wait is left stuck after so many turns. -/
def transmit (s : SX126x) (data : List UInt8) (turns : Nat) : Hal κ (Int16 × SX126x) :=
  RADIOLIB_ASSERT s.standby (·,s) <|
  match s.packetRefusal data.length with
  | some refused => pure (refused,s)
  | none => do
    let timeout := transmitTimeout (← s.getTimeOnAir (.ofNat data.length))
    assertSet (s.startTransmit data) fun s => do
      let modem ← getPacketType
      let start ← Hal.millis
      if ← loop (transmitTurn modem start timeout) turns then
        let _ ← s.finishTransmit
        return (RADIOLIB_ERR_TX_TIMEOUT,s)
      (·,s) <$> s.finishTransmit

section Wait

variable (settled : c.Settled) (low : Quiet.dio1? c = some GpioLevelLow)
include settled low

/-- A turn that sees nothing but time pass. -/
theorem transmitTurn_run (modem : UInt8) (start timeout : UInt64) {q : Quiet κ} (here : q.chip = c) :
    (transmitTurn modem start timeout).run Quiet.answer q =
      some ({ q with localUs := q.localUs + 50 },
        if (q.localUs + 50) / 1000 - start > timeout then some true else none) := by
  subst here
  have waited : Hal.yield.run Quiet.answer q = some ({ q with localUs := q.localUs + 50 },()) := by
    change Quiet.answer .yield q >>= some = _
    simp only [Quiet.answer, Quiet.advanceUs, Chip.arrive_settled settled]
    rfl
  have shown : Hal.millis.run Quiet.answer { q with localUs := q.localUs + 50 } =
      some ({ q with localUs := q.localUs + 50 },(q.localUs + 50) / 1000) := rfl
  have read : (Hal.digitalRead kPinDio1).run Quiet.answer { q with localUs := q.localUs + 50 } =
      some ({ q with localUs := q.localUs + 50 },GpioLevelLow) := by
    have pin : kPinDio1 ≠ kPinBusy := by decide
    change Quiet.answer (.digitalRead kPinDio1) _ >>= some = _
    simp only [Quiet.answer, if_neg pin, low]
    rfl
  rw [transmitTurn, run_bind, waited, Option.bind_some, run_bind, shown, Option.bind_some]
  split
  · rfl
  · rw [run_bind, read]
    rfl

/-- The clock runs out on the wait, also where it wraps. -/
theorem loop_times_out (modem : UInt8) (start : UInt64) {timeout : UInt64} (short : timeout.toNat < 2 ^ 40)
    (turns : Nat) {q : Quiet κ} (here : q.chip = c) (begun : start.toNat * 1000 ≤ q.localUs.toNat)
    (left : q.localUs.toNat < (start.toNat + timeout.toNat + 1) * 1000)
    (enough : (start.toNat + timeout.toNat + 1) * 1000 ≤ q.localUs.toNat + 50 * turns) :
    ∃ t, (loop (transmitTurn modem start timeout) turns).run Quiet.answer q =
      some ({ q with localUs := t },true) := by
  induction turns generalizing q with
  | zero => omega
  | succ turns ih =>
    have turn := transmitTurn_run (κ := κ) settled low modem start timeout here
    have moved : (q.localUs + 50).toNat = (q.localUs.toNat + 50) % 2 ^ 64 := UInt64.toNat_add ..
    have elapsed : ((q.localUs + 50) / 1000 - start).toNat =
        (2 ^ 64 - start.toNat + (q.localUs + 50).toNat / 1000) % 2 ^ 64 := by
      rw [UInt64.toNat_sub, UInt64.toNat_div]
      rfl
    by_cases over' : (q.localUs + 50) / 1000 - start > timeout
    · rw [if_pos over'] at turn
      exact ⟨_,run_loop_of_ends turn turns⟩
    · rw [if_neg over'] at turn
      rw [run_loop_of_goes turn turns]
      rw [gt_iff_lt, UInt64.lt_iff_toNat_lt, elapsed] at over'
      have range := q.localUs.toNat_lt
      have ahead : (q.localUs + 50).toNat = q.localUs.toNat + 50 := by
        generalize (q.localUs + 50).toNat = later at *
        omega
      rw [ahead] at over'
      have left' : (q.localUs + 50).toNat < (start.toNat + timeout.toNat + 1) * 1000 := by
        rw [ahead]
        omega
      have begun' : start.toNat * 1000 ≤ (q.localUs + 50).toNat :=
        ahead ▸ Nat.le_add_right_of_le begun
      have enough' : (start.toNat + timeout.toNat + 1) * 1000 ≤
          (q.localUs + 50).toNat + 50 * turns :=
        enough.trans_eq (by rw [ahead, Nat.mul_succ, Nat.add_assoc, Nat.add_comm 50])
      exact ih (q := { q with localUs := q.localUs + 50 }) here begun' left' enough'

/-- As many turns as the clock takes are enough, whatever it reads at first. -/
theorem transmitWait_does {modem : UInt8} {timeout : UInt64} {turns : Nat} {rest : Bool → Hal κ α}
    (short : timeout.toNat < 2 ^ 40) (enough : 20 * (timeout.toNat + 1) ≤ turns)
    (then' : Does (rest true) c d a) : Does
      (Hal.millis >>= fun start => loop (transmitTurn modem start timeout) turns >>= rest) c d a := by
  intro q here
  have started : (q.localUs / 1000).toNat = q.localUs.toNat / 1000 := UInt64.toNat_div ..
  have least (now : ℕ) : now / 1000 * 1000 ≤ now := Nat.div_mul_le_self now 1000
  have most (now : ℕ) : now < (now / 1000 + timeout.toNat + 1) * 1000 := by omega
  have last (now : ℕ) : (now / 1000 + timeout.toNat + 1) * 1000 ≤ now + 50 * turns := by omega
  obtain ⟨t,waited⟩ := loop_times_out (κ := κ) settled low modem (q.localUs / 1000) short
    turns here (started ▸ least _) (started ▸ most _) (started ▸ last _)
  obtain ⟨t',ran⟩ := then' { q with localUs := t } here
  refine ⟨t',?_⟩
  rw [run_bind]
  change (loop (transmitTurn modem (q.localUs / 1000) timeout) turns >>= rest).run Quiet.answer q = _
  rw [run_bind, waited]
  exact ran

end Wait

theorem keyed_low (c : Chip) (data : List UInt8) (regs : Block 0x1000 UInt8)
    (preambleSyms : UInt32) :
    Quiet.dio1? ((c.staged data regs preambleSyms).keyed data) = some GpioLevelLow := by
  have apart : (~~~RADIOLIB_SX126X_IRQ_ALL &&& ~~~kIrqHeard) &&& txIrqMask = 0 := by decide
  have low : any (c.cleared.irq &&& ~~~kIrqHeard) txIrqMask = false := by
    rw [any_eq_false, Chip.cleared, BitVec.and_assoc c.irq, BitVec.and_assoc c.irq, apart]
    exact BitVec.and_zero
  have deaf : any kIrqHeard txIrqMask = false := by decide
  change (if any (c.cleared.irq &&& ~~~kIrqHeard) txIrqMask then _
    else if any kIrqHeard txIrqMask then _ else _) = _
  rw [low, deaf]
  rfl

theorem timeOnAir_small (s : SX126x) (len : UInt64) : (s.timeOnAir len).toNat < 4294967296 := by
  rw [timeOnAir, calculateTimeOnAir, UInt32.toNat_toUInt64]
  exact UInt32.toNat_lt _

theorem transmitTimeout_toNat {t : UInt64} (small : t.toNat < 4294967296) :
    (transmitTimeout t).toNat = 5 + t.toNat * 5 / 1000 := by
  have five : (5 : UInt64).toNat = 5 := rfl
  have thousand : (1000 : UInt64).toNat = 1000 := rfl
  rw [transmitTimeout, UInt64.toNat_add, UInt64.toNat_div, UInt64.toNat_mul, five, thousand,
    Nat.mod_eq_of_lt (a := t.toNat * 5) (by omega), Nat.mod_eq_of_lt (by omega)]

/-- However long the wait, its end is that of the clock. -/
theorem transmit_does {s : SX126x} (settled : c.Settled) (timed : s.Timed)
    (allowed : s.packetRefusal data.length = none) (fits : data.length ≠ 255)
    (enough : 20 * ((transmitTimeout (s.timeOnAir (.ofNat data.length))).toNat + 1) ≤ turns) :
    ∃ d s', Does (κ := κ) (s.transmit data turns) c d (RADIOLIB_ERR_TX_TIMEOUT,s') ∧
      d.mode = .standby ∧ d.pending = some data := by
  have short : data.length ≤ 254 := by
    by_contra long
    have beyond : data.length > 255 := by omega
    rw [packetRefusal, if_pos beyond] at allowed
    split at allowed <;> simp at allowed
  have small := s.timeOnAir_small (.ofNat data.length)
  have brief : (transmitTimeout (s.timeOnAir (.ofNat data.length))).toNat < 2 ^ 40 := by
    rw [transmitTimeout_toNat small]
    omega
  have stands : Chip.Settled { c with mode := .standby } := Chip.settled_standby rfl
  obtain ⟨regs,preambleSyms,started⟩ := s.startTransmit_does (κ := κ) stands short
  generalize launched :
    (Chip.staged { c with mode := .standby } data regs preambleSyms).keyed data = e at started
  have sends : e.Settled := Chip.settled_tx (launched ▸ rfl)
  have low : Quiet.dio1? e = some GpioLevelLow := launched ▸ keyed_low _ data regs preambleSyms
  refine ⟨{ e.cleared with mode := .standby },{ s with stagedMode := .none },?_,rfl,launched ▸ rfl⟩
  refine (s.standby_does settled).asserted ?_
  rw [allowed]
  refine (getTimeOnAir_does stands timed _).bind ?_
  refine started.assertSet ((getPacketType_does sends).bind ?_)
  refine transmitWait_does sends low brief enough ?_
  exact (SX126x.finishTransmit_does _ sends).bind (.done _ _)

/-- The result of a transmission that the driver waits for: it is never a success. -/
def transmitState (s : SX126x) (data : List UInt8) : Int16 :=
  (s.packetRefusal data.length).getD RADIOLIB_ERR_TX_TIMEOUT

/-- A driver that waits for its packet to be sent gives it up when the time is over, on any
hardware and with any clock; but what it gave up is sent all the same. A packet of 255 bytes
is not refused and does not fit in the driver's buffer with the command. -/
theorem transmit_gives_up {h : SimHal κ stuckIrqMs} {s : SX126x} (settled : h.chip.Settled)
    (timed : s.Timed) (data : List UInt8) (fits : data.length ≠ 255)
    (enough : 20 * ((transmitTimeout (s.timeOnAir (.ofNat data.length))).toNat + 1) ≤ turns) :
    ∃ h' s', (s.transmit data turns).run SimHal.answer h = some (h',(s.transmitState data,s')) ∧
      h'.chip.mode = .standby ∧ frames h'.radio.drainTx.toEngine = frames h.radio.toEngine ++
        if s.packetRefusal data.length = none then [data] else h.chip.pending.toList := by
  cases allowed : s.packetRefusal data.length with
  | none =>
    obtain ⟨d,s',does,mode,pending⟩ := transmit_does (κ := κ) settled timed allowed fits enough
    obtain ⟨h',ran,still,_,same⟩ := does.real (h := h) rfl
    have state : s.transmitState data = RADIOLIB_ERR_TX_TIMEOUT := by rw [transmitState, allowed]; rfl
    have latched : h'.chip.pending = some data :=
      (Chip.timeless_eq still Chip.pending fun _ => rfl).trans pending
    refine ⟨h',s',state ▸ ran,(Chip.timeless_eq still Chip.mode fun _ => rfl).trans mode,?_⟩
    rw [if_pos rfl, Radio.drainTx_frames, same]
    exact congrArg (_ ++ Option.toList ·) latched
  | some refused =>
    have does : Does (κ := κ) (s.transmit data turns) h.chip { h.chip with mode := .standby }
        (refused,s) := by
      refine (s.standby_does settled).asserted ?_
      rw [allowed]
      exact .done _ _
    obtain ⟨h',ran,still,_,same⟩ := does.real (h := h) rfl
    have state : s.transmitState data = refused := by rw [transmitState, allowed]; rfl
    have kept : h'.chip.pending = h.chip.pending :=
      (Chip.timeless_eq still Chip.pending fun _ => rfl).trans rfl
    refine ⟨h',s,state ▸ ran,(Chip.timeless_eq still Chip.mode fun _ => rfl).trans rfl,?_⟩
    rw [if_neg (by simp), Radio.drainTx_frames, same]
    exact congrArg (_ ++ Option.toList ·) kept

/-- A payload of one byte, which takes an eighth of a second, given up after most of one. -/
theorem transmit_gives_up_byte : ∃ (s s' : SX126x) (h' : SimHal Unit 0),
    s.timeOnAir 1 = 136192 ∧ (s.transmit [0x41] 13720).run SimHal.answer { radio := .init 0 } =
      some (h',(RADIOLIB_ERR_TX_TIMEOUT,s')) ∧ frames h'.radio.drainTx.toEngine = [[0x41]] := by
  let s : SX126x := {
    spreadingFactor := 10, bandwidth := 0x05, bandwidthKhz := 250, codingRate := 1
    crcTypeLoRa := RADIOLIB_SX126X_LORA_CRC_ON, preambleLengthLoRa := 16 }
  have time : s.timeOnAir 1 = 136192 := by decide +kernel
  have timed : s.Timed := by decide +kernel
  have enough : 20 * ((transmitTimeout (s.timeOnAir 1)).toNat + 1) ≤ 13720 := by decide +kernel
  obtain ⟨h',s',ran,_,sent⟩ := transmit_gives_up (h := { radio := .init 0 })
    (Chip.settled_standby rfl) timed [0x41] (by decide) enough
  exact ⟨s,s',h',time,ran,sent⟩

end SX126x
end Meshcore
