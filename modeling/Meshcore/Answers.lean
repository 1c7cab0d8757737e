import Meshcore.Operations
import Mathlib.Tactic.NormNum

/-! What the master reads: the same command clocked byte by byte and given as one
buffer, and the getters at the length the driver clocks. -/
namespace Meshcore

open Checked Flags Runs

namespace Chip

/-- The replies of the two paths agree on this command in this state. Only three
getters can tell them apart: one the streaming path does not count among those
that answer, and two whose last byte the buffered path withholds. -/
def PathsAgree (c : Chip) (cmd : List UInt8) : Prop :=
  match opcode? (arg cmd 0) with
  | some .getRssiInst => 3 ≤ cmd.length → encodeRssi c.rssi = 0
  | some .getIrqStatus =>
    (cmd.length = 3 → hiByte c.irq = 0) ∧ (cmd.length = 4 → loByte c.irq = 0)
  | some .getRxBufferStatus => (cmd.length = 3 → c.rxLen = 0) ∧ (cmd.length = 4 → c.rxBase = 0)
  | _ => True

/-- Byte `i` of the streamed reply depends on the whole command only through its opcode. -/
theorem arg_padded_take (cmd : List UInt8) (before : j ≤ i) (short : i < 260) :
    arg (padded (cmd.take (i + 1))) j = arg cmd j := by
  rw [arg_padded _ (by omega), arg_take _ (by omega)]

theorem streamByte_take (c : Chip) (cmd : List UInt8) (inside : i < cmd.length)
    (short : cmd.length ≤ 260) : c.streamByte (cmd.take (i + 1)) i = c.answerByte cmd i ↔
      match opcode? (arg cmd 0) with
      | some .getRssiInst => i = 2 → encodeRssi c.rssi = 0
      | some .getIrqStatus =>
        (i = 2 → cmd.length = 3 → hiByte c.irq = 0) ∧ (i = 3 → cmd.length = 4 → loByte c.irq = 0)
      | some .getRxBufferStatus =>
        (i = 2 → cmd.length = 3 → c.rxLen = 0) ∧ (i = 3 → cmd.length = 4 → c.rxBase = 0)
      | _ => True := by
  have near : i < 260 := by omega
  have long4 : 4 ≤ (padded (cmd.take (i + 1))).length := by rw [padded_length]; omega
  have long5 : 5 ≤ (padded (cmd.take (i + 1))).length := by rw [padded_length]; omega
  have first : arg (padded (cmd.take (i + 1))) 0 = arg cmd 0 := arg_padded_take _ (by omega) near
  have opcode : arg (cmd.take (i + 1)) 0 = arg cmd 0 := arg_take _ (by omega)
  simp only [streamByte, opcode, near, ite_true, answerByte]
  by_cases status : i = 1
  · subst status
    cases op : opcode? (arg cmd 0) with
    | none => simp
    | some o => cases o <;> simp
  simp only [status, ite_false, dataByte, first, returnsData]
  cases op : opcode? (arg cmd 0) with
  | none => simp
  | some o =>
    cases o
    all_goals simp only
    case readBuffer =>
      by_cases data : 3 ≤ i
      · simp [data,arg_padded_take _ (show 1 ≤ i by omega) near]
      · simp [data]
    case readRegister =>
      by_cases data : 4 ≤ i
      · simp [data,arg_padded_take _ (show 1 ≤ i by omega) near,
          arg_padded_take _ (show 2 ≤ i by omega) near]
      · simp [data]
    case getIrqStatus | getRxBufferStatus =>
      simp only [long4, long5, and_true, ite_true]
      by_cases high : i = 2
      · subst high
        by_cases short4 : 4 ≤ cmd.length
        · simp [short4, show cmd.length ≠ 3 by omega]
        · simp [show cmd.length = 3 by omega]
      · by_cases low : i = 3
        · subst low
          by_cases short5 : 5 ≤ cmd.length
          · simp [short5, show cmd.length ≠ 4 by omega]
          · simp [show cmd.length = 4 by omega]
        · simp [high,low]
    case getRssiInst =>
      by_cases data : i = 2 <;> simp [data,eq_comm]
    all_goals simp

theorem streamByte_agree (c : Chip) (cmd : List UInt8) (short : cmd.length ≤ 260) :
    (∀ i < cmd.length, c.streamByte (cmd.take (i + 1)) i = c.answerByte cmd i) ↔
      c.PathsAgree cmd := by
  have pointwise : (∀ i < cmd.length, c.streamByte (cmd.take (i + 1)) i = c.answerByte cmd i) ↔ _ :=
    forall₂_congr fun i inside => streamByte_take c cmd inside short
  rw [pointwise]
  rw [PathsAgree]
  cases op : opcode? (arg cmd 0) with
  | none => simp
  | some o =>
    cases o
    all_goals simp only [implies_true]
    case getRssiInst => exact ⟨fun all long => all 2 long rfl,fun one i inside h => one (by omega)⟩
    case getIrqStatus | getRxBufferStatus =>
      constructor
      · intro all
        exact ⟨fun len => (all 2 (by omega)).1 rfl len,fun len => (all 3 (by omega)).2 rfl len⟩
      · exact fun both i _ => ⟨fun _ => both.1,fun _ => both.2⟩

/-- The only command that can fault is one on whose replies the paths agree. -/
theorem pathsAgree_of_fault {c : Chip} (fault : c.act cmd = none) : c.PathsAgree cmd := by
  rw [PathsAgree]
  rw [act] at fault
  cases op : opcode? (arg cmd 0) with
  | none => trivial
  | some o => cases o <;> simp_all

/-- Both ways of clocking a command return the same bytes exactly where `PathsAgree` holds. -/
theorem streamed_answers_iff (c : Chip) (cmd : List UInt8) (nonempty : 1 ≤ cmd.length)
    (short : cmd.length ≤ 260) :
    (c.streamed cmd).map Prod.snd = (c.spiTransfer cmd).map Prod.snd ↔ c.PathsAgree cmd := by
  have some' : cmd ≠ [] := List.ne_nil_of_length_pos nonempty
  have streams := congrArg (Option.map Prod.snd) (streamed_eq c cmd some' short)
  simp only [Option.map_map, Function.comp_def] at streams
  rw [streams, spiTransfer_eq c cmd some', Option.map_map]
  cases acted : c.act cmd with
  | none => simpa using pathsAgree_of_fault acted
  | some next =>
    simp only [Option.map_some, Function.comp_apply, Option.some.injEq, answer, tabulate_eq_iff]
    exact streamByte_agree c cmd short

theorem streamed_answers_version : ((new 0).streamed [0x1D,0x03,0x20,0x00,0x00]).map Prod.snd =
      ((new 0).spiTransfer [0x1D,0x03,0x20,0x00,0x00]).map Prod.snd ↔
    (new 0).PathsAgree [0x1D,0x03,0x20,0x00,0x00] :=
  streamed_answers_iff (new 0) _ (by decide) (by decide)

/-- The bytes of `GetRssiInst` on a chip as it comes out of its constructor. -/
theorem streamed_rssi_differs : ¬∀ (c : Chip) (cmd : List UInt8), c.inTxn = false → c.txn = [] →
    1 ≤ cmd.length → cmd.length ≤ 260 →
      (c.streamed cmd).map Prod.snd = (c.spiTransfer cmd).map Prod.snd := by
  intro same
  have rssi := same (new 0) [0x15,0x00,0x00] rfl rfl (by decide) (by decide)
  revert rssi
  decide +kernel

end Chip

/-- The getters the driver reads, and how many data bytes it clocks for each. -/
inductive Getter where
  | irqStatus
  | rxBufferStatus
  | packetStatus
  | rssiInst
  | packetType
  deriving DecidableEq, Repr

namespace Getter

def opcode : Getter → Opcode
  | irqStatus => .getIrqStatus
  | rxBufferStatus => .getRxBufferStatus
  | packetStatus => .getPacketStatus
  | rssiInst => .getRssiInst
  | packetType => .getPacketType

def numBytes : Getter → Nat
  | irqStatus => 2
  | rxBufferStatus => 2
  | packetStatus => 3
  | rssiInst => 1
  | packetType => 1

/-- The chip's own values for what the getter asks. -/
def truth (g : Getter) (c : Chip) : List UInt8 :=
  match g with
  | irqStatus => [hiByte c.irq,loByte c.irq]
  | rxBufferStatus => [c.rxLen,c.rxBase]
  | packetStatus => [encodeRssi c.rssi,encodeSnr c.snr,encodeRssi c.rssi]
  | rssiInst => [encodeRssi c.rssi]
  | packetType => [0x01]

end Getter

namespace Chip

/-- `Module::SPItransferStream` on a read: the opcode, one status byte and
`numBytes` data bytes go out as NOPs behind it, and the data comes after both. -/
def SPIreadStream (c : Chip) (cmd : UInt8) (numBytes : Nat) : Option (Chip × List UInt8) := do
  let (c,buffIn) ← c.spiTransfer (cmd :: List.replicate (1 + numBytes) 0x00)
  some (c,(buffIn.drop 2).take numBytes)

/-- What the last data byte of a getter is guarded on, one byte too late. -/
def LastByteClear (c : Chip) : Getter → Prop
  | .irqStatus => loByte c.irq = 0
  | .rxBufferStatus => c.rxBase = 0
  | _ => True

/-- What the driver gets from each getter in place of its truth. -/
def getterReply (c : Chip) : Getter → List UInt8
  | .irqStatus => [hiByte c.irq,0]
  | .rxBufferStatus => [c.rxLen,0]
  | g => g.truth c

theorem SPIreadStream_getter (c : Chip) (g : Getter) :
    (c.SPIreadStream g.opcode.byte g.numBytes).map Prod.snd = some (c.getterReply g) := by
  rw [SPIreadStream]
  rw [spiTransfer_eq _ _ (List.cons_ne_nil _ _)]
  cases g <;> rfl

/-- A getter is truthful at the driver's length exactly when its last byte is zero
anyway, for the two whose guard is one too strict, and always for the others. -/
theorem getter_truthful_iff (c : Chip) (g : Getter) :
    (c.SPIreadStream g.opcode.byte g.numBytes).map Prod.snd = some (g.truth c) ↔
      c.LastByteClear g := by
  rw [SPIreadStream_getter]
  cases g <;> simp [getterReply,LastByteClear,Getter.truth,eq_comm]

/-- The end of a transmission, read as no flag at all. -/
theorem tx_done_withheld : ¬∀ (stuckIrqMs : UInt32) (ops : List ChipOp) (c : Chip),
    run step (new stuckIrqMs) ops = some c → ∀ g : Getter,
      (c.SPIreadStream g.opcode.byte g.numBytes).map Prod.snd = some (g.truth c) := by
  intro truthful
  have reached : (run step (new 0) [.spiTransfer [0x83,0x00,0x00,0x00],.txDone]).map (fun c =>
      ((c.SPIreadStream 0x12 2).map Prod.snd,Getter.irqStatus.truth c)) =
        some (some [0x00,0x00],[0x00,0x01]) := by
    decide +kernel
  obtain ⟨c,ran,rest⟩ := Option.map_eq_some_iff.mp reached
  obtain ⟨reply,flags⟩ := Prod.mk.inj rest
  have same : (c.SPIreadStream 0x12 2).map Prod.snd = some (Getter.irqStatus.truth c) :=
    truthful 0 _ c ran .irqStatus
  rw [reply, flags] at same
  simp at same

end Chip
end Meshcore
