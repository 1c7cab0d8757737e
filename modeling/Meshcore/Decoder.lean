import Meshcore.Command

/-! What a command does and what it answers, separated: `act` is the effect on the
chip and `answerByte` the byte in each position of the reply. `runCommand_eq`
shows that the checked decoder computes exactly these, and that its only access
outside an array is the one `startTx` can make. -/
namespace Meshcore

open Checked Flags

/-- Byte `i` of a command, zero past its end as in a padded one. -/
def arg (cmd : List UInt8) (i : Nat) : UInt8 := cmd.getD i 0

theorem getElem?_arg (cmd : List UInt8) (h : i < cmd.length) : cmd[i]? = some (arg cmd i) := by
  simp [arg,h]

/-- A reply given byte by byte. -/
def tabulate (len : Nat) (f : Nat → UInt8) : List UInt8 := (List.range len).map f

@[simp] theorem tabulate_length : (tabulate len f).length = len := by simp [tabulate]

theorem tabulate_zero (len : Nat) : List.replicate len 0 = tabulate len fun _ => 0 := by
  apply List.ext_getElem <;> simp [tabulate]

theorem tabulate_congr (h : ∀ i < len, f i = g i) : tabulate len f = tabulate len g :=
  List.map_congr_left fun i member => h i (List.mem_range.mp member)

theorem tabulate_eq_iff : tabulate len f = tabulate len g ↔ ∀ i < len, f i = g i := by
  simp [tabulate]

theorem tabulate_succ (n : Nat) (f : Nat → UInt8) :
    tabulate (n + 1) f = f 0 :: tabulate n fun i => f (i + 1) := by
  simp [tabulate,List.range_succ_eq_map,Function.comp_def]

theorem put?_tabulate (h : i < len) :
    put? (tabulate len f) i x = some (tabulate len fun j => if j = i then x else f j) := by
  simp only [put?, tabulate_length, h, ite_true, Option.some.injEq]
  apply List.ext_getElem (by simp)
  intro j _ _
  simp only [tabulate, List.getElem_set, List.getElem_map, List.getElem_range]
  simp only [eq_comm]

theorem putWhen_tabulate {p : Prop} [Decidable p] (h : p → i < len) :
    putWhen p (tabulate len f) i x =
      some (tabulate len fun j => if j = i ∧ p then x else f j) := by
  by_cases hp : p
  · simp [putWhen,hp,put?_tabulate (h hp)]
  · simp [putWhen,hp]

theorem mapIdx_tabulate (g : Nat → UInt8 → UInt8) :
    (tabulate len f).mapIdx g = tabulate len fun i => g i (f i) := by
  apply List.ext_getElem <;> simp [tabulate]

namespace Chip

def act (c : Chip) (cmd : List UInt8) : Option Chip :=
  match opcode? (arg cmd 0) with
  | some .setStandby | some .setSleep => some { c with mode := .standby }
  | some .setRx => some c.startRx
  | some .setTx => c.startTx
  | some .setCad => some c.startCad
  | some .setRfFrequency => some <|
    if 5 ≤ cmd.length then
      let raw := be32 (arg cmd 1) (arg cmd 2) (arg cmd 3) (arg cmd 4)
      { c with freqHz := UInt32.ofNat (raw.toNat * 32000000 / 33554432) }
    else c
  | some .setTxParams => some <|
    if 2 ≤ cmd.length then { c with txPowerDbm := (arg cmd 1).toInt8 } else c
  | some .calibrate => some { c with regs := c.regs.overlay kRegRxGain [kRxGainPowerSaving] }
  | some .setModulationParams => some <|
    if 4 ≤ cmd.length then c.applyModulation (arg cmd 1) (arg cmd 2) (arg cmd 3) else c
  | some .setPacketParams => some <|
    if 7 ≤ cmd.length then c.applyPacketParams (arg cmd 1) (arg cmd 2) (arg cmd 4) else c
  | some .setBufferBase => some <|
    if 3 ≤ cmd.length then { c with txBase := arg cmd 1, rxBase := arg cmd 2 } else c
  | some .writeBuffer => some <|
    if 2 ≤ cmd.length then { c with buffer := c.buffer.overlay (arg cmd 1).toNat (cmd.drop 2) }
    else c
  | some .writeRegister => some <|
    if 3 ≤ cmd.length then
      { c with regs := c.regs.overlay (be16 (arg cmd 1) (arg cmd 2)).toNat (cmd.drop 3) }
    else c
  | some .setDioIrqParams => some <|
    if 9 ≤ cmd.length then { c with irqMask := be16 (arg cmd 1) (arg cmd 2) } else c
  | some .getIrqStatus => some c.countIrqRead
  | some .clearIrqStatus => some <|
    if 3 ≤ cmd.length then
      let clear := be16 (arg cmd 1) (arg cmd 2)
      { c with
        irq := c.irq &&& ~~~clear
        preambleRaised := if any clear kIrqPreambleDetected then false else c.preambleRaised
        headerRaised := if any clear kIrqHeaderValid then false else c.headerRaised }
    else c
  | _ => some c

/-- The data byte in position `i` of the reply to a command. -/
def dataByte (c : Chip) (cmd : List UInt8) (i : Nat) : UInt8 :=
  match opcode? (arg cmd 0) with
  | some .readBuffer => if 3 ≤ i then (c.buffer.get? ((arg cmd 1).toNat + (i - 3))).getD 0 else 0
  | some .readRegister =>
    if 4 ≤ i then (c.regs.get? ((be16 (arg cmd 1) (arg cmd 2)).toNat + (i - 4))).getD 0 else 0
  | some .getIrqStatus =>
    if i = 2 ∧ 4 ≤ cmd.length then hiByte c.irq
    else if i = 3 ∧ 5 ≤ cmd.length then loByte c.irq else 0
  | some .getRxBufferStatus =>
    if i = 2 ∧ 4 ≤ cmd.length then c.rxLen else if i = 3 ∧ 5 ≤ cmd.length then c.rxBase else 0
  | some .getPacketStatus =>
    if i = 2 ∨ i = 4 then encodeRssi c.rssi else if i = 3 then encodeSnr c.snr else 0
  | some .getRssiInst => if i = 2 then encodeRssi c.rssi else 0
  | some .getPacketType => if i = 2 then 0x01 else 0
  | _ => 0

/-- Byte 1 of every reply is the status byte. -/
def answerByte (c : Chip) (cmd : List UInt8) (i : Nat) : UInt8 :=
  if i = 1 then 0x22 else c.dataByte cmd i

def answer (c : Chip) (cmd : List UInt8) : List UInt8 := tabulate cmd.length (c.answerByte cmd)

@[simp] theorem answer_length (c : Chip) (cmd : List UInt8) :
    (c.answer cmd).length = cmd.length := tabulate_length

/-- The decoder's only fault is the one `startTx` can make; otherwise it does what
`act` says and answers what `answer` says. -/
theorem runCommand_eq (c : Chip) (cmd : List UInt8) (nonempty : cmd ≠ []) :
    c.runCommand cmd (List.replicate cmd.length 0) =
      (c.act cmd).map fun next => (next,c.answer cmd) := by
  have positive : 0 < cmd.length := List.length_pos_iff.mpr nonempty
  have status : putWhen (cmd.length > 1) (List.replicate cmd.length 0) 1 0x22 =
      some (tabulate cmd.length fun i => if i = 1 then 0x22 else 0) := by
    rw [tabulate_zero, putWhen_tabulate id]
    exact congrArg some (tabulate_congr fun i h => if_congr (by omega) rfl rfl)
  rw [runCommand]
  simp only [status, getElem?_arg cmd positive, Option.bind_eq_bind, Option.bind_some]
  unfold act answer answerByte dataByte
  cases op : opcode? (arg cmd 0) with
  | none => rfl
  | some o =>
    cases o
    all_goals simp only
    case setTx => cases started : c.startTx <;> rfl
    case calibrate =>
      have written : c.regs.set? kRegRxGain kRxGainPowerSaving =
          some (c.regs.overlay kRegRxGain [kRxGainPowerSaving]) := by
        rw [set?_of_lt _ _ (by decide)]
        exact congrArg some (by simpa using (overlay_concat c.regs [] _ (by decide)).symm)
      simp [written]
    case readBuffer | readRegister =>
      split
      next long =>
        simp (disch := omega) only [getElem?_arg, copyOut_eq, mapIdx_tabulate, Option.bind_some,
          Option.map_some]
        refine congrArg (fun a => some (c,a)) (tabulate_congr fun i h => ?_)
        grind
      next short =>
        refine congrArg (fun a => some (c,a)) (tabulate_congr fun i h => ?_)
        grind
    case getIrqStatus =>
      simp (disch := omega) only [putWhen_tabulate, Option.bind_some, Option.map_some]
      refine congrArg (fun a => some (c.countIrqRead,a)) (tabulate_congr fun i h => ?_)
      simp only [countIrqRead]
      grind
    case getRxBufferStatus | getPacketStatus | getRssiInst | getPacketType =>
      simp (disch := omega) only [putWhen_tabulate, Option.bind_some, Option.map_some]
      refine congrArg (fun a => some (c,a)) (tabulate_congr fun i h => ?_)
      grind
    all_goals first
      | rfl
      | (split <;> simp (disch := omega) only [*,getElem?_arg,copyIn_eq,Option.bind_some,
          Option.map_some])

theorem spiTransfer_eq (c : Chip) (cmd : List UInt8) (nonempty : cmd ≠ []) :
    c.spiTransfer cmd = (c.act cmd).map fun next => (next,c.answer cmd) := by
  rw [spiTransfer, if_neg (by simpa using nonempty), runCommand_eq c cmd nonempty]

end Chip
end Meshcore
