import Meshcore.Decoder

/-! The streaming path through the decoder's meaning. A byte of a command that
answers evaluates a padded prefix, which moves nothing but the instrumentation;
the release acts on the accumulated bytes as one command. -/
namespace Meshcore

open Checked Flags

namespace Chip

/-- The fields that belong to the way the chip is clocked rather than to the chip. -/
structure Link where
  txn : List UInt8
  inTxn : Bool
  irqReads : UInt32
  busyReads : UInt32

def link (c : Chip) : Link := ⟨c.txn,c.inTxn,c.irqReads,c.busyReads⟩

def onLink (c : Chip) (l : Link) : Chip :=
  { c with txn := l.txn, inTxn := l.inTxn, irqReads := l.irqReads, busyReads := l.busyReads }

/-- The chip state with its transaction and its read counters ignored. -/
def core (c : Chip) : Chip := c.onLink ⟨[],false,0,0⟩

@[simp] theorem onLink_link (c : Chip) : c.onLink c.link = c := rfl
@[simp] theorem onLink_onLink (c : Chip) (l m : Link) : (c.onLink l).onLink m = c.onLink m := rfl
@[simp] theorem link_onLink (c : Chip) (l : Link) : (c.onLink l).link = l := rfl
@[simp] theorem core_onLink (c : Chip) (l : Link) : (c.onLink l).core = c.core := rfl
@[simp] theorem onLink_core (c : Chip) (l : Link) : c.core.onLink l = c.onLink l := rfl
@[simp] theorem core_countIrqRead (c : Chip) : c.countIrqRead.core = c.core := rfl

theorem startTx_onLink (c : Chip) (l : Link) :
    (c.onLink l).startTx = c.startTx.map (·.onLink l) := by
  simp only [startTx, onLink, Option.bind_eq_bind]
  cases c.buffer.slice? c.txBase.toNat c.txLenForSend.toNat <;> rfl

theorem startCad_onLink (c : Chip) (l : Link) : (c.onLink l).startCad = c.startCad.onLink l := rfl

/-- Every command but a read of the interrupt register rides over the link. -/
theorem act_onLink (c : Chip) (l : Link) (cmd : List UInt8)
    (counted : opcode? (arg cmd 0) ≠ some .getIrqStatus) :
    (c.onLink l).act cmd = (c.act cmd).map (·.onLink l) := by
  unfold act
  cases op : opcode? (arg cmd 0) with
  | none => rfl
  | some o =>
    cases o
    case setTx => exact startTx_onLink c l
    case setCad => exact congrArg some (startCad_onLink c l)
    case getIrqStatus => exact absurd op counted
    all_goals first
      | rfl
      | (simp only [Option.map_some, Option.some.injEq]; split <;> rfl)

/-- What a command that answers does to the chip. -/
def evaluated (c : Chip) (op : UInt8) : Chip :=
  if opcode? op = some .getIrqStatus then c.countIrqRead else c

@[simp] theorem core_evaluated (c : Chip) (op : UInt8) : (c.evaluated op).core = c.core := by
  rw [evaluated]
  split <;> rfl

theorem act_of_returnsData (c : Chip) (cmd : List UInt8) (data : returnsData (arg cmd 0) = true) :
    c.act cmd = some (c.evaluated (arg cmd 0)) := by
  rw [returnsData] at data
  unfold act evaluated
  cases op : opcode? (arg cmd 0) with
  | none => simp [op] at data
  | some o => cases o <;> simp_all

theorem act_core (c : Chip) (cmd : List UInt8) :
    (c.act cmd).map core = (c.core.act cmd).map core := by
  by_cases counted : opcode? (arg cmd 0) = some .getIrqStatus
  · have data : returnsData (arg cmd 0) = true := by simp [returnsData,counted]
    simp [act_of_returnsData _ _ data]
    rfl
  · rw [core, act_onLink c _ cmd counted]
    cases c.act cmd <;> rfl

/-- A command from the link's point of view: its effect keeps the transaction. -/
theorem act_txn (acted : act c cmd = some next) : next.txn = c.txn ∧ next.inTxn = c.inTxn := by
  by_cases counted : opcode? (arg cmd 0) = some .getIrqStatus
  · have data : returnsData (arg cmd 0) = true := by simp [returnsData,counted]
    rw [act_of_returnsData _ _ data] at acted
    obtain rfl := Option.some.inj acted
    simp [evaluated,counted,countIrqRead]
  · have rides := act_onLink c.core c.link cmd counted
    rw [onLink_core, onLink_link, acted] at rides
    obtain ⟨d,_,same⟩ := Option.map_eq_some_iff.mp rides.symm
    rw [← same]
    exact ⟨rfl,rfl⟩

/-- The bytes a further one would join. -/
def accumulated (c : Chip) : List UInt8 := if c.inTxn then c.txn else []

@[simp] theorem pushByte_txn (c : Chip) (b : UInt8) :
    (c.pushByte b).txn = c.accumulated ++ [b] := by
  cases opened : c.inTxn <;> simp [pushByte,beginTransaction,accumulated,opened]

@[simp] theorem pushByte_inTxn (c : Chip) (b : UInt8) : (c.pushByte b).inTxn = true := by
  cases opened : c.inTxn <;> simp [pushByte,beginTransaction,opened]

@[simp] theorem core_pushByte (c : Chip) (b : UInt8) : (c.pushByte b).core = c.core := by
  cases opened : c.inTxn <;> simp [pushByte,beginTransaction,opened,core,onLink]

/-- The command the decoder is shown while `txn` has arrived. -/
def padded (txn : List UInt8) : List UInt8 :=
  txn.take 260 ++ List.replicate (16 - txn.length) 0

theorem padded_length (txn : List UInt8) : (padded txn).length = max (min txn.length 260) 16 := by
  simp only [padded, List.length_append, List.length_take, List.length_replicate]
  omega

theorem arg_padded (txn : List UInt8) (h : i < 260) : arg (padded txn) i = arg txn i := by
  simp only [arg, padded, List.getD_eq_getElem?_getD]
  by_cases inside : i < txn.length
  · rw [List.getElem?_append_left (by simp only [List.length_take]; omega),
      List.getElem?_take_of_lt h]
  · rw [List.getElem?_eq_none (l := txn) (by omega),
      List.getElem?_append_right (by simp only [List.length_take]; omega)]
    cases filler : (List.replicate (16 - txn.length) (0 : UInt8))[i - (txn.take 260).length]? with
    | none => rfl
    | some x => simpa using (List.eq_of_mem_replicate (List.mem_of_getElem? filler))

/-- What the streaming path answers to the last byte of `txn`. -/
def streamByte (c : Chip) (txn : List UInt8) (i : Nat) : UInt8 :=
  if returnsData (arg txn 0) then if i < 260 then c.answerByte (padded txn) i else 0
  else if i = 1 then 0x22 else 0x00

theorem padded_arg_zero (txn : List UInt8) : arg (padded txn) 0 = arg txn 0 :=
  arg_padded txn (by decide)

theorem answerByte_core (c : Chip) (cmd : List UInt8) : c.core.answerByte cmd = c.answerByte cmd :=
  rfl

theorem answerByte_congr {c d : Chip} (same : c.core = d.core) (cmd : List UInt8) :
    c.answerByte cmd = d.answerByte cmd := by
  rw [← answerByte_core, same, answerByte_core]

theorem padded_length_le (txn : List UInt8) : (padded txn).length ≤ 260 := by
  rw [padded_length]; omega

theorem padded_ne_nil (txn : List UInt8) : padded txn ≠ [] := by
  intro none
  have := congrArg List.length none
  simp [padded_length] at this

/-- The padding the streaming path does in its two arrays. -/
theorem slice?_padded (txn : List UInt8) :
    (Block.overlay (fun _ : Fin 260 => (0 : UInt8)) 0 (txn.take (min txn.length 260))).slice? 0
      (padded txn).length = some (padded txn) := by
  have cut : txn.take (min txn.length 260) = txn.take 260 := by
    rw [Nat.min_comm, ← List.take_take, List.take_length]
  have fits : (txn.take 260).length ≤ (padded txn).length := by
    rw [padded_length]; simp only [List.length_take]; omega
  have filler : (padded txn).length - (txn.take 260).length = 16 - txn.length := by
    rw [padded_length]; simp only [List.length_take]; omega
  rw [cut, slice?_overlay_fill _ _ (padded_length_le txn) fits, filler]
  rfl

/-- The scratch arrays of the streaming path are never left. -/
theorem transferByte_eq (c : Chip) (b : UInt8) :
    let d := c.pushByte b
    c.transferByte b = some (if returnsData (arg d.txn 0) then d.evaluated (arg d.txn 0) else d,
      d.streamByte d.txn (d.txn.length - 1)) := by
  intro d
  have positive : 0 < d.txn.length := by simp [d]
  unfold transferByte streamByte
  simp only [show c.pushByte b = d from rfl, getElem?_arg _ positive, Option.bind_eq_bind,
    Option.bind_some]
  cases data : returnsData (arg d.txn 0) with
  | false => simp
  | true =>
    have given : (if d.txn.length < 260 then d.txn.length else 260) = min d.txn.length 260 := by
      split <;> omega
    have size : (if min d.txn.length 260 > 16 then min d.txn.length 260 else 16) =
        (padded d.txn).length := by
      rw [padded_length]; split <;> omega
    have first : returnsData (arg (padded d.txn) 0) = true := by rw [padded_arg_zero, data]
    have small := padded_length_le d.txn
    simp only [given, size, ite_true]
    rw [memcpy?_of_le _ _ (by omega) (by omega)]
    simp only [Option.bind_some, slice?_padded, slice?_fill (0 : UInt8) small]
    rw [runCommand_eq _ _ (padded_ne_nil _), act_of_returnsData _ _ first, padded_arg_zero]
    simp only [Option.map_some, Option.bind_some]
    rw [memcpy?_of_le _ _ (by omega) (by simp)]
    have index : ∀ i, i < 260 → i = d.txn.length - 1 → i < (d.answer (padded d.txn)).length := by
      intro i _ _
      rw [answer_length, padded_length]; omega
    generalize d.txn.length - 1 = i at index
    simp only [Option.bind_some, Block.getOr]
    split
    next inside =>
      have found := get?_overlay (fun _ : Fin 260 => (0 : UInt8)) (d.answer (padded d.txn))
        (index i inside rfl) inside
      rw [List.take_of_length_le (by simp), found]
      simp [answer,tabulate]
    next outside => rfl

theorem arg_take (cmd : List UInt8) (h : i < n) : arg (cmd.take n) i = arg cmd i := by
  simp only [arg, List.getD_eq_getElem?_getD, List.getElem?_take_of_lt h]

/-- The link with the chip select released and nothing accumulated. -/
def Link.closed (l : Link) : Link := { l with txn := [], inTxn := false }

theorem endTransaction_eq (c : Chip) : c.endTransaction =
    if c.txn = [] ∨ returnsData (arg c.txn 0) then some (c.onLink c.link.closed)
    else (c.act (c.txn.take 260)).map (·.onLink c.link.closed) := by
  rw [endTransaction]
  by_cases empty : c.txn = []
  · simp [empty,onLink,link,Link.closed]
  have positive : 0 < c.txn.length := List.length_pos_iff.mpr empty
  simp only [empty, ite_false, false_or, getElem?_arg _ positive, Option.bind_eq_bind,
    Option.bind_some]
  cases data : returnsData (arg c.txn 0) with
  | true => rfl
  | false =>
    have cut : c.txn.take (if c.txn.length < 260 then c.txn.length else 260) = c.txn.take 260 := by
      split
      · rw [List.take_length, List.take_of_length_le (by omega)]
      · rfl
    have length : (if c.txn.length < 260 then c.txn.length else 260) = (c.txn.take 260).length := by
      simp only [List.length_take]
      split <;> omega
    have written : c.txn.take 260 ≠ [] := by simp [empty]
    have counted : opcode? (arg (c.txn.take 260) 0) ≠ some .getIrqStatus := by
      rw [arg_take _ (by decide)]
      intro counted
      simp [returnsData,counted] at data
    have small : (c.txn.take 260).length ≤ 260 := by simp only [List.length_take]; omega
    rw [cut, length, slice?_fill (0 : UInt8) small]
    simp only [Bool.false_eq_true, ite_false, Option.bind_some]
    rw [runCommand_eq _ _ written, show ({ c with inTxn := false } : Chip) =
      c.onLink { c.link with inTxn := false } from rfl, act_onLink c _ _ counted]
    cases c.act (c.txn.take 260) <;> rfl

/-- The bytes of one transaction in order, and the answer to each. -/
def transferBytes (c : Chip) : List UInt8 → Option (Chip × List UInt8)
  | [] => some (c,[])
  | b :: rest => do
    let (c,answer) ← c.transferByte b
    let (c,answers) ← c.transferBytes rest
    some (c,answer :: answers)

/-- Chip select down, the bytes of `cmd`, chip select up. -/
def streamed (c : Chip) (cmd : List UInt8) : Option (Chip × List UInt8) := do
  let (c,answers) ← c.beginTransaction.transferBytes cmd
  some (← c.endTransaction,answers)

theorem streamByte_congr {c d : Chip} (same : c.core = d.core) (txn : List UInt8) (i : Nat) :
    c.streamByte txn i = d.streamByte txn i := by
  simp only [streamByte, answerByte_congr same]

@[simp] theorem evaluated_link (c : Chip) (op : UInt8) :
    (c.evaluated op).txn = c.txn ∧ (c.evaluated op).inTxn = c.inTxn := by
  rw [evaluated]
  split <;> exact ⟨rfl,rfl⟩

/-- A streamed byte moves only the link. -/
theorem transferByte_spec (c : Chip) (b : UInt8) : ∃ d : Chip,
    c.transferByte b = some (d,c.streamByte (c.accumulated ++ [b]) c.accumulated.length) ∧
      d.core = c.core ∧ d.txn = c.accumulated ++ [b] ∧ d.inTxn = true := by
  have byte := transferByte_eq c b
  simp only [pushByte_txn, List.length_append, List.length_singleton, Nat.add_sub_cancel,
    streamByte_congr (core_pushByte c b)] at byte
  refine ⟨_,byte,?_,?_,?_⟩ <;> split <;> simp

/-- Bytes extend the open transaction, and each is answered against the prefix it ends. -/
theorem transferBytes_eq (c : Chip) (bs : List UInt8) (opened : c.inTxn = true) :
    ∃ d : Chip, d.core = c.core ∧ d.txn = c.txn ++ bs ∧ d.inTxn = true ∧
      c.transferBytes bs = some (d,tabulate bs.length fun i =>
        c.streamByte (c.txn ++ bs.take (i + 1)) (c.txn.length + i)) := by
  induction bs generalizing c with
  | nil => exact ⟨c,rfl,by simp,opened,rfl⟩
  | cons b rest ih =>
    obtain ⟨d,byte,same,grown,still⟩ := transferByte_spec c b
    obtain ⟨e,same',txn,last,bytes⟩ := ih d still
    simp only [accumulated, opened, ite_true] at byte grown
    refine ⟨e,same'.trans same,by simp [txn,grown],last,?_⟩
    simp only [transferBytes, byte, bytes, Option.bind_eq_bind, Option.bind_some, Option.some.injEq,
      Prod.mk.injEq, true_and]
    rw [List.length_cons, tabulate_succ]
    simp [streamByte_congr same,grown,Nat.add_comm,Nat.add_left_comm]

/-- A streamed command, whole: the effect of the command, and a reply whose every
byte is answered against the prefix that ends there. -/
theorem streamed_eq (c : Chip) (cmd : List UInt8) (nonempty : cmd ≠ [])
    (short : cmd.length ≤ 260) :
    (c.streamed cmd).map (fun r => (r.1.core,r.2)) = (c.act cmd).map fun next =>
      (next.core,tabulate cmd.length fun i => c.streamByte (cmd.take (i + 1)) i) := by
  obtain ⟨d,same,txn,_,bytes⟩ := transferBytes_eq c.beginTransaction cmd rfl
  have begun : c.beginTransaction.core = c.core := rfl
  have origin : d.core = c.core := same
  simp only [show c.beginTransaction.txn = [] from rfl, List.nil_append, List.length_nil,
    Nat.zero_add, streamByte_congr begun] at bytes txn
  simp only [streamed, bytes, endTransaction_eq, txn, nonempty, false_or, Option.bind_eq_bind,
    Option.bind_some, List.take_of_length_le short]
  by_cases data : returnsData (arg cmd 0) = true
  · simp [data,act_of_returnsData _ _ data,origin]
  · have effect : (d.act cmd).map core = (c.act cmd).map core := by
      rw [act_core d, act_core c, origin]
    simp only [data]
    cases left : d.act cmd <;> cases right : c.act cmd <;> simp_all

end Chip
end Meshcore
