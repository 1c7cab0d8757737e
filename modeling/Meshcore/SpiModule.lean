import Meshcore.Quiet

/-! The driver's transfers, configured as for this family of chips: the BUSY line is
waited for on both sides of each, and the status byte of the reply becomes its result. -/
namespace Meshcore

open Checked Programs Program

variable {κ : Type} {stuckIrqMs : UInt32} {c d e f : Chip}

def RADIOLIB_ERR_NONE : Int16 := 0
def RADIOLIB_ERR_CHIP_NOT_FOUND : Int16 := -2
def RADIOLIB_ERR_INVALID_BIT_RANGE : Int16 := -11
def RADIOLIB_ERR_SPI_WRITE_FAILED : Int16 := -16
def RADIOLIB_ERR_SPI_CMD_TIMEOUT : Int16 := -705
def RADIOLIB_ERR_SPI_CMD_INVALID : Int16 := -706
def RADIOLIB_ERR_SPI_CMD_FAILED : Int16 := -707

@[simp] def RADIOLIB_STATIC_ARRAY_SIZE : Nat := 256

def SPIparseStatus (byte : UInt8) : Int16 :=
  if byte &&& 0b00001110 = 0b00000110 then RADIOLIB_ERR_SPI_CMD_TIMEOUT
  else if byte &&& 0b00001110 = 0b00001000 then RADIOLIB_ERR_SPI_CMD_INVALID
  else if byte &&& 0b00001110 = 0b00001010 then RADIOLIB_ERR_SPI_CMD_FAILED
  else if byte = 0x00 ∨ byte = 0xFF then RADIOLIB_ERR_CHIP_NOT_FOUND
  else RADIOLIB_ERR_NONE

/-- `while (digitalRead(gpioPin))`, given up after `spiConfig.timeout` milliseconds; a
yield takes fifty microseconds, which bounds its turns. -/
def waitForGpioLow : Hal κ Bool := do
  let start ← Hal.millis
  loop (do
    if (← Hal.digitalRead kPinBusy) = GpioLevelLow then return some false
    Hal.yield
    return if (← Hal.millis) - start ≥ 1000 then some true else none) 20001

/-- The line is checked before a transfer, and a microsecond after it; whether that failed. -/
def beforeTransfer (waitForGpio : Bool) : Hal κ Bool :=
  if waitForGpio then waitForGpioLow else pure false

def afterTransfer (waitForGpio : Bool) : Hal κ Bool :=
  if waitForGpio then do
    Hal.delayMicroseconds 1
    waitForGpioLow
  else pure false

/-- `uint8_t buff[RADIOLIB_STATIC_ARRAY_SIZE]`, filled from its start. -/
def staticArray (bytes : List UInt8) : Hal κ (List UInt8) :=
  if bytes.length ≤ RADIOLIB_STATIC_ARRAY_SIZE then pure bytes else .stuck

/-- `data` is what a write sends, or what a read fills; its length is `numBytes`. The build
sets `RADIOLIB_STATIC_ONLY`, so that both buffers are static arrays; the reply is as long as
what was sent. -/
def SPItransferStream (cmd : List UInt8) (write : Bool) (data : List UInt8) (waitForGpio : Bool) :
    Hal κ (Int16 × List UInt8) := do
  let buffOut ← staticArray
    (if write then cmd ++ data else cmd ++ List.replicate (data.length + 1) 0x00)
  if ← beforeTransfer waitForGpio then return (RADIOLIB_ERR_SPI_CMD_TIMEOUT,data)
  let buffIn ← staticArray (← Hal.spiTransfer buffOut)
  let late ← afterTransfer waitForGpio
  let state :=
    if late then RADIOLIB_ERR_SPI_CMD_TIMEOUT
    else if data.length > 0 then SPIparseStatus (arg buffIn 1) else RADIOLIB_ERR_NONE
  return (state,if write then data else (buffIn.drop (cmd.length + 1)).take data.length)

def SPIreadStream (cmd data : List UInt8) : Hal κ (Int16 × List UInt8) :=
  SPItransferStream cmd false data true

def SPIwriteStream (cmd data : List UInt8) (waitForGpio : Bool) : Hal κ Int16 :=
  Prod.fst <$> SPItransferStream cmd true data waitForGpio

def SPIcheckStream : Hal κ Int16 := Prod.fst <$> SPItransferStream [0xC0] false [0] true

/-- The opcode and the two bytes of the address. -/
def registerCmd (o : Opcode) (reg : UInt32) : List UInt8 :=
  [o.byte,(reg >>> 8).toUInt8,reg.toUInt8]

def SPIreadRegisterBurst (reg : UInt32) (numBytes : Nat) : Hal κ (List UInt8) :=
  Prod.snd <$> SPItransferStream (registerCmd .readRegister reg) false (List.replicate numBytes 0) true

def SPIwriteRegisterBurst (reg : UInt32) (data : List UInt8) : Hal κ Unit := do
  let _ ← SPItransferStream (registerCmd .writeRegister reg) true data true

def SPIreadRegister (reg : UInt32) : Hal κ UInt8 := do
  let resp ← SPIreadRegisterBurst reg 1
  return arg resp 0

def SPIwriteRegister (reg : UInt32) (data : UInt8) : Hal κ Unit := SPIwriteRegisterBurst reg [data]

/-! What driver code does to a chip, whenever it starts. -/

def Does (p : Hal κ α) (c d : Chip) (a : α) : Prop := ∀ q : Quiet κ, q.chip = c →
  ∃ localUs, p.run Quiet.answer q = some ({ q with chip := d, localUs },a)

namespace Does

theorem done (a : α) (c : Chip) : Does (κ := κ) (.done a) c c a := by
  rintro q rfl
  exact ⟨q.localUs,rfl⟩

theorem bind {p : Hal κ α} {rest : α → Hal κ β} (first : Does p c d a)
    (then' : Does (rest a) d e b) : Does (p >>= rest) c e b := by
  intro q start
  obtain ⟨t,ran⟩ := first q start
  obtain ⟨t',ran'⟩ := then' { q with chip := d, localUs := t } rfl
  exact ⟨t',by rw [run_bind, ran]; exact ran'⟩

theorem map {p : Hal κ α} (f : α → β) (does : Does p c d a) : Does (f <$> p) c d (f a) := by
  rw [← bind_pure_comp]
  exact does.bind (.done _ _)

/-- What it does with deliveries for ticks it does on the hardware. -/
theorem real {p : Hal κ α} {h : SimHal κ stuckIrqMs} (does : Does p c d a)
    (same : h.chip.still = c.still) : ∃ h', p.run SimHal.answer h = some (h',a) ∧
      h'.chip.still = d.still ∧ h'.isr = h.isr ∧ h'.radio.toEngine = h.radio.toEngine := by
  obtain ⟨t,ran⟩ := does ⟨c,h.isr,h.localUs⟩ rfl
  obtain ⟨h',ran',like⟩ := (SimHal.answer_follows h.radio.toEngine).run p ⟨same,rfl,rfl,rfl⟩ ran
  exact ⟨h',ran',like.chip,like.isr,like.toEngine⟩

end Does

theorem waitForGpioLow_does (c : Chip) : Does (κ := κ) waitForGpioLow c c false := by
  rintro q rfl
  refine ⟨q.localUs,?_⟩
  change (loop _ 20001).run Quiet.answer q = _
  exact run_loop_of_ends rfl 20000

theorem delayMicroseconds_does (arrived : c.arrive = some d) (us : UInt64) :
    Does (κ := κ) (Hal.delayMicroseconds us) c d () := by
  rintro q rfl
  refine ⟨q.localUs + us,?_⟩
  change (q.advanceUs us).map (·,()) >>= some = _
  rw [Quiet.advanceUs, arrived]
  rfl

theorem beforeTransfer_does (waitForGpio : Bool) (c : Chip) :
    Does (κ := κ) (beforeTransfer waitForGpio) c c false := by
  rw [beforeTransfer]
  split
  · exact waitForGpioLow_does c
  · exact .done _ _

/-- What the wait after a transfer lets in. -/
def Chip.arriveIf (c : Chip) (waitForGpio : Bool) : Option Chip :=
  if waitForGpio then c.arrive else some c

theorem arriveIf_settled {c : Chip} (settled : c.Settled) (waitForGpio : Bool) :
    c.arriveIf waitForGpio = some c := by
  rw [Chip.arriveIf, Chip.arrive_settled settled, ite_self]

theorem afterTransfer_does {waitForGpio : Bool} (arrived : c.arriveIf waitForGpio = some d) :
    Does (κ := κ) (afterTransfer waitForGpio) c d false := by
  rw [Chip.arriveIf] at arrived
  rw [afterTransfer]
  split at arrived
  case isTrue waits =>
    rw [if_pos waits]
    exact (delayMicroseconds_does arrived 1).bind (waitForGpioLow_does d)
  case isFalse waits =>
    rw [if_neg waits, ← Option.some.inj arrived]
    exact .done _ _

theorem spiTransfer_does (arrived : c.arrive = some d) (nonempty : out ≠ [])
    (curt : Chip.Curt out) (acted : d.act out = some e) :
    Does (κ := κ) (Hal.spiTransfer out) c e (d.answer out) := by
  rintro q rfl
  refine ⟨q.localUs + (30 + UInt64.ofNat out.length * 2),?_⟩
  change Quiet.answer (.spiTransfer out) q >>= some = _
  simp only [Quiet.answer, Quiet.advanceUs, arrived, Option.bind_eq_bind, Option.bind_some,
    if_pos (And.intro nonempty curt), acted]
  rfl

theorem staticArray_does {bytes : List UInt8} (fits : bytes.length ≤ RADIOLIB_STATIC_ARRAY_SIZE)
    (c : Chip) : Does (κ := κ) (staticArray bytes) c c bytes := by
  rw [staticArray, if_pos fits]
  exact .done _ _

/-- The status byte of every reply says that all is well. -/
theorem parse_answer (c : Chip) (cmd : List UInt8) (long : 2 ≤ cmd.length) :
    SPIparseStatus (arg (c.answer cmd) 1) = RADIOLIB_ERR_NONE := by
  have status : arg (c.answer cmd) 1 = 0x22 := by
    have inside : 1 < (c.answer cmd).length := by rw [Chip.answer_length]; omega
    rw [arg, List.getD_eq_getElem?_getD, List.getElem?_eq_getElem inside]
    simp [Chip.answer,tabulate,Chip.answerByte]
  rw [status]
  decide

/-- Nobody waits for BUSY, and no transfer that its buffers hold fails: it does what its
bytes ask of the chip, with a tick before that and one after. -/
theorem SPItransferStream_does (cmd : List UInt8) (write : Bool) (data : List UInt8)
    (waitForGpio : Bool) (nonempty : cmd ≠ [])
    (sent : (if write then cmd ++ data else cmd ++ List.replicate (data.length + 1) 0x00) = out)
    (fits : out.length ≤ RADIOLIB_STATIC_ARRAY_SIZE) (curt : Chip.Curt out)
    (before : c.arrive = some d) (acted : d.act out = some e)
    (after : e.arriveIf waitForGpio = some f) :
    Does (κ := κ) (SPItransferStream cmd write data waitForGpio) c f (RADIOLIB_ERR_NONE,
      if write then data else ((d.answer out).drop (cmd.length + 1)).take data.length) := by
  have some' : out ≠ [] := by
    rw [← sent]
    split <;> simp [nonempty]
  have state : (if data.length > 0 then SPIparseStatus (arg (d.answer out) 1)
      else RADIOLIB_ERR_NONE) = RADIOLIB_ERR_NONE := by
    split
    case isTrue filled =>
      refine parse_answer d out ?_
      have := List.length_pos_iff.mpr nonempty
      rw [← sent]
      split <;> simp only [List.length_append, List.length_replicate] <;> omega
    case isFalse => rfl
  have answered : (d.answer out).length ≤ RADIOLIB_STATIC_ARRAY_SIZE := by
    rwa [Chip.answer_length]
  unfold SPItransferStream
  rw [sent]
  refine (staticArray_does fits c).bind ?_
  refine (beforeTransfer_does waitForGpio c).bind ?_
  simp only [Bool.false_eq_true, ite_false]
  refine (spiTransfer_does before some' curt acted).bind ?_
  refine (staticArray_does answered e).bind ?_
  refine (afterTransfer_does after).bind ?_
  simp only [Bool.false_eq_true, ite_false, state]
  exact .done _ _

theorem drop_tabulate (k n : Nat) (f : Nat → UInt8) :
    (tabulate (k + n) f).drop k = tabulate n fun i => f (k + i) := by
  apply List.ext_getElem
  · simp
  · intro i _ _
    simp [tabulate]

/-- A read gets the data bytes of its reply, the status byte skipped. -/
theorem readStream_arrives (op : UInt8) (rest data : List UInt8)
    (sent : op :: rest ++ List.replicate (data.length + 1) 0x00 = out)
    (fits : out.length ≤ RADIOLIB_STATIC_ARRAY_SIZE) (curt : Chip.Curt out)
    (before : c.arrive = some d) (acted : d.act out = some e) (after : e.arrive = some f) :
    Does (κ := κ) (SPItransferStream (op :: rest) false data true) c f (RADIOLIB_ERR_NONE,
      tabulate data.length fun i => d.dataByte out (rest.length + 2 + i)) := by
  have reply : ((d.answer out).drop (rest.length + 2)).take data.length =
      tabulate data.length fun i => d.dataByte out (rest.length + 2 + i) := by
    have long : out.length = rest.length + 2 + data.length := by
      rw [← sent]
      simp only [List.cons_append, List.length_cons, List.length_append, List.length_replicate]
      omega
    rw [Chip.answer, long, drop_tabulate, List.take_of_length_le (by simp)]
    exact tabulate_congr fun i _ => by rw [Chip.answerByte, if_neg (by omega)]
  rw [← reply]
  exact SPItransferStream_does (op :: rest) false data true (by simp) sent fits curt before acted after

theorem readStream_does (op : UInt8) (rest data : List UInt8) (settled : c.Settled)
    (after : d.Settled) (sent : op :: rest ++ List.replicate (data.length + 1) 0x00 = out)
    (fits : out.length ≤ RADIOLIB_STATIC_ARRAY_SIZE) (curt : Chip.Curt out)
    (acted : c.act out = some d) :
    Does (κ := κ) (SPItransferStream (op :: rest) false data true) c d (RADIOLIB_ERR_NONE,
      tabulate data.length fun i => c.dataByte out (rest.length + 2 + i)) :=
  readStream_arrives op rest data sent fits curt (Chip.arrive_settled settled) acted
    (Chip.arrive_settled after)

theorem writeStream_does (op : UInt8) (rest data : List UInt8) (waitForGpio : Bool)
    (settled : c.Settled) (after : d.Settled)
    (fits : (op :: rest ++ data).length ≤ RADIOLIB_STATIC_ARRAY_SIZE)
    (curt : Chip.Curt (op :: rest ++ data))
    (acted : c.act (op :: rest ++ data) = some d) :
    Does (κ := κ) (SPIwriteStream (op :: rest) data waitForGpio) c d RADIOLIB_ERR_NONE :=
  (SPItransferStream_does (op :: rest) true data waitForGpio (by simp) rfl fits curt
    (Chip.arrive_settled settled) acted (arriveIf_settled after waitForGpio)).map Prod.fst

/-! A register is addressed by the low half of its number. -/

theorem be16_address (reg : UInt32) :
    (be16 (reg >>> 8).toUInt8 reg.toUInt8).toNat = reg.toNat % 65536 := by
  have word : be16 (reg >>> 8).toUInt8 reg.toUInt8 = reg.toBitVec.setWidth 16 := by
    refine BitVec.eq_of_getLsbD_eq fun i inside => ?_
    simp [be16]
    grind
  rw [word, BitVec.toNat_setWidth]
  rfl

theorem SPIreadRegisterBurst_does {c : Chip} (settled : c.Settled) (reg : UInt32) (numBytes : Nat)
    (fits : numBytes ≤ 252) : Does (κ := κ) (SPIreadRegisterBurst reg numBytes) c c
      (tabulate numBytes fun i => (c.regs.get? (reg.toNat % 65536 + i)).getD 0) := by
  have read := readStream_does (κ := κ) Opcode.readRegister.byte
    [(reg >>> 8).toUInt8,reg.toUInt8] (List.replicate numBytes 0) settled settled rfl
    (by simp; omega) (by simp [Chip.Curt,arg]) (by simp [Chip.act,arg])
  have bytes : (tabulate (List.replicate numBytes (0 : UInt8)).length fun i =>
      c.dataByte (Opcode.readRegister.byte :: [(reg >>> 8).toUInt8,reg.toUInt8] ++
        List.replicate ((List.replicate numBytes (0 : UInt8)).length + 1) 0x00) (2 + 2 + i)) =
      tabulate numBytes fun i => (c.regs.get? (reg.toNat % 65536 + i)).getD 0 := by
    rw [List.length_replicate]
    refine tabulate_congr fun i _ => ?_
    simp [Chip.dataByte,arg,be16_address,show 4 ≤ 2 + 2 + i by omega]
  rw [← bytes]
  exact read.map Prod.snd

theorem SPIreadRegister_does {c : Chip} (settled : c.Settled) (reg : UInt32) :
    Does (κ := κ) (SPIreadRegister reg) c c ((c.regs.get? (reg.toNat % 65536)).getD 0) :=
  (SPIreadRegisterBurst_does settled reg 1 (by decide)).bind (.done _ _)

theorem SPIwriteRegisterBurst_does {c : Chip} (settled : c.Settled) (reg : UInt32)
    (data : List UInt8) (fits : data.length ≤ 253) : Does (κ := κ) (SPIwriteRegisterBurst reg data) c
      { c with regs := c.regs.overlay (reg.toNat % 65536) data } () := by
  have acted : c.act (registerCmd .writeRegister reg ++ data) =
      some { c with regs := c.regs.overlay (reg.toNat % 65536) data } := by
    simp [Chip.act,arg,registerCmd,be16_address]
  have after : Chip.Settled { c with regs := c.regs.overlay (reg.toNat % 65536) data } := settled
  exact (SPItransferStream_does _ true data true (by simp [registerCmd]) rfl
    (by simp [registerCmd]; omega) (by simp [Chip.Curt,arg,registerCmd])
    (Chip.arrive_settled settled) acted
    (Chip.arrive_settled after)).bind (.done _ _)

theorem SPIwriteRegister_does {c : Chip} (settled : c.Settled) (reg : UInt32) (data : UInt8) :
    Does (κ := κ) (SPIwriteRegister reg data) c
      { c with regs := c.regs.overlay (reg.toNat % 65536) [data] } () :=
  SPIwriteRegisterBurst_does settled reg [data] (by simp)

theorem SPIcheckStream_does {c : Chip} (settled : c.Settled) :
    Does (κ := κ) SPIcheckStream c c RADIOLIB_ERR_NONE :=
  (readStream_does Opcode.getStatus.byte [] [0] settled settled rfl (by simp)
    (by simp [Chip.Curt,arg]) (by simp [Chip.act,arg])).map Prod.fst

end Meshcore
