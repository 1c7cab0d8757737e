import Meshcore.Library.Tiles
import Meshcore.Library.Words
import Meshcore.NativeNode
import Meshcore.Registers

/-! The statistics of both bridges. Each fills an array of its own, one in a loop and
through lambdas and the other through pointers, and the two come out alike but for
their last byte; the engine can read every field back. -/
namespace Meshcore

open Checked Flags Runs Words

/-- `(uint32_t)(c.bwKHz() * 1000.0f + 0.5f)` -/
def bandwidthHz (kHz : ℚ) : UInt32 :=
  let hertz := kHz * 1000 + 1 / 2
  UInt32.ofInt (hertz.num.tdiv hertz.den)

/-- The stores of `put32`, a lambda in one bridge and a function in the other. -/
def put32 (start : Nat) (v : UInt32) : Nat × List UInt8 :=
  (start,[(v >>> 24).toUInt8,(v >>> 16).toUInt8,(v >>> 8).toUInt8,v.toUInt8])

def put16 (start : Nat) (v : BitVec 16) : Nat × List UInt8 :=
  (start,[⟨(v >>> 8).setWidth 8⟩,⟨v.setWidth 8⟩])

/-- A turn of the native bridge's loop over its counters. -/
def NativeNode.putCounter (st : List UInt32) (k : Nat) (sb : Block 37 UInt8) :
    Option (Block 37 UInt8) := do
  let v ← st[k]?
  sb.stores? [(k * 4 + 0,[(v >>> 24).toUInt8]),(k * 4 + 1,[(v >>> 16).toUInt8]),
    (k * 4 + 2,[(v >>> 8).toUInt8]),(k * 4 + 3,[v.toUInt8])]

/-- The payload of the native bridge; `sb` is what its array holds before. -/
def NativeNode.radioStats (c : Chip) (sb : Block 37 UInt8) : Option (List UInt8) := do
  let st := [c.irqReads,c.busyReads,c.busyMs,c.spuriousRaises]
  let sb ← forWhile (fun k => decide (k < 4)) (putCounter st) 4 0 sb
  let sb ← sb.stores?
    [(16,[c.regs ⟨kRegRxGain,Chip.kRegRxGain_lt⟩]),(17,[c.txPowerDbm.toUInt8]),
     (18,[if c.femEnabled then 1 else 0]),(19,[c.mode.toByte]),
     (20,[UInt8.ofNat c.sf]),(21,[UInt8.ofNat c.cr]),
     put32 22 c.freqHz,
     put32 26 (bandwidthHz c.bwKHz),
     put16 30 (c.preambleSyms.toBitVec.setWidth 16),
     put16 32 c.irqMask,
     put16 34 c.irq,
     (36,[0])]
  sb.slice? 0 37

/-- The payload of `writeRadioStats`. -/
def RadioServer.radioStats (c : Chip) (sb : Block 37 UInt8) : Option (List UInt8) := do
  let sb ← sb.stores?
    [put32 0 c.irqReads,put32 4 c.busyReads,put32 8 c.busyMs,put32 12 c.spuriousRaises,
     (16,[c.regs ⟨kRegRxGain,Chip.kRegRxGain_lt⟩]),(17,[c.txPowerDbm.toUInt8]),
     (18,[if c.femEnabled then 1 else 0]),(19,[c.mode.toByte]),
     (20,[UInt8.ofNat c.sf]),(21,[UInt8.ofNat c.cr]),
     put32 22 c.freqHz,
     put32 26 (bandwidthHz c.bwKHz),
     put16 30 (c.preambleSyms.toBitVec.setWidth 16),
     put16 32 c.irqMask,
     put16 34 c.irq,
     (36,[femByte c])]
  sb.slice? 0 37

theorem put16_bytes (start : Nat) (v : BitVec 16) : put16 start v = (start,[hiByte v,loByte v]) := by
  have low : v.setWidth 8 = (v &&& 0xFF).setWidth 8 := by
    apply BitVec.eq_of_toNat_eq
    have ones : BitVec.toNat (0xFF : BitVec 16) = 2 ^ 8 - 1 := rfl
    rw [BitVec.toNat_setWidth, BitVec.toNat_setWidth, BitVec.toNat_and, ones,
      Nat.and_two_pow_sub_one_eq_mod, Nat.mod_mod]
  rw [put16, hiByte, loByte, low]

theorem RadioServer.radioStats_eq (c : Chip) (sb : Block 37 UInt8) :
    radioStats c sb = some (statsPrefix c ++ [femByte c]) := by
  simp only [radioStats, put16_bytes]
  exact stores?_whole sb _ (by simp [Tiles,put32]) rfl

/-- The loop puts its counters end to end. -/
theorem NativeNode.putCounters_eq (st : List UInt32) (sb : Block 37 UInt8) (four : st.length = 4) :
    forWhile (fun k => decide (k < 4)) (putCounter st) 4 0 sb =
      some (sb.overlay 0 (st.flatMap fun v => (put32 0 v).2)) := by
  obtain ⟨k,final,ran,⟨bound,laid⟩,_,stop⟩ := forWhile_rule (fun k => decide (k < 4)) (putCounter st)
    (fun k s => k ≤ 4 ∧ s = sb.overlay 0 ((st.take k).flatMap fun v => (put32 0 v).2)) (by
      rintro k s ⟨_,rfl⟩ test
      have early : k < st.length := by rw [four]; exact of_decide_eq_true test
      have done : ((st.take k).flatMap fun v => (put32 0 v).2).length = k * 4 := by
        simp only [List.length_flatMap, put32, List.length_cons, List.length_nil, List.map_const',
          List.sum_replicate_nat, List.length_take]
        omega
      refine ⟨_,?_,by omega,rfl⟩
      rw [putCounter, List.getElem?_eq_getElem early, Option.bind_eq_bind, Option.bind_some,
        stores?_overlay _ _ _ _ (by simp [Tiles,done]) (by simp [done]; omega),
        List.take_add_one, List.getElem?_eq_getElem early, List.flatMap_append]
      rfl) 4 0 sb ⟨by omega,by simp⟩
  have last : k = 4 := by
    rcases stop with stop | stop
    · exact stop
    · have := of_decide_eq_false stop
      omega
  rw [ran, laid, last, ← four, List.take_length]

theorem NativeNode.radioStats_eq (c : Chip) (sb : Block 37 UInt8) :
    radioStats c sb = some (statsPrefix c ++ [0]) := by
  have counters := putCounters_eq [c.irqReads,c.busyReads,c.busyMs,c.spuriousRaises] sb rfl
  simp only [radioStats, put16_bytes, counters, Option.bind_eq_bind, Option.bind_some]
  rw [stores?_overlay _ _ _ _ (by simp [Tiles,put32]) (by simp [put32]), Option.bind_some]
  have length : (statsPrefix c ++ [0]).length = 37 := by simp [statsPrefix_length]
  have read := slice?_overlay sb 0 (statsPrefix c ++ [0]) (by omega)
  rw [length] at read
  exact (congrArg (fun bytes => (sb.overlay 0 bytes).slice? 0 37) rfl).trans read

theorem be32_toNat (a b c d : UInt8) :
    (be32 a b c d).toNat = ((a.toNat * 256 + b.toNat) * 256 + c.toNat) * 256 + d.toNat := by
  have nested : a.toNat <<< 24 ||| b.toNat <<< 16 ||| c.toNat <<< 8 ||| d.toNat =
      ((a.toNat <<< 8 ||| b.toNat) <<< 8 ||| c.toNat) <<< 8 ||| d.toNat := by
    simp only [Nat.shiftLeft_or_distrib, ← Nat.shiftLeft_add]
  rw [be32, UInt32.toNat_or, UInt32.toNat_or, UInt32.toNat_or, shiftLeft_byte a 24 (by decide),
    shiftLeft_byte b 16 (by decide), shiftLeft_byte c 8 (by decide), UInt8.toNat_toUInt32]
  refine Eq.trans nested ?_
  rw [shiftLeft_or_byte, shiftLeft_or_byte, shiftLeft_or_byte]

theorem be16_toNat (hi lo : UInt8) : (be16 hi lo).toNat = hi.toNat * 256 + lo.toNat := by
  have upper := hi.toNat_lt
  have wide (b : UInt8) : (b.toBitVec.setWidth 16).toNat = b.toNat := by
    have bound := b.toNat_lt
    rw [BitVec.toNat_setWidth]
    exact Nat.mod_eq_of_lt (by omega)
  rw [be16, BitVec.toNat_or, BitVec.toNat_shiftLeft, wide, wide, Nat.mod_eq_of_lt,
    shiftLeft_or_byte]
  rw [Nat.shiftLeft_eq]
  omega

/-- The four bytes of `put32` read as the word that was put. -/
theorem be32_put32 (v : UInt32) :
    be32 (v >>> 24).toUInt8 (v >>> 16).toUInt8 (v >>> 8).toUInt8 v.toUInt8 = v := by
  have bound := v.toNat_lt
  apply UInt32.toNat_inj.mp
  rw [be32_toNat, shiftRight_byte v 24 (by decide), shiftRight_byte v 16 (by decide),
    shiftRight_byte v 8 (by decide), UInt32.toNat_toUInt8]
  simp only [UInt32.reduceToNat]
  omega

/-! The engine's end: the fields of a chip that a report carries, and the bytes they
are read off. -/

/-- The datasheet's bandwidths, in kHz. -/
def bandwidths : List ℚ :=
  [781 / 100,1042 / 100,1563 / 100,2083 / 100,3125 / 100,4167 / 100,625 / 10,125,250,500]

structure Report where
  irqReads : UInt32
  busyReads : UInt32
  busyMs : UInt32
  spuriousRaises : UInt32
  rxGainReg : UInt8
  txPowerDbm : Int8
  femEnabled : Bool
  mode : Mode
  sf : Nat
  cr : Nat
  freqHz : UInt32
  bwKHz : ℚ
  preambleSyms : UInt32
  irqMask : BitVec 16
  irq : BitVec 16
  deriving DecidableEq

def Report.decode (p : List UInt8) : Option Report := do
  let word (i : Nat) : UInt32 := be32 (arg p i) (arg p (i + 1)) (arg p (i + 2)) (arg p (i + 3))
  let half (i : Nat) : BitVec 16 := be16 (arg p i) (arg p (i + 1))
  let mode ← Mode.ofByte? (arg p 19)
  some {
    irqReads := word 0, busyReads := word 4, busyMs := word 8, spuriousRaises := word 12
    rxGainReg := arg p 16, txPowerDbm := (arg p 17).toInt8, femEnabled := arg p 18 ≠ 0, mode
    sf := (arg p 20).toNat, cr := (arg p 21).toNat
    freqHz := word 22, bwKHz := ((word 26).toNat : ℚ) / 1000
    preambleSyms := UInt32.ofNat (half 30).toNat, irqMask := half 32, irq := half 34 }

namespace Chip

def report (c : Chip) : Report where
  irqReads := c.irqReads
  busyReads := c.busyReads
  busyMs := c.busyMs
  spuriousRaises := c.spuriousRaises
  rxGainReg := c.regs ⟨kRegRxGain,kRegRxGain_lt⟩
  txPowerDbm := c.txPowerDbm
  femEnabled := c.femEnabled
  mode := c.mode
  sf := c.sf
  cr := c.cr
  freqHz := c.freqHz
  bwKHz := c.bwKHz
  preambleSyms := c.preambleSyms
  irqMask := c.irqMask
  irq := c.irq

/-- What a command can leave in the fields that are wider than their bytes. -/
structure Reportable (c : Chip) : Prop where
  sf : c.sf < 256
  bwKHz : c.bwKHz ∈ bandwidths
  preambleSyms : c.preambleSyms.toNat < 65536

def modem (c : Chip) : Nat × ℚ × UInt32 := (c.sf,c.bwKHz,c.preambleSyms)

theorem core_modem {c d : Chip} (same : c.core = d.core) : c.modem = d.modem := by
  have := congrArg modem same
  exact this

theorem Reportable.of_modem {c d : Chip} (reportable : c.Reportable) (same : d.modem = c.modem) :
    d.Reportable := by
  obtain ⟨sf,bwKHz,preambleSyms⟩ := reportable
  simp only [modem, Prod.mk.injEq] at same
  constructor <;> simp only [same] <;> assumption

theorem bandwidth_mem {current : ℚ} (listed : current ∈ bandwidths) (index : UInt8) :
    bandwidth current index ∈ bandwidths := by
  unfold bandwidth
  split <;> first | exact listed | simp [bandwidths]

theorem act_reportable {c d : Chip} (reportable : c.Reportable) (acted : c.act cmd = some d) :
    d.Reportable := by
  obtain ⟨sf,bwKHz,preambleSyms⟩ := reportable
  rw [act] at acted
  cases op : opcode? (arg cmd 0) with
  | none =>
    obtain rfl : c = d := by simpa [op] using acted
    exact ⟨sf,bwKHz,preambleSyms⟩
  | some o =>
    cases o
    all_goals simp only [op] at acted
    case setTx =>
      obtain ⟨_,_,rfl⟩ := startTx_eq_some.mp acted
      exact ⟨sf,bwKHz,preambleSyms⟩
    all_goals obtain rfl := Option.some.inj acted
    case setModulationParams =>
      split
      · exact ⟨(arg cmd 1).toNat_lt,bandwidth_mem bwKHz _,preambleSyms⟩
      · exact ⟨sf,bwKHz,preambleSyms⟩
    case setPacketParams =>
      split
      · refine ⟨sf,bwKHz,?_⟩
        have hi := (arg cmd 1).toNat_lt
        have lo := (arg cmd 2).toNat_lt
        rw [applyPacketParams, UInt32.toNat_or, shiftLeft_byte _ 8 (by decide),
          UInt8.toNat_toUInt32]
        refine lt_of_eq_of_lt (shiftLeft_or_byte _ _) ?_
        omega
      · exact ⟨sf,bwKHz,preambleSyms⟩
    -- No other command writes any of the three.
    all_goals first
      | exact ⟨sf,bwKHz,preambleSyms⟩
      | (split <;> exact ⟨sf,bwKHz,preambleSyms⟩)

theorem step_reportable {c next : Chip} (reportable : c.Reportable)
    (stepped : c.step op = some next) : next.Reportable := by
  rcases step_event stepped with ⟨_,core⟩ | ⟨e,d,_,applied,core⟩
  · exact reportable.of_modem (core_modem core)
  refine Reportable.of_modem ?_ (core_modem core)
  cases e with
  | command cmd => exact act_reportable reportable applied
  | tick nowMs =>
    exact reportable.of_modem (tick_keeps modem (fun _ _ => rfl) (fun _ => rfl)
      (fun _ _ _ _ => rfl) applied)
  | txDone =>
    obtain rfl := Option.some.inj applied
    exact reportable.of_modem (transmitFinished_keeps modem (fun _ _ _ => rfl) c)
  | _ =>
    obtain rfl := Option.some.inj applied
    exact reportable.of_modem rfl

theorem run_reportable {stuckIrqMs : UInt32} {c : Chip}
    (ran : run step (new stuckIrqMs) ops = some c) : c.Reportable :=
  run_invariant Reportable (fun _ _ _ reportable stepped => step_reportable reportable stepped) ran
    ⟨by simp [new],by simp [new,bandwidths],by simp [new]⟩

/-- Whole hertz tell the bandwidths of the table apart. -/
theorem bandwidthHz_exact : ∀ kHz ∈ bandwidths, ((bandwidthHz kHz).toNat : ℚ) / 1000 = kHz := by
  decide +kernel

theorem decode_statsPrefix {c : Chip} (reportable : c.Reportable) (fits : c.cr < 256) :
    Report.decode (statsPrefix c) = some c.report := by
  have sf : (UInt8.ofNat c.sf).toNat = c.sf := UInt8.toNat_ofNat_of_lt' reportable.sf
  have cr : (UInt8.ofNat c.cr).toNat = c.cr := UInt8.toNat_ofNat_of_lt' fits
  have bwKHz := bandwidthHz_exact c.bwKHz reportable.bwKHz
  have fem : decide ((if c.femEnabled then (1 : UInt8) else 0) ≠ 0) = c.femEnabled := by
    cases c.femEnabled <;> rfl
  have preambleSyms : UInt32.ofNat (c.preambleSyms.toBitVec.setWidth 16).toNat = c.preambleSyms := by
    have small : c.preambleSyms.toBitVec.toNat < 2 ^ 16 := reportable.preambleSyms
    rw [BitVec.toNat_setWidth, Nat.mod_eq_of_lt small]
    exact UInt32.ofNat_toNat
  simp only [bandwidthHz] at bwKHz
  simp only [Report.decode, statsPrefix, arg, List.cons_append, List.nil_append, Nat.reduceAdd,
    List.getD_cons_zero, List.getD_cons_succ, be32_put32, be16_bytes, Mode.ofByte?_toByte, sf, cr,
    bwKHz, fem, preambleSyms, Option.bind_eq_bind, Option.bind_some, Int8.toInt8_toUInt8, report]

/-- The payloads of the bridges agree on their first thirty-six bytes for every state a chip
can reach. The engine reads its report back off them when the coding rate fits a byte, so
states that differ in it are told apart. -/
theorem reports_agree {stuckIrqMs : UInt32} {ops : List ChipOp} {c : Chip}
    (ran : run step (new stuckIrqMs) ops = some c) (sb sb' : Block 37 UInt8) :
    ∃ native server, NativeNode.radioStats c sb = some native ∧
      RadioServer.radioStats c sb' = some server ∧ native.length = 37 ∧ server.length = 37 ∧
      native.take 36 = server.take 36 ∧
      (c.cr < 256 → Report.decode (native.take 36) = some c.report) ∧
      (native.take 30).drop 26 = (put32 26 (bandwidthHz c.bwKHz)).2 ∧
      c.bwKHz ∈ bandwidths ∧ (bandwidths.map bandwidthHz).Nodup ∧
      ∀ (stuckIrqMs' : UInt32) (ops' : List ChipOp) (d : Chip) (sb'' : Block 37 UInt8)
        (other : List UInt8), run step (new stuckIrqMs') ops' = some d → c.cr < 256 → d.cr < 256 →
        NativeNode.radioStats d sb'' = some other → c.report ≠ d.report →
        native.take 36 ≠ other.take 36 := by
  have reportable := run_reportable ran
  have whole (b : UInt8) : (statsPrefix c ++ [b]).take 36 = statsPrefix c := by
    rw [List.take_left' (statsPrefix_length c)]
  refine ⟨_,_,NativeNode.radioStats_eq c sb,RadioServer.radioStats_eq c sb',rfl,rfl,?_,?_,rfl,
    reportable.bwKHz,by decide +kernel,?_⟩
  · rw [whole, whole]
  · rw [whole]
    exact decode_statsPrefix reportable
  · intro _ _ d sb'' other ran' fits fits' written differ same
    rw [NativeNode.radioStats_eq] at written
    obtain rfl := Option.some.inj written
    rw [whole, List.take_left' (statsPrefix_length d)] at same
    have decoded := decode_statsPrefix (run_reportable ran') fits'
    rw [← same, decode_statsPrefix reportable fits] at decoded
    exact differ (Option.some.inj decoded)

theorem reports_agree_tuned : ∃ c native,
    run step (new 0) [.spiTransfer [0x8B,12,0x09,0x04],.setFem true] = some c ∧ c.cr = 8 ∧
      NativeNode.radioStats c (fun _ => 0) = some native ∧
      Report.decode (native.take 36) = some c.report := by
  have ran : run step (new 0) [.spiTransfer [0x8B,12,0x09,0x04],.setFem true] = some _ := rfl
  obtain ⟨native,_,written,_,_,_,_,decoded,_⟩ := reports_agree ran (fun _ => 0) (fun _ => 0)
  exact ⟨_,native,ran,rfl,written,decoded (by decide)⟩

end Chip

variable {κ σ : Type} {stuckIrqMs : UInt32}

/-- What the handlers of a tick send is these payloads. -/
theorem NativeNode.writeRadioStats_sends (n : NativeNode κ σ stuckIrqMs) (sb : Block 37 UInt8) :
    ∃ payload : { p : List UInt8 // p.length = 37 }, radioStats n.chip sb = some payload.val ∧
      n.writeRadioStats = n.onRadio (n.radio.send (.radioStats payload) rfl) :=
  ⟨_,radioStats_eq n.chip sb,rfl⟩

theorem RadioServer.writeRadioStats_sends (s : RadioServer stuckIrqMs) (sb : Block 37 UInt8) :
    ∃ payload : { p : List UInt8 // p.length = 37 }, radioStats s.chip sb = some payload.val ∧
      s.writeRadioStats = { s with radio := s.radio.send (.radioStats payload) rfl } :=
  ⟨_,radioStats_eq s.chip sb,rfl⟩

end Meshcore
