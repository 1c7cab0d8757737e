import Meshcore.Bounds

/-! What a frame that does not fit is copied over. The members behind the data buffer
lie there in the order of the class, the words of sixteen bits aligned and low byte
first, and the longest frame ends among the registers. -/
namespace Meshcore

open Checked Flags Runs

namespace Chip

/-- Byte `i` from the start of the buffer, once `f` has been copied in where it was `old`. -/
def copied (c : Chip) (f : List UInt8) (i : Nat) (old : UInt8) : UInt8 :=
  if c.rxBase.toNat ≤ i then ((f.take 255)[i - c.rxBase.toNat]?).getD old else old

/-- `deliverPending`, its copy carried on past the buffer. A byte of padding separates
`rxLen_` from `irq_`; a byte that is none of the modes leaves no chip. -/
def deliverPast (c : Chip) : Option Chip :=
  match c.inbox with
  | [] => some c
  | f :: rest => do
    let rxLen := UInt8.ofNat (if f.length > 255 then 255 else f.length)
    let irq := be16 (c.copied f 259 (hiByte c.irq)) (c.copied f 258 (loByte c.irq))
    let mode ← Mode.ofByte? (c.copied f 262 c.mode.toByte)
    some { c with
      buffer := fun i => c.copied f i (c.buffer i)
      rxLen := c.copied f 256 rxLen
      irq := irq ||| kIrqRxDone |||
        (kIrqPreambleDetected ||| kIrqHeaderValid ||| kIrqSyncWordValid)
      irqMask := be16 (c.copied f 261 (hiByte c.irqMask)) (c.copied f 260 (loByte c.irqMask))
      mode
      txBase := c.copied f 263 c.txBase
      rxBase := c.copied f 264 c.rxBase
      txLenForSend := c.copied f 265 c.txLenForSend
      regs := fun i => c.copied f (266 + i) (c.regs i)
      inbox := rest }

def tickPast (c : Chip) (nowMs : UInt64) : Option Chip := do
  let c := (c.accrueBusy nowMs).injectFault
  let c ← if c.mode = .rx then c.deliverPast else some c
  if c.mode ≠ .rx then some c else some c.detect

/-- A step whose deliveries may overrun the buffer. -/
def stepPast (c : Chip) : ChipOp → Option Chip
  | .tick nowMs => c.tickPast nowMs
  | op => c.step op

/-- A frame that fits reaches nothing behind the buffer. -/
theorem copied_behind {c : Chip} (fits : c.rxBase.toNat + min f.length 255 ≤ 256) (behind : 256 ≤ i)
    (old : UInt8) : c.copied f i old = old := by
  have past : (f.take 255).length ≤ i - c.rxBase.toNat := by
    rw [List.length_take]
    omega
  rw [copied, List.getElem?_eq_none past, Option.getD_none, ite_self]

theorem deliverPast_eq {c : Chip}
    (fits : ∀ f ∈ c.inbox.head?, c.rxBase.toNat + min f.length 255 ≤ 256) :
    c.deliverPast = c.deliverPending := by
  cases waiting : c.inbox with
  | nil => rw [deliverPending_nil waiting, deliverPast, waiting]
  | cons f rest =>
    have room : c.rxBase.toNat + min f.length 255 ≤ 256 := fits f (by rw [waiting]; rfl)
    have short : f.take (min f.length 255) = f.take 255 := by
      rw [List.take_eq_take_iff]
      omega
    have buffer : (fun i : Fin 256 => c.copied f i (c.buffer i)) =
        c.buffer.overlay c.rxBase.toNat (f.take 255) := by
      funext i
      rw [copied, Block.overlay]
      by_cases reached : c.rxBase.toNat ≤ i
      · rw [if_pos reached]
        by_cases inside : i - c.rxBase.toNat < (f.take 255).length
        · rw [List.getElem?_eq_getElem inside, dif_pos ⟨reached,inside⟩]
          rfl
        · rw [List.getElem?_eq_none (Nat.not_lt.mp inside), dif_neg fun both => inside both.2]
          rfl
      · rw [if_neg reached, dif_neg fun both => reached both.1]
    have regs : (fun i : Fin 0x1000 => c.copied f (266 + i) (c.regs i)) = c.regs :=
      funext fun i => copied_behind room (by omega) _
    rw [deliverPending_cons waiting, memcpy?_of_le _ _ room (by omega), short, ← buffer, deliverPast,
      waiting]
    simp [copied_behind room,regs,Mode.ofByte?_toByte,be16_bytes,received]

/-- Without an overrun nothing differs from the checked step. -/
theorem stepPast_eq {c : Chip} (inBounds : c.InBounds op) : c.stepPast op = c.step op := by
  cases op with
  | tick nowMs =>
    have kept : (c.accrueBusy nowMs).injectFault.inbox = c.inbox ∧
        (c.accrueBusy nowMs).injectFault.rxBase = c.rxBase := by
      rw [injectFault]
      split <;> exact ⟨rfl,rfl⟩
    rw [stepPast, tickPast, step, tick]
    split
    case isTrue hears =>
      rw [injectFault_mode] at hears
      rw [deliverPast_eq]
      rw [kept.1, kept.2]
      exact inBounds hears
    case isFalse => rfl
  | _ => rfl

/-- Every run of the checked step is one of these. -/
theorem run_past {c d : Chip} (ran : run step c ops = some d) : run stepPast c ops = some d := by
  induction ops generalizing c with
  | nil => exact ran
  | cons op rest ih =>
    obtain ⟨next,stepped,later⟩ := run_cons_eq_some.mp ran
    have inBounds : c.InBounds op := (step_inBounds c op).mp (by rw [stepped]; rfl)
    exact run_cons_eq_some.mpr ⟨next,(stepPast_eq inBounds).trans stepped,ih later⟩

end Chip
end Meshcore
