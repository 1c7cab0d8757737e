import Meshcore.Library.Waits
import Meshcore.Slicing

/-! The waits of the driver. Each turn of one yields, which takes the node's clock on by
fifty microseconds and ticks the chip; nothing the chip makes of it can keep the wait
from its end, short of a frame that runs over the chip's buffer. -/
namespace Meshcore

open Blocks Checked Runs Waits

variable {κ : Type} {stuckIrqMs : UInt32}

namespace SimHal

/-- `micros()` as a `RadioLibTime_t` of `w` bits. -/
def microsAs (w : ℕ) (h : SimHal κ stuckIrqMs) : BitVec w := h.micros.toBitVec.setWidth w

/-- `Module::waitForMicroseconds`: the turns it takes, and what it is left with. -/
def WaitForMicroseconds (h : SimHal κ stuckIrqMs) (start len : BitVec w) :
    ℕ → Option (SimHal κ stuckIrqMs) → Prop :=
  (Loop (fun g => decide (g.microsAs w - start < len)) yield · h ·)

/-- `while (digitalRead(pin))`, whatever is done until the pin is low. -/
def WaitForGpio (h : SimHal κ stuckIrqMs) (pin : UInt32)
    (body : SimHal κ stuckIrqMs → Option (SimHal κ stuckIrqMs)) :
    ℕ → Option (SimHal κ stuckIrqMs) → Prop :=
  (Loop (fun g => decide (g.digitalRead pin ≠ 0)) body · h ·)

theorem yield_localUs {h h' : SimHal κ stuckIrqMs} (yielded : h.yield = some h') :
    h'.localUs = h.localUs + 50 := (advanceUs_ticks yielded).1

/-- The narrower clock moves as the wide one. -/
theorem yield_microsAs (narrow : w ≤ 64) {h h' : SimHal κ stuckIrqMs}
    (yielded : h.yield = some h') : h'.microsAs w = h.microsAs w + BitVec.ofNat w 50 := by
  rw [microsAs, microsAs, micros, yield_localUs yielded, UInt64.toBitVec_add,
    BitVec.setWidth_add _ _ narrow]
  exact congrArg (_ + ·) (BitVec.setWidth_ofNat_of_le narrow 50)

theorem yield_chip (h : SimHal κ stuckIrqMs) :
    h.yield.map chip = h.chip.tick ((h.localUs + 50) / 1000) := by
  have ticked := h.radio.perform_state (.tick ((h.localUs + 50) / 1000)) nofun
  simp only [yield, advanceUs, Option.bind_eq_bind, Option.map_bind]
  refine Eq.trans ?_ ticked
  rw [Radio.tick]
  cases h.radio.perform (.tick ((h.localUs + 50) / 1000)) nofun <;> rfl

/-- To the chip, yields are so many ticks. -/
theorem repeated_yield_chip (turns : ℕ) (h : SimHal κ stuckIrqMs) : ∃ times : List UInt64,
    times.length = turns ∧ (repeated yield turns h).map chip = run Chip.tick h.chip times := by
  induction turns generalizing h with
  | zero => exact ⟨[],rfl,rfl⟩
  | succ turns ih =>
    have first := h.yield_chip
    cases yielded : h.yield with
    | none =>
      refine ⟨(h.localUs + 50) / 1000 :: List.replicate turns 0,by simp,?_⟩
      rw [yielded] at first
      rw [repeated, yielded, run_cons, ← first]
      rfl
    | some next =>
      obtain ⟨times,length,rest⟩ := ih next
      refine ⟨(h.localUs + 50) / 1000 :: times,by simp [length],?_⟩
      rw [yielded] at first
      rw [repeated, yielded, run_cons, ← first]
      exact rest

theorem repeated_yield_isSome (turns : ℕ) (h : SimHal κ stuckIrqMs) :
    (repeated yield turns h).isSome ↔
      (h.chip.mode = .rx → ∀ f ∈ h.chip.inbox.take turns, h.chip.FitsSlot f) := by
  obtain ⟨times,rfl,chip⟩ := repeated_yield_chip turns h
  rw [← Chip.run_tick_isSome, ← chip, Option.isSome_map]

/-- The clock after so many yields that it has not gone round. -/
theorem repeated_yield_localUs {h h' : SimHal κ stuckIrqMs} (turns : ℕ)
    (within : 50 * turns < UInt64.size) (ran : repeated yield turns h = some h') :
    (h'.localUs - h.localUs).toNat = 50 * turns := by
  have elapsed : h'.localUs.toBitVec - h.localUs.toBitVec = BitVec.ofNat 64 turns * 50#64 :=
    repeated_elapsed (fun h : SimHal κ stuckIrqMs => h.localUs.toBitVec)
      (fun _ _ yielded => congrArg UInt64.toBitVec (yield_localUs yielded)) turns ran
  have moved := congrArg BitVec.toNat elapsed
  rw [BitVec.toNat_mul, BitVec.toNat_ofNat, Nat.mod_mul_mod, Nat.mul_comm] at moved
  exact moved.trans (Nat.mod_eq_of_lt within)

section Wait

variable {w : ℕ} (narrow : w ≤ 64) (h : SimHal κ stuckIrqMs) (len : BitVec w)
  (room : len.toNat + 50 < 2 ^ w)
include narrow room

/-- A wait is the yields it takes to make up its length. -/
theorem wait_yields :
    (∃ turns out, h.WaitForMicroseconds (h.microsAs w) len turns out) ∧
      ∀ turns h', h.WaitForMicroseconds (h.microsAs w) len turns (some h') ↔
        turns = blocks 50 len.toNat ∧ repeated yield turns h = some h' := by
  have stride : (BitVec.ofNat w 50).toNat = 50 := Nat.mod_eq_of_lt (by omega)
  have fits : len.toNat + (BitVec.ofNat w 50).toNat ≤ 2 ^ w := stride.symm ▸ room.le
  have ends := wait_ends (microsAs w) (stride.symm ▸ Nat.succ_pos _) fits
    (fun _ _ yielded => yield_microsAs narrow yielded) h
  rw [stride] at ends
  cases ran : repeated yield (blocks 50 len.toNat) h with
  | some last =>
    rw [ran] at ends
    refine ⟨⟨_,_,ends⟩,fun turns h' => ⟨fun waited => ?_,?_⟩⟩
    · obtain ⟨rfl,same⟩ := loop_unique waited ends
      exact ⟨rfl,ran.trans same.symm⟩
    · rintro ⟨rfl,yields⟩
      obtain rfl := Option.some.inj (ran.symm.trans yields)
      exact ends
  | none =>
    rw [ran] at ends
    obtain ⟨turns,_,faults⟩ := ends
    refine ⟨⟨_,_,faults⟩,fun turns h' => ⟨fun waited => ?_,?_⟩⟩
    · cases (loop_unique waited faults).2
    · rintro ⟨rfl,yields⟩
      cases ran.symm.trans yields

end Wait

/-- The pin is low, so the wait is over before its first turn. -/
theorem wait_busy (h : SimHal κ stuckIrqMs)
    (body : SimHal κ stuckIrqMs → Option (SimHal κ stuckIrqMs)) :
    h.WaitForGpio kPinBusy body turns out ↔ turns = 0 ∧ out = some h := by
  have ready : h.WaitForGpio kPinBusy body 0 (some h) := .leave rfl
  constructor
  · exact fun waited => loop_unique waited ready
  · rintro ⟨rfl,rfl⟩
    exact ready

end SimHal

open SimHal

/-- Waiting always ends, after as many turns as make up the length and wherever in its
range the clock starts. Only a frame that does not fit where the firmware wants it can
come between; and nobody waits for the chip to be ready. -/
theorem waits_end {w : ℕ} (narrow : w ≤ 64) (h : SimHal κ stuckIrqMs) (len : BitVec w)
    (room : len.toNat + 50 < 2 ^ w) :
    (∃ turns out, h.WaitForMicroseconds (h.microsAs w) len turns out) ∧
      (∀ turns h', h.WaitForMicroseconds (h.microsAs w) len turns (some h') →
        turns = ⌈(len.toNat : ℚ) / 50⌉₊ ∧ (h'.localUs - h.localUs).toNat = 50 * turns ∧
          50 * turns < len.toNat + 50) ∧
      ((∃ turns h', h.WaitForMicroseconds (h.microsAs w) len turns (some h')) ↔
        (h.chip.mode = .rx →
          ∀ f ∈ h.chip.inbox.take ⌈(len.toNat : ℚ) / 50⌉₊, h.chip.FitsSlot f)) ∧
      ∀ body turns out, h.WaitForGpio kPinBusy body turns out ↔ turns = 0 ∧ out = some h := by
  obtain ⟨ends,leaves⟩ := wait_yields narrow h len room
  have ceil : ⌈(len.toNat : ℚ) / 50⌉₊ = blocks 50 len.toNat := by
    exact_mod_cast natCeil_eq_blocks (by decide : 0 < 50) len.toNat
  have short : 50 * blocks 50 len.toNat < len.toNat + 50 := by
    rw [blocks, Int.toNat_natCast]
    omega
  have wide : 2 ^ w ≤ UInt64.size := Nat.pow_le_pow_right (by decide) narrow
  refine ⟨ends,fun turns h' waited => ?_,?_,fun body turns out => h.wait_busy body⟩
  · obtain ⟨rfl,yields⟩ := (leaves turns h').mp waited
    exact ⟨ceil.symm,repeated_yield_localUs _ (by omega) yields,short⟩
  · rw [ceil, ← repeated_yield_isSome, Option.isSome_iff_exists]
    constructor
    · rintro ⟨turns,h',waited⟩
      obtain ⟨rfl,yields⟩ := (leaves turns h').mp waited
      exact ⟨h',yields⟩
    · rintro ⟨h',yields⟩
      exact ⟨_,h',(leaves _ h').mpr ⟨rfl,yields⟩⟩

/-- A wait over the wrap of a clock of 32 bits, in which a frame arrives on a busy channel
and the fault is due. -/
theorem waits_end_wrapped : ∃ h h' : SimHal Unit 1,
    h.radio.chip.log = [.spiTransfer [0x82,0,0,0],.frame [0x41],.channelBusy true] ∧
      h.localUs = 0xFFFFFFE2 ∧ h.WaitForMicroseconds (h.microsAs 32) 120#32 3 (some h') ∧
      (h'.localUs - h.localUs).toNat = 150 := by
  let ops : List ChipOp := [.spiTransfer [0x82,0,0,0],.frame [0x41],.channelBusy true]
  have fits : (run Chip.step (.new 1) ops).map (fun c =>
      decide (∀ f ∈ c.inbox, c.rxBase.toNat + min f.length 255 ≤ 256)) = some true := by
    decide +kernel
  obtain ⟨c,ran,fitting⟩ := Option.map_eq_some_iff.mp fits
  let h : SimHal Unit 1 := { radio := ⟨⟨c,ops,ran⟩,[],rfl⟩, localUs := 0xFFFFFFE2 }
  obtain ⟨_,counted,leaves,_⟩ := waits_end (by decide : 32 ≤ 64) h 120#32 (by decide)
  obtain ⟨turns,h',waited⟩ := leaves.mpr fun _ f queued =>
    of_decide_eq_true fitting f (List.mem_of_mem_take queued)
  obtain ⟨count,advanced,_⟩ := counted turns h' waited
  have three : ⌈((120#32).toNat : ℚ) / 50⌉₊ = 3 := by norm_num [Nat.ceil_eq_iff]
  obtain rfl : turns = 3 := count.trans three
  exact ⟨h,h',rfl,rfl,waited,advanced⟩

end Meshcore
