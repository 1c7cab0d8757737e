import Meshcore.Bringup
import Meshcore.Conversation

/-! What was set lasts. Nothing else that the driver does, whatever it is answered, and
nothing that reaches the chip from outside touches it, so that at any time the radio has
what it was asked for last. -/
namespace Meshcore

open Checked Flags Programs Program Runs

variable {κ : Type} {stuckIrqMs : UInt32} {c d : Chip} {s s' : SX126x}

/-- What packets are framed with. -/
structure Framing where
  preambleLength : BitVec 16
  invertIQ : UInt8

def SX126x.framing (s : SX126x) : Framing := ⟨s.preambleLengthLoRa,s.invertIQEnabled⟩

/-- A transfer that spares the settings; it frames packets as they have been framed. -/
def Spares (framing : Framing) (out : List UInt8) : Prop :=
  match opcode? (arg out 0) with
  | some .setRfFrequency | some .setTxParams | some .setModulationParams | some .calibrate => False
  | some .setPacketParams =>
    arg out 1 = hiByte framing.preambleLength ∧ arg out 2 = loByte framing.preambleLength
  | some .writeRegister =>
    (∀ a ∈ 0x0736 :: SX126x.markedRegs, a < (be16 (arg out 1) (arg out 2)).toNat ∨
      (be16 (arg out 1) (arg out 2)).toNat + (out.drop 3).length ≤ a) ∨
    (be16 (arg out 1) (arg out 2)).toNat = 0x0736 ∧
      ∃ value, out.drop 3 = [value] ∧ value &&& 0x04 = SX126x.iqBit framing.invertIQ
  | _ => True

namespace SX126x

theorem Tuned.spared (tuned : s.Tuned marks c) (spares : Spares s.framing out)
    (acted : c.act out = some d) : s.Tuned marks d := by
  unfold Spares at spares
  unfold Chip.act at acted
  cases op : opcode? (arg out 0) with
  | none =>
    rw [op] at acted
    obtain rfl := Option.some.inj acted
    exact tuned
  | some o =>
    rw [op] at acted spares
    cases o
    all_goals simp only at acted spares
    case setTx =>
      obtain ⟨_,_,rfl⟩ := Chip.startTx_eq_some.mp acted
      exact { tuned with }
    case writeRegister =>
      obtain rfl := Option.some.inj acted
      split
      · rcases spares with apart | ⟨place,value,sent,bit⟩
        · exact { tuned with
            iq := (congrArg (Option.map _) (get?_overlay_apart _ _
              (apart 0x0736 List.mem_cons_self))).trans tuned.iq
            marked := tuned.marked.of_kept fun a among =>
              get?_overlay_apart _ _ (apart a (List.mem_cons_of_mem _ among)) }
        · rw [place, sent]
          exact { tuned with
            iq := by
              rw [get?_overlay_or, if_pos (by omega)]
              exact congrArg some bit
            marked := tuned.marked.overlaid value (by decide) }
      · exact tuned
    case setPacketParams =>
      obtain rfl := Option.some.inj acted
      split
      · rw [spares.1, spares.2, framing]
        exact { tuned with preambleSyms := preambleSyms_put16 s.preambleLengthLoRa }
      · exact tuned
    all_goals
      obtain rfl := Option.some.inj acted
      first
        | exact { tuned with }
        | (split <;> exact { tuned with })

/-- The fields that the settings are kept in. -/
def tuning (c : Chip) : ℕ × ℚ × ℕ × UInt32 × UInt32 × Int8 × Block 0x1000 UInt8 :=
  (c.sf,c.bwKHz,c.cr,c.preambleSyms,c.freqHz,c.txPowerDbm,c.regs)

theorem Tuned.of_tuning (tuned : s.Tuned marks c) (same : tuning d = tuning c) :
    s.Tuned marks d := by
  obtain ⟨sf,bwKHz,cr,preambleSyms,freqHz,txPowerDbm,regs⟩ :
      d.sf = c.sf ∧ d.bwKHz = c.bwKHz ∧ d.cr = c.cr ∧ d.preambleSyms = c.preambleSyms ∧
        d.freqHz = c.freqHz ∧ d.txPowerDbm = c.txPowerDbm ∧ d.regs = c.regs := by
    simpa [tuning] using same
  exact {
    sf := sf.trans tuned.sf
    bandwidth := fun current => (tuned.bandwidth current).trans bwKHz.symm
    bwKHz := bwKHz ▸ tuned.bwKHz
    cr := fun rate => cr.trans (tuned.cr rate)
    preambleSyms := (congrArg UInt32.toNat preambleSyms).trans tuned.preambleSyms
    chosen := tuned.chosen
    freqHz := freqHz.trans tuned.freqHz
    txPowerDbm := txPowerDbm.trans tuned.txPowerDbm
    iq := regs ▸ tuned.iq
    marked := regs ▸ tuned.marked }

theorem Tuned.ticked (tuned : s.Tuned marks c) (ticked : c.tick nowMs = some d) :
    s.Tuned marks d :=
  tuned.of_tuning (Chip.tick_keeps tuning (fun _ _ => rfl) (fun _ => rfl) (fun _ _ _ _ => rfl) ticked)

/-- A call of the driver that spares the settings. -/
def Spared (framing : Framing) : DriverCall κ → Prop
  | .spiTransfer out => Spares framing out
  | _ => True

theorem Tuned.advanced {h h' : SimHal κ stuckIrqMs} (tuned : s.Tuned marks h.chip)
    (advanced : h.advanceUs us = some h') : s.Tuned marks h'.chip :=
  tuned.ticked (Radio.perform_eq_some (SimHal.advanceUs_ticks advanced).2).1

theorem Tuned.answered {h h' : SimHal κ stuckIrqMs} {call : DriverCall κ} {r : call.Reply}
    (spared : Spared s.framing call) (tuned : s.Tuned marks h.chip)
    (answered : SimHal.answer call h = some (h',r)) : s.Tuned marks h'.chip := by
  cases call with
  | spiTransfer out =>
    obtain ⟨late,waited,_,performed⟩ := SimHal.spiTransfer_performs answered
    have stepped := (Radio.perform_eq_some performed).1
    rw [Chip.step_spiTransfer] at stepped
    split at stepped
    case isTrue =>
      have same : late.radio.chip.state = h'.chip := Option.some.inj stepped
      rw [← same]
      exact tuned.advanced waited
    case isFalse => exact (tuned.advanced waited).spared spared stepped
  | digitalRead pin | millis | micros =>
    obtain ⟨rfl,_⟩ := Prod.mk.inj (Option.some.inj answered)
    exact tuned
  | attachInterrupt cb | detachInterrupt =>
    obtain ⟨rfl,_⟩ := Prod.mk.inj (Option.some.inj answered)
    exact tuned
  | delay ms | delayMicroseconds us | yield =>
    obtain ⟨late,waited,same⟩ := Option.map_eq_some_iff.mp answered
    obtain ⟨rfl,_⟩ := Prod.mk.inj same
    exact tuned.advanced waited

end SX126x

/-! The driver beside its setters. -/

namespace SX126x

variable {framing : Framing} {post : α → Prop}

/-- Whatever it reads, driver code spares the settings, and `post` holds of its result. -/
abbrev SparingTo (framing : Framing) (p : Hal κ α) (post : α → Prop) : Prop :=
  p.Confined (Spared framing) post

abbrev Sparing (framing : Framing) (p : Hal κ α) : Prop :=
  SparingTo framing p fun _ => True

theorem waitForGpioLow_spares : Sparing framing (κ := κ) waitForGpioLow := by
  refine Confined.bind (Confined.call trivial fun _ => trivial) fun start _ => ?_
  refine Confined.loop 20001 (Confined.bind (Confined.call trivial fun _ => trivial) fun level _ => ?_)
  split
  · exact fun _ _ => trivial
  · refine Confined.bind (Confined.call trivial fun _ => trivial) fun _ _ => ?_
    exact Confined.bind (Confined.call trivial fun _ => trivial) fun _ _ _ _ => trivial

/-- What does not fit in its array is not sent. -/
theorem staticArray_confined {may : DriverCall κ → Prop} (bytes : List UInt8) :
    (staticArray (κ := κ) bytes).Confined may fun sent => sent = bytes := by
  rw [staticArray]
  split
  · exact rfl
  · trivial

theorem transfer_spares (cmd : List UInt8) (write : Bool) (data : List UInt8) (waitForGpio : Bool)
    (spares : Spares framing
      (if write then cmd ++ data else cmd ++ List.replicate (data.length + 1) 0x00)) :
    Sparing framing (κ := κ) (SPItransferStream cmd write data waitForGpio) := by
  have before : Sparing framing (κ := κ) (beforeTransfer waitForGpio) := by
    rw [beforeTransfer]
    split
    · exact waitForGpioLow_spares
    · trivial
  have after : Sparing framing (κ := κ) (afterTransfer waitForGpio) := by
    rw [afterTransfer]
    split
    · exact Confined.bind (Confined.call trivial fun _ => trivial) fun _ _ => waitForGpioLow_spares
    · trivial
  refine (staticArray_confined _).bind fun _ sent => before.bind fun late _ => ?_
  split
  · trivial
  · subst sent
    refine Confined.bind (Confined.call spares fun _ => trivial) fun _ _ => ?_
    exact (staticArray_confined _).bind fun _ _ => after.bind fun _ _ => trivial

theorem map_spares {p : Hal κ α} (f : α → β) (spares : Sparing framing p) :
    Sparing framing (f <$> p) := by
  rw [← bind_pure_comp]
  exact Confined.bind spares fun _ _ => trivial

theorem asserted_spares {p : Hal κ Int16} {failed : Int16 → α} {rest : Hal κ α}
    (first : Sparing framing p) (fails : ∀ state, post (failed state))
    (then' : SparingTo framing rest post) :
    SparingTo framing (RADIOLIB_ASSERT p failed rest) post := by
  refine Confined.bind first fun state _ => ?_
  split
  · exact fails state
  · exact then'

theorem writeStream_spares (op : UInt8) (rest data : List UInt8) (waitForGpio : Bool)
    (spares : Spares framing (op :: rest ++ data)) :
    Sparing framing (κ := κ) (SPIwriteStream (op :: rest) data waitForGpio) :=
  map_spares _ (transfer_spares _ true data waitForGpio spares)

/-- The commands that settings are made with, and calibration, which resets the gain. -/
def settingCommands : List Opcode :=
  [.setRfFrequency,.setTxParams,.setModulationParams,.setPacketParams,.writeRegister,.calibrate]

theorem plain_spares {o : Opcode} (plain : o ∉ settingCommands) (rest : List UInt8) :
    Spares framing (o.byte :: rest) := by
  have op : opcode? (arg (o.byte :: rest) 0) = some o := opcode?_byte o
  rw [Spares, op]
  cases o <;> simp [settingCommands] at plain <;> trivial

theorem plainWrite_spares {o : Opcode} (plain : o ∉ settingCommands) (rest data : List UInt8)
    (waitForGpio : Bool) :
    Sparing framing (κ := κ) (SPIwriteStream (o.byte :: rest) data waitForGpio) :=
  writeStream_spares _ rest data waitForGpio (plain_spares plain _)

theorem plainRead_spares {o : Opcode} (plain : o ∉ settingCommands) (rest data : List UInt8) :
    Sparing framing (κ := κ) (SPIreadStream (o.byte :: rest) data) :=
  transfer_spares _ false data true (plain_spares plain _)

theorem SPIcheckStream_spares : Sparing framing (κ := κ) SPIcheckStream :=
  map_spares _ (transfer_spares _ false [0] true (plain_spares (o := .getStatus) (by decide) _))

theorem readRegister_spares (addr : UInt32) (numBytes : Nat) :
    Sparing framing (κ := κ) (readRegister addr numBytes) := by
  have burst : Sparing framing (κ := κ) (SPIreadRegisterBurst addr numBytes) :=
    map_spares _ (transfer_spares _ false _ true (plain_spares (o := .readRegister) (by decide) _))
  refine burst.bind fun _ _ => ?_
  exact SPIcheckStream_spares.bind fun _ _ => trivial

/-- A register that no setting is kept in, or that of the IQ setup with its bit as it was. -/
theorem writeRegister_spares {addr : UInt32} {value : UInt8}
    (spares : addr.toNat % 65536 ∉ 0x0736 :: markedRegs ∨
      addr.toNat % 65536 = 0x0736 ∧ value &&& 0x04 = iqBit framing.invertIQ) :
    Sparing framing (κ := κ) (writeRegister addr [value]) := by
  have sent : Spares framing (registerCmd .writeRegister addr ++ [value]) := by
    have op : opcode? (arg (registerCmd .writeRegister addr ++ [value]) 0) = some .writeRegister := rfl
    have place : (be16 (arg (registerCmd .writeRegister addr ++ [value]) 1)
        (arg (registerCmd .writeRegister addr ++ [value]) 2)).toNat = addr.toNat % 65536 := by
      simp [registerCmd,arg,be16_address]
    rw [Spares, op]
    simp only [place]
    rcases spares with apart | ⟨iq,bit⟩
    · refine .inl fun a among => ?_
      have other : a ≠ addr.toNat % 65536 := fun same => apart (same ▸ among)
      simp [registerCmd]
      omega
    · exact .inr ⟨iq,value,rfl,bit⟩
  have burst : Sparing framing (κ := κ) (SPIwriteRegisterBurst addr [value]) :=
    (transfer_spares _ true [value] true sent).bind fun _ _ => trivial
  exact burst.bind fun _ _ => trivial

theorem standby_spares (s : SX126x) : Sparing framing (κ := κ) s.standby := by
  refine (writeStream_spares 0x00 [] [] false trivial).bind fun _ _ => ?_
  exact plainWrite_spares (by decide) [] _ true

theorem getPacketType_spares : Sparing framing (κ := κ) getPacketType :=
  (plainRead_spares (by decide) [] [0xFF]).bind fun _ _ => trivial

theorem getIrqFlags_spares : Sparing framing (κ := κ) getIrqFlags :=
  (plainRead_spares (by decide) [] [0x00,0x00]).bind fun _ _ => trivial

theorem clearIrqStatus_spares : Sparing framing (κ := κ) clearIrqStatus :=
  plainWrite_spares (by decide) [] _ true

theorem setDioIrqParams_spares (irqMask dio1Mask : BitVec 16) :
    Sparing framing (κ := κ) (setDioIrqParams irqMask dio1Mask) :=
  plainWrite_spares (by decide) [] _ true

theorem setBufferBaseAddress_spares : Sparing framing (κ := κ) setBufferBaseAddress :=
  plainWrite_spares (by decide) [] _ true

theorem rewriteRegister_spares (addr : UInt32) (change : UInt8 → UInt8)
    (spares : addr.toNat % 65536 ∉ 0x0736 :: markedRegs ∨
      addr.toNat % 65536 = 0x0736 ∧ ∀ current, change current &&& 0x04 = iqBit framing.invertIQ) :
    Sparing framing (κ := κ) (do
      let (state,current) ← readRegister addr 1
      RADIOLIB_ASSERT (pure state) id (writeRegister addr [change (arg current 0)])) := by
  refine (readRegister_spares addr 1).bind fun _ _ => ?_
  refine asserted_spares trivial (fun _ => trivial) (writeRegister_spares ?_)
  exact spares.imp id fun iq => ⟨iq.1,iq.2 _⟩

/-- Whatever the register held, its bit is the driver's again. -/
theorem setPacketParams_spares (crcType payloadLen hdrType : UInt8) :
    Sparing framing (κ := κ) (setPacketParams framing.preambleLength crcType payloadLen hdrType
      framing.invertIQ) := by
  refine asserted_spares ?_ (fun _ => trivial) ?_
  · exact rewriteRegister_spares 0x0736 (iqConfigured framing.invertIQ)
      (.inr ⟨rfl,iqConfigured_bit framing.invertIQ⟩)
  · exact writeStream_spares _ [] _ true ⟨rfl,rfl⟩

theorem fixSensitivity_spares (s : SX126x) : Sparing framing (κ := κ) s.fixSensitivity := by
  refine (readRegister_spares 0x0889 1).bind fun _ _ => ?_
  refine asserted_spares trivial (fun _ => trivial) ?_
  exact getPacketType_spares.bind fun _ _ => writeRegister_spares (.inl (by decide))

theorem fixImplicitTimeout_spares (s : SX126x) :
    Sparing framing (κ := κ) s.fixImplicitTimeout := by
  rw [fixImplicitTimeout]
  split
  · trivial
  refine getPacketType_spares.bind fun _ _ => ?_
  split
  · trivial
  refine asserted_spares (writeRegister_spares (.inl (by decide))) (fun _ => trivial) ?_
  exact rewriteRegister_spares 0x0944 (· ||| 0x02) (.inl (by decide))

/-- What is asked for and the bandwidth's index are kept. -/
def Alike (s s' : SX126x) : Prop := s'.asked = s.asked ∧ s'.bandwidth = s.bandwidth

theorem Tuned.of_alike (tuned : s.Tuned marks c) (alike : Alike s s') : s'.Tuned marks c := by
  obtain ⟨same,bandwidth⟩ := alike
  obtain ⟨freqMHz,bandwidthKhz,spreadingFactor,codingRate,preambleLength,pwr,_,_,_,invertIQ,_⟩ :=
    (Asked.mk.injEq ..).mp same
  exact {
    sf := tuned.sf.trans (congrArg UInt8.toNat spreadingFactor.symm)
    bandwidth := bandwidth ▸ tuned.bandwidth
    bwKHz := bandwidthKhz ▸ tuned.bwKHz
    cr := codingRate ▸ tuned.cr
    preambleSyms := preambleLength ▸ tuned.preambleSyms
    chosen := by
      rw [bandwidthKhz, bandwidth]
      exact tuned.chosen
    freqHz := freqMHz ▸ tuned.freqHz
    txPowerDbm := pwr ▸ tuned.txPowerDbm
    iq := invertIQ ▸ tuned.iq
    marked := tuned.marked }

theorem startReceiveCommon_spares (s : SX126x) (timeout : UInt32) (irqFlags irqMask : BitVec 32) :
    Sparing s.framing (κ := κ) (s.startReceiveCommon timeout irqFlags irqMask) := by
  refine asserted_spares (standby_spares s) (fun _ => trivial) ?_
  refine asserted_spares (setDioIrqParams_spares _ _) (fun _ => trivial) ?_
  refine asserted_spares setBufferBaseAddress_spares (fun _ => trivial) ?_
  refine asserted_spares clearIrqStatus_spares (fun _ => trivial) ?_
  refine getPacketType_spares.bind fun _ _ => ?_
  split
  · exact setPacketParams_spares _ _ _
  · trivial

/-- No length is given along, so that the one of an implicit header stays. -/
theorem stageReceive_spares (s : SX126x) (timeout : UInt32) (irqFlags irqMask : BitVec 32) :
    SparingTo s.framing (κ := κ) (s.stageReceive timeout irqFlags irqMask 0)
      fun r => Alike s r.2 := by
  have implicit : ¬(s.headerType = RADIOLIB_SX126X_LORA_HEADER_IMPLICIT ∧ (0 : UInt64) ≠ 0) := by simp
  rw [stageReceive, if_neg implicit]
  exact asserted_spares (startReceiveCommon_spares s ..) (fun _ => ⟨rfl,rfl⟩) ⟨rfl,rfl⟩

theorem stageTransmit_spares (s : SX126x) (data : List UInt8) : SparingTo s.framing
    (κ := κ) (s.stageTransmit data) fun r => Alike s r.2 := by
  rw [stageTransmit]
  split
  · exact ⟨rfl,rfl⟩
  refine getPacketType_spares.bind fun _ _ => ?_
  split
  · refine asserted_spares (setPacketParams_spares _ _ _) (fun _ => ⟨rfl,rfl⟩) ?_
    refine asserted_spares (setDioIrqParams_spares _ _) (fun _ => ⟨rfl,rfl⟩) ?_
    refine asserted_spares setBufferBaseAddress_spares (fun _ => ⟨rfl,rfl⟩) ?_
    refine asserted_spares (plainWrite_spares (by decide) [0] data true) (fun _ => ⟨rfl,rfl⟩) ?_
    refine asserted_spares clearIrqStatus_spares (fun _ => ⟨rfl,rfl⟩) ?_
    exact asserted_spares (fixSensitivity_spares s) (fun _ => ⟨rfl,rfl⟩) ⟨rfl,rfl⟩
  · trivial

theorem waitForRampUp_spares : Sparing framing (κ := κ) waitForRampUp := by
  refine Confined.loop 20001 (Confined.bind (Confined.call trivial fun _ => trivial) fun _ _ => ?_)
  split
  · exact fun _ _ => trivial
  · exact Confined.bind (Confined.call trivial fun _ => trivial) fun _ _ _ _ => trivial

theorem launchMode_spares (s : SX126x) : SparingTo framing (κ := κ) s.launchMode
    fun r => Alike s r.2 := by
  rw [launchMode]
  split
  · exact (plainWrite_spares (o := .setRx) (by decide) [] _ true).bind fun _ _ => ⟨rfl,rfl⟩
  · refine asserted_spares (plainWrite_spares (o := .setTx) (by decide) [] _ true)
      (fun _ => ⟨rfl,rfl⟩) ?_
    exact waitForRampUp_spares.bind fun _ _ => ⟨rfl,rfl⟩
  · exact ⟨rfl,rfl⟩

theorem startTransmit_spares (s : SX126x) (data : List UInt8) : SparingTo s.framing
    (κ := κ) (s.startTransmit data) fun r => Alike s r.2 := by
  refine (stageTransmit_spares s data).bind fun (state,s') staged => ?_
  dsimp only
  split
  · exact staged
  · exact (launchMode_spares s').mono fun _ launched =>
      ⟨launched.1.trans staged.1,launched.2.trans staged.2⟩

theorem startReceive_spares (s : SX126x) : SparingTo s.framing (κ := κ) s.startReceive
    fun r => Alike s r.2 := by
  refine (stageReceive_spares s _ _ _).bind fun (state,s') staged => ?_
  dsimp only
  split
  · exact staged
  · exact (launchMode_spares s').mono fun _ launched =>
      ⟨launched.1.trans staged.1,launched.2.trans staged.2⟩

theorem finishTransmit_spares (s : SX126x) : Sparing framing (κ := κ) s.finishTransmit :=
  asserted_spares clearIrqStatus_spares (fun _ => trivial) (standby_spares s)

theorem finishReceive_spares (s : SX126x) : Sparing framing (κ := κ) s.finishReceive :=
  asserted_spares (standby_spares s) (fun _ => trivial)
    (asserted_spares (fixImplicitTimeout_spares s) (fun _ => trivial) clearIrqStatus_spares)

theorem getPacketLength_spares (s : SX126x) (offset : Bool) :
    Sparing framing (κ := κ) (s.getPacketLength offset) := by
  refine getPacketType_spares.bind fun _ _ => ?_
  split
  · trivial
  · exact (plainRead_spares (o := .getRxBufferStatus) (by decide) [] [0,0]).bind fun _ _ => trivial

theorem readData_spares (s : SX126x) (len : UInt64) :
    Sparing framing (κ := κ) (s.readData len) := by
  refine SPIcheckStream_spares.bind fun _ _ => getIrqFlags_spares.bind fun _ _ => ?_
  split
  · trivial
  refine asserted_spares trivial (fun _ => trivial) ?_
  refine (getPacketLength_spares s true).bind fun _ _ => ?_
  refine Confined.bind (plainRead_spares (o := .readBuffer) (by decide) _ _) fun _ _ => ?_
  refine asserted_spares trivial (fun _ => trivial) ?_
  refine clearIrqStatus_spares.bind fun _ _ => ?_
  split <;> trivial

theorem startChannelScan_spares (s : SX126x) :
    Sparing framing (κ := κ) s.startChannelScan := by
  refine getPacketType_spares.bind fun _ _ => ?_
  split
  · trivial
  refine asserted_spares (standby_spares s) (fun _ => trivial) ?_
  refine asserted_spares (setDioIrqParams_spares _ _) (fun _ => trivial) ?_
  refine asserted_spares clearIrqStatus_spares (fun _ => trivial) ?_
  refine asserted_spares (plainWrite_spares (o := .setCadParams) (by decide) [] _ true)
    (fun _ => trivial) ?_
  exact plainWrite_spares (o := .setCad) (by decide) [] [] true

theorem getChannelScanResult_spares : Sparing framing (κ := κ) getChannelScanResult := by
  refine getPacketType_spares.bind fun _ _ => ?_
  split
  · trivial
  refine getIrqFlags_spares.bind fun _ _ => ?_
  split
  · trivial
  split <;> trivial

theorem scanChannel_spares (s : SX126x) (turns : Nat) :
    Sparing framing (κ := κ) (s.scanChannel turns) := by
  refine asserted_spares (startChannelScan_spares s) (fun _ => trivial) ?_
  have waits : Sparing framing (κ := κ) (waitForIrq turns) := by
    refine Confined.loop turns (Confined.bind (Confined.call trivial fun _ => trivial) fun _ _ => ?_)
    split
    · exact fun _ _ => trivial
    · exact Confined.bind (Confined.call trivial fun _ => trivial) fun _ _ _ _ => trivial
  exact waits.bind fun _ _ => getChannelScanResult_spares

/-- What the firmware calls beside the setters. -/
inductive Operation where
  | standby
  | startTransmit (data : List UInt8)
  | finishTransmit
  | startReceive
  | readData (len : UInt64)
  | finishReceive
  | startChannelScan
  | getChannelScanResult
  | scanChannel (turns : Nat)

def operate (s : SX126x) : Operation → Hal κ SX126x
  | .standby => (fun _ => s) <$> s.standby
  | .startTransmit data => Prod.snd <$> s.startTransmit data
  | .finishTransmit => (fun _ => s) <$> s.finishTransmit
  | .startReceive => Prod.snd <$> s.startReceive
  | .readData len => (fun _ => s) <$> s.readData len
  | .finishReceive => (fun _ => s) <$> s.finishReceive
  | .startChannelScan => (fun _ => s) <$> s.startChannelScan
  | .getChannelScanResult => (fun _ => s) <$> getChannelScanResult
  | .scanChannel turns => (fun _ => s) <$> s.scanChannel turns

theorem operate_spares (s : SX126x) (operation : Operation) :
    SparingTo s.framing (κ := κ) (s.operate operation) (Alike s) := by
  have unchanged {α : Type} {p : Hal κ α} (spares : Sparing s.framing p) :
      SparingTo s.framing ((fun _ => s) <$> p) (Alike s) := by
    rw [← bind_pure_comp]
    exact spares.bind fun _ _ => ⟨rfl,rfl⟩
  have changed {p : Hal κ (Int16 × SX126x)}
      (spares : SparingTo s.framing p fun r => Alike s r.2) :
      SparingTo s.framing (Prod.snd <$> p) (Alike s) := by
    rw [← bind_pure_comp]
    exact spares.bind fun _ alike => alike
  cases operation with
  | standby => exact unchanged (standby_spares s)
  | startTransmit data => exact changed (startTransmit_spares s data)
  | finishTransmit => exact unchanged (finishTransmit_spares s)
  | startReceive => exact changed (startReceive_spares s)
  | readData len => exact unchanged (readData_spares s len)
  | finishReceive => exact unchanged (finishReceive_spares s)
  | startChannelScan => exact unchanged (startChannelScan_spares s)
  | getChannelScanResult => exact unchanged getChannelScanResult_spares
  | scanChannel turns => exact unchanged (scanChannel_spares s turns)

end SX126x

/-! The firmware and the engine take turns in any order. -/

/-- What can happen to a radio: its firmware calls or sets something, or the engine acts. -/
inductive Happening where
  | calls (operation : SX126x.Operation)
  | sets (setting : SX1262.Setting)
  | frame (payload : List UInt8)
  | channelBusy (on : Bool)
  | transmitFinished
  | tick (networkMs : UInt32)
  | drain

namespace SimHal

def happen (n : SX126x × SimHal κ stuckIrqMs) : Happening → Option (SX126x × SimHal κ stuckIrqMs)
  | .calls operation => do
    let (h,s) ← (n.1.operate operation).run answer n.2
    some (s,h)
  | .sets setting => do
    let (h,(_,s)) ← (SX1262.set n.1 setting).run answer n.2
    some (s,h)
  | .frame payload => do some (n.1,n.2.onRadio (← n.2.radio.pushFrame payload))
  | .channelBusy on => do some (n.1,n.2.onRadio (← n.2.radio.setChannelBusy on))
  | .transmitFinished => do some (n.1,n.2.onRadio (← n.2.radio.transmitFinished))
  | .tick networkMs => do some (n.1,← n.2.beginTick networkMs)
  | .drain => some (n.1,n.2.onRadio n.2.radio.drainTx)

end SimHal

/-- A setting is made with no frame about to be handed over. -/
def Happening.Calm (n : SX126x × SimHal κ stuckIrqMs) : Happening → Prop
  | .sets _ => n.2.chip.Settled
  | _ => True

instance (n : SX126x × SimHal κ stuckIrqMs) : (e : Happening) → Decidable (e.Calm n)
  | .sets _ => inferInstanceAs (Decidable (_ → _))
  | .calls _ | .frame _ | .channelBusy _ | .transmitFinished | .tick _ | .drain => isTrue trivial

def Happening.setting? : Happening → Option SX1262.Setting
  | .sets setting => some setting
  | _ => none

namespace SX126x

/-- What the engine does sets nothing. -/
theorem Tuned.performed {r r' : Radio stuckIrqMs} {op : ChipOp} {other : op ≠ .drain}
    (tuned : s.Tuned marks r.chip.state) (performed : r.perform op other = some r')
    (same : ∀ d, r.chip.state.step op = some d → tuning d = tuning r.chip.state) :
    s.Tuned marks r'.chip.state :=
  tuned.of_tuning (same _ (Radio.perform_eq_some performed).1)

variable {n n' : SX126x × SimHal κ stuckIrqMs}

theorem happen_keeps (e : Happening) (tuned : n.1.Tuned marks n.2.chip) (calm : e.Calm n)
    (happened : SimHal.happen n e = some n') :
    n'.1.Tuned (e.setting?.elim marks marks.after) n'.2.chip ∧
      n'.1.asked = e.setting?.elim n.1.asked n.1.asked.after := by
  obtain ⟨s,h⟩ := n
  cases e with
  | calls operation =>
    obtain ⟨⟨h',s'⟩,ran,same⟩ := Option.bind_eq_some_iff.mp happened
    obtain rfl := Option.some.inj same
    have kept := (operate_spares s operation).run (fun h => s.Tuned marks h.chip)
      (fun _ _ _ _ spared held => held.answered spared) tuned ran
    exact ⟨kept.1.of_alike kept.2,kept.2.1⟩
  | sets setting =>
    obtain ⟨⟨h',state,s'⟩,ran,same⟩ := Option.bind_eq_some_iff.mp happened
    obtain rfl := Option.some.inj same
    obtain ⟨s₁,d,does,_,kept,asked⟩ := s.set_keeps (κ := κ) calm tuned setting
    obtain ⟨h₁,ran₁,still,_⟩ := does.real (h := h) rfl
    obtain ⟨rfl,made⟩ := Prod.mk.inj (Option.some.inj (ran₁.symm.trans ran))
    obtain ⟨_,rfl⟩ := Prod.mk.inj made
    exact ⟨kept.of_still still,asked⟩
  | frame payload | channelBusy on =>
    simp only [SimHal.happen, Option.bind_eq_bind, Option.bind_eq_some_iff, Option.some.injEq]
      at happened
    obtain ⟨radio,performed,rfl⟩ := happened
    refine ⟨tuned.performed performed fun d stepped => ?_,rfl⟩
    obtain rfl := Option.some.inj stepped
    rfl
  | transmitFinished =>
    simp only [SimHal.happen, Option.bind_eq_bind, Option.bind_eq_some_iff, Option.some.injEq]
      at happened
    obtain ⟨radio,performed,rfl⟩ := happened
    refine ⟨tuned.performed performed fun d stepped => ?_,rfl⟩
    obtain rfl := Option.some.inj stepped
    rw [Chip.transmitFinished]
    split <;> rfl
  | tick networkMs =>
    obtain ⟨h',ticked,same⟩ := Option.bind_eq_some_iff.mp happened
    obtain rfl := Option.some.inj same
    exact ⟨tuned.ticked (Radio.perform_eq_some (SimHal.beginTick_ticks ticked).2).1,rfl⟩
  | drain =>
    obtain rfl := Option.some.inj happened
    exact ⟨tuned.of_tuning ((congrArg tuning h.radio.drainTx_state).trans rfl),rfl⟩

theorem settled_of_still (same : d.still = c.still) (settled : c.Settled) : d.Settled := by
  intro listens
  have mode : d.mode = c.mode := Chip.timeless_eq same Chip.mode fun _ => rfl
  have inbox : d.inbox = c.inbox := Chip.timeless_eq same Chip.inbox fun _ => rfl
  exact inbox.trans (settled (mode.symm.trans listens))

theorem sets_happens (setting : SX1262.Setting) (settled : n.2.chip.Settled)
    (tuned : n.1.Tuned marks n.2.chip) : ∃ n', SimHal.happen n (.sets setting) = some n' ∧
      n'.2.chip.Settled := by
  obtain ⟨s',d,does,settled',_⟩ := n.1.set_keeps (κ := κ) settled tuned setting
  obtain ⟨h',ran,still,_⟩ := does.real rfl
  refine ⟨(s',h'),?_,settled_of_still still settled'⟩
  simp [SimHal.happen,ran]

end SX126x
end Meshcore
