import Meshcore.Dispatch
import Meshcore.Library.Framing

/-! The loops of both programs over the bytes of their sockets. What a socket gives at a
call may be any part of what it holds, and what it holds may end anywhere; the messages
handled are those that are whole, in the order of the bytes. -/
namespace Meshcore

open Checked Framing Runs

variable {κ σ : Type} {stuckIrqMs : UInt32}

namespace NativeNode

/-- `for (;;)` of the native bridge, up to `fuel` messages. -/
def serve (give : Nat → Nat → Nat) (app : App κ σ) :
    Nat → InSock → NativeNode κ σ stuckIrqMs → Option (NativeNode κ σ stuckIrqMs)
  | 0, _, n => some n
  | fuel + 1, s, n =>
    match readMsg give s with
    | none => some n
    | some (m,s) => do
      let n ← n.handle app m
      if n.running then serve give app fuel s n else some n

theorem run_stopped (app : App κ σ) (n : NativeNode κ σ stuckIrqMs) (stopped : n.running = false)
    (ms : List Msg) : run (step app) n ms = some n := by
  induction ms with
  | nil => rfl
  | cons m ms ih => rw [run_cons, step, if_neg (by simp [stopped])]; exact ih

/-- However the bytes arrive, the messages handled are the whole ones. -/
theorem serve_eq (give : Nat → Nat → Nat) (app : App κ σ) (fuel : Nat) (s : InSock)
    (n : NativeNode κ σ stuckIrqMs) (running : n.running = true) :
    serve give app fuel s n = run (step app) n (whole readFrame fuel s.stream) := by
  induction fuel generalizing s n with
  | zero => rfl
  | succ fuel ih =>
    have parsed := readMsg_eq give s
    cases taken : readMsg give s with
    | none =>
      rw [taken, Option.map_none] at parsed
      rw [whole_of_none parsed.symm]
      simp [serve,taken]
    | some r =>
      rw [taken, Option.map_some] at parsed
      rw [whole_of_some parsed.symm, run_cons, step, if_pos running]
      simp only [serve, taken, Option.bind_eq_bind]
      refine congrArg (Option.bind (n.handle app r.1)) (funext fun next => ?_)
      split
      case isTrue goes => exact ih r.2 next goes
      case isFalse stops => exact (run_stopped app next (by simpa using stops) _).symm

/-- What the engine wrote is what is handled, message by message, though the socket splits
it anywhere and the stream ends in the middle of one. -/
theorem served_as_written (give : Nat → Nat → Nat) (app : App κ σ) (ms : List Msg)
    (short : ∀ m ∈ ms, m.payload.length < 65536) (cut : readFrame tail = none)
    (enough : ms.length ≤ fuel) (n : NativeNode κ σ stuckIrqMs) (running : n.running = true) :
    serve give app fuel { stream := ms.flatMap wireBytes ++ tail } n = run (step app) n ms := by
  have reads : ∀ m ∈ ms, ReadsBack readFrame wireBytes m := fun m member =>
    wireBytes_readsBack m (short m member)
  rw [serve_eq give app fuel _ n running, whole_written reads cut enough]

theorem served_as_written_cut :
    serve (fun _ _ => 1) App.inert 2
        { stream := [⟨kFrame,[0x2A]⟩,⟨kTxDone,[]⟩].flatMap wireBytes ++ [kTick,0x00] }
        { hal := { radio := .init 0 }, app := () } =
      run (step App.inert) { hal := { radio := .init 0 }, app := () }
        [⟨kFrame,[0x2A]⟩,⟨kTxDone,[]⟩] :=
  served_as_written (fun _ _ => 1) App.inert [⟨kFrame,[0x2A]⟩,⟨kTxDone,[]⟩] (by simp) rfl (by decide)
    { hal := { radio := .init 0 }, app := () } rfl

end NativeNode

def kCsAssert : UInt8 := 0x01
def kCsRelease : UInt8 := 0x02
def kXfer : UInt8 := 0x03
def kReadBusy : UInt8 := 0x04
def kReadIrq : UInt8 := 0x05
def kSetFem : UInt8 := 0x06

/-- One message off the emulator's bytes. -/
def readTag (bytes : List UInt8) : Option (QemuMsg × List UInt8) :=
  match bytes with
  | [] => none
  | tag :: rest =>
    if tag = kCsAssert then some (.csAssert,rest)
    else if tag = kCsRelease then some (.csRelease,rest)
    else if tag = kXfer then rest.head?.map fun out => (.xfer out,rest.tail)
    else if tag = kReadIrq then some (.readIrq,rest)
    else if tag = kSetFem then rest.head?.map fun level => (.setFem level,rest.tail)
    else if tag = kReadBusy then some (.readBusy,rest)
    else some (.unknown tag,rest)

namespace RadioServer

/-- What `serviceQemu` reads before it acts: a tag, and the byte that two of them carry. -/
def readQemu (give : Nat → Nat → Nat) (s : InSock) : Option (QemuMsg × InSock) := do
  let (s,read) ← readAll give s 1
  let tag ← read[0]?
  if tag = kCsAssert then some (.csAssert,s)
  else if tag = kCsRelease then some (.csRelease,s)
  else if tag = kXfer then
    let (s,out) ← readAll give s 1
    some (.xfer (← out[0]?),s)
  else if tag = kReadIrq then some (.readIrq,s)
  else if tag = kSetFem then
    let (s,level) ← readAll give s 1
    some (.setFem (← level[0]?),s)
  else if tag = kReadBusy then some (.readBusy,s)
  else some (.unknown tag,s)

/-- One byte is read or the stream is at its end. -/
theorem readByte_eq (give : Nat → Nat → Nat) (s : InSock) : ∃ calls,
    readAll give s 1 = s.stream.head?.map fun b => (⟨s.stream.tail,calls⟩,[b]) := by
  obtain ⟨calls,read⟩ := readAll_eq give s 1
  refine ⟨calls,read.trans ?_⟩
  cases s.stream <;> simp

theorem readQemu_eq (give : Nat → Nat → Nat) (s : InSock) :
    (readQemu give s).map (fun r => (r.1,r.2.stream)) = readTag s.stream := by
  obtain ⟨calls,first⟩ := readByte_eq give s
  rw [readQemu, first]
  cases bytes : s.stream with
  | nil => rfl
  | cons tag rest =>
    obtain ⟨calls',second⟩ := readByte_eq give ⟨rest,calls⟩
    simp only [List.head?_cons, List.tail_cons, Option.map_some, Option.bind_eq_bind,
      Option.bind_some, List.getElem?_cons_zero, second, readTag]
    split
    · rfl
    split
    · rfl
    split
    · cases rest <;> rfl
    split
    · rfl
    split
    · cases rest <;> rfl
    split
    all_goals rfl

/-- The `revents` of a turn. -/
structure Ready where
  qemu : Bool
  bridge : Bool

/-- `serviceQemu` on its socket, if it is ready; the loop is left where the stream ends. -/
def pollQemu (give : Nat → Nat → Nat) (ready : Bool) (s : RadioServer stuckIrqMs) (q : InSock) :
    Option (RadioServer stuckIrqMs × InSock) :=
  if ready then
    match readQemu give q with
    | none => some ({ s with running := false },q)
    | some (m,q) => do some (← s.serviceQemu m,q)
  else some (s,q)

def pollBridge (give : Nat → Nat → Nat) (ready : Bool) (s : RadioServer stuckIrqMs) (b : InSock) :
    Option (RadioServer stuckIrqMs × InSock) :=
  if ready then
    match readMsg give b with
    | none => some ({ s with running := false },b)
    | some (m,b) => do some (← s.serviceBridge m,b)
  else some (s,b)

/-- `for (;;)`, a turn for each answer of `pollSockets`. -/
def poll (give : Nat → Nat → Nat) : List Ready → RadioServer stuckIrqMs → InSock → InSock →
    Option (RadioServer stuckIrqMs)
  | [], s, _, _ => some s
  | r :: polls, s, q, b => do
    let (s,q) ← s.pollQemu give r.qemu q
    if ¬s.running then some s
    else
      let (s,b) ← s.pollBridge give r.bridge b
      if ¬s.running then some s else poll give polls s q b

def Event.qemu? : Event → Option QemuMsg
  | .qemu m => some m
  | .bridge _ => none

def Event.bridge? : Event → Option Msg
  | .qemu _ => none
  | .bridge m => some m

/-- The bridge has handled messages off the front of both streams, one at a time. -/
structure Handled (s s' : RadioServer stuckIrqMs) (events : List Event) (q q' b b' : List UInt8) :
    Prop where
  ran : run step s events = some s'
  qemu : Takes readTag q (events.filterMap Event.qemu?) q'
  bridge : Takes readFrame b (events.filterMap Event.bridge?) b'

theorem Handled.refl (s : RadioServer stuckIrqMs) (q b : List UInt8) : Handled s s [] q q b b :=
  ⟨rfl,.stop,.stop⟩

theorem Handled.trans {s s' s'' : RadioServer stuckIrqMs} (first : Handled s s' events q q' b b')
    (last : Handled s' s'' later q' q'' b' b'') : Handled s s'' (events ++ later) q q'' b b'' where
  ran := run_append_eq_some.mpr ⟨s',first.ran,last.ran⟩
  qemu := by rw [List.filterMap_append]; exact first.qemu.append last.qemu
  bridge := by rw [List.filterMap_append]; exact first.bridge.append last.bridge

/-- Half a turn handles a message or none, or the loop is left. -/
theorem pollQemu_handles {s s' : RadioServer stuckIrqMs} (running : s.running = true)
    (polled : s.pollQemu give ready q = some (s',q')) (b : List UInt8) :
    (∃ events, Handled s s' events q.stream q'.stream b b) ∨ s' = { s with running := false } := by
  have parsed := readQemu_eq give q
  rw [pollQemu] at polled
  split at polled
  case isFalse =>
    obtain ⟨rfl,rfl⟩ := Prod.mk.inj (Option.some.inj polled)
    exact .inl ⟨[],.refl _ _ _⟩
  split at polled
  next => exact .inr (Prod.mk.inj (Option.some.inj polled)).1.symm
  next m rest taken =>
    rw [taken, Option.map_some] at parsed
    obtain ⟨next,serviced,same⟩ := Option.bind_eq_some_iff.mp polled
    obtain ⟨rfl,rfl⟩ := Prod.mk.inj (Option.some.inj same)
    have stepped : s.step (.qemu m) = some next := by rw [step, if_pos running]; exact serviced
    exact .inl ⟨[.qemu m],run_cons_eq_some.mpr ⟨next,stepped,rfl⟩,.next parsed.symm .stop,.stop⟩

theorem pollBridge_handles {s s' : RadioServer stuckIrqMs} (running : s.running = true)
    (polled : s.pollBridge give ready b = some (s',b')) (q : List UInt8) :
    (∃ events, Handled s s' events q q b.stream b'.stream) ∨ s' = { s with running := false } := by
  have parsed := readMsg_eq give b
  rw [pollBridge] at polled
  split at polled
  case isFalse =>
    obtain ⟨rfl,rfl⟩ := Prod.mk.inj (Option.some.inj polled)
    exact .inl ⟨[],.refl _ _ _⟩
  split at polled
  next => exact .inr (Prod.mk.inj (Option.some.inj polled)).1.symm
  next m rest taken =>
    rw [taken, Option.map_some] at parsed
    obtain ⟨next,serviced,same⟩ := Option.bind_eq_some_iff.mp polled
    obtain ⟨rfl,rfl⟩ := Prod.mk.inj (Option.some.inj same)
    have stepped : s.step (.bridge m) = some next := by rw [step, if_pos running]; exact serviced
    exact .inl ⟨[.bridge m],run_cons_eq_some.mpr ⟨next,stepped,rfl⟩,.stop,.next parsed.symm .stop⟩

/-- Whatever `pollSockets` answers and however the bytes arrive, the loop handles some
interleaving of the two streams' messages. -/
theorem poll_handles (polls : List Ready) {s s' : RadioServer stuckIrqMs} (running : s.running = true)
    (polled : poll give polls s q b = some s') : ∃ events last q' b',
      Handled s last events q.stream q' b.stream b' ∧
        (s' = last ∨ s' = { last with running := false }) := by
  induction polls generalizing s q b with
  | nil => exact ⟨[],s,_,_,.refl s _ _,.inl (Option.some.inj polled).symm⟩
  | cons r polls ih =>
    obtain ⟨⟨s₁,q₁⟩,first,rest⟩ := Option.bind_eq_some_iff.mp polled
    rcases pollQemu_handles running first b.stream with ⟨events,handled⟩ | rfl
    case inr =>
      obtain rfl := Option.some.inj rest
      exact ⟨[],s,_,_,.refl s _ _,.inr rfl⟩
    dsimp only at rest
    split at rest
    case isTrue =>
      obtain rfl := Option.some.inj rest
      exact ⟨events,s₁,_,_,handled,.inl rfl⟩
    case isFalse goes =>
      have going : s₁.running = true := by simpa using goes
      obtain ⟨⟨s₂,b₂⟩,second,rest⟩ := Option.bind_eq_some_iff.mp rest
      rcases pollBridge_handles going second q₁.stream with ⟨more,handled'⟩ | rfl
      case inr =>
        obtain rfl := Option.some.inj rest
        exact ⟨events,s₁,_,_,handled,.inr rfl⟩
      dsimp only at rest
      split at rest
      case isTrue =>
        obtain rfl := Option.some.inj rest
        exact ⟨_,s₂,_,_,handled.trans handled',.inl rfl⟩
      case isFalse goes =>
        obtain ⟨later,last,q',b',all,same⟩ := ih (by simpa using goes) rest
        exact ⟨_,last,q',b',(handled.trans handled').trans all,same⟩

theorem run_stopped (s : RadioServer stuckIrqMs) (stopped : s.running = false)
    (events : List Event) : run step s events = some s := by
  induction events with
  | nil => rfl
  | cons e events ih =>
    have idle : s.step e = some s := by cases e <;> simp [step,stopped]
    rw [run_cons, idle]
    exact ih

end RadioServer

/-- What the emulator sends for a message. -/
def QemuMsg.bytes : QemuMsg → List UInt8
  | .csAssert => [kCsAssert]
  | .csRelease => [kCsRelease]
  | .xfer out => [kXfer,out]
  | .readBusy => [kReadBusy]
  | .readIrq => [kReadIrq]
  | .setFem level => [kSetFem,level]
  | .unknown tag => [tag]

def emulatorTags : List UInt8 := [kCsAssert,kCsRelease,kXfer,kReadBusy,kReadIrq,kSetFem]

/-- An unknown tag is none of the known ones. -/
def QemuMsg.Proper (m : QemuMsg) : Prop := ∀ tag, m = .unknown tag → tag ∉ emulatorTags

theorem QemuMsg.readsBack (m : QemuMsg) (proper : m.Proper) : ReadsBack readTag bytes m := by
  intro rest
  cases m with
  | unknown tag =>
    have other := proper tag rfl
    simp only [emulatorTags, List.mem_cons, List.not_mem_nil, or_false, not_or] at other
    simp [readTag,bytes,other]
  | _ => rfl

namespace RadioServer

/-- A turn in which just the event's socket is ready. -/
def Event.ready : Event → Ready
  | .qemu _ => ⟨true,false⟩
  | .bridge _ => ⟨false,true⟩

theorem pollQemu_ready (give : Nat → Nat → Nat) (s : RadioServer stuckIrqMs)
    (found : readTag q.stream = some (m,rest)) :
    ∃ q', q'.stream = rest ∧ pollQemu give true s q = (s.serviceQemu m).map (·,q') := by
  have parsed := readQemu_eq give q
  rw [found, Option.map_eq_some_iff] at parsed
  obtain ⟨⟨m',q'⟩,taken,same⟩ := parsed
  obtain ⟨rfl,rfl⟩ := Prod.mk.inj same
  refine ⟨q',rfl,?_⟩
  simp only [pollQemu, if_true, taken]
  cases s.serviceQemu m' <;> rfl

theorem pollBridge_ready (give : Nat → Nat → Nat) (s : RadioServer stuckIrqMs)
    (found : readFrame b.stream = some (m,rest)) :
    ∃ b', b'.stream = rest ∧ pollBridge give true s b = (s.serviceBridge m).map (·,b') := by
  have parsed := readMsg_eq give b
  rw [found, Option.map_eq_some_iff] at parsed
  obtain ⟨⟨m',b'⟩,taken,same⟩ := parsed
  obtain ⟨rfl,rfl⟩ := Prod.mk.inj same
  refine ⟨b',rfl,?_⟩
  simp only [pollBridge, if_true, taken]
  cases s.serviceBridge m' <;> rfl

/-- Any interleaving is what some answers of `pollSockets` lead to. -/
theorem poll_ready (give : Nat → Nat → Nat) (events : List Event) {s : RadioServer stuckIrqMs}
    (running : s.running = true)
    (qemu : Takes readTag q.stream (events.filterMap Event.qemu?) q')
    (bridge : Takes readFrame b.stream (events.filterMap Event.bridge?) b') :
    poll give (events.map Event.ready) s q b = run step s events := by
  induction events generalizing s q b with
  | nil => rfl
  | cons e events ih =>
    -- What the rest of the loop makes of the state the event leaves.
    have goes {q₁ b₁ : InSock} (qemu : Takes readTag q₁.stream (events.filterMap Event.qemu?) q')
        (bridge : Takes readFrame b₁.stream (events.filterMap Event.bridge?) b')
        (next : RadioServer stuckIrqMs) :
        (if ¬next.running then some next else poll give (events.map Event.ready) next q₁ b₁) =
          run step next events := by
      split
      case isTrue stops => exact (run_stopped next (by simpa using stops) events).symm
      case isFalse on => exact ih (by simpa using on) qemu bridge
    cases e with
    | qemu m =>
      cases qemu with
      | next found more =>
        obtain ⟨q₁,rfl,taken⟩ := pollQemu_ready give s found
        rw [List.map_cons, Event.ready, poll, taken, run_cons, step, if_pos running]
        cases s.serviceQemu m with
        | none => rfl
        | some next =>
          have idle : pollBridge give false next b = some (next,b) := if_neg (by simp)
          simp only [Option.map_some, Option.bind_eq_bind, Option.bind_some, idle]
          rw [← goes more bridge next]
          split <;> rfl
    | bridge m =>
      cases bridge with
      | next found more =>
        obtain ⟨b₁,rfl,taken⟩ := pollBridge_ready give s found
        have idle : pollQemu give false s q = some (s,q) := if_neg (by simp)
        have on : ¬¬s.running = true := by simp [running]
        rw [List.map_cons, Event.ready, poll, idle, run_cons, step, if_pos running]
        simp only [Option.bind_eq_bind, Option.bind_some, if_neg on, taken]
        cases s.serviceBridge m with
        | none => rfl
        | some next => exact goes qemu more next

/-- The loop over the two sockets, whatever `pollSockets` answers and however the bytes are
split, makes an interleaving of what was written to them, cut where the loop is left; and
there are answers for which it makes any that is asked for. -/
theorem poll_interleavings (give : Nat → Nat → Nat) (qs : List QemuMsg) (ms : List Msg)
    (proper : ∀ m ∈ qs, m.Proper) (short : ∀ m ∈ ms, m.payload.length < 65536)
    {s : RadioServer stuckIrqMs} (running : s.running = true) {q b : InSock}
    (emulator : q.stream = qs.flatMap QemuMsg.bytes) (engine : b.stream = ms.flatMap wireBytes) :
    (∀ polls s', poll give polls s q b = some s' → ∃ events last,
      events.filterMap Event.qemu? <+: qs ∧ events.filterMap Event.bridge? <+: ms ∧
        run step s events = some last ∧ (s' = last ∨ s' = { last with running := false })) ∧
    ∀ events : List Event, events.filterMap Event.qemu? <+: qs →
      events.filterMap Event.bridge? <+: ms →
        poll give (events.map Event.ready) s q b = run step s events := by
  have tags : ∀ m ∈ qs, ReadsBack readTag QemuMsg.bytes m := fun m member =>
    m.readsBack (proper m member)
  have frames : ∀ m ∈ ms, ReadsBack readFrame wireBytes m := fun m member =>
    wireBytes_readsBack m (short m member)
  rw [← List.append_nil (qs.flatMap _)] at emulator
  rw [← List.append_nil (ms.flatMap _)] at engine
  constructor
  · intro polls s' polled
    obtain ⟨events,last,q',b',handled,same⟩ := poll_handles polls running polled
    have read := handled.qemu
    have taken := handled.bridge
    rw [emulator] at read
    rw [engine] at taken
    exact ⟨events,last,read.isPrefix tags rfl,taken.isPrefix frames rfl,handled.ran,same⟩
  · intro events read taken
    obtain ⟨q',qemu⟩ := Takes.of_prefix [] tags read
    obtain ⟨b',bridge⟩ := Takes.of_prefix [] frames taken
    rw [← emulator] at qemu
    rw [← engine] at bridge
    exact poll_ready give events running qemu bridge

theorem poll_interleavings_tick :
    poll (fun _ _ => 1) [⟨true,false⟩,⟨false,true⟩,⟨true,false⟩] (.init 0)
        { stream := [.csAssert,.xfer 0x12].flatMap QemuMsg.bytes }
        { stream := [⟨kTick,[0,0,0,1]⟩].flatMap wireBytes } =
      run step (.init 0) [.qemu .csAssert,.bridge ⟨kTick,[0,0,0,1]⟩,.qemu (.xfer 0x12)] :=
  (poll_interleavings (fun _ _ => 1) [.csAssert,.xfer 0x12] [⟨kTick,[0,0,0,1]⟩]
    (by simp [QemuMsg.Proper]) (by simp) rfl rfl rfl).2
    [.qemu .csAssert,.bridge ⟨kTick,[0,0,0,1]⟩,.qemu (.xfer 0x12)]
    (List.prefix_refl _) (List.prefix_refl _)

/-! The emulator waits for the answer to each thing it asks, so there has to be just one. -/

def asks : QemuMsg → Bool
  | .xfer _ | .readIrq | .readBusy => true
  | _ => false

def clocks : QemuMsg → Bool
  | .xfer _ => true
  | _ => false

/-- What the emulator's side of the bridge has come to. -/
structure Tallied (s s' : RadioServer stuckIrqMs) (ms : List QemuMsg) : Prop where
  replies : s'.toQemu.length = s.toQemu.length + ms.countP asks
  bytes : s'.bytes = s.bytes + .ofNat (ms.countP clocks)
  transactions : s'.transactions = s.transactions + .ofNat (ms.count .csRelease)

theorem Tallied.of_side {s s' : RadioServer stuckIrqMs} (toQemu : s'.toQemu = s.toQemu)
    (bytes : s'.bytes = s.bytes) (transactions : s'.transactions = s.transactions) :
    Tallied s s' [] where
  replies := congrArg List.length toQemu
  bytes := bytes.trans (UInt64.add_zero _).symm
  transactions := transactions.trans (UInt64.add_zero _).symm

theorem Tallied.of_one {s s' : RadioServer stuckIrqMs}
    (replies : s'.toQemu.length = s.toQemu.length + if asks m then 1 else 0)
    (bytes : s'.bytes = if clocks m then s.bytes + 1 else s.bytes)
    (transactions : s'.transactions = if m = .csRelease then s.transactions + 1 else s.transactions) :
    Tallied s s' [m] where
  replies := by rw [replies, List.countP_singleton]
  bytes := by
    rw [bytes, List.countP_singleton]
    split
    · rfl
    · exact (UInt64.add_zero _).symm
  transactions := by
    simp only [transactions, List.count_singleton, beq_iff_eq]
    split
    · rfl
    · exact (UInt64.add_zero _).symm

theorem Tallied.trans {s s' s'' : RadioServer stuckIrqMs} (first : Tallied s s' ms)
    (last : Tallied s' s'' ns) : Tallied s s'' (ms ++ ns) where
  replies := by rw [last.replies, first.replies, List.countP_append, Nat.add_assoc]
  bytes := by rw [last.bytes, first.bytes, List.countP_append, UInt64.ofNat_add, UInt64.add_assoc]
  transactions := by
    rw [last.transactions, first.transactions, List.count_append, UInt64.ofNat_add, UInt64.add_assoc]

theorem serviceQemu_tallies {s s' : RadioServer stuckIrqMs} (serviced : s.serviceQemu m = some s')
    (on : s'.running = true) : Tallied s s' [m] := by
  cases m with
  | csAssert | csRelease | setFem level =>
    simp only [serviceQemu, Option.bind_eq_bind, Option.bind_eq_some_iff, Option.some.injEq] at serviced
    obtain ⟨_,_,rfl⟩ := serviced
    exact .of_one rfl rfl rfl
  | xfer out =>
    simp only [serviceQemu, Option.bind_eq_bind, Option.bind_eq_some_iff, Option.some.injEq] at serviced
    obtain ⟨_,_,_,_,rfl⟩ := serviced
    exact .of_one List.length_append rfl rfl
  | readIrq | readBusy =>
    obtain rfl := Option.some.inj serviced
    exact .of_one List.length_append rfl rfl
  | unknown tag =>
    obtain rfl := Option.some.inj serviced
    cases on

/-- What the engine sends leaves it alone. -/
theorem handleTick_tallies {s s' : RadioServer stuckIrqMs} (handled : s.handleTick payload = some s') :
    Tallied s s' [] := by
  obtain ⟨caught,radio,ticked,_,rfl⟩ := handleTick_ticks handled
  rw [tickTo_eq] at ticked
  have turns : Tallied s caught [] := by
    refine repeated_rel (Tallied · · []) (fun _ => .of_side rfl rfl rfl)
      (fun _ _ _ first last => first.trans last) ?_ _ ticked
    intro a b turn
    obtain ⟨_,_,rfl⟩ := tickOnce_ticks turn
    exact .of_side rfl rfl rfl
  exact turns.trans (.of_side rfl rfl rfl)

theorem serviceBridge_tallies {s s' : RadioServer stuckIrqMs}
    (serviced : s.serviceBridge m = some s') : Tallied s s' [] := by
  simp only [serviceBridge, Option.bind_eq_bind] at serviced
  split at serviced
  case isTrue =>
    obtain ⟨_,_,rfl⟩ := by simpa [Option.bind_eq_some_iff] using serviced
    exact .of_side rfl rfl rfl
  split at serviced
  case isTrue =>
    obtain ⟨_,_,rfl⟩ := by simpa [Option.bind_eq_some_iff] using serviced
    exact .of_side rfl rfl rfl
  split at serviced
  case isTrue =>
    split at serviced
    · exact Option.some.inj serviced ▸ .of_side rfl rfl rfl
    · obtain ⟨_,_,rfl⟩ := by simpa [Option.bind_eq_some_iff] using serviced
      exact .of_side rfl rfl rfl
  split at serviced
  case isTrue =>
    split at serviced
    · exact handleTick_tallies serviced
    · exact Option.some.inj serviced ▸ .of_side rfl rfl rfl
  case isFalse => exact Option.some.inj serviced ▸ .of_side rfl rfl rfl

/-- Whatever the two sides send and however it interleaves, each question of the emulator gets
one byte, and the counts of the trace are those of its messages. -/
theorem questions_answered (events : List Event) {s s' : RadioServer stuckIrqMs}
    (ran : run step s events = some s') (on : s'.running = true) :
    Tallied s s' (events.filterMap Event.qemu?) := by
  induction events generalizing s with
  | nil => exact Option.some.inj ran ▸ .of_side rfl rfl rfl
  | cons e events ih =>
    have started : s.running = true := by
      by_contra stopped
      rw [run_stopped s (by simpa using stopped)] at ran
      exact stopped (Option.some.inj ran ▸ on)
    obtain ⟨next,stepped,rest⟩ := run_cons_eq_some.mp ran
    have goes : next.running = true := by
      by_contra stopped
      rw [run_stopped next (by simpa using stopped)] at rest
      exact stopped (Option.some.inj rest ▸ on)
    cases e with
    | qemu m =>
      rw [step, if_pos started] at stepped
      exact (serviceQemu_tallies stepped goes).trans (ih rest)
    | bridge m =>
      rw [step, if_pos started] at stepped
      exact (serviceBridge_tallies stepped).trans (ih rest)

theorem questions_answered_irq :
    Tallied (.init 0) { init 0 with toQemu := [0,0] } [.readIrq,.readBusy] :=
  questions_answered [.qemu .readIrq,.bridge ⟨kConsoleIn,[0x0D]⟩,.qemu .readBusy] rfl rfl

end RadioServer
end Meshcore
