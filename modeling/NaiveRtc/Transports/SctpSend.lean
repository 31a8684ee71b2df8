import NaiveRtc.DataChannel.BufferedAmount

/-!
# Messages sent over SCTP

A data channel (`rtc/data_channel/data_channel_message.cpp`) over the transport
(`rtc/transports/sctp_transport.cpp`) over the library.  A message waits in the queue of the
channel, or it is the one that the transport has sent a part of.

* `SctpSender` — the part of `SctpTransport` that sends, over any library: `trySend`,
  `sendInternal`, `flushPendingMessage`, `doFlush`.
* `Usrsctp` — what the library will answer, and what it has accepted.
* `Accounts` — the bytes accepted, left of the open message and queued are the bytes sent.
* `accepted_prefix` — **what is accepted is always a prefix of what was sent, and the rest is still
  on its way.**
-/

namespace NaiveRtc.Transports

open DataChannel (ChannelSender)

/-! ## The transport -/

/-- The answer to a call of `usrsctp_sendv`: a number of bytes, or an error. -/
inductive Answer
  | accepted (size : Nat)
  | wouldBlock
  | again
  deriving DecidableEq

/-- What comes with the bytes: `sctp_sendv_spa`. -/
structure SendInfo where
  sid : UInt16
  ppid : UInt32
  unordered : Bool
  /-- `SCTP_PR_SCTP_RTX` and its value, or none for `SCTP_PR_SCTP_NONE`. -/
  prRtx : Option UInt16
  deriving DecidableEq

/-- A part of a message that was accepted. -/
structure AcceptedChunk where
  info : SendInfo
  data : List UInt8
  deriving DecidableEq

/-- The part of `SctpTransport` that sends, over a library with states in `L`. -/
structure SctpSender (L : Type*) where
  /-- There is a socket, and the state is `CONNECTED`. -/
  connected : Bool := false
  partialOutgoingPacket : Option SctpMessageToSend := none
  readyToSend : Bool := false
  /-- There is a `ready_to_send_callback_`. -/
  readyToSendCallback : Bool := false
  bytesSent : Nat := 0
  library : L

/-- `usrsctp_sendv`, as a function of the state of the library. -/
abbrev Sendv (L : Type*) := L → SendInfo → List UInt8 → L × Answer

/-- The identifier of a message of so many bytes; `none` for the types that are not sent. -/
def payloadIdFor (type : SctpMessageType) (availablePayloadSize : Nat) : Option PayloadId :=
  match type with
  | .string => some (if availablePayloadSize = 0 then .stringEmpty else .string)
  | .binary => some (if availablePayloadSize = 0 then .binaryEmpty else .binary)
  | .control => some .control
  | .close => none

/-- The information that goes with a message. -/
def sendInfo (m : SctpMessageToSend) (id : PayloadId) : SendInfo where
  sid := m.streamId
  ppid := id.ppid
  unordered := !m.reliability.ordered
  prRtx := m.reliability.maxRtxCount.or m.reliability.maxRtxMs

namespace SctpSender

variable {L : Type*} (sendv : Sendv L)

/-- What is handed to the library: a message without a payload is sent as one zero byte. -/
def attempt (m : SctpMessageToSend) : List UInt8 :=
  if m.availablePayloadSize ≠ 0 then m.availablePayload else [0]

/-- `TrySend(message)`: with it the message, and whether some of it was sent. -/
def trySend (s : SctpSender L) (m : SctpMessageToSend) :
    SctpSender L × SctpMessageToSend × Bool :=
  if !s.connected then (s, m, false)
  else
    match payloadIdFor m.type m.availablePayloadSize with
    | none => (s, m, false)
    | some id =>
      match sendv s.library (sendInfo m id) (attempt m) with
      | (u, .wouldBlock) => ({ s with library := u, readyToSend := false }, m, false)
      | (u, .again) => ({ s with library := u }, m, false)
      | (u, .accepted size) =>
        ({ s with
            library := u
            bytesSent :=
              if m.type = .string ∨ m.type = .binary then s.bytesSent + size else s.bytesSent },
          m.advance size, true)

/-- `SendInternal(message)`. -/
def sendInternal (s : SctpSender L) (m : SctpMessageToSend) : SctpSender L × Bool :=
  if s.partialOutgoingPacket.isSome then ({ s with readyToSend := false }, false)
  else
    match s.trySend sendv m with
    | (s, m, true) =>
      if 0 < m.availablePayloadSize then ({ s with partialOutgoingPacket := some m }, true)
      else (s, true)
    | (s, _, false) => (s, false)

/-- `Send(message)`; resetting a stream sends nothing. -/
def send (s : SctpSender L) (m : SctpMessageToSend) : SctpSender L × Bool :=
  if m.type = .close then (s, true) else s.sendInternal sendv m

/-- `PeerConnection::Send(message)`. -/
def sendIfConnected (s : SctpSender L) (m : SctpMessageToSend) : SctpSender L × Bool :=
  if s.connected then s.send sendv m else (s, false)

/-- `FlushPendingMessage()`. -/
def flushPendingMessage (s : SctpSender L) : SctpSender L × Bool :=
  match s.partialOutgoingPacket with
  | none => (s, true)
  | some m =>
    match s.trySend sendv m with
    | (s, m, true) =>
      if m.availablePayloadSize = 0 then ({ s with partialOutgoingPacket := none }, true)
      else ({ s with partialOutgoingPacket := some m }, false)
    | (s, m, false) => ({ s with partialOutgoingPacket := some m }, true)

/-- `ReadyToSend()`: with it whether the callback was invoked. -/
def announce (s : SctpSender L) : SctpSender L × Bool :=
  if !s.readyToSend then ({ s with readyToSend := true }, s.readyToSendCallback)
  else (s, false)

/-- `DoFlush()`: with it whether the callback was invoked. -/
def doFlush (s : SctpSender L) : SctpSender L × Bool :=
  match s.flushPendingMessage sendv with
  | (s, true) => s.announce
  | (s, false) => (s, false)

end SctpSender

/-! ## The library -/

/-- The library: the answers that it will give, and what it has accepted so far. -/
structure Usrsctp where
  answers : Nat → Answer
  accepted : List AcceptedChunk := []

/-- The bytes that were accepted. -/
def Usrsctp.acceptedBytes (u : Usrsctp) : List UInt8 := u.accepted.flatMap AcceptedChunk.data

/-- `usrsctp_sendv`: it accepts between one byte and all of them, or none. -/
def Usrsctp.sendv (u : Usrsctp) (info : SendInfo) (data : List UInt8) : Usrsctp × Answer :=
  let next : Usrsctp := { u with answers := fun n => u.answers (n + 1) }
  match u.answers 0 with
  | .accepted size =>
    let size := max 1 (min size data.length)
    ({ next with accepted := u.accepted ++ [⟨info, data.take size⟩] }, .accepted size)
  | answer => (next, answer)

/-! ## Events -/

/-- A message with a payload; `DataChannel` sends none that closes. -/
structure Outgoing where
  type : SctpMessageType
  streamId : UInt16
  payload : List UInt8
  reliability : Reliability
  payload_ne : payload ≠ []
  type_ne : type ≠ .close

/-- The message as it is constructed. -/
def Outgoing.message (m : Outgoing) : SctpMessageToSend :=
  { type := m.type, streamId := m.streamId, payload := m.payload, reliability := m.reliability }

/-- What happens to a channel and its transport. -/
inductive Event
  | send (m : Outgoing)
  /-- `DataChannel::OnReadyToSend`. -/
  | onReadyToSend
  /-- `SctpTransport::DoFlush`. -/
  | doFlush
  | setConnected (connected : Bool)
  | setAttached (attached : Bool)

/-- What was sent in a run, in order. -/
def sentBytes (events : List Event) : List UInt8 :=
  events.flatMap fun
    | .send m => m.payload
    | _ => []

/-- A channel over a transport over the library. -/
abbrev Channel := ChannelSender (SctpSender Usrsctp)

/-- What the channel calls: `PeerConnection::Send`. -/
abbrev channelSend := SctpSender.sendIfConnected Usrsctp.sendv

/-- A channel and its transport. -/
def channelOverSctp : Machine Channel Event Unit where
  step c
    | .send m => ((c.send channelSend m.message).1, ())
    | .onReadyToSend => ((c.flushPendingMessages channelSend).1, ())
    | .doFlush => ({ c with sendTransport := (c.sendTransport.doFlush Usrsctp.sendv).1 }, ())
    | .setConnected connected =>
      ({ c with sendTransport := { c.sendTransport with connected := connected } }, ())
    | .setAttached attached => ({ c with attached := attached }, ())

/-! ## Accounts -/

/-- Not sent yet, and to be sent. -/
structure SctpMessageToSend.Fresh (m : SctpMessageToSend) : Prop where
  offset : m.offset = 0
  payload : m.payload ≠ []
  type : m.type ≠ .close

theorem Outgoing.fresh (m : Outgoing) : m.message.Fresh := ⟨rfl, m.payload_ne, m.type_ne⟩

theorem SctpMessageToSend.Fresh.availablePayload {m : SctpMessageToSend} (h : m.Fresh) :
    m.availablePayload = m.payload := by
  unfold SctpMessageToSend.availablePayload
  rw [h.offset, List.drop_zero]

theorem Usrsctp.sendv_spec (u : Usrsctp) (info : SendInfo) (data : List UInt8) :
    (∃ size, (u.sendv info data).2 = .accepted size ∧
        (u.sendv info data).1.acceptedBytes = u.acceptedBytes ++ data.take size) ∨
      (((u.sendv info data).2 = .wouldBlock ∨ (u.sendv info data).2 = .again) ∧
        (u.sendv info data).1.acceptedBytes = u.acceptedBytes) := by
  unfold Usrsctp.sendv Usrsctp.acceptedBytes
  cases u.answers 0 with
  | accepted size => exact Or.inl ⟨_, rfl, by simp⟩
  | wouldBlock => exact Or.inr ⟨Or.inl rfl, rfl⟩
  | again => exact Or.inr ⟨Or.inr rfl, rfl⟩

namespace SctpSender

/-- What is left of the open message. -/
def openBytes (s : SctpSender Usrsctp) : List UInt8 :=
  (s.partialOutgoingPacket.map SctpMessageToSend.availablePayload).getD []

/-- The bytes that the transport has taken over. -/
def takenBytes (s : SctpSender Usrsctp) : List UInt8 := s.library.acceptedBytes ++ s.openBytes

/-- Something is left of the open message. -/
def WellFormed (s : SctpSender Usrsctp) : Prop :=
  ∀ m, s.partialOutgoingPacket = some m → m.availablePayload ≠ []

theorem trySend_spec (s : SctpSender Usrsctp) {m : SctpMessageToSend}
    (hm : m.availablePayload ≠ []) :
    (s.trySend Usrsctp.sendv m).1.library.acceptedBytes ++
          (s.trySend Usrsctp.sendv m).2.1.availablePayload =
        s.library.acceptedBytes ++ m.availablePayload ∧
      (s.trySend Usrsctp.sendv m).1.partialOutgoingPacket = s.partialOutgoingPacket ∧
      ((s.trySend Usrsctp.sendv m).2.2 = false → (s.trySend Usrsctp.sendv m).2.1 = m) := by
  have hsize : m.availablePayloadSize ≠ 0 := by
    rw [← m.length_availablePayload]
    exact mt List.eq_nil_of_length_eq_zero hm
  unfold trySend attempt
  cases hconnected : s.connected with
  | false => exact ⟨rfl, rfl, fun _ => rfl⟩
  | true =>
    rw [if_neg (by simp)]
    cases hid : payloadIdFor m.type m.availablePayloadSize with
    | none => exact ⟨rfl, rfl, fun _ => rfl⟩
    | some id =>
      dsimp only
      rw [if_pos hsize]
      have hspec := s.library.sendv_spec (sendInfo m id) m.availablePayload
      generalize s.library.sendv (sendInfo m id) m.availablePayload = r at hspec
      obtain ⟨u, answer⟩ := r
      obtain ⟨size, rfl, hbytes⟩ | ⟨rfl | rfl, hbytes⟩ := hspec
      · refine ⟨?_, rfl, fun h => by cases h⟩
        dsimp only at hbytes ⊢
        rw [hbytes, m.availablePayload_advance, List.append_assoc, List.take_append_drop]
      · exact ⟨congrArg (· ++ m.availablePayload) hbytes, rfl, fun _ => rfl⟩
      · exact ⟨congrArg (· ++ m.availablePayload) hbytes, rfl, fun _ => rfl⟩

/-- The transport has taken over bytes, if it says so. -/
structure Takes (s : SctpSender Usrsctp) (bytes : List UInt8) (r : SctpSender Usrsctp × Bool) :
    Prop where
  wellFormed : r.1.WellFormed
  takenBytes : r.1.takenBytes = s.takenBytes ++ if r.2 then bytes else []

theorem takes_refused {s s' : SctpSender Usrsctp} (hs : s.WellFormed) (bytes : List UInt8)
    (hopened : s'.partialOutgoingPacket = s.partialOutgoingPacket)
    (haccepted : s'.library.acceptedBytes = s.library.acceptedBytes) :
    Takes s bytes (s', false) := by
  constructor
  · intro m hm
    exact hs m (hopened.symm.trans hm)
  · unfold SctpSender.takenBytes openBytes
    rw [if_neg Bool.false_ne_true, List.append_nil, haccepted, hopened]

variable {s : SctpSender Usrsctp}

theorem send_takes (hs : s.WellFormed) {m : SctpMessageToSend} (hm : m.Fresh) :
    Takes s m.payload (s.send Usrsctp.sendv m) := by
  unfold send
  rw [if_neg hm.type]
  unfold sendInternal
  cases hopened : s.partialOutgoingPacket with
  | some open' => exact takes_refused hs _ hopened.symm rfl
  | none =>
    have havailable : m.availablePayload ≠ [] := by
      rw [hm.availablePayload]
      exact hm.payload
    obtain ⟨hbytes, hsame, hfalse⟩ := s.trySend_spec havailable
    rw [hm.availablePayload] at hbytes
    rw [Option.isSome_none, if_neg Bool.false_ne_true]
    rcases hr : s.trySend Usrsctp.sendv m with ⟨s', m', _ | _⟩
    · rw [hr] at hbytes hsame hfalse
      rw [show m' = m from hfalse rfl, hm.availablePayload] at hbytes
      exact takes_refused hs _ hsame (List.append_cancel_right hbytes)
    · rw [hr] at hbytes hsame
      have hopen : s.takenBytes = s.library.acceptedBytes := by
        unfold takenBytes openBytes
        rw [hopened]
        exact List.append_nil _
      dsimp only at hbytes hsame ⊢
      by_cases hleft : 0 < m'.availablePayloadSize
      · rw [if_pos hleft]
        constructor
        · intro open' hopen'
          obtain rfl := Option.some.inj hopen'
          rw [← m'.length_availablePayload] at hleft
          exact List.ne_nil_of_length_pos hleft
        · rw [hopen, if_pos rfl, ← hbytes]
          rfl
      · rw [if_neg hleft]
        rw [← m'.length_availablePayload] at hleft
        have hnil : m'.availablePayload = [] := List.eq_nil_of_length_eq_zero (by omega)
        rw [hnil, List.append_nil] at hbytes
        constructor
        · intro open' hopen'
          rw [hsame, hopened] at hopen'
          cases hopen'
        · unfold takenBytes openBytes at hopen ⊢
          rw [hopen, if_pos rfl, hsame, hopened, hbytes]
          exact List.append_nil _

/-- Nothing was taken over, and nothing was lost. -/
structure Keeps (s s' : SctpSender Usrsctp) : Prop where
  wellFormed : s'.WellFormed
  takenBytes : s'.takenBytes = s.takenBytes

theorem flushPendingMessage_keeps (hs : s.WellFormed) :
    Keeps s (s.flushPendingMessage Usrsctp.sendv).1 := by
  unfold flushPendingMessage
  cases hopened : s.partialOutgoingPacket with
  | none => exact ⟨hs, rfl⟩
  | some m =>
    obtain ⟨hbytes, -, hfalse⟩ := s.trySend_spec (hs m hopened)
    have htaken : s.takenBytes = s.library.acceptedBytes ++ m.availablePayload := by
      unfold takenBytes openBytes
      rw [hopened]
      rfl
    dsimp only
    rcases hr : s.trySend Usrsctp.sendv m with ⟨s', m', _ | _⟩
    · rw [hr] at hbytes hfalse
      obtain rfl : m' = m := hfalse rfl
      refine ⟨fun open' hopen' => ?_, hbytes.trans htaken.symm⟩
      exact hs open' (hopened.trans hopen')
    · rw [hr] at hbytes
      dsimp only at hbytes ⊢
      by_cases hleft : m'.availablePayloadSize = 0
      · rw [if_pos hleft]
        rw [← m'.length_availablePayload] at hleft
        rw [List.eq_nil_of_length_eq_zero hleft] at hbytes
        exact ⟨fun open' hopen' => (by cases hopen'), hbytes.trans htaken.symm⟩
      · rw [if_neg hleft]
        rw [← m'.length_availablePayload] at hleft
        refine ⟨fun open' hopen' => ?_, hbytes.trans htaken.symm⟩
        obtain rfl := Option.some.inj hopen'
        exact fun hnil => hleft (by rw [hnil]; rfl)

theorem doFlush_keeps (hs : s.WellFormed) :
    Keeps s (s.doFlush Usrsctp.sendv).1 := by
  have hkeeps := flushPendingMessage_keeps hs
  unfold doFlush announce
  generalize s.flushPendingMessage Usrsctp.sendv = r at hkeeps
  obtain ⟨s', _ | _⟩ := r
  · exact hkeeps
  · dsimp only
    split
    · exact ⟨hkeeps.wellFormed, hkeeps.takenBytes⟩
    · exact hkeeps

end SctpSender

/-- What waits in a queue. -/
def queuedBytes (queue : List SctpMessageToSend) : List UInt8 :=
  queue.flatMap fun m => m.payload

/-- **The accounts**: the bytes taken over by the transport and those in the queue are the bytes
sent, in order. -/
structure Accounts (c : Channel) (sent : List UInt8) : Prop where
  wellFormed : c.sendTransport.WellFormed
  fresh : ∀ m ∈ c.pendingOutgoingMessages, m.Fresh
  bytes : c.sendTransport.takenBytes ++ queuedBytes c.pendingOutgoingMessages = sent

section Channel

variable {c : Channel} {m : SctpMessageToSend}

theorem trySend_takes (hc : c.sendTransport.WellFormed) (hm : m.Fresh) :
    SctpSender.Takes c.sendTransport m.payload
        ((c.trySend channelSend m).1.sendTransport, (c.trySend channelSend m).2) ∧
      (c.trySend channelSend m).1.pendingOutgoingMessages = c.pendingOutgoingMessages := by
  unfold ChannelSender.trySend
  split
  · refine ⟨?_, rfl⟩
    dsimp only [channelSend, SctpSender.sendIfConnected]
    split
    · exact SctpSender.send_takes hc hm
    · exact SctpSender.takes_refused hc _ rfl rfl
  · exact ⟨SctpSender.takes_refused hc _ rfl rfl, rfl⟩

theorem flushQueue_accounts (hc : c.sendTransport.WellFormed)
    {queue : List SctpMessageToSend} (hqueue : ∀ m ∈ queue, m.Fresh) :
    Accounts (c.flushQueue channelSend queue).1
      (c.sendTransport.takenBytes ++ queuedBytes queue) := by
  induction queue generalizing c with
  | nil => exact ⟨hc, by simp [ChannelSender.flushQueue], rfl⟩
  | cons m queue ih =>
    have hm : m.Fresh := hqueue m List.mem_cons_self
    obtain ⟨⟨hwell, hbytes⟩, -⟩ := trySend_takes hc hm
    unfold ChannelSender.flushQueue
    rcases hr : c.trySend channelSend m with ⟨c', _ | _⟩
    · rw [hr] at hwell hbytes
      rw [if_neg Bool.false_ne_true, List.append_nil] at hbytes
      exact ⟨hwell, hqueue, congrArg (· ++ queuedBytes (m :: queue)) hbytes⟩
    · rw [hr] at hwell hbytes
      rw [if_pos rfl] at hbytes
      have hrest := ih hwell fun x hx => hqueue x (List.mem_cons_of_mem _ hx)
      dsimp only at hbytes
      rw [hbytes, List.append_assoc] at hrest
      exact hrest

variable {sent : List UInt8}

theorem Accounts.flushPendingMessages (h : Accounts c sent) :
    Accounts (c.flushPendingMessages channelSend).1 sent := by
  have hflush := flushQueue_accounts h.wellFormed h.fresh
  rwa [h.bytes] at hflush

theorem Accounts.enqueue (h : Accounts c sent) (hm : m.Fresh)
    (reports : List DataChannel.Report) :
    Accounts (c.enqueue m reports).1 (sent ++ m.payload) := by
  refine ⟨h.wellFormed, fun x hx => ?_, ?_⟩
  · rcases List.mem_append.1 hx with hx | hx
    · exact h.fresh x hx
    · rw [List.mem_singleton.1 hx]
      exact hm
  · unfold ChannelSender.enqueue queuedBytes
    rw [List.flatMap_append, ← List.append_assoc]
    exact congrArg₂ (· ++ ·) h.bytes (by simp)

theorem Accounts.send (h : Accounts c sent) (hm : m.Fresh) :
    Accounts (c.send channelSend m).1 (sent ++ m.payload) := by
  have hflush := h.flushPendingMessages
  have hempty := (ChannelSender.flushQueue_spec channelSend c c.pendingOutgoingMessages).flushed
  unfold ChannelSender.send ChannelSender.flushPendingMessages at *
  rcases hr : c.flushQueue channelSend c.pendingOutgoingMessages with ⟨c', reports, _ | _⟩
  · rw [hr] at hflush
    exact hflush.enqueue hm reports
  · rw [hr] at hflush hempty
    have hnone : c'.pendingOutgoingMessages = [] := hempty rfl
    obtain ⟨⟨hwell, hbytes⟩, hqueue⟩ := trySend_takes hflush.wellFormed hm
    dsimp only at hflush hqueue ⊢
    have htaken : c'.sendTransport.takenBytes = sent := by
      have hsent := hflush.bytes
      rw [hnone] at hsent
      exact (List.append_nil _).symm.trans hsent
    rw [htaken] at hbytes
    rw [hnone] at hqueue
    have htried : ∀ {d : Channel} {bytes : List UInt8}, d.sendTransport.WellFormed →
        d.pendingOutgoingMessages = [] → d.sendTransport.takenBytes = bytes →
        Accounts d bytes := by
      intro d bytes hd hnil hdbytes
      refine ⟨hd, by simp [hnil], ?_⟩
      rw [hnil]
      exact (List.append_nil _).trans hdbytes
    rcases hr' : c'.trySend channelSend m with ⟨d, _ | _⟩
    · rw [hr'] at hwell hbytes hqueue
      rw [if_neg Bool.false_ne_true, List.append_nil] at hbytes
      exact (htried hwell hqueue hbytes).enqueue hm reports
    · rw [hr'] at hwell hbytes hqueue
      rw [if_pos rfl] at hbytes
      exact htried hwell hqueue hbytes

end Channel

/-! ## Runs -/

/-- A channel and a transport that have sent nothing, over a library with these answers; what is
found in `buffered_amount_`, and whether there are callbacks, is not relied on. -/
def Channel.init (bufferedAmount : Int) (amountCallback readyCallback : Bool)
    (answers : Nat → Answer) : Channel :=
  .create bufferedAmount amountCallback false
    { readyToSendCallback := readyCallback, library := { answers := answers } }

theorem accounts_step {c : Channel} {sent : List UInt8} (h : Accounts c sent) (e : Event) :
    Accounts (channelOverSctp.step c e).1 (sent ++ sentBytes [e]) := by
  have hnil : sent ++ [] = sent := List.append_nil sent
  cases e with
  | send m =>
    rw [show sentBytes [.send m] = m.payload from List.append_nil _]
    exact h.send m.fresh
  | onReadyToSend =>
    rw [show sent ++ sentBytes [.onReadyToSend] = sent from hnil]
    exact h.flushPendingMessages
  | doFlush =>
    rw [show sent ++ sentBytes [.doFlush] = sent from hnil]
    obtain ⟨hwell, htaken⟩ := SctpSender.doFlush_keeps h.wellFormed
    refine ⟨hwell, h.fresh, ?_⟩
    rw [← h.bytes, ← htaken]
    rfl
  | setConnected connected =>
    rw [show sent ++ sentBytes [.setConnected connected] = sent from hnil]
    exact ⟨h.wellFormed, h.fresh, h.bytes⟩
  | setAttached attached =>
    rw [show sent ++ sentBytes [.setAttached attached] = sent from hnil]
    exact ⟨h.wellFormed, h.fresh, h.bytes⟩

theorem sentBytes_append (events events' : List Event) :
    sentBytes (events ++ events') = sentBytes events ++ sentBytes events' := List.flatMap_append

/-- **After any run the accounts are right**: nothing is lost, doubled, reordered or mixed. -/
theorem accounts_final {start : Channel} (hstart : Accounts start []) (events : List Event) :
    Accounts (channelOverSctp.final start events) (sentBytes events) := by
  have hstep : ∀ (h : List Event) (c : Channel) (e : Event), Accounts c (sentBytes h) →
      True → Accounts (channelOverSctp.step c e).1 (sentBytes (h ++ [e])) := by
    intro h c e hc _
    rw [sentBytes_append]
    exact accounts_step hc e
  have hall : channelOverSctp.AllGood (fun _ _ => True) start events :=
    channelOverSctp.allGood_of_forall (fun _ _ => trivial) _ _
  exact channelOverSctp.invariant_inputs (P := fun h c => Accounts c (sentBytes h)) hstep
    hstart hall

/-- **What the library has accepted is always a prefix of what was sent**, every chunk of it begins
where the one before it ended, and what is sent and not accepted yet is left of the open message or
in the queue, in order. -/
theorem accepted_prefix (bufferedAmount : Int) (amountCallback readyCallback : Bool)
    (answers : Nat → Answer) (events : List Event) :
    let c := channelOverSctp.final
      (Channel.init bufferedAmount amountCallback readyCallback answers) events
    c.sendTransport.library.acceptedBytes <+: sentBytes events ∧
      (∀ before chunk after,
        c.sendTransport.library.accepted = before ++ chunk :: after →
          chunk.data <+: (sentBytes events).drop (before.flatMap AcceptedChunk.data).length) ∧
      c.sendTransport.library.acceptedBytes ++ c.sendTransport.openBytes ++
        queuedBytes c.pendingOutgoingMessages = sentBytes events := by
  intro c
  have hinit : Accounts (Channel.init bufferedAmount amountCallback readyCallback answers) [] :=
    ⟨fun _ h => (by cases h), fun _ h => (by cases h), rfl⟩
  have hall : c.sendTransport.library.acceptedBytes ++ c.sendTransport.openBytes ++
      queuedBytes c.pendingOutgoingMessages = sentBytes events :=
    (accounts_final hinit events).bytes
  have hbytes := hall
  rw [List.append_assoc] at hbytes
  refine ⟨⟨_, hbytes⟩, fun before chunk after heq => ?_, hall⟩
  have hcut : c.sendTransport.library.acceptedBytes =
      before.flatMap AcceptedChunk.data ++ (chunk.data ++ after.flatMap AcceptedChunk.data) := by
    unfold Usrsctp.acceptedBytes
    rw [heq, List.flatMap_append, List.flatMap_cons]
  rw [hcut, List.append_assoc, List.append_assoc] at hbytes
  rw [← hbytes, List.drop_left]
  exact List.prefix_append _ _

end NaiveRtc.Transports
