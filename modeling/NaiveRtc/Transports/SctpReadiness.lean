import NaiveRtc.Transports.SctpSend

/-!
# When an SCTP transport says that it is ready

`SendInternal`, `FlushPendingMessage` and `DoFlush` of `rtc/transports/sctp_transport.cpp` over
any library: what `usrsctp_sendv` answers is a parameter.  The callback of `ReadyToSend` promises
that a message is taken again, which the transport refuses as long as a part of one is open.

* `GoesThrough`, `flushPendingMessage_iff` — **what flushing answers is right exactly when the
  library is not blocked**.
* `readiness_law` — the same along every run.
-/

namespace NaiveRtc.Transports.SctpSender

variable {L : Type*} (sendv : Sendv L)

/-! ## One call -/

/-- Something is sent of a message: the transport is connected, the type is one that is sent, and
the library accepts it. -/
def GoesThrough (s : SctpSender L) (m : SctpMessageToSend) : Prop :=
  s.connected = true ∧ ∃ id size, payloadIdFor m.type m.availablePayloadSize = some id ∧
    (sendv s.library (sendInfo m id) (attempt m)).2 = .accepted size

theorem trySend_iff (s : SctpSender L) (m : SctpMessageToSend) :
    (s.trySend sendv m).2.2 = true ↔ s.GoesThrough sendv m := by
  unfold trySend GoesThrough
  cases s.connected with
  | false => simp
  | true =>
    rw [if_neg (by simp)]
    cases payloadIdFor m.type m.availablePayloadSize with
    | none => simp
    | some id =>
      dsimp only
      rcases hanswer : sendv s.library (sendInfo m id) (attempt m) with ⟨u, size | _ | _⟩
      · exact iff_of_true rfl ⟨rfl, id, size, rfl, by rw [hanswer]⟩
      · refine iff_of_false (by simp) ?_
        rintro ⟨-, id', size, ⟨⟩, haccepted⟩
        rw [hanswer] at haccepted
        cases haccepted
      · refine iff_of_false (by simp) ?_
        rintro ⟨-, id', size, ⟨⟩, haccepted⟩
        rw [hanswer] at haccepted
        cases haccepted

/-- **Flushing answers whether nothing is left of the open message exactly when there is none or
some of it is sent.** -/
theorem flushPendingMessage_iff (s : SctpSender L) :
    ((s.flushPendingMessage sendv).2 = true ↔
        (s.flushPendingMessage sendv).1.partialOutgoingPacket = none) ↔
      ∀ m, s.partialOutgoingPacket = some m → s.GoesThrough sendv m := by
  unfold flushPendingMessage
  cases hopened : s.partialOutgoingPacket with
  | none => exact iff_of_true (iff_of_true rfl hopened) fun m hm => by cases hm
  | some m =>
    have hsent := s.trySend_iff sendv m
    have honly : (∀ m', some m = some m' → s.GoesThrough sendv m') ↔ s.GoesThrough sendv m :=
      ⟨fun h => h m rfl, fun h m' hm' => Option.some.inj hm' ▸ h⟩
    rw [honly, ← hsent]
    dsimp only
    rcases s.trySend sendv m with ⟨s', m', _ | _⟩
    · exact iff_of_false (fun h => by cases h.1 rfl) (by simp)
    · refine iff_of_true ?_ rfl
      dsimp only
      split
      · exact iff_of_true rfl rfl
      · exact iff_of_false (by simp) (by simp)

theorem doFlush_callback {s : SctpSender L} (h : (s.doFlush sendv).2 = true) :
    (s.flushPendingMessage sendv).2 = true ∧
      (s.doFlush sendv).1.partialOutgoingPacket =
        (s.flushPendingMessage sendv).1.partialOutgoingPacket := by
  unfold doFlush announce at h ⊢
  rcases hflush : s.flushPendingMessage sendv with ⟨s', _ | _⟩
  · rw [hflush] at h
    cases h
  · refine ⟨rfl, ?_⟩
    dsimp only
    split <;> rfl

/-! ## Runs -/

/-- What happens to the transport. -/
inductive Event
  | sendInternal (m : SctpMessageToSend)
  | flushPendingMessage
  | doFlush
  | setConnected (connected : Bool)
  /-- `OnReadyToSend(callback)`, with or without a callback. -/
  | onReadyToSend (callback : Bool)

/-- The state after an event. -/
def next (s : SctpSender L) : Event → SctpSender L
  | .sendInternal m => (s.sendInternal sendv m).1
  | .flushPendingMessage => (s.flushPendingMessage sendv).1
  | .doFlush => (s.doFlush sendv).1
  | .setConnected connected => { s with connected := connected }
  | .onReadyToSend callback => { s with readyToSendCallback := callback }

/-- The transport driven by events. -/
def readyMachine : Machine (SctpSender L) Event Unit where
  step s e := (s.next sendv e, ())

/-- Flushing answers whether nothing is left of the open message, and the callback is only invoked
when nothing is. -/
def StepLaw (s : SctpSender L) : Event → Prop
  | .flushPendingMessage =>
    (s.flushPendingMessage sendv).2 = true ↔
      (s.flushPendingMessage sendv).1.partialOutgoingPacket = none
  | .doFlush =>
    ((s.flushPendingMessage sendv).2 = true ↔
      (s.flushPendingMessage sendv).1.partialOutgoingPacket = none) ∧
    ((s.doFlush sendv).2 = true → (s.doFlush sendv).1.partialOutgoingPacket = none)
  | _ => True

/-- The event does not flush an open message in vain. -/
def NotBlocked (s : SctpSender L) : Event → Prop
  | .flushPendingMessage | .doFlush =>
    ∀ m, s.partialOutgoingPacket = some m → s.GoesThrough sendv m
  | _ => True

theorem stepLaw_iff (s : SctpSender L) (e : Event) :
    s.StepLaw sendv e ↔ s.NotBlocked sendv e := by
  cases e with
  | flushPendingMessage => exact s.flushPendingMessage_iff sendv
  | doFlush =>
    refine Iff.trans (and_iff_left_of_imp fun hflush hinvoked => ?_)
      (s.flushPendingMessage_iff sendv)
    obtain ⟨hready, hsame⟩ := doFlush_callback sendv hinvoked
    exact hsame.trans (hflush.1 hready)
  | _ => exact Iff.rfl

/-- **The law of readiness.**  In every run, over every library, flushing answers whether
something is left of the open message, and the callback is only invoked when nothing is, exactly
if no flush of the run finds an open message of which nothing is sent. -/
theorem readiness_law (start : SctpSender L) (events : List Event) :
    (∀ done e, done ++ [e] <+: events →
        ((readyMachine sendv).final start done).StepLaw sendv e) ↔
      ∀ done e, done ++ [e] <+: events →
        ((readyMachine sendv).final start done).NotBlocked sendv e := by
  simp only [stepLaw_iff]

/-- A message of two bytes. -/
def twoBytes : SctpMessageToSend where
  type := .binary
  streamId := 1
  payload := [1, 2]
  reliability := {}

/-- A library that accepts one byte and then blocks. -/
def blockingLibrary : Usrsctp where
  answers := fun n => if n = 0 then .accepted 1 else .wouldBlock

/-- The library is blocked, and the transport announces that it is ready with a byte left. -/
theorem blocked_but_ready :
    ¬∀ done e, done ++ [e] <+: [.sendInternal twoBytes, .doFlush] →
      ((readyMachine Usrsctp.sendv).final
        { connected := true, readyToSendCallback := true, library := blockingLibrary } done).StepLaw
          Usrsctp.sendv e := by
  intro h
  have hlaw := h [.sendInternal twoBytes] .doFlush (List.prefix_refl _)
  have hleft := hlaw.2 rfl
  exact absurd hleft (by decide)

end NaiveRtc.Transports.SctpSender
