import NaiveRtc.Lib.Machine
import NaiveRtc.Transports.SctpMessage
import Mathlib.Algebra.Order.BigOperators.Group.List
import Mathlib.Algebra.Order.Ring.Nat

/-!
# The buffered amount of a data channel

`Send` and `FlushPendingMessages` of `rtc/data_channel/data_channel_message.cpp` with
`UpdateBufferedAmount` of `rtc/data_channel/data_channel.cpp`, over any transport.  The constructor
does not set `buffered_amount_`; what is found there is a parameter.

* `ChannelSender` — the queue and the amount, with `flushQueue`, `send`.
* `Report` — what is passed to the callback, next to the queue once the operation is done.
* `StepLaw`, `buffered_amount_law` — **the amounts are right exactly as long as only empty messages
  are queued**.
-/

namespace NaiveRtc.DataChannel

open Transports (SctpMessageToSend)

/-- The part of `DataChannel` that sends, over a transport with states in `T`. -/
structure ChannelSender (T : Type*) where
  pendingOutgoingMessages : List SctpMessageToSend := []
  bufferedAmount : Int
  /-- There is a `buffered_amount_changed_callback_`. -/
  bufferedAmountChangedCallback : Bool
  /-- `send_transport_` can be locked. -/
  attached : Bool
  sendTransport : T

/-- An amount that is passed to the callback, and the messages that are pending once the operation
on the queue is done. -/
structure Report where
  amount : Nat
  pending : List SctpMessageToSend

/-- The payloads of some messages added. -/
def totalSize (messages : List SctpMessageToSend) : Nat :=
  (messages.map fun m => m.payload.length).sum

namespace ChannelSender

variable {T : Type*} (transportSend : T → SctpMessageToSend → T × Bool)

/-- `TrySend(message)`. -/
def trySend (c : ChannelSender T) (m : SctpMessageToSend) : ChannelSender T × Bool :=
  if c.attached then
    let r := transportSend c.sendTransport m
    ({ c with sendTransport := r.1 }, r.2)
  else (c, false)

/-- `UpdateBufferedAmount(delta)`, when these messages will be pending. -/
def updateBufferedAmount (c : ChannelSender T) (delta : Int)
    (pending : List SctpMessageToSend) : List Report :=
  let amount := (max (c.bufferedAmount + delta) 0).toNat
  if c.bufferedAmountChangedCallback then [⟨amount, pending⟩] else []

/-- The loop of `FlushPendingMessages`, over the queue. -/
def flushQueue (c : ChannelSender T) :
    List SctpMessageToSend → ChannelSender T × List Report × Bool
  | [] => ({ c with pendingOutgoingMessages := [] }, [], true)
  | m :: queue =>
    match c.trySend transportSend m with
    | (c, false) => ({ c with pendingOutgoingMessages := m :: queue }, [], false)
    | (c, true) =>
      let reports := c.updateBufferedAmount (-m.payload.length) queue
      let r := c.flushQueue queue
      (r.1, reports ++ r.2.1, r.2.2)

/-- `FlushPendingMessages()`. -/
def flushPendingMessages (c : ChannelSender T) : ChannelSender T × List Report × Bool :=
  c.flushQueue transportSend c.pendingOutgoingMessages

/-- The end of `Send`: the amount is updated, and the message goes to the end of the queue. -/
def enqueue (c : ChannelSender T) (m : SctpMessageToSend) (reports : List Report) :
    ChannelSender T × List Report :=
  let pending := c.pendingOutgoingMessages ++ [m]
  ({ c with pendingOutgoingMessages := pending },
    reports ++ c.updateBufferedAmount m.payload.length pending)

/-- `Send(message)`. -/
def send (c : ChannelSender T) (m : SctpMessageToSend) : ChannelSender T × List Report :=
  match c.flushPendingMessages transportSend with
  | (c, reports, false) => c.enqueue m reports
  | (c, reports, true) =>
    match c.trySend transportSend m with
    | (c, true) => (c, reports)
    | (c, false) => c.enqueue m reports

/-- A call. -/
inductive Call
  | send (m : SctpMessageToSend)
  | flushPendingMessages

/-- The channel driven by calls. -/
def channelMachine : Machine (ChannelSender T) Call (List Report) where
  step c
    | .send m => c.send transportSend m
    | .flushPendingMessages =>
      let r := c.flushPendingMessages transportSend
      (r.1, r.2.1)

/-! ## One call -/

section Step

/-- There is a transport, and it accepts all of some messages, one after the other. -/
def accepts (attached : Bool) : T → List SctpMessageToSend → Bool
  | _, [] => true
  | transport, m :: messages =>
    attached && (transportSend transport m).2 &&
      accepts attached (transportSend transport m).1 messages

/-- Messages without a payload. -/
def AllEmpty (messages : List SctpMessageToSend) : Prop := ∀ m ∈ messages, m.payload = []

theorem totalSize_eq_zero {messages : List SctpMessageToSend} (h : AllEmpty messages) :
    totalSize messages = 0 := by
  refine List.sum_eq_zero fun size hsize => ?_
  obtain ⟨m, hm, rfl⟩ := List.mem_map.1 hsize
  rw [h m hm]
  rfl

theorem le_totalSize {messages : List SctpMessageToSend} {m : SctpMessageToSend}
    (h : m ∈ messages) : m.payload.length ≤ totalSize messages :=
  List.single_le_sum (fun _ _ => Nat.zero_le _) _ (List.mem_map_of_mem h)

variable {c : ChannelSender T} {queue : List SctpMessageToSend} {m : SctpMessageToSend}

theorem trySend_eq (c : ChannelSender T) (m : SctpMessageToSend) :
    ∃ transport, (c.trySend transportSend m).1 = { c with sendTransport := transport } ∧
      ∀ messages, accepts transportSend c.attached c.sendTransport (m :: messages) =
        ((c.trySend transportSend m).2 && accepts transportSend c.attached transport messages) := by
  obtain ⟨queue, amount, callback, attached, sendTransport⟩ := c
  cases attached with
  | false => exact ⟨sendTransport, rfl, fun messages => rfl⟩
  | true => exact ⟨(transportSend sendTransport m).1, rfl, fun messages => rfl⟩

/-- What flushing a queue does. -/
structure Flushed (c : ChannelSender T) (queue : List SctpMessageToSend)
    (r : ChannelSender T × List Report × Bool) : Prop where
  bufferedAmount : r.1.bufferedAmount = c.bufferedAmount
  attached : r.1.attached = c.attached
  pending : r.1.pendingOutgoingMessages <:+ queue
  flushed : r.2.2 = true → r.1.pendingOutgoingMessages = []
  accepts : ∀ messages, accepts transportSend c.attached c.sendTransport (queue ++ messages) =
    (r.2.2 && accepts transportSend c.attached r.1.sendTransport messages)
  reports : ∀ report ∈ r.2.1, report.pending <:+ queue ∧
    ∃ m ∈ queue, report.amount = (max (c.bufferedAmount - m.payload.length) 0).toNat

theorem flushQueue_spec (c : ChannelSender T) (queue : List SctpMessageToSend) :
    Flushed transportSend c queue (c.flushQueue transportSend queue) := by
  induction queue generalizing c with
  | nil =>
    exact ⟨rfl, rfl, List.suffix_rfl, fun _ => rfl, fun messages => rfl, by simp [flushQueue]⟩
  | cons m queue ih =>
    obtain ⟨transport, hsame, haccepts⟩ := trySend_eq transportSend c m
    unfold flushQueue
    generalize c.trySend transportSend m = r at hsame haccepts
    obtain ⟨d, accepted⟩ := r
    obtain rfl : d = { c with sendTransport := transport } := hsame
    cases accepted with
    | false =>
      exact ⟨rfl, rfl, List.suffix_rfl, (nomatch ·), fun messages => haccepts _, by simp⟩
    | true =>
      obtain ⟨hamount, hattached, hpending, hflushed, haccepts', hreports⟩ :=
        ih { c with sendTransport := transport }
      refine ⟨hamount, hattached, hpending.trans (List.suffix_cons m queue), hflushed,
        fun messages => (haccepts _).trans (haccepts' messages), fun report hreport => ?_⟩
      rcases List.mem_append.1 hreport with hfirst | hrest
      · unfold updateBufferedAmount at hfirst
        split at hfirst
        · rw [List.mem_singleton.1 hfirst]
          exact ⟨List.suffix_cons m queue, m, List.mem_cons_self, rfl⟩
        · cases hfirst
      · obtain ⟨hsuffix, m', hm', hvalue⟩ := hreports report hrest
        exact ⟨hsuffix.trans (List.suffix_cons m queue), m', List.mem_cons_of_mem m hm', hvalue⟩

/-- The message is queued by a call. -/
def Queues (c : ChannelSender T) (m : SctpMessageToSend) : Prop :=
  accepts transportSend c.attached c.sendTransport (c.pendingOutgoingMessages ++ [m]) = false

theorem send_cases (c : ChannelSender T) (m : SctpMessageToSend) :
    (c.send transportSend m).1.bufferedAmount = c.bufferedAmount ∧
    ((¬c.Queues transportSend m ∧ (c.send transportSend m).1.pendingOutgoingMessages = [] ∧
        (c.send transportSend m).2 =
          (c.flushQueue transportSend c.pendingOutgoingMessages).2.1) ∨
      (c.Queues transportSend m ∧ ∃ pending, pending <:+ c.pendingOutgoingMessages ∧
        (c.send transportSend m).1.pendingOutgoingMessages = pending ++ [m] ∧
        ∀ report ∈ (c.send transportSend m).2,
          report ∈ (c.flushQueue transportSend c.pendingOutgoingMessages).2.1 ∨
          report = ⟨(max (c.bufferedAmount + m.payload.length) 0).toNat, pending ++ [m]⟩)) := by
  obtain ⟨hamount, hattached, hpending, hflushed, haccepts, -⟩ :=
    flushQueue_spec transportSend c c.pendingOutgoingMessages
  have hqueues := haccepts [m]
  unfold Queues send flushPendingMessages
  rw [hqueues]
  generalize c.flushQueue transportSend c.pendingOutgoingMessages = r
    at hamount hattached hpending hflushed ⊢
  obtain ⟨d, reports, flushed⟩ := r
  have henqueue : ∀ {x : ChannelSender T}, x.bufferedAmount = c.bufferedAmount →
      ∀ report ∈ (x.enqueue m reports).2, report ∈ reports ∨
        report = ⟨(max (c.bufferedAmount + m.payload.length) 0).toNat,
          x.pendingOutgoingMessages ++ [m]⟩ := by
    intro x hx report hreport
    rcases List.mem_append.1 hreport with hbefore | hlast
    · exact Or.inl hbefore
    · unfold updateBufferedAmount at hlast
      split at hlast
      · rw [hx] at hlast
        exact Or.inr (List.mem_singleton.1 hlast)
      · cases hlast
  cases flushed with
  | false =>
    exact ⟨hamount, Or.inr ⟨rfl, d.pendingOutgoingMessages, hpending, rfl, henqueue hamount⟩⟩
  | true =>
    obtain ⟨transport, hsame, hone⟩ := trySend_eq transportSend d m
    have hlast := hone []
    dsimp only at hattached hlast ⊢
    rw [← hattached, hlast]
    generalize d.trySend transportSend m = r at hsame ⊢
    obtain ⟨e, sent⟩ := r
    obtain rfl : e = { d with sendTransport := transport } := hsame
    cases sent with
    | false =>
      exact ⟨hamount, Or.inr ⟨rfl, d.pendingOutgoingMessages, hpending, rfl, henqueue hamount⟩⟩
    | true => exact ⟨hamount, Or.inl ⟨by simp [accepts], hflushed rfl, rfl⟩⟩

/-- Every amount that is reported is that of the messages then pending, and `buffered_amount_` is
that of the messages left. -/
def StepLaw (c : ChannelSender T) (call : Call) : Prop :=
  let r := (channelMachine transportSend).step c call
  (∀ report ∈ r.2, report.amount = totalSize report.pending) ∧
    r.1.bufferedAmount = totalSize r.1.pendingOutgoingMessages

/-- A message that is queued has no payload. -/
def QueuesEmpty (c : ChannelSender T) : Call → Prop
  | .send m => c.Queues transportSend m → m.payload = []
  | .flushPendingMessages => True

/-- Nothing but empty messages is pending, and the amount is zero. -/
structure Idle (c : ChannelSender T) : Prop where
  bufferedAmount : c.bufferedAmount = 0
  allEmpty : AllEmpty c.pendingOutgoingMessages

theorem AllEmpty.suffix {messages suffix : List SctpMessageToSend} (h : AllEmpty messages)
    (hsuffix : suffix <:+ messages) : AllEmpty suffix := fun m hm => h m (hsuffix.subset hm)

theorem Idle.total (h : Idle c) : c.bufferedAmount = totalSize c.pendingOutgoingMessages := by
  rw [h.bufferedAmount, totalSize_eq_zero h.allEmpty]
  rfl

theorem Idle.reports (h : Idle c) :
    ∀ report ∈ (c.flushQueue transportSend c.pendingOutgoingMessages).2.1,
      report.amount = totalSize report.pending := by
  intro report hreport
  obtain ⟨hsuffix, m, hm, hvalue⟩ :=
    (flushQueue_spec transportSend c c.pendingOutgoingMessages).reports report hreport
  rw [hvalue, h.bufferedAmount, h.allEmpty m hm, totalSize_eq_zero (h.allEmpty.suffix hsuffix)]
  rfl

theorem Idle.step (h : Idle c) {call : Call} (hempty : c.QueuesEmpty transportSend call) :
    Idle ((channelMachine transportSend).step c call).1 ∧ c.StepLaw transportSend call := by
  cases call with
  | flushPendingMessages =>
    have hspec := flushQueue_spec transportSend c c.pendingOutgoingMessages
    have hidle : Idle (c.flushQueue transportSend c.pendingOutgoingMessages).1 :=
      ⟨hspec.bufferedAmount.trans h.bufferedAmount, h.allEmpty.suffix hspec.pending⟩
    exact ⟨hidle, h.reports transportSend, hidle.total⟩
  | send m =>
    obtain ⟨hamount, ⟨-, hnone, hreports⟩ | ⟨hqueues, pending, hsuffix, hleft, hreports⟩⟩ :=
      send_cases transportSend c m
    · have hidle : Idle (c.send transportSend m).1 :=
        ⟨hamount.trans h.bufferedAmount, by rw [hnone]; simp [AllEmpty]⟩
      refine ⟨hidle, ?_, hidle.total⟩
      show ∀ report ∈ (c.send transportSend m).2, _
      rw [hreports]
      exact h.reports transportSend
    · have hm : m.payload = [] := hempty hqueues
      have hall : AllEmpty (pending ++ [m]) := by
        intro x hx
        rcases List.mem_append.1 hx with hx | hx
        · exact h.allEmpty x (hsuffix.subset hx)
        · rwa [List.mem_singleton.1 hx]
      have hidle : Idle (c.send transportSend m).1 :=
        ⟨hamount.trans h.bufferedAmount, by rwa [hleft]⟩
      refine ⟨hidle, fun report hreport => ?_, hidle.total⟩
      rcases hreports report hreport with hbefore | rfl
      · exact h.reports transportSend report hbefore
      · rw [h.bufferedAmount, hm, totalSize_eq_zero hall]
        rfl

theorem Idle.queuesEmpty (h : Idle c) {call : Call} (hlaw : c.StepLaw transportSend call) :
    c.QueuesEmpty transportSend call := by
  cases call with
  | flushPendingMessages => trivial
  | send m =>
    intro hqueues
    obtain ⟨hamount, ⟨hnot, -⟩ | ⟨-, pending, -, hleft, -⟩⟩ := send_cases transportSend c m
    · exact absurd hqueues hnot
    · have htotal : (c.send transportSend m).1.bufferedAmount =
          totalSize (c.send transportSend m).1.pendingOutgoingMessages := hlaw.2
      rw [hamount, h.bufferedAmount, hleft] at htotal
      have hle : m.payload.length ≤ totalSize (pending ++ [m]) := le_totalSize (by simp)
      exact List.eq_nil_of_length_eq_zero (by omega)

end Step

/-! ## Runs -/

/-- A channel as it is constructed, with what is found in `buffered_amount_`. -/
def create (bufferedAmount : Int) (callback attached : Bool) (sendTransport : T) :
    ChannelSender T :=
  { bufferedAmount, bufferedAmountChangedCallback := callback, attached, sendTransport }

theorem not_stepLaw_create {bufferedAmount : Int} (hne : bufferedAmount ≠ 0)
    (attached : Bool) (sendTransport : T) (call : Call) :
    ¬(create bufferedAmount true attached sendTransport).StepLaw transportSend call := by
  rintro ⟨hreports, hamount⟩
  cases call with
  | flushPendingMessages => exact hne hamount
  | send m =>
    set c := create bufferedAmount true attached sendTransport
    obtain ⟨transport, hsame, -⟩ := trySend_eq transportSend c m
    have hsend : c.send transportSend m =
        match c.trySend transportSend m with
        | (c, true) => (c, [])
        | (c, false) => c.enqueue m [] := rfl
    change ∀ report ∈ (c.send transportSend m).2, _ at hreports
    change (c.send transportSend m).1.bufferedAmount =
      totalSize (c.send transportSend m).1.pendingOutgoingMessages at hamount
    rw [hsend] at hreports hamount
    generalize c.trySend transportSend m = r at hsame hreports hamount
    obtain ⟨d, sent⟩ := r
    obtain rfl : d = { c with sendTransport := transport } := hsame
    cases sent with
    | true => exact hne hamount
    | false =>
      have hreport : (max (bufferedAmount + m.payload.length) 0).toNat = totalSize [m] :=
        hreports _ List.mem_cons_self
      have htotal : bufferedAmount = totalSize [m] := hamount
      have hone : totalSize [m] = m.payload.length := by simp [totalSize]
      omega

/-- **The law of the buffered amount.**  With zero found in `buffered_amount_`, the amounts of a run
are right exactly if every message that is queued is empty; with anything else, a callback is told
a wrong amount or the amount is wrong from the first call on. -/
theorem buffered_amount_law (bufferedAmount : Int) (callback attached : Bool) (sendTransport : T)
    (calls : List Call) :
    let start := create bufferedAmount callback attached sendTransport
    let Lawful := ∀ done call, done ++ [call] <+: calls →
      ((channelMachine transportSend).final start done).StepLaw transportSend call
    (bufferedAmount = 0 → (Lawful ↔ ∀ done call, done ++ [call] <+: calls →
      ((channelMachine transportSend).final start done).QueuesEmpty transportSend call)) ∧
    (bufferedAmount ≠ 0 → callback = true → calls ≠ [] → ¬Lawful) := by
  intro start Lawful
  refine ⟨fun hzero => ?_, fun hne hcallback hcalls hlawful => ?_⟩
  · refine ((channelMachine transportSend).forall_prefix_iff_of_invariant
      (P := fun _ c call => c.StepLaw transportSend call)
      (fun done c call (h : Idle c) hempty => (h.step transportSend hempty).1)
      (fun done c call h => ⟨h.queuesEmpty transportSend, fun hempty =>
        (h.step transportSend hempty).2⟩) ⟨hzero, by simp [AllEmpty, start, create]⟩ calls).1
  · obtain ⟨call, rest, rfl⟩ := List.exists_cons_of_ne_nil hcalls
    subst hcallback
    exact not_stepLaw_create transportSend hne attached sendTransport call
      (hlawful [] call ⟨rest, rfl⟩)

/-- A message of one byte. -/
def oneByte : SctpMessageToSend where
  type := .binary
  streamId := 1
  payload := [7]
  reliability := {}

/-- Two messages are queued, and the second amount that is reported is that of one. -/
theorem second_message_not_counted :
    let start := create 0 true false ()
    let transportSend := fun (transport : Unit) (_ : SctpMessageToSend) => (transport, false)
    ¬∀ done call, done ++ [call] <+: [.send oneByte, .send oneByte] →
      ((channelMachine transportSend).final start done).StepLaw transportSend call := by
  intro start transportSend h
  have hlaw := (h [.send oneByte] (.send oneByte) (List.prefix_refl _)).1
  have hreport : 1 = totalSize [oneByte, oneByte] := hlaw ⟨1, _⟩ List.mem_cons_self
  exact absurd hreport (by decide)

end ChannelSender

end NaiveRtc.DataChannel
