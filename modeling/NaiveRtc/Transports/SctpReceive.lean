import NaiveRtc.Lib.Interleaving
import NaiveRtc.Lib.Machine
import NaiveRtc.Transports.SctpMessage

/-!
# Messages received over SCTP

`rtc/transports/sctp_transport.cpp`: what `DoRecv` reads from the socket, and how
`ProcessMessage` puts user messages together from the deprecated partial ones.

* `SctpReceiver` — the buffers; `processMessage`, `recv`.
* `Delivery`, `receiver` — one user message, read in any pieces, and the machine that
  receives them.
* `pending`, `expected` — what each stream has sent so far, and what is to be forwarded.
* `reassembles_iff` — **when every forwarded message is the one of its stream**.

Notifications have buffers of their own and are left out.
-/

namespace NaiveRtc.Transports

open Interleaving

/-- The part of `SctpTransport` that receives. -/
structure SctpReceiver where
  messageDataFragments : List UInt8 := []
  stringDataFragments : List UInt8 := []
  binaryDataFragments : List UInt8 := []
  bytesRecv : Nat := 0
  deriving DecidableEq

namespace SctpReceiver

/-- `ProcessMessage(message_data, stream_id, payload_id)`: with it what is forwarded. -/
def processMessage (t : SctpReceiver) (messageData : List UInt8) (streamId : UInt16)
    (ppid : UInt32) : SctpReceiver × List SctpMessage :=
  match PayloadId.ofPpid ppid with
  | some .control => (t, [⟨.control, streamId, messageData⟩])
  | some .stringPartial =>
    ({ t with stringDataFragments := t.stringDataFragments ++ messageData }, [])
  | some .string =>
    let t := { t with bytesRecv := t.bytesRecv + messageData.length }
    if t.stringDataFragments = [] then (t, [⟨.string, streamId, messageData⟩])
    else
      ({ t with stringDataFragments := [] },
        [⟨.string, streamId, t.stringDataFragments ++ messageData⟩])
  | some .stringEmpty =>
    ({ t with stringDataFragments := [] }, [⟨.string, streamId, t.stringDataFragments⟩])
  | some .binaryPartial =>
    ({ t with binaryDataFragments := t.binaryDataFragments ++ messageData }, [])
  | some .binary =>
    let t := { t with bytesRecv := t.bytesRecv + messageData.length }
    if t.binaryDataFragments = [] then (t, [⟨.binary, streamId, messageData⟩])
    else
      ({ t with binaryDataFragments := [] },
        [⟨.binary, streamId, t.binaryDataFragments ++ messageData⟩])
  | some .binaryEmpty =>
    ({ t with binaryDataFragments := [] }, [⟨.binary, streamId, t.binaryDataFragments⟩])
  | none => (t, [])

/-- A round of `DoRecv` in which data of a message is read: `eor` is `MSG_EOR`, and `info` has
the stream and the identifier, or is missing, which ends the loop with the data kept. -/
def recv (t : SctpReceiver) (data : List UInt8) (eor : Bool) (info : Option (UInt16 × UInt32)) :
    SctpReceiver × List SctpMessage :=
  let t := { t with messageDataFragments := t.messageDataFragments ++ data }
  if eor then
    match info with
    | none => (t, [])
    | some (streamId, ppid) =>
      let r := t.processMessage t.messageDataFragments streamId ppid
      ({ r.1 with messageDataFragments := [] }, r.2)
  else (t, [])

end SctpReceiver

/-! ## Deliveries -/

/-- A complete user message, in the pieces that it is read in. -/
structure Delivery where
  streamId : UInt16
  ppid : UInt32
  pieces : List (List UInt8)
  last : List UInt8
  deriving DecidableEq

/-- The data of the message. -/
def Delivery.data (d : Delivery) : List UInt8 := d.pieces.flatten ++ d.last

namespace SctpReceiver

/-- The rounds of `DoRecv` that read a message. -/
def receive (t : SctpReceiver) (d : Delivery) : SctpReceiver × List SctpMessage :=
  (d.pieces.foldl (fun t piece => (t.recv piece false none).1) t).recv d.last true
    (some (d.streamId, d.ppid))

end SctpReceiver

/-- A receiver that is given one message after the other. -/
def sctpReceiver : Machine SctpReceiver Delivery (List SctpMessage) where
  step := SctpReceiver.receive

/-! ## What is to be forwarded -/

/-- What a message does to the user message it belongs to. -/
inductive Part
  | fragment
  | final
  | finalEmpty
  deriving DecidableEq

/-- The kind of user message, and the part of it. -/
def PayloadId.part : PayloadId → Option (SctpMessageType × Part)
  | .control => none
  | .string => some (.string, .final)
  | .binaryPartial => some (.binary, .fragment)
  | .binary => some (.binary, .final)
  | .stringPartial => some (.string, .fragment)
  | .stringEmpty => some (.string, .finalEmpty)
  | .binaryEmpty => some (.binary, .finalEmpty)

/-- The kind and the part of a delivery. -/
def Delivery.part (d : Delivery) : Option (SctpMessageType × Part) :=
  (PayloadId.ofPpid d.ppid).bind PayloadId.part

/-- **What a stream has sent of its next message**: the data of the partial messages of this
kind since the last one that was forwarded. -/
def pending (kind : SctpMessageType) (streamId : UInt16) (history : List Delivery) : List UInt8 :=
  history.foldl (fun pending d =>
    if d.streamId = streamId ∧ (d.part.map Prod.fst) = some kind then
      if d.part.map Prod.snd = some .fragment then pending ++ d.data else []
    else pending) []

/-- What is forwarded when the fragments before a message are those given, by kind. -/
def forwarded (fragments : SctpMessageType → List UInt8) (d : Delivery) : List SctpMessage :=
  match d.part with
  | some (_, .fragment) => []
  | some (kind, .final) => [⟨kind, d.streamId, fragments kind ++ d.data⟩]
  | some (kind, .finalEmpty) => [⟨kind, d.streamId, fragments kind⟩]
  | none =>
    if PayloadId.ofPpid d.ppid = some .control then [⟨.control, d.streamId, d.data⟩] else []

/-- **What is to be forwarded** when a message comes after others: nothing but the data of its
own stream. -/
def expected (history : List Delivery) (d : Delivery) : List SctpMessage :=
  forwarded (fun kind => pending kind d.streamId history) d

/-- Every message is forwarded as expected. -/
def Reassembles (deliveries : List Delivery) : Prop :=
  ∀ history d, history ++ [d] <+: deliveries →
    (sctpReceiver.step (sctpReceiver.final {} history) d).2 = expected history d

/-- If this message closes one of its kind, no other stream has one of the kind open. -/
def OthersClosed (history : List Delivery) (d : Delivery) : Prop :=
  ∀ kind part, d.part = some (kind, part) → part ≠ .fragment →
    ∀ streamId, streamId ≠ d.streamId → pending kind streamId history = []

/-- **No message is closed while another stream has one of its kind open.** -/
def Undisturbed (deliveries : List Delivery) : Prop :=
  ∀ history d, history ++ [d] <+: deliveries → OthersClosed history d

/-! ## Rounds of a message -/

namespace SctpReceiver

/-- The fragments of a kind. -/
def fragments (t : SctpReceiver) : SctpMessageType → List UInt8
  | .string => t.stringDataFragments
  | .binary => t.binaryDataFragments
  | _ => []

theorem foldl_recv (pieces : List (List UInt8)) (t : SctpReceiver) :
    pieces.foldl (fun t piece => (t.recv piece false none).1) t =
      { t with messageDataFragments := t.messageDataFragments ++ pieces.flatten } := by
  induction pieces generalizing t with
  | nil => simp
  | cons piece pieces ih =>
    rw [List.foldl_cons, ih]
    simp [recv]

/-- The fragments after a message. -/
def fragmentsAfter (fragments : SctpMessageType → List UInt8) (d : Delivery) :
    SctpMessageType → List UInt8 :=
  match d.part with
  | some (kind, .fragment) => Function.update fragments kind (fragments kind ++ d.data)
  | some (kind, _) => Function.update fragments kind []
  | none => fragments

/-- **One message**, whatever its identifier: the fragments of its kind decide what is forwarded,
and no others change. -/
theorem processMessage_spec (t : SctpReceiver) (d : Delivery) :
    (t.processMessage d.data d.streamId d.ppid).2 = forwarded t.fragments d ∧
      (t.processMessage d.data d.streamId d.ppid).1.fragments = fragmentsAfter t.fragments d := by
  unfold processMessage forwarded fragmentsAfter Delivery.part
  cases hid : PayloadId.ofPpid d.ppid with
  | none => exact ⟨rfl, rfl⟩
  | some id =>
    cases id with
    | control => exact ⟨rfl, rfl⟩
    | stringPartial =>
      refine ⟨rfl, ?_⟩
      funext kind
      cases kind <;> rfl
    | stringEmpty =>
      refine ⟨rfl, ?_⟩
      funext kind
      cases kind <;> rfl
    | binaryPartial =>
      refine ⟨rfl, ?_⟩
      funext kind
      cases kind <;> rfl
    | binaryEmpty =>
      refine ⟨rfl, ?_⟩
      funext kind
      cases kind <;> rfl
    | string =>
      dsimp only
      by_cases hempty : t.stringDataFragments = []
      · rw [if_pos hempty]
        refine ⟨?_, ?_⟩
        · show [SctpMessage.mk .string d.streamId d.data] =
            [⟨.string, d.streamId, t.stringDataFragments ++ d.data⟩]
          rw [hempty, List.nil_append]
        · funext kind
          cases kind with
          | string => exact hempty
          | _ => rfl
      · rw [if_neg hempty]
        refine ⟨rfl, ?_⟩
        funext kind
        cases kind <;> rfl
    | binary =>
      dsimp only
      by_cases hempty : t.binaryDataFragments = []
      · rw [if_pos hempty]
        refine ⟨?_, ?_⟩
        · show [SctpMessage.mk .binary d.streamId d.data] =
            [⟨.binary, d.streamId, t.binaryDataFragments ++ d.data⟩]
          rw [hempty, List.nil_append]
        · funext kind
          cases kind with
          | binary => exact hempty
          | _ => rfl
      · rw [if_neg hempty]
        refine ⟨rfl, ?_⟩
        funext kind
        cases kind <;> rfl

theorem receive_eq (t : SctpReceiver) (d : Delivery) (ht : t.messageDataFragments = []) :
    (t.receive d).2 = forwarded t.fragments d ∧
      (t.receive d).1.fragments = fragmentsAfter t.fragments d ∧
      (t.receive d).1.messageDataFragments = [] := by
  have hspec := processMessage_spec { t with messageDataFragments := d.data } d
  unfold receive
  rw [foldl_recv, ht, List.nil_append]
  exact ⟨hspec.1, hspec.2, rfl⟩

end SctpReceiver

/-! ## Runs -/

theorem pending_append (kind : SctpMessageType) (streamId : UInt16) (history : List Delivery)
    (d : Delivery) :
    pending kind streamId (history ++ [d]) =
      if d.streamId = streamId ∧ (d.part.map Prod.fst) = some kind then
        if d.part.map Prod.snd = some .fragment then pending kind streamId history ++ d.data else []
      else pending kind streamId history :=
  List.foldl_append

/-- **The buffers and the streams**: the fragments of a kind are the pending messages of the
streams, put together in some order. -/
def Tracks (history : List Delivery) (t : SctpReceiver) : Prop :=
  t.messageDataFragments = [] ∧ ∀ kind, ∃ entries : List (UInt16 × List UInt8),
    t.fragments kind = whole entries ∧
      ∀ streamId, pending kind streamId history = part streamId entries

theorem tracks_init : Tracks [] {} := by
  refine ⟨rfl, fun kind => ⟨[], ?_, fun _ => rfl⟩⟩
  cases kind <;> rfl

variable {d : Delivery} {kind : SctpMessageType}

theorem fragmentsAfter_of_ne
    (h : d.part.map Prod.fst ≠ some kind) (fragments : SctpMessageType → List UInt8) :
    SctpReceiver.fragmentsAfter fragments d kind = fragments kind := by
  unfold SctpReceiver.fragmentsAfter
  rcases hpart : d.part with _ | ⟨k, part⟩
  · rfl
  · rw [hpart] at h
    have hne : kind ≠ k := fun heq => h (by rw [heq]; rfl)
    cases part <;> exact Function.update_of_ne hne _ _

theorem fragmentsAfter_fragment
    (h : d.part = some (kind, .fragment)) (fragments : SctpMessageType → List UInt8) :
    SctpReceiver.fragmentsAfter fragments d kind = fragments kind ++ d.data := by
  unfold SctpReceiver.fragmentsAfter
  rw [h]
  exact Function.update_self _ _ _

theorem fragmentsAfter_closing {part : Part}
    (h : d.part = some (kind, part)) (hpart : part ≠ .fragment)
    (fragments : SctpMessageType → List UInt8) :
    SctpReceiver.fragmentsAfter fragments d kind = [] := by
  unfold SctpReceiver.fragmentsAfter
  rw [h]
  cases part with
  | fragment => exact absurd rfl hpart
  | final => exact Function.update_self _ _ _
  | finalEmpty => exact Function.update_self _ _ _

theorem tracks_step {history : List Delivery} {t : SctpReceiver}
    (h : Tracks history t) (hclosed : OthersClosed history d) :
    Tracks (history ++ [d]) (sctpReceiver.step t d).1 := by
  obtain ⟨-, hfragments, hempty⟩ := t.receive_eq d h.1
  refine ⟨hempty, fun kind => ?_⟩
  obtain ⟨entries, hwhole, hpending⟩ := h.2 kind
  rw [show (sctpReceiver.step t d).1.fragments = _ from hfragments]
  by_cases hkind : d.part.map Prod.fst = some kind
  · obtain ⟨⟨k, part⟩, hpart, rfl⟩ := Option.map_eq_some_iff.1 hkind
    by_cases hfragment : part = .fragment
    · subst hfragment
      refine ⟨entries ++ [(d.streamId, d.data)], ?_, fun streamId => ?_⟩
      · rw [fragmentsAfter_fragment hpart, hwhole, whole_append, whole_cons, whole_nil,
          List.append_nil]
      · rw [pending_append, hpending, part_concat, hpart]
        simp
    · refine ⟨[], fragmentsAfter_closing hpart hfragment _, fun streamId => ?_⟩
      rw [pending_append, hpart, part_nil]
      by_cases hstream : d.streamId = streamId
      · simp [hstream, hfragment]
      · simpa [hstream] using hclosed k part hpart hfragment streamId (Ne.symm hstream)
  · refine ⟨entries, ?_, fun streamId => ?_⟩
    · rw [fragmentsAfter_of_ne hkind, hwhole]
    · rw [pending_append, if_neg fun hand => hkind hand.2, hpending]

theorem forwarded_iff {history : List Delivery} {t : SctpReceiver} (h : Tracks history t) :
    (sctpReceiver.step t d).2 = expected history d ↔ OthersClosed history d := by
  obtain ⟨hforwarded, -, -⟩ := t.receive_eq d h.1
  rw [show (sctpReceiver.step t d).2 = _ from hforwarded]
  have hkey : ∀ kind, t.fragments kind = pending kind d.streamId history ↔
      ∀ streamId, streamId ≠ d.streamId → pending kind streamId history = [] := by
    intro kind
    obtain ⟨entries, hwhole, hpending⟩ := h.2 kind
    simp only [hwhole, hpending]
    exact whole_eq_part_iff d.streamId entries
  unfold expected forwarded OthersClosed
  rcases hpart : d.part with _ | ⟨kind, part⟩
  · simp
  cases part with
  | fragment => simp
  | final => simp [hkey]
  | finalEmpty => simp [hkey]

/-- **Every forwarded message is the one of its stream exactly when** no message is closed on one
stream while another stream has a message of the same kind open. -/
theorem reassembles_iff (deliveries : List Delivery) :
    Reassembles deliveries ↔ Undisturbed deliveries := by
  have hinv : ∀ history t d, Tracks history t → OthersClosed history d →
      Tracks (history ++ [d]) (sctpReceiver.step t d).1 := fun _ _ _ h => tracks_step h
  have hiff : ∀ history t d, Tracks history t →
      ((sctpReceiver.step t d).2 = expected history d ↔ OthersClosed history d) :=
    fun _ _ _ h => forwarded_iff h
  exact (sctpReceiver.forall_prefix_iff_of_invariant hinv hiff tracks_init deliveries).1

/-! ## Two streams -/

/-- A partial string on stream 1, and a string on stream 2. -/
def twoStreams : List Delivery := [⟨1, 54, [], [1]⟩, ⟨2, 51, [], [2]⟩]

/-- **The string of one stream** is forwarded with what another stream has sent. -/
theorem streams_mixed : ¬ Reassembles twoStreams := by
  intro h
  have hlast := h [⟨1, 54, [], [1]⟩] ⟨2, 51, [], [2]⟩ (List.prefix_refl _)
  revert hlast
  decide

end NaiveRtc.Transports
