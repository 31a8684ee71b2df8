/-!
# SCTP messages

`rtc/transports/sctp_message.{hpp,cpp}` and the payload protocol identifiers of
`rtc/transports/sctp_transport.hpp`.

* `SctpMessage` — a message that was received; `SctpMessageToSend` — one that is sent, with the
  offset up to which it was.
* `PayloadId` — the identifiers, `ofPpid` and `ppid` their numbers.
-/

namespace NaiveRtc.Transports

/-- `SctpMessage::Type`. -/
inductive SctpMessageType
  | binary
  | string
  | control
  | close
  deriving DecidableEq

/-- `SctpMessage`. -/
structure SctpMessage where
  type : SctpMessageType
  streamId : UInt16
  payload : List UInt8
  deriving DecidableEq

/-- `SctpMessageToSend::Reliability`. -/
structure Reliability where
  ordered : Bool := false
  maxRtxCount : Option UInt16 := none
  maxRtxMs : Option UInt16 := none
  deriving DecidableEq

/-- `SctpMessageToSend`. -/
structure SctpMessageToSend extends SctpMessage where
  reliability : Reliability
  offset : Nat := 0
  deriving DecidableEq

namespace SctpMessageToSend

/-- `available_payload_size()`. -/
def availablePayloadSize (m : SctpMessageToSend) : Nat := m.payload.length - m.offset

/-- `available_payload_data()`, as far as it goes. -/
def availablePayload (m : SctpMessageToSend) : List UInt8 := m.payload.drop m.offset

/-- `Advance(increment)`. -/
def advance (m : SctpMessageToSend) (increment : Nat) : SctpMessageToSend :=
  { m with offset :=
      if m.payload.length < m.offset + increment then m.payload.length else m.offset + increment }

theorem length_availablePayload (m : SctpMessageToSend) :
    m.availablePayload.length = m.availablePayloadSize := List.length_drop

theorem availablePayload_advance (m : SctpMessageToSend) (increment : Nat) :
    (m.advance increment).availablePayload = m.availablePayload.drop increment := by
  unfold advance availablePayload
  dsimp only
  rw [List.drop_drop]
  split
  · rename_i h
    rw [List.drop_length, List.drop_eq_nil_of_le (by omega)]
  · rfl

end SctpMessageToSend

/-- `PayloadId`. -/
inductive PayloadId
  | control
  | string
  | binaryPartial
  | binary
  | stringPartial
  | stringEmpty
  | binaryEmpty
  deriving DecidableEq

/-- The number of an identifier. -/
def PayloadId.ppid : PayloadId → UInt32
  | .control => 50
  | .string => 51
  | .binaryPartial => 52
  | .binary => 53
  | .stringPartial => 54
  | .stringEmpty => 56
  | .binaryEmpty => 57

/-- The identifier that a number stands for. -/
def PayloadId.ofPpid (ppid : UInt32) : Option PayloadId :=
  if ppid = 50 then some .control
  else if ppid = 51 then some .string
  else if ppid = 52 then some .binaryPartial
  else if ppid = 53 then some .binary
  else if ppid = 54 then some .stringPartial
  else if ppid = 56 then some .stringEmpty
  else if ppid = 57 then some .binaryEmpty
  else none

end NaiveRtc.Transports
