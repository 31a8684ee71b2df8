import NaiveRtc.Base.HostMemory

/-!
# The data channel OPEN message

`rtc/data_channel/data_channel_utils.cpp`: the message that opens a channel is a packed
structure of twelve bytes, the label and the protocol.

* `Init`, `Open` — the configuration of a channel and the fixed part of the message.
* `createOpenMessage`, `parseOpenMessage` — what one side writes and the other side takes
  over into the configuration it has.
* `parse_create` — the configuration after the round trip.
* `open_round_trip_iff` — when it is the one that was sent.
-/

namespace NaiveRtc.DataChannel

open ByteIo HostMemory

/-- `DataChannel::Init`. -/
structure Init where
  label : List UInt8
  protocol : List UInt8
  ordered : Bool
  negotiated : Bool
  maxRtxCount : Option UInt16
  maxRtxMs : Option UInt16
  deriving DecidableEq

/-- `Init(label)`: the defaults. -/
def Init.ofLabel (label : List UInt8) : Init := ⟨label, [], true, false, none, none⟩

/-- `message::Open`, the fixed part; the integers are those the host sees. -/
structure Open where
  type : UInt8
  channelType : UInt8
  priority : Nat
  reliabilityParameter : Nat
  labelLength : Nat
  protocolLength : Nat
  deriving DecidableEq

/-- `message::Type::OPEN`. -/
def typeOpen : UInt8 := 0x03

/-- `message::ChannelType::RELIABLE`. -/
def reliable : UInt8 := 0x00

/-- `message::ChannelType::PARTIAL_RELIABLE_REXMIT`. -/
def partialReliableRexmit : UInt8 := 0x01

/-- `message::ChannelType::PARTIAL_RELIABLE_TIMED`. -/
def partialReliableTimed : UInt8 := 0x02

/-- `sizeof(message::Open)`. -/
def sizeofOpen : Nat := 12

/-- The packed structure as it stands in memory. -/
def Open.toBytes (host : ByteOrder) (msg : Open) : List UInt8 :=
  [msg.type, msg.channelType] ++ host.store 2 msg.priority ++
    host.store 4 msg.reliabilityParameter ++ host.store 2 msg.labelLength ++
    host.store 2 msg.protocolLength

/-- The structure a pointer to its bytes is read as. -/
def Open.ofBytes (host : ByteOrder) (bytes : List UInt8) : Open where
  type := bytes.getD 0 0
  channelType := bytes.getD 1 0
  priority := host.load 2 ((bytes.drop 2).take 2)
  reliabilityParameter := host.load 4 ((bytes.drop 4).take 4)
  labelLength := host.load 2 ((bytes.drop 8).take 2)
  protocolLength := host.load 2 ((bytes.drop 10).take 2)

/-! ## Writing -/

/-- The channel type of a configuration, without the marker of unordered channels. -/
def channelTypeOf (config : Init) : UInt8 :=
  if config.maxRtxCount.isSome then partialReliableRexmit
  else if config.maxRtxMs.isSome then partialReliableTimed
  else reliable

/-- The unordered marker bit. -/
def withMarker (ordered : Bool) (channelType : UInt8) : UInt8 :=
  if ordered = false then channelType ||| 0x80 else channelType

/-- The reliability parameter of a configuration. -/
def reliabilityParameterOf (config : Init) : Nat :=
  match config.maxRtxCount, config.maxRtxMs with
  | some count, _ => count.toNat
  | none, some ms => ms.toNat
  | none, none => 0

/-- The fixed part `CreateOpenMessage` fills in: the reliability parameter is the one
integer that is not converted. -/
def openOf (host : ByteOrder) (config : Init) : Open where
  type := typeOpen
  channelType := withMarker config.ordered (channelTypeOf config)
  priority := host.swap 2 0
  reliabilityParameter := reliabilityParameterOf config
  labelLength := host.swap 2 (config.label.length % 2 ^ 16)
  protocolLength := host.swap 2 (config.protocol.length % 2 ^ 16)

/-- `CreateOpenMessage`. -/
def createOpenMessage (host : ByteOrder) (config : Init) : List UInt8 :=
  (openOf host config).toBytes host ++ config.label ++ config.protocol

/-! ## Reading -/

/-- How parsing can fail: by an exception, or by a read outside the message. -/
inductive ParseFault where
  | invalidArgument (what : String)
  | outOfBounds
  deriving DecidableEq

/-- Bytes of the message, read through a pointer. -/
def readMessage (message : List UInt8) (offset size : Nat) :
    EStateM ParseFault Init (List UInt8) :=
  match bytesAt message offset size with
  | some bytes => pure bytes
  | none => throw .outOfBounds

/-- The reliability policy of the message, taken over into the configuration.  The default
case clears `max_rtx_count` twice, and no case clears `max_rtx_ms`. -/
def negotiateReliability (channelType : UInt8) (reliabilityParameter : Nat) (config : Init) :
    Init :=
  if channelType &&& 0x7f = partialReliableRexmit then
    { config with maxRtxCount := some (UInt16.ofNat reliabilityParameter) }
  else if channelType &&& 0x7f = partialReliableTimed then
    { config with maxRtxMs := some (UInt16.ofNat reliabilityParameter) }
  else { config with maxRtxCount := none }

theorem negotiate_rexmit (parameter : Nat) (config : Init) :
    negotiateReliability partialReliableRexmit parameter config =
      { config with maxRtxCount := some (UInt16.ofNat parameter) } := if_pos (by decide)

theorem negotiate_timed (parameter : Nat) (config : Init) :
    negotiateReliability partialReliableTimed parameter config =
      { config with maxRtxMs := some (UInt16.ofNat parameter) } :=
  (if_neg (by decide)).trans (if_pos (by decide))

theorem negotiate_reliable (parameter : Nat) (config : Init) :
    negotiateReliability reliable parameter config = { config with maxRtxCount := none } :=
  (if_neg (by decide)).trans (if_neg (by decide))

/-- `ParseOpenMessage`. -/
def parseOpenMessage (host : ByteOrder) (message : List UInt8) :
    EStateM ParseFault Init Unit := do
  if message.length < sizeofOpen then
    throw (.invalidArgument "DataChannel open message too small")
  let msg := Open.ofBytes host (← readMessage message 0 sizeofOpen)
  let reliabilityParameter := host.swap 4 msg.reliabilityParameter
  let labelLength := host.swap 2 msg.labelLength
  let protocolLength := host.swap 2 msg.protocolLength
  if message.length < sizeofOpen + (labelLength + protocolLength) then
    throw (.invalidArgument "DataChannel open message truncated")
  let label ← readMessage message sizeofOpen labelLength
  modify fun config => { config with label := label }
  let protocol ← readMessage message (sizeofOpen + labelLength) protocolLength
  modify fun config => { config with protocol := protocol }
  modify fun config => { config with ordered := msg.channelType &&& 0x80 = 0 }
  modify (negotiateReliability msg.channelType reliabilityParameter)

/-! ## Every message -/

/-- What a message that is long enough does to the configuration. -/
def accepted (host : ByteOrder) (message : List UInt8) (config : Init) : Init :=
  let msg := Open.ofBytes host (message.take sizeofOpen)
  let labelLength := host.swap 2 msg.labelLength
  negotiateReliability msg.channelType (host.swap 4 msg.reliabilityParameter)
    { config with
      label := (message.drop sizeofOpen).take labelLength
      protocol := (message.drop (sizeofOpen + labelLength)).take (host.swap 2 msg.protocolLength)
      ordered := msg.channelType &&& 0x80 = 0 }

/-- The bytes a message has to have for the lengths in its fixed part. -/
def declaredSize (host : ByteOrder) (message : List UInt8) : Nat :=
  let msg := Open.ofBytes host (message.take sizeofOpen)
  sizeofOpen + (host.swap 2 msg.labelLength + host.swap 2 msg.protocolLength)

theorem run_readMessage {message : List UInt8} {offset size : Nat} (config : Init)
    (h : offset + size ≤ message.length) : readMessage message offset size config =
      .ok ((message.drop offset).take size) config := by
  rw [readMessage, bytesAt_of_le h]
  rfl

/-- **Parsing any message**: it throws and leaves the configuration alone, or the message
holds everything that is read. -/
theorem run_parseOpenMessage (host : ByteOrder) (message : List UInt8) (config : Init) :
    (parseOpenMessage host message).run config =
      if message.length < sizeofOpen then
        .error (.invalidArgument "DataChannel open message too small") config
      else if message.length < declaredSize host message then
        .error (.invalidArgument "DataChannel open message truncated") config
      else .ok () (accepted host message config) := by
  by_cases hshort : message.length < sizeofOpen
  · rw [if_pos hshort, parseOpenMessage, if_pos hshort]
    rfl
  have hfixed : readMessage message 0 sizeofOpen config = .ok (message.take sizeofOpen) config :=
    run_readMessage config (by omega)
  rw [if_neg hshort, parseOpenMessage, if_neg hshort]
  simp only [EStateM.run, bind, EStateM.bind, hfixed]
  split
  · rename_i htrunc
    exact (if_pos htrunc).symm
  · rename_i hsize
    refine Eq.trans ?_ (if_neg hsize).symm
    simp only [EStateM.bind]
    rw [run_readMessage _ (by omega)]
    simp only [modify, modifyGet, MonadStateOf.modifyGet]
    unfold EStateM.modifyGet
    dsimp only
    rw [run_readMessage _ (by omega)]
    rfl

/-! ## What was written -/

section Written

variable (host : ByteOrder) (msg : Open)

theorem length_toBytes : (msg.toBytes host).length = sizeofOpen := by
  simp [Open.toBytes, sizeofOpen]

theorem ofBytes_toBytes :
    (Open.ofBytes host (msg.toBytes host)).channelType = msg.channelType ∧
    host.swap 4 (Open.ofBytes host (msg.toBytes host)).reliabilityParameter =
      readBigEndian 4 (host.store 4 msg.reliabilityParameter) ∧
    host.swap 2 (Open.ofBytes host (msg.toBytes host)).labelLength =
      readBigEndian 2 (host.store 2 msg.labelLength) ∧
    host.swap 2 (Open.ofBytes host (msg.toBytes host)).protocolLength =
      readBigEndian 2 (host.store 2 msg.protocolLength) := by
  have hreliability :
      ((msg.toBytes host).drop 4).take 4 = host.store 4 msg.reliabilityParameter := by
    simp [Open.toBytes]
  have hlabel : ((msg.toBytes host).drop 8).take 2 = host.store 2 msg.labelLength := by
    simp [Open.toBytes, List.drop_append, List.take_append]
  have hprotocol : ((msg.toBytes host).drop 10).take 2 = host.store 2 msg.protocolLength := by
    rw [Open.toBytes, List.drop_left' (by simp), List.take_of_length_le (by simp)]
  refine ⟨rfl, ?_, ?_, ?_⟩
  · rw [Open.ofBytes, hreliability, ByteOrder.swap_load host (by simp)]
  · rw [Open.ofBytes, hlabel, ByteOrder.swap_load host (by simp)]
  · rw [Open.ofBytes, hprotocol, ByteOrder.swap_load host (by simp)]

theorem read_store_swap (n : Nat) (hn : n ≤ 65535) :
    readBigEndian 2 (host.store 2 (host.swap 2 (n % 2 ^ 16))) = n := by
  have hread := readBigEndian_write 2 (n % 2 ^ 16) []
  rw [List.append_nil] at hread
  rw [ByteOrder.store_swap, hread]
  omega

end Written

theorem read_store_big (v : UInt16) :
    UInt16.ofNat (readBigEndian 4 (ByteOrder.big.store 4 v.toNat)) = v := by
  have hread := readBigEndian_write 4 v.toNat []
  have hv := v.toNat_lt
  rw [List.append_nil] at hread
  show UInt16.ofNat (readBigEndian 4 (writeBigEndian 4 v.toNat)) = v
  rw [hread, Nat.mod_eq_of_lt (by omega), UInt16.ofNat_toNat]

theorem read_store_little (v : UInt16) :
    UInt16.ofNat (readBigEndian 4 (ByteOrder.little.store 4 v.toNat)) = 0 := by
  have hv := v.toNat_lt
  have hhigh : ∀ k, 16 ≤ k → v.toNat >>> k = 0 := fun k hk => by
    rw [Nat.shiftRight_eq_div_pow]
    exact Nat.div_eq_of_lt (lt_of_lt_of_le hv (Nat.pow_le_pow_right (by decide) hk))
  have hbytes : ByteOrder.little.store 4 v.toNat =
      [UInt8.ofNat v.toNat, UInt8.ofNat (v.toNat >>> 8), 0, 0] := by
    show [UInt8.ofNat (v.toNat >>> 0), UInt8.ofNat (v.toNat >>> 8), UInt8.ofNat (v.toNat >>> 16),
      UInt8.ofNat (v.toNat >>> 24)] = _
    rw [hhigh 16 (by decide), hhigh 24 (by decide)]
    rfl
  have hread : readBigEndian 4 (ByteOrder.little.store 4 v.toNat) % 2 ^ 16 = 0 := by
    apply Nat.eq_of_testBit_eq
    intro k
    rw [Nat.testBit_mod_two_pow, hbytes]
    have hlow : ∀ n : Nat, n < 16 → (readBigEndian 4
        [UInt8.ofNat v.toNat, UInt8.ofNat (v.toNat >>> 8), 0, 0]).testBit n = false := by
      intro n hn
      simp [readBigEndian, BitField.orFields, BitField.place, show ¬ 24 ≤ n by omega,
        show ¬ 16 ≤ n by omega]
    by_cases hk : k < 16
    · rw [hlow k hk, Bool.and_false, Nat.zero_testBit]
    · rw [decide_eq_false hk, Bool.false_and, Nat.zero_testBit]
  apply UInt16.toNat_inj.mp
  rw [UInt16.toNat_ofNat', hread]
  rfl

/-! ## The round trip -/

theorem channelTypeOf_cases (config : Init) : channelTypeOf config = partialReliableRexmit ∨
    channelTypeOf config = partialReliableTimed ∨ channelTypeOf config = reliable := by
  unfold channelTypeOf
  split_ifs
  · exact .inl rfl
  · exact .inr (.inl rfl)
  · exact .inr (.inr rfl)

theorem channelType_openOf (host : ByteOrder) (config : Init) :
    decide ((openOf host config).channelType &&& 0x80 = 0) = config.ordered ∧
      (openOf host config).channelType &&& 0x7f = channelTypeOf config := by
  have hmarker : ∀ t, t = partialReliableRexmit ∨ t = partialReliableTimed ∨ t = reliable →
      ∀ ordered, decide (withMarker ordered t &&& 0x80 = 0) = ordered ∧
        withMarker ordered t &&& 0x7f = t := by
    rintro t (rfl | rfl | rfl) <;> decide
  exact hmarker _ (channelTypeOf_cases config) config.ordered

/-- The configuration after the round trip: the label, the protocol and the order are those
that were sent; the rest depends on the host and on the configuration before. -/
theorem parse_create (host : ByteOrder) {config : Init} (before : Init)
    (hlabel : config.label.length ≤ 65535) (hprotocol : config.protocol.length ≤ 65535) :
    (parseOpenMessage host (createOpenMessage host config)).run before =
      .ok () (negotiateReliability (openOf host config).channelType
        (readBigEndian 4 (host.store 4 (reliabilityParameterOf config)))
        { before with
          label := config.label
          protocol := config.protocol
          ordered := config.ordered }) := by
  obtain ⟨hchannel, hreliability, hlabelLength, hprotocolLength⟩ :=
    ofBytes_toBytes host (openOf host config)
  replace hlabelLength := hlabelLength.trans (read_store_swap host _ hlabel)
  replace hprotocolLength := hprotocolLength.trans (read_store_swap host _ hprotocol)
  have hfixed :
      (createOpenMessage host config).take sizeofOpen = (openOf host config).toBytes host := by
    rw [createOpenMessage, List.append_assoc, List.take_left' (length_toBytes ..)]
  have hsize : declaredSize host (createOpenMessage host config) =
      (createOpenMessage host config).length := by
    rw [declaredSize, hfixed, hlabelLength, hprotocolLength, createOpenMessage, List.length_append,
      List.length_append, length_toBytes, Nat.add_assoc]
  have hordered := (channelType_openOf host config).1
  have hlabelBytes : ((createOpenMessage host config).drop sizeofOpen).take config.label.length =
      config.label := by
    rw [createOpenMessage, List.append_assoc, List.drop_left' (length_toBytes ..), List.take_left]
  have hprotocolBytes : ((createOpenMessage host config).drop
      (sizeofOpen + config.label.length)).take config.protocol.length = config.protocol := by
    rw [createOpenMessage, List.drop_left' (by rw [List.length_append, length_toBytes]),
      List.take_length]
  have hlong : sizeofOpen ≤ (createOpenMessage host config).length := by
    rw [← hsize, declaredSize]
    exact Nat.le_add_right _ _
  rw [run_parseOpenMessage, if_neg (Nat.not_lt.mpr hlong), if_neg (by rw [hsize]; omega),
    accepted, hfixed, hchannel, hreliability, hlabelLength, hprotocolLength, hlabelBytes,
    hprotocolBytes, hordered]
  rfl

/-- **The round trip**: every field is the one that was sent. -/
def RoundTrip (host : ByteOrder) (config before : Init) : Prop :=
  ∃ after, (parseOpenMessage host (createOpenMessage host config)).run before = .ok () after ∧
    after.label = config.label ∧ after.protocol = config.protocol ∧
    after.ordered = config.ordered ∧ after.maxRtxCount = config.maxRtxCount ∧
    after.maxRtxMs = config.maxRtxMs

theorem roundTrip_iff (host : ByteOrder) {config : Init} (before : Init)
    (hlabel : config.label.length ≤ 65535) (hprotocol : config.protocol.length ≤ 65535) :
    RoundTrip host config before ↔
      let after := negotiateReliability (channelTypeOf config)
        (readBigEndian 4 (host.store 4 (reliabilityParameterOf config))) before
      after.maxRtxCount = config.maxRtxCount ∧ after.maxRtxMs = config.maxRtxMs := by
  have hkind := (channelType_openOf host config).2
  rw [RoundTrip, parse_create host before hlabel hprotocol]
  simp only [negotiateReliability, hkind, EStateM.Result.ok.injEq, true_and, exists_eq_left']
  obtain h | h | h := channelTypeOf_cases config
  all_goals
    rw [h]
    exact ⟨fun hafter => hafter.2.2.2, fun hafter => ⟨rfl, rfl, rfl, hafter⟩⟩

/-- The parameters that come through: all of them on a big-endian host, zero on others. -/
def ParameterKept (host : ByteOrder) (config : Init) : Prop :=
  host = .big ∨ ∀ v, config.maxRtxCount = some v ∨ config.maxRtxMs = some v → v = 0

/-- The limit that the message does not set was not set before. -/
def NothingStale (config before : Init) : Prop :=
  if config.maxRtxMs.isSome then before.maxRtxCount = none else before.maxRtxMs = none

theorem read_store_eq_iff (host : ByteOrder) (v : UInt16) :
    UInt16.ofNat (readBigEndian 4 (host.store 4 v.toNat)) = v ↔ host = .big ∨ v = 0 := by
  cases host with
  | little => rw [read_store_little]; simp [eq_comm]
  | big => rw [read_store_big]; simp

/-- **When the OPEN message comes through.**  The receiver ends with the configuration of the
sender exactly if the limit that was sent survives the missing conversion and no limit of the
other kind was left from before.  Any byte string is either refused, with the configuration
unchanged, or read inside its bounds. -/
theorem open_round_trip_iff (host : ByteOrder) :
    (∀ config before : Init, config.label.length ≤ 65535 → config.protocol.length ≤ 65535 →
      (config.maxRtxCount = none ∨ config.maxRtxMs = none) →
      (RoundTrip host config before ↔ ParameterKept host config ∧ NothingStale config before)) ∧
    ∀ (message : List UInt8) (before : Init),
      (∃ what, (parseOpenMessage host message).run before = .error (.invalidArgument what) before) ∨
      ∃ after, (parseOpenMessage host message).run before = .ok () after := by
  refine ⟨?_, ?_⟩
  · intro config before hlabel hprotocol hone
    rw [roundTrip_iff host before hlabel hprotocol]
    obtain ⟨label, protocol, ordered, negotiated, count, ms⟩ := config
    cases count with
    | some count =>
      obtain rfl : ms = none := hone.resolve_left (by simp)
      dsimp only [channelTypeOf, Option.isSome]
      rw [if_pos rfl, negotiate_rexmit]
      change some (UInt16.ofNat (readBigEndian 4 (host.store 4 count.toNat))) = some count ∧
        before.maxRtxMs = none ↔ _
      rw [Option.some_inj, read_store_eq_iff]
      simp [ParameterKept, NothingStale]
    | none =>
      cases ms with
      | some ms =>
        dsimp only [channelTypeOf, Option.isSome]
        rw [if_neg (by decide), if_pos rfl, negotiate_timed]
        change before.maxRtxCount = none ∧
          some (UInt16.ofNat (readBigEndian 4 (host.store 4 ms.toNat))) = some ms ↔ _
        rw [Option.some_inj, read_store_eq_iff, and_comm]
        simp [ParameterKept, NothingStale]
      | none =>
        dsimp only [channelTypeOf, Option.isSome]
        rw [if_neg (by decide), if_neg (by decide), negotiate_reliable]
        change (none : Option UInt16) = none ∧ before.maxRtxMs = none ↔ _
        simp [ParameterKept, NothingStale]
  · intro message before
    rw [run_parseOpenMessage]
    split_ifs
    · exact .inl ⟨_, rfl⟩
    · exact .inl ⟨_, rfl⟩
    · exact .inr ⟨_, rfl⟩

/-- A limit of five retransmissions is lost on a little-endian host, and a channel without
limits keeps the old life-time of the other side on any host. -/
theorem open_limits_lost :
    ¬ RoundTrip .little { Init.ofLabel [100] with maxRtxCount := some 5 } (Init.ofLabel []) ∧
    ∀ host, ¬ RoundTrip host (Init.ofLabel [100]) { Init.ofLabel [] with maxRtxMs := some 5 } := by
  refine ⟨?_, ?_⟩
  · rw [roundTrip_iff _ _ (by decide) (by decide)]
    dsimp only [channelTypeOf, Option.isSome]
    rw [if_pos rfl, negotiate_rexmit]
    rintro ⟨hcount, -⟩
    have hzero := Option.some.inj hcount
    rw [show reliabilityParameterOf _ = (5 : UInt16).toNat from rfl, read_store_little] at hzero
    exact absurd hzero (by decide)
  · intro host
    rw [roundTrip_iff _ _ (by decide) (by decide)]
    rw [show channelTypeOf (Init.ofLabel [100]) = reliable from rfl]
    dsimp only
    rw [negotiate_reliable]
    rintro ⟨-, hms⟩
    cases hms

/-- An unordered channel without limits, opened at a new configuration. -/
theorem open_round_trip_unordered :
    RoundTrip .little { Init.ofLabel [100, 99] with ordered := false } (Init.ofLabel []) :=
  ((open_round_trip_iff .little).1 _ _ (by decide) (by decide) (.inl rfl)).mpr
    ⟨.inr (by rintro v (h | h) <;> cases h), rfl⟩

end NaiveRtc.DataChannel
