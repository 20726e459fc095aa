import DueServer.ProtocolReader

/-! Framing: the size prefix that each encoder writes, and splitting a stream of messages and
heartbeats with `ReadMessage`. -/
namespace DueServer.Protocol

open Buffer Framing Nocopy Lib
open List

inductive Req where
  | handshake (insKind : ℤ) (insID : List UInt8)
  | bind (cid uid : Int64)
  | unbind (uid : Int64)
  | getIP (kind : Kind) (target : Int64)
  | stat (kind : Kind)
  | isOnline (kind : Kind) (target : Int64)
  | disconnect (kind : Kind) (target : Int64) (force : Bool)
  | disconnectCurrent (kind : Kind) (target : Int64) (force : Bool) (token : SessionToken)
  | push (kind : Kind) (target : Int64) (disconnect : Bool)
      (token : SessionToken) (message : Nocopy)
  | multicast (kind : Kind) (targets : List Int64) (disconnect : Bool) (message : Nocopy)
  | broadcast (kind : Kind) (disconnect : Bool) (message : Nocopy)
  | publish (channel : List UInt8) (disconnect : Bool) (message : Nocopy)
  | subscribe (kind : Kind) (targets : List Int64) (channel : List UInt8)
  | unsubscribe (kind : Kind) (targets : List Int64) (channel : List UInt8)
  | trigger (event : ℤ) (cid uid : Int64) (generation : UInt64)
  | deliver (cid uid : Int64) (generation : UInt64) (buf : Nocopy)
  | deliverWithMetadata (cid uid : Int64) (generation : UInt64) (metadata : RequestMetadata)
      (buf : Nocopy)
  | getState
  | setState (state : ℤ)

inductive Res where
  | handshake
  | bind
  | unbind
  | getIP (ip : List (List UInt8))
  | stat (total : List UInt64)
  | isOnline (isOnline : Bool)
  | disconnect
  | push
  | multicast (total : List UInt64)
  | broadcast (total : List UInt64)
  | publish (total : List UInt64)
  | subscribe
  | unsubscribe
  | trigger
  | deliver
  | getState (state : ℤ)
  | setState

inductive Call where
  | req (seq : UInt64) (r : Req)
  | res (seq : UInt64) (code : UInt16) (r : Res)

def Req.encode (seq : UInt64) : Req → Option Nocopy
  | handshake insKind insID => encodeHandshakeReq seq insKind insID
  | bind cid uid => encodeBindReq seq cid uid
  | unbind uid => encodeUnbindReq seq uid
  | getIP kind target => encodeGetIPReq seq kind target
  | stat kind => encodeStatReq seq kind
  | isOnline kind target => encodeIsOnlineReq seq kind target
  | disconnect kind target force => encodeDisconnectReq seq kind target force
  | disconnectCurrent kind target force token =>
    encodeDisconnectCurrentReq seq kind target force token
  | push kind target last token message => encodePushReq seq kind target last token message
  | multicast kind targets last message => encodeMulticastReq seq kind targets last message
  | broadcast kind last message => encodeBroadcastReq seq kind last message
  | publish channel last message => encodePublishReq seq channel last message
  | subscribe kind targets channel => encodeSubscribeReq seq kind targets channel
  | unsubscribe kind targets channel => encodeUnsubscribeReq seq kind targets channel
  | trigger event cid uid generation => encodeTriggerReq seq event cid uid generation
  | deliver cid uid generation buf => encodeDeliverReq seq cid uid generation buf
  | deliverWithMetadata cid uid generation metadata buf =>
    encodeDeliverReqWithMetadata seq cid uid generation metadata buf
  | getState => encodeGetStateReq seq
  | setState state => encodeSetStateReq seq state

def Res.encode (seq : UInt64) (code : UInt16) : Res → Option Nocopy
  | handshake => encodeHandshakeRes seq code
  | bind => encodeBindRes seq code
  | unbind => encodeUnbindRes seq code
  | getIP ip => encodeGetIPRes seq code ip
  | stat total => encodeStatRes seq code total
  | isOnline online => encodeIsOnlineRes seq code online
  | disconnect => encodeDisconnectRes seq code
  | push => encodePushRes seq code
  | multicast total => encodeMulticastRes seq code total
  | broadcast total => encodeBroadcastRes seq code total
  | publish total => encodePublishRes seq code total
  | subscribe => encodeSubscribeRes seq code
  | unsubscribe => encodeUnsubscribeRes seq code
  | trigger => encodeTriggerRes seq code
  | deliver => encodeDeliverRes seq code
  | getState state => encodeGetStateRes seq code state
  | setState => encodeSetStateRes seq code

def Req.route : Req → UInt8
  | handshake .. => routeHandshake
  | bind .. => routeBind
  | unbind .. => routeUnbind
  | getIP .. => routeGetIP
  | stat .. => routeStat
  | isOnline .. => routeIsOnline
  | disconnect .. => routeDisconnect
  | disconnectCurrent .. => routeDisconnect
  | push .. => routePush
  | multicast .. => routeMulticast
  | broadcast .. => routeBroadcast
  | publish .. => routePublish
  | subscribe .. => routeSubscribe
  | unsubscribe .. => routeUnsubscribe
  | trigger .. => routeTrigger
  | deliver .. => routeDeliver
  | deliverWithMetadata .. => routeDeliver
  | getState => routeGetState
  | setState .. => routeSetState

def Res.route : Res → UInt8
  | handshake => routeHandshake
  | bind => routeBind
  | unbind => routeUnbind
  | getIP .. => routeGetIP
  | stat .. => routeStat
  | isOnline .. => routeIsOnline
  | disconnect => routeDisconnect
  | push => routePush
  | multicast .. => routeMulticast
  | broadcast .. => routeBroadcast
  | publish .. => routePublish
  | subscribe => routeSubscribe
  | unsubscribe => routeUnsubscribe
  | trigger => routeTrigger
  | deliver => routeDeliver
  | getState .. => routeGetState
  | setState => routeSetState

namespace Call

def encode : Call → Option Nocopy
  | req seq r => r.encode seq
  | res seq code r => r.encode seq code

def route : Call → UInt8
  | req _ r => r.route
  | res _ _ r => r.route

def seq : Call → UInt64
  | req seq _ => seq
  | res seq _ _ => seq

def Exact : Call → Prop
  | res _ code (.publish total) => sentTotal code total ≠ none
  | _ => True

end Call

section Shape

variable {seq : UInt64} {route : UInt8}

def ExactShape (e : Option Nocopy) (route : UInt8) (seq : UInt64) : Prop :=
  ∃ cap size header fields mounted, e = encode cap size header route seq fields mounted ∧
    (header = dataBit ∨ header = dataBit ||| disconnectBit ∨ header = dataBit ||| traceContextBit) ∧
    size = 10 + Put.sizes fields + Nocopy.lens mounted

theorem encodeFixed_shape {bytes : ℕ} {fields : List Put} (h : bytes = 14 + Put.sizes fields) :
    ExactShape (encodeFixed bytes route seq fields) route seq := by
  refine ⟨_, _, _, _, _, rfl, .inl rfl, ?_⟩
  have h4 : defaultSizeBytes = 4 := rfl
  have h0 : lens [] = 0 := rfl
  omega

theorem disconnectHeader_cases (last : Bool) : disconnectHeader last = dataBit ∨
    disconnectHeader last = dataBit ||| disconnectBit ∨
    disconnectHeader last = dataBit ||| traceContextBit := by
  cases last with
  | false => exact .inl rfl
  | true => exact .inr (.inl rfl)

theorem lens_message (message : Nocopy) : lens [message] = message.len := Nat.add_zero _

def targetFields (kind : Kind) (targets : List Int64) : List Put :=
  [.uint8s [kindByte kind], .uint16s [UInt16.ofNat targets.length], .int64s targets]

theorem sizes_targetFields (kind : Kind) (targets : List Int64) :
    Put.sizes (targetFields kind targets) = 3 + 8 * targets.length := by
  show 1 + (2 * 1 + (8 * targets.length + 0)) = _
  omega

theorem writeTargets_eq (w : Writer) (size : ℕ) (header : UInt8) (kind : Kind)
    (targets : List Int64) : writeTargets w size header route seq kind targets =
      (preamble size header route seq ++ targetFields kind targets).foldlM Writer.write w := by
  simp [writeTargets, preamble, targetFields, Writer.write]

theorem encodeMulticastReq_eq (kind : Kind) (targets : List Int64) (last : Bool)
    (message : Nocopy) : encodeMulticastReq seq kind targets last message =
      encode (multicastReqBytes + targets.length * 8)
        (multicastReqBytes + targets.length * 8 - defaultSizeBytes + message.len)
        (disconnectHeader last) routeMulticast seq (targetFields kind targets) [message] := by
  simp only [encodeMulticastReq, writeTargets_eq, encode, disconnectHeader]

theorem encodeChannelReq_eq (reqBytes : ℕ) (kind : Kind) (targets : List Int64)
    (channel : List UInt8) : encodeChannelReq reqBytes route seq kind targets channel =
      encode (reqBytes + targets.length * 8 + channel.length)
        (reqBytes + targets.length * 8 + channel.length - defaultSizeBytes) dataBit route seq
        (targetFields kind targets ++ [.string channel]) [] := by
  simp only [encodeChannelReq, writeTargets_eq, encode, foldlM_append,
    foldlM_cons, foldlM_nil, Writer.write, bind_pure, bind_assoc]

theorem encodeChannelReq_shape {reqBytes : ℕ} (h : reqBytes = 17) (kind : Kind)
    (targets : List Int64) (channel : List UInt8) :
    ExactShape (encodeChannelReq reqBytes route seq kind targets channel) route seq := by
  refine ⟨_, _, _, _, _, encodeChannelReq_eq .., .inl rfl, ?_⟩
  have h4 : defaultSizeBytes = 4 := rfl
  have hsiz : Put.sizes (targetFields kind targets ++ [.string channel]) =
      3 + 8 * targets.length + channel.length := by
    rw [Put.sizes_append, sizes_targetFields]
    rfl
  have h0 : lens [] = 0 := rfl
  omega

theorem encodeDeliverReqWithMetadata_shape (cid uid : Int64) (generation : UInt64)
    (metadata : RequestMetadata) (buf : Nocopy) :
    ExactShape (encodeDeliverReqWithMetadata seq cid uid generation metadata buf) routeDeliver
      seq := by
  refine ⟨_, _, _, _, _, rfl, ?_, ?_⟩
  · split
    · exact .inr (.inr rfl)
    · exact .inl rfl
  · have h4 : defaultSizeBytes = 4 := rfl
    have h48 : deliverReqBytes = 48 := rfl
    have h5 : deliverTraceContextFixedBytes = 5 := rfl
    rw [Put.sizes_append]
    cases hasTraceContext metadata with
    | false =>
      show _ = 10 + (8 * 2 + (8 * 1 + (8 * 1 + (2 * 1 + (metadata.correlationID.length + 0)))) +
        0) + buf.len
      simp only [Bool.false_eq_true, if_false]
      omega
    | true =>
      show _ = 10 + (8 * 2 + (8 * 1 + (8 * 1 + (2 * 1 + (metadata.correlationID.length + 0)))) +
        (1 + (2 * 2 + (metadata.traceParent.length + (metadata.traceState.length + 0))))) + buf.len
      simp only [if_true]
      omega

theorem encodeTriggerReq_shape (event : ℤ) (cid uid : Int64) (generation : UInt64) :
    ExactShape (encodeTriggerReq seq event cid uid generation) routeTrigger seq := by
  refine ⟨_, _, _, _, _, rfl, .inl rfl, ?_⟩
  by_cases h : uid = 0
  · simp only [if_pos h]
    rfl
  simp only [if_neg h]
  rfl

theorem Req.exactShape (seq : UInt64) (r : Req) : ExactShape (r.encode seq) r.route seq := by
  have h4 : defaultSizeBytes = 4 := rfl
  cases r with
  | handshake insKind insID =>
    refine ⟨_, _, _, _, _, rfl, .inl rfl, ?_⟩
    show 15 + insID.length - 4 = 10 + (1 + (insID.length + 0)) + 0
    omega
  | push kind target last | broadcast kind last =>
    refine ⟨_, _, _, _, _, rfl, disconnectHeader_cases last, ?_⟩
    rfl
  | multicast kind targets last =>
    refine ⟨_, _, _, _, _, encodeMulticastReq_eq .., disconnectHeader_cases last, ?_⟩
    have h17 : multicastReqBytes = 17 := rfl
    rw [lens_message, sizes_targetFields]
    omega
  | publish channel last message =>
    refine ⟨_, _, _, _, _, rfl, disconnectHeader_cases last, ?_⟩
    show 15 + channel.length - 4 + message.len = 10 + (1 + (channel.length + 0)) + message.len
    omega
  | subscribe kind targets channel | unsubscribe kind targets channel =>
    exact encodeChannelReq_shape rfl kind targets channel
  | trigger event cid uid generation => exact encodeTriggerReq_shape event cid uid generation
  | deliver | deliverWithMetadata => exact encodeDeliverReqWithMetadata_shape ..
  | _ => exact encodeFixed_shape rfl

theorem sizes_totalFields (code : UInt16) (total : List UInt64) :
    Put.sizes (totalFields code total) = if sentTotal code total = none then 2 else 10 := by
  unfold totalFields
  cases sentTotal code total with
  | none | some => rfl

theorem encodeTotalRes_shape {resBytes : ℕ} (h : resBytes = 24) (code : UInt16)
    (total : List UInt64) :
    ExactShape (encodeTotalRes seq code resBytes route total) route seq := by
  refine ⟨_, _, _, _, _, rfl, .inl rfl, ?_⟩
  rw [h, sizes_totalFields]
  split
  · rfl
  · rfl

theorem encodeGetIPRes_shape (code : UInt16) (ip : List (List UInt8)) :
    ExactShape (encodeGetIPRes seq code ip) routeGetIP seq := by
  refine ⟨_, _, _, _, _, rfl, .inl rfl, ?_⟩
  cases sentIP code ip with
  | none | some => rfl

theorem Res.exactShape {code : UInt16} {r : Res} (h : (Call.res seq code r).Exact) :
    ExactShape (r.encode seq code) r.route seq := by
  cases r with
  | getIP ip => exact encodeGetIPRes_shape code ip
  | stat total | multicast total | broadcast total => exact encodeTotalRes_shape rfl code total
  | publish =>
    refine ⟨_, _, _, _, _, rfl, .inl rfl, ?_⟩
    rw [sizes_totalFields, if_neg h]
    rfl
  | _ => exact encodeFixed_shape rfl

theorem Call.exactShape {c : Call} (h : c.Exact) : ExactShape c.encode c.route c.seq := by
  cases c with
  | req seq r => exact r.exactShape seq
  | res => exact Res.exactShape h

end Shape

section Bytes

variable {size : ℕ} {header route : UInt8} {seq : UInt64} {rest : List UInt8}

theorem visit_encode (cap size : ℕ) (header route : UInt8) (seq : UInt64) (fields : List Put)
    (mounted : List Nocopy) : ∃ buf,
      encode cap size header route seq fields mounted = some buf ∧
      buf.visit = start size header route seq ++ (Put.allBytes fields ++ visits mounted) := by
  refine ⟨_, encode_eq, ?_⟩
  rw [visit, visits, visit, append_assoc]

/-- No encoder panics. What it produces starts with size, header, route and sequence number, and
the size is that of the rest unless a publish response leaves its total out. -/
theorem Call.encoded (c : Call) : ∃ buf size header rest, c.encode = some buf ∧
    buf.visit = start size header c.route c.seq ++ rest ∧
    header &&& heartbeatBit ≠ heartbeatBit ∧
    (c.Exact ∧ size = 10 + rest.length ∨ ¬ c.Exact ∧ size = 20 ∧ rest.length = 2) := by
  by_cases hex : c.Exact
  · obtain ⟨cap, size, header, fields, mounted, he, hhdr, hsize⟩ := c.exactShape hex
    obtain ⟨buf, hbuf, hvis⟩ := visit_encode cap size header c.route c.seq fields mounted
    refine ⟨buf, size, header, _, he.trans hbuf, hvis, ?_, .inl ⟨hex, ?_⟩⟩
    · rcases hhdr with rfl | rfl | rfl <;> decide
    · rw [length_append, Put.length_allBytes, length_visits, hsize, Nat.add_assoc]
  · rcases c with ⟨seq, r⟩ | ⟨seq, code, r⟩
    · exact absurd trivial hex
    · cases r with
      | publish total =>
        obtain ⟨buf, hbuf, hvis⟩ :=
          visit_encode publishResBytes 20 dataBit routePublish seq (totalFields code total) []
        refine ⟨buf, 20, dataBit, _, hbuf, hvis, by decide, .inr ⟨hex, rfl, ?_⟩⟩
        have hnone : sentTotal code total = none := not_not.mp hex
        rw [length_append, Put.length_allBytes, sizes_totalFields, if_pos hnone]
        rfl
      | _ => exact absurd trivial hex

theorem natBE_start (h : size < 2 ^ 32) :
    natBE ((start size header route seq ++ rest).take sizeBytes) = size := by
  have htake : (start size header route seq ++ rest).take sizeBytes =
      bytesBE 4 (UInt32.ofNat size).toNat := by
    exact take_left' (length_bytesBE ..)
  rw [htake, natBE_bytesBE, UInt32.toNat_ofNat', Nat.mod_eq_of_lt h]
  exact Nat.mod_eq_of_lt h

theorem routeOf_start : routeOf (start size header route seq ++ rest) = route := rfl

theorem seqOf_start : seqOf (start size header route seq ++ rest) = seq := by
  have hdrop : (start size header route seq ++ rest).drop (defaultSizeBytes + defaultHeaderBytes +
      defaultRouteBytes) = bytesBE 8 seq.toNat ++ rest := rfl
  rw [seqOf, hdrop, take_left' (length_bytesBE ..), natBE_bytesBE_of_lt seq.toNat_lt,
    UInt64.ofNat_toNat]

end Bytes

def Call.wire (c : Call) : List UInt8 :=
  match c.encode with
  | none => []
  | some buf => buf.visit

inductive Item where
  | heartbeat
  | call (c : Call)

namespace Item

def wire : Item → List UInt8
  | heartbeat => Protocol.heartbeat
  | call c => c.wire

def frame : Item → Frame
  | heartbeat => ⟨true, 0, 0, Protocol.heartbeat⟩
  | call c => ⟨false, c.route, c.seq, c.wire⟩

def Exact : Item → Prop
  | heartbeat => True
  | call c => c.Exact

end Item

section Stream

variable {rest : List UInt8} {fin : StreamErr} {t : Stream}

theorem Call.prefix_iff {c : Call} {buf : Nocopy} (h : c.encode = some buf)
    (hlt : buf.len < 2 ^ 32) :
    natBE (buf.visit.take sizeBytes) = buf.len - sizeBytes ↔ c.Exact := by
  obtain ⟨buf', size, header, rest, he, hvis, -, hsize⟩ := c.encoded
  rw [h] at he
  cases he
  have hlen : buf.len = 14 + rest.length := by
    rw [← length_visit, hvis, length_append, length_start]
  have h4 : sizeBytes = 4 := rfl
  rcases hsize with ⟨hex, hsize⟩ | ⟨hex, hsize, hrest⟩
  · refine iff_of_true ?_ hex
    rw [hvis, natBE_start (by omega)]
    omega
  refine iff_of_false ?_ hex
  rw [hvis, natBE_start (by omega)]
  omega

theorem Call.readMessage_wire {c : Call} (hex : c.Exact) (hlt : c.wire.length < 2 ^ 32) :
    readMessage ⟨c.wire ++ rest, fin⟩ = .ok ((Item.call c).frame, ⟨rest, fin⟩) := by
  obtain ⟨buf, size, header, rest', he, hvis, hhdr, hsize⟩ := c.encoded
  have hwire : c.wire = start size header c.route c.seq ++ rest' := by
    rw [← hvis, wire, he]
  have hlen : c.wire.length = 14 + rest'.length := by
    rw [hwire, length_append, length_start]
  have h4 : sizeBytes = 4 := rfl
  have hsize : size = 10 + rest'.length := by
    rcases hsize with ⟨-, hsize⟩ | ⟨hn, -⟩
    · exact hsize
    · exact absurd hex hn
  have hflag : hasHeartbeatBit c.wire = false := by
    rw [hwire]
    exact beq_eq_false_iff_ne.mpr hhdr
  apply readMessage_append
  · rw [hlen, hwire, natBE_start (by omega)]
    omega
  · omega
  · exact hlt
  · have h5 : ¬ c.wire.length < defaultSizeBytes + defaultHeaderBytes := by
      show ¬ c.wire.length < 4 + 1
      omega
    have h14 : ¬ c.wire.length < defaultSizeBytes + defaultHeaderBytes + defaultRouteBytes + 8 := by
      show ¬ c.wire.length < 4 + 1 + 1 + 8
      omega
    rw [parseBuffer, if_neg h5, hflag, if_neg Bool.false_ne_true, if_neg h14, hwire, routeOf_start,
      seqOf_start]

theorem readMessage_heartbeat : readMessage ⟨heartbeat ++ rest, fin⟩ =
    .ok (Item.heartbeat.frame, ⟨rest, fin⟩) := by
  apply readMessage_append
  · decide
  · decide
  · decide
  · rfl

theorem Item.readMessage_wire (i : Item) (h : i.Exact ∧ i.wire.length < 2 ^ 32) :
    readMessage ⟨i.wire ++ rest, fin⟩ = .ok (i.frame, ⟨rest, fin⟩) := by
  cases i with
  | heartbeat => exact readMessage_heartbeat
  | call c => exact c.readMessage_wire h.1 h.2

theorem Item.not_readMessage_wire (i : Item) (h : ¬ (i.Exact ∧ i.wire.length < 2 ^ 32)) :
    readMessage ⟨i.wire ++ rest, fin⟩ ≠ .ok (i.frame, t) := by
  intro hread
  have hdata : i.frame.data = i.wire := by
    cases i with
    | heartbeat | call => rfl
  obtain ⟨hsp, -⟩ := readMessage_eq_ok hread
  rw [hdata] at hsp
  obtain ⟨-, -, hlen, -, hlt⟩ := splitFrame_eq_some hsp
  refine h ⟨?_, hlt⟩
  cases i with
  | heartbeat => trivial
  | call c =>
    obtain ⟨buf, -, -, -, he, -⟩ := c.encoded
    have hwire : c.wire = buf.visit := by rw [Call.wire, he]
    have hvis : buf.visit.length = buf.len := length_visit buf
    simp only [Item.wire, hwire, hvis] at hlen hlt
    apply (Call.prefix_iff he hlt).mp
    exact (Nat.sub_eq_of_eq_add hlen).symm

end Stream

/-- The size prefix counts the bytes behind it, and `ReadMessage` splits a stream of messages
and heartbeats into them, exactly for the messages that are no publish response without a
total. -/
theorem framing_exact_iff (c : Call) (items : List Item) (fin : StreamErr) :
    (∃ buf, c.encode = some buf ∧ buf.visit.length = buf.len ∧
      (buf.len < 2 ^ 32 →
        (natBE (buf.visit.take sizeBytes) = buf.len - sizeBytes ↔ c.Exact))) ∧
    ((∀ i ∈ items, i.wire.length < 2 ^ 32) →
      (readN readMessage items.length ⟨items.flatMap Item.wire, fin⟩ =
        .ok (items.map Item.frame, ⟨[], fin⟩) ↔ ∀ i ∈ items, i.Exact)) := by
  constructor
  · obtain ⟨buf, -, -, -, he, -⟩ := c.encoded
    exact ⟨buf, he, length_visit buf, Call.prefix_iff he⟩
  · intro hlt
    have hgood (i : Item) (hi : i.Exact ∧ i.wire.length < 2 ^ 32) (rest : List UInt8)
        (fin : StreamErr) : readMessage ⟨i.wire ++ rest, fin⟩ = .ok (i.frame, ⟨rest, fin⟩) :=
      i.readMessage_wire hi
    have hsp := readN_concat_iff items [] fin hgood
      fun i hi rest fin t => i.not_readMessage_wire hi
    rw [append_nil] at hsp
    rw [hsp]
    exact ⟨fun h i hi => (h i hi).1, fun h i hi => ⟨h i hi, hlt i hi⟩⟩

theorem framing_exact_heartbeat_bind : readN readMessage 2
        ⟨[Item.heartbeat, .call (.req 5 (.bind 1 2))].flatMap Item.wire, .eof⟩ =
      .ok ([Item.heartbeat, .call (.req 5 (.bind 1 2))].map Item.frame, ⟨[], .eof⟩) :=
  ((framing_exact_iff (.req 5 (.bind 1 2)) [.heartbeat, .call (.req 5 (.bind 1 2))] .eof).2
    (by decide)).mpr
    (by simp [Item.Exact, Call.Exact])

/-- A publish response without a total: the prefix says 20 and 12 bytes follow it. -/
theorem publishRes_prefix_overstates : ∃ buf, encodePublishRes 7 0 [] = some buf ∧
    buf.len = 16 ∧ natBE (buf.visit.take sizeBytes) = 20 := by
  refine ⟨_, encode_eq, ?_, ?_⟩
  · rfl
  · decide

end DueServer.Protocol
