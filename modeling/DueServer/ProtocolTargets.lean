import DueServer.BufferModel
import DueServer.SessionModel

/-! `internal/transporter/internal/protocol`: the requests that carry a list of targets
(multicast, subscribe, unsubscribe). Strings are their bytes; an encoder that panics returns
`none`. -/
namespace DueServer.Protocol

open Buffer List Reader Lib

def defaultSizeBytes : ℕ := 4
def defaultHeaderBytes : ℕ := 1
def defaultSeqBytes : ℕ := 8
def defaultRouteBytes : ℕ := 1
def b8 : ℕ := 1
def b16 : ℕ := 2

def dataBit : UInt8 := 0
-- 1 << 6
def disconnectBit : UInt8 := 64

def routeMulticast : UInt8 := 9
def routeSubscribe : UInt8 := 12
def routeUnsubscribe : UInt8 := 13

def multicastReqBytes : ℕ :=
  defaultSizeBytes + defaultHeaderBytes + defaultRouteBytes + defaultSeqBytes + b8 + b16
def subscribeReqBytes : ℕ :=
  defaultSizeBytes + defaultHeaderBytes + defaultRouteBytes + defaultSeqBytes + b8 + b16
def unsubscribeReqBytes : ℕ :=
  defaultSizeBytes + defaultHeaderBytes + defaultRouteBytes + defaultSeqBytes + b8 + b16

-- uint8(kind)
def kindByte : Kind → UInt8
  | .conn => 1
  | .user => 2
  | .other k => UInt8.ofInt k

-- session.Kind(k)
def kindOfByte (k : UInt8) : Kind :=
  if k = 1 then .conn else if k = 2 then .user else .other k.toNat

def writeTargets (w : Writer) (size : ℕ) (header route : UInt8) (seq : UInt64) (kind : Kind)
    (targets : List Int64) : Option Writer := do
  let w ← w.writeUint32s [UInt32.ofNat size]
  let w ← w.writeUint8s [header]
  let w ← w.writeUint8s [route]
  let w ← w.writeUint64s [seq]
  let w ← w.writeUint8s [kindByte kind]
  let w ← w.writeUint16s [UInt16.ofNat targets.length]
  w.writeInt64s targets

def encodeMulticastReq (seq : UInt64) (kind : Kind) (targets : List Int64) (disconnect : Bool)
    (message : Nocopy) : Option Nocopy := do
  let size := multicastReqBytes + targets.length * 8
  let w ← writeTargets (mallocWriter size) (size - defaultSizeBytes + message.len)
    (if disconnect then dataBit ||| disconnectBit else dataBit) routeMulticast seq kind targets
  return .buffer [.node w.bytes, message]

/-- `EncodeSubscribeReq` and `EncodeUnsubscribeReq` but for their constants. -/
def encodeChannelReq (reqBytes : ℕ) (route : UInt8) (seq : UInt64) (kind : Kind)
    (targets : List Int64) (channel : List UInt8) : Option Nocopy := do
  let size := reqBytes + targets.length * 8 + channel.length
  let w ← writeTargets (mallocWriter size) (size - defaultSizeBytes) dataBit route seq kind targets
  let w ← w.writeBytes channel
  return .buffer [.node w.bytes]

def encodeSubscribeReq := encodeChannelReq subscribeReqBytes routeSubscribe

def encodeUnsubscribeReq := encodeChannelReq unsubscribeReqBytes routeUnsubscribe

def readTargets (r : Reader) : Except ReadErr (UInt64 × Kind × List Int64 × UInt16) := do
  let (seq, r) ← r.readUint64
  let (k, r) ← r.readUint8
  let (count, r) ← r.readUint16
  let (targets, _) ← r.readInt64s count.toNat
  return (seq, kindOfByte k, targets, count)

/-- The slice expression `data[reqBytes+8*count:]`; the index is computed as a `uint16`. -/
def afterTargets (data : List UInt8) (reqBytes : ℕ) (count : UInt16) :
    Except ReadErr (List UInt8) :=
  let i := UInt16.ofNat reqBytes + 8 * count
  if i.toNat ≤ data.length then .ok (data.drop i.toNat) else .error .outOfRange

structure MulticastReq where
  seq : UInt64
  kind : Kind
  targets : List Int64
  disconnect : Bool
  message : List UInt8
deriving DecidableEq

structure ChannelReq where
  seq : UInt64
  kind : Kind
  targets : List Int64
  channel : List UInt8
deriving DecidableEq

def decodeMulticastReq (data : List UInt8) : Except ReadErr MulticastReq := do
  let r ← (Reader.new data).seek defaultSizeBytes .start
  let (k, r) ← r.readUint8
  let disconnect := decide (k &&& disconnectBit = disconnectBit)
  let r ← r.seek defaultRouteBytes .current
  let (seq, kind, targets, count) ← readTargets r
  let message ← afterTargets data multicastReqBytes count
  return ⟨seq, kind, targets, disconnect, message⟩

def decodeChannelReq (reqBytes : ℕ) (data : List UInt8) : Except ReadErr ChannelReq := do
  let r ← (Reader.new data).seek (defaultSizeBytes + defaultHeaderBytes + defaultRouteBytes) .start
  let (seq, kind, targets, count) ← readTargets r
  let channel ← afterTargets data reqBytes count
  return ⟨seq, kind, targets, channel⟩

def decodeSubscribeReq := decodeChannelReq subscribeReqBytes

def decodeUnsubscribeReq := decodeChannelReq unsubscribeReqBytes

section RoundTrip

variable {header route : UInt8} {size : ℕ} {seq : UInt64} {kind : Kind} {targets : List Int64}
  {channel tail : List UInt8}

def body (seq : UInt64) (kind : Kind) (targets : List Int64) : List UInt8 :=
  bytesBE 8 seq.toNat ++ ([kindByte kind] ++
    (bytesBE 2 (UInt16.ofNat targets.length).toNat ++ Reader.int64Bytes targets))

def frame (size : ℕ) (header route : UInt8) (seq : UInt64) (kind : Kind) (targets : List Int64) :
    List UInt8 :=
  bytesBE 4 (UInt32.ofNat size).toNat ++ ([header] ++ ([route] ++ body seq kind targets))

theorem length_frame : (frame size header route seq kind targets).length =
    17 + 8 * targets.length := by
  simp only [frame, body, length_append, length_bytesBE, length_singleton,
    length_int64Bytes]
  omega

theorem writeTargets_ok (w : Writer) (size : ℕ) (header route : UInt8) (seq : UInt64) (kind : Kind)
    (targets : List Int64) : ∃ w', writeTargets w size header route seq kind targets = some w' ∧
      w'.bytes = w.bytes ++ frame size header route seq kind targets := by
  obtain ⟨w', hw, hb⟩ := Writer.writes_ok [.uint32s [UInt32.ofNat size], .uint8s [header],
    .uint8s [route], .uint64s [seq], .uint8s [kindByte kind],
    .uint16s [UInt16.ofNat targets.length], .int64s targets] w
  refine ⟨w', ?_, ?_⟩
  · simp only [foldlM_cons, foldlM_nil, bind_pure] at hw
    exact hw
  · simp [hb, frame, body, Put.allBytes, int64Bytes, flatMap]
    rfl

theorem encodeMulticastReq_ok (seq : UInt64) (kind : Kind) (targets : List Int64)
    (disconnect : Bool) (message : Nocopy) : ∃ buf size,
      encodeMulticastReq seq kind targets disconnect message = some buf ∧
      buf.bytes = frame size (if disconnect then dataBit ||| disconnectBit else dataBit)
        routeMulticast seq kind targets ++ message.bytes := by
  obtain ⟨w, hw, hb⟩ := writeTargets_ok (mallocWriter (multicastReqBytes + targets.length * 8))
    (multicastReqBytes + targets.length * 8 - defaultSizeBytes + message.len)
    (if disconnect then dataBit ||| disconnectBit else dataBit) routeMulticast seq kind targets
  refine ⟨.buffer [.node w.bytes, message],
    multicastReqBytes + targets.length * 8 - defaultSizeBytes + message.len, ?_, ?_⟩
  · simp only [encodeMulticastReq, hw]
    rfl
  · rw [Nocopy.bytes_writer_message, hb]
    rfl

theorem encodeChannelReq_ok (reqBytes : ℕ) (route : UInt8) (seq : UInt64) (kind : Kind)
    (targets : List Int64) (channel : List UInt8) : ∃ buf size,
      encodeChannelReq reqBytes route seq kind targets channel = some buf ∧
      buf.bytes = frame size dataBit route seq kind targets ++ channel := by
  obtain ⟨w, hw, hb⟩ := writeTargets_ok
    (mallocWriter (reqBytes + targets.length * 8 + channel.length))
    (reqBytes + targets.length * 8 + channel.length - defaultSizeBytes) dataBit route seq kind
    targets
  obtain ⟨w', hw', hb'⟩ := w.writeAll_ok [channel]
  refine ⟨.buffer [.node w'.bytes],
    reqBytes + targets.length * 8 + channel.length - defaultSizeBytes, ?_, ?_⟩
  · simp only [encodeChannelReq, hw, bind, Option.bind, Writer.writeBytes, hw']
    rfl
  · rw [hb', hb, flatten_cons, flatten_nil, append_nil]
    rfl

theorem readTargets_ok {data : List UInt8} {off : ℕ} (hlen : targets.length ≤ 65535)
    (h : data.drop off = body seq kind targets ++ tail) :
    readTargets ⟨data, off⟩ =
      .ok (seq, kindOfByte (kindByte kind), targets, UInt16.ofNat targets.length) := by
  simp only [body, append_assoc] at h
  have h1 := drop_add h (length_bytesBE ..)
  have h2 := drop_add h1 (k := 1) rfl
  have h3 := drop_add h2 (length_bytesBE ..)
  have hct : (UInt16.ofNat targets.length).toNat = targets.length := by
    exact Nat.mod_eq_of_lt (by omega)
  have hoff : off + 8 + 1 + 2 ≤ data.length := by
    have hl := congrArg length h
    simp only [length_drop, length_append, length_bytesBE] at hl
    simp at hl
    omega
  have hv := readInt64s_of_drop hoff h3
  simp only [readTargets, readUint64_eq, readUint16_eq,
    readAt_of_drop h (length_bytesBE ..) (by decide), readUint8_of_drop h1,
    readAt_of_drop h2 (length_bytesBE ..) (by decide), ofNat_natBE_uint64,
    ofNat_natBE_uint16, bind, Except.bind]
  rw [hct, hv]
  rfl

section Frame

variable {data : List UInt8} (hdata : data = frame size header route seq kind targets ++ tail)

include hdata

theorem drop_frame_four : data.drop 4 = [header] ++
    ([route] ++ (body seq kind targets ++ tail)) := by
  simp only [hdata]
  exact drop_left' (length_bytesBE ..)

theorem drop_frame_six : data.drop 6 = body seq kind targets ++ tail := by
  have h : data.drop 6 = (data.drop 4).drop 2 := by rw [drop_drop]
  rw [h, drop_frame_four hdata]
  rfl

theorem afterTargets_frame : afterTargets data 17 (UInt16.ofNat targets.length) =
    .ok (data.drop ((17 + 8 * targets.length) % 65536)) := by
  have hle : (17 + 8 * targets.length) % 65536 ≤ data.length := by
    rw [hdata, length_append, length_frame]
    exact (Nat.mod_le _ _).trans (Nat.le_add_right ..)
  simp [afterTargets, if_pos hle]

variable (hlen : targets.length ≤ 65535)

include hlen

theorem decodeChannelReq_frame : decodeChannelReq 17 data =
    .ok ⟨seq, kindOfByte (kindByte kind), targets,
      data.drop ((17 + 8 * targets.length) % 65536)⟩ := by
  have hread : readTargets ⟨data, 6⟩ = _ := readTargets_ok hlen (drop_frame_six hdata)
  have hseek : (new data).seek (defaultSizeBytes + defaultHeaderBytes + defaultRouteBytes)
      .start = .ok ⟨data, 6⟩ := rfl
  simp only [decodeChannelReq, hseek, hread, afterTargets_frame hdata, bind, Except.bind]
  rfl

theorem decodeMulticastReq_frame : decodeMulticastReq data =
    .ok ⟨seq, kindOfByte (kindByte kind), targets,
      decide (header &&& disconnectBit = disconnectBit),
      data.drop ((17 + 8 * targets.length) % 65536)⟩ := by
  have hseek : (new data).seek defaultSizeBytes .start = .ok ⟨data, 4⟩ := rfl
  have hhdr : readUint8 ⟨data, 4⟩ = .ok (header, ⟨data, 5⟩) :=
    readUint8_of_drop (drop_frame_four hdata)
  have hrt : seek ⟨data, 4 + 1⟩ defaultRouteBytes .current = .ok ⟨data, 6⟩ := rfl
  have hread : readTargets ⟨data, 6⟩ = _ := readTargets_ok hlen (drop_frame_six hdata)
  have hreq : multicastReqBytes = 17 := rfl
  simp only [decodeMulticastReq, hseek, hhdr, hrt, hread, hreq, afterTargets_frame hdata, bind,
    Except.bind]
  rfl

theorem drop_frame_eq_iff :
    data.drop ((17 + 8 * targets.length) % 65536) = tail ↔ targets.length ≤ 8189 := by
  constructor
  · intro h
    have hl := congrArg length h
    rw [length_drop, hdata, length_append, length_frame] at hl
    omega
  · intro h
    rw [Nat.mod_eq_of_lt (by omega), hdata]
    exact drop_left' length_frame

end Frame

theorem kindOfByte_kindByte (hkind : kind = .conn ∨ kind = .user) :
    kindOfByte (kindByte kind) = kind := by
  rcases hkind with rfl | rfl <;> rfl

theorem channel_round_trip_iff (hkind : kind = .conn ∨ kind = .user)
    (hlen : targets.length ≤ 65535) :
    (∃ buf, encodeChannelReq 17 route seq kind targets channel = some buf ∧
      decodeChannelReq 17 buf.bytes = .ok ⟨seq, kind, targets, channel⟩) ↔
    targets.length ≤ 8189 := by
  obtain ⟨buf, size, henc, hbs⟩ := encodeChannelReq_ok 17 route seq kind targets channel
  simp only [henc, Option.some.injEq, exists_eq_left', decodeChannelReq_frame hbs hlen,
    kindOfByte_kindByte hkind, Except.ok.injEq, ChannelReq.mk.injEq, true_and]
  exact drop_frame_eq_iff hbs hlen

theorem disconnect_flag (disconnect : Bool) :
    decide ((if disconnect then dataBit ||| disconnectBit else dataBit) &&& disconnectBit =
      disconnectBit) = disconnect := by
  cases disconnect <;> decide

theorem multicast_round_trip_iff {disconnect : Bool} {message : Nocopy}
    (hkind : kind = .conn ∨ kind = .user) (hlen : targets.length ≤ 65535) :
    (∃ buf, encodeMulticastReq seq kind targets disconnect message = some buf ∧
      decodeMulticastReq buf.bytes = .ok ⟨seq, kind, targets, disconnect, message.bytes⟩) ↔
    targets.length ≤ 8189 := by
  obtain ⟨buf, size, henc, hbs⟩ := encodeMulticastReq_ok seq kind targets disconnect message
  simp only [henc, Option.some.injEq, exists_eq_left', decodeMulticastReq_frame hbs hlen,
    kindOfByte_kindByte hkind, disconnect_flag, Except.ok.injEq, MulticastReq.mk.injEq, true_and]
  exact drop_frame_eq_iff hbs hlen

/-- Each of the three requests survives encoding and decoding exactly if it has at most 8189
targets: from 8190 on the decoders' offset `17 + 8*count` wraps around in `uint16`. -/
theorem target_requests_round_trip_iff (seq : UInt64) (kind : Kind)
    (hkind : kind = .conn ∨ kind = .user) (targets : List Int64) (hlen : targets.length ≤ 65535)
    (disconnect : Bool) (message : Nocopy) (channel : List UInt8) :
    ((∃ buf, encodeMulticastReq seq kind targets disconnect message = some buf ∧
      decodeMulticastReq buf.bytes = .ok ⟨seq, kind, targets, disconnect, message.bytes⟩) ↔
      targets.length ≤ 8189) ∧
    ((∃ buf, encodeSubscribeReq seq kind targets channel = some buf ∧
      decodeSubscribeReq buf.bytes = .ok ⟨seq, kind, targets, channel⟩) ↔
      targets.length ≤ 8189) ∧
    ((∃ buf, encodeUnsubscribeReq seq kind targets channel = some buf ∧
      decodeUnsubscribeReq buf.bytes = .ok ⟨seq, kind, targets, channel⟩) ↔
      targets.length ≤ 8189) :=
  ⟨multicast_round_trip_iff hkind hlen, channel_round_trip_iff hkind hlen,
    channel_round_trip_iff hkind hlen⟩

end RoundTrip

/-- A multicast to 8190 connections: the decoded message is the two bytes that were sent, with
65536 bytes of the request in front of them. -/
theorem multicast_8190_targets_garbled : ∃ buf req,
    encodeMulticastReq 1 .conn (List.replicate 8190 7) false (.node [104, 105]) = some buf ∧
      decodeMulticastReq buf.bytes = .ok req ∧ req.message.length = 65538 := by
  obtain ⟨buf, size, henc, hbs⟩ :=
    encodeMulticastReq_ok 1 .conn (replicate 8190 7) false (.node [104, 105])
  have hlen : (replicate 8190 (7 : Int64)).length ≤ 65535 := by
    rw [length_replicate]
    decide
  refine ⟨buf, _, henc, decodeMulticastReq_frame hbs hlen, ?_⟩
  rw [length_drop, hbs, length_append, length_frame, length_replicate]
  rfl

theorem target_requests_round_trip_two : ∃ buf, encodeSubscribeReq 1 .user [7, -8] [99] = some buf ∧
      decodeSubscribeReq buf.bytes = .ok ⟨1, .user, [7, -8], [99]⟩ :=
  (target_requests_round_trip_iff 1 .user (.inr rfl) [7, -8] (by decide) false (.node [])
    [99]).2.1.mpr (by decide)

end DueServer.Protocol
