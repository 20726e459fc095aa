import DueServer.LibNetIP
import DueServer.LibTime
import DueServer.ProtocolTargets

/-! `internal/transporter/internal/protocol`: the encoders of all requests and responses. Every
message starts with its size, a header byte, the route and the sequence number. -/
namespace DueServer.Protocol

open Buffer List Lib

def defaultCodeBytes : ℕ := 2
def b32 : ℕ := 4
def b64 : ℕ := 8

-- 1 << 7, 1 << 5
def heartbeatBit : UInt8 := 128
def traceContextBit : UInt8 := 32

def routeHandshake : UInt8 := 1
def routeBind : UInt8 := 2
def routeUnbind : UInt8 := 3
def routeGetIP : UInt8 := 4
def routeStat : UInt8 := 5
def routeIsOnline : UInt8 := 6
def routeDisconnect : UInt8 := 7
def routePush : UInt8 := 8
def routeBroadcast : UInt8 := 10
def routePublish : UInt8 := 11
def routeTrigger : UInt8 := 14
def routeDeliver : UInt8 := 15
def routeGetState : UInt8 := 16
def routeSetState : UInt8 := 17

-- codes.OK
def codeOK : UInt16 := 0

/-- `defaultSizeBytes + defaultHeaderBytes + defaultRouteBytes + defaultSeqBytes`, the start of
every `…Bytes` constant. -/
def commonBytes : ℕ := defaultSizeBytes + defaultHeaderBytes + defaultRouteBytes + defaultSeqBytes

def handshakeReqBytes : ℕ := commonBytes + b8
def bindReqBytes : ℕ := commonBytes + b64 + b64
def unbindReqBytes : ℕ := commonBytes + b64
def getIPReqBytes : ℕ := commonBytes + b8 + b64
def statReqBytes : ℕ := commonBytes + b8
def isOnlineReqBytes : ℕ := commonBytes + b8 + b64
def disconnectReqBytes : ℕ := commonBytes + b8 + b64 + b8
def disconnectCurrentReqBytes : ℕ := disconnectReqBytes + b64 + b64
def pushReqBytes : ℕ := commonBytes + b8 + b64 + b64 + b64
def broadcastReqBytes : ℕ := commonBytes + b8
def publishReqBytes : ℕ := commonBytes + b8
def triggerReqBytes : ℕ := commonBytes + b8 + b64 + b64 + b64
def deliverReqBytes : ℕ := commonBytes + b64 + b64 + b64 + b64 + b16
def getStateReqBytes : ℕ := commonBytes
def setStateReqBytes : ℕ := commonBytes + b8

def handshakeResBytes : ℕ := commonBytes + defaultCodeBytes
def bindResBytes : ℕ := commonBytes + defaultCodeBytes
def unbindResBytes : ℕ := commonBytes + defaultCodeBytes
def getIPResBytes : ℕ := commonBytes + defaultCodeBytes + b32
def statResBytes : ℕ := commonBytes + defaultCodeBytes + b64
def isOnlineResBytes : ℕ := commonBytes + defaultCodeBytes + b8
def disconnectResBytes : ℕ := commonBytes + defaultCodeBytes
def pushResBytes : ℕ := commonBytes + defaultCodeBytes
def multicastResBytes : ℕ := commonBytes + defaultCodeBytes + b64
def broadcastResBytes : ℕ := commonBytes + defaultCodeBytes + b64
def publishResBytes : ℕ := commonBytes + defaultCodeBytes + b64
def subscribeResBytes : ℕ := commonBytes + defaultCodeBytes
def unsubscribeResBytes : ℕ := commonBytes + defaultCodeBytes
def triggerResBytes : ℕ := commonBytes + defaultCodeBytes
def deliverResBytes : ℕ := commonBytes + defaultCodeBytes
def getStateResBytes : ℕ := commonBytes + defaultCodeBytes + b8
def setStateResBytes : ℕ := commonBytes + defaultCodeBytes

def deliverTraceContextFixedBytes : ℕ := b8 + b16 + b16
def deliverTraceContextVersion : UInt8 := 1
def maxTraceContextFieldBytes : ℕ := 65535

/-- `session.Token` with the widths of its fields. -/
structure SessionToken where
  uid : Int64
  generation : UInt64
deriving DecidableEq

structure RequestMetadata where
  deadline : Time
  correlationID : List UInt8
  traceParent : List UInt8
  traceState : List UInt8
deriving DecidableEq

def preamble (size : ℕ) (header route : UInt8) (seq : UInt64) : List Put :=
  [.uint32s [UInt32.ofNat size], .uint8s [header], .uint8s [route], .uint64s [seq]]

/-- The body of every encoder: a writer with room for `cap` bytes, the common start, the fields,
and behind them what is mounted without copying. -/
def encode (cap size : ℕ) (header route : UInt8) (seq : UInt64) (fields : List Put)
    (mounted : List Nocopy) : Option Nocopy := do
  let w ← (preamble size header route seq ++ fields).foldlM Writer.write (mallocWriter cap)
  return .buffer (.node w.bytes :: mounted)

def encodeFixed (bytes : ℕ) (route : UInt8) (seq : UInt64) (fields : List Put) : Option Nocopy :=
  encode bytes (bytes - defaultSizeBytes) dataBit route seq fields []

def disconnectHeader (disconnect : Bool) : UInt8 :=
  if disconnect then dataBit ||| disconnectBit else dataBit

section Requests

variable (seq : UInt64)

def encodeHandshakeReq (insKind : ℤ) (insID : List UInt8) : Option Nocopy :=
  let size := handshakeReqBytes + insID.length
  encode size (size - defaultSizeBytes) dataBit routeHandshake seq
    [.uint8s [UInt8.ofInt insKind], .string insID] []

def encodeBindReq (cid uid : Int64) : Option Nocopy :=
  encodeFixed bindReqBytes routeBind seq [.int64s [cid, uid]]

def encodeUnbindReq (uid : Int64) : Option Nocopy :=
  encodeFixed unbindReqBytes routeUnbind seq [.int64s [uid]]

def encodeGetIPReq (kind : Kind) (target : Int64) : Option Nocopy :=
  encodeFixed getIPReqBytes routeGetIP seq [.uint8s [kindByte kind], .int64s [target]]

def encodeStatReq (kind : Kind) : Option Nocopy :=
  encodeFixed statReqBytes routeStat seq [.uint8s [kindByte kind]]

def encodeIsOnlineReq (kind : Kind) (target : Int64) : Option Nocopy :=
  encodeFixed isOnlineReqBytes routeIsOnline seq [.uint8s [kindByte kind], .int64s [target]]

def encodeDisconnectReq (kind : Kind) (target : Int64) (force : Bool) : Option Nocopy :=
  encodeFixed disconnectReqBytes routeDisconnect seq
    [.uint8s [kindByte kind], .int64s [target], .bools [force]]

def encodeDisconnectCurrentReq (kind : Kind) (target : Int64) (force : Bool)
    (token : SessionToken) : Option Nocopy :=
  encodeFixed disconnectCurrentReqBytes routeDisconnect seq
    [.uint8s [kindByte kind], .int64s [target], .bools [force], .int64s [token.uid],
      .uint64s [token.generation]]

def encodePushReq (kind : Kind) (target : Int64) (disconnect : Bool) (token : SessionToken)
    (message : Nocopy) : Option Nocopy :=
  encode pushReqBytes (pushReqBytes - defaultSizeBytes + message.len)
    (disconnectHeader disconnect) routePush seq
    [.uint8s [kindByte kind], .int64s [target], .int64s [token.uid], .uint64s [token.generation]]
    [message]

def encodeBroadcastReq (kind : Kind) (disconnect : Bool) (message : Nocopy) : Option Nocopy :=
  encode broadcastReqBytes (broadcastReqBytes - defaultSizeBytes + message.len)
    (disconnectHeader disconnect) routeBroadcast seq [.uint8s [kindByte kind]] [message]

def encodePublishReq (channel : List UInt8) (disconnect : Bool) (message : Nocopy) :
    Option Nocopy :=
  let channelBytes := channel.length
  let size := publishReqBytes + channelBytes
  encode size (size - defaultSizeBytes + message.len) (disconnectHeader disconnect) routePublish
    seq [.uint8s [UInt8.ofNat channelBytes], .string channel] [message]

def encodeTriggerReq (event : ℤ) (cid uid : Int64) (generation : UInt64) : Option Nocopy :=
  let size := triggerReqBytes - defaultSizeBytes
  let size := if uid = 0 then size - (b64 + b64) else size
  encode triggerReqBytes size dataBit routeTrigger seq
    ([.uint8s [UInt8.ofInt event], .int64s [cid]] ++
      if uid = 0 then [] else [.int64s [uid], .uint64s [generation]]) []

def hasTraceContext (metadata : RequestMetadata) : Bool :=
  metadata.traceParent ≠ [] && metadata.traceParent.length ≤ maxTraceContextFieldBytes &&
    metadata.traceState.length ≤ maxTraceContextFieldBytes

def encodeDeliverReqWithMetadata (cid uid : Int64) (generation : UInt64)
    (metadata : RequestMetadata) (buf : Nocopy) : Option Nocopy :=
  let correlationID := metadata.correlationID
  let traced := hasTraceContext metadata
  let traceParent := if traced then metadata.traceParent else []
  let traceState := if traced then metadata.traceState else []
  let size := deliverReqBytes + correlationID.length
  let header := if traced then dataBit ||| traceContextBit else dataBit
  let size :=
    if traced then size + (deliverTraceContextFixedBytes + traceParent.length + traceState.length)
    else size
  let deadlineUnixMilli := if metadata.deadline.isZero then 0 else metadata.deadline.unixMilli
  encode size (size - defaultSizeBytes + buf.len) header routeDeliver seq
    ([.int64s [cid, uid], .uint64s [generation], .int64s [deadlineUnixMilli],
        .uint16s [UInt16.ofNat correlationID.length], .string correlationID] ++
      if traced then
        [.uint8s [deliverTraceContextVersion],
          .uint16s [UInt16.ofNat traceParent.length, UInt16.ofNat traceState.length],
          .string traceParent, .string traceState]
      else [])
    [buf]

def encodeDeliverReq (cid uid : Int64) (generation : UInt64) (buf : Nocopy) : Option Nocopy :=
  encodeDeliverReqWithMetadata seq cid uid generation ⟨Time.zero, [], [], []⟩ buf

def encodeGetStateReq : Option Nocopy := encodeFixed getStateReqBytes routeGetState seq []

def encodeSetStateReq (state : ℤ) : Option Nocopy :=
  encodeFixed setStateReqBytes routeSetState seq [.uint8s [UInt8.ofInt state]]

end Requests

/-- `xnet.IP2Long`; the four bytes of an address, and 0 for a text without any. -/
def ip2Long (ip : List UInt8) : UInt32 :=
  match (NetIP.parseIP ip).bind NetIP.to4 with
  | none => 0
  | some v => UInt32.ofNat (natBE v)

def long2IP (v : UInt32) : List UInt8 :=
  NetIP.string4 (UInt8.ofNat (v.toNat / 256 ^ 3)) (UInt8.ofNat (v.toNat / 256 ^ 2))
    (UInt8.ofNat (v.toNat / 256)) (UInt8.ofNat v.toNat)

section Responses

variable (seq : UInt64) (code : UInt16)

def encodeCodeRes (resBytes : ℕ) (route : UInt8) : Option Nocopy :=
  encodeFixed resBytes route seq [.uint16s [code]]

def encodeHandshakeRes := encodeCodeRes seq code handshakeResBytes routeHandshake
def encodeBindRes := encodeCodeRes seq code bindResBytes routeBind
def encodeUnbindRes := encodeCodeRes seq code unbindResBytes routeUnbind
def encodeDisconnectRes := encodeCodeRes seq code disconnectResBytes routeDisconnect
def encodePushRes := encodeCodeRes seq code pushResBytes routePush
def encodeSubscribeRes := encodeCodeRes seq code subscribeResBytes routeSubscribe
def encodeUnsubscribeRes := encodeCodeRes seq code unsubscribeResBytes routeUnsubscribe
def encodeTriggerRes := encodeCodeRes seq code triggerResBytes routeTrigger
def encodeDeliverRes := encodeCodeRes seq code deliverResBytes routeDeliver
def encodeSetStateRes := encodeCodeRes seq code setStateResBytes routeSetState

def encodeIsOnlineRes (isOnline : Bool) : Option Nocopy :=
  encodeFixed isOnlineResBytes routeIsOnline seq [.uint16s [code], .bools [isOnline]]

def encodeGetStateRes (state : ℤ) : Option Nocopy :=
  encodeFixed getStateResBytes routeGetState seq [.uint16s [code], .uint8s [UInt8.ofInt state]]

def sentIP (ip : List (List UInt8)) : Option (List UInt8) :=
  match ip with
  | [] => none
  | text :: _ => if code = codeOK ∧ text ≠ [] then some text else none

def encodeGetIPRes (ip : List (List UInt8)) : Option Nocopy :=
  let size := getIPResBytes - defaultSizeBytes
  let size := if sentIP code ip = none then size - 4 else size
  encode getIPResBytes size dataBit routeGetIP seq
    ([.uint16s [code]] ++
      match sentIP code ip with
      | none => []
      | some text => [.uint32s [ip2Long text]])
    []

def sentTotal (total : List UInt64) : Option UInt64 :=
  match total with
  | [] => none
  | t :: _ => if code = codeOK ∧ t ≠ 0 then some t else none

def totalFields (total : List UInt64) : List Put :=
  [.uint16s [code]] ++
    match sentTotal code total with
    | none => []
    | some t => [.uint64s [t]]

/-- `EncodeStatRes`, `EncodeMulticastRes` and `EncodeBroadcastRes` but for their constants. -/
def encodeTotalRes (resBytes : ℕ) (route : UInt8) (total : List UInt64) : Option Nocopy :=
  let size := resBytes - defaultSizeBytes
  let size := if sentTotal code total = none then size - b64 else size
  encode resBytes size dataBit route seq (totalFields code total) []

def encodeStatRes := encodeTotalRes seq code statResBytes routeStat
def encodeMulticastRes := encodeTotalRes seq code multicastResBytes routeMulticast
def encodeBroadcastRes := encodeTotalRes seq code broadcastResBytes routeBroadcast

def encodePublishRes (total : List UInt64) : Option Nocopy :=
  encode publishResBytes (publishResBytes - defaultSizeBytes) dataBit routePublish seq
    (totalFields code total) []

end Responses

/-- `Heartbeat()`: the bytes the package prepares in its `init`. -/
def heartbeat : List UInt8 :=
  match [Put.uint32s [UInt32.ofNat defaultHeaderBytes], .uint8s [heartbeatBit]].foldlM Writer.write
      (Writer.ofSize (defaultSizeBytes + defaultHeaderBytes)) with
  | none => []
  | some w => w.bytes

section Encoded

variable {cap size : ℕ} {header route : UInt8} {seq : UInt64} {fields : List Put}
  {mounted : List Nocopy}

def start (size : ℕ) (header route : UInt8) (seq : UInt64) : List UInt8 :=
  bytesBE 4 (UInt32.ofNat size).toNat ++ ([header] ++ ([route] ++ bytesBE 8 seq.toNat))

@[simp] theorem length_start : (start size header route seq).length = 14 := by
  simp [start]

theorem encode_eq : encode cap size header route seq fields mounted =
    some (.buffer (.node (start size header route seq ++ Put.allBytes fields) :: mounted)) := by
  obtain ⟨w, hw, hb⟩ := Writer.malloc_writes cap (preamble size header route seq ++ fields)
  simp only [encode, hw, bind, Option.bind, hb]
  rfl

end Encoded

end DueServer.Protocol
