import DueServer.ProtocolDeliver
import DueServer.ProtocolReader

/-! The decoders of the trigger, push, broadcast, publish and disconnect requests, and what all
request decoders do with an arbitrary frame: none slices outside it, and the parts of variable
length are segments of it, unless a narrow offset wraps around. -/
namespace DueServer.Protocol

open Buffer Lib List Reader

structure TriggerReq where
  seq : UInt64
  event : ℤ
  cid : Int64
  uid : Int64
  generation : UInt64
deriving DecidableEq

structure PushReq where
  seq : UInt64
  kind : Kind
  target : Int64
  disconnect : Bool
  token : SessionToken
  message : List UInt8
deriving DecidableEq

structure BroadcastReq where
  seq : UInt64
  kind : Kind
  disconnect : Bool
  message : List UInt8
deriving DecidableEq

structure PublishReq where
  seq : UInt64
  channel : List UInt8
  disconnect : Bool
  message : List UInt8
deriving DecidableEq

structure DisconnectReq where
  seq : UInt64
  kind : Kind
  target : Int64
  force : Bool
  token : SessionToken
deriving DecidableEq

def noToken : SessionToken := ⟨0, 0⟩

def decodeTriggerReq (data : List UInt8) : Except DecodeErr TriggerReq := do
  reject (data.length ≠ triggerReqBytes ∧ data.length ≠ triggerReqBytes - b64 - b64)
  let r ← (Reader.new data).seek (defaultSizeBytes + defaultHeaderBytes + defaultRouteBytes) .start
  let (seq, r) ← r.readUint64
  let (evt, r) ← r.readUint8
  let (cid, r) ← r.readInt64
  if data.length = triggerReqBytes then
    let (uid, r) ← r.readInt64
    let (generation, _) ← r.readUint64
    return ⟨seq, evt.toNat, cid, uid, generation⟩
  return ⟨seq, evt.toNat, cid, 0, 0⟩

/-- The common start of the decoders of push, broadcast and publish requests: the disconnect flag
of the header and the sequence number. -/
def readFlagged (data : List UInt8) : Except DecodeErr (Bool × UInt64 × Reader) := do
  let r ← (Reader.new data).seek defaultSizeBytes .start
  let (k, r) ← r.readUint8
  let disconnect := decide (k &&& disconnectBit = disconnectBit)
  let r ← r.seek defaultRouteBytes .current
  let (seq, r) ← r.readUint64
  return (disconnect, seq, r)

def decodePushReq (data : List UInt8) : Except DecodeErr PushReq := do
  let (disconnect, seq, r) ← readFlagged data
  let (k, r) ← r.readUint8
  let (target, r) ← r.readInt64
  let (uid, r) ← r.readInt64
  let (generation, _) ← r.readUint64
  let message ← sliceFrom data pushReqBytes
  return ⟨seq, kindOfByte k, target, disconnect, ⟨uid, generation⟩, message⟩

def decodeBroadcastReq (data : List UInt8) : Except DecodeErr BroadcastReq := do
  let (disconnect, seq, r) ← readFlagged data
  let (k, _) ← r.readUint8
  let message ← sliceFrom data broadcastReqBytes
  return ⟨seq, kindOfByte k, disconnect, message⟩

def decodePublishReq (data : List UInt8) : Except DecodeErr PublishReq := do
  let (disconnect, seq, r) ← readFlagged data
  let (channelBytes, r) ← r.readUint8
  let (channel, _) ← r.readString channelBytes.toNat
  let message ← sliceFrom data (UInt8.ofNat publishReqBytes + channelBytes).toNat
  return ⟨seq, channel, disconnect, message⟩

def readDisconnect (data : List UInt8) : Except DecodeErr (DisconnectReq × Reader) := do
  let r ← (Reader.new data).seek (defaultSizeBytes + defaultHeaderBytes + defaultRouteBytes) .start
  let (seq, r) ← r.readUint64
  let (k, r) ← r.readUint8
  let (target, r) ← r.readInt64
  let (force, r) ← r.readBool
  return (⟨seq, kindOfByte k, target, force, noToken⟩, r)

def decodeDisconnectReq (data : List UInt8) : Except DecodeErr DisconnectReq := do
  reject (data.length ≠ disconnectReqBytes)
  let (req, _) ← readDisconnect data
  return req

def decodeDisconnectReqWithToken (data : List UInt8) : Except DecodeErr DisconnectReq := do
  if data.length = disconnectReqBytes then
    decodeDisconnectReq data
  else
    reject (data.length ≠ disconnectCurrentReqBytes)
    let (req, r) ← readDisconnect data
    let (uid, r) ← r.readInt64
    let (generation, _) ← r.readUint64
    return { req with token := ⟨uid, generation⟩ }

section Safe

variable {data : List UInt8}

abbrev DecodesTo {α : Type} (m : Except DecodeErr α) (Q : α → Prop) : Prop :=
  Safe (.read .outOfRange) m Q

theorem decodesTo_lift {α : Type} {m : Except ReadErr α} {Q : α → Prop} :
    DecodesTo (liftM m) Q ↔ Safe .outOfRange m Q := by
  cases m with
  | error e => exact not_congr ⟨DecodeErr.read.inj, congrArg _⟩
  | ok a => exact Iff.rfl

theorem decodesTo_reject {p : Prop} [Decidable p] {Q : Unit → Prop} :
    DecodesTo (reject p) Q ↔ (¬ p → Q ()) := by
  by_cases h : p
  · rw [reject_pos h]
    exact iff_of_true DecodeErr.noConfusion fun hn => absurd h hn
  rw [reject_neg h]
  exact ⟨fun hQ _ => hQ, fun hQ => hQ h⟩

theorem decodesTo_sliceFrom {i : ℕ} {Q : List UInt8 → Prop} :
    DecodesTo (sliceFrom data i) Q ↔ i ≤ data.length ∧ Q (data.drop i) := by
  unfold sliceFrom
  split
  · rename_i h
    exact ⟨fun hQ => ⟨h, hQ⟩, fun hQ => hQ.2⟩
  rename_i h
  exact ⟨fun he => absurd rfl he, fun hQ => absurd hQ.1 h⟩

def disconnectFlag (data : List UInt8) : Bool :=
  decide (UInt8.ofNat (natBE (Reader.bytesAt data 4 1)) &&& disconnectBit = disconnectBit)

theorem decodesTo_readFlagged {Q : Bool × UInt64 × Reader → Prop} :
    DecodesTo (readFlagged data) Q ↔ (14 ≤ data.length →
      Q (disconnectFlag data, UInt64.ofNat (natBE (bytesAt data 6 8)), ⟨data, 14⟩)) := by
  have hseek : (new data).seek defaultSizeBytes .start = .ok ⟨data, 4⟩ := rfl
  have hrt : seek ⟨data, 4 + 1⟩ defaultRouteBytes .current = .ok ⟨data, 6⟩ := rfl
  simp only [readFlagged, hseek, hrt, safe_bind, decodesTo_lift, safe_ok,
    readUint8_eq, readUint64_eq, safe_readAt]
  exact ⟨fun h hlen => h (by omega) hlen, fun h _ hlen => h hlen⟩

/-- Behind the first `fixed` bytes come the `parts`, of the announced lengths, and then `rest`. -/
structure Segments (data : List UInt8) (fixed : ℕ) (announced : List ℕ)
    (parts : List (List UInt8)) (rest : List UInt8) : Prop where
  fixed_le : fixed ≤ data.length
  bytes : data.drop fixed = parts.flatten ++ rest
  lengths : parts.map length = announced

/-- A part that ends at `off + k`, and what is found at that offset modulo `m`: the rest is the
right one exactly if the offset is not reduced. -/
theorem segments_wrapped_iff {off k m : ℕ} (hm : 0 < m) (h : off + k ≤ data.length) :
    Segments data off [k] [bytesAt data off k] (data.drop ((off + k) % m)) ↔
      off + k < m := by
  have hmod := Nat.mod_le (off + k) m
  constructor
  · intro hseg
    have hlen := congrArg length hseg.bytes
    rw [flatten_cons, flatten_nil, append_nil, length_append,
      length_bytesAt h, length_drop, length_drop] at hlen
    have hsame : (off + k) % m = off + k := by omega
    rw [← hsame]
    exact Nat.mod_lt _ hm
  · intro hlt
    refine ⟨(Nat.le_add_right ..).trans h, ?_, ?_⟩
    · rw [Nat.mod_eq_of_lt hlt, flatten_cons, flatten_nil, append_nil,
        bytesAt_append_drop]
    · rw [map_cons, map_nil, length_bytesAt h]

theorem decodePushReq_segments (data : List UInt8) :
    DecodesTo (decodePushReq data) fun req => Segments data pushReqBytes [] [] req.message := by
  simp only [decodePushReq, safe_bind, decodesTo_readFlagged, decodesTo_lift,
    readUint8_eq, readInt64_eq, readUint64_eq, safe_readAt, decodesTo_sliceFrom]
  intro _ _ _ _ hlen
  exact ⟨hlen, hlen, rfl, rfl⟩

theorem decodeBroadcastReq_segments (data : List UInt8) :
    DecodesTo (decodeBroadcastReq data) fun req =>
      Segments data broadcastReqBytes [] [] req.message := by
  simp only [decodeBroadcastReq, safe_bind, decodesTo_readFlagged, decodesTo_lift,
    readUint8_eq, safe_readAt, decodesTo_sliceFrom]
  intro _ hlen
  exact ⟨hlen, hlen, rfl, rfl⟩

theorem decodeTriggerReq_safe (data : List UInt8) : DecodesTo (decodeTriggerReq data) fun _ =>
      data.length = triggerReqBytes ∨ data.length = triggerReqBytes - b64 - b64 := by
  have hseek : (new data).seek (defaultSizeBytes + defaultHeaderBytes + defaultRouteBytes)
      .start = .ok ⟨data, 6⟩ := rfl
  simp only [decodeTriggerReq, hseek, safe_bind, decodesTo_reject, decodesTo_lift,
    safe_ok, readUint8_eq, readInt64_eq, readUint64_eq, safe_readAt,
    safe_ite]
  intro hlen _ _ _
  have hcas : data.length = triggerReqBytes ∨ data.length = triggerReqBytes - b64 - b64 := by
    omega
  exact ⟨fun _ _ _ => hcas, fun _ => hcas⟩

theorem decodesTo_readDisconnect {Q : DisconnectReq × Reader → Prop}
    (h : ∀ req, Q (req, ⟨data, 24⟩)) : DecodesTo (readDisconnect data) Q := by
  have hseek : (new data).seek (defaultSizeBytes + defaultHeaderBytes + defaultRouteBytes)
      .start = .ok ⟨data, 6⟩ := rfl
  simp only [readDisconnect, hseek, safe_bind, decodesTo_lift, safe_ok,
    readUint8_eq, readInt64_eq, readUint64_eq, readBool_eq, safe_readAt]
  intro _ _ _ _
  exact h _

theorem decodeDisconnectReq_safe (data : List UInt8) :
    DecodesTo (decodeDisconnectReq data) fun _ => data.length = disconnectReqBytes := by
  simp only [decodeDisconnectReq, safe_bind, decodesTo_reject]
  intro hlen
  exact decodesTo_readDisconnect fun _ => not_not.mp hlen

theorem decodeDisconnectReqWithToken_safe (data : List UInt8) :
    DecodesTo (decodeDisconnectReqWithToken data) fun _ =>
      data.length = disconnectReqBytes ∨ data.length = disconnectCurrentReqBytes := by
  unfold decodeDisconnectReqWithToken
  split
  · exact (decodeDisconnectReq_safe data).mono fun _ h => .inl h
  simp only [safe_bind, decodesTo_reject]
  intro hlen
  apply decodesTo_readDisconnect
  intro req
  simp only [decodesTo_lift, readInt64_eq, readUint64_eq, safe_readAt]
  intro _ _
  exact .inr (not_not.mp hlen)

end Safe

section Publish

variable {data : List UInt8}

def channelBytes (data : List UInt8) : ℕ := natBE (Reader.bytesAt data 14 1)

theorem channelBytes_lt (data : List UInt8) : channelBytes data < 256 := by
  have hlen : (bytesAt data 14 1).length ≤ 1 := length_take_le ..
  have hpow : 256 ^ (bytesAt data 14 1).length ≤ 256 ^ 1 :=
    Nat.pow_le_pow_right (by decide) hlen
  have hlt := natBE_lt (bytesAt data 14 1)
  exact hlt.trans_le hpow

/-- The decoder takes the message from the offset modulo `2^8`. -/
theorem decodesTo_decodePublishReq {Q : PublishReq → Prop} :
    DecodesTo (decodePublishReq data) Q ↔ (15 + channelBytes data ≤ data.length →
      Q ⟨UInt64.ofNat (natBE (bytesAt data 6 8)),
        bytesAt data 15 (channelBytes data), disconnectFlag data,
        data.drop ((15 + channelBytes data) % 256)⟩) := by
  have hlt := channelBytes_lt data
  have hbs : (UInt8.ofNat (natBE (bytesAt data 14 1))).toNat = channelBytes data :=
    UInt8.toNat_ofNat_of_lt' hlt
  have hidx : (UInt8.ofNat publishReqBytes +
      UInt8.ofNat (natBE (bytesAt data 14 1))).toNat = (15 + channelBytes data) % 256 := by
    rw [UInt8.toNat_add, hbs]
    rfl
  have hmod := Nat.mod_le (15 + channelBytes data) 256
  simp only [decodePublishReq, safe_bind, decodesTo_readFlagged, decodesTo_lift,
    readUint8_eq, readString_eq, safe_readAt, decodesTo_sliceFrom, hbs,
    hidx]
  constructor
  · intro h hlen
    exact (h (by omega) (by omega) hlen).2
  · intro h _ _ hlen
    exact ⟨hmod.trans hlen, h hlen⟩

def PublishSegments (data : List UInt8) (req : PublishReq) : Prop :=
  Segments data publishReqBytes [channelBytes data] [req.channel] req.message

theorem decodePublishReq_segments_iff (data : List UInt8) :
    DecodesTo (decodePublishReq data) (PublishSegments data) ↔
      (15 + channelBytes data ≤ data.length → channelBytes data ≤ 240) := by
  rw [decodesTo_decodePublishReq]
  apply forall_congr'
  intro hlen
  refine (segments_wrapped_iff (by decide) hlen).trans ?_
  omega

end Publish

section Targets

variable {data : List UInt8}

def targetCount (data : List UInt8) : ℕ := natBE (Reader.bytesAt data 15 2)

theorem safe_readTargets {Q : UInt64 × Kind × List Int64 × UInt16 → Prop} :
    Safe .outOfRange (readTargets ⟨data, 6⟩) Q ↔ (17 + 8 * targetCount data ≤ data.length →
      Q (UInt64.ofNat (natBE (bytesAt data 6 8)),
        kindOfByte (UInt8.ofNat (natBE (bytesAt data 14 1))),
        int64sAt data 17 (targetCount data), UInt16.ofNat (targetCount data))) := by
  have hct : (UInt16.ofNat (natBE (bytesAt data 15 2))).toNat = targetCount data :=
    uint16_toNat data 15
  simp only [readTargets, safe_bind, readUint64_eq, readUint8_eq,
    readUint16_eq, safe_readAt, hct]
  constructor
  · intro h hlen
    have hread := h (by omega) (by omega) (by omega)
    rw [readInt64s_eq (by omega), safe_readAt] at hread
    exact hread hlen
  · intro h _ _ h17
    rw [readInt64s_eq h17, safe_readAt]
    exact h

/-- The data is cut at the offset modulo `2^16`, which is inside it. -/
theorem safe_afterTargets {Q : List UInt8 → Prop} (h : 17 + 8 * targetCount data ≤ data.length) :
    Safe .outOfRange (afterTargets data 17 (UInt16.ofNat (targetCount data))) Q ↔
      Q (data.drop ((17 + 8 * targetCount data) % 65536)) := by
  have hidx : (UInt16.ofNat 17 + 8 * UInt16.ofNat (targetCount data)).toNat =
      (17 + 8 * targetCount data) % 65536 := by
    simp
  have hle : (17 + 8 * targetCount data) % 65536 ≤ data.length := (Nat.mod_le ..).trans h
  simp only [afterTargets, hidx, if_pos hle]
  exact Iff.rfl

theorem safe_decodeMulticastReq {Q : MulticastReq → Prop} :
    Safe .outOfRange (decodeMulticastReq data) Q ↔
      (17 + 8 * targetCount data ≤ data.length →
        Q ⟨UInt64.ofNat (natBE (bytesAt data 6 8)),
          kindOfByte (UInt8.ofNat (natBE (bytesAt data 14 1))),
          int64sAt data 17 (targetCount data), disconnectFlag data,
          data.drop ((17 + 8 * targetCount data) % 65536)⟩) := by
  have hseek : (new data).seek defaultSizeBytes .start = .ok ⟨data, 4⟩ := rfl
  have hrt : seek ⟨data, 4 + 1⟩ defaultRouteBytes .current = .ok ⟨data, 6⟩ := rfl
  simp only [decodeMulticastReq, hseek, hrt, safe_bind, safe_ok,
    readUint8_eq, safe_readAt, safe_readTargets]
  constructor
  · intro h hlen
    exact (safe_afterTargets hlen).mp (h (by omega) hlen)
  · intro h _ hlen
    exact (safe_afterTargets hlen).mpr (h hlen)

theorem safe_decodeChannelReq {Q : ChannelReq → Prop} :
    Safe .outOfRange (decodeChannelReq 17 data) Q ↔
      (17 + 8 * targetCount data ≤ data.length →
        Q ⟨UInt64.ofNat (natBE (bytesAt data 6 8)),
          kindOfByte (UInt8.ofNat (natBE (bytesAt data 14 1))),
          int64sAt data 17 (targetCount data),
          data.drop ((17 + 8 * targetCount data) % 65536)⟩) := by
  have hseek : (new data).seek (defaultSizeBytes + defaultHeaderBytes + defaultRouteBytes)
      .start = .ok ⟨data, 6⟩ := rfl
  simp only [decodeChannelReq, hseek, safe_bind, safe_ok, safe_readTargets]
  apply forall_congr'
  intro hlen
  exact safe_afterTargets hlen

def TargetSegments (data : List UInt8) (targets : List Int64) (rest : List UInt8) : Prop :=
  targets.length = targetCount data ∧
    Segments data 17 [8 * targetCount data] [Reader.int64Bytes targets] rest

theorem targetSegments_wrapped_iff (h : 17 + 8 * targetCount data ≤ data.length) :
    TargetSegments data (int64sAt data 17 (targetCount data))
      (data.drop ((17 + 8 * targetCount data) % 65536)) ↔ targetCount data ≤ 8189 := by
  rw [TargetSegments, and_iff_right (length_int64sAt ..), int64Bytes_int64sAt h,
    segments_wrapped_iff (by decide) h]
  omega

theorem decodeMulticastReq_segments_iff (data : List UInt8) :
    Safe .outOfRange (decodeMulticastReq data)
        (fun req => TargetSegments data req.targets req.message) ↔
      (17 + 8 * targetCount data ≤ data.length → targetCount data ≤ 8189) := by
  rw [safe_decodeMulticastReq]
  apply forall_congr'
  intro hlen
  exact targetSegments_wrapped_iff hlen

theorem decodeChannelReq_segments_iff (data : List UInt8) :
    Safe .outOfRange (decodeChannelReq 17 data)
        (fun req => TargetSegments data req.targets req.channel) ↔
      (17 + 8 * targetCount data ≤ data.length → targetCount data ≤ 8189) := by
  rw [safe_decodeChannelReq]
  apply forall_congr'
  intro hlen
  exact targetSegments_wrapped_iff hlen

end Targets

section Deliver

variable {data : List UInt8}

def correlationBytes (data : List UInt8) : ℕ := natBE (Reader.bytesAt data 46 2)

/-- The correlation id and the message; with the trace flag, between them the five bytes with the
lengths of the trace fields, and these fields. -/
def DeliverSegments (data : List UInt8) (req : DeliverReq) : Prop :=
  let n := correlationBytes data
  if hasTraceBit data then
    Segments data deliverReqBytes
      [n, 5, natBE (Reader.bytesAt data (48 + n + 1) 2),
        natBE (Reader.bytesAt data (48 + n + 3) 2)]
      [req.metadata.correlationID, Reader.bytesAt data (48 + n) 5, req.metadata.traceParent,
        req.metadata.traceState] req.message
  else
    Segments data deliverReqBytes [n] [req.metadata.correlationID] req.message ∧
      req.metadata.traceParent = [] ∧ req.metadata.traceState = []

theorem parseTrace_segments {rest tp ts message : List UInt8}
    (h : parseTrace rest = some (tp, ts, message)) :
    rest = rest.take 5 ++ (tp ++ (ts ++ message)) ∧ (rest.take 5).length = 5 ∧
      tp.length = natBE (bytesAt rest 1 2) ∧
      ts.length = natBE (bytesAt rest 3 2) := by
  simp only [parseTrace] at h
  split at h
  · cases h
  cases h
  refine ⟨?_, ?_, ?_, ?_⟩
  · rw [← drop_drop, take_append_drop, take_append_drop, take_append_drop]
  · exact length_take_of_le (by omega)
  · exact length_take_of_le (by omega)
  · apply length_take_of_le
    rw [length_drop]
    omega

theorem parseDeliver_segments {req : DeliverReq} (h : parseDeliver data = some req) :
    DeliverSegments data req := by
  unfold parseDeliver at h
  split at h
  · cases h
  rename_i hlen
  obtain ⟨p, hp, rfl⟩ := Option.map_eq_some_iff.mp h
  have hid := length_of_parseTail hp
  have hfix : deliverReqBytes ≤ data.length := Nat.le_of_not_lt hlen
  simp only [DeliverSegments]
  unfold parseTail at hp
  split at hp
  · cases hp
  cases htra : hasTraceBit data with
  | false =>
    rw [htra] at hp
    cases Option.some.inj hp
    refine ⟨⟨hfix, ?_, ?_⟩, rfl, rfl⟩
    · rw [flatten_cons, flatten_nil, append_nil, take_append_drop]
      rfl
    · rw [map_cons, hid]
      rfl
  | true =>
    rw [htra] at hp
    obtain ⟨⟨tp, ts, message⟩, hpar, rfl⟩ := Option.map_eq_some_iff.mp hp
    obtain ⟨hsp, h5, htp, hts⟩ := parseTrace_segments hpar
    rw [drop_drop, bytesAt_drop] at htp hts
    refine ⟨hfix, ?_, ?_⟩
    · -- the tail is the id and what is left, which is split by its own lengths
      have hmid : bytesAt data (48 + correlationBytes data) 5 =
          ((data.drop 48).drop (correlationBytes data)).take 5 := by
        rw [bytesAt, drop_drop]
      have htail : data.drop 48 = (data.drop 48).take (correlationBytes data) ++
          (data.drop 48).drop (correlationBytes data) := (take_append_drop ..).symm
      simp only [flatten_cons, append_assoc, hmid]
      exact htail.trans (congrArg _ hsp)
    · rw [drop_drop] at h5
      have hmid : (bytesAt data (48 + correlationBytes data) 5).length = 5 := h5
      simp only [map_cons, hid, htp, hts, hmid]
      rfl

theorem decodeDeliverReqWithMetadata_segments (data : List UInt8) :
    DecodesTo (decodeDeliverReqWithMetadata data) (DeliverSegments data) := by
  rw [decodeDeliverReqWithMetadata_eq]
  cases hpar : parseDeliver data with
  | none => exact DecodeErr.noConfusion
  | some req => exact parseDeliver_segments hpar

end Deliver

section Decoders

structure DecodersTotal (data : List UInt8) : Prop where
  deliver : DecodesTo (decodeDeliverReqWithMetadata data) (DeliverSegments data)
  trigger : DecodesTo (decodeTriggerReq data) fun _ =>
    data.length = triggerReqBytes ∨ data.length = triggerReqBytes - b64 - b64
  push : DecodesTo (decodePushReq data) fun req => Segments data pushReqBytes [] [] req.message
  broadcast : DecodesTo (decodeBroadcastReq data) fun req =>
    Segments data broadcastReqBytes [] [] req.message
  disconnect : DecodesTo (decodeDisconnectReq data) fun _ => data.length = disconnectReqBytes
  disconnectWithToken : DecodesTo (decodeDisconnectReqWithToken data) fun _ =>
    data.length = disconnectReqBytes ∨ data.length = disconnectCurrentReqBytes
  multicast : Safe .outOfRange (decodeMulticastReq data) fun _ => True
  subscribe : Safe .outOfRange (decodeSubscribeReq data) fun _ => True
  unsubscribe : Safe .outOfRange (decodeUnsubscribeReq data) fun _ => True
  publish : DecodesTo (decodePublishReq data) fun _ => True

theorem decodersTotal (data : List UInt8) : DecodersTotal data where
  deliver := decodeDeliverReqWithMetadata_segments data
  trigger := decodeTriggerReq_safe data
  push := decodePushReq_segments data
  broadcast := decodeBroadcastReq_segments data
  disconnect := decodeDisconnectReq_safe data
  disconnectWithToken := decodeDisconnectReqWithToken_safe data
  multicast := safe_decodeMulticastReq.mpr fun _ => trivial
  subscribe := safe_decodeChannelReq.mpr fun _ => trivial
  unsubscribe := safe_decodeChannelReq.mpr fun _ => trivial
  publish := decodesTo_decodePublishReq.mpr fun _ => trivial

/-- No request decoder panics on any data. The offset behind the targets is computed in `uint16`,
the one behind a channel in `uint8`: the channel and message of these requests are the announced
segments exactly if the offset fits. -/
theorem request_decoders_segments_iff (data : List UInt8) : DecodersTotal data ∧
    (Lib.Safe .outOfRange (decodeMulticastReq data)
        (fun req => TargetSegments data req.targets req.message) ↔
      (17 + 8 * targetCount data ≤ data.length → targetCount data ≤ 8189)) ∧
    (Lib.Safe .outOfRange (decodeSubscribeReq data)
        (fun req => TargetSegments data req.targets req.channel) ↔
      (17 + 8 * targetCount data ≤ data.length → targetCount data ≤ 8189)) ∧
    (Lib.Safe .outOfRange (decodeUnsubscribeReq data)
        (fun req => TargetSegments data req.targets req.channel) ↔
      (17 + 8 * targetCount data ≤ data.length → targetCount data ≤ 8189)) ∧
    (DecodesTo (decodePublishReq data) (PublishSegments data) ↔
      (15 + channelBytes data ≤ data.length → channelBytes data ≤ 240)) :=
  ⟨decodersTotal data, decodeMulticastReq_segments_iff data, decodeChannelReq_segments_iff data,
    decodeChannelReq_segments_iff data, decodePublishReq_segments_iff data⟩

/-- A publish request with a channel of 241 bytes and no message: the decoder returns the whole
frame as the message. -/
theorem publish_message_from_wrapped_offset : ∃ f req,
    readMessage ⟨[0, 0, 0, 252, 0, 11, 0, 0, 0, 0, 0, 0, 0, 1, 241] ++ List.replicate 241 97,
      .eof⟩ = .ok (f, ⟨[], .eof⟩) ∧
      decodePublishReq f.data = .ok req ∧ req.channel = List.replicate 241 97 ∧
      req.message = f.data := by
  refine ⟨⟨false, 11, 1, [0, 0, 0, 252, 0, 11, 0, 0, 0, 0, 0, 0, 0, 1, 241] ++
    replicate 241 97⟩, ⟨1, replicate 241 97, false, [0, 0, 0, 252, 0, 11, 0, 0, 0, 0, 0,
    0, 0, 1, 241] ++ replicate 241 97⟩, ?_, ?_, rfl, rfl⟩
  · decide +kernel
  · decide +kernel

end Decoders

end DueServer.Protocol
