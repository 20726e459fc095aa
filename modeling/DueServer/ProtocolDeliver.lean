import DueServer.ProtocolResponses

/-! `deliver.go`: the decoder of deliver requests. It works with offsets into the data;
`parseDeliver` is the format it stands for, read from the front, and the encoder's requests come
back through it. -/
namespace DueServer.Protocol

open Buffer Lib Reader
open List (append_assoc drop_drop drop_left length_append length_drop take_left)

structure DeliverReq where
  seq : UInt64
  cid : Int64
  uid : Int64
  generation : UInt64
  metadata : RequestMetadata
  message : List UInt8
deriving DecidableEq

def sliceFrom (data : List UInt8) (i : ℕ) : Except DecodeErr (List UInt8) :=
  if i ≤ data.length then .ok (data.drop i) else .error (.read .outOfRange)

def deadlineOf (deadlineUnixMilli : Int64) : Time :=
  if deadlineUnixMilli ≠ 0 then Time.ofUnixMilli deadlineUnixMilli else Time.zero

def hasTraceBit (data : List UInt8) : Bool :=
  data.getD defaultSizeBytes 0 &&& traceContextBit == traceContextBit

def readOptional (r : Reader) (n : UInt16) : Except DecodeErr (List UInt8 × Reader) :=
  if n > 0 then r.readString n.toNat else pure ([], r)

def readTraceContext (data : List UInt8) (messageOffset : ℕ) (r : Reader) :
    Except DecodeErr (List UInt8 × List UInt8 × ℕ) := do
  reject (data.length - messageOffset < deliverTraceContextFixedBytes)
  let (version, r) ← r.readUint8
  reject (version ≠ deliverTraceContextVersion)
  let (traceParentBytes, r) ← r.readUint16
  let (traceStateBytes, r) ← r.readUint16
  let traceBytes := traceParentBytes.toNat + traceStateBytes.toNat
  reject (traceParentBytes = 0 ∨
    traceBytes > data.length - messageOffset - deliverTraceContextFixedBytes)
  let (traceParent, r) ← r.readString traceParentBytes.toNat
  let (traceState, _) ← readOptional r traceStateBytes
  return (traceParent, traceState, traceBytes)

def decodeDeliverReqWithMetadata (data : List UInt8) : Except DecodeErr DeliverReq := do
  reject (data.length < deliverReqBytes)
  let r ← (Reader.new data).seek (defaultSizeBytes + defaultHeaderBytes + defaultRouteBytes) .start
  let (seq, r) ← r.readUint64
  let (cid, r) ← r.readInt64
  let (uid, r) ← r.readInt64
  let (generation, r) ← r.readUint64
  let (deadlineUnixMilli, r) ← r.readInt64
  let deadline := deadlineOf deadlineUnixMilli
  let (correlationBytes, r) ← r.readUint16
  reject (correlationBytes.toNat > data.length - deliverReqBytes)
  let (correlationID, r) ← readOptional r correlationBytes
  let messageOffset := deliverReqBytes + correlationBytes.toNat
  if hasTraceBit data then
    let (traceParent, traceState, traceBytes) ← readTraceContext data messageOffset r
    let message ← sliceFrom data (messageOffset + (deliverTraceContextFixedBytes + traceBytes))
    return ⟨seq, cid, uid, generation, ⟨deadline, correlationID, traceParent, traceState⟩, message⟩
  let message ← sliceFrom data messageOffset
  return ⟨seq, cid, uid, generation, ⟨deadline, correlationID, [], []⟩, message⟩

/-- `DecodeDeliverReq`: the same without the metadata. -/
def decodeDeliverReq (data : List UInt8) :
    Except DecodeErr (UInt64 × Int64 × Int64 × UInt64 × List UInt8) := do
  let req ← decodeDeliverReqWithMetadata data
  return (req.seq, req.cid, req.uid, req.generation, req.message)

section Format

def parseTrace (rest : List UInt8) : Option (List UInt8 × List UInt8 × List UInt8) :=
  let traceParentBytes := natBE (Reader.bytesAt rest 1 2)
  let traceStateBytes := natBE (Reader.bytesAt rest 3 2)
  let fields := rest.drop 5
  if rest.length < 5 ∨ rest.head? ≠ some deliverTraceContextVersion ∨ traceParentBytes = 0 ∨
      fields.length < traceParentBytes + traceStateBytes then none
  else some (fields.take traceParentBytes, (fields.drop traceParentBytes).take traceStateBytes,
    fields.drop (traceParentBytes + traceStateBytes))

def parseTail (traced : Bool) (correlationBytes : ℕ) (tail : List UInt8) :
    Option (List UInt8 × (List UInt8 × List UInt8) × List UInt8) :=
  if tail.length < correlationBytes then none
  else if traced then
    (parseTrace (tail.drop correlationBytes)).map fun p =>
      (tail.take correlationBytes, (p.1, p.2.1), p.2.2)
  else some (tail.take correlationBytes, ([], []), tail.drop correlationBytes)

def parseDeliver (data : List UInt8) : Option DeliverReq :=
  if data.length < deliverReqBytes then none
  else
    (parseTail (hasTraceBit data) (natBE (Reader.bytesAt data 46 2)) (data.drop 48)).map fun p =>
      { seq := UInt64.ofNat (natBE (Reader.bytesAt data 6 8))
        cid := (UInt64.ofNat (natBE (Reader.bytesAt data 14 8))).toInt64
        uid := (UInt64.ofNat (natBE (Reader.bytesAt data 22 8))).toInt64
        generation := UInt64.ofNat (natBE (Reader.bytesAt data 30 8))
        metadata :=
          { deadline := deadlineOf (UInt64.ofNat (natBE (Reader.bytesAt data 38 8))).toInt64
            correlationID := p.1
            traceParent := p.2.1.1
            traceState := p.2.1.2 }
        message := p.2.2 }

end Format

section Refinement

variable {data : List UInt8} {off : ℕ}

theorem bytesAt_drop (data : List UInt8) (off i k : ℕ) :
    bytesAt (data.drop off) i k = bytesAt data (off + i) k := by
  rw [bytesAt, bytesAt, drop_drop]

theorem uint16_toNat (data : List UInt8) (off : ℕ) :
    (UInt16.ofNat (natBE (bytesAt data off 2))).toNat =
      natBE (bytesAt data off 2) := by
  have hlt := natBE_lt (bytesAt data off 2)
  have hlen : (bytesAt data off 2).length ≤ 2 := List.length_take_le ..
  have hpow : 256 ^ (bytesAt data off 2).length ≤ 256 ^ 2 :=
    Nat.pow_le_pow_right (by decide) hlen
  exact Nat.mod_eq_of_lt (hlt.trans_le hpow)

theorem uint8_at (data : List UInt8) (h : off < data.length) :
    some (UInt8.ofNat (natBE (bytesAt data off 1))) = (data.drop off).head? := by
  have hdrop := List.drop_eq_getElem_cons h
  rw [bytesAt, hdrop, List.take_succ_cons]
  simp [natBE]

theorem uint16_eq_zero_iff (data : List UInt8) (off : ℕ) :
    UInt16.ofNat (natBE (bytesAt data off 2)) = 0 ↔
      natBE (bytesAt data off 2) = 0 := by
  rw [← UInt16.toNat_inj, uint16_toNat]
  exact Iff.rfl

theorem readOptional_at {n : UInt16} (hn : off + n.toNat ≤ data.length) :
    readOptional ⟨data, off⟩ n =
      .ok (bytesAt data off n.toNat, ⟨data, off + n.toNat⟩) := by
  unfold readOptional
  split
  · rw [readString_eq, readAt_of_le hn]
    rfl
  rename_i hzero
  have h0 : n.toNat = 0 := by
    exact Nat.eq_zero_of_not_pos hzero
  rw [h0]
  rfl

theorem readTraceContext_eq (hoff : off ≤ data.length) :
    (readTraceContext data off ⟨data, off⟩ = .error .invalidMessage ∧
      parseTrace (data.drop off) = none) ∨
    ∃ tp ts n, readTraceContext data off ⟨data, off⟩ = .ok (tp, ts, n) ∧
      off + (5 + n) ≤ data.length ∧
      parseTrace (data.drop off) = some (tp, ts, data.drop (off + (5 + n))) := by
  have h5 : deliverTraceContextFixedBytes = 5 := rfl
  have hlen : (data.drop off).length = data.length - off := length_drop
  have hfie : ((data.drop off).drop 5).length = data.length - off - 5 := by
    rw [length_drop, hlen]
  simp only [readTraceContext, parseTrace, bytesAt_drop, hlen, hfie, h5]
  by_cases hsh : data.length - off < 5
  · left
    rw [reject_pos hsh, if_pos (.inl hsh)]
    exact ⟨rfl, rfl⟩
  have hver : some _ = (data.drop off).head? := uint8_at data (by omega)
  rw [reject_neg hsh, ← hver, readUint8_eq, readAt_of_le (by omega)]
  simp only [lift_ok, bind, Except.bind]
  generalize UInt8.ofNat (natBE (bytesAt data off 1)) = version
  by_cases hv : version = deliverTraceContextVersion
  swap
  · left
    have hv' : some version ≠ some deliverTraceContextVersion := fun h => hv (Option.some.inj h)
    rw [reject_pos hv, if_pos (.inr (.inl hv'))]
    exact ⟨rfl, rfl⟩
  have hv' : ¬ some version ≠ some deliverTraceContextVersion := fun h => h (congrArg some hv)
  rw [reject_neg (not_not.mpr hv), readUint16_eq, readAt_of_le (by omega)]
  simp only [lift_ok]
  rw [readUint16_eq, readAt_of_le (by omega)]
  have hts := uint16_toNat data (off + 3)
  simp only [lift_ok, uint16_toNat data (off + 1), uint16_eq_zero_iff]
  generalize natBE (bytesAt data (off + 1) 2) = tp
  generalize UInt16.ofNat (natBE (bytesAt data (off + 3) 2)) = n at hts
  rw [← hts]
  by_cases hlong : tp = 0 ∨ tp + n.toNat > data.length - off - 5
  · left
    rw [reject_pos hlong, if_pos (.inr (.inr hlong))]
    exact ⟨rfl, rfl⟩
  right
  have hsum : off + 5 + tp + n.toNat ≤ data.length := by omega
  have hspec : ¬ (data.length - off < 5 ∨ some version ≠ some deliverTraceContextVersion ∨
      tp = 0 ∨ data.length - off - 5 < tp + n.toNat) := by
    rintro (h | h | h)
    · exact hsh h
    · exact hv' h
    · exact hlong h
  refine ⟨bytesAt data (off + 5) tp, bytesAt data (off + 5 + tp) n.toNat,
    tp + n.toNat, ?_, by omega, ?_⟩
  · rw [reject_neg hlong, readString_eq, readAt_of_le (by omega)]
    simp only [lift_ok]
    rw [readOptional_at hsum]
    rfl
  · rw [if_neg hspec, drop_drop, drop_drop, drop_drop, ← Nat.add_assoc off 5]
    rfl

theorem decodeDeliverReqWithMetadata_eq (data : List UInt8) :
    decodeDeliverReqWithMetadata data = (parseDeliver data).elim (.error .invalidMessage) .ok := by
  have h48 : deliverReqBytes = 48 := rfl
  have h5 : deliverTraceContextFixedBytes = 5 := rfl
  rw [decodeDeliverReqWithMetadata, parseDeliver]
  by_cases hsh : data.length < deliverReqBytes
  · rw [reject_pos hsh, if_pos hsh]
    rfl
  have hseek : (new data).seek (defaultSizeBytes + defaultHeaderBytes + defaultRouteBytes)
      .start = .ok ⟨data, 6⟩ := rfl
  have hn := uint16_toNat data 46
  simp only [reject_neg hsh, if_neg hsh, hseek, lift_ok, bind, Except.bind,
    readUint64_eq, readInt64_eq, readUint16_eq,
    readAt_of_le (show 6 + 8 ≤ data.length by omega),
    readAt_of_le (show 6 + 8 + 8 ≤ data.length by omega),
    readAt_of_le (show 6 + 8 + 8 + 8 ≤ data.length by omega),
    readAt_of_le (show 6 + 8 + 8 + 8 + 8 ≤ data.length by omega),
    readAt_of_le (show 6 + 8 + 8 + 8 + 8 + 8 ≤ data.length by omega),
    readAt_of_le (show 6 + 8 + 8 + 8 + 8 + 8 + 2 ≤ data.length by omega)]
  have hlen : (data.drop 48).length = data.length - deliverReqBytes := by
    rw [length_drop, h48]
  generalize UInt16.ofNat (natBE (bytesAt data 46 2)) = n at hn
  rw [← hn, parseTail, hlen]
  by_cases hlong : n.toNat > data.length - deliverReqBytes
  · rw [reject_pos hlong, if_pos hlong]
    rfl
  have hoff : 48 + n.toNat ≤ data.length := by omega
  rw [reject_neg hlong, if_neg hlong, readOptional_at hoff, drop_drop]
  cases hasTraceBit data with
  | false =>
    have hsli : sliceFrom data (deliverReqBytes + n.toNat) = .ok (data.drop (48 + n.toNat)) :=
      if_pos hoff
    simp only [hsli]
    rfl
  | true =>
    have htra := readTraceContext_eq hoff
    simp only [h48, h5]
    rcases htra with ⟨hread, hpar⟩ | ⟨tp, ts, k, hread, hle, hpar⟩
    · rw [hread, hpar]
      rfl
    have hsli : sliceFrom data (48 + n.toNat + (5 + k)) =
        .ok (data.drop (48 + n.toNat + (5 + k))) := if_pos hle
    simp only [hread, hpar, hsli]
    rfl

end Refinement

section RoundTrip

variable {size : ℕ} {header : UInt8} {seq : UInt64} {cid uid : Int64} {generation : UInt64}
  {ms : Int64} {n : UInt16} {tail payload : List UInt8}

def deliverStart (size : ℕ) (header : UInt8) (seq : UInt64) (cid uid : Int64)
    (generation : UInt64) (ms : Int64) (n : UInt16) (tail : List UInt8) : List UInt8 :=
  start size header routeDeliver seq ++ (bytesBE 8 cid.toUInt64.toNat ++
    (bytesBE 8 uid.toUInt64.toNat ++ (bytesBE 8 generation.toNat ++
      (bytesBE 8 ms.toUInt64.toNat ++ (bytesBE 2 n.toNat ++ tail)))))

theorem int64_back (v : Int64) :
    (UInt64.ofNat (natBE (bytesBE 8 v.toUInt64.toNat))).toInt64 = v := by
  rw [ofNat_natBE_uint64]
  rfl

theorem uint16_back (v : UInt16) : natBE (bytesBE 2 v.toNat) = v.toNat :=
  natBE_bytesBE_of_lt v.toNat_lt

theorem parseDeliver_start :
    parseDeliver (deliverStart size header seq cid uid generation ms n tail) =
      (parseTail (header &&& traceContextBit == traceContextBit) n.toNat tail).map fun p =>
        ⟨seq, cid, uid, generation, ⟨deadlineOf ms, p.1, p.2.1.1, p.2.1.2⟩, p.2.2⟩ := by
  obtain ⟨data, hdata⟩ : ∃ data, data = deliverStart size header seq cid uid generation ms n tail :=
    ⟨_, rfl⟩
  have hlen : ¬ data.length < deliverReqBytes := by
    have h48 : deliverReqBytes = 48 := rfl
    simp only [hdata, deliverStart, length_append, length_start, length_bytesBE]
    omega
  have hseq : bytesAt data 6 8 = bytesBE 8 seq.toNat := hdata ▸ rfl
  have hcid : bytesAt data 14 8 = bytesBE 8 cid.toUInt64.toNat := hdata ▸ rfl
  have huid : bytesAt data 22 8 = bytesBE 8 uid.toUInt64.toNat := hdata ▸ rfl
  have hgen : bytesAt data 30 8 = bytesBE 8 generation.toNat := hdata ▸ rfl
  have hms : bytesAt data 38 8 = bytesBE 8 ms.toUInt64.toNat := hdata ▸ rfl
  have hn : bytesAt data 46 2 = bytesBE 2 n.toNat := hdata ▸ rfl
  have htail : data.drop 48 = tail := hdata ▸ rfl
  have htra : hasTraceBit data = (header &&& traceContextBit == traceContextBit) := hdata ▸ rfl
  rw [← hdata, parseDeliver, if_neg hlen, hseq, hcid, huid, hgen, hms, hn, htail, htra,
    int64_back cid, int64_back uid, int64_back ms, ofNat_natBE_uint64 seq,
    ofNat_natBE_uint64 generation,
    uint16_back]

def traceBytes (metadata : RequestMetadata) : List UInt8 :=
  if hasTraceContext metadata then
    [deliverTraceContextVersion] ++ (bytesBE 2 (UInt16.ofNat metadata.traceParent.length).toNat ++
      (bytesBE 2 (UInt16.ofNat metadata.traceState.length).toNat ++
        (metadata.traceParent ++ metadata.traceState)))
  else []

def sentMilli (deadline : Time) : Int64 :=
  if deadline.isZero then 0 else deadline.unixMilli

theorem encodeDeliverReqWithMetadata_bytes (seq : UInt64) (cid uid : Int64) (generation : UInt64)
    (metadata : RequestMetadata) (payload : Nocopy) : ∃ buf size header,
      encodeDeliverReqWithMetadata seq cid uid generation metadata payload = some buf ∧
      (header &&& traceContextBit == traceContextBit) = hasTraceContext metadata ∧
      buf.bytes = deliverStart size header seq cid uid generation (sentMilli metadata.deadline)
        (UInt16.ofNat metadata.correlationID.length)
        (metadata.correlationID ++ (traceBytes metadata ++ payload.bytes)) := by
  unfold encodeDeliverReqWithMetadata traceBytes
  cases hasTraceContext metadata with
  | false =>
    refine ⟨_, deliverReqBytes + metadata.correlationID.length - defaultSizeBytes + payload.len,
      dataBit, encode_eq, rfl, ?_⟩
    rw [Nocopy.bytes_writer_message]
    simp [deliverStart, sentMilli, Put.allBytes, Put.bytes, Put.chunks]
  | true =>
    refine ⟨_, deliverReqBytes + metadata.correlationID.length + (deliverTraceContextFixedBytes +
      metadata.traceParent.length + metadata.traceState.length) - defaultSizeBytes + payload.len,
      dataBit ||| traceContextBit, encode_eq, rfl, ?_⟩
    rw [Nocopy.bytes_writer_message]
    simp [deliverStart, sentMilli, Put.allBytes, Put.bytes, Put.chunks]

theorem hasTraceContext_iff {metadata : RequestMetadata} : hasTraceContext metadata = true ↔
    metadata.traceParent ≠ [] ∧ metadata.traceParent.length ≤ 65535 ∧
      metadata.traceState.length ≤ 65535 := by
  simp only [hasTraceContext, Bool.and_eq_true, decide_eq_true_eq, and_assoc]
  exact Iff.rfl

def deliveredMetadata (metadata : RequestMetadata) : RequestMetadata where
  deadline := metadata.deadline.truncateMilli
  correlationID := metadata.correlationID
  traceParent :=
    if metadata.traceParent ≠ [] ∧ metadata.traceParent.length ≤ 65535 ∧
      metadata.traceState.length ≤ 65535 then metadata.traceParent else []
  traceState :=
    if metadata.traceParent ≠ [] ∧ metadata.traceParent.length ≤ 65535 ∧
      metadata.traceState.length ≤ 65535 then metadata.traceState else []

theorem uint16_length {l : List UInt8} (h : l.length ≤ 65535) :
    (UInt16.ofNat l.length).toNat = l.length :=
  UInt16.toNat_ofNat_of_lt' (Nat.lt_succ_of_le h)

theorem parseTrace_traceBytes {metadata : RequestMetadata} (h : hasTraceContext metadata = true)
    (rest : List UInt8) : parseTrace (traceBytes metadata ++ rest) =
      some (metadata.traceParent, metadata.traceState, rest) := by
  obtain ⟨hne, hpar, hstt⟩ := hasTraceContext_iff.mp h
  have hfie : (traceBytes metadata ++ rest).drop 5 =
      metadata.traceParent ++ (metadata.traceState ++ rest) := by
    rw [traceBytes, if_pos h, ← append_assoc metadata.traceParent]
    rfl
  have hp : natBE (bytesAt (traceBytes metadata ++ rest) 1 2) =
      metadata.traceParent.length := by
    rw [traceBytes, if_pos h]
    exact (uint16_back _).trans (uint16_length hpar)
  have hs : natBE (bytesAt (traceBytes metadata ++ rest) 3 2) =
      metadata.traceState.length := by
    rw [traceBytes, if_pos h]
    exact (uint16_back _).trans (uint16_length hstt)
  have hhead : (traceBytes metadata ++ rest).head? = some deliverTraceContextVersion := by
    rw [traceBytes, if_pos h]
    rfl
  have hlen := congrArg List.length hfie
  have hpos := List.length_pos_iff.mpr hne
  rw [length_drop, length_append, length_append] at hlen
  simp only [parseTrace, hp, hs, hhead, hfie]
  rw [if_neg, take_left, drop_left, take_left, ← length_append,
    ← append_assoc, drop_left]
  simp only [length_append, not_or]
  exact ⟨by omega, fun h => h rfl, by omega, by omega⟩

theorem parseTail_traceBytes (metadata : RequestMetadata) (rest : List UInt8) :
    parseTail (hasTraceContext metadata) metadata.correlationID.length
        (metadata.correlationID ++ (traceBytes metadata ++ rest)) =
      some (metadata.correlationID, ((deliveredMetadata metadata).traceParent,
        (deliveredMetadata metadata).traceState), rest) := by
  have hlong : ¬ (metadata.correlationID ++ (traceBytes metadata ++ rest)).length <
      metadata.correlationID.length := by
    rw [length_append]
    omega
  rw [parseTail, if_neg hlong, take_left, drop_left]
  by_cases h : hasTraceContext metadata = true
  · have hfits := hasTraceContext_iff.mp h
    rw [if_pos h, parseTrace_traceBytes h, deliveredMetadata, if_pos hfits, if_pos hfits]
    rfl
  have hfits := fun hf => h (hasTraceContext_iff.mpr hf)
  rw [if_neg h, traceBytes, if_neg h, deliveredMetadata, if_neg hfits, if_neg hfits]
  rfl

theorem length_of_parseTail {traced : Bool} {c : ℕ}
    {p : List UInt8 × (List UInt8 × List UInt8) × List UInt8}
    (h : parseTail traced c tail = some p) : p.1.length = c := by
  unfold parseTail at h
  split at h
  · cases h
  rename_i hlong
  have htake : (tail.take c).length = c := List.length_take_of_le (Nat.le_of_not_lt hlong)
  cases traced with
  | false =>
    cases Option.some.inj h
    exact htake
  | true =>
    obtain ⟨q, _, hq⟩ := Option.map_eq_some_iff.mp h
    rw [← hq]
    exact htake

end RoundTrip

section Deliver

variable (seq : UInt64) (cid uid : Int64) (generation : UInt64) (metadata : RequestMetadata)
  (payload : Nocopy)

/-- A deadline the field can carry: its milliseconds fit `int64`, and it does not become the zero
time when what is below a millisecond is cut off. -/
def DeadlineFits (t : Time) : Prop :=
  t.isZero = true ∨
    (-2 ^ 63 ≤ t.exactMilli ∧ t.exactMilli < 2 ^ 63) ∧ t.truncateMilli.isZero = false

theorem deadlineOf_sentMilli_iff {t : Time} (h : t.isZero = true ∨ t.unixMilli ≠ 0) :
    (deadlineOf (sentMilli t) = t.truncateMilli ∧
      (deadlineOf (sentMilli t)).isZero = t.isZero) ↔ DeadlineFits t := by
  by_cases hz : t.isZero = true
  · have ht := Time.isZero_iff.mp hz
    subst ht
    exact iff_of_true ⟨rfl, rfl⟩ (.inl rfl)
  have hms : t.unixMilli ≠ 0 := h.resolve_left hz
  have hfie : deadlineOf (sentMilli t) = Time.ofUnixMilli t.unixMilli := by
    rw [sentMilli, if_neg hz, deadlineOf, if_pos hms]
  rw [hfie, DeadlineFits, or_iff_right hz, Time.ofUnixMilli_unixMilli_iff,
    and_congr_right_iff]
  intro hran
  have hz' : t.isZero = false := Bool.eq_false_of_not_eq_true hz
  rw [(Time.ofUnixMilli_unixMilli_iff t).mpr hran, hz']

def DeliverRoundTrips : Prop :=
  ∃ buf, encodeDeliverReqWithMetadata seq cid uid generation metadata payload = some buf ∧
    (∃ req, decodeDeliverReqWithMetadata buf.bytes = .ok req ∧
      req = ⟨seq, cid, uid, generation, deliveredMetadata metadata, payload.bytes⟩ ∧
      req.metadata.deadline.isZero = metadata.deadline.isZero) ∧
    decodeDeliverReq buf.bytes = .ok (seq, cid, uid, generation, payload.bytes)

/-- The correlation id's length is sent in 16 bits without a check, and the deadline as the
milliseconds of an `int64`. -/
theorem deliver_round_trip_iff
    (h : metadata.deadline.isZero = true ∨ metadata.deadline.unixMilli ≠ 0) :
    DeliverRoundTrips seq cid uid generation metadata payload ↔
      metadata.correlationID.length ≤ 65535 ∧ DeadlineFits metadata.deadline := by
  obtain ⟨buf, size, header, henc, hhdr, hbs⟩ :=
    encodeDeliverReqWithMetadata_bytes seq cid uid generation metadata payload
  have hdec : decodeDeliverReqWithMetadata buf.bytes =
      ((parseTail (hasTraceContext metadata) (UInt16.ofNat metadata.correlationID.length).toNat
        (metadata.correlationID ++ (traceBytes metadata ++ payload.bytes))).map fun p =>
          ⟨seq, cid, uid, generation, ⟨deadlineOf (sentMilli metadata.deadline), p.1, p.2.1.1,
            p.2.1.2⟩, p.2.2⟩).elim (.error .invalidMessage) .ok := by
    rw [decodeDeliverReqWithMetadata_eq, hbs, parseDeliver_start, hhdr]
  rw [← deadlineOf_sentMilli_iff h]
  constructor
  · rintro ⟨buf', henc', ⟨req, hreq, hval, hzero⟩, -⟩
    obtain rfl : buf = buf' := Option.some.inj (henc.symm.trans henc')
    rw [hdec] at hreq
    match hp : parseTail (hasTraceContext metadata)
        (UInt16.ofNat metadata.correlationID.length).toNat
        (metadata.correlationID ++ (traceBytes metadata ++ payload.bytes)) with
    | none =>
      rw [hp] at hreq
      cases hreq
    | some p =>
      rw [hp] at hreq
      have hsame := (Except.ok.inj hreq).trans hval
      have hcorr : p.1 = metadata.correlationID := congrArg (·.metadata.correlationID) hsame
      have hdea : deadlineOf (sentMilli metadata.deadline) = metadata.deadline.truncateMilli :=
        congrArg (·.metadata.deadline) hsame
      have hlen := length_of_parseTail hp
      have hlt := (UInt16.ofNat metadata.correlationID.length).toNat_lt
      rw [hcorr] at hlen
      refine ⟨by omega, hdea, ?_⟩
      rw [hval] at hzero
      rw [hdea]
      exact hzero
  · rintro ⟨hlen, hdea, hzero⟩
    rw [uint16_length hlen, parseTail_traceBytes, hdea] at hdec
    have hok : decodeDeliverReqWithMetadata buf.bytes =
        .ok ⟨seq, cid, uid, generation, deliveredMetadata metadata, payload.bytes⟩ := hdec
    refine ⟨buf, henc, ⟨_, hok, rfl, ?_⟩, ?_⟩
    · rw [hdea] at hzero
      exact hzero
    · rw [decodeDeliverReq, hok]
      rfl

/-- A request with a deadline and both fields of a trace context comes back. -/
theorem deliver_round_trip_traced :
    DeliverRoundTrips 1 2 3 4 ⟨⟨63835596800, 5000000, by decide⟩, [99], [97], [98]⟩
      (.node [1, 2]) :=
  (deliver_round_trip_iff 1 2 3 4 ⟨⟨63835596800, 5000000, by decide⟩, [99], [97], [98]⟩
    (.node [1, 2]) (.inr (by decide))).mpr
    ⟨by decide, .inr ⟨by decide, rfl⟩⟩

theorem deliver_unannounced_correlation {id : List UInt8} (h : UInt16.ofNat id.length = 0) :
    ∃ buf, encodeDeliverReqWithMetadata seq cid uid generation ⟨Time.zero, id, [], []⟩ payload =
        some buf ∧
      decodeDeliverReqWithMetadata buf.bytes =
        .ok ⟨seq, cid, uid, generation, ⟨Time.zero, [], [], []⟩, id ++ payload.bytes⟩ := by
  obtain ⟨buf, size, header, henc, hhdr, hbs⟩ :=
    encodeDeliverReqWithMetadata_bytes seq cid uid generation ⟨Time.zero, id, [], []⟩ payload
  refine ⟨buf, henc, ?_⟩
  rw [decodeDeliverReqWithMetadata_eq, hbs, parseDeliver_start, hhdr, h]
  rfl

/-- A correlation id of 2^16 bytes is announced as empty: the receiver takes it for the beginning
of the message. A deadline one nanosecond after the zero time arrives as no deadline. -/
theorem deliver_loses_correlation_and_deadline : (∃ buf, encodeDeliverReqWithMetadata 1 2 3 4
        ⟨Lib.Time.zero, List.replicate 65536 97, [], []⟩ (.node [1]) = some buf ∧
      decodeDeliverReqWithMetadata buf.bytes =
        .ok ⟨1, 2, 3, 4, ⟨Lib.Time.zero, [], [], []⟩, List.replicate 65536 97 ++ [1]⟩) ∧
    ∃ buf, encodeDeliverReqWithMetadata 1 2 3 4 ⟨⟨0, 1, by decide⟩, [], [], []⟩ (.node [1]) =
        some buf ∧
      decodeDeliverReqWithMetadata buf.bytes =
        .ok ⟨1, 2, 3, 4, ⟨Lib.Time.zero, [], [], []⟩, [1]⟩ := by
  constructor
  · apply deliver_unannounced_correlation
    rw [List.length_replicate]
    rfl
  · obtain ⟨buf, size, header, henc, hhdr, hbs⟩ :=
      encodeDeliverReqWithMetadata_bytes 1 2 3 4 ⟨⟨0, 1, by decide⟩, [], [], []⟩ (.node [1])
    refine ⟨buf, henc, ?_⟩
    rw [decodeDeliverReqWithMetadata_eq, hbs, parseDeliver_start, hhdr]
    rfl

end Deliver

end DueServer.Protocol
