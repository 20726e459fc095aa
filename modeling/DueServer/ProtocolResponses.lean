import DueServer.ProtocolMessages

/-! The decoders of the responses with an optional payload (`stat.go`, `multicast.go`,
`broadcast.go`, `publish.go`, `getip.go`) and the way back from the encoders. -/
namespace DueServer.Protocol

open Buffer Lib

inductive DecodeErr where
  | invalidMessage
  | read (e : ReadErr)
deriving DecidableEq

instance : MonadLift (Except ReadErr) (Except DecodeErr) := ⟨Except.mapError .read⟩

def reject (p : Prop) [Decidable p] : Except DecodeErr Unit :=
  if p then .error .invalidMessage else .ok ()

theorem reject_pos {p : Prop} [Decidable p] (h : p) : reject p = .error .invalidMessage := if_pos h

theorem reject_neg {p : Prop} [Decidable p] (h : ¬ p) : reject p = .ok () := if_neg h

/-- `DecodeMulticastRes`, `DecodeBroadcastRes` and `DecodePublishRes` but for their constant. -/
def decodeTotalRes (resBytes : ℕ) (data : List UInt8) : Except DecodeErr (UInt16 × UInt64) := do
  reject (data.length ≠ resBytes ∧ data.length ≠ resBytes - b64)
  let r ← (Reader.new data).seek
    (defaultSizeBytes + defaultHeaderBytes + defaultRouteBytes + defaultSeqBytes) .start
  let (code, r) ← r.readUint16
  if code = codeOK ∧ data.length = resBytes then
    let (total, _) ← r.readUint64
    return (code, total)
  return (code, 0)

def decodeMulticastRes := decodeTotalRes multicastResBytes
def decodeBroadcastRes := decodeTotalRes broadcastResBytes
def decodePublishRes := decodeTotalRes publishResBytes

def decodeStatRes (data : List UInt8) : Except DecodeErr (UInt16 × UInt64) := do
  reject (data.length ≠ statResBytes ∧ data.length ≠ statResBytes - 8)
  let r ← (Reader.new data).seek
    (defaultSizeBytes + defaultHeaderBytes + defaultRouteBytes + defaultSeqBytes) .start
  if data.length = statResBytes then
    let (total, _) ← r.readUint64
    return (0, total)
  return (0, 0)

def decodeGetIPRes (data : List UInt8) : Except DecodeErr (UInt16 × List UInt8) := do
  reject (data.length ≠ getIPResBytes ∧ data.length ≠ getIPResBytes - 4)
  let r ← (Reader.new data).seek
    (defaultSizeBytes + defaultHeaderBytes + defaultRouteBytes + defaultSeqBytes) .start
  let (code, r) ← r.readUint16
  if code = codeOK ∧ data.length = getIPResBytes then
    let (v, _) ← r.readUint32
    return (code, long2IP v)
  return (code, [])

section Decode

variable {size : ℕ} {header route : UInt8} {seq : UInt64} {code : UInt16} {rest : List UInt8}

theorem encode_bytes (cap size : ℕ) (header route : UInt8) (seq : UInt64)
    (fields : List Put) : ∃ buf,
    encode cap size header route seq fields [] = some buf ∧
      buf.bytes = start size header route seq ++ Put.allBytes fields :=
  ⟨_, encode_eq, Nocopy.bytes_writer _⟩

theorem drop_start : (start size header route seq ++ rest).drop 14 = rest :=
  List.drop_left' length_start

theorem lift_ok {α : Type} {a : α} : (liftM (Except.ok a : Except ReadErr α) : Except DecodeErr α) =
    .ok a := rfl

variable {data : List UInt8}

theorem seek_start (data : List UInt8) : (Reader.new data).seek
    (defaultSizeBytes + defaultHeaderBytes + defaultRouteBytes + defaultSeqBytes) .start =
      .ok ⟨data, 14⟩ := rfl

theorem readCode (h : data.drop 14 = bytesBE 2 code.toNat ++ rest) :
    Reader.readUint16 ⟨data, 14⟩ = .ok (code, ⟨data, 14 + 2⟩) := by
  rw [Reader.readUint16_eq, Reader.readAt_of_drop h (length_bytesBE ..) (by decide),
    ofNat_natBE_uint16]

theorem decodeTotalRes_total {t : UInt64} (hlen : data.length = 24)
    (h : data.drop 14 = bytesBE 2 codeOK.toNat ++ (bytesBE 8 t.toNat ++ [])) :
    decodeTotalRes 24 data = .ok (codeOK, t) := by
  have hdrop := Reader.drop_add h (length_bytesBE ..)
  have htot : Reader.readUint64 ⟨data, 14 + 2⟩ = .ok (t, ⟨data, 24⟩) := by
    rw [Reader.readUint64_eq, Reader.readAt_of_drop hdrop (length_bytesBE ..) (by decide),
      ofNat_natBE_uint64]
  simp only [decodeTotalRes, hlen, seek_start, readCode h, htot, lift_ok, bind,
    Except.bind]
  rfl

theorem decodeTotalRes_code (hlen : data.length = 16)
    (h : data.drop 14 = bytesBE 2 code.toNat ++ []) :
    decodeTotalRes 24 data = .ok (code, 0) := by
  have hsh : ¬ (code = codeOK ∧ 16 = 24) := by omega
  simp only [decodeTotalRes, hlen, seek_start, readCode h, lift_ok, bind, Except.bind,
    if_neg hsh]
  rfl

theorem decodeGetIPRes_ip {v : UInt32} (hlen : data.length = 20)
    (h : data.drop 14 = bytesBE 2 codeOK.toNat ++ (bytesBE 4 v.toNat ++ [])) :
    decodeGetIPRes data = .ok (codeOK, long2IP v) := by
  have hdrop := Reader.drop_add h (length_bytesBE ..)
  have hv : Reader.readUint32 ⟨data, 14 + 2⟩ = .ok (v, ⟨data, 20⟩) := by
    rw [Reader.readUint32_eq, Reader.readAt_of_drop hdrop (length_bytesBE ..) (by decide),
      ofNat_natBE_uint32]
  simp only [decodeGetIPRes, hlen, seek_start, readCode h, hv, lift_ok, bind, Except.bind]
  rfl

theorem decodeGetIPRes_code (hlen : data.length = 16)
    (h : data.drop 14 = bytesBE 2 code.toNat ++ []) :
    decodeGetIPRes data = .ok (code, []) := by
  have hsh : ¬ (code = codeOK ∧ 16 = getIPResBytes) := fun h => absurd h.2 (by decide)
  simp only [decodeGetIPRes, hlen, seek_start, readCode h, lift_ok, bind, Except.bind,
    if_neg hsh]
  rfl

end Decode

section RoundTrip

variable {size : ℕ} {header route : UInt8} {seq : UInt64} {code : UInt16} {total : List UInt64}

def statedTotal (code : UInt16) (total : List UInt64) : UInt64 :=
  if code = codeOK then total.headD 0 else 0

theorem sentTotal_cases (code : UInt16) (total : List UInt64) :
    (sentTotal code total = none ∧ statedTotal code total = 0) ∨
      ∃ t, sentTotal code total = some t ∧ code = codeOK ∧ t ≠ 0 ∧ statedTotal code total = t := by
  unfold sentTotal statedTotal
  rcases total with _ | ⟨t, total⟩
  · left
    refine ⟨rfl, ?_⟩
    split <;> rfl
  by_cases h : code = codeOK ∧ t ≠ 0
  · right
    exact ⟨t, if_pos h, h.1, h.2, if_pos h.1⟩
  left
  refine ⟨if_neg h, ?_⟩
  split
  · rename_i hcode
    exact not_not.mp fun ht => h ⟨hcode, ht⟩
  · rfl

theorem totalFields_none (h : sentTotal code total = none) :
    Put.allBytes (totalFields code total) = bytesBE 2 code.toNat ++ [] := by
  rw [totalFields, h]
  rfl

theorem totalFields_some {t : UInt64} (h : sentTotal code total = some t) :
    Put.allBytes (totalFields code total) =
      bytesBE 2 code.toNat ++ (bytesBE 8 t.toNat ++ []) := by
  rw [totalFields, h]
  rfl

theorem decodeTotalRes_encoded : decodeTotalRes 24
    (start size header route seq ++ Put.allBytes (totalFields code total)) =
      .ok (code, statedTotal code total) := by
  rcases sentTotal_cases code total with ⟨hsent, hsta⟩ | ⟨t, hsent, hcode, -, hsta⟩
  · rw [totalFields_none hsent, hsta]
    exact decodeTotalRes_code (by simp) drop_start
  rw [totalFields_some hsent, hsta, hcode]
  exact decodeTotalRes_total (by simp) drop_start

theorem natBE_shifted {t : UInt64} (ht : t ≠ 0) :
    UInt64.ofNat (natBE ([0, 0] ++ (bytesBE 8 t.toNat).take 6)) ≠ t := by
  intro h
  have hsp := natBE_append ((bytesBE 8 t.toNat).take 6) ((bytesBE 8 t.toNat).drop 6)
  rw [List.take_append_drop, natBE_bytesBE_of_lt t.toNat_lt] at hsp
  have hzero : natBE ([0, 0] ++ (bytesBE 8 t.toNat).take 6) =
      natBE ((bytesBE 8 t.toNat).take 6) := by
    have h0 : natBE [0, 0] = 0 := rfl
    rw [natBE_append, h0, Nat.zero_mul, Nat.zero_add]
  have hlow : ((bytesBE 8 t.toNat).drop 6).length = 2 := by simp
  rw [hlow] at hsp
  have hnat := congrArg UInt64.toNat h
  rw [UInt64.toNat_ofNat'] at hnat
  apply ht
  apply UInt64.toNat_inj.mp
  show t.toNat = 0
  omega

theorem decodeStatRes_encoded_iff : decodeStatRes
    (start size header route seq ++ Put.allBytes (totalFields code total)) =
      .ok (code, statedTotal code total) ↔ code = codeOK ∧ statedTotal code total = 0 := by
  rcases sentTotal_cases code total with ⟨hsent, hsta⟩ | ⟨t, hsent, hcode, ht, hsta⟩
  · rw [totalFields_none hsent, hsta]
    constructor
    · intro h
      cases h
      exact ⟨rfl, rfl⟩
    · rintro ⟨rfl, -⟩
      rfl
  · rw [totalFields_some hsent, hsta, hcode]
    refine iff_of_false ?_ fun h => ht h.2
    -- the eight bytes at the place of the code
    intro h
    exact natBE_shifted ht (congrArg Prod.snd (Except.ok.inj h))

end RoundTrip

section Address

open NetIP

variable {seq : UInt64} {code : UInt16} {ip a : List UInt8}

theorem long2IP_natBE (w x y z : UInt8) :
    long2IP (UInt32.ofNat (natBE [w, x, y, z])) = string4 w x y z := by
  have hlt : natBE [w, x, y, z] < 256 ^ 4 := natBE_lt [w, x, y, z]
  have hv : (UInt32.ofNat (natBE [w, x, y, z])).toNat = natBE [w, x, y, z] := by
    exact Nat.mod_eq_of_lt hlt
  have hbs := bytesBE_natBE [w, x, y, z]
  simp only [List.length_cons, List.length_nil, bytesBE, List.cons.injEq, and_true] at hbs
  obtain ⟨hw, hx, hy, hz⟩ := hbs
  rw [Nat.pow_zero, Nat.div_one] at hz
  rw [Nat.pow_one] at hy
  rw [long2IP, hv, hw, hx, hy, hz]

theorem parseIP_long2IP (h : parseIP ip = some a) :
    parseIP (long2IP (ip2Long ip)) = some a ↔ (to4 a).isSome = true := by
  rcases hto4 : to4 a with _ | v4
  · -- no IPv4 address: the text of 0 comes back
    have hlong : ip2Long ip = UInt32.ofNat (natBE [0, 0, 0, 0]) := by
      rw [ip2Long, h, Option.bind_some, hto4]
      rfl
    rw [hlong]
    refine iff_of_false ?_ Bool.false_ne_true
    intro ha
    rw [← Option.some.inj ha] at hto4
    cases hto4
  · obtain ⟨hlen, rfl⟩ := mapped_of_to4 hto4
    obtain ⟨w, x, y, z, rfl⟩ := List.length_eq_four.mp hlen
    have hlong : ip2Long ip = UInt32.ofNat (natBE [w, x, y, z]) := by
      rw [ip2Long, h, Option.bind_some, hto4]
    rw [hlong, long2IP_natBE, parseIP_string4]
    exact iff_of_true rfl rfl

def IPRoundTrips (seq : UInt64) (code : UInt16) (ip a : List UInt8) : Prop :=
  ∃ buf text, encodeGetIPRes seq code [ip] = some buf ∧
    decodeGetIPRes buf.bytes = .ok (code, text) ∧ (code = codeOK → parseIP text = some a)

theorem encodeGetIPRes_sent (seq : UInt64) (hne : ip ≠ []) : ∃ buf,
    encodeGetIPRes seq codeOK [ip] = some buf ∧ buf.bytes.length = 20 ∧ buf.bytes.drop 14 =
      bytesBE 2 codeOK.toNat ++ (bytesBE 4 (ip2Long ip).toNat ++ []) := by
  have hsent : sentIP codeOK [ip] = some ip := if_pos ⟨rfl, hne⟩
  obtain ⟨buf, henc, hbs⟩ := encode_bytes getIPResBytes 16 dataBit routeGetIP seq
    [.uint16s [codeOK], .uint32s [ip2Long ip]]
  refine ⟨buf, ?_, ?_, ?_⟩
  · rw [encodeGetIPRes, hsent]
    exact henc
  · rw [hbs]
    rfl
  · rw [hbs]
    rfl

theorem encodeGetIPRes_omitted (seq : UInt64) (ip : List UInt8) (hcode : code ≠ codeOK) : ∃ buf,
    encodeGetIPRes seq code [ip] = some buf ∧ buf.bytes.length = 16 ∧
      buf.bytes.drop 14 = bytesBE 2 code.toNat ++ [] := by
  have hsent : sentIP code [ip] = none := if_neg fun h => hcode h.1
  obtain ⟨buf, henc, hbs⟩ := encode_bytes getIPResBytes 12 dataBit routeGetIP seq
    [.uint16s [code]]
  refine ⟨buf, ?_, ?_, ?_⟩
  · rw [encodeGetIPRes, hsent]
    exact henc
  · rw [hbs]
    rfl
  · rw [hbs]
    rfl

theorem getIPRes_round_trip_iff (h : parseIP ip = some a) :
    IPRoundTrips seq code ip a ↔ code ≠ codeOK ∨ (to4 a).isSome = true := by
  by_cases hcode : code = codeOK
  · subst hcode
    have hne : ip ≠ [] := by
      rintro rfl
      cases h
    obtain ⟨buf, henc, hlen, hdrop⟩ := encodeGetIPRes_sent seq hne
    have hdec := decodeGetIPRes_ip hlen hdrop
    rw [or_iff_right (fun hn => hn rfl), ← parseIP_long2IP h]
    constructor
    · rintro ⟨buf', text, henc', hdec', hip⟩
      rw [henc] at henc'
      cases henc'
      rw [hdec] at hdec'
      cases hdec'
      exact hip rfl
    · intro hip
      exact ⟨buf, _, henc, hdec, fun _ => hip⟩
  · obtain ⟨buf, henc, hlen, hdrop⟩ := encodeGetIPRes_omitted seq ip hcode
    exact iff_of_true ⟨buf, [], henc, decodeGetIPRes_code hlen hdrop, fun h => absurd h hcode⟩
      (.inl hcode)

end Address

def TotalRoundTrips (e : UInt64 → UInt16 → List UInt64 → Option Nocopy)
    (d : List UInt8 → Except DecodeErr (UInt16 × UInt64)) (seq : UInt64) (code : UInt16)
    (total : List UInt64) : Prop :=
  ∃ buf, e seq code total = some buf ∧ d buf.bytes = .ok (code, statedTotal code total)

theorem statRes_round_trip_iff (seq : UInt64) (code : UInt16) (total : List UInt64) :
    TotalRoundTrips encodeStatRes decodeStatRes seq code total ↔
      code = codeOK ∧ statedTotal code total = 0 := by
  obtain ⟨buf, henc, hbs⟩ := encode_bytes statResBytes
    (if sentTotal code total = none then statResBytes - defaultSizeBytes - b64
      else statResBytes - defaultSizeBytes) dataBit routeStat seq (totalFields code total)
  rw [← decodeStatRes_encoded_iff, ← hbs]
  constructor
  · rintro ⟨buf', henc', hdec⟩
    rw [show encodeStatRes seq code total = some buf from henc] at henc'
    cases henc'
    exact hdec
  · intro hdec
    exact ⟨buf, henc, hdec⟩

theorem totalRes_round_trip {resBytes : ℕ} (h : resBytes = 24) (route : UInt8) (seq : UInt64)
    (code : UInt16) (total : List UInt64) :
    TotalRoundTrips (fun seq code => encodeTotalRes seq code resBytes route)
      (decodeTotalRes resBytes) seq code total := by
  subst h
  obtain ⟨buf, henc, hbs⟩ := encode_bytes 24
    (if sentTotal code total = none then 24 - defaultSizeBytes - b64 else 24 - defaultSizeBytes)
    dataBit route seq (totalFields code total)
  refine ⟨buf, henc, ?_⟩
  rw [hbs]
  exact decodeTotalRes_encoded

theorem publishRes_round_trip (seq : UInt64) (code : UInt16) (total : List UInt64) :
    TotalRoundTrips encodePublishRes decodePublishRes seq code total := by
  obtain ⟨buf, henc, hbs⟩ := encode_bytes publishResBytes (publishResBytes - defaultSizeBytes)
    dataBit routePublish seq (totalFields code total)
  refine ⟨buf, henc, ?_⟩
  rw [hbs]
  exact decodeTotalRes_encoded

/-- The multicast, broadcast and publish responses come back as they were sent. A stat response
does so exactly if it reports the total 0 with the code OK, and an address exactly if it is an
IPv4 address or is not sent. -/
theorem optional_payload_round_trip_iff (seq : UInt64) (code : UInt16) (total : List UInt64) :
    (TotalRoundTrips encodeStatRes decodeStatRes seq code total ↔
      code = codeOK ∧ statedTotal code total = 0) ∧
    TotalRoundTrips encodeMulticastRes decodeMulticastRes seq code total ∧
    TotalRoundTrips encodeBroadcastRes decodeBroadcastRes seq code total ∧
    TotalRoundTrips encodePublishRes decodePublishRes seq code total ∧
    ∀ ip a, Lib.NetIP.parseIP ip = some a →
      (IPRoundTrips seq code ip a ↔ code ≠ codeOK ∨ (Lib.NetIP.to4 a).isSome = true) :=
  ⟨statRes_round_trip_iff seq code total, totalRes_round_trip rfl _ seq code total,
    totalRes_round_trip rfl _ seq code total, publishRes_round_trip seq code total,
    fun _ _ h => getIPRes_round_trip_iff h⟩

-- the address 10.0.0.7
theorem optional_payload_round_trip_ipv4 : IPRoundTrips 1 codeOK [49, 48, 46, 48, 46, 48, 46, 55]
      (Lib.NetIP.mapped [10, 0, 0, 7]) :=
  ((optional_payload_round_trip_iff 1 codeOK []).2.2.2.2 _ _ (by decide)).mpr (.inr rfl)

/-- A stat response with code 2 is decoded as OK, one with the total 5 as one with 0, and the
address `::1` as `0.0.0.0`. -/
theorem statRes_and_ipv6_garbled :
    (∃ buf, encodeStatRes 1 2 [] = some buf ∧ decodeStatRes buf.bytes = .ok (0, 0)) ∧
    (∃ buf, encodeStatRes 1 0 [5] = some buf ∧ decodeStatRes buf.bytes = .ok (0, 0)) ∧
    ∃ buf, encodeGetIPRes 1 0 [[58, 58, 49]] = some buf ∧
      decodeGetIPRes buf.bytes = .ok (0, [48, 46, 48, 46, 48, 46, 48]) ∧
      Lib.NetIP.parseIP [58, 58, 49] = some (List.replicate 15 0 ++ [1]) := by
  refine ⟨⟨_, encode_eq, ?_⟩, ⟨_, encode_eq, ?_⟩, _, encode_eq, ?_, ?_⟩
  · decide
  · decide
  · decide
  · decide

end DueServer.Protocol
