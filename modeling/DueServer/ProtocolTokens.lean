import DueServer.ProtocolRequests

/-! The way back from the encoders of the publish, push, trigger and disconnect requests: the reader
takes the fields one by one as the writer has put them. -/
namespace DueServer.Protocol

open Buffer List Put Reader Lib

section Fields

variable {data rest : List UInt8} {off n : ℕ} {p : Put} {ps : List Put}

theorem read_put {α : Type} {f : List UInt8 → α} {v : α} (hsize : p.size = n) (hpos : 0 < n)
    (hval : f p.bytes = v) (h : data.drop off = allBytes (p :: ps) ++ rest) :
    readAt f n ⟨data, off⟩ = .ok (v, ⟨data, off + n⟩) ∧
      data.drop (off + n) = allBytes ps ++ rest := by
  have hlen : p.bytes.length = n := by rw [length_bytes, hsize]
  rw [allBytes_cons, append_assoc] at h
  rw [readAt_of_drop h hlen hpos, hval]
  exact ⟨rfl, drop_add h hlen⟩

theorem readUint8_put {v : UInt8} (h : data.drop off = allBytes (.uint8s [v] :: ps) ++ rest) :
    readUint8 ⟨data, off⟩ = .ok (v, ⟨data, off + 1⟩) ∧
      data.drop (off + 1) = allBytes ps ++ rest := by
  rw [readUint8_eq]
  exact read_put rfl Nat.one_pos (by simp [bytes, chunks, natBE]) h

theorem readUint64_put {v : UInt64}
    (h : data.drop off = allBytes (.uint64s [v] :: ps) ++ rest) :
    readUint64 ⟨data, off⟩ = .ok (v, ⟨data, off + 8⟩) ∧
      data.drop (off + 8) = allBytes ps ++ rest := by
  rw [readUint64_eq]
  exact read_put rfl (by decide) (by simp [bytes, chunks, ofNat_natBE_uint64]) h

theorem readInt64_put {v : Int64} (h : data.drop off = allBytes (.int64s [v] :: ps) ++ rest) :
    readInt64 ⟨data, off⟩ = .ok (v, ⟨data, off + 8⟩) ∧
      data.drop (off + 8) = allBytes ps ++ rest := by
  have hval : (UInt64.ofNat (natBE (int64s [v]).bytes)).toInt64 = v := by
    rw [bytes, chunks, map_singleton, flatten_singleton, ofNat_natBE_uint64]
    rfl
  rw [readInt64_eq]
  exact read_put rfl (by decide) hval h

theorem readBool_put {v : Bool} (h : data.drop off = allBytes (.bools [v] :: ps) ++ rest) :
    readBool ⟨data, off⟩ = .ok (v, ⟨data, off + 1⟩) ∧
      data.drop (off + 1) = allBytes ps ++ rest := by
  rw [readBool_eq]
  exact read_put rfl Nat.one_pos (by cases v <;> rfl) h

end Fields

section Start

variable {size : ℕ} {header route : UInt8} {seq : UInt64} {fields : List Put}
  {data rest : List UInt8}

theorem encode_message (cap size : ℕ) (header route : UInt8) (seq : UInt64) (fields : List Put)
    (message : Nocopy) : ∃ buf,
    encode cap size header route seq fields [message] = some buf ∧
      buf.bytes = start size header route seq ++ (allBytes fields ++ message.bytes) := by
  refine ⟨_, encode_eq, ?_⟩
  rw [Nocopy.bytes_writer_message, append_assoc]

theorem encode_alone (cap size : ℕ) (header route : UInt8) (seq : UInt64) (fields : List Put) :
    ∃ buf, encode cap size header route seq fields [] = some buf ∧
      buf.bytes = start size header route seq ++ (allBytes fields ++ []) := by
  obtain ⟨buf, henc, hbs⟩ := encode_bytes cap size header route seq fields
  exact ⟨buf, henc, by rw [hbs, append_nil]⟩

theorem drop_start_six : (start size header route seq ++ rest).drop 6 =
    allBytes [.uint64s [seq]] ++ rest := by
  have h6 : (start size header route seq ++ rest).drop 6 =
      ((start size header route seq ++ rest).drop 4).drop 2 := by rw [drop_drop]
  have h4 : (start size header route seq ++ rest).drop 4 =
      [header] ++ ([route] ++ (bytesBE 8 seq.toNat ++ rest)) := by
    exact drop_left' (length_bytesBE ..)
  rw [h6, h4]
  simp [allBytes, bytes, chunks]

theorem readSeq_start (hdata : data = start size header route seq ++ rest) :
    readUint64 ⟨data, 6⟩ = .ok (seq, ⟨data, 14⟩) := by
  subst hdata
  exact (readUint64_put drop_start_six).1

theorem readFlagged_start {disconnect : Bool}
    (hdata : data = start size (disconnectHeader disconnect) route seq ++ rest) :
    readFlagged data = .ok (disconnect, seq, ⟨data, 14⟩) := by
  have hhdr : readUint8 ⟨data, 4⟩ = .ok (disconnectHeader disconnect, ⟨data, 5⟩) := by
    apply readUint8_of_drop
    simp only [hdata]
    exact drop_left' (length_bytesBE ..)
  have hseek : (new data).seek defaultSizeBytes .start = .ok ⟨data, 4⟩ := rfl
  have hrt : seek ⟨data, 5⟩ defaultRouteBytes .current = .ok ⟨data, 6⟩ := rfl
  have hflag : decide (disconnectHeader disconnect &&& disconnectBit =
    disconnectBit) = disconnect :=
    disconnect_flag disconnect
  simp only [readFlagged, hseek, hhdr, hrt, readSeq_start hdata, lift_ok, bind, Except.bind,
    hflag]
  rfl

theorem length_encoded (hdata : data = start size header route seq ++ (allBytes fields ++ rest)) :
    data.length = 14 + sizes fields + rest.length := by
  rw [hdata, length_append, length_append, length_start, length_allBytes, Nat.add_assoc]

end Start

section Publish

/-- What comes back: the channel, and the bytes behind the offset modulo `2^8` as the message. -/
theorem publish_encoded (seq : UInt64) (channel : List UInt8) (hlen : channel.length ≤ 255)
    (disconnect : Bool) (message : Nocopy) : ∃ buf,
      encodePublishReq seq channel disconnect message = some buf ∧
      buf.bytes.length = 15 + channel.length + message.bytes.length ∧
      buf.bytes.drop (15 + channel.length) = message.bytes ∧ decodePublishReq buf.bytes =
        .ok ⟨seq, channel, disconnect, buf.bytes.drop ((15 + channel.length) % 256)⟩ := by
  obtain ⟨buf, henc, hdata⟩ := encode_message (publishReqBytes + channel.length)
    (publishReqBytes + channel.length - defaultSizeBytes + message.len)
    (disconnectHeader disconnect) routePublish seq
    [.uint8s [UInt8.ofNat channel.length], .string channel] message
  have htot : buf.bytes.length = 15 + channel.length + message.bytes.length := by
    have hsiz : sizes [.uint8s [UInt8.ofNat channel.length], .string channel] =
      1 + channel.length := rfl
    rw [length_encoded hdata]
    omega
  obtain ⟨hbs, hrest⟩ := readUint8_put (hdata ▸ drop_start)
  have hfif : buf.bytes.drop 15 = channel ++ message.bytes := by
    rw [hrest]
    simp [allBytes]
  have hct : (UInt8.ofNat channel.length).toNat = channel.length :=
    UInt8.toNat_ofNat_of_lt' (Nat.lt_succ_of_le hlen)
  have hroom : 15 + channel.length ≤ buf.bytes.length := by omega
  have hcha : readString ⟨buf.bytes, 15⟩ channel.length =
      .ok (channel, ⟨buf.bytes, 15 + channel.length⟩) := by
    rw [readString_eq, readAt_of_le hroom, bytesAt, hfif, take_left, id]
  have hidx : (UInt8.ofNat publishReqBytes + UInt8.ofNat channel.length).toNat =
      (15 + channel.length) % 256 := by
    rw [UInt8.toNat_add, hct]
    rfl
  have hcut : sliceFrom buf.bytes ((15 + channel.length) % 256) =
    .ok (buf.bytes.drop ((15 + channel.length) % 256)) := if_pos ((Nat.mod_le ..).trans hroom)
  refine ⟨buf, henc, htot, ?_, ?_⟩
  · rw [← drop_drop, hfif, drop_left]
  · simp only [decodePublishReq, readFlagged_start hdata, hbs, hct, hcha, hidx, hcut,
      lift_ok, bind, Except.bind]
    rfl

/-- A channel of at most 240 bytes comes back with its message. A longer one comes back with a
message that starts too early, since the decoder computes the offset in `uint8`. -/
theorem publish_round_trip_iff (seq : UInt64) (channel : List UInt8) (hlen : channel.length ≤ 255)
    (disconnect : Bool) (message : Nocopy) :
    (∃ buf, encodePublishReq seq channel disconnect message = some buf ∧
      decodePublishReq buf.bytes = .ok ⟨seq, channel, disconnect, message.bytes⟩) ↔
    channel.length ≤ 240 := by
  obtain ⟨buf, henc, htot, hmsg, hdec⟩ := publish_encoded seq channel hlen disconnect message
  constructor
  · rintro ⟨buf', henc', hback⟩
    obtain rfl : buf = buf' := Option.some.inj (henc.symm.trans henc')
    rw [hdec] at hback
    -- the lengths decide where the decoder has cut
    have hcut := congrArg length (congrArg PublishReq.message (Except.ok.inj hback))
    simp only [length_drop] at hcut
    omega
  · intro hle
    have hmod : (15 + channel.length) % 256 = 15 + channel.length := Nat.mod_eq_of_lt (by omega)
    refine ⟨buf, henc, hdec.trans ?_⟩
    rw [hmod, hmsg]

theorem publish_round_trip_lobby : ∃ buf,
    encodePublishReq 7 [108, 111, 98, 98, 121] true (.node [1, 2]) = some buf ∧
      decodePublishReq buf.bytes = .ok ⟨7, [108, 111, 98, 98, 121], true, [1, 2]⟩ :=
  (publish_round_trip_iff 7 [108, 111, 98, 98, 121] (by decide) true (.node [1, 2])).mpr (by decide)

/-- With a channel of 241 bytes the whole request comes back as the message. -/
theorem publish_long_channel_garbled : ∃ buf,
    encodePublishReq 7 (List.replicate 241 97) false (.node [1, 2]) = some buf ∧
      buf.bytes.length = 258 ∧
      decodePublishReq buf.bytes = .ok ⟨7, List.replicate 241 97, false, buf.bytes⟩ := by
  have hlen : (replicate 241 (97 : UInt8)).length = 241 := length_replicate
  obtain ⟨buf, henc, htot, -, hdec⟩ :=
    publish_encoded 7 (replicate 241 97) (by omega) false (.node [1, 2])
  rw [hlen] at htot hdec
  exact ⟨buf, henc, htot, hdec⟩

end Publish

section Tokens

variable {seq : UInt64} {kind : Kind} {target : Int64} {data : List UInt8}

theorem push_round_trip (hkind : kind = .conn ∨ kind = .user) (disconnect : Bool)
    (token : SessionToken) (message : Nocopy) : ∃ buf,
    encodePushReq seq kind target disconnect token message = some buf ∧
      decodePushReq buf.bytes = .ok ⟨seq, kind, target, disconnect, token, message.bytes⟩ := by
  obtain ⟨buf, henc, hdata⟩ := encode_message pushReqBytes
    (pushReqBytes - defaultSizeBytes + message.len) (disconnectHeader disconnect) routePush seq
    [.uint8s [kindByte kind], .int64s [target], .int64s [token.uid], .uint64s [token.generation]]
    message
  obtain ⟨hread, hrest⟩ := readUint8_put (hdata ▸ drop_start)
  obtain ⟨htar, hrest⟩ := readInt64_put hrest
  obtain ⟨huid, hrest⟩ := readInt64_put hrest
  obtain ⟨hgen, hrest⟩ := readUint64_put hrest
  have hmsg : sliceFrom buf.bytes pushReqBytes = .ok message.bytes := by
    have hlen : pushReqBytes ≤ buf.bytes.length := (length_encoded hdata).symm ▸ Nat.le_add_right ..
    rw [sliceFrom, if_pos hlen]
    exact congrArg _ hrest
  refine ⟨buf, henc, ?_⟩
  simp only [decodePushReq, readFlagged_start hdata, hread, htar, huid, hgen, hmsg,
    lift_ok, bind, Except.bind, kindOfByte_kindByte hkind]
  rfl

theorem seek_six (data : List UInt8) : (new data).seek
    (defaultSizeBytes + defaultHeaderBytes + defaultRouteBytes) .start = .ok ⟨data, 6⟩ := rfl

theorem trigger_round_trip (event : ℤ) (cid uid : Int64) (generation : UInt64) : ∃ buf,
    encodeTriggerReq seq event cid uid generation = some buf ∧ decodeTriggerReq buf.bytes =
      .ok ⟨seq, event % 256, cid, uid, if uid = 0 then 0 else generation⟩ := by
  have heve : ((UInt8.ofInt event).toNat : ℤ) = event % 256 := by
    simp only [UInt8.ofInt, UInt8.toNat_ofNat']
    omega
  obtain ⟨buf, henc, hdata⟩ : ∃ buf, encodeTriggerReq seq event cid uid generation = some buf ∧ _ :=
    encode_alone ..
  refine ⟨buf, henc, ?_⟩
  have hlen := length_encoded hdata
  obtain ⟨hread, hrest⟩ := readUint8_put (hdata ▸ drop_start)
  obtain ⟨hcid, hrest⟩ := readInt64_put hrest
  by_cases huid : uid = 0
  · simp only [decodeTriggerReq, hlen, seek_six, readSeq_start hdata, hread, hcid, lift_ok, bind,
      Except.bind, heve, huid]
    rfl
  rw [if_neg huid] at hlen hrest
  obtain ⟨hread', hrest⟩ := readInt64_put hrest
  obtain ⟨hgen, -⟩ := readUint64_put hrest
  simp only [decodeTriggerReq, hlen, seek_six, readSeq_start hdata, hread, hcid, hread',
    hgen, lift_ok, bind, Except.bind, heve, if_neg huid]
  rfl

section

variable (hkind : kind = .conn ∨ kind = .user) (force : Bool)

include hkind force

theorem readDisconnect_start {size : ℕ} {fields : List Put}
    (hdata : data = start size dataBit routeDisconnect seq ++ (allBytes
      (.uint8s [kindByte kind] :: .int64s [target] :: .bools [force] :: fields) ++ [])) :
    readDisconnect data = .ok (⟨seq, kind, target, force, noToken⟩, ⟨data, 24⟩) ∧
      data.drop 24 = allBytes fields ++ [] := by
  obtain ⟨hread, hrest⟩ := readUint8_put (hdata ▸ drop_start)
  obtain ⟨htar, hrest⟩ := readInt64_put hrest
  obtain ⟨hfor, hrest⟩ := readBool_put hrest
  refine ⟨?_, hrest⟩
  simp only [readDisconnect, seek_six, readSeq_start hdata, hread, htar, hfor, lift_ok, bind,
    Except.bind, kindOfByte_kindByte hkind]
  rfl

theorem disconnect_round_trip : ∃ buf, encodeDisconnectReq seq kind target force = some buf ∧
      decodeDisconnectReqWithToken buf.bytes = .ok ⟨seq, kind, target, force, noToken⟩ := by
  obtain ⟨buf, henc, hdata⟩ : ∃ buf, encodeDisconnectReq seq kind target force = some buf ∧ _ :=
    encode_alone ..
  have hlen : buf.bytes.length = disconnectReqBytes := length_encoded hdata
  refine ⟨buf, henc, ?_⟩
  rw [decodeDisconnectReqWithToken, if_pos hlen, decodeDisconnectReq, reject_neg (not_not.mpr hlen)]
  simp only [(readDisconnect_start hkind force hdata).1]
  rfl

theorem disconnectCurrent_round_trip (token : SessionToken) : ∃ buf,
    encodeDisconnectCurrentReq seq kind target force token = some buf ∧
      decodeDisconnectReqWithToken buf.bytes = .ok ⟨seq, kind, target, force, token⟩ := by
  obtain ⟨buf, henc, hdata⟩ :
    ∃ buf, encodeDisconnectCurrentReq seq kind target force token = some buf ∧ _ := encode_alone ..
  have hlen : buf.bytes.length = disconnectCurrentReqBytes := length_encoded hdata
  have hlong : ¬ buf.bytes.length = disconnectReqBytes := by
    rw [hlen]
    decide
  obtain ⟨hsha, hrest⟩ := readDisconnect_start hkind force hdata
  obtain ⟨huid, hrest⟩ := readInt64_put hrest
  obtain ⟨hgen, -⟩ := readUint64_put hrest
  refine ⟨buf, henc, ?_⟩
  rw [decodeDisconnectReqWithToken, if_neg hlong, reject_neg (not_not.mpr hlen)]
  simp only [hsha, huid, hgen, lift_ok, bind, Except.bind]
  rfl

end

/-- The requests that carry a session token come back as they were sent: a push and a trigger with
their token, a disconnect request without one as such and a fenced one with the token it was given.
Only the event of a trigger is cut to the byte it is sent as. -/
theorem token_requests_round_trip (seq : UInt64) (kind : Kind)
    (hkind : kind = .conn ∨ kind = .user) (target : Int64) (flag : Bool) (token : SessionToken) :
    (∀ message, ∃ buf, encodePushReq seq kind target flag token message = some buf ∧
      decodePushReq buf.bytes = .ok ⟨seq, kind, target, flag, token, message.bytes⟩) ∧
    (∀ event cid uid generation, ∃ buf,
      encodeTriggerReq seq event cid uid generation = some buf ∧ decodeTriggerReq buf.bytes =
        .ok ⟨seq, event % 256, cid, uid, if uid = 0 then 0 else generation⟩) ∧
    (∃ buf, encodeDisconnectReq seq kind target flag = some buf ∧
      decodeDisconnectReqWithToken buf.bytes = .ok ⟨seq, kind, target, flag, noToken⟩) ∧
    ∃ buf, encodeDisconnectCurrentReq seq kind target flag token = some buf ∧
      decodeDisconnectReqWithToken buf.bytes = .ok ⟨seq, kind, target, flag, token⟩ :=
  ⟨push_round_trip hkind flag token, trigger_round_trip, disconnect_round_trip hkind flag,
    disconnectCurrent_round_trip hkind flag token⟩

theorem trigger_event_cut : ∃ buf, encodeTriggerReq 1 300 7 0 0 = some buf ∧
    decodeTriggerReq buf.bytes = .ok ⟨1, 44, 7, 0, 0⟩ :=
  trigger_round_trip 300 7 0 0

theorem user_requests_round_trip : ∃ buf,
    encodeDisconnectCurrentReq 9 .user 3003 true ⟨3003, 77⟩ = some buf ∧
      decodeDisconnectReqWithToken buf.bytes = .ok ⟨9, .user, 3003, true, ⟨3003, 77⟩⟩ :=
  (token_requests_round_trip 9 .user (.inr rfl) 3003 true ⟨3003, 77⟩).2.2.2

end Tokens

end DueServer.Protocol
