import DueServer.PacketModel

/-! What `UnpackMessage` and `CheckHeartbeat` accept, the way from `PackMessage` to `UnpackMessage`
and back, and the frames that both take for their own. -/
namespace DueServer.Packet

open Buffer Framing Reader
open Lib (ByteOrder Stream StreamErr)
open List

namespace Packer

variable {p : Packer} {m : Message} {data : List UInt8}

section Unpack

theorem read_ok {i k : ℕ} (h : i + k ≤ data.length) :
    read k ⟨data.drop i, .eof⟩ = .ok (bytesAt data i k, ⟨data.drop (i + k), .eof⟩) := by
  have hlen : k ≤ (data.drop i).length := by
    rw [length_drop]
    omega
  simp only [read, Stream.readFull, if_pos hlen, drop_drop]
  rfl

def Sized (p : Packer) (data : List UInt8) : Prop :=
  data.length - defaultSizeBytes = p.byteOrder.nat (data.take 4)

instance (p : Packer) (data : List UInt8) : Decidable (p.Sized data) := by
  unfold Sized
  infer_instance

def unpacked (p : Packer) (data : List UInt8) : Message where
  seq := decodeField p.byteOrder p.seqBytes (Reader.bytesAt data (5 + p.routeBytes) p.seqBytes)
  route := decodeField p.byteOrder p.routeBytes (Reader.bytesAt data 5 p.routeBytes)
  buffer := data.drop p.headBytes

theorem headBytes_eq (p : Packer) : p.headBytes = 5 + p.routeBytes + p.seqBytes := rfl

theorem unpackMessage_eq (p : Packer) (data : List UInt8) : p.unpackMessage data =
    if p.headBytes ≤ data.length ∧ p.Sized data then .ok (p.unpacked data)
    else .error .invalidMessage := by
  have hhead := p.headBytes_eq
  by_cases hlen : p.headBytes ≤ data.length
  swap
  · rw [unpackMessage, failIf_pos (Nat.lt_of_not_le hlen), if_neg fun h => hlen h.1]
    rfl
  have hsize : read 4 ⟨data, .eof⟩ = .ok (data.take 4, ⟨data.drop 4, .eof⟩) :=
    read_ok (i := 0) (by omega)
  simp only [unpackMessage, failIf_neg (Nat.not_lt_of_le hlen), hsize, bind, Except.bind]
  by_cases hsiz : p.Sized data
  swap
  · have hne : data.length - defaultSizeBytes ≠ p.byteOrder.nat (data.take 4) := hsiz
    rw [failIf_pos hne, if_neg fun h => hsiz h.2]
  have hsame : ¬ data.length - defaultSizeBytes ≠ p.byteOrder.nat (data.take 4) := not_not.mpr hsiz
  have hzero : ¬ UInt8.ofNat (p.byteOrder.nat (bytesAt data 4 1)) &&& dataBit ≠ dataBit := by
    rw [not_not, dataBit, UInt8.and_zero]
  rw [failIf_neg hsame, read_ok (by omega)]
  simp only [failIf_neg hzero]
  rw [read_ok (by omega)]
  simp only
  rw [read_ok (by omega), if_pos ⟨hlen, hsiz⟩]
  rfl

def headerOf (data : List UInt8) : UInt8 := data.getD 4 0

theorem drop_header (h : 5 ≤ data.length) : data.drop 4 = [headerOf data] ++ data.drop 5 := by
  have hcons := drop_eq_getElem_cons (show 4 < data.length by omega)
  rw [hcons, headerOf, getD_eq_getElem?_getD, getElem?_eq_getElem]
  rfl

theorem header_eq (order : ByteOrder) (h : 5 ≤ data.length) :
    UInt8.ofNat (order.nat (bytesAt data 4 1)) = headerOf data := by
  have hget : bytesAt data 4 1 = [headerOf data] := by
    rw [bytesAt, drop_header h]
    rfl
  rw [hget]
  cases order with
  | big | little => simp [ByteOrder.nat, Lib.natBE]

theorem checkHeartbeat_eq (p : Packer) (data : List UInt8) : p.checkHeartbeat data =
    if 5 ≤ data.length ∧ p.Sized data then .ok (headerOf data &&& heartbeatBit == heartbeatBit)
    else .error .invalidMessage := by
  by_cases hlen : 5 ≤ data.length
  swap
  · have hsh : data.length < defaultSizeBytes + defaultHeaderBytes := Nat.lt_of_not_le hlen
    rw [checkHeartbeat, failIf_pos hsh, if_neg fun h => hlen h.1]
    rfl
  have hsize : read 4 ⟨data, .eof⟩ = .ok (data.take 4, ⟨data.drop 4, .eof⟩) :=
    read_ok (i := 0) (by omega)
  have hsh : ¬ data.length < defaultSizeBytes + defaultHeaderBytes := Nat.not_lt_of_le hlen
  simp only [checkHeartbeat, failIf_neg hsh, hsize, bind, Except.bind]
  by_cases hsiz : p.Sized data
  · have hsame : ¬ data.length - defaultSizeBytes ≠ p.byteOrder.nat (data.take 4) :=
      not_not.mpr hsiz
    rw [failIf_neg hsame, read_ok (by omega), if_pos ⟨hlen, hsiz⟩]
    simp only [header_eq p.byteOrder hlen]
    rfl
  · have hne : data.length - defaultSizeBytes ≠ p.byteOrder.nat (data.take 4) := hsiz
    rw [failIf_pos hne, if_neg fun h => hsiz h.2]

end Unpack

section RoundTrip

def assemble (p : Packer) (size : ℕ) (header : UInt8) (route seq payload : List UInt8) :
    List UInt8 :=
  p.byteOrder.put 4 size ++ ([header] ++ (route ++ (seq ++ payload)))

variable {size : ℕ} {header : UInt8} {route seq payload : List UInt8}

theorem take_assemble : (p.assemble size header route seq payload).take 4 =
    p.byteOrder.put 4 size := take_left' (p.byteOrder.length_put ..)

theorem drop_assemble : (p.assemble size header route seq payload).drop 4 =
    [header] ++ (route ++ (seq ++ payload)) := drop_left' (p.byteOrder.length_put ..)

theorem headerOf_assemble : headerOf (p.assemble size header route seq payload) = header := by
  have hget : (p.assemble size header route seq payload)[4]? =
      ((p.assemble size header route seq payload).drop 4)[0]? := by
    rw [getElem?_drop]
  rw [headerOf, getD_eq_getElem?_getD, hget, drop_assemble]
  rfl

theorem length_assemble (hr : route.length = p.routeBytes) (hs : seq.length = p.seqBytes) :
    (p.assemble size header route seq payload).length = p.headBytes + payload.length := by
  rw [assemble, length_append, length_append, length_append, length_append,
    ByteOrder.length_put, p.headBytes_eq, length_singleton]
  omega

theorem unpacked_assemble (hr : route.length = p.routeBytes) (hs : seq.length = p.seqBytes) :
    p.unpacked (p.assemble size header route seq payload) =
      ⟨decodeField p.byteOrder p.seqBytes seq, decodeField p.byteOrder p.routeBytes route,
        payload⟩ := by
  have h5 : (p.assemble size header route seq payload).drop 5 = route ++ (seq ++ payload) := by
    have hdrop : ((p.assemble size header route seq payload).drop 4).drop 1 =
        ([header] ++ (route ++ (seq ++ payload))).drop 1 := congrArg (drop 1) drop_assemble
    rw [drop_drop] at hdrop
    exact hdrop
  have hrt : (p.assemble size header route seq payload).drop (5 + p.routeBytes) =
      seq ++ payload := by
    rw [← drop_drop, h5, ← hr, drop_left]
  have hseq : (p.assemble size header route seq payload).drop (5 + p.routeBytes + p.seqBytes) =
      payload := by
    rw [← drop_drop, hrt, ← hs, drop_left]
  rw [unpacked, bytesAt, bytesAt, p.headBytes_eq, h5, hrt, hseq, ← hr,
    take_left, ← hs, take_left]

theorem eq_assemble (hlen : p.headBytes ≤ data.length) (hsiz : p.Sized data) :
    data = p.assemble (data.length - 4) (headerOf data) (bytesAt data 5 p.routeBytes)
      (bytesAt data (5 + p.routeBytes) p.seqBytes) (data.drop p.headBytes) := by
  have hhead := p.headBytes_eq
  have htake : (data.take 4).length = 4 := length_take_of_le (by omega)
  have hput : p.byteOrder.put 4 (data.length - 4) = data.take 4 := by
    have hback := p.byteOrder.put_nat (data.take 4)
    have hsame : data.length - 4 = p.byteOrder.nat (data.take 4) := hsiz
    rw [htake, ← hsame] at hback
    exact hback
  have hhdr : data.drop 4 = [headerOf data] ++ data.drop 5 := drop_header (by omega)
  have hrt := bytesAt_append_drop data 5 p.routeBytes
  have hseq := bytesAt_append_drop data (5 + p.routeBytes) p.seqBytes
  calc data = data.take 4 ++ data.drop 4 := (take_append_drop ..).symm
    _ = data.take 4 ++ ([headerOf data] ++ data.drop 5) := by rw [← hhdr]
    _ = _ := by rw [assemble, hput, hhead, hseq, hrt]

theorem packet_eq_assemble : p.packet m = p.assemble (p.sizeOf m) dataBit
    (encodeField p.byteOrder p.routeBytes m.route) (encodeField p.byteOrder p.seqBytes m.seq)
    m.buffer := rfl

theorem length_packet : (p.packet m).length = p.sizeOf m + 4 := by
  rw [packet_eq_assemble, length_assemble (length_encodeField (.inr p.routeBytes_ok))
    (length_encodeField p.seqBytes_ok), headBytes, sizeOf, defaultSizeBytes]
  omega

theorem headBytes_le_packet : p.headBytes ≤ (p.packet m).length := by
  rw [packet_eq_assemble, length_assemble (length_encodeField (.inr p.routeBytes_ok))
    (length_encodeField p.seqBytes_ok)]
  exact Nat.le_add_right ..

theorem nat_take_packet : p.byteOrder.nat ((p.packet m).take 4) = p.sizeOf m % 2 ^ 32 := by
  rw [packet_eq_assemble, take_assemble]
  exact p.byteOrder.nat_put 4 _

def keptSeq (p : Packer) (m : Message) : Int32 := if p.seqBytes = 0 then 0 else m.seq

theorem unpacked_packet (h : p.Accepts m) :
    p.unpacked (p.packet m) = ⟨p.keptSeq m, m.route, m.buffer⟩ := by
  rw [packet_eq_assemble, unpacked_assemble (length_encodeField (.inr p.routeBytes_ok))
    (length_encodeField p.seqBytes_ok), decodeField_encodeField p.routeBytes_ok h.route]
  have hseq : decodeField p.byteOrder p.seqBytes (encodeField p.byteOrder p.seqBytes m.seq) =
      p.keptSeq m := by
    by_cases h0 : p.seqBytes = 0
    · rw [keptSeq, h0]
      rfl
    have hfits := h.seq.resolve_left h0
    rw [keptSeq, if_neg h0, decodeField_encodeField (p.seqBytes_ok.resolve_left h0) hfits]
  rw [hseq]

theorem packMessage_eq_ok_iff : p.packMessage m = .ok data ↔ p.Accepts m ∧ p.packet m = data := by
  rw [← check_eq_ok_iff]
  cases hchk : p.check m with
  | error e =>
    rw [packMessage_of_check hchk]
    exact iff_of_false (fun h => by cases h) (fun h => by cases h.1)
  | ok u =>
    rw [packMessage_of_check hchk]
    exact ⟨fun h => ⟨rfl, Except.ok.inj h⟩, fun h => congrArg Except.ok h.2⟩

structure RoundTrips (p : Packer) (m : Message) (data : List UInt8) : Prop where
  unpack : p.unpackMessage data = .ok ⟨if p.seqBytes = 0 then 0 else m.seq, m.route, m.buffer⟩
  read : ∀ rest fin, p.readMessage ⟨data ++ rest, fin⟩ = .ok (some data, ⟨rest, fin⟩)

theorem roundTrips_iff (h : p.packMessage m = .ok data) :
    p.RoundTrips m data ↔ data.length < 2 ^ 32 := by
  obtain ⟨hacc, rfl⟩ := packMessage_eq_ok_iff.mp h
  have hlen : (p.packet m).length = p.sizeOf m + 4 := length_packet
  have hnat : p.byteOrder.nat ((p.packet m).take 4) = p.sizeOf m % 2 ^ 32 := nat_take_packet
  constructor
  · intro hback
    have hread := hback.read [] .eof
    rw [readMessage, readFrame_eq] at hread
    obtain ⟨-, -, -, -, hlt⟩ := splitFrame_eq_some hread
    exact hlt
  · intro hlt
    have hsize : p.byteOrder.nat ((p.packet m).take 4) = p.sizeOf m := by
      rw [hnat, Nat.mod_eq_of_lt (by omega)]
    have hsiz : p.Sized (p.packet m) := by
      rw [Sized, hsize, hlen]
      rfl
    refine ⟨?_, fun rest fin => ?_⟩
    · rw [unpackMessage_eq, if_pos ⟨headBytes_le_packet, hsiz⟩, unpacked_packet hacc]
      rfl
    · rw [readMessage, readFrame_eq]
      apply splitFrame_append
      · exact hlen.trans (congrArg (· + 4) hsize.symm)
      · have hpos : 0 < p.sizeOf m := by
          rw [sizeOf, defaultHeaderBytes]
          omega
        rw [sizeBytes]
        omega
      · exact hlt

theorem packMessage_unpacked_iff (h : p.unpackMessage data = .ok m)
    (hpay : m.buffer.length ≤ p.bufferBytes) :
    p.packMessage m = .ok data ↔ headerOf data = 0 := by
  rw [unpackMessage_eq] at h
  split at h
  swap
  · cases h
  rename_i hok
  obtain ⟨hlen, hsize⟩ := hok
  cases h
  have hhead := p.headBytes_eq
  have hseq : (bytesAt data (5 + p.routeBytes) p.seqBytes).length = p.seqBytes :=
    length_bytesAt (by omega)
  have hrou : (bytesAt data 5 p.routeBytes).length = p.routeBytes :=
    length_bytesAt (by omega)
  have hacc : p.Accepts (p.unpacked data) := by
    refine ⟨signedFits_decodeField p.routeBytes_ok, ?_, hpay⟩
    exact p.seqBytes_ok.imp_right fun hn => signedFits_decodeField hn
  have hsiz : p.sizeOf (p.unpacked data) = data.length - 4 := by
    rw [sizeOf, unpacked, length_drop, defaultHeaderBytes]
    omega
  have hpac : p.packet (p.unpacked data) = p.assemble (data.length - 4) dataBit
      (bytesAt data 5 p.routeBytes) (bytesAt data (5 + p.routeBytes) p.seqBytes)
      (data.drop p.headBytes) := by
    rw [packet_eq_assemble, hsiz, unpacked, encodeField_decodeField (.inr p.routeBytes_ok)
      hrou, encodeField_decodeField p.seqBytes_ok hseq]
  rw [packMessage_eq_ok_iff, and_iff_right hacc, hpac]
  constructor
  · intro hdata
    rw [← hdata, headerOf_assemble]
    rfl
  · intro hzero
    have hsp := eq_assemble hlen hsize
    rw [hzero] at hsp
    exact hsp.symm

/-- A packed message comes back, also from a stream, exactly if its packet has less than `2^32`
bytes. An unpacked frame is packed to the same bytes exactly if its header is 0: the test of the
header, with a zero mask, lets every header pass. -/
theorem packet_round_trip_iff (p : Packer) :
    (∀ m data, p.packMessage m = .ok data → (p.RoundTrips m data ↔ data.length < 2 ^ 32)) ∧
    ∀ data m, p.unpackMessage data = .ok m → m.buffer.length ≤ p.bufferBytes →
      (p.packMessage m = .ok data ↔ headerOf data = 0) :=
  ⟨fun _ _ h => roundTrips_iff h, fun _ _ h hpay => packMessage_unpacked_iff h hpay⟩

theorem packet_round_trip_default :
    defaultPacker.RoundTrips ⟨-3, 7, [1]⟩ [0, 0, 0, 6, 0, 0, 7, 255, 253, 1] ∧
      defaultPacker.packMessage ⟨-3, 7, [1]⟩ = .ok [0, 0, 0, 6, 0, 0, 7, 255, 253, 1] :=
  ⟨((packet_round_trip_iff defaultPacker).1 _ _ (by decide)).mpr (by decide),
    ((packet_round_trip_iff defaultPacker).2 _ _ (by decide) (by decide)).mpr (by decide)⟩

/-- The size field 2^32-4, with the four bytes of the field itself, is 0 in `uint32`. -/
theorem readMessage_huge (h : p.sizeOf m = 2 ^ 32 - 4) :
    p.readMessage ⟨p.packet m, .eof⟩ = .error .outOfRange := by
  have hlen : ¬ (p.packet m).length < sizeBytes := by
    rw [length_packet, sizeBytes]
    omega
  have hpre : prefixOf p.byteOrder ⟨p.packet m, .eof⟩ = 2 ^ 32 - 4 := by
    rw [prefixOf, sizeBytes, nat_take_packet, h, Nat.mod_eq_of_lt (by omega)]
  rw [readMessage, readFrame_eq, splitFrame, if_neg hlen, hpre, if_neg (by omega),
    if_pos le_rfl]

/-- A frame with the header 1, which no packer writes, is unpacked. A packet of `2^32` bytes is
packed, and reading it panics. -/
theorem foreign_header_and_huge_packet :
    (defaultPacker.unpackMessage [0, 0, 0, 5, 1, 0, 7, 0, 3] = .ok ⟨3, 7, []⟩ ∧
      defaultPacker.packMessage ⟨3, 7, []⟩ = .ok [0, 0, 0, 5, 0, 0, 7, 0, 3]) ∧
    ∃ (p : Packer) (m : Message) (data : List UInt8), p.packMessage m = .ok data ∧
      p.readMessage ⟨data, .eof⟩ = .error .outOfRange := by
  refine ⟨by decide, ?_⟩
  -- only the length of the payload matters, so that its bytes are never computed
  obtain ⟨buffer, hbuf⟩ : ∃ buffer : List UInt8, buffer.length = 2 ^ 32 - 6 :=
    ⟨replicate (2 ^ 32 - 6) 0, length_replicate⟩
  let p : Packer := ⟨.big, 1, 0, 2 ^ 32, false, .inl rfl, .inl rfl⟩
  have hacc : p.Accepts ⟨0, 0, buffer⟩ := by
    have hrt : SignedFits 1 0 := by decide
    refine ⟨hrt, .inl rfl, ?_⟩
    show buffer.length ≤ 2 ^ 32
    omega
  have hsize : p.sizeOf ⟨0, 0, buffer⟩ = 2 ^ 32 - 4 := by
    show 1 + 1 + 0 + buffer.length = 2 ^ 32 - 4
    omega
  exact ⟨p, ⟨0, 0, buffer⟩, _, packMessage_eq_ok_iff.mpr ⟨hacc, rfl⟩, readMessage_huge hsize⟩

end RoundTrip

section Heartbeat

theorem headerOf_and_iff (header : UInt8) :
    (header &&& heartbeatBit == heartbeatBit) = true ↔ 128 ≤ header := by
  have hall : ∀ n < 256, (UInt8.ofNat n &&& heartbeatBit == heartbeatBit) = true ↔
      128 ≤ UInt8.ofNat n := by
    decide +kernel
  have hhdr := hall header.toNat header.toNat_lt
  rwa [UInt8.ofNat_toNat] at hhdr

structure Disjoint (p : Packer) (data : List UInt8) : Prop where
  message : ∀ m, p.unpackMessage data = .ok m → p.checkHeartbeat data = .ok false
  heartbeat : p.checkHeartbeat data = .ok true → ∃ e, p.unpackMessage data = .error e

theorem disjoint_iff : p.Disjoint data ↔
    ¬ (p.headBytes ≤ data.length ∧ p.Sized data ∧ 128 ≤ headerOf data) := by
  have hhead := p.headBytes_eq
  constructor
  · rintro hdisj ⟨hlen, hsiz, hhdr⟩
    have hunp := p.unpackMessage_eq data
    have hchk := p.checkHeartbeat_eq data
    rw [if_pos ⟨hlen, hsiz⟩] at hunp
    rw [if_pos ⟨by omega, hsiz⟩, (headerOf_and_iff _).mpr hhdr] at hchk
    have hfal := hdisj.message _ hunp
    rw [hchk] at hfal
    cases hfal
  · intro hnot
    refine ⟨fun m hunp => ?_, fun hchk => ?_⟩
    · rw [unpackMessage_eq] at hunp
      split at hunp
      swap
      · cases hunp
      rename_i hok
      have hbit : (headerOf data &&& heartbeatBit == heartbeatBit) = false := by
        rw [← Bool.not_eq_true, headerOf_and_iff]
        exact fun hhdr => hnot ⟨hok.1, hok.2, hhdr⟩
      rw [checkHeartbeat_eq, if_pos ⟨by omega, hok.2⟩, hbit]
    · rw [checkHeartbeat_eq] at hchk
      split at hchk
      swap
      · cases hchk
      have hhdr := (headerOf_and_iff _).mp (Except.ok.inj hchk)
      refine ⟨.invalidMessage, ?_⟩
      rw [unpackMessage_eq, if_neg]
      exact fun h => hnot ⟨h.1, h.2, hhdr⟩

theorem unpackMessage_timed (h : p.heartbeatTime = true) (now : Int64) :
    p.unpackMessage (p.packHeartbeat now) = .ok (p.unpacked (p.packHeartbeat now)) := by
  have hrt := p.routeBytes_ok
  have hseq := p.seqBytes_ok
  have hhead := p.headBytes_eq
  have hbs : p.packHeartbeat now = p.byteOrder.put 4 9 ++ ([heartbeatBit] ++
      p.byteOrder.put 8 now.toUInt64.toNat) := if_pos h
  have hlen : (p.packHeartbeat now).length = 13 := by
    rw [hbs, length_append, length_append, ByteOrder.length_put, ByteOrder.length_put,
      length_singleton]
  have hsiz : p.Sized (p.packHeartbeat now) := by
    rw [Sized, hlen, hbs, take_left' (p.byteOrder.length_put ..), ByteOrder.nat_put]
    rfl
  rw [unpackMessage_eq, if_pos ⟨by omega, hsiz⟩]

theorem unpackMessage_untimed (h : p.heartbeatTime = false) (now : Int64) :
    p.unpackMessage (p.packHeartbeat now) = .error .invalidMessage := by
  have hrt := p.routeBytes_ok
  have hhead := p.headBytes_eq
  have hlen : (p.packHeartbeat now).length = 5 := by
    rw [packHeartbeat, h]
    exact (length_append ..).trans (congrArg (· + 1) (p.byteOrder.length_put ..))
  rw [unpackMessage_eq, if_neg]
  omega

/-- The frames taken for both are the well-sized ones with the top bit of the header set that are
as long as the head of a message; among them is every timed heartbeat. -/
theorem message_heartbeat_disjoint_iff (p : Packer) : (∀ data, p.Disjoint data ↔
      ¬ (p.headBytes ≤ data.length ∧ p.Sized data ∧ 128 ≤ headerOf data)) ∧
    ∀ now, (∃ e, p.unpackMessage (p.packHeartbeat now) = .error e) ↔ p.heartbeatTime = false := by
  refine ⟨fun data => disjoint_iff, fun now => ?_⟩
  cases htime : p.heartbeatTime with
  | false => exact iff_of_true ⟨_, unpackMessage_untimed htime now⟩ rfl
  | true =>
    refine iff_of_false ?_ Bool.noConfusion
    rintro ⟨e, he⟩
    rw [unpackMessage_timed htime now] at he
    cases he

/-- With the default widths, the timed heartbeat at time 1 is also a message to the route 0. -/
theorem timed_heartbeat_unpacked : ∃ p : Packer, p.heartbeatTime = true ∧
    p.checkHeartbeat (p.packHeartbeat 1) = .ok true ∧
    p.unpackMessage (p.packHeartbeat 1) = .ok ⟨0, 0, [0, 0, 0, 1]⟩ := by
  refine ⟨{ defaultPacker with heartbeatTime := true }, rfl, ?_, ?_⟩
  · decide
  · decide

end Heartbeat

end Packer

end DueServer.Packet
