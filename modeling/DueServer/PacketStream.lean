import DueServer.PacketRoundTrip

/-! `ReadMessage` and `ReadBuffer` on the stream of a client: the first frame is split off by its
size field, and a concatenation of packets and heartbeats is split into them. -/
namespace DueServer.Packet

open Buffer Framing Lib

namespace Packer

variable {p : Packer} {s : Stream} {data : List UInt8}

def Splits (p : Packer) (s : Stream) (r : Except FrameErr (Option (List UInt8) × Stream)) : Prop :=
  Safe .outOfRange r fun x =>
    match x.1 with
    | none => prefixOf p.byteOrder s = 0 ∧ x.2 = ⟨s.bytes.drop sizeBytes, s.fin⟩
    | some data => s.bytes = data ++ x.2.bytes ∧ x.2.fin = s.fin ∧
        data.length = prefixOf p.byteOrder s + sizeBytes

theorem splits_readMessage_iff (p : Packer) (s : Stream) : p.Splits s (p.readMessage s) ↔
      (sizeBytes ≤ s.bytes.length → prefixOf p.byteOrder s < 2 ^ 32 - 4) := by
  rw [readMessage, readFrame_eq, splitFrame]
  by_cases hsh : s.bytes.length < sizeBytes
  · rw [if_pos hsh]
    exact iff_of_true FrameErr.noConfusion fun h => absurd h (Nat.not_le_of_lt hsh)
  rw [if_neg hsh, imp_iff_right (Nat.le_of_not_lt hsh)]
  by_cases hzero : prefixOf p.byteOrder s = 0
  · rw [if_pos hzero]
    exact iff_of_true ⟨hzero, rfl⟩ (by omega)
  rw [if_neg hzero]
  by_cases hhuge : 2 ^ 32 - 4 ≤ prefixOf p.byteOrder s
  · rw [if_pos hhuge]
    exact iff_of_false (fun h => h rfl) (Nat.not_lt_of_le hhuge)
  rw [if_neg hhuge, iff_true_right (Nat.lt_of_not_le hhuge)]
  by_cases hwho : s.bytes.length < prefixOf p.byteOrder s + sizeBytes
  · rw [if_pos hwho]
    exact FrameErr.noConfusion
  rw [if_neg hwho]
  exact ⟨(List.take_append_drop ..).symm, rfl, List.length_take_of_le (Nat.le_of_not_lt hwho)⟩

theorem readBuffer_eq (p : Packer) (pool : BytesPool) (s : Stream) :
    (p.readBuffer pool s).map (fun r => (r.1.map Bytes.bytes, r.2)) = p.readMessage s := by
  rw [readBuffer, readFrameBuffer_eq, readMessage, readFrame_eq]

structure Sent (p : Packer) where
  data : List UInt8
  sent : (∃ m, p.packMessage m = .ok data) ∨ ∃ now, p.packHeartbeat now = data

theorem readMessage_heartbeat (now : Int64) (rest : List UInt8) (fin : StreamErr) :
    p.readMessage ⟨p.packHeartbeat now ++ rest, fin⟩ =
      .ok (some (p.packHeartbeat now), ⟨rest, fin⟩) := by
  have hput (size : ℕ) (tail : List UInt8) (hsize : tail.length = size) (hpos : 0 < size)
      (hlt : size < 256) : p.readMessage ⟨p.byteOrder.put 4 size ++ tail ++ rest, fin⟩ =
        .ok (some (p.byteOrder.put 4 size ++ tail), ⟨rest, fin⟩) := by
    have hlen : (p.byteOrder.put 4 size ++ tail).length = size + sizeBytes := by
      rw [List.length_append, ByteOrder.length_put, hsize, sizeBytes, Nat.add_comm]
    have hnat : p.byteOrder.nat ((p.byteOrder.put 4 size ++ tail).take sizeBytes) = size := by
      have htake : (p.byteOrder.put 4 size ++ tail).take 4 = p.byteOrder.put 4 size :=
        List.take_left' (p.byteOrder.length_put 4 size)
      rw [sizeBytes, htake, ByteOrder.nat_put]
      exact Nat.mod_eq_of_lt (hlt.trans (by decide))
    rw [readMessage, readFrame_eq]
    apply splitFrame_append
    · rw [hlen, hnat]
    · omega
    · rw [hlen, sizeBytes]
      omega
  cases htime : p.heartbeatTime with
  | false =>
    have hbs : p.packHeartbeat now = p.byteOrder.put 4 1 ++ [heartbeatBit] := by
      rw [packHeartbeat, htime]
      rfl
    rw [hbs]
    exact hput 1 _ rfl (by decide) (by decide)
  | true =>
    have hbs : p.packHeartbeat now = p.byteOrder.put 4 9 ++ ([heartbeatBit] ++
        p.byteOrder.put 8 now.toUInt64.toNat) := if_pos htime
    have htail : ([heartbeatBit] ++ p.byteOrder.put 8 now.toUInt64.toNat).length = 9 := by
      rw [List.length_append, ByteOrder.length_put, List.length_singleton]
    rw [hbs]
    exact hput 9 _ htail (by decide) (by decide)

theorem Sent.readMessage_ok (x : Sent p) (h : x.data.length < 2 ^ 32) (rest : List UInt8)
    (fin : StreamErr) :
    p.readMessage ⟨x.data ++ rest, fin⟩ = .ok (some x.data, ⟨rest, fin⟩) := by
  rcases x.sent with ⟨m, hm⟩ | ⟨now, hnow⟩
  · exact ((roundTrips_iff hm).mpr h).read rest fin
  rw [← hnow]
  exact readMessage_heartbeat now rest fin

/-- Both readers split the stream by the size field as long as the field and its own four bytes fit
32 bits, and always read the same. Frames of a client come back one by one, in order, exactly if
each is shorter than `2^32` bytes. -/
theorem client_stream_split_iff (p : Packer) : (∀ s, p.Splits s (p.readMessage s) ↔
      (sizeBytes ≤ s.bytes.length → prefixOf p.byteOrder s < 2 ^ 32 - 4)) ∧
    (∀ pool s, (p.readBuffer pool s).map (fun r => (r.1.map Bytes.bytes, r.2)) = p.readMessage s) ∧
    ∀ (xs : List (Sent p)) (rest : List UInt8) (fin : StreamErr),
      readN p.readMessage xs.length ⟨xs.flatMap Sent.data ++ rest, fin⟩ =
          .ok (xs.map fun x => some x.data, ⟨rest, fin⟩) ↔
        ∀ x ∈ xs, x.data.length < 2 ^ 32 := by
  refine ⟨p.splits_readMessage_iff, p.readBuffer_eq, fun xs rest fin => ?_⟩
  have hgood (x : Sent p) (hx : x.data.length < 2 ^ 32) := x.readMessage_ok hx
  refine readN_concat_iff xs rest fin hgood ?_
  intro x hx rest fin t hread
  rw [readMessage, readFrame_eq] at hread
  obtain ⟨-, -, -, -, hlt⟩ := splitFrame_eq_some hread
  exact hx hlt

/-- The size 2^32-1 from a client: the length of the frame is 3 in `uint32`. -/
theorem readers_panic_on_max_size :
    defaultPacker.readMessage ⟨[255, 255, 255, 255], .eof⟩ = .error .outOfRange ∧
      ∀ pool, defaultPacker.readBuffer pool ⟨[255, 255, 255, 255], .eof⟩ = .error .outOfRange := by
  have hmsg : defaultPacker.readMessage ⟨[255, 255, 255, 255], .eof⟩ = .error .outOfRange := by
    decide
  refine ⟨hmsg, fun pool => ?_⟩
  have hsame := defaultPacker.readBuffer_eq pool ⟨[255, 255, 255, 255], .eof⟩
  cases hread : defaultPacker.readBuffer pool ⟨[255, 255, 255, 255], .eof⟩ with
  | error e =>
    rw [hread] at hsame
    exact congrArg Except.error (Except.error.inj hsame)
  | ok r =>
    rw [hread] at hsame
    cases hsame

end Packer

end DueServer.Packet
