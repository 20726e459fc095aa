import DueServer.BufferModel

/-! Reading one length-prefixed frame from a stream. `ReadMessage` and `ReaderBuffer` of the
transport protocol and `ReadMessage` and `ReadBuffer` of the client packer are the same two
functions, up to the byte order and what they make of a zero size. -/
namespace DueServer.Framing

open Buffer
open Lib (Stream StreamErr ByteOrder)
open List

/-- How reading a frame fails; `outOfRange` is the run-time panic of an index or a slice
expression. -/
inductive FrameErr where
  | stream (e : StreamErr)
  | invalidMessage
  | outOfRange
deriving DecidableEq

-- `defaultSizeBytes` of both packages
def sizeBytes : ℕ := 4

def readFull (n : ℕ) (s : Stream) : Except FrameErr (List UInt8 × Stream) :=
  (s.readFull n).mapError .stream

def readFrame (order : ByteOrder) (s : Stream) :
    Except FrameErr (Option (List UInt8) × Stream) := do
  let (buf, s) ← readFull sizeBytes s
  let size := UInt32.ofNat (order.nat buf)
  if size = 0 then return (none, s)
  -- the length of `data` is a sum of type uint32
  let n := (4 + size).toNat
  -- data[:defaultSizeBytes]
  if n < sizeBytes then throw .outOfRange
  let (body, s) ← readFull (n - sizeBytes) s
  return (some (buf ++ body), s)

def readFrameBuffer (pool : BytesPool) (order : ByteOrder) (s : Stream) :
    Except FrameErr (Option Bytes × Stream) := do
  let (buf1, s) ← readFull sizeBytes s
  let size := UInt32.ofNat (order.nat buf1)
  if size = 0 then return (none, s)
  match pool.mallocBytes (4 + size).toNat with
  | none => throw .outOfRange
  | some buf2 =>
    -- buf2.Bytes() and data[:defaultSizeBytes] need the capacity, data[defaultSizeBytes:] the
    -- length
    if buf2.buf.length < buf2.off ∨ buf2.buf.length < sizeBytes ∨ buf2.off < sizeBytes then
      throw .outOfRange
    let (body, s) ← readFull (buf2.off - sizeBytes) s
    return (some ⟨Lib.overwrite (Lib.overwrite buf2.buf 0 buf1) sizeBytes body, buf2.off⟩, s)

def prefixOf (order : ByteOrder) (s : Stream) : ℕ := order.nat (s.bytes.take sizeBytes)

def splitFrame (order : ByteOrder) (s : Stream) : Except FrameErr (Option (List UInt8) × Stream) :=
  if s.bytes.length < sizeBytes then .error (.stream s.endErr)
  else if prefixOf order s = 0 then .ok (none, ⟨s.bytes.drop sizeBytes, s.fin⟩)
  else if 2 ^ 32 - 4 ≤ prefixOf order s then .error .outOfRange
  else if s.bytes.length < prefixOf order s + sizeBytes then
    .error (.stream (Stream.endErr ⟨s.bytes.drop sizeBytes, s.fin⟩))
  else .ok (some (s.bytes.take (prefixOf order s + sizeBytes)),
    ⟨s.bytes.drop (prefixOf order s + sizeBytes), s.fin⟩)

section Refinement

variable (pool : BytesPool) (order : ByteOrder) (s : Stream)

theorem readFull_eq (n : ℕ) : readFull n s =
    if n ≤ s.bytes.length then .ok (s.bytes.take n, ⟨s.bytes.drop n, s.fin⟩)
    else .error (.stream s.endErr) := by
  unfold readFull Stream.readFull
  split
  · rfl
  · rfl

theorem prefixOf_lt : prefixOf order s < 2 ^ 32 := by
  have hlt := order.nat_lt (s.bytes.take sizeBytes)
  have hlen : (s.bytes.take sizeBytes).length ≤ 4 := length_take_le ..
  calc prefixOf order s < 256 ^ (s.bytes.take sizeBytes).length := hlt
    _ ≤ 256 ^ 4 := Nat.pow_le_pow_right (by decide) hlen
    _ = 2 ^ 32 := by decide

theorem size_toNat : (UInt32.ofNat (order.nat (s.bytes.take sizeBytes))).toNat =
    prefixOf order s := by
  exact Nat.mod_eq_of_lt (prefixOf_lt order s)

theorem size_eq_zero_iff :
    UInt32.ofNat (order.nat (s.bytes.take sizeBytes)) = 0 ↔ prefixOf order s = 0 := by
  rw [← UInt32.toNat_inj, size_toNat]
  exact Iff.rfl

theorem sum_toNat : (4 + UInt32.ofNat (order.nat (s.bytes.take sizeBytes))).toNat =
    (4 + prefixOf order s) % 2 ^ 32 := by
  rw [UInt32.toNat_add, size_toNat]
  rfl

theorem take_frame (n : ℕ) : s.bytes.take (n + sizeBytes) =
    s.bytes.take sizeBytes ++ (s.bytes.drop sizeBytes).take n := by
  rw [Nat.add_comm, take_add]

theorem readFrame_eq : readFrame order s = splitFrame order s := by
  have hlt := prefixOf_lt order s
  have h4 : sizeBytes = 4 := rfl
  unfold readFrame splitFrame
  rw [readFull_eq]
  by_cases hsh : s.bytes.length < sizeBytes
  · rw [if_neg (by omega), if_pos hsh]
    rfl
  rw [if_pos (by omega), if_neg hsh]
  by_cases hzero : prefixOf order s = 0
  · simp only [bind, Except.bind, if_pos ((size_eq_zero_iff order s).mpr hzero), if_pos hzero]
    rfl
  simp only [bind, Except.bind, if_neg (mt (size_eq_zero_iff order s).mp hzero), if_neg hzero,
    sum_toNat]
  by_cases hhuge : 2 ^ 32 - 4 ≤ prefixOf order s
  · rw [if_pos (by omega), if_pos hhuge]
    rfl
  have hn : (4 + prefixOf order s) % 2 ^ 32 = prefixOf order s + sizeBytes := by omega
  rw [if_neg (by omega), if_neg hhuge, hn, readFull_eq]
  by_cases htru : s.bytes.length < prefixOf order s + sizeBytes
  · rw [if_neg (by rw [length_drop]; omega), if_pos htru]
  rw [if_pos (by rw [length_drop]; omega), if_neg htru, take_frame, drop_drop,
    Nat.add_comm sizeBytes]
  rfl

theorem readFrameBuffer_eq :
    (readFrameBuffer pool order s).map (fun p => (p.1.map Bytes.bytes, p.2)) =
      splitFrame order s := by
  have hlt := prefixOf_lt order s
  have h4 : sizeBytes = 4 := rfl
  unfold readFrameBuffer splitFrame
  rw [readFull_eq]
  by_cases hsh : s.bytes.length < sizeBytes
  · rw [if_neg (by omega), if_pos hsh]
    rfl
  rw [if_pos (by omega), if_neg hsh]
  by_cases hzero : prefixOf order s = 0
  · simp only [bind, Except.bind, if_pos ((size_eq_zero_iff order s).mpr hzero), if_pos hzero]
    rfl
  simp only [bind, Except.bind, if_neg (mt (size_eq_zero_iff order s).mp hzero), if_neg hzero,
    sum_toNat]
  by_cases hhuge : 2 ^ 32 - 4 ≤ prefixOf order s
  · -- no pool has a block for an empty slice, and a shorter one than four bytes cannot be cut
    rw [if_pos hhuge]
    by_cases hn : (4 + prefixOf order s) % 2 ^ 32 = 0
    · rw [hn]
      rfl
    simp only [BytesPool.mallocBytes, if_neg hn]
    rw [if_pos (.inr (.inr (by omega)))]
    rfl
  have hn : (4 + prefixOf order s) % 2 ^ 32 = prefixOf order s + sizeBytes := by omega
  have hcap : prefixOf order s + sizeBytes ≠ 0 := by omega
  obtain ⟨b, hb, hoff, hroom⟩ := pool.mallocBytes_ok hcap (by omega)
  have hran : ¬ (b.buf.length < prefixOf order s + sizeBytes ∨ b.buf.length < sizeBytes ∨
      prefixOf order s + sizeBytes < sizeBytes) := by omega
  simp only [hn, hb, hoff, if_neg hran, if_neg hhuge]
  rw [readFull_eq]
  by_cases htru : s.bytes.length < prefixOf order s + sizeBytes
  · rw [if_neg (by rw [length_drop]; omega), if_pos htru]
    rfl
  have hhead : (s.bytes.take sizeBytes).length = sizeBytes := by
    rw [length_take]
    omega
  have hbody : ((s.bytes.drop sizeBytes).take (prefixOf order s)).length = prefixOf order s := by
    rw [length_take, length_drop]
    omega
  have hmem := Lib.take_overwrite_overwrite b.buf (s.bytes.take sizeBytes)
    ((s.bytes.drop sizeBytes).take (prefixOf order s)) (by omega)
  rw [hhead, hbody, Nat.add_comm, ← take_frame] at hmem
  rw [if_pos (by rw [length_drop]; omega), if_neg htru, drop_drop,
    Nat.add_comm sizeBytes]
  simp [Except.map, pure, Except.pure, Bytes.bytes, hmem]

end Refinement

section Split

variable {order : ByteOrder} {s t : Stream} {data rest : List UInt8} {fin : StreamErr}

theorem splitFrame_eq_some (h : splitFrame order s = .ok (some data, t)) :
    s.bytes = data ++ t.bytes ∧ t.fin = s.fin ∧
      data.length = order.nat (data.take sizeBytes) + sizeBytes ∧
      sizeBytes < data.length ∧ data.length < 2 ^ 32 := by
  unfold splitFrame at h
  split at h
  · cases h
  split at h
  · cases h
  split at h
  · cases h
  split at h
  · cases h
  rename_i _ hzero hhuge hwho
  cases h
  have h4 : sizeBytes = 4 := rfl
  have htake : (s.bytes.take (prefixOf order s + sizeBytes)).take sizeBytes =
      s.bytes.take sizeBytes := by
    rw [take_take, Nat.min_eq_left (Nat.le_add_left ..)]
  refine ⟨(take_append_drop ..).symm, rfl, ?_⟩
  rw [htake, length_take_of_le (Nat.not_lt.mp hwho)]
  refine ⟨rfl, ?_, ?_⟩
  · omega
  · omega

theorem splitFrame_append (hsize : data.length = order.nat (data.take sizeBytes) + sizeBytes)
    (hpos : sizeBytes < data.length) (hlt : data.length < 2 ^ 32) :
    splitFrame order ⟨data ++ rest, fin⟩ = .ok (some data, ⟨rest, fin⟩) := by
  have h4 : sizeBytes = 4 := rfl
  have hpre : prefixOf order ⟨data ++ rest, fin⟩ = order.nat (data.take sizeBytes) := by
    rw [prefixOf, take_append_of_le_length (by omega)]
  have hlen : (data ++ rest).length = data.length + rest.length := length_append
  rw [splitFrame, hpre, hlen, if_neg (by omega), if_neg (by omega), if_neg (by omega),
    if_neg (by omega), ← hsize, take_left, drop_left]

end Split

end DueServer.Framing
