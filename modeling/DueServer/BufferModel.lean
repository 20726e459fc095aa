import Mathlib.Data.Nat.Log
import DueServer.LibBytes
import DueServer.LibReader

/-! `core/buffer`: the growing `Writer`, the pools of writers and byte blocks, the
`NocopyBuffer` that strings blocks together and the `Reader`. Where a method takes a byte order
and the model does not, the order is big endian, the only one the transport protocol uses. -/
namespace DueServer.Buffer

open Lib List

/-- `Writer`: `buf` is the whole backing array, of which the first `off` bytes are written. -/
structure Writer where
  buf : List UInt8
  off : ℕ
  off_le : off ≤ buf.length

namespace Writer

variable (w : Writer)

-- len(w.buf) and cap(w.buf) agree: every backing array comes from make([]byte, n)
def ofSize (n : ℕ) : Writer := ⟨replicate n 0, 0, Nat.zero_le _⟩

def bytes : List UInt8 := w.buf.take w.off

def growSlice (n : ℕ) : Writer :=
  let c := if w.buf.length + n < 2 * w.buf.length then 2 * w.buf.length else w.buf.length + n
  { buf := w.bytes ++ replicate (c - w.off) 0
    off := w.off
    off_le := by
      rw [length_append, bytes, length_take, Nat.min_eq_left w.off_le]
      exact Nat.le_add_right .. }

def grow (n : ℕ) : Writer := if w.off + n < w.buf.length then w else w.growSlice n

def put (bs : List UInt8) : Option Writer :=
  if h : w.off + bs.length ≤ w.buf.length then
    some ⟨overwrite w.buf w.off bs, w.off + bs.length, by rwa [length_overwrite h]⟩
  else none

def writeAll (vs : List (List UInt8)) : Option Writer :=
  vs.foldlM put (w.grow vs.flatten.length)

def writeUint8s (vs : List UInt8) : Option Writer := w.writeAll (vs.map fun v => [v])

def writeUint16s (vs : List UInt16) : Option Writer :=
  w.writeAll (vs.map fun v => bytesBE 2 v.toNat)

def writeUint32s (vs : List UInt32) : Option Writer :=
  w.writeAll (vs.map fun v => bytesBE 4 v.toNat)

def writeUint64s (vs : List UInt64) : Option Writer :=
  w.writeAll (vs.map fun v => bytesBE 8 v.toNat)

def writeInt64s (vs : List Int64) : Option Writer :=
  w.writeAll (vs.map fun v => bytesBE 8 v.toUInt64.toNat)

def writeBytes (bs : List UInt8) : Option Writer := w.writeAll [bs]

def writeBools (vs : List Bool) : Option Writer := w.writeAll (vs.map fun v => [if v then 1 else 0])

def writeInt8s (vs : List Int8) : Option Writer := w.writeAll (vs.map fun v => [v.toUInt8])

def writeInt16s (order : ByteOrder) (vs : List Int16) : Option Writer :=
  w.writeAll (vs.map fun v => order.put 2 v.toUInt16.toNat)

def writeInt32s (order : ByteOrder) (vs : List Int32) : Option Writer :=
  w.writeAll (vs.map fun v => order.put 4 v.toUInt32.toNat)

theorem length_bytes : w.bytes.length = w.off := by
  rw [bytes, length_take, Nat.min_eq_left w.off_le]

theorem grow_bytes (n : ℕ) : (w.grow n).bytes = w.bytes := by
  unfold grow
  split
  · rfl
  · exact take_left' w.length_bytes

theorem grow_room (n : ℕ) : (w.grow n).off + n ≤ (w.grow n).buf.length := by
  have hoff := w.off_le
  unfold grow
  split
  · omega
  simp only [growSlice, length_append, w.length_bytes, length_replicate]
  split <;> omega

theorem put_ok {w : Writer} {bs : List UInt8} (h : w.off + bs.length ≤ w.buf.length) :
    ∃ w', w.put bs = some w' ∧ w'.bytes = w.bytes ++ bs ∧ w'.off = w.off + bs.length ∧
      w'.buf.length = w.buf.length := by
  refine ⟨_, dif_pos h, ?_, rfl, length_overwrite h⟩
  exact take_overwrite w.off_le

theorem foldlM_put (vs : List (List UInt8)) : ∀ w : Writer,
    w.off + vs.flatten.length ≤ w.buf.length →
      ∃ w', vs.foldlM put w = some w' ∧ w'.bytes = w.bytes ++ vs.flatten := by
  induction vs with
  | nil =>
    intro w _
    exact ⟨w, rfl, (append_nil _).symm⟩
  | cons v vs ih =>
    intro w h
    rw [flatten_cons, length_append] at h
    have hroom : w.off + v.length ≤ w.buf.length := by omega
    obtain ⟨w₁, hput, hbs, hoff, hlen⟩ := put_ok hroom
    obtain ⟨w', hw', hb⟩ := ih w₁ (by omega)
    refine ⟨w', ?_, ?_⟩
    · rw [foldlM_cons, hput]
      exact hw'
    · rw [hb, hbs, flatten_cons, append_assoc]

theorem writeAll_ok (vs : List (List UInt8)) :
    ∃ w', w.writeAll vs = some w' ∧ w'.bytes = w.bytes ++ vs.flatten := by
  obtain ⟨w', hw', hb⟩ := foldlM_put vs _ (w.grow_room vs.flatten.length)
  exact ⟨w', hw', by rw [hb, grow_bytes]⟩

end Writer

-- a writer from the pool of the grade that holds `size`; the pool has 33 grades
def mallocWriter (size : ℕ) : Writer := Writer.ofSize (2 ^ min (Nat.clog 2 size) 32)

inductive Put where
  | bools (vs : List Bool)
  | uint8s (vs : List UInt8)
  | uint16s (vs : List UInt16)
  | uint32s (vs : List UInt32)
  | uint64s (vs : List UInt64)
  | int64s (vs : List Int64)
  | int8s (vs : List Int8)
  | int16s (order : ByteOrder) (vs : List Int16)
  | int32s (order : ByteOrder) (vs : List Int32)
  | string (bs : List UInt8)

namespace Put

def chunks : Put → List (List UInt8)
  | bools vs => vs.map fun v => [if v then 1 else 0]
  | uint8s vs => vs.map fun v => [v]
  | uint16s vs => vs.map fun v => bytesBE 2 v.toNat
  | uint32s vs => vs.map fun v => bytesBE 4 v.toNat
  | uint64s vs => vs.map fun v => bytesBE 8 v.toNat
  | int64s vs => vs.map fun v => bytesBE 8 v.toUInt64.toNat
  | int8s vs => vs.map fun v => [v.toUInt8]
  | int16s order vs => vs.map fun v => order.put 2 v.toUInt16.toNat
  | int32s order vs => vs.map fun v => order.put 4 v.toUInt32.toNat
  | string bs => [bs]

def bytes (p : Put) : List UInt8 := p.chunks.flatten

def allBytes (ps : List Put) : List UInt8 := ps.flatMap bytes

@[simp] theorem allBytes_cons (p : Put) (ps : List Put) :
    allBytes (p :: ps) = p.bytes ++ allBytes ps := flatMap_cons

@[simp] theorem bytes_string (bs : List UInt8) : (string bs).bytes = bs := append_nil bs

def size : Put → ℕ
  | bools vs => vs.length
  | uint8s vs => vs.length
  | uint16s vs => 2 * vs.length
  | uint32s vs => 4 * vs.length
  | uint64s vs => 8 * vs.length
  | int64s vs => 8 * vs.length
  | int8s vs => vs.length
  | int16s _ vs => 2 * vs.length
  | int32s _ vs => 4 * vs.length
  | string bs => bs.length

theorem length_bytes (p : Put) : p.bytes.length = p.size := by
  have hone {α : Type} (f : α → UInt8) (vs : List α) :
      (vs.map fun v => [f v]).flatten.length = vs.length := by
    rw [length_flatten_map (k := 1) fun _ => rfl, Nat.one_mul]
  cases p with
  | bools vs | uint8s vs | int8s vs => exact hone _ vs
  | uint16s vs | uint32s vs | uint64s vs | int64s vs =>
    exact length_flatten_map (fun _ => length_bytesBE ..) vs
  | int16s order vs | int32s order vs =>
    exact length_flatten_map (fun _ => order.length_put ..) vs
  | string => rw [bytes_string]; rfl

def sizes (ps : List Put) : ℕ := (ps.map size).sum

theorem sizes_append (ps qs : List Put) : sizes (ps ++ qs) = sizes ps + sizes qs := by
  rw [sizes, map_append, sum_append, sizes, sizes]

theorem length_allBytes (ps : List Put) : (allBytes ps).length = sizes ps := by
  induction ps with
  | nil => rfl
  | cons p ps ih =>
    rw [allBytes_cons, length_append, length_bytes, ih, sizes, sizes, map_cons,
      sum_cons]

end Put

namespace Writer

variable (w : Writer)

def write : Put → Option Writer
  | .bools vs => w.writeBools vs
  | .uint8s vs => w.writeUint8s vs
  | .uint16s vs => w.writeUint16s vs
  | .uint32s vs => w.writeUint32s vs
  | .uint64s vs => w.writeUint64s vs
  | .int64s vs => w.writeInt64s vs
  | .int8s vs => w.writeInt8s vs
  | .int16s order vs => w.writeInt16s order vs
  | .int32s order vs => w.writeInt32s order vs
  | .string bs => w.writeBytes bs

theorem write_ok (p : Put) : ∃ w', w.write p = some w' ∧ w'.bytes = w.bytes ++ p.bytes := by
  cases p <;> exact w.writeAll_ok _

theorem writes_ok (ps : List Put) : ∀ w : Writer,
    ∃ w', ps.foldlM write w = some w' ∧ w'.bytes = w.bytes ++ Put.allBytes ps := by
  induction ps with
  | nil =>
    intro w
    exact ⟨w, rfl, (append_nil _).symm⟩
  | cons p ps ih =>
    intro w
    obtain ⟨w₁, h1, b1⟩ := w.write_ok p
    obtain ⟨w', h2, b2⟩ := ih w₁
    refine ⟨w', ?_, ?_⟩
    · rw [foldlM_cons, h1]
      exact h2
    · rw [b2, b1, Put.allBytes_cons, append_assoc]

@[simp] theorem bytes_ofSize (n : ℕ) : (ofSize n).bytes = [] := rfl

theorem malloc_writes (size : ℕ) (ps : List Put) :
    ∃ w, ps.foldlM write (mallocWriter size) = some w ∧ w.bytes = Put.allBytes ps := by
  obtain ⟨w, hw, hb⟩ := writes_ok ps (mallocWriter size)
  exact ⟨w, hw, by rw [hb, mallocWriter, bytes_ofSize, nil_append]⟩

end Writer

/-- `Bytes`: a block of a pool of which the first `off` bytes are in use. -/
structure Bytes where
  buf : List UInt8
  off : ℕ

def Bytes.bytes (b : Bytes) : List UInt8 := b.buf.take b.off

/-- The pool `MallocBytes` takes its blocks from, one grade for each power of two. A recycled
block holds whatever its last user left in it. -/
structure BytesPool where
  block : ℕ → List UInt8
  length_block : ∀ i, (block i).length = 2 ^ i

/-- `MallocBytes`. For `cap = 0` the grade `int(math.Ceil(math.Log2(0)))` is negative: the pool
lookup panics. -/
def BytesPool.mallocBytes (pool : BytesPool) (cap : ℕ) : Option Bytes :=
  if cap = 0 then none else some ⟨pool.block (min (Nat.clog 2 cap) 32), cap⟩

theorem BytesPool.mallocBytes_ok (pool : BytesPool) {cap : ℕ} (hpos : cap ≠ 0)
    (hle : cap ≤ 2 ^ 32) :
    ∃ b, pool.mallocBytes cap = some b ∧ b.off = cap ∧ cap ≤ b.buf.length := by
  refine ⟨_, if_neg hpos, rfl, ?_⟩
  have hclog : Nat.clog 2 cap ≤ 32 := (Nat.clog_le_iff_le_pow (by decide)).mpr hle
  rw [pool.length_block, Nat.min_eq_left hclog]
  exact Nat.le_pow_clog (by decide) cap

/-- A block of a `NocopyBuffer`: a node with the bytes of its block, or a nested buffer with
its blocks in order. -/
inductive Nocopy where
  | node (block : List UInt8)
  | buffer (nodes : List Nocopy)

namespace Nocopy

mutual

def num : Nocopy → ℕ
  | node _ => 1
  | buffer nodes => nums nodes

def nums : List Nocopy → ℕ
  | [] => 0
  | n :: ns => n.num + nums ns

end

mutual

def len : Nocopy → ℕ
  | node block => block.length
  | buffer nodes => lens nodes

def lens : List Nocopy → ℕ
  | [] => 0
  | n :: ns => n.len + lens ns

end

mutual

/-- `Bytes()`; a buffer with one node returns the bytes of its head. -/
def bytes : Nocopy → List UInt8
  | node block => block
  | buffer nodes =>
    if nums nodes = 0 then []
    else if nums nodes = 1 then headBytes nodes
    else concat nodes

def headBytes : List Nocopy → List UInt8
  | [] => []
  | n :: _ => n.bytes

def concat : List Nocopy → List UInt8
  | [] => []
  | n :: ns => n.bytes ++ concat ns

end

mutual

def visit : Nocopy → List UInt8
  | node block => block
  | buffer nodes => visits nodes

def visits : List Nocopy → List UInt8
  | [] => []
  | n :: ns => n.visit ++ visits ns

end

mutual

theorem length_visit : ∀ n : Nocopy, n.visit.length = n.len
  | node _ => rfl
  | buffer nodes => length_visits nodes

theorem length_visits : ∀ ns : List Nocopy, (visits ns).length = lens ns
  | [] => rfl
  | n :: ns => by rw [visits, lens, length_append, length_visit n, length_visits ns]

end

theorem bytes_writer (block : List UInt8) : (buffer [node block]).bytes = block := by
  simp [bytes, nums, num, headBytes]

theorem bytes_of_num_zero {n : Nocopy} (h : n.num = 0) : n.bytes = [] := by
  cases n with
  | node => cases h
  | buffer nodes =>
    have hz : nums nodes = 0 := h
    rw [bytes, if_pos hz]

theorem bytes_writer_message (block : List UInt8) (message : Nocopy) :
    (buffer [node block, message]).bytes = block ++ message.bytes := by
  have hnum : nums [node block, message] = 1 + message.num := by
    simp [nums, num]
  rw [bytes, if_neg (by omega)]
  split
  · -- an empty message adds no node
    rw [bytes_of_num_zero (by omega)]
    simp [headBytes, bytes]
  · simp [concat, bytes]

end Nocopy

/-- The errors of the reader; `outOfRange` is the run-time panic of a slice expression. -/
inductive ReadErr where
  | negativePosition
  | unexpectedEOF
  | outOfRange
deriving DecidableEq

-- io.SeekStart, io.SeekCurrent, io.SeekEnd
inductive Whence where
  | start
  | current
  | finish
deriving DecidableEq

structure Reader where
  buf : List UInt8
  off : ℕ

namespace Reader

variable (r : Reader)

def new (data : List UInt8) : Reader := ⟨data, 0⟩

def seek (offset : ℤ) (whence : Whence) : Except ReadErr Reader :=
  let abs : ℤ :=
    match whence with
    | .start => offset
    | .current => r.off + offset
    | .finish => r.buf.length + offset
  if abs < 0 then .error .negativePosition else .ok { r with off := abs.toNat }

def slices (b n : ℕ) : Except ReadErr (List UInt8 × Reader) :=
  let off := b * n
  if r.off + off > r.buf.length then .error .unexpectedEOF
  else .ok ((r.buf.drop r.off).take off, { r with off := r.off + off })

def readUint8 : Except ReadErr (UInt8 × Reader) := do
  let (buf, r) ← r.slices 1 1
  return (UInt8.ofNat (natBE buf), r)

def readUint16 : Except ReadErr (UInt16 × Reader) := do
  let (buf, r) ← r.slices 2 1
  return (UInt16.ofNat (natBE buf), r)

def readUint64 : Except ReadErr (UInt64 × Reader) := do
  let (buf, r) ← r.slices 8 1
  return (UInt64.ofNat (natBE buf), r)

def readUint32 : Except ReadErr (UInt32 × Reader) := do
  let (buf, r) ← r.slices 4 1
  return (UInt32.ofNat (natBE buf), r)

def readInt64 : Except ReadErr (Int64 × Reader) := do
  let (buf, r) ← r.slices 8 1
  return ((UInt64.ofNat (natBE buf)).toInt64, r)

def readBool : Except ReadErr (Bool × Reader) := do
  let (buf, r) ← r.slices 1 1
  return (buf == [1], r)

def readString (n : ℕ) : Except ReadErr (List UInt8 × Reader) := r.slices n 1

def readInt64s (n : ℕ) : Except ReadErr (List Int64 × Reader) := do
  if n = 0 then return ([], r)
  let (buf, r) ← r.slices 8 n
  return ((natsBE 8 n buf).map fun v => (UInt64.ofNat v).toInt64, r)

variable {α : Type} {r : Reader} {data bs rest : List UInt8} {off k n : ℕ} {f : List UInt8 → α}

def bytesAt (data : List UInt8) (off k : ℕ) : List UInt8 := (data.drop off).take k

theorem length_bytesAt (h : off + k ≤ data.length) : (bytesAt data off k).length = k := by
  rw [bytesAt, length_take_of_le]
  rw [length_drop]
  omega

theorem bytesAt_append_drop (data : List UInt8) (off k : ℕ) :
    bytesAt data off k ++ data.drop (off + k) = data.drop off := by
  rw [bytesAt, ← drop_drop, take_append_drop]

/-- What every read does: it decodes the next `k` bytes, if there are so many. -/
def readAt (f : List UInt8 → α) (k : ℕ) (r : Reader) : Except ReadErr (α × Reader) :=
  if r.off + k ≤ r.buf.length then .ok (f (bytesAt r.buf r.off k), { r with off := r.off + k })
  else .error .unexpectedEOF

theorem readAt_of_le (h : off + k ≤ data.length) :
    readAt f k ⟨data, off⟩ = .ok (f (bytesAt data off k), ⟨data, off + k⟩) := if_pos h

theorem readAt_of_drop (h : data.drop off = bs ++ rest) (hlen : bs.length = k) (hpos : 0 < k) :
    readAt f k ⟨data, off⟩ = .ok (f bs, ⟨data, off + k⟩) := by
  have hl := congrArg length h
  rw [length_drop, length_append] at hl
  rw [readAt_of_le (by omega), bytesAt, h, take_left' hlen]

theorem drop_add (h : data.drop off = bs ++ rest) (hlen : bs.length = k) :
    data.drop (off + k) = rest := by
  rw [← drop_drop, h, drop_left' hlen]

theorem safe_readAt {Q : α × Reader → Prop} : Safe .outOfRange (readAt f k ⟨data, off⟩) Q ↔
    (off + k ≤ data.length → Q (f (bytesAt data off k), ⟨data, off + k⟩)) := by
  by_cases h : off + k ≤ data.length
  · rw [readAt_of_le h]
    exact ⟨fun hQ _ => hQ, fun hQ => hQ h⟩
  · rw [readAt, if_neg h]
    exact ⟨fun _ hle => absurd hle h, fun _ => ReadErr.noConfusion⟩

theorem slices_eq (b n : ℕ) : r.slices b n = r.readAt id (b * n) := by
  by_cases h : r.off + b * n ≤ r.buf.length
  · rw [slices, readAt, if_neg (by omega), if_pos h]
    rfl
  · rw [slices, readAt, if_pos (by omega), if_neg h]

theorem decode_slices (f : List UInt8 → α) (b n : ℕ) :
    (do let (bs, r) ← r.slices b n; return (f bs, r)) = r.readAt f (b * n) := by
  rw [slices_eq, readAt, readAt]
  split <;> rfl

theorem readUint8_eq : r.readUint8 = r.readAt (fun bs => UInt8.ofNat (natBE bs)) 1 :=
  decode_slices (fun bs => UInt8.ofNat (natBE bs)) 1 1

theorem readUint8_of_drop {v : UInt8} (h : data.drop off = [v] ++ rest) :
    readUint8 ⟨data, off⟩ = .ok (v, ⟨data, off + 1⟩) := by
  rw [readUint8_eq, readAt_of_drop (k := 1) h rfl Nat.one_pos]
  simp [natBE]

theorem readUint16_eq : r.readUint16 = r.readAt (fun bs => UInt16.ofNat (natBE bs)) 2 :=
  decode_slices (fun bs => UInt16.ofNat (natBE bs)) 2 1

theorem readUint32_eq : r.readUint32 = r.readAt (fun bs => UInt32.ofNat (natBE bs)) 4 :=
  decode_slices (fun bs => UInt32.ofNat (natBE bs)) 4 1

theorem readUint64_eq : r.readUint64 = r.readAt (fun bs => UInt64.ofNat (natBE bs)) 8 :=
  decode_slices (fun bs => UInt64.ofNat (natBE bs)) 8 1

theorem readInt64_eq : r.readInt64 = r.readAt (fun bs => (UInt64.ofNat (natBE bs)).toInt64) 8 :=
  decode_slices (fun bs => (UInt64.ofNat (natBE bs)).toInt64) 8 1

theorem readBool_eq : r.readBool = r.readAt (· == [1]) 1 := decode_slices (· == [1]) 1 1

theorem readString_eq : r.readString n = r.readAt id n := by
  rw [readString, slices_eq, Nat.mul_one]

def int64sAt (data : List UInt8) (off n : ℕ) : List Int64 :=
  (natsBE 8 n (bytesAt data off (8 * n))).map fun v => (UInt64.ofNat v).toInt64

theorem readInt64s_eq (hoff : off ≤ data.length) : readInt64s ⟨data, off⟩ n =
    readAt (fun bs => (natsBE 8 n bs).map fun v => (UInt64.ofNat v).toInt64) (8 * n)
      ⟨data, off⟩ := by
  rw [← decode_slices, readInt64s]
  split
  · rename_i h0
    subst h0
    rw [slices, if_neg (by simpa using hoff)]
    rfl
  · rfl

def int64Bytes (vs : List Int64) : List UInt8 :=
  (vs.map fun v => v.toUInt64.toNat).flatMap (bytesBE 8)

theorem length_int64Bytes (vs : List Int64) : (int64Bytes vs).length = 8 * vs.length := by
  rw [int64Bytes, length_flatMap_bytesBE, length_map]

theorem natsBE_int64Bytes (vs : List Int64) :
    (natsBE 8 vs.length (int64Bytes vs)).map (fun v => (UInt64.ofNat v).toInt64) = vs := by
  have h := natsBE_flatMap 8 (vs.map fun v => v.toUInt64.toNat)
  rw [length_map] at h
  rw [int64Bytes, h, map_map, map_map]
  apply map_id''
  intro v
  have hmod : v.toUInt64.toNat % 256 ^ 8 = v.toUInt64.toNat := Nat.mod_eq_of_lt v.toUInt64.toNat_lt
  simp only [Function.comp, hmod, UInt64.ofNat_toNat]
  rfl

@[simp] theorem length_int64sAt (data : List UInt8) (off n : ℕ) :
    (int64sAt data off n).length = n := by
  rw [int64sAt, length_map, length_natsBE]

theorem int64Bytes_int64sAt (h : off + 8 * n ≤ data.length) :
    int64Bytes (int64sAt data off n) = bytesAt data off (8 * n) := by
  have hback : (int64sAt data off n).map (fun v => v.toUInt64.toNat) =
      natsBE 8 n (bytesAt data off (8 * n)) := by
    rw [int64sAt, map_map]
    refine (map_congr_left fun v hv => ?_).trans (map_id _)
    exact UInt64.toNat_ofNat_of_lt' (lt_of_mem_natsBE hv)
  rw [int64Bytes, hback, flatMap_natsBE 8 n _ (length_bytesAt h)]

theorem readInt64s_of_drop {vs : List Int64} (hoff : off ≤ data.length)
    (h : data.drop off = int64Bytes vs ++ rest) :
    readInt64s ⟨data, off⟩ vs.length = .ok (vs, ⟨data, off + 8 * vs.length⟩) := by
  rcases vs with _ | ⟨v, vs⟩
  · rfl
  rw [readInt64s_eq hoff, readAt_of_drop h (length_int64Bytes _) (by simp), natsBE_int64Bytes]

end Reader

end DueServer.Buffer
