import DueServer.FrameReader

/-! `packet/packer.go`: the packets of clients. A packet is its size, a header byte, the route and
the sequence number in configured widths, and the payload. `log.Fatalf` in `NewPacker` ends the
process: no packer exists with other widths. -/
namespace DueServer.Packet

open Buffer Framing
open Lib (ByteOrder Stream StreamErr)
open List

def defaultSizeBytes : ℕ := 4
def defaultHeaderBytes : ℕ := 1
def defaultHeartbeatTimeBytes : ℕ := 8

-- 0 << 7, 1 << 7
def dataBit : UInt8 := 0
def heartbeatBit : UInt8 := 128

structure Options where
  byteOrder : ByteOrder
  routeBytes : ℤ
  seqBytes : ℤ
  bufferBytes : ℤ
  heartbeatTime : Bool
deriving DecidableEq

/-- `defaultPacker` with the options that `NewPacker` accepts. -/
structure Packer where
  byteOrder : ByteOrder
  routeBytes : ℕ
  seqBytes : ℕ
  bufferBytes : ℕ
  heartbeatTime : Bool
  routeBytes_ok : routeBytes = 1 ∨ routeBytes = 2 ∨ routeBytes = 4
  seqBytes_ok : seqBytes = 0 ∨ seqBytes = 1 ∨ seqBytes = 2 ∨ seqBytes = 4
deriving DecidableEq

structure Message where
  seq : Int32
  route : Int32
  buffer : List UInt8
deriving DecidableEq

inductive PackErr where
  | routeOverflow
  | seqOverflow
  | messageTooLarge
  | invalidMessage
  | stream (e : StreamErr)
deriving DecidableEq

def failIf (c : Prop) [Decidable c] (e : PackErr) : Except PackErr Unit :=
  if c then .error e else .ok ()

theorem failIf_pos {c : Prop} [Decidable c] {e : PackErr} (h : c) :
    failIf c e = .error e := if_pos h

theorem failIf_neg {c : Prop} [Decidable c] {e : PackErr} (h : ¬ c) : failIf c e = .ok () :=
  if_neg h

/-- `NewPacker`; `none` is the end of the process. -/
def newPacker (o : Options) : Option Packer :=
  if hr : o.routeBytes = 1 ∨ o.routeBytes = 2 ∨ o.routeBytes = 4 then
    if hs : o.seqBytes = 0 ∨ o.seqBytes = 1 ∨ o.seqBytes = 2 ∨ o.seqBytes = 4 then
      if 0 ≤ o.bufferBytes then
        some ⟨o.byteOrder, o.routeBytes.toNat, o.seqBytes.toNat, o.bufferBytes.toNat,
          o.heartbeatTime, by omega, by omega⟩
      else none
    else none
  else none

theorem exists_newPacker (p : Packer) : ∃ o, newPacker o = some p := by
  have hrt := p.routeBytes_ok
  have hseq := p.seqBytes_ok
  have hr : (p.routeBytes : ℤ) = 1 ∨ (p.routeBytes : ℤ) = 2 ∨ (p.routeBytes : ℤ) = 4 := by omega
  have hs : (p.seqBytes : ℤ) = 0 ∨ (p.seqBytes : ℤ) = 1 ∨ (p.seqBytes : ℤ) = 2 ∨
      (p.seqBytes : ℤ) = 4 := by omega
  refine ⟨⟨p.byteOrder, p.routeBytes, p.seqBytes, p.bufferBytes, p.heartbeatTime⟩, ?_⟩
  simp only [newPacker, Int.toNat_natCast]
  rw [dif_pos hr, dif_pos hs, if_pos (Int.natCast_nonneg _)]

def defaultPacker : Packer := ⟨.big, 2, 2, 5000, false, .inr (.inl rfl),
  .inr (.inr (.inl rfl))⟩

section Fields

variable {n : ℕ} {v : Int32} {order : ByteOrder}

/-- `int32(1<<(8*n-1)-1)`; the shift is one of `int32`. -/
def maxField (n : ℕ) : Int32 := (1 : Int32) <<< Int32.ofNat (8 * n - 1) - 1

/-- `int32(-1<<(8*n-1))`. -/
def minField (n : ℕ) : Int32 := (-1 : Int32) <<< Int32.ofNat (8 * n - 1)

def encodeField (order : ByteOrder) (n : ℕ) (v : Int32) : List UInt8 :=
  match n with
  | 1 => order.put 1 v.toInt8.toUInt8.toNat
  | 2 => order.put 2 v.toInt16.toUInt16.toNat
  | 4 => order.put 4 v.toUInt32.toNat
  | _ => []

def decodeField (order : ByteOrder) (n : ℕ) (bs : List UInt8) : Int32 :=
  match n with
  | 1 => (UInt8.ofNat (order.nat bs)).toInt8.toInt32
  | 2 => (UInt16.ofNat (order.nat bs)).toInt16.toInt32
  | 4 => (UInt32.ofNat (order.nat bs)).toInt32
  | _ => 0

def SignedFits (n : ℕ) (v : Int32) : Prop :=
  -(2 ^ (8 * n - 1)) ≤ v.toInt ∧ v.toInt < 2 ^ (8 * n - 1)

instance (n : ℕ) (v : Int32) : Decidable (SignedFits n v) := by
  unfold SignedFits
  infer_instance

theorem in_field_range_iff (hn : n = 1 ∨ n = 2 ∨ n = 4) :
    ¬ (v > maxField n ∨ v < minField n) ↔ SignedFits n v := by
  rw [not_or, Int32.not_lt, Int32.not_lt, Int32.le_iff_toInt_le, Int32.le_iff_toInt_le,
    SignedFits]
  rcases hn with rfl | rfl | rfl
  · have hmax : (maxField 1).toInt = 127 := by decide
    have hmin : (minField 1).toInt = -128 := by decide
    omega
  · have hmax : (maxField 2).toInt = 32767 := by decide
    have hmin : (minField 2).toInt = -32768 := by decide
    omega
  have hmax : (maxField 4).toInt = 2147483647 := by decide
  have hmin : (minField 4).toInt = -2147483648 := by decide
  omega

theorem length_encodeField (hn : n = 0 ∨ n = 1 ∨ n = 2 ∨ n = 4) :
    (encodeField order n v).length = n := by
  rcases hn with rfl | rfl | rfl | rfl
  · rfl
  all_goals exact order.length_put ..

theorem decodeField_encodeField (hn : n = 1 ∨ n = 2 ∨ n = 4) (h : SignedFits n v) :
    decodeField order n (encodeField order n v) = v := by
  obtain ⟨hlow, hhigh⟩ := h
  rcases hn with rfl | rfl | rfl
  · have hback : order.nat (order.put 1 v.toInt8.toUInt8.toNat) = v.toInt8.toUInt8.toNat := by
      rw [order.nat_put]
      exact Nat.mod_eq_of_lt v.toInt8.toUInt8.toNat_lt
    rw [encodeField, decodeField, hback, UInt8.ofNat_toNat]
    apply Int32.toInt_inj.mp
    have hval : v.toInt8.toUInt8.toInt8.toInt32.toInt = v.toInt.bmod (2 ^ 8) := by
      rw [Int8.toInt_toInt32]
      exact Int32.toInt_toInt8 v
    rw [hval, Int.bmod_eq_of_le (by omega) (by omega)]
  · have hback : order.nat (order.put 2 v.toInt16.toUInt16.toNat) = v.toInt16.toUInt16.toNat := by
      rw [order.nat_put]
      exact Nat.mod_eq_of_lt v.toInt16.toUInt16.toNat_lt
    rw [encodeField, decodeField, hback, UInt16.ofNat_toNat]
    apply Int32.toInt_inj.mp
    have hval : v.toInt16.toUInt16.toInt16.toInt32.toInt = v.toInt.bmod (2 ^ 16) := by
      rw [Int16.toInt_toInt32]
      exact Int32.toInt_toInt16 v
    rw [hval, Int.bmod_eq_of_le (by omega) (by omega)]
  · have hback : order.nat (order.put 4 v.toUInt32.toNat) = v.toUInt32.toNat := by
      rw [order.nat_put]
      exact Nat.mod_eq_of_lt v.toUInt32.toNat_lt
    rw [encodeField, decodeField, hback, UInt32.ofNat_toNat]
    rfl

theorem encodeField_decodeField {bs : List UInt8} (hn : n = 0 ∨ n = 1 ∨ n = 2 ∨ n = 4)
    (hlen : bs.length = n) : encodeField order n (decodeField order n bs) = bs := by
  have hlt := order.nat_lt bs
  have hput := order.put_nat bs
  rw [hlen] at hlt hput
  rcases hn with rfl | rfl | rfl | rfl
  · exact (length_eq_zero_iff.mp hlen).symm
  · have hsame : (UInt8.ofNat (order.nat bs)).toInt8.toInt32.toInt8.toUInt8.toNat =
      order.nat bs := by
      rw [Int8.toInt8_toInt32]
      exact UInt8.toNat_ofNat_of_lt' hlt
    rw [decodeField, encodeField, hsame]
    exact hput
  · have hsame : (UInt16.ofNat (order.nat bs)).toInt16.toInt32.toInt16.toUInt16.toNat =
        order.nat bs := by
      rw [Int16.toInt16_toInt32]
      exact UInt16.toNat_ofNat_of_lt' hlt
    rw [decodeField, encodeField, hsame]
    exact hput
  · have hsame : (UInt32.ofNat (order.nat bs)).toInt32.toUInt32.toNat = order.nat bs :=
      UInt32.toNat_ofNat_of_lt' hlt
    rw [decodeField, encodeField, hsame]
    exact hput

theorem signedFits_decodeField {bs : List UInt8} (hn : n = 1 ∨ n = 2 ∨ n = 4) :
    SignedFits n (decodeField order n bs) := by
  rcases hn with rfl | rfl | rfl
  · have hval := Int8.toInt_toInt32 (UInt8.ofNat (order.nat bs)).toInt8
    rw [SignedFits, decodeField, hval]
    exact ⟨Int8.le_toInt _, Int8.toInt_lt _⟩
  · have hval := Int16.toInt_toInt32 (UInt16.ofNat (order.nat bs)).toInt16
    rw [SignedFits, decodeField, hval]
    exact ⟨Int16.le_toInt _, Int16.toInt_lt _⟩
  · exact ⟨Int32.le_toInt _, Int32.toInt_lt _⟩

end Fields

namespace Packer

variable (p : Packer) (m : Message)

def check : Except PackErr Unit := do
  failIf (m.route > maxField p.routeBytes ∨ m.route < minField p.routeBytes) .routeOverflow
  failIf (p.seqBytes > 0 ∧ (m.seq > maxField p.seqBytes ∨ m.seq < minField p.seqBytes)) .seqOverflow
  failIf (m.buffer.length > p.bufferBytes) .messageTooLarge

def sizeOf (m : Message) : ℕ :=
  defaultHeaderBytes + p.routeBytes + p.seqBytes + m.buffer.length

def packMessage : Except PackErr (List UInt8) := do
  p.check m
  return p.byteOrder.put 4 (Int32.ofNat (p.sizeOf m)).toUInt32.toNat ++ ([dataBit] ++
    (encodeField p.byteOrder p.routeBytes m.route ++
      (encodeField p.byteOrder p.seqBytes m.seq ++ m.buffer)))

def writeField (order : ByteOrder) (n : ℕ) (v : Int32) : List Put :=
  match n with
  | 1 => [.int8s [v.toInt8]]
  | 2 => [.int16s order [v.toInt16]]
  | 4 => [.int32s order [v]]
  | _ => []

/-- `none` is a panic of the writer. -/
def packBuffer : Option (Except PackErr Nocopy) :=
  match p.check m with
  | .error e => some (.error e)
  | .ok () => do
    let w ← ([Put.int32s p.byteOrder [Int32.ofNat (p.sizeOf m)], Put.int8s [dataBit.toInt8]] ++
      (writeField p.byteOrder p.routeBytes m.route ++
        writeField p.byteOrder p.seqBytes m.seq)).foldlM Writer.write
          (mallocWriter (defaultSizeBytes + defaultHeaderBytes + p.routeBytes + p.seqBytes))
    return .ok (.buffer [.node w.bytes, .node m.buffer])

/-- `binary.Read` of a value of `k` bytes. -/
def read (k : ℕ) (s : Stream) : Except PackErr (List UInt8 × Stream) :=
  (s.readFull k).mapError .stream

def headBytes : ℕ := defaultSizeBytes + defaultHeaderBytes + p.routeBytes + p.seqBytes

def unpackMessage (data : List UInt8) : Except PackErr Message := do
  failIf (data.length < p.headBytes) .invalidMessage
  let (bs, s) ← read 4 ⟨data, .eof⟩
  failIf (data.length - defaultSizeBytes ≠ p.byteOrder.nat bs) .invalidMessage
  let (bs, s) ← read 1 s
  let header := UInt8.ofNat (p.byteOrder.nat bs)
  failIf (header &&& dataBit ≠ dataBit) .invalidMessage
  let (route, s) ← read p.routeBytes s
  let (seq, _) ← read p.seqBytes s
  return ⟨decodeField p.byteOrder p.seqBytes seq, decodeField p.byteOrder p.routeBytes route,
    data.drop p.headBytes⟩

/-- `PackHeartbeat`; `now` is the time in nanoseconds, sent if the options say so. -/
def packHeartbeat (now : Int64) : List UInt8 :=
  if p.heartbeatTime then
    p.byteOrder.put 4 (defaultHeaderBytes + defaultHeartbeatTimeBytes) ++ ([heartbeatBit] ++
      p.byteOrder.put 8 now.toUInt64.toNat)
  else p.byteOrder.put 4 defaultHeaderBytes ++ [heartbeatBit]

def checkHeartbeat (data : List UInt8) : Except PackErr Bool := do
  failIf (data.length < defaultSizeBytes + defaultHeaderBytes) .invalidMessage
  let (bs, s) ← read 4 ⟨data, .eof⟩
  failIf (data.length - defaultSizeBytes ≠ p.byteOrder.nat bs) .invalidMessage
  let (bs, _) ← read 1 s
  let header := UInt8.ofNat (p.byteOrder.nat bs)
  return header &&& heartbeatBit == heartbeatBit

/-- `ReadMessage`; a zero size is `nil, nil`. -/
def readMessage (s : Stream) : Except FrameErr (Option (List UInt8) × Stream) :=
  readFrame p.byteOrder s

def readBuffer (pool : BytesPool) (s : Stream) : Except FrameErr (Option Bytes × Stream) :=
  readFrameBuffer pool p.byteOrder s

section Pack

variable {p m}

structure Accepts (p : Packer) (m : Message) : Prop where
  route : SignedFits p.routeBytes m.route
  seq : p.seqBytes = 0 ∨ SignedFits p.seqBytes m.seq
  payload : m.buffer.length ≤ p.bufferBytes

theorem seq_in_range_iff :
    ¬ (p.seqBytes > 0 ∧ (m.seq > maxField p.seqBytes ∨ m.seq < minField p.seqBytes)) ↔
      p.seqBytes = 0 ∨ SignedFits p.seqBytes m.seq := by
  rcases p.seqBytes_ok with h0 | hn
  · exact iff_of_true (fun h => by omega) (.inl h0)
  have hpos : p.seqBytes > 0 := by omega
  have hne : ¬ p.seqBytes = 0 := by omega
  rw [not_and, in_field_range_iff hn, or_iff_right hne]
  exact ⟨fun h => h hpos, fun h _ => h⟩

theorem check_eq_ok_iff : p.check m = .ok () ↔ p.Accepts m := by
  have hrt := in_field_range_iff (v := m.route) p.routeBytes_ok
  constructor
  · intro h
    unfold check at h
    by_cases h1 : m.route > maxField p.routeBytes ∨ m.route < minField p.routeBytes
    · rw [failIf_pos h1] at h
      cases h
    rw [failIf_neg h1] at h
    by_cases h2 : p.seqBytes > 0 ∧ (m.seq > maxField p.seqBytes ∨ m.seq < minField p.seqBytes)
    · rw [failIf_pos h2] at h
      cases h
    rw [failIf_neg h2] at h
    by_cases h3 : m.buffer.length > p.bufferBytes
    · rw [failIf_pos h3] at h
      cases h
    exact ⟨hrt.mp h1, seq_in_range_iff.mp h2, Nat.le_of_not_lt h3⟩
  · intro h
    rw [check, failIf_neg (hrt.mpr h.route), failIf_neg (seq_in_range_iff.mpr h.seq),
      failIf_neg (Nat.not_lt_of_le h.payload)]
    rfl

def packet (p : Packer) (m : Message) : List UInt8 :=
  p.byteOrder.put 4 (p.sizeOf m) ++ ([dataBit] ++ (encodeField p.byteOrder p.routeBytes m.route ++
    (encodeField p.byteOrder p.seqBytes m.seq ++ m.buffer)))

theorem put_size (order : ByteOrder) (k : ℕ) :
    order.put 4 (Int32.ofNat k).toUInt32.toNat = order.put 4 k := by
  cases order with
  | big => exact Lib.bytesBE_mod 4 4 k le_rfl
  | little => exact congrArg reverse (Lib.bytesBE_mod 4 4 k le_rfl)

theorem packMessage_of_check {r : Except PackErr Unit} (h : p.check m = r) :
    p.packMessage m = r.map fun _ => p.packet m := by
  rw [packMessage, h, put_size]
  cases r with
  | error e | ok u => rfl

theorem allBytes_writeField (order : ByteOrder) {n : ℕ} (hn : n = 0 ∨ n = 1 ∨ n = 2 ∨ n = 4)
    (v : Int32) : Put.allBytes (writeField order n v) = encodeField order n v := by
  rcases hn with rfl | rfl | rfl | rfl
  · rfl
  · have hbyte : [v.toInt8.toUInt8] = order.put 1 v.toInt8.toUInt8.toNat := by
      cases order with
      | big | little => simp [ByteOrder.put, Lib.bytesBE]
    exact hbyte
  all_goals exact (append_nil _).trans (append_nil _)

theorem packBuffer_of_check (h : p.check m = .ok ()) : ∃ buf, p.packBuffer m = some (.ok buf) ∧
    buf.bytes = p.packet m ∧ buf.len = (p.packet m).length := by
  obtain ⟨w, hw, hb⟩ := Writer.malloc_writes
    (defaultSizeBytes + defaultHeaderBytes + p.routeBytes + p.seqBytes)
    ([Put.int32s p.byteOrder [Int32.ofNat (p.sizeOf m)], Put.int8s [dataBit.toInt8]] ++
      (writeField p.byteOrder p.routeBytes m.route ++ writeField p.byteOrder p.seqBytes m.seq))
  have hwr : w.bytes ++ m.buffer = p.packet m := by
    have hrt := allBytes_writeField p.byteOrder (.inr p.routeBytes_ok) m.route
    have hseq := allBytes_writeField p.byteOrder p.seqBytes_ok m.seq
    rw [Put.allBytes] at hrt hseq
    rw [hb, packet, ← put_size]
    simp only [Put.allBytes, flatMap_append, flatMap_cons, hrt, hseq,
      Put.bytes, Put.chunks, map_cons, flatten_cons, append_assoc]
    rfl
  refine ⟨.buffer [.node w.bytes, .node m.buffer], ?_, ?_, ?_⟩
  · simp only [packBuffer, h, hw]
    rfl
  · rw [Nocopy.bytes_writer_message, Nocopy.bytes, hwr]
  · rw [← hwr, length_append]
    rfl

/-- `PackBuffer` and `PackMessage` fail with the same errors and otherwise give the same bytes; they
accept the messages whose fields fit the configured widths. -/
theorem packBuffer_agrees (p : Packer) (m : Message) :
    (∀ e, p.packBuffer m = some (.error e) ↔ p.packMessage m = .error e) ∧
    (∀ data, p.packMessage m = .ok data ↔ ∃ buf, p.packBuffer m = some (.ok buf) ∧
      buf.bytes = data ∧ buf.len = data.length) ∧
    ((∃ data, p.packMessage m = .ok data) ↔
      SignedFits p.routeBytes m.route ∧ (p.seqBytes = 0 ∨ SignedFits p.seqBytes m.seq) ∧
        m.buffer.length ≤ p.bufferBytes) ∧
    ((∃ buf, p.packBuffer m = some (.ok buf)) ↔
      SignedFits p.routeBytes m.route ∧ (p.seqBytes = 0 ∨ SignedFits p.seqBytes m.seq) ∧
        m.buffer.length ≤ p.bufferBytes) := by
  cases hchk : p.check m with
  | error e =>
    have hmsg : p.packMessage m = .error e := packMessage_of_check hchk
    have hbuf : p.packBuffer m = some (.error e) := by
      simp only [packBuffer, hchk]
    have hrej : ¬ (SignedFits p.routeBytes m.route ∧
        (p.seqBytes = 0 ∨ SignedFits p.seqBytes m.seq) ∧ m.buffer.length ≤ p.bufferBytes) := by
      rintro ⟨hrt, hseq, hpay⟩
      have hok := check_eq_ok_iff.mpr ⟨hrt, hseq, hpay⟩
      rw [hchk] at hok
      cases hok
    rw [hmsg, hbuf]
    refine ⟨fun e' => ?_, fun data => ?_, ?_, ?_⟩
    · exact ⟨fun h => congrArg Except.error (Except.error.inj (Option.some.inj h)),
        fun h => congrArg some (congrArg Except.error (Except.error.inj h))⟩
    · refine iff_of_false (fun h => by cases h) ?_
      rintro ⟨buf, h, -⟩
      cases h
    · exact iff_of_false (fun ⟨data, h⟩ => by cases h) hrej
    · exact iff_of_false (fun ⟨buf, h⟩ => by cases h) hrej
  | ok u =>
    have hmsg : p.packMessage m = .ok (p.packet m) := packMessage_of_check hchk
    obtain ⟨buf, hbuf, hbs, hlen⟩ := packBuffer_of_check hchk
    have hacc := check_eq_ok_iff.mp hchk
    rw [hmsg, hbuf]
    refine ⟨fun e' => ?_, fun data => ?_, ?_, ?_⟩
    · exact iff_of_false (fun h => by cases h) (fun h => by cases h)
    · constructor
      · rintro ⟨⟩
        exact ⟨buf, rfl, hbs, hlen⟩
      · rintro ⟨buf', h, hdata, -⟩
        cases h
        rw [← hdata, hbs]
    all_goals exact iff_of_true ⟨_, rfl⟩ ⟨hacc.route, hacc.seq, hacc.payload⟩

end Pack

end Packer

end DueServer.Packet
