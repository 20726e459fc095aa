import DueServer.FrameReader
import DueServer.ProtocolMessages

/-! `reader.go`: `ReadMessage`, and `ReaderBuffer` with `ParseBuffer`, on an arbitrary stream. -/
namespace DueServer.Protocol

open Buffer Framing Lib
open List

structure Frame where
  isHeartbeat : Bool
  route : UInt8
  seq : UInt64
  data : List UInt8
deriving DecidableEq

def headerOf (mem : List UInt8) : UInt8 := mem.getD defaultSizeBytes 0

def hasHeartbeatBit (mem : List UInt8) : Bool := headerOf mem &&& heartbeatBit == heartbeatBit

def routeOf (mem : List UInt8) : UInt8 := mem.getD (defaultSizeBytes + defaultHeaderBytes) 0

def seqOf (mem : List UInt8) : UInt64 :=
  UInt64.ofNat (natBE ((mem.drop (defaultSizeBytes + defaultHeaderBytes +
    defaultRouteBytes)).take 8))

/-- `ParseBuffer`. Its slice expressions may reach beyond the length of the slice, up to its
capacity: `mem` is the memory up to there. -/
def parseBuffer (mem : List UInt8) : Except FrameErr (Bool × UInt8 × UInt64) :=
  if mem.length < defaultSizeBytes + defaultHeaderBytes then .error .outOfRange
  else if hasHeartbeatBit mem then .ok (true, 0, 0)
  else if mem.length < defaultSizeBytes + defaultHeaderBytes + defaultRouteBytes + 8 then
    .error .outOfRange
  else .ok (false, routeOf mem, seqOf mem)

/-- `ReadMessage`; a zero size is an invalid message. -/
def readMessage (s : Stream) : Except FrameErr (Frame × Stream) := do
  match ← readFrame .big s with
  | (none, _) => throw .invalidMessage
  | (some data, s) =>
    let (isHeartbeat, route, seq) ← parseBuffer data
    return (⟨isHeartbeat, route, seq, data⟩, s)

def readerBuffer (pool : BytesPool) (s : Stream) : Except FrameErr (Bytes × Stream) := do
  match ← readFrameBuffer pool .big s with
  | (none, _) => throw .invalidMessage
  | (some buf, s) => return (buf, s)

/-- `ReaderBuffer`, then `ParseBuffer` of its bytes, as the client connection does. -/
def readAndParse (pool : BytesPool) (s : Stream) : Except FrameErr (Frame × Stream) := do
  let (buf, s) ← readerBuffer pool s
  let (isHeartbeat, route, seq) ← parseBuffer buf.buf
  return (⟨isHeartbeat, route, seq, buf.bytes⟩, s)

structure Frame.DecodedInside (f : Frame) : Prop where
  header : defaultSizeBytes + defaultHeaderBytes ≤ f.data.length
  flag : f.isHeartbeat = hasHeartbeatBit f.data
  heartbeat : f.isHeartbeat = true → f.route = 0 ∧ f.seq = 0
  message : f.isHeartbeat = false → commonBytes ≤ f.data.length ∧ f.route = routeOf f.data ∧
    f.seq = seqOf f.data

/-- `f` is the first frame of `s`, as long as its own prefix says, and `t` is what follows it. -/
structure FirstFrame (s : Stream) (f : Frame) (t : Stream) : Prop where
  bytes : s.bytes = f.data ++ t.bytes
  fin : t.fin = s.fin
  length : f.data.length = natBE (f.data.take defaultSizeBytes) + defaultSizeBytes
  inside : f.DecodedInside

def ReadsFrame (s : Stream) (m : Except FrameErr (Frame × Stream)) : Prop :=
  Safe .outOfRange m fun p => FirstFrame s p.1 p.2

/-- The prefix leaves room for the size field in 32 bits, and a whole frame that is no heartbeat
is long enough for a route and a sequence number. -/
def PrefixInRange (s : Stream) : Prop :=
  s.bytes.length < sizeBytes ∨
    (prefixOf .big s < 2 ^ 32 - 4 ∧
      (prefixOf .big s = 0 ∨ s.bytes.length < prefixOf .big s + sizeBytes ∨
        hasHeartbeatBit s.bytes = true ∨ commonBytes ≤ prefixOf .big s + sizeBytes))

instance (s : Stream) : Decidable (PrefixInRange s) := inferInstanceAs (Decidable (_ ∨ _))

section Total

variable {s t : Stream} {mem data : List UInt8} {k : ℕ}

theorem hasHeartbeatBit_take (mem : List UInt8) (h : 5 ≤ k) :
    hasHeartbeatBit (mem.take k) = hasHeartbeatBit mem := by
  have hlt : defaultSizeBytes < k := h
  simp [hasHeartbeatBit, headerOf, getElem?_take, if_pos hlt]

theorem routeOf_take (mem : List UInt8) (h : 14 ≤ k) : routeOf (mem.take k) = routeOf mem := by
  have hlt : defaultSizeBytes + defaultHeaderBytes < k := by
    show 4 + 1 < k
    omega
  simp [routeOf, getElem?_take, if_pos hlt]

theorem seqOf_take (mem : List UInt8) (h : 14 ≤ k) : seqOf (mem.take k) = seqOf mem := by
  have hle : 8 ≤ k - (defaultSizeBytes + defaultHeaderBytes + defaultRouteBytes) := by
    show 8 ≤ k - (4 + 1 + 1)
    omega
  simp only [seqOf, drop_take, take_take, Nat.min_eq_left hle]

/-- Parsing a frame at the start of some memory: right for a heartbeat and for a frame of at
least 14 bytes. A shorter one makes the parser panic or read behind the frame. -/
theorem readsFrame_parse_iff (hmem : mem.take data.length = data)
    (hlen : data.length = natBE (data.take defaultSizeBytes) + defaultSizeBytes)
    (hpos : 5 ≤ data.length) (hs : s.bytes = data ++ t.bytes) (hfin : t.fin = s.fin) :
    ReadsFrame s ((parseBuffer mem).map fun q => (⟨q.1, q.2.1, q.2.2, data⟩, t)) ↔
      hasHeartbeatBit data = true ∨ commonBytes ≤ data.length := by
  have hle : data.length ≤ mem.length := by
    rw [← hmem, length_take]
    exact Nat.min_le_right ..
  have hflag : hasHeartbeatBit mem = hasHeartbeatBit data := by
    rw [← hasHeartbeatBit_take mem hpos, hmem]
  have h5 : ¬ mem.length < defaultSizeBytes + defaultHeaderBytes := by
    show ¬ mem.length < 4 + 1
    omega
  by_cases hbit : hasHeartbeatBit data = true
  · have hpar : parseBuffer mem = .ok (true, 0, 0) := by
      rw [parseBuffer, if_neg h5, hflag, if_pos hbit]
    rw [hpar]
    refine iff_of_true ⟨hs, hfin, hlen, hpos, hbit.symm, fun _ => ⟨rfl, rfl⟩, ?_⟩ (.inl hbit)
    intro h
    cases h
  · have hcle : hasHeartbeatBit data = false := Bool.eq_false_iff.mpr hbit
    rw [or_iff_right hbit]
    rw [parseBuffer, if_neg h5, hflag, hcle]
    constructor
    · intro h
      split at h
      · cases ‹false = true›
      split at h
      · exact absurd rfl h
      · exact (h.inside.message rfl).1
    · intro h14
      have hrt := routeOf_take mem h14
      have hseq := seqOf_take mem h14
      rw [hmem] at hrt hseq
      have hroom : ¬ mem.length < defaultSizeBytes + defaultHeaderBytes + defaultRouteBytes + 8 :=
        Nat.not_lt.mpr (h14.trans hle)
      rw [if_neg hroom]
      refine ⟨hs, hfin, hlen, hpos, hcle.symm, ?_, fun _ => ⟨h14, hrt.symm, hseq.symm⟩⟩
      intro h
      cases h

def LongEnough (data : List UInt8) : Prop := hasHeartbeatBit data = true ∨ commonBytes ≤ data.length

theorem prefixInRange_iff (s : Stream) : PrefixInRange s ↔
    Safe .outOfRange (splitFrame .big s) fun p => ∀ data, p.1 = some data → LongEnough data := by
  have h4 : sizeBytes = 4 := rfl
  unfold PrefixInRange splitFrame
  by_cases hsh : s.bytes.length < sizeBytes
  · rw [if_pos hsh]
    refine iff_of_true (.inl hsh) ?_
    intro h
    cases h
  rw [if_neg hsh, or_iff_right hsh]
  by_cases hzero : prefixOf .big s = 0
  · rw [if_pos hzero]
    refine iff_of_true ⟨by omega, .inl hzero⟩ ?_
    intro data h
    cases h
  rw [if_neg hzero, or_iff_right hzero]
  by_cases hhuge : 2 ^ 32 - 4 ≤ prefixOf .big s
  · rw [if_pos hhuge]
    exact iff_of_false (fun h => by omega) (fun h => h rfl)
  rw [if_neg hhuge, and_iff_right (by omega)]
  by_cases htru : s.bytes.length < prefixOf .big s + sizeBytes
  · rw [if_pos htru]
    refine iff_of_true (.inl htru) ?_
    intro h
    cases h
  have hlen : (s.bytes.take (prefixOf .big s + sizeBytes)).length =
      prefixOf .big s + sizeBytes := length_take_of_le (Nat.not_lt.mp htru)
  have hflag := hasHeartbeatBit_take (k := prefixOf .big s + sizeBytes) s.bytes (by omega)
  rw [if_neg htru, or_iff_right htru]
  constructor
  · intro h data hdata
    cases hdata
    rw [LongEnough, hflag, hlen]
    exact h
  · intro h
    have h := h _ rfl
    rwa [LongEnough, hflag, hlen] at h

theorem readsFrame_iff_longEnough (h : splitFrame .big s = .ok (some data, t))
    (hmem : mem.take data.length = data) :
    ReadsFrame s ((parseBuffer mem).map fun q => (⟨q.1, q.2.1, q.2.2, data⟩, t)) ↔
      LongEnough data := by
  obtain ⟨hs, hfin, hlen, hpos, -⟩ := splitFrame_eq_some h
  exact readsFrame_parse_iff hmem hlen hpos hs hfin

theorem readMessage_readsFrame_iff (s : Stream) :
    ReadsFrame s (readMessage s) ↔ PrefixInRange s := by
  rw [prefixInRange_iff, readMessage, readFrame_eq]
  rcases hsp : splitFrame .big s with e | ⟨_ | data, t⟩
  · exact Iff.rfl
  · refine iff_of_true ?_ ?_
    · intro h
      cases h
    · intro data h
      cases h
  · have hread := readsFrame_iff_longEnough hsp (take_length)
    constructor
    · intro h data' hdata
      cases hdata
      exact hread.mp h
    · intro h
      exact hread.mpr (h data rfl)

theorem readAndParse_readsFrame_iff (pool : BytesPool) (s : Stream) :
    ReadsFrame s (readAndParse pool s) ↔ PrefixInRange s := by
  have hsp := readFrameBuffer_eq pool .big s
  rw [prefixInRange_iff, ← hsp, readAndParse, readerBuffer]
  rcases hbuf : readFrameBuffer pool .big s with e | ⟨_ | b, t⟩
  · exact Iff.rfl
  · refine iff_of_true ?_ ?_
    · intro h
      cases h
    · intro data h
      cases h
  · rw [hbuf] at hsp
    have hmem : b.buf.take b.bytes.length = b.bytes := by
      rw [Bytes.bytes, length_take, take_eq_take_iff, Nat.min_assoc, Nat.min_self]
    have hread := readsFrame_iff_longEnough hsp.symm hmem
    constructor
    · intro h data hdata
      cases hdata
      exact hread.mp h
    · intro h
      exact hread.mpr (h b.bytes rfl)

end Total

theorem readMessage_eq_ok {s t : Stream} {f : Frame} (h : readMessage s = .ok (f, t)) :
    splitFrame .big s = .ok (some f.data, t) ∧
      parseBuffer f.data = .ok (f.isHeartbeat, f.route, f.seq) := by
  rw [readMessage, readFrame_eq] at h
  rcases hsp : splitFrame .big s with e | ⟨_ | data, t'⟩
  · rw [hsp] at h
    cases h
  · rw [hsp] at h
    cases h
  rw [hsp] at h
  simp only [bind, Except.bind] at h
  split at h
  · cases h
  rename_i hpar
  cases h
  exact ⟨rfl, hpar⟩

theorem readMessage_append {data rest : List UInt8} {fin : StreamErr} {isHeartbeat : Bool}
    {route : UInt8} {seq : UInt64}
    (hsize : data.length = natBE (data.take sizeBytes) + sizeBytes)
    (hpos : sizeBytes < data.length) (hlt : data.length < 2 ^ 32)
    (hpar : parseBuffer data = .ok (isHeartbeat, route, seq)) :
    readMessage ⟨data ++ rest, fin⟩ =
      .ok (⟨isHeartbeat, route, seq, data⟩, ⟨rest, fin⟩) := by
  have hsp : splitFrame .big ⟨data ++ rest, fin⟩ = .ok (some data, ⟨rest, fin⟩) :=
    splitFrame_append hsize hpos hlt
  simp only [readMessage, readFrame_eq, hsp, bind, Except.bind, hpar]
  rfl

/-- On every stream the two readers return an error or the first frame exactly if the size
prefix is in range. Otherwise they panic, or `ParseBuffer` takes the sequence number from behind
the frame. -/
theorem readers_total_iff (pool : BytesPool) (s : Stream) :
    (ReadsFrame s (readMessage s) ↔ PrefixInRange s) ∧
      (ReadsFrame s (readAndParse pool s) ↔ PrefixInRange s) :=
  ⟨readMessage_readsFrame_iff s, readAndParse_readsFrame_iff pool s⟩

/-- Five bytes with the size 1 and no heartbeat flag: there is no route to read. -/
theorem readMessage_panics_on_short_frame :
    readMessage ⟨[0, 0, 0, 1, 0], .eof⟩ = .error .outOfRange ∧
      readMessage ⟨[255, 255, 255, 255], .eof⟩ = .error .outOfRange := by
  decide

end DueServer.Protocol
