import DueServer.ClientConnModel

/-! The counter `total` of `conn.send` and `conn.write` with a write timeout
(`internal/transporter/internal/client/conn.go`), over all interleavings of senders and writers. -/
namespace DueServer.Client.Counter

structure State where
  total : Int32 := 0
  queue : ℕ := 0
  /-- sends that have raised `total`, with the choice they make by its value -/
  direct : ℕ := 0
  timed : ℕ := 0
  /-- messages taken from the queue for which `total` is not lowered yet -/
  taken : ℕ := 0

inductive Act where
  | raise
  | enqueue
  | enqueueTimed
  /-- the timeout, or the end of the context of the connection -/
  | fail
  | take
  /-- a send and a writer meet at an unbuffered queue -/
  | meet
  | meetTimed
  | lower
deriving DecidableEq

namespace State

variable (size : Int32) (s : State)

/-- Whether a send that starts now takes the path with the timeout. -/
def overfull : Bool := s.total + 1 > size

def next : Act → Option State
  | .raise =>
    let s' := { s with total := s.total + 1 }
    some (if s.overfull size then { s' with timed := s.timed + 1 } else
      { s' with direct := s.direct + 1 })
  | .enqueue =>
    if 0 < s.direct ∧ s.queue < size.toNatClampNeg then
      some { s with direct := s.direct - 1, queue := s.queue + 1 }
    else none
  | .enqueueTimed =>
    if 0 < s.timed ∧ s.queue < size.toNatClampNeg then
      some { s with timed := s.timed - 1, queue := s.queue + 1 }
    else none
  | .fail => if 0 < s.timed then some { s with timed := s.timed - 1 } else none
  | .take =>
    if 0 < s.queue then some { s with queue := s.queue - 1, taken := s.taken + 1 } else none
  | .meet =>
    if 0 < s.direct ∧ size = 0 then some { s with direct := s.direct - 1, taken := s.taken + 1 }
    else none
  | .meetTimed =>
    if 0 < s.timed ∧ size = 0 then some { s with timed := s.timed - 1, taken := s.taken + 1 }
    else none
  | .lower => if 0 < s.taken then some { s with total := s.total - 1, taken := s.taken - 1 }
    else none

def Quiet : Prop := s.direct = 0 ∧ s.timed = 0 ∧ s.taken = 0

structure Counted : Prop where
  total : s.total = Int32.ofNat (s.queue + s.direct + s.timed + s.taken)
  queue : s.queue ≤ size.toNatClampNeg

variable {size s}

theorem Counted.next {act : Act} {s' : State} (hs : Counted size s) (hact : act ≠ .fail)
    (h : s.next size act = some s') : Counted size s' := by
  obtain ⟨htot, hqu⟩ := hs
  cases act with
  | fail => exact absurd rfl hact
  | raise =>
    cases h
    have hrai : s.total + 1 = Int32.ofNat (s.queue + s.direct + s.timed + s.taken + 1) :=
      htot ▸ (Int32.ofNat_add _ 1).symm
    split_ifs <;> exact ⟨hrai.trans (congrArg _ (by dsimp only; omega)), hqu⟩
  | lower =>
    obtain ⟨hpos, rfl⟩ := by simpa [State.next] using h
    refine ⟨?_, hqu⟩
    have hsum : s.queue + s.direct + s.timed + s.taken =
        s.queue + s.direct + s.timed + (s.taken - 1) + 1 := by omega
    rw [htot, hsum, Int32.ofNat_add]
    exact Int32.add_sub_cancel _ _
  | enqueue | enqueueTimed =>
    obtain ⟨⟨hpos, hlt⟩, rfl⟩ := by simpa [State.next] using h
    exact ⟨htot.trans (congrArg _ (by dsimp only; omega)), hlt⟩
  | meet | meetTimed =>
    obtain ⟨⟨hpos, -⟩, rfl⟩ := by simpa [State.next] using h
    exact ⟨htot.trans (congrArg _ (by dsimp only; omega)), hqu⟩
  | take =>
    obtain ⟨hpos, rfl⟩ := by simpa [State.next] using h
    exact ⟨htot.trans (congrArg _ (by dsimp only; omega)), by dsimp only; omega⟩

/-- What happens to the queue is a step of `send` or `write` in the model of the connection. -/
theorem queued_next {act : Act} {s' : State} (h : s.next size act = some s') (line : Shared)
    (hqu : line.queued = s.queue) : ∃ line', line'.queued = s'.queue ∧ (line' = line ∨
      (line.step (.caller 0) .queueing .ok).map (·.shared) = some line' ∨
      (line.step (.writer 0) (.selecting 0) .ok).map (·.shared) = some line') := by
  cases act with
  | raise =>
    cases h
    refine ⟨line, ?_, .inl rfl⟩
    split_ifs <;> exact hqu
  | enqueue | enqueueTimed =>
    obtain ⟨-, rfl⟩ := by simpa [State.next] using h
    exact ⟨_, congrArg (· + 1) hqu, .inr (.inl rfl)⟩
  | take =>
    obtain ⟨hpos, rfl⟩ := by simpa [State.next] using h
    refine ⟨{ line with queued := line.queued - 1 }, congrArg (· - 1) hqu, .inr (.inr ?_)⟩
    simp [Shared.step, Shared.stepWrite, hqu, hpos]
  | fail | meet | meetTimed | lower =>
    obtain ⟨-, rfl⟩ := by simpa [State.next] using h
    exact ⟨line, hqu, .inl rfl⟩

theorem Counted.run {acts : List Act} {s' : State} (hs : Counted size s) (hacts : .fail ∉ acts)
    (h : acts.foldlM (State.next size) s = some s') : Counted size s' := by
  induction acts generalizing s with
  | nil =>
    cases h
    exact hs
  | cons act acts ih =>
    rw [List.mem_cons, not_or] at hacts
    rw [List.foldlM_cons] at h
    obtain ⟨s₁, hstep, hrest⟩ := Option.bind_eq_some_iff.mp h
    exact ih (hs.next (Ne.symm hacts.1) hstep) hacts.2 hrest

/-- As long as no send fails, `total` is the number of messages in the queue whenever nothing is
going on, and a send is timed then only if the queue is full. -/
theorem total_eq_queue (size : Int32) (acts : List Act) (s : State)
    (h : acts.foldlM (State.next size) {} = some s) (hacts : .fail ∉ acts) (hquiet : s.Quiet) :
    s.total = Int32.ofNat s.queue ∧ (s.overfull size = true → s.queue = size.toNatClampNeg) := by
  have hstr : Counted size {} := ⟨rfl, Nat.zero_le _⟩
  obtain ⟨htot, hqu⟩ := hstr.run hacts h
  obtain ⟨hdir, htim, htak⟩ := hquiet
  rw [hdir, htim, htak] at htot
  refine ⟨htot, fun hover => ?_⟩
  by_contra hne
  have hrai : s.total + 1 = Int32.ofNat (s.queue + 1) := htot ▸ (Int32.ofNat_add _ 1).symm
  have hsize : size.toInt < 2 ^ 31 := Int32.toInt_lt size
  have hcla : size.toNatClampNeg = size.toInt.toNat := rfl
  rw [overfull, decide_eq_true_eq, hrai, gt_iff_lt, Int32.lt_iff_toInt_lt,
    Int32.toInt_ofNat_of_lt (by omega)] at hover
  omega

/-- A message is taken while the next one is sent. -/
theorem counted_after_take : ({ total := 1, queue := 1 } : State).total = Int32.ofNat 1 :=
  (total_eq_queue 1 [.raise, .enqueue, .raise, .take, .enqueueTimed, .lower]
    { total := 1, queue := 1 }
    rfl (by decide) (by simp [Quiet])).1

/-- One failed send into a full queue, and the empty queue is counted as full for good. -/
theorem failed_send_counted : ∃ s,
    [.raise, .enqueue, .raise, .fail, .take, .lower].foldlM (next 1) {} = some s ∧
      s.Quiet ∧ s.queue = 0 ∧ s.total = 1 ∧ s.overfull 1 = true :=
  ⟨{ total := 1 }, rfl, by simp [Quiet], rfl, rfl, by decide⟩

end State

end DueServer.Client.Counter
