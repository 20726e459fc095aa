import DueServer.LinkRounds

/-! What `DeliverRequest` reports about a frame: the calls of the client it makes, and when a nil
error means that one of them succeeded. -/
namespace DueServer.Link

open Buffer List

namespace NodeLinker

variable {l : NodeLinker} {route : Route} {round : Round} {b : Option (List UInt8)} {c : Call}

/-- Before a round: every call so far was given the frame and failed, and the buffer holds the frame
again. -/
structure Pending (b : Option (List UInt8)) (c : Call) : Prop where
  buf : c.buf.map Nocopy.bytes = some (b.getD [])
  failed : ∀ a ∈ c.attempts, a.carried = some (b.getD []) ∧ a.err ≠ none
  room : c.attempts.length ≤ 1

structure Finished (b : Option (List UInt8)) (attempts : List Attempt) : Prop where
  carried : ∀ a ∈ attempts, a.carried = some (b.getD [])
  failed : ∀ a ∈ attempts.dropLast, a.err ≠ none
  room : attempts.length ≤ 2

def Honest (err : Option LinkErr) (attempts : List Attempt) : Prop :=
  err = none ↔ ∃ a ∈ attempts, a.err = none

structure Delivered (b : Option (List UInt8)) (err : Option LinkErr) (attempts : List Attempt)
    (lost : Prop) : Prop where
  finished : Finished b attempts
  honest : Honest err attempts ↔ ¬ lost

theorem pending_new (b : Option (List UInt8)) : Pending b (.new (.buffer [.node (b.getD [])])) where
  buf := congrArg some (Nocopy.bytes_writer _)
  failed := fun a ha => by cases ha
  room := Nat.zero_le 1

theorem pending_again {client : String} (hrty : Retries b round client) :
    Pending b (((Call.new (.buffer [.node (b.getD [])])).give round client).rebuild b) where
  buf := congrArg some (Nocopy.bytes_writer _)
  failed := fun a ha => by
    rw [mem_singleton.mp ha]
    exact ⟨(pending_new b).buf, hrty.2⟩
  room := Nat.le_refl 1

namespace Pending

variable (h : Pending b c)

include h

theorem finished : Finished b c.attempts where
  carried := fun a ha => (h.failed a ha).1
  failed := fun a ha => (h.failed a (dropLast_subset _ ha)).2
  room := h.room.trans (Nat.le_succ 1)

theorem no_success : ¬ ∃ a ∈ c.attempts, a.err = none :=
  fun ⟨a, ha, herr⟩ => (h.failed a ha).2 herr

theorem delivered_error {e : LinkErr} {lost : Prop} (hnot : ¬ lost) :
    Delivered b (some e) c.attempts lost where
  finished := h.finished
  honest := iff_of_true (iff_of_false nofun h.no_success) hnot

theorem delivered_give (round : Round) (client : String) {lost : Prop} (hnot : ¬ lost) :
    Delivered b (round.deliver client) (c.give round client).attempts lost := by
  refine ⟨⟨fun a ha => ?_, fun a ha => ?_, ?_⟩, iff_of_true ⟨fun herr => ?_, ?_⟩ hnot⟩
  · rcases mem_append.mp ha with ha | ha
    · exact (h.failed a ha).1
    · rw [mem_singleton.mp ha]
      exact h.buf
  · rw [Call.give, dropLast_concat] at ha
    exact (h.failed a ha).2
  · rw [Call.give, length_append]
    exact Nat.succ_le_succ h.room
  · exact ⟨_, mem_append_right _ (mem_singleton_self _), herr⟩
  · rintro ⟨a, ha, herr⟩
    rcases mem_append.mp ha with ha | ha
    · exact absurd herr (h.failed a ha).2
    · rw [mem_singleton.mp ha] at herr
      exact herr

/-- The last round is reported as it is, unless the user stays at the node of the round before. -/
theorem delivered_result (round : Round) (x : RoundEnd) :
    Delivered b (x.result b round c).1 (x.result b round c).2.attempts (x = .stays) := by
  cases x with
  | stops | skips => exact h.delivered_error fun hx => by cases hx
  | stays => exact ⟨h.finished, iff_of_false (fun honest => h.no_success (honest.mp rfl)) (· rfl)⟩
  | calls nid client =>
    have hatt : (deliverFn b round client c).2.attempts = (c.give round client).attempts := by
      simp only [deliverFn]
      split <;> rfl
    rw [RoundEnd.result, hatt]
    exact h.delivered_give round client fun hx => by cases hx

end Pending

variable (l) (route) (b)

/-- The first round located a node and then failed in a way that is tried again: the client could
not be built, or its call failed and the frame is at hand. -/
def RetriesAfter (round : Round) (nid : String) : Prop :=
  l.locateNode round = .ok nid ∧ nid ≠ "" ∧ ∃ address, round.endpoint nid = .ok address ∧
    (round.build address ≠ none ∨ b ≠ none ∧ round.deliver address ≠ none)

variable (rounds : Round × Round)

def SameNodeAgain : Prop :=
  route.stateful = true ∧ (l.locateNode rounds.1 = .ok "" ∨
    ∃ nid, RetriesAfter l b rounds.1 nid ∧ l.locateNode rounds.2 = .ok nid)

theorem sameNodeAgain_iff : SameNodeAgain l route b rounds ↔
    l.roundEnd route rounds.1 "" = .stays ∨
      ∃ nid, l.Moves b route rounds.1 nid ∧ l.roundEnd route rounds.2 nid = .stays := by
  constructor
  · rintro ⟨hsf, hnode | ⟨nid, hrty, hnode⟩⟩
    · exact .inl (stays_iff.mpr ⟨hsf, hnode⟩)
    · exact .inr ⟨nid, (moves_iff hsf).mpr hrty, stays_iff.mpr ⟨hsf, hnode⟩⟩
  · rintro (hstay | ⟨nid, hmov, hstay⟩) <;> obtain ⟨hsf, hnode⟩ := stays_iff.mp hstay
    · exact ⟨hsf, .inl hnode⟩
    · exact ⟨hsf, .inr ⟨nid, (moves_iff hsf).mp hmov, hnode⟩⟩

theorem delivered_results :
    Delivered b (l.results b route rounds (.new (.buffer [.node (b.getD [])]))).1
      (l.results b route rounds (.new (.buffer [.node (b.getD [])]))).2.attempts
      (SameNodeAgain l route b rounds) := by
  rw [sameNodeAgain_iff]
  unfold results Moves
  cases l.roundEnd route rounds.1 "" with
  | stops => exact (pending_new b).delivered_error (by simp)
  | stays => simpa [RoundEnd.result] using (pending_new b).delivered_result rounds.1 .stays
  | skips nid e =>
    simpa using (pending_new b).delivered_result rounds.2 (l.roundEnd route rounds.2 nid)
  | calls nid client =>
    by_cases hrty : Retries b rounds.1 client
    · simpa [hrty] using (pending_again hrty).delivered_result rounds.2
        (l.roundEnd route rounds.2 nid)
    · simpa [hrty] using (pending_new b).delivered_give rounds.1 client not_false

variable (args : DeliverArgs)

/-- A request without a node id, on a stateful route that it may use, whose user is located at the
empty id or again at the node that failed. -/
def LosesTrack : Prop :=
  args.nid = "" ∧ ∃ route, l.routes args.route = some route ∧ args.uid ≠ 0 ∧
    ¬ (l.isGate = true ∧ route.internal = true) ∧ SameNodeAgain l route b rounds

variable {l b rounds args}

theorem losesTrack_iff (hnid : args.nid = "") : LosesTrack l b rounds args ↔
    ∃ route, l.routes args.route = some route ∧ l.Admits args.uid route ∧
      SameNodeAgain l route b rounds := by
  rw [LosesTrack, and_iff_right hnid]
  refine exists_congr fun route => and_congr_right fun _ => ?_
  -- a stateful route is only reached with a user
  constructor
  · rintro ⟨huid, hgate, hsame⟩
    exact ⟨⟨fun h => huid h.1, hgate⟩, hsame⟩
  · rintro ⟨⟨huid, hgate⟩, hsame⟩
    exact ⟨fun h => huid ⟨h, .inl hsame.1⟩, hgate, hsame⟩

theorem Finished.successes_le {attempts : List Attempt} (h : Finished b attempts) :
    (attempts.countP fun a => a.err.isNone) ≤ 1 := by
  have hfld : (attempts.dropLast.countP fun a => a.err.isNone) = 0 := by
    rw [countP_eq_zero]
    intro a ha hnone
    exact h.failed a ha (Option.isNone_iff_eq_none.mp hnone)
  rcases eq_nil_or_concat attempts with rfl | ⟨init, last, rfl⟩
  · exact Nat.zero_le _
  rw [concat_eq_append, dropLast_concat] at hfld
  rw [concat_eq_append, countP_append, hfld, Nat.zero_add]
  exact countP_le_length

theorem sent_strict (c : Call) (err : Option LinkErr) : (c.sent true err).err = err := by
  cases err <;> rfl

theorem delivered_send (l : NodeLinker) (rounds : Round × Round) (args : DeliverArgs)
    (b : Option (List UInt8)) :
    Delivered b (l.send rounds args true (.buffer [.node (b.getD [])]) b).err
      (l.send rounds args true (.buffer [.node (b.getD [])]) b).attempts
      (LosesTrack l b rounds args) := by
  by_cases hnid : args.nid = ""
  · rw [losesTrack_iff hnid]
    rcases send_cases l rounds hnid true (.buffer [.node (b.getD [])]) b with
      ⟨route, hroute, hadm, hsend⟩ | ⟨hnot, e, hsend⟩
    · rw [hsend, sent_strict, sent_attempts]
      simpa [hroute, hadm] using delivered_results l route b rounds
    · rw [hsend, sent_strict, sent_attempts]
      exact (pending_new b).delivered_error fun ⟨route, hroute, hadm, _⟩ => hnot route hroute hadm
  · have hlost : ¬ LosesTrack l b rounds args := fun h => hnid h.1
    rw [send, if_pos hnid]
    split
    · exact (pending_new b).delivered_error hlost
    · exact (pending_new b).delivered_give rounds.1 _ hlost

/-- At most two calls, all with the bytes of the frame, of which at most one succeeds. A nil error
means that one did, and an error that none did, exactly if the linker does not lose track: where the
user is located again at the failed node, the look-up has set the error to nil. -/
theorem deliverRequest_reports_iff (l : NodeLinker) (rounds : Round × Round) (nid : String)
    (uid : Int64) (routeID : Int32) (b : Option (List UInt8)) :
    ∃ sent, l.deliverRequest rounds ⟨nid, uid, routeID, .bytes b⟩ = some sent ∧
      sent.attempts.length ≤ 2 ∧ (sent.attempts.countP fun a => a.err.isNone) ≤ 1 ∧
      (∀ a ∈ sent.attempts, a.carried = some (b.getD [])) ∧
      ((sent.err = none ↔ ∃ a ∈ sent.attempts, a.err = none) ↔
        ¬ LosesTrack l b rounds ⟨nid, uid, routeID, .bytes b⟩) := by
  have h := delivered_send l rounds ⟨nid, uid, routeID, .bytes b⟩ b
  exact ⟨_, rfl, h.finished.room, h.finished.successes_le, h.finished.carried, h.honest⟩

/-- The node of the user refuses the frame, and the locator names it again. -/
theorem deliverRequest_nil_without_delivery : ∃ sent, NodeLinker.deliverRequest
      ⟨true, true, fun _ => some ⟨false, true, true⟩, fun _ => none⟩
      (⟨some "game-1", .ok "game-1", fun _ => .ok "10.0.0.1", fun _ => none,
          fun _ => some (.external 1)⟩,
        ⟨none, .ok "game-1", fun _ => .ok "10.0.0.1", fun _ => none, fun _ => some (.external 1)⟩)
      ⟨"", 42, 99, .bytes (some [104, 105])⟩ = some sent ∧ sent.err = none ∧
    sent.attempts.map (fun a => (a.carried, a.err)) = [(some [104, 105], some (.external 1))] :=
  ⟨_, rfl, by decide, by decide⟩

end NodeLinker

end DueServer.Link
