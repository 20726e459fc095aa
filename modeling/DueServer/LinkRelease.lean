import DueServer.LinkRounds

/-! The buffers of `NodeLinker.deliver`: the one it is given or builds, and the one that the closure
builds again for the second round. -/
namespace DueServer.Link

open Buffer

namespace Sent

variable (s : Sent)

def queued : List ℕ := s.attempts.map Attempt.buffer

/-- Every buffer is released once, where the writers release those they have `taken`. -/
def ReleasedOnce (taken : ℕ → Bool) : Prop :=
  (s.released ++ s.queued.filter taken).Perm (List.range s.built)

def Placed : Prop := (s.released ++ s.queued).Perm (List.range s.built)

theorem releasedOnce_iff : (∀ taken, s.ReleasedOnce taken ↔ ∀ k ∈ s.queued, taken k = true) ↔
    s.Placed := by
  have hall {taken : ℕ → Bool} (h : ∀ k ∈ s.queued, taken k = true) :
      s.ReleasedOnce taken ↔ s.Placed := by
    unfold ReleasedOnce Placed
    rw [List.filter_eq_self.mpr h]
  constructor
  · intro h
    exact (hall fun _ _ => rfl).mp ((h fun _ => true).mpr fun _ _ => rfl)
  · refine fun hplaced taken => ⟨fun honce => ?_, fun h => (hall h).mpr hplaced⟩
    -- one that is not taken is missing
    have hlen := honce.length_eq.trans hplaced.length_eq.symm
    rw [List.length_append, List.length_append] at hlen
    exact List.length_filter_eq_length_iff.mp (Nat.add_left_cancel hlen)

end Sent

namespace NodeLinker

variable (l : NodeLinker)

/-- The rounds leave a buffer behind: `doRPC` returns nil although no client was called, or the
buffer for the second round is not given to a client. -/
def LoopLeaks (route : Route) (rounds : Round × Round) (retryBytes : Option (List UInt8)) : Prop :=
  match l.roundEnd route rounds.1 "" with
  | .stops _ => False
  | .stays => True
  | .skips nid _ =>
    match l.roundEnd route rounds.2 nid with
    | .stays => True
    | .calls _ client => Retries retryBytes rounds.2 client
    | _ => False
  | .calls nid client =>
    Retries retryBytes rounds.1 client ∧
      match l.roundEnd route rounds.2 nid with
      | .calls .. => False
      | _ => True

section Loop

variable {l} {route : Route} {b : Option (List UInt8)} {round : Round} {client nid : String}
  (strict : Bool) (buf : Nocopy)

theorem placed_uncalled {err : Option LinkErr} :
    ((Call.new buf).sent strict err).Placed ↔ err ≠ none := by
  cases err with
  | none => exact iff_of_false (by decide : ¬ [].Perm (List.range 1)) fun h => h rfl
  | some e => exact iff_of_true (.refl [0]) (Option.some_ne_none e)

/-- Once a client was called, `deliver` releases nothing itself. -/
theorem placed_called {c : Call} (hcalled : c.isDeliver = true) (err : Option LinkErr) :
    (c.sent strict err).Placed ↔ (c.attempts.map Attempt.buffer).Perm (List.range c.built) := by
  cases err with
  | none => rfl
  | some =>
    unfold Sent.Placed Call.sent
    rw [hcalled]
    rfl

theorem placed_give (err : Option LinkErr) :
    (((Call.new buf).give round client).sent strict err).Placed :=
  (placed_called strict rfl err).mpr (.refl [0])

theorem not_placed_again (err : Option LinkErr) :
    ¬ ((((Call.new buf).give round client).rebuild b).sent strict err).Placed := fun h =>
  absurd ((placed_called strict rfl err).mp h) (by decide : ¬ [0].Perm (List.range 2))

theorem placed_skipped (x : RoundEnd) :
    ((x.result b round (.new buf)).2.sent strict (x.result b round (.new buf)).1).Placed ↔
      ¬ match x with
        | .stays => True
        | .calls _ client => Retries b round client
        | _ => False := by
  cases x with
  | stops e | skips nid e =>
    exact iff_of_true ((placed_uncalled strict buf).mpr (Option.some_ne_none e)) not_false
  | stays =>
    exact iff_of_false (fun h => (placed_uncalled strict buf).mp h rfl) fun h => h trivial
  | calls nid client =>
    simp only [RoundEnd.result]
    by_cases hrty : Retries b round client
    · rw [deliverFn_of_retries rfl hrty]
      exact iff_of_false (not_placed_again strict buf _) fun h => h hrty
    · rw [deliverFn_of_not fun _ => hrty]
      exact iff_of_true (placed_give strict buf _) hrty

theorem placed_retried (x : RoundEnd) {round' : Round} {c : Call}
    (hc : c = ((Call.new buf).give round client).rebuild b) :
    ((x.result b round' c).2.sent strict (x.result b round' c).1).Placed ↔
      ¬ match x with
        | .calls .. => False
        | _ => True := by
  subst hc
  cases x with
  | stops | stays | skips =>
    exact iff_of_false (not_placed_again strict buf _) fun h => h trivial
  | calls nid client =>
    simp only [RoundEnd.result]
    rw [deliverFn_of_not fun htri => absurd htri (Nat.succ_ne_zero 0)]
    exact iff_of_true ((placed_called strict rfl _).mpr (.refl [0, 1])) not_false

theorem placed_results_iff (rounds : Round × Round) :
    ((l.results b route rounds (.new buf)).2.sent strict
      (l.results b route rounds (.new buf)).1).Placed ↔ ¬ l.LoopLeaks route rounds b := by
  unfold results LoopLeaks
  cases l.roundEnd route rounds.1 "" with
  | stops e =>
    exact iff_of_true ((placed_uncalled strict buf).mpr (Option.some_ne_none e)) not_false
  | stays =>
    exact iff_of_false (fun h => (placed_uncalled strict buf).mp h rfl) fun h => h trivial
  | skips => exact placed_skipped strict buf _
  | calls nid client =>
    simp only
    by_cases hrty : Retries b rounds.1 client
    · rw [if_pos hrty, and_iff_right hrty]
      exact placed_retried strict buf _ rfl
    · rw [if_neg hrty]
      exact iff_of_true (placed_give strict buf _) fun h => hrty h.1

end Loop

def Leaks (rounds : Round × Round) (args : DeliverArgs) (retryBytes : Option (List UInt8)) : Prop :=
  args.nid = "" ∧ ∃ route, l.routes args.route = some route ∧ l.Admits args.uid route ∧
    l.LoopLeaks route rounds retryBytes

def Accounts (rounds : Round × Round) (args : DeliverArgs) : Prop :=
  match args.buffer with
  | .bytes b => ¬ l.Leaks rounds args b
  | .buffer _ | .message (.ok _) => ¬ l.Leaks rounds args none
  | .message (.error _) => False
  | .other => True

theorem placed_send_iff (rounds : Round × Round) (args : DeliverArgs) (strict : Bool) (buf : Nocopy)
    (b : Option (List UInt8)) :
    (l.send rounds args strict buf b).Placed ↔ ¬ l.Leaks rounds args b := by
  by_cases hnid : args.nid = ""
  · rw [Leaks, and_iff_right hnid]
    rcases send_cases l rounds hnid strict buf b with
      ⟨route, hroute, hadm, hsend⟩ | ⟨hnot, e, hsend⟩
    · rw [hsend, placed_results_iff]
      simp [hroute, hadm]
    · rw [hsend]
      refine iff_of_true ((placed_uncalled strict buf).mpr (Option.some_ne_none e)) ?_
      exact fun ⟨route, hroute, hadm, _⟩ => hnot route hroute hadm
  · refine iff_of_true ?_ fun h => hnid h.1
    rw [send, if_pos hnid]
    cases l.doBuildClient rounds.1 args.nid <;> exact .refl [0]

theorem deliver_releases_iff (rounds : Round × Round) (args : DeliverArgs) (strict : Bool) :
    (∃ sent, l.deliver rounds args strict = some sent ∧
      ∀ taken, sent.ReleasedOnce taken ↔ ∀ k ∈ sent.queued, taken k = true) ↔
    l.Accounts rounds args := by
  simp only [Sent.releasedOnce_iff]
  unfold deliver Accounts
  cases args.buffer with
  | bytes | buffer => simp [placed_send_iff]
  | message packed => cases packed <;> simp [placed_send_iff]
  | other => exact iff_of_true ⟨_, rfl, .refl []⟩ trivial

end NodeLinker

end DueServer.Link
