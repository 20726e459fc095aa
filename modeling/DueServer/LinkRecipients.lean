import DueServer.LinkRounds

/-! The clients to which `NodeLinker.deliver` hands a frame. -/
namespace DueServer.Link

open Buffer List

def Attempt.handed (a : Attempt) : Round × String := (a.round, a.client)

namespace NodeLinker

variable (l : NodeLinker)

def recipient (route : Route) (round : Round) (prev : String) : List (Round × String) :=
  match l.roundEnd route round prev with
  | .calls _ client => [(round, client)]
  | _ => []

variable {l} {route : Route} {round : Round} {handed : Round × String} {b : Option (List UInt8)}

theorem mem_recipient {prev : String} : handed ∈ l.recipient route round prev ↔
      ∃ nid client, l.roundEnd route round prev = .calls nid client ∧ handed = (round, client) := by
  unfold recipient
  cases l.roundEnd route round prev with
  | calls | _ => simp

theorem handed_result (prev : String) (c : Call) :
    ((l.roundEnd route round prev).result b round c).2.attempts.map Attempt.handed =
      c.attempts.map Attempt.handed ++ l.recipient route round prev := by
  unfold recipient
  cases l.roundEnd route round prev with
  | stops | stays | skips => exact (append_nil _).symm
  | calls nid client =>
    simp only [RoundEnd.result, deliverFn]
    split <;> exact map_append

theorem mem_results (rounds : Round × Round) (buf : Nocopy) :
    handed ∈ (l.results b route rounds (.new buf)).2.attempts.map Attempt.handed ↔
      handed ∈ l.recipient route rounds.1 "" ∨
        ∃ prev, l.Moves b route rounds.1 prev ∧ handed ∈ l.recipient route rounds.2 prev := by
  unfold results Moves
  rw [recipient]
  cases l.roundEnd route rounds.1 "" with
  | stops | stays => simp [Call.new]
  | skips => simp [handed_result, Call.new]
  | calls nid client =>
    by_cases hrty : Retries b rounds.1 client
    · simp [hrty, handed_result, Call.new, Call.give, Call.rebuild, Attempt.handed]
    · simp [hrty, Call.new, Call.give, Attempt.handed]

theorem mem_send (rounds : Round × Round) (args : DeliverArgs) (strict : Bool) (buf : Nocopy) :
    handed ∈ (l.send rounds args strict buf b).attempts.map Attempt.handed ↔
      if args.nid = "" then
        ∃ route, l.routes args.route = some route ∧ l.Admits args.uid route ∧
          (handed ∈ l.recipient route rounds.1 "" ∨
            ∃ prev, l.Moves b route rounds.1 prev ∧ handed ∈ l.recipient route rounds.2 prev)
      else handed.1 = rounds.1 ∧ l.doBuildClient rounds.1 args.nid = .ok handed.2 := by
  by_cases hnid : args.nid = ""
  · rw [if_pos hnid]
    rcases send_cases l rounds hnid strict buf b with
      ⟨route, hroute, hadm, hsend⟩ | ⟨hnot, e, hsend⟩
    · rw [hsend, sent_attempts, mem_results]
      simp [hroute, hadm]
    · rw [hsend, sent_attempts]
      refine iff_of_false not_mem_nil ?_
      rintro ⟨route, hroute, hadm, -⟩
      exact hnot route hroute hadm
  · rw [send, if_pos hnid, if_neg hnid]
    cases l.doBuildClient rounds.1 args.nid with
    | error => exact iff_of_false not_mem_nil fun h => by cases h.2
    | ok =>
      rw [Except.ok.injEq, eq_comm (b := handed.2), ← Prod.ext_iff (y := (rounds.1, _))]
      exact mem_singleton

end NodeLinker

end DueServer.Link
