import DueServer.ActorTerminate

/-! The registry has an actor under `PID()`, its kind and its id joined by a slash, and `load`,
`spawn` and `kill` find actors by that text alone. -/
namespace DueServer.Scheduler

open Lib

def State.Has (s : State) (a : ℕ) (kind id : String) : Prop :=
  (s.actors a).opts.kind = kind ∧ (s.actors a).opts.id = id

/-- Of the kinds that are `asked` for, `load` and `kill` get no actor of another kind or id, and
`ErrActorExists` is due to an actor of the same kind and id. -/
structure Identified (asked : String → Bool) (s : State) : Prop where
  load : ∀ kind id a, asked kind = true → s.load kind id = some a → s.Has a kind id
  spawn : ∀ a choice e, .locking a ∈ s.calls → s.effect choice (.locking a) = some e →
    e.calls = [] → ∃ b, s.registry (s.pid a) = some b ∧ s.Has b (s.kind a) (s.actors a).opts.id
  kill : ∀ kind id choice e, asked kind = true → .removing kind id ∈ s.calls →
    s.effect choice (.removing kind id) = some e →
      ∀ c ∈ e.calls, ∃ a, c.subject = some a ∧ s.Has a kind id

def noSlash (kind : String) : Bool := kind.toList.all (· != '/')

theorem eq_of_pid_eq {kind₁ kind₂ id₁ id₂ : String} (h₁ : noSlash kind₁ = true)
    (h₂ : noSlash kind₂ = true) (h : kind₁ ++ "/" ++ id₁ = kind₂ ++ "/" ++ id₂) :
    kind₁ = kind₂ ∧ id₁ = id₂ := by
  have hsp (kind id : String) (hkind : noSlash kind = true) :
      (kind ++ "/" ++ id).toList.span (· != '/') = (kind.toList, '/' :: id.toList) := by
    have hall : ∀ c ∈ kind.toList, (c != '/') = true := List.all_eq_true.mp hkind
    simp [List.takeWhile_append_of_pos hall, List.dropWhile_append_of_pos hall]
  have hspan := congrArg (fun p : String => p.toList.span (· != '/')) h
  simp only [hsp _ _ h₁, hsp _ _ h₂, Prod.mk.injEq, List.cons.injEq, true_and,
    String.toList_inj] at hspan
  exact hspan

/-- As long as no spawned kind has a slash, asking for a kind without one is safe. -/
theorem identified_without_slash (acts : List Act) (s : State)
    (h : Run (guardedRel State.step fun _ _ => true) State.init acts s)
    (hkinds : ∀ a < s.made, noSlash (s.kind a) = true) : Identified noSlash s := by
  have hs := Sound.run h
  have hload (kind id : String) (a : ℕ) (hkind : noSlash kind = true)
      (ha : s.load kind id = some a) : s.Has a kind id :=
    eq_of_pid_eq (hkinds a (hs.lt_made ha)) hkind (hs.named _ a ha)
  refine ⟨hload, ?_, ?_⟩
  · intro a choice e hmem he hcs
    obtain ⟨-, hmade⟩ := hs.matches_of_mem a .locking hmem (by simp)
    simp only [State.effect] at he
    split_ifs at he with hmu hfd
    · obtain ⟨b, hb⟩ := Option.isSome_iff_exists.mp hfd
      exact ⟨b, hb, hload _ _ b (hkinds a hmade) hb⟩
    cases he
    cases hcs
  · intro kind id choice e hkind _ he c hc
    cases does_of_effect he with
    | remove _ _ a hmu ha =>
      obtain rfl := List.mem_singleton.mp hc
      exact ⟨a, rfl, hload kind id a hkind ha⟩
    | absent => cases hc

def slashed : List Act :=
  [.spawn ⟨"1/2", "room", false, false, false, false, false⟩] ++ steps 5 0

theorem slashed_isSome : (exec State.step (fun _ _ => true) State.init slashed).isSome = true := rfl

theorem slashed_identified :
    let s := ((exec State.step (fun _ _ => true) State.init slashed).get slashed_isSome).2
    s.load "room" "1/2" = some 0 ∧ Identified noSlash s :=
  ⟨by decide +kernel,
    identified_without_slash _ _ (run_of_exec _ slashed_isSome) (by decide +kernel)⟩

/-- `load` finds the room as `2` of the kind `room/1`. -/
theorem slash_confuses_actors :
    ¬∀ acts s, Run (guardedRel State.step fun _ _ => true) State.init acts s →
      Identified (fun _ => true) s := by
  intro h
  have hhas := (h _ _ (run_of_exec _ slashed_isSome)).load "room/1" "2" 0 rfl (by decide +kernel)
  exact absurd hhas.1 (by decide +kernel)

end DueServer.Scheduler
