import DueServer.GateLinkRules

/-! How a push to one target ends when the target is alone, and when the context of its group is
cancelled. -/
namespace DueServer.Link

open GateLinker GateProg List Lib

namespace Target

variable (target : Target) (hasLocator : Bool)

def Sent : Prop := ∃ gid, target.reach hasLocator 1 "" = .calls gid

inductive Fate : Option GateErr → List (String × Option GateErr) → ℕ → Prop
  | unsent (hno : ¬ target.Sent hasLocator) (e : GateErr) : Fate (some e) [] 1
  | once {gid : String} (hfirst : target.reach hasLocator 1 "" = .calls gid)
      (hknown : target.callErr (.push true) 1 gid ≠ some .notFoundSession) :
      Fate (target.callErr (.push true) 1 gid) [(gid, target.callErr (.push true) 1 gid)] 2
  | same {gid : String} (hfirst : target.reach hasLocator 1 "" = .calls gid)
      (hdenied : target.callErr (.push true) 1 gid = some .notFoundSession)
      (hsecond : target.reach hasLocator 2 gid = .stays) :
        Fate none [(gid, some .notFoundSession)] 1
  | lost {gid : String} (hfirst : target.reach hasLocator 1 "" = .calls gid)
      (hdenied : target.callErr (.push true) 1 gid = some .notFoundSession) {e : GateErr}
      (hsecond : target.reach hasLocator 2 gid = .fails e) :
      Fate (some e) [(gid, some .notFoundSession)] 1
  | twice {gid gid' : String} (hfirst : target.reach hasLocator 1 "" = .calls gid)
      (hdenied : target.callErr (.push true) 1 gid = some .notFoundSession)
      (hsecond : target.reach hasLocator 2 gid = .calls gid') :
      Fate (target.callErr (.push true) 2 gid')
        [(gid, some .notFoundSession), (gid', target.callErr (.push true) 2 gid')] 2

variable {target hasLocator}

theorem play_releaseTimes (o : (q : Ask) → q.Answer) (n : ℕ) : ∀ t : Account,
    (releaseTimes n).play o t = ((), { t with releases := t.releases + n }) := by
  induction n with
  | zero => exact fun t => rfl
  | succ n ih =>
    intro t
    have hsum : t.releases + 1 + n = t.releases + (n + 1) := by omega
    exact (ih _).trans (by rw [← hsum]; rfl)

theorem play_pushHandler_ack (target : Target) (gid : String) (i : ℕ) (t : Account) :
    (pushHandler true gid i).play target.own t =
    if target.callErr (.push true) i gid = some .notFoundSession then
      ((true, none, target.callErr (.push true) i gid), { t with
        calls := t.calls ++ [(gid, target.callErr (.push true) i gid)]
        releases := t.releases + 1 })
    else
      ((false, none, target.callErr (.push true) i gid), { t with
        calls := t.calls ++ [(gid, target.callErr (.push true) i gid)]
        releases := t.releases + 1 + (2 - i) }) := by
  have hsnd : (target.own (.call (.push true) i gid)).2 = target.callErr (.push true) i gid := rfl
  rw [pushHandler, play_bind, play_clientCall]
  simp only [if_true, hsnd]
  split
  · rfl
  rw [play_bind, play_releaseTimes]
  rfl

theorem not_sent {x : Reach} (h : target.reach hasLocator 1 "" = x) (hx : ∀ gid, x ≠ .calls gid) :
    ¬ target.Sent hasLocator := fun ⟨gid, hgid⟩ => hx gid (h.symm.trans hgid)

theorem fate (target : Target) (hasLocator : Bool) : target.Fate hasLocator
    ((doPush hasLocator true).play target.own {}).1
    ((doPush hasLocator true).play target.own {}).2.calls
    ((doPush hasLocator true).play target.own {}).2.releases := by
  have hhan (gid : String) (i : ℕ) (t : Account) :=
    play_pushHandler_ack target gid i t
  unfold GateProg.play at hhan ⊢
  rw [doPush, Prog.run_bind, doRPC, run_rpcRounds Target.idle_play]
  cases hfst : target.reach hasLocator 1 "" with
  | fails e => exact .unsent (not_sent hfst fun _ h => by cases h) e
  | stays => exact absurd hfst reach_ne_stays
  | calls gid =>
    simp only [hhan]
    by_cases hden : target.callErr (.push true) 1 gid = some .notFoundSession
    · simp only [run_rpcRounds Target.idle_play, hden]
      cases hsnd : target.reach hasLocator 2 gid with
      | fails e => exact .lost hfst hden hsnd
      | stays => exact .same hfst hden hsnd
      | calls gid' =>
        have htwi := Fate.twice hfst hden hsnd
        simp only [hhan]
        by_cases hden' : target.callErr (.push true) 2 gid' = some .notFoundSession
        · simp only [if_pos hden']
          exact htwi
        simp only [if_neg hden']
        exact htwi
    · simp only [if_neg hden]
      exact .once hfst hden

inductive Sending (target : Target) (hasLocator : Bool) :
    Option GateErr → List (String × Option GateErr) → Prop
  | unsent (hno : ¬ target.Sent hasLocator) (e : GateErr) : Sending target hasLocator (some e) []
  | sent {gid : String} (hfirst : target.reach hasLocator 1 "" = .calls gid) :
      Sending target hasLocator (target.callErr (.push false) 1 gid)
        [(gid, target.callErr (.push false) 1 gid)]

theorem sending (target : Target) (hasLocator : Bool) : target.Sending hasLocator
    ((doPush hasLocator false).play target.own {}).1
    ((doPush hasLocator false).play target.own {}).2.calls := by
  unfold GateProg.play
  rw [doPush, Prog.run_bind, doRPC, run_rpcRounds Target.idle_play]
  cases hfst : target.reach hasLocator 1 "" with
  | fails e => exact .unsent (not_sent hfst fun _ h => by cases h) e
  | stays => exact absurd hfst reach_ne_stays
  | calls gid => exact .sent hfst

variable {ack : Bool} {gid : String} {r : Option GateErr} {calls : List (String × Option GateErr)}
  {n : ℕ}

theorem mixed_unsent (h : ¬ target.Sent hasLocator) :
    (doPush hasLocator ack).Ends target.mixed (fun t r => t.calls = [] ∧ r ≠ none) {} := by
  rw [doPush, Prog.ends_bind]
  refine mixed_rpcRounds ?_ ?_
  · intro _ _
    exact mixed_releaseTimes _ ⟨rfl, fun h => by cases h⟩
  · cases hfst : target.reach hasLocator 1 "" with
    | fails => exact mixed_releaseTimes _ ⟨rfl, fun h => by cases h⟩
    | stays => exact absurd hfst reach_ne_stays
    | calls gid => exact absurd ⟨gid, hfst⟩ h

theorem mixed_send (h : target.cached 1 ≠ none) :
    (doPush hasLocator false).Ends target.mixed (fun t r => target.Sending hasLocator r t.calls)
      {} := by
  by_cases hsent : target.Sent hasLocator
  · rw [doPush, Prog.ends_bind]
    refine mixed_rpcRounds (fun _ hnone => absurd hnone h) ?_
    obtain ⟨gid, hfst⟩ := hsent
    simp only [hfst]
    rw [pushHandler, Prog.ends_bind]
    refine mixed_clientCall ?_ fun hws => by cases hws
    exact .sent hfst
  · refine (mixed_unsent hsent).mono ?_
    rintro t r ⟨hcs, hr⟩
    obtain ⟨e, rfl⟩ := Option.ne_none_iff_exists'.mp hr
    rw [hcs]
    exact .unsent hsent e

theorem play_cut_locateGate (o : (q : Ask) → q.Answer) (i : ℕ) (t : Account)
    (hcch : o (.cached i) = target.cached i) (hcut : o (.locator i) = .error .canceled) :
    (locateGate true i).play o t =
      match target.cached i with
      | some gid => (.ok gid, t)
      | none => (.error .canceled, { t with seen := true }) := by
  unfold GateProg.play locateGate
  simp only [Bool.true_eq_false, if_false, Prog.run, hcch]
  cases target.cached i with
  | some => rfl
  | none =>
    have hseen : t.note (.locator i) (.error .canceled) = { t with seen := true } :=
      congrArg (fun seen => { t with seen := seen }) (Bool.or_true _)
    simp only [Prog.run, hcut]
    exact congrArg (Prod.mk _) hseen

theorem hasLocator_of_located (h : target.located hasLocator 1 = .ok gid) : hasLocator = true := by
  cases hasLocator with
  | true => rfl
  | false => cases h

theorem severed_unlocated (hnone : target.cached 1 = none) :
    ((doPush true ack).play target.severed {}).2.calls = [] := by
  rw [doPush, play_bind, doRPC, rpcRounds, play_bind,
    play_cut_locateGate target.severed 1 {} rfl rfl, hnone]
  rfl

theorem severed_cached (hsome : target.cached 1 = some gid) (hbd : target.buildErr 1 gid = none) :
    ((doPush true true).play target.severed {}).2.calls = [(gid, some .canceled)] := by
  have hne : gid ≠ "" := by
    rintro rfl
    exact GateCache.load_ne_empty _ _ hsome
  have hown : target.severed (.build 1 gid) = none := hbd
  rw [doPush, play_bind, doRPC, rpcRounds, play_bind,
    play_cut_locateGate target.severed 1 {} rfl rfl, hsome]
  simp only [if_neg hne]
  unfold GateProg.play
  simp only [Prog.run, hown]
  rfl

theorem Fate.head (h : target.Fate hasLocator r calls n) (hsent : target.Sent hasLocator) :
    ∃ gid err rest, calls = (gid, err) :: rest ∧ err ≠ some .canceled := by
  have hden : some GateErr.notFoundSession ≠ some .canceled := by decide
  cases h with
  | unsent hno => exact absurd hsent hno
  | once => exact ⟨_, _, _, rfl, callErr_ne_canceled⟩
  | _ => exact ⟨_, _, _, rfl, hden⟩

theorem Sending.head (h : target.Sending hasLocator r calls) (hsent : target.Sent hasLocator) :
    ∃ gid err rest, calls = (gid, err) :: rest ∧ err ≠ some .canceled := by
  cases h with
  | unsent hno => exact absurd hsent hno
  | sent => exact ⟨_, _, _, rfl, callErr_ne_canceled⟩

theorem Sending.unique {r' : Option GateErr} {calls' : List (String × Option GateErr)}
    (h : target.Sending hasLocator r calls) (h' : target.Sending hasLocator r' calls')
    (hsent : target.Sent hasLocator) : r = r' ∧ calls = calls' := by
  cases h with
  | unsent hno => exact absurd hsent hno
  | sent hfst =>
    cases h' with
    | unsent hno => exact absurd hsent hno
    | sent hfst' =>
      rw [hfst] at hfst'
      cases hfst'
      exact ⟨rfl, rfl⟩

theorem calls_of_sent (ack : Bool) (h : target.Sent hasLocator) : ∃ gid err rest,
    ((doPush hasLocator ack).play target.own {}).2.calls = (gid, err) :: rest ∧
      err ≠ some .canceled := by
  cases ack with
  | true => exact (target.fate hasLocator).head h
  | false => exact (target.sending hasLocator).head h

theorem Fate.calls_of_unsent
    (h : target.Fate hasLocator r calls n) (hno : ¬ target.Sent hasLocator) : calls = [] := by
  cases h with
  | unsent => rfl
  | once hfst | same hfst | lost hfst | twice hfst => exact absurd ⟨_, hfst⟩ hno

theorem Sending.calls_of_unsent
    (h : target.Sending hasLocator r calls) (hno : ¬ target.Sent hasLocator) : calls = [] := by
  cases h with
  | unsent => rfl
  | sent hfst => exact absurd ⟨_, hfst⟩ hno

theorem calls_of_unsent (ack : Bool) (h : ¬ target.Sent hasLocator) :
    ((doPush hasLocator ack).play target.own {}).2.calls = [] := by
  cases ack with
  | true => exact (target.fate hasLocator).calls_of_unsent h
  | false => exact (target.sending hasLocator).calls_of_unsent h

def Exposed (target : Target) (hasLocator ack : Bool) : Prop :=
  target.Sent hasLocator ∧ (ack = true ∨ target.cached 1 = none)

theorem severed_ne_alone (h : target.Exposed hasLocator ack) :
    ((doPush hasLocator ack).play target.severed {}).2.calls ≠
      ((doPush hasLocator ack).play target.own {}).2.calls := by
  obtain ⟨hsent, hws⟩ := h
  obtain ⟨gid, err, rest, hcs, herr⟩ := calls_of_sent ack hsent
  obtain ⟨gid', hfst⟩ := hsent
  obtain ⟨hloc, -, hbd⟩ := reach_calls_iff.mp hfst
  obtain rfl := hasLocator_of_located hloc
  rw [hcs]
  cases hcch : target.cached 1 with
  | none =>
    rw [severed_unlocated hcch]
    exact cons_ne_nil _ _ ∘ Eq.symm
  | some gid'' =>
    have hack : ack = true := hws.resolve_right fun hnone => by rw [hcch] at hnone; cases hnone
    subst hack
    have hfd : target.located true 1 = .ok gid'' := by
      unfold located
      rw [if_neg (by decide), hcch]
    rw [hfd] at hloc
    cases hloc
    rw [severed_cached hcch hbd]
    intro heq
    exact herr (Prod.mk.inj (cons.inj heq).1).2.symm

/-- The push fails: no gate is reached, or the last one that is refuses. A gate that is found again
after it has denied the session does not make it fail. -/
def Fails (target : Target) (hasLocator ack : Bool) : Prop :=
  ¬ ∃ gid, target.reach hasLocator 1 "" = .calls gid ∧
    (target.callErr (.push ack) 1 gid = none ∨
      ack = true ∧ target.callErr (.push ack) 1 gid = some .notFoundSession ∧
        (target.reach hasLocator 2 gid = .stays ∨
          ∃ gid', target.reach hasLocator 2 gid = .calls gid' ∧
            target.callErr (.push ack) 2 gid' = none))

theorem fails_of_unsent (h : ¬ target.Sent hasLocator) : target.Fails hasLocator ack :=
  fun ⟨gid, hfst, _⟩ => h ⟨gid, hfst⟩

theorem Sending.fails_iff
    (h : target.Sending hasLocator r calls) : r ≠ none ↔ target.Fails hasLocator false := by
  cases h with
  | unsent hno e => exact iff_of_true (Option.some_ne_none e) (fails_of_unsent hno)
  | sent hfst => simp [Fails, hfst]

theorem Fate.fails_iff
    (h : target.Fate hasLocator r calls n) : r ≠ none ↔ target.Fails hasLocator true := by
  cases h with
  | unsent hno e => exact iff_of_true (Option.some_ne_none e) (fails_of_unsent hno)
  | once hfst hkn => simp [Fails, hfst, hkn]
  | same hfst hden hsnd | lost hfst hden hsnd | twice hfst hden hsnd =>
    simp [Fails, hfst, hden, hsnd]

theorem fails_iff (target : Target) (hasLocator ack : Bool) :
    ((doPush hasLocator ack).play target.own {}).1 ≠ none ↔ target.Fails hasLocator ack := by
  cases ack with
  | true => exact (target.fate hasLocator).fails_iff
  | false => exact (target.sending hasLocator).fails_iff

theorem Fate.acknowledged_iff (h : target.Fate hasLocator r calls n) :
    (∃ c ∈ calls, c.2 = none) ↔ r = none ∧ ¬ SameGate target hasLocator (.push true) := by
  cases h with
  | unsent => exact iff_of_false (fun h => not_mem_nil h.choose_spec.1) fun h => by cases h.1
  | once hfst hkn => simp [SameGate, hfst, hkn]
  | same hfst hden hsnd | lost hfst hden hsnd | twice hfst hden hsnd =>
    simp [SameGate, hfst, hden, hsnd]

theorem not_fails_of_sameGate (h : SameGate target hasLocator (.push true)) :
    ¬ target.Fails hasLocator true := by
  obtain ⟨gid, hfst, hden, hsnd⟩ := h
  exact fun hfl => hfl ⟨gid, hfst, .inr ⟨rfl, hden, .inl hsnd⟩⟩

end Target

end DueServer.Link
