import DueServer.GateLinkSteps

/-! What the indirect calls of a `GateLinker` report about the gate calls they make. -/
namespace DueServer.Link

def GateProg.play {ρ : Type} (o : (q : Ask) → q.Answer) (p : GateProg ρ) (t : Account) :
    ρ × Account :=
  p.run (fun t q => (o q, t.note q (o q))) t

theorem GateProg.play_bind {ρ ρ' : Type} (o : (q : Ask) → q.Answer) (p : GateProg ρ)
    (f : ρ → GateProg ρ') (t : Account) :
    play o (p.bind f) t = (f (p.play o t).1).play o (p.play o t).2 :=
  Lib.Prog.run_bind _ f p t

open GateProg Lib

namespace Target

variable (target : Target) {hasLocator : Bool} {round : ℕ} {gid : String} {t : Account}

def located (hasLocator : Bool) (round : ℕ) : Except GateErr String :=
  if hasLocator = false then .error .notFoundLocator
  else
    match target.cached round with
    | some gid => .ok gid
    | none =>
      match (target.round round).located with
      | .error code => .error (.external code)
      | .ok gid => if gid = "" then .error .notFoundUserLocation else .ok gid

/-- How far a round of `doRPC` gets: no gate is located or its client cannot be built, the gate of
the round before is located again, or a gate is called. -/
inductive Reach where
  | fails (e : GateErr)
  | stays
  | calls (gid : String)

def reach (hasLocator : Bool) (round : ℕ) (prev : String) : Reach :=
  match target.located hasLocator round with
  | .error e => .fails e
  | .ok gid =>
    if gid = prev then .stays
    else
      match target.buildErr round gid with
      | some e => .fails e
      | none => .calls gid

variable {target}

theorem located_ne_empty {gid : String} (h : target.located hasLocator round = .ok gid) :
    gid ≠ "" := by
  rintro rfl
  revert h
  unfold located
  split
  · exact fun h => by cases h
  split
  · rename_i gid hcch
    intro h
    cases h
    exact GateCache.load_ne_empty _ _ hcch
  split
  · exact fun h => by cases h
  split
  · exact fun h => by cases h
  rename_i hne
  exact fun h => hne (Except.ok.inj h)

theorem reach_ne_stays : target.reach hasLocator round "" ≠ .stays := by
  unfold reach
  split
  · exact nofun
  · rename_i hloc
    rw [if_neg (located_ne_empty hloc)]
    split <;> exact nofun

theorem reach_calls_iff {prev : String} : target.reach hasLocator round prev = .calls gid ↔
    target.located hasLocator round = .ok gid ∧ gid ≠ prev ∧ target.buildErr round gid = none := by
  unfold reach
  cases target.located hasLocator round with
  | error => exact iff_of_false nofun fun h => nomatch h.1
  | ok found =>
    simp only [Except.ok.injEq]
    by_cases hprev : found = prev
    · rw [if_pos hprev]
      exact iff_of_false nofun fun h => h.2.1 (h.1 ▸ hprev)
    rw [if_neg hprev]
    cases hbd : target.buildErr round found with
    | some =>
      refine iff_of_false nofun ?_
      rintro ⟨rfl, -, h⟩
      rw [hbd] at h
      cases h
    | none =>
      rw [Reach.calls.injEq]
      exact ⟨fun h => h ▸ ⟨rfl, hprev, hbd⟩, fun h => h.1⟩

theorem callErr_ne_canceled {op : GateOp} : target.callErr op round gid ≠ some .canceled := by
  unfold callErr
  cases (target.round round).served op gid <;> exact fun h => by cases h

theorem note_locator : t.note (.locator round) (target.own (.locator round)) = t := by
  have hne : target.own (.locator round) ≠ .error .canceled := by
    cases hloc : (target.round round).located with
    | error code | ok gid =>
      rw [own, hloc]
      exact fun h => by cases h
  simp [Account.note, decide_eq_false hne]

theorem note_call {op : GateOp} : t.note (.call op round gid) (target.own (.call op round gid)) =
    { t with calls := t.calls ++ [(gid, target.callErr op round gid)] } := by
  have hne : (target.own (.call op round gid)).2 ≠ some .canceled := callErr_ne_canceled
  simp only [Account.note, decide_eq_false hne, Bool.or_false]
  rfl

/-- In a state in which look-ups and builds are answered as the target does by itself, and leave
nothing behind. -/
structure Idle {σ : Type} (target : Target) (serve : σ → (q : Ask) → q.Answer × σ) (s : σ)
    (round : ℕ) : Prop where
  cached : serve s (.cached round) = (target.own (.cached round), s)
  locator : serve s (.locator round) = (target.own (.locator round), s)
  build : ∀ gid, serve s (.build round gid) = (target.own (.build round gid), s)

theorem idle_play : Idle target (fun t q => (target.own q, Account.note t q (target.own q))) t round
    where
  cached := rfl
  locator := congrArg (Prod.mk _) note_locator
  build := fun _ => rfl

theorem run_locateGate {σ : Type} {serve : σ → (q : Ask) → q.Answer × σ} {s : σ}
    (h : Idle target serve s round) :
    (GateLinker.locateGate hasLocator round).run serve s =
      (target.located hasLocator round, s) := by
  unfold GateLinker.locateGate located
  split
  · rfl
  simp only [Prog.run, h.cached]
  cases hcch : target.cached round with
  | some gid =>
    have hown : target.own (.cached round) = some gid := hcch
    rw [hown]
    rfl
  | none =>
    have hown : target.own (.cached round) = none := hcch
    rw [hown]
    simp only [Prog.run, h.locator]
    cases hloca : (target.round round).located with
    | error code =>
      have hloc : target.own (.locator round) = .error (.external code) := by
        rw [own, hloca]
        rfl
      rw [hloc]
      rfl
    | ok gid =>
      have hloc : target.own (.locator round) = .ok gid := by
        rw [own, hloca]
        rfl
      rw [hloc]
      rfl

end Target

namespace GateLinker

variable {ρ : Type} {target : Target} {hasLocator : Bool}
  {handler : String → ℕ → GateProg (Handled ρ)}
  {failed : ℕ → GateProg Unit} {t : Account}

theorem run_rpcRounds {σ : Type} {serve : σ → (q : Ask) → q.Answer × σ} {s : σ} {i : ℕ}
    (h : target.Idle serve s i) (rounds : List ℕ) (prev : String)
    (last : Option ρ × Option GateErr) :
    (rpcRounds hasLocator handler failed (i :: rounds) prev last).run serve s =
      match target.reach hasLocator i prev with
      | .fails e => ((none, some e), ((failed i).run serve s).2)
      | .stays => ((last.1, none), ((failed i).run serve s).2)
      | .calls gid =>
        match (handler gid i).run serve s with
        | ((true, reply, err), s') =>
          (rpcRounds hasLocator handler failed rounds gid (reply, err)).run serve s'
        | ((false, reply, err), s') => ((reply, err), s') := by
  rw [rpcRounds, Prog.run_bind, Target.run_locateGate h]
  unfold Target.reach
  cases target.located hasLocator i with
  | error e =>
    rw [Prog.run_bind]
    rfl
  | ok gid =>
    by_cases hprev : gid = prev
    · simp only [if_pos hprev]
      rw [Prog.run_bind]
      rfl
    simp only [if_neg hprev, Prog.run, h.build]
    cases hbd : target.buildErr i gid with
    | some e =>
      have hown : target.own (.build i gid) = some e := hbd
      rw [hown, Prog.run_bind]
      rfl
    | none =>
      have hown : target.own (.build i gid) = none := hbd
      rw [hown, Prog.run_bind]
      simp only
      generalize Prog.run serve (handler gid i) s = r
      obtain ⟨⟨continued, reply, err⟩, s'⟩ := r
      cases continued <;> rfl

/-- A success handler that makes one call and asks for another round if it may retry and the gate
does not know the session. -/
structure CallsOnce (target : Target) (op : GateOp) (retries : Bool) (ok : Option ρ → Prop)
    (handler : String → ℕ → GateProg (Handled ρ)) : Prop where
  calls : ∀ gid i t, ((handler gid i).play target.own t).2.calls =
    t.calls ++ [(gid, target.callErr op i gid)]
  continued : ∀ gid i t, ((handler gid i).play target.own t).1.1 =
    (retries && decide (target.callErr op i gid = some .notFoundSession))
  reply : ∀ gid i t, ok ((handler gid i).play target.own t).1.2.1
  err : ∀ gid i t, ((handler gid i).play target.own t).1.2.2 = target.callErr op i gid

def SameGate (target : Target) (hasLocator : Bool) (op : GateOp) : Prop :=
  ∃ gid, target.reach hasLocator 1 "" = .calls gid ∧
    target.callErr op 1 gid = some .notFoundSession ∧ target.reach hasLocator 2 gid = .stays

def LastCallOk (err : Option GateErr) (calls : List (String × Option GateErr)) : Prop :=
  err = none → ∃ gid, calls.getLast? = some (gid, none)

theorem LastCallOk.of_error {e : GateErr} {calls : List (String × Option GateErr)} :
    LastCallOk (some e) calls := fun h => by cases h

theorem LastCallOk.of_last (gid : String) (err : Option GateErr)
    (calls : List (String × Option GateErr)) : LastCallOk err (calls ++ [(gid, err)]) := by
  rintro rfl
  exact ⟨gid, List.getLast?_concat⟩

section Rounds

variable {op : GateOp} {retries : Bool} {ok : Option ρ → Prop}

theorem play_lastRound (h : CallsOnce target op retries ok handler) (failed : ℕ → GateProg Unit)
    (i : ℕ) {prev : String} (last : Option ρ × Option GateErr)
    (hne : target.reach hasLocator i prev ≠ .stays) :
    LastCallOk ((rpcRounds hasLocator handler failed [i] prev last).play target.own t).1.2
      ((rpcRounds hasLocator handler failed [i] prev last).play target.own t).2.calls ∧
    (((rpcRounds hasLocator handler failed [i] prev last).play target.own t).1.2 = none →
      ok ((rpcRounds hasLocator handler failed [i] prev last).play target.own t).1.1) := by
  rw [play, run_rpcRounds Target.idle_play]
  cases hend : target.reach hasLocator i prev with
  | fails e => exact ⟨.of_error, nofun⟩
  | stays => exact absurd hend hne
  | calls gid =>
    have hcs := h.calls gid i t
    have hrp := h.reply gid i t
    have herr := h.err gid i t
    unfold play at hcs hrp herr
    simp only
    generalize Prog.run _ (handler gid i) t = r at hcs hrp herr ⊢
    obtain ⟨⟨continued, reply, err⟩, t'⟩ := r
    have hcs' : t'.calls = t.calls ++ [(gid, target.callErr op i gid)] := hcs
    have herr' : err = target.callErr op i gid := herr
    cases continued <;>
    · refine ⟨?_, fun _ => hrp⟩
      show LastCallOk err t'.calls
      rw [hcs', herr']
      exact .of_last _ _ _

/-- `doRPC` returns a nil error only after a successful last call, unless the second look-up yields
the gate that has just denied the session. -/
theorem play_doRPC (hasLocator : Bool) (h : CallsOnce target op retries ok handler)
    (hfld : ∀ i t, ((failed i).play target.own t).2.calls = t.calls) :
    (LastCallOk ((doRPC hasLocator handler failed).play target.own {}).1.2
      ((doRPC hasLocator handler failed).play target.own {}).2.calls ↔
        ¬ (retries = true ∧ SameGate target hasLocator op)) ∧
    (((doRPC hasLocator handler failed).play target.own {}).1.2 = none →
      ok ((doRPC hasLocator handler failed).play target.own {}).1.1) := by
  rw [doRPC, play, run_rpcRounds Target.idle_play]
  unfold SameGate
  cases hfst : target.reach hasLocator 1 "" with
  | fails e =>
    refine ⟨iff_of_true .of_error ?_, nofun⟩
    rintro ⟨-, gid, hgid, -⟩
    cases hgid
  | stays => exact absurd hfst Target.reach_ne_stays
  | calls gid =>
    have hcs := h.calls gid 1 {}
    have hcon := h.continued gid 1 {}
    have hrp := h.reply gid 1 {}
    have herr := h.err gid 1 {}
    unfold play at hcs hcon hrp herr
    simp only [Target.Reach.calls.injEq, exists_eq_left']
    generalize Prog.run _ (handler gid 1) ({} : Account) = r at hcs hcon hrp herr ⊢
    obtain ⟨⟨continued, reply, err⟩, t'⟩ := r
    have hcs' : t'.calls = [(gid, target.callErr op 1 gid)] := hcs
    have hcon' : continued =
      (retries && decide (target.callErr op 1 gid = some .notFoundSession)) := hcon
    have herr' : err = target.callErr op 1 gid := herr
    cases continued with
    | false =>
      refine ⟨iff_of_true ?_ ?_, fun _ => hrp⟩
      · rw [hcs', herr']
        exact LastCallOk.of_last gid _ []
      · rintro ⟨hrtys, hses, -⟩
        rw [hrtys, hses] at hcon'
        cases hcon'
    | true =>
      obtain ⟨hrtys, hses⟩ := Bool.and_eq_true_iff.mp hcon'.symm
      have hses' := of_decide_eq_true hses
      by_cases hsame : target.reach hasLocator 2 gid = .stays
      · refine ⟨iff_of_false ?_ ?_, ?_⟩
        · -- the error of the first call is overwritten by the second look-up
          simp only [run_rpcRounds Target.idle_play, hsame]
          intro hok
          obtain ⟨gid', hlast⟩ := hok rfl
          unfold play at hfld
          rw [hfld, hcs', hses'] at hlast
          cases hlast
        · exact fun hno => hno ⟨hrtys, hses', hsame⟩
        · intro _
          simp only [run_rpcRounds Target.idle_play, hsame]
          exact hrp
      · obtain ⟨hlast, hok⟩ := play_lastRound h failed 2 (reply, err) hsame
        exact ⟨iff_of_true hlast fun h => hsame h.2.2, hok⟩

end Rounds

theorem callsOnce_callHandler (target : Target) (op : GateOp) (retries : Bool) :
    CallsOnce target op retries (fun reply => reply.isSome = true) (callHandler op retries) where
  calls := fun _ _ _ => congrArg Account.calls Target.note_call
  continued := fun _ _ _ => rfl
  reply := fun _ _ _ => rfl
  err := fun _ _ _ => rfl

theorem calls_releaseTimes (n : ℕ) : ∀ t : Account,
    ((releaseTimes n).play target.own t).2.calls = t.calls := by
  induction n with
  | zero => exact fun t => rfl
  | succ n ih => exact fun t => ih _

theorem play_clientCall (op : GateOp) (i : ℕ) (gid : String) :
    (clientCall op i gid).play target.own t = (target.own (.call op i gid),
      { t with
        calls := t.calls ++ [(gid, target.callErr op i gid)]
        releases := t.releases + 1 }) := by
  have hnote : ((t.note .mount ()).note .consume ()).note (.call op i gid)
      (target.own (.call op i gid)) = { t with
        calls := t.calls ++ [(gid, target.callErr op i gid)]
        releases := t.releases + 1 } := Target.note_call
  rw [← hnote]
  rfl

theorem callsOnce_pushHandler (target : Target) :
    CallsOnce target (.push true) true (fun _ => True) (pushHandler true) := by
  have hplay (gid : String) (i : ℕ) (t : Account) :
      ((pushHandler true gid i).play target.own t).2.calls =
          t.calls ++ [(gid, target.callErr (.push true) i gid)] ∧
        ((pushHandler true gid i).play target.own t).1 =
          (decide (target.callErr (.push true) i gid = some .notFoundSession), none,
            target.callErr (.push true) i gid) := by
    have hsnd : (target.own (.call (.push true) i gid)).2 = target.callErr (.push true) i gid := rfl
    rw [pushHandler, play_bind, play_clientCall]
    simp only [if_true, hsnd]
    by_cases hses : target.callErr (.push true) i gid = some .notFoundSession
    · rw [if_pos hses, decide_eq_true hses]
      exact ⟨rfl, rfl⟩
    rw [if_neg hses, decide_eq_false hses, play_bind]
    exact ⟨calls_releaseTimes _ _, rfl⟩
  refine ⟨fun gid i t => (hplay gid i t).1, ?_, fun _ _ _ => trivial, ?_⟩
  · intro gid i t
    rw [(hplay gid i t).2]
    rfl
  · intro gid i t
    rw [(hplay gid i t).2]

end GateLinker

open GateLinker

inductive IndirectOp where
  | push
  | disconnect
  | getIP
  | isOnline
  | unbind
  | subscribe
  | unsubscribe
deriving DecidableEq

namespace IndirectOp

def op : IndirectOp → GateOp
  | .push => .push true
  | .disconnect => .disconnect
  | .getIP => .getIP
  | .isOnline => .isOnline
  | .unbind => .unbind
  | .subscribe => .subscribe
  | .unsubscribe => .unsubscribe

/-- `Subscribe` and `Unsubscribe` never ask for a second round. -/
def retries : IndirectOp → Bool
  | .subscribe | .unsubscribe => false
  | _ => true

def prog (hasLocator : Bool) : IndirectOp → GateProg (Option (Option GateErr))
  | .push => (doPush hasLocator true).bind fun err => .ret (some err)
  | .disconnect => (doIndirectDisconnect hasLocator).bind fun err => .ret (some err)
  | .getIP => (doIndirectGetIP hasLocator).bind fun r => .ret (r.map Prod.snd)
  | .isOnline => (doIndirectIsOnline hasLocator).bind fun r => .ret (r.map Prod.snd)
  | .unbind => (unbindGate hasLocator).bind fun err => .ret (some err)
  | .subscribe => (subscribeTarget hasLocator).bind fun err => .ret (some err)
  | .unsubscribe => (unsubscribeTarget hasLocator).bind fun err => .ret (some err)

variable {target : Target} {hasLocator : Bool} {ρ : Type}

theorem reports_of_doRPC (p : GateProg (Option ρ × Option GateErr))
    (f : Option ρ × Option GateErr → GateProg (Option (Option GateErr))) (ok : Option ρ → Prop)
    {C : Prop}
    (h : (LastCallOk (p.play target.own {}).1.2 (p.play target.own {}).2.calls ↔ C) ∧
      ((p.play target.own {}).1.2 = none → ok (p.play target.own {}).1.1))
    (hf : ∀ reply err, (err = none → ok reply) → f (reply, err) = .ret (some err)) :
    ∃ err calls, (play target.own (p.bind f) {}).1 = some err ∧
      (play target.own (p.bind f) {}).2.calls = calls ∧ (LastCallOk err calls ↔ C) := by
  rw [play_bind, hf _ _ h.2]
  exact ⟨_, _, rfl, rfl, h.1⟩

/-- An indirect call does not panic. The error it returns is nil only if the last gate call it made
returned nil, except for the operations that retry when the first gate does not know the session and
the second look-up yields the same gate. -/
theorem reports_last_call_iff (op : IndirectOp) (hasLocator : Bool) (target : Target) :
    ∃ err calls, ((op.prog hasLocator).play target.own {}).1 = some err ∧
      ((op.prog hasLocator).play target.own {}).2.calls = calls ∧
      ((err = none → ∃ gid, calls.getLast? = some (gid, none)) ↔
        ¬ (op.retries = true ∧ SameGate target hasLocator op.op)) := by
  have hskip : ∀ (i : ℕ) (t : Account), (skip.play target.own t).2.calls = t.calls :=
    fun _ _ => rfl
  have hcall (op : GateOp) (retries : Bool) :=
    play_doRPC hasLocator (callsOnce_callHandler target op retries) hskip
  cases op with
  | push =>
    have hfld : ∀ (i : ℕ) (t : Account),
        ((releaseTimes (2 - i)).play target.own t).2.calls = t.calls :=
      fun i t => calls_releaseTimes _ t
    have hpush := play_doRPC hasLocator (callsOnce_pushHandler target) hfld
    rw [prog, doPush, Prog.bind_assoc]
    exact reports_of_doRPC _ _ (fun _ => True) hpush fun _ _ _ => rfl
  | disconnect =>
    rw [prog, doIndirectDisconnect, Prog.bind_assoc]
    exact reports_of_doRPC _ _ (fun reply => reply.isSome = true)
      (hcall .disconnect true) fun _ _ _ => rfl
  | getIP =>
    rw [prog, doIndirectGetIP, Prog.bind_assoc]
    refine reports_of_doRPC _ _ (fun reply => reply.isSome = true)
      (hcall .getIP true) ?_
    intro reply err hok
    cases err with
    | some e => rfl
    | none =>
      obtain ⟨ip, rfl⟩ := Option.isSome_iff_exists.mp (hok rfl)
      rfl
  | isOnline =>
    rw [prog, doIndirectIsOnline, Prog.bind_assoc]
    refine reports_of_doRPC _ _ (fun reply => reply.isSome = true)
      (hcall .isOnline true) ?_
    intro reply err hok
    cases err with
    | some e => rfl
    | none =>
      obtain ⟨isOnline, rfl⟩ := Option.isSome_iff_exists.mp (hok rfl)
      rfl
  | unbind =>
    rw [prog, unbindGate, Prog.bind_assoc]
    exact reports_of_doRPC _ _ (fun reply => reply.isSome = true)
      (hcall .unbind true) fun _ _ _ => rfl
  | subscribe =>
    rw [prog, subscribeTarget, Prog.bind_assoc]
    exact reports_of_doRPC _ _ (fun reply => reply.isSome = true)
      (hcall .subscribe false) fun _ _ _ => rfl
  | unsubscribe =>
    rw [prog, unsubscribeTarget, Prog.bind_assoc]
    exact reports_of_doRPC _ _ (fun reply => reply.isSome = true)
      (hcall .unsubscribe false) fun _ _ _ => rfl

def stale : Target where
  uid := 7
  round := fun _ => ⟨⟨none, ∅⟩, .ok "gate-1", fun _ => some "addr", fun _ => none,
    fun op _ => op.zero, fun _ _ => .notFoundSession⟩

/-- The gate has denied the session, and the push is reported as acknowledged. -/
theorem push_nil_after_denial : ((IndirectOp.push.prog true).play stale.own {}).1 = some none ∧
      ((IndirectOp.push.prog true).play stale.own {}).2.calls =
        [("gate-1", some .notFoundSession)] := by
  decide +kernel

end IndirectOp

end DueServer.Link
