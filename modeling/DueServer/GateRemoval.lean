import DueServer.GateTokens

/-! Whose binding is removed. `Session.Unbind` removes by user, so the rollback of a bind
and `provider.Unbind` hit the binding they mean exactly when nobody else has bound the user
at this gate in the meantime. -/
namespace DueServer

open Lib

namespace Stage

def own : Stage → Option (ℤ × Token)
  | .current b l => some (b.uid, l)
  | .releaseOld b _ t => some (b.uid, t)
  | .bindGate uid t | .rollbackUnbind uid t _ => some (uid, t)
  | .unbindRelease uid t | .unbindSession uid t => some (uid, t)
  | _ => none

theorem own_known {stage : Stage} {uid : ℤ} {t : Token} (h : stage.own = some (uid, t)) :
    stage.known = some (uid, t) := by
  cases stage with
  | current b l | releaseOld b l t | bindGate uid t | rollbackUnbind uid t err
  | unbindRelease uid t | unbindSession uid t => exact h
  | _ => cases h

end Stage

namespace Cluster

variable {γ κ σ : Type} [DecidableEq γ] [DecidableEq κ]

/-- How one event changes whether call `i` is overtaken at user `uid` of gate `g`: its own
binding or reading resets it, a binding by another call sets it. -/
def overtakenStep (i : ℕ) (g : γ) (uid : ℤ) (b : Bool) : Event γ → Bool
  | .boundToken j g' _ uid' _ => if g' = g ∧ uid' = uid then decide (j ≠ i) else b
  | .sawCurrent j g' uid' _ => if j = i ∧ g' = g ∧ uid' = uid then false else b
  | _ => b

/-- Another call has bound `uid` at gate `g` since call `i` last bound it or found its
binding. -/
def overtaken (i : ℕ) (g : γ) (uid : ℤ) (tr : List (Event γ)) : Bool :=
  tr.foldl (overtakenStep i g uid) false

theorem overtaken_snoc (i : ℕ) (g : γ) (uid : ℤ) (tr : List (Event γ)) (e : Event γ) :
    overtaken i g uid (tr ++ [e]) = overtakenStep i g uid (overtaken i g uid tr) e := by
  simp [overtaken]

/-- The binding that call `i` calls its own: unless overtaken it is the one in the table if
there is one, and once overtaken it is never again. -/
def OwnBinding (tr : List (Event γ)) (s : Cluster γ κ σ) (i : ℕ) (g : γ) (uid : ℤ) (t : Token) :
    Prop :=
  (overtaken i g uid tr = false →
    (s.gate g).boundToken uid = none ∨ (s.gate g).boundToken uid = some t) ∧
  (overtaken i g uid tr = true → (s.gate g).boundToken uid ≠ some t)

section Step

variable {L : LawfulStore σ} {tr : List (Event γ)} {s s₁ : Cluster γ κ σ} {e : Event γ}
  {i : ℕ} {g : γ} {reply : Reply} {stage stage' : Stage} {uid : ℤ} {t : Token}

omit [DecidableEq κ] in
theorem OwnBinding.step (h : OwnBinding tr s i g uid t) (hb : BindingsEvolve s e s₁)
    (hbnd : ∀ j cid t', e = .boundToken j g cid uid t' → j ≠ i ∧ t' ≠ t)
    (hsaw : ∀ u t', e ≠ .sawCurrent i g u t') : OwnBinding (tr ++ [e]) s₁ i g uid t := by
  unfold OwnBinding
  rw [overtaken_snoc]
  rcases hb g uid with ⟨j, cid, t', rfl, hset⟩ | ⟨hne, hkeep⟩
  · -- another call binds the user
    obtain ⟨hji, ht'⟩ := hbnd j cid t' rfl
    simp [overtakenStep, hji, hset, ht']
  have hover : overtakenStep i g uid (overtaken i g uid tr) e = overtaken i g uid tr := by
    cases e with
    | boundToken j g' cid uid' t' =>
      refine if_neg fun heq => ?_
      obtain ⟨rfl, rfl⟩ := heq
      exact hne j cid t' rfl
    | sawCurrent j g' uid' t' =>
      refine if_neg fun heq => ?_
      obtain ⟨rfl, rfl, rfl⟩ := heq
      exact hsaw uid' t' rfl
    | _ => rfl
  rw [hover]
  rcases hkeep with hk | hk <;> rw [hk]
  · exact h
  · simp

omit [DecidableEq κ] in
theorem OwnBinding.fresh (he : (∃ cid, e = .boundToken i g cid uid t) ∨ e = .sawCurrent i g uid t)
    (hb : (s₁.gate g).boundToken uid = some t) : OwnBinding (tr ++ [e]) s₁ i g uid t := by
  unfold OwnBinding
  rw [overtaken_snoc]
  rcases he with ⟨cid, rfl⟩ | rfl <;> simp [overtakenStep, hb]

theorem bindDone_own {b : BindArgs} {l : Token} (h : (bindDone b l).own = some (uid, t)) :
    uid = b.uid ∧ t = l := by
  unfold bindDone at h
  split at h
  · cases h
    exact ⟨rfl, rfl⟩
  · cases h

theorem bindTokenDone_own {b : BindArgs} {l l' : Token}
    (h : (bindTokenDone b l' l).own = some (uid, t)) : uid = b.uid ∧ t = l := by
  unfold bindTokenDone at h
  split at h
  · cases h
    exact ⟨rfl, rfl⟩
  · exact bindDone_own h

theorem Next.ownBinding (hs : TokenInv L tr s) (hcall : s.calls i = some (g, stage))
    (hown : ∀ uid t, stage.own = some (uid, t) → OwnBinding tr s i g uid t)
    (hn : Next L s i g reply stage e stage' s₁) (h : stage'.own = some (uid, t)) :
    OwnBinding (tr ++ [e]) s₁ i g uid t := by
  have hb := hn.bindings hs.index
  -- a step of the call that neither binds nor reads keeps its binding
  have hkeep : stage.own = some (uid, t) → (∀ j cid t', e ≠ .boundToken j g cid uid t') →
      (∀ u t', e ≠ .sawCurrent i g u t') → OwnBinding (tr ++ [e]) s₁ i g uid t :=
    fun ho h1 h2 => (hown uid t ho).step hb (fun j cid t' he => absurd he (h1 j cid t')) h2
  cases hn with
  | seen b l hcur =>
    cases h
    obtain ⟨-, -, hbnd⟩ := Session.isCurrent_iff.mp hcur
    rw [(hs.call i g _ hcall).same_user b t rfl] at hbnd
    exact .fresh (.inr rfl) hbnd
  | readUser uid' t' hbnd =>
    cases h
    exact .fresh (.inr rfl) hbnd
  | binds b l t' sess hok =>
    obtain ⟨rfl, rfl⟩ := bindTokenDone_own h
    obtain ⟨-, -, -, c, -, hview⟩ := Session.bindToken_views (hs.index g) hok
    refine .fresh (.inl ⟨b.cid, rfl⟩) ?_
    simp [setGate, hview]
  | keepToken | releasesOld =>
    obtain ⟨rfl, rfl⟩ := bindDone_own h
    exact hkeep rfl (by simp) (by simp)
  | locateUnsure | locateFails | unbindReleases => exact hkeep h (by simp) (by simp)
  | _ => cases h

theorem Next.event_call (hn : Next L s i g reply stage e stage' s₁) (j : ℕ) (g' : γ) :
    (∀ cid u t', e = .boundToken j g' cid u t' → j = i ∧ stage.fresh = some (u, t')) ∧
      ∀ u t', e = .sawCurrent j g' u t' → j = i := by
  cases hn with
  | binds =>
    refine ⟨fun cid u t' he => ?_, nofun⟩
    cases he
    exact ⟨rfl, rfl⟩
  | seen | readUser =>
    refine ⟨nofun, fun u t' he => ?_⟩
    cases he
    rfl
  | _ => exact ⟨nofun, nofun⟩

end Step

def OwnBindings (tr : List (Event γ)) (s : Cluster γ κ σ) : Prop :=
  ∀ i g stage uid t, s.calls i = some (g, stage) → stage.own = some (uid, t) →
    OwnBinding tr s i g uid t

variable {L : LawfulStore σ} {s s' : Cluster γ κ σ} {act : Action γ κ}

theorem OwnBindings.transition {tr : List (Event γ)}
    {e : Event γ} (hs : TokenInv L tr s) (ho : OwnBindings tr s)
    (ht : Transition L s act e s') : OwnBindings (tr ++ [e]) s' := by
  have hb := ht.bindings hs.index
  -- a call that does not step: what others bind is not the token it knows
  have hoth : ∀ j g stage uid t, s.calls j = some (g, stage) → stage.own = some (uid, t) →
      (∀ k cid t', e = .boundToken k g cid uid t' → k ≠ j ∧ ∀ g cid, ¬ Bound tr t' g cid) →
      (∀ u t', e ≠ .sawCurrent j g u t') → OwnBinding (tr ++ [e]) s' j g uid t := by
    intro j g stage uid t hj hown hbnd hsaw
    refine (ho j g stage uid t hj hown).step hb (fun k cid t' he => ?_) hsaw
    obtain ⟨hkj, hnb⟩ := hbnd k cid t' he
    refine ⟨hkj, ?_⟩
    rintro rfl
    obtain ⟨-, cid', hb'⟩ := (hs.call j g stage hj).known uid t' (Stage.own_known hown)
    exact hnb g cid' hb'
  intro j g stage uid t hj hown
  cases ht with
  | connect => exact hoth j g stage uid t hj hown nofun nofun
  | start i g' entry stage' hfree hst =>
    rcases goto_calls hj with ⟨-, hx⟩ | ⟨-, hj⟩
    · cases hx
      have hk := Stage.own_known hown
      rw [(starts_none hst).2.2.1] at hk
      cases hk
    · exact hoth j g stage uid t hj hown nofun nofun
  | disconnect i g' c uid' t' sess stage' hfree hc hrem hst =>
    rcases goto_calls hj with ⟨-, hx⟩ | ⟨-, hj⟩
    · cases hx
      rcases hst with ⟨-, rfl⟩ | ⟨-, rfl⟩ <;> cases hown
    · exact hoth j g stage uid t hj hown nofun nofun
  | next i reply g' stage₀ _ stage' s₁ hcall hn =>
    rcases goto_calls hj with ⟨rfl, hx⟩ | ⟨hji, hj⟩
    · cases hx
      have h := hn.ownBinding hs hcall (fun u t => ho j g stage₀ u t hcall) hown
      exact h
    rw [hn.calls] at hj
    refine hoth j g stage uid t hj hown (fun k cid t' he => ?_) fun u t' he => ?_
    · obtain ⟨rfl, hf⟩ := (hn.event_call k g).1 cid uid t' he
      exact ⟨Ne.symm hji, ((hs.call k g' stage₀ hcall).fresh uid t' hf).2.2.2.2⟩
    · exact hji ((hn.event_call j g).2 u t' he)

/-- Only the rollback and `provider.Unbind` have this event; `own` is the token that the
call holds and `removed` the one of the binding it removes. -/
theorem Transition.unbound_inv
    {i : ℕ} {g : γ} {uid : ℤ} {own removed : Token}
    (ht : Transition L s act (.unbound i g uid own removed) s') :
    (s.gate g).boundToken uid = some removed ∧ ∃ stage, s.calls i = some (g, stage) ∧
      stage.own = some (uid, own) := by
  cases ht with
  | next j reply g' stage _ stage' s₁ hcall hn =>
    cases hn with
    | rollsBack _ t err cid sess h | unbinds _ t cid sess h =>
      exact ⟨(Session.unbind_views h).2.2.2.1, _, hcall, rfl⟩

/-- A rollback or an `Unbind` removes the very binding of the call exactly when no other
call has bound the user at this gate since the call bound it or found its binding. -/
theorem removes_own_iff_not_overtaken (L : LawfulStore σ) (heap : γ → κ → ConnObj) (store : σ)
    (hid : ∀ g, Function.Injective fun c => (heap g c).id)
    (hown : ∀ u, L.owner store u = none) (tr : List (Event γ)) (s : Cluster γ κ σ)
    (hrun : Run (guardedRel (step L.toOwnershipStore) fun _ _ => true)
      (init heap store) tr s)
    (act : Action γ κ) (s' : Cluster γ κ σ) (i : ℕ) (g : γ) (uid : ℤ) (own removed : Token)
    (hstep : s.step L.toOwnershipStore act = some (s', .unbound i g uid own removed)) :
    removed = own ↔ overtaken i g uid tr = false := by
  have hinv : TokenInv L tr s ∧ OwnBindings tr s := by
    have h0 : OwnBindings [] (init heap store) := fun i g stage uid t h => by cases h
    refine run_invariant (fun tr s => TokenInv L tr s ∧ OwnBindings tr s)
      ⟨init_tokenInv hid hown, h0⟩ ?_ hrun
    rintro tr s e s' ⟨hs, ho⟩ ⟨act, -, hstep⟩
    exact ⟨hs.transition (step_transition hstep), ho.transition hs (step_transition hstep)⟩
  obtain ⟨hbnd, stage, hcall, hst⟩ := (step_transition hstep).unbound_inv
  obtain ⟨hfree, hover⟩ := hinv.2 i g stage uid own hcall hst
  constructor
  · rintro rfl
    by_contra h
    exact hover (by simpa using h) hbnd
  · intro h
    rcases hfree h with hn | hn
    · rw [hn] at hbnd
      cases hbnd
    rw [hn] at hbnd
    exact (Option.some.inj hbnd).symm

def rollbackRace : List (Action Unit Bool) :=
  [.connect () false, .connect () true, .call 0 () (.bind 1 5), .call 1 () (.bind 2 5),
    .step 0 .ok, .step 0 .ok, .step 0 .ok, .step 1 .ok, .step 1 .ok, .step 1 .ok,
    .step 0 (.failed false (.other "locator"))]

def loneRollback : List (Action Unit Bool) :=
  [.connect () false, .call 0 () (.bind 1 5), .step 0 .ok, .step 0 .ok, .step 0 .ok,
    .step 0 (.failed false (.other "locator"))]

def scheduleRun (acts : List (Action Unit Bool)) :
    Option (List (Event Unit) × Cluster Unit Bool MemoryOwnershipStore) :=
  exec (step memoryStore.toOwnershipStore) (fun _ _ => true)
    (init twoIdle MemoryOwnershipStore.new) acts

theorem loneRollback_isSome : (scheduleRun loneRollback).isSome = true := rfl

/-- The rollback of call 0 removes the binding that call 1 has made. -/
theorem rollback_removes_newer_binding : ∃ tr s s',
    Run (guardedRel (step memoryStore.toOwnershipStore) fun _ _ => true)
      (init twoIdle MemoryOwnershipStore.new) tr s ∧
    s.step memoryStore.toOwnershipStore (.step 0 .ok) =
      some (s', .unbound 0 () 5 ⟨5, 1⟩ ⟨5, 2⟩) ∧
    (s'.gate ()).boundToken 5 = none :=
  ⟨_, _, _, run_of_exec rollbackRace rfl, by rfl, by rfl⟩

theorem removes_own_iff_loneRollback : ∃ tr s s',
    (s : Cluster Unit Bool MemoryOwnershipStore).step memoryStore.toOwnershipStore (.step 0 .ok) =
      some (s', .unbound 0 () 5 ⟨5, 1⟩ ⟨5, 1⟩) ∧
    ((⟨5, 1⟩ : Token) = ⟨5, 1⟩ ↔ overtaken 0 () 5 tr = false) := by
  obtain ⟨s', hstep⟩ : ∃ s', Cluster.step memoryStore.toOwnershipStore
      ((scheduleRun loneRollback).get loneRollback_isSome).2 (.step 0 .ok) =
      some (s', .unbound 0 () 5 ⟨5, 1⟩ ⟨5, 1⟩) := ⟨_, by rfl⟩
  exact ⟨_, _, s', hstep, removes_own_iff_not_overtaken memoryStore twoIdle
    MemoryOwnershipStore.new twoIdle_id_injective (fun _ => rfl) _ _
    (run_of_exec _ loneRollback_isSome) (.step 0 .ok) s' 0 () 5 ⟨5, 1⟩ ⟨5, 1⟩ hstep⟩

end Cluster

end DueServer
