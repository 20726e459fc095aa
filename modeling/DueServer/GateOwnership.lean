import DueServer.GateTokens

/-! Ownership is accounted for: what the store reports as owned is bound at a gate, or held
by a call that is going to bind or release it. -/
namespace DueServer

open Lib
open Function (update_self update_of_ne)

namespace Stage

def Owes (stage : Stage) (t : Token) : Prop :=
  (∃ uid, stage.fresh = some (uid, t)) ∨ stage.detached = some t

end Stage

namespace Cluster

variable {γ κ σ : Type}

def requestsSucceed : Action γ κ → Bool
  | .step _ (.failed _ _) => false
  | _ => true

def installsNewer (s : Cluster γ κ σ) : Action γ κ → Bool
  | .step i _ =>
    match s.calls i with
    | some (g, .bindToken b _ t) =>
      match (s.gate g).boundToken b.uid with
      | some t' => decide (t'.generation < t.generation)
      | none => true
    | _ => true
  | _ => true

/-- A `BindToken` step finds its connection without a user, with the user it binds, or
with the token that the call found in the beginning. -/
def connUnmoved (s : Cluster γ κ σ) : Action γ κ → Bool
  | .step i _ =>
    match s.calls i with
    | some (g, .bindToken b l _) =>
      match (s.gate g).conns b.cid with
      | some c => decide ((s.gate g).connUID c = 0 ∨ (s.gate g).connUID c = b.uid ∨
          (s.gate g).tokens b.cid = l)
      | none => true
    | _ => true
  | _ => true

/-- The `Session.Unbind` step of a `provider.Unbind` finds the token that the call read in
the beginning, or no binding. -/
def unbindsOwn (s : Cluster γ κ σ) : Action γ κ → Bool
  | .step i _ =>
    match s.calls i with
    | some (g, .unbindSession uid t) =>
      match (s.gate g).boundToken uid with
      | some t' => decide (t' = t)
      | none => true
    | _ => true
  | _ => true

section Guards

variable {s : Cluster γ κ σ} {i : ℕ} {g : γ} {reply : Reply} {b : BindArgs} {l t t' : Token}
  {uid : ℤ}

theorem requestsSucceed_step (h : requestsSucceed (.step i reply : Action γ κ) = true) :
    reply = .ok := by
  cases reply with
  | ok => rfl
  | failed => cases h

theorem installsNewer_step (h : s.installsNewer (.step i reply) = true)
    (hcall : s.calls i = some (g, .bindToken b l t))
    (ht : (s.gate g).boundToken b.uid = some t') : t'.generation < t.generation := by
  simpa [installsNewer, hcall, ht] using h

theorem connUnmoved_step (h : s.connUnmoved (.step i reply) = true)
    (hcall : s.calls i = some (g, .bindToken b l t)) {c : κ}
    (hc : (s.gate g).conns b.cid = some c) :
    (s.gate g).connUID c = 0 ∨ (s.gate g).connUID c = b.uid ∨ (s.gate g).tokens b.cid = l := by
  simpa [connUnmoved, hcall, hc] using h

theorem unbindsOwn_step (h : s.unbindsOwn (.step i reply) = true)
    (hcall : s.calls i = some (g, .unbindSession uid t))
    (ht : (s.gate g).boundToken uid = some t') : t' = t := by
  simpa [unbindsOwn, hcall, ht] using h

end Guards

variable [DecidableEq γ] [DecidableEq κ]

def AccountedFor (s : Cluster γ κ σ) (u : ℤ) (t : Token) : Prop :=
  (∃ g, (s.gate g).boundToken u = some t) ∨
    ∃ i g stage, s.calls i = some (g, stage) ∧ stage.Owes t

def Accounted (L : LawfulStore σ) (s : Cluster γ κ σ) : Prop :=
  ∀ u t, L.owner s.store u = some t → s.AccountedFor u t

/-- What the runs of this module keep. A `provider.Unbind` that is about to remove the
binding has released its token; no bind is being rolled back. -/
structure OwnershipInv (L : LawfulStore σ) (s : Cluster γ κ σ) : Prop where
  accounted : Accounted L s
  released : ∀ i g uid t, s.calls i = some (g, .unbindSession uid t) →
    L.owner s.store uid ≠ some t
  no_rollback : ∀ i g uid t err, s.calls i ≠ some (g, .rollbackUnbind uid t err)

section Step

variable {L : LawfulStore σ} {tr : List (Event γ)} {s s₁ : Cluster γ κ σ} {e : Event γ}
  {i : ℕ} {g : γ} {reply : Reply} {stage stage' : Stage}

omit [DecidableEq γ] [DecidableEq κ] in
theorem accounted_goto (hs : Accounted L s) (hcs : s₁.calls = s.calls)
    (hown : ∀ u t, L.owner s₁.store u = some t → L.owner s.store u = some t ∨ stage'.Owes t)
    (hbnd : ∀ g' u t, L.owner s₁.store u = some t → (s.gate g').boundToken u = some t →
      (s₁.gate g').boundToken u = some t ∨ stage'.Owes t)
    (howes : ∀ g' stage u t, s.calls i = some (g', stage) → L.owner s₁.store u = some t →
      stage.Owes t → stage'.Owes t ∨ (s₁.gate g).boundToken u = some t) :
    Accounted L (s₁.goto i g stage') := by
  intro u t ht
  have hnew : stage'.Owes t → (s₁.goto i g stage').AccountedFor u t := fun h =>
    .inr ⟨i, g, stage', update_self .., h⟩
  rcases hown u t ht with hold | h
  · rcases hs u t hold with ⟨g', hb⟩ | ⟨j, g', st, hj, howe⟩
    · rcases hbnd g' u t ht hb with h | h
      · exact .inl ⟨g', h⟩
      · exact hnew h
    · by_cases hji : j = i
      · subst hji
        rcases howes g' st u t hj ht howe with h | h
        · exact hnew h
        · exact .inl ⟨g, h⟩
      · refine .inr ⟨j, g', st, ?_, howe⟩
        simpa only [goto, update_of_ne hji, hcs] using hj
  · exact hnew h

theorem not_owes (hf : stage.fresh = none) (hd : stage.detached = none) (t : Token) :
    ¬ stage.Owes t := by
  rintro (⟨uid, h⟩ | h)
  · rw [hf] at h
    cases h
  · rw [hd] at h
    cases h

omit [DecidableEq γ] [DecidableEq κ] in
/-- A step that leaves the bindings alone, hands nobody an old token, and keeps what the
call owed unless it is no longer owned. -/
theorem accounted_store (hs : Accounted L s) (hcall : s.calls i = some (g, stage))
    (hcs : s₁.calls = s.calls) (hgate : s₁.gate = s.gate)
    (hown : ∀ u t, L.owner s₁.store u = some t → L.owner s.store u = some t ∨ stage'.Owes t)
    (howes : ∀ u t, L.owner s₁.store u = some t → stage.Owes t → stage'.Owes t) :
    Accounted L (s₁.goto i g stage') := by
  refine accounted_goto hs hcs hown (fun g' u t _ h => .inl (by rwa [hgate])) ?_
  intro g' st u t hst ht howe
  rw [hcall] at hst
  cases hst
  exact .inl (howes u t ht howe)

theorem mayGiveUp_not_owes (h : MayGiveUp stage) (t : Token) : ¬ stage.Owes t := by
  cases stage with
  | localToken | current | unbindToken => exact not_owes rfl rfl t
  | unbindSession | unbindGate => exact not_owes rfl rfl _
  | _ => exact h.elim

variable {t : Token} {sess : Session κ} {uid : ℤ}

/-- `BindToken` in order: the token it replaces is not the owner's, and the one that the
connection carried for another user is the one the call releases next. -/
theorem accounted_binds {b : BindArgs} {l : Token} (hs : TokenInv L tr s)
    (hinv : OwnershipInv L s) (hcall : s.calls i = some (g, .bindToken b l t))
    (hnew : s.installsNewer (.step i reply) = true)
    (hmv : s.connUnmoved (.step i reply) = true)
    (h : (s.gate g).bindToken b.cid b.uid t = .ok sess) :
    Accounted L ((s.setGate g sess).goto i g (bindTokenDone b l t)) := by
  obtain ⟨-, -, -, c, hc, hview⟩ := Session.bindToken_views (hs.index g) h
  obtain ⟨huid, -, -, hle, -⟩ := (hs.call i g _ hcall).fresh b.uid t rfl
  refine accounted_goto hinv.accounted rfl (fun u t' h => .inl h) ?_ ?_
  · intro g' u t' hown hb
    by_cases hg : g' = g
    · subst hg
      simp only [setGate, update_self, hview u]
      by_cases hu : u = b.uid
      · -- the replaced token is older than one that has been allocated
        subst hu
        have hlt := installsNewer_step hnew hcall hb
        obtain ⟨-, -, -, hiss⟩ := hs.latest b.uid t' hown
        omega
      · rw [if_neg hu]
        by_cases huc : (s.gate g').users u = some c
        · right
          obtain ⟨-, hcu, -⟩ := (hs.index g').users_conn u c huc
          have hu0 := (hs.index g').users_ne_zero u c huc
          have hslot : (s.gate g').tokens b.cid = l := by
            rcases connUnmoved_step hmv hcall hc with h0 | h0 | h0
            · exact absurd (hcu.symm.trans h0) hu0
            · exact absurd (hcu.symm.trans h0) hu
            · exact h0
          obtain ⟨c', hc', ht'⟩ := Session.boundToken_eq_some.mp hb
          rw [huc] at hc'
          cases hc'
          rw [(hs.index g').conns_key b.cid c hc, hslot] at ht'
          subst ht'
          obtain ⟨hluid, hlgen, -⟩ := (hs.index g').bound_valid hb
          unfold bindTokenDone
          rw [if_pos ⟨by rw [hluid]; exact hu0, hlgen, by rw [hluid]; exact hu⟩]
          exact .inr rfl
        · rw [if_neg huc]
          exact .inl hb
    · left
      simpa only [setGate, update_of_ne hg] using hb
  · intro g' st u t' hst hown howe
    rw [hcall] at hst
    cases hst
    right
    rcases howe with ⟨uid, hf⟩ | hd
    · cases hf
      obtain ⟨-, hu, -⟩ := hs.latest u t hown
      have hu' : u = b.uid := hu.symm.trans huid
      simp [setGate, hview u, if_pos hu']
    · cases hd

theorem accounted_unbinds {cid : ℤ}
    (hinv : OwnershipInv L s) (hcall : s.calls i = some (g, .unbindSession uid t))
    (hown : s.unbindsOwn (.step i reply) = true)
    (h : (s.gate g).unbind uid = .ok (cid, sess)) :
    Accounted L ((s.setGate g sess).goto i g (.unbindGate uid t)) := by
  obtain ⟨-, -, -, -, hview⟩ := Session.unbind_views h
  refine accounted_goto hinv.accounted rfl (fun u t' h => .inl h) ?_ ?_
  · intro g' u t' howne hb
    left
    by_cases hg : g' = g
    · subst hg
      simp only [setGate, update_self, hview u]
      by_cases hu : u = uid
      · subst hu
        -- what it removes is its own token, which it has released before
        have ht := unbindsOwn_step hown hcall hb
        subst ht
        exact absurd howne (hinv.released i g' u t' hcall)
      · rwa [if_neg hu]
    · simpa only [setGate, update_of_ne hg] using hb
  · intro g' st u t' hst _ howe
    rw [hcall] at hst
    cases hst
    exact absurd howe (not_owes rfl rfl t')

omit [DecidableEq γ] [DecidableEq κ] in
theorem accounted_release (hs : TokenInv L tr s) (hinv : OwnershipInv L s)
    (hcall : s.calls i = some (g, stage)) (hpos : 0 < t.uid) (hgen : t.generation ≠ 0)
    (honly : ∀ t', stage.Owes t' → t' = t) :
    Accounted L ({ s with store := (L.release s.store t.uid t).2 }.goto i g stage') := by
  refine accounted_store hinv.accounted hcall rfl rfl
    (fun _ _ h => .inl (LawfulStore.owner_of_release h)) ?_
  intro u t' ht' howe
  have heq := honly t' howe
  subst heq
  have hu := (hs.latest u t' (LawfulStore.owner_of_release ht')).2.1
  subst hu
  exact absurd ht' (LawfulStore.release_not_owner s.store hpos hgen)

theorem Next.accounted (hs : TokenInv L tr s) (hinv : OwnershipInv L s)
    (hcall : s.calls i = some (g, stage)) (hrp : reply = .ok)
    (hnew : s.installsNewer (.step i reply) = true)
    (hmv : s.connUnmoved (.step i reply) = true)
    (hown : s.unbindsOwn (.step i reply) = true)
    (hn : Next L s i g reply stage e stage' s₁) :
    Accounted L (s₁.goto i g stage') := by
  subst hrp
  have hci := hs.call i g stage hcall
  have hval : ∀ t, stage.detached = some t → 0 < t.uid ∧ t.generation ≠ 0 := by
    intro t ht
    obtain ⟨⟨cid, hb⟩, -⟩ := hci.detached t ht
    obtain ⟨hpos, hgen, -⟩ := hs.bound_valid t g cid hb
    exact ⟨hpos, hgen⟩
  -- only steps that write the store or a session have something to show
  cases hn with
  | giveUp _ err hst =>
    exact accounted_store hinv.accounted hcall rfl rfl (fun _ _ h => .inl h)
      fun _ t _ h => absurd h (mayGiveUp_not_owes hst t)
  | acquireFails b l err store h =>
    obtain ⟨ho, -⟩ := OwnershipStore.acquireReply_error h
    exact accounted_store hinv.accounted hcall rfl rfl (fun _ _ h => .inl (by rwa [← ho]))
      fun _ t _ h => absurd h (not_owes rfl rfl t)
  | acquires b l t store h =>
    obtain ⟨-, -, -, ho, -⟩ := L.acquire_ok _ _ _ _ h
    refine accounted_store hinv.accounted hcall rfl rfl (fun u t' ht' => ?_)
      fun _ t' _ h => absurd h (not_owes rfl rfl t')
    simp only [ho] at ht'
    by_cases hu : u = b.uid
    · subst hu
      rw [update_self] at ht'
      cases ht'
      exact .inr (.inl ⟨b.uid, rfl⟩)
    rw [update_of_ne hu] at ht'
    exact .inl ht'
  | bindFails b l t err h | disconnectUnlocates | disconnectFails =>
    exact accounted_store hinv.accounted hcall rfl rfl (fun _ _ h => .inl h)
      fun _ t' _ h => h
  | binds b l t sess h => exact accounted_binds hs hinv hcall hnew hmv h
  | releasesNew b t =>
    obtain ⟨huid, hpos, hgen, -⟩ := hci.fresh b.uid t rfl
    simp only [← huid]
    refine accounted_release hs hinv hcall (huid ▸ hpos) hgen ?_
    rintro t' (⟨uid, h⟩ | h)
    · cases h
      rfl
    · cases h
  | releasesOld b l =>
    obtain ⟨hpos, hgen⟩ := hval l rfl
    refine accounted_release hs hinv hcall hpos hgen ?_
    rintro t' (⟨uid, h⟩ | h)
    · cases h
    · cases h
      rfl
  | rollsBack uid t err | rollbackNothing uid t err =>
    exact absurd hcall (hinv.no_rollback i g uid t err)
  | rollbackReleases t | unbindReleaseFails uid t | unbindReleases uid t =>
    exact accounted_store hinv.accounted hcall rfl rfl
      (fun _ _ h => .inl (OwnershipStore.owner_of_releaseSession h))
      fun _ t _ h => absurd h (not_owes rfl rfl t)
  | unbinds uid t cid sess h => exact accounted_unbinds hinv hcall hown h
  | disconnectReleases t =>
    obtain ⟨hpos, hgen⟩ := hval t rfl
    simp only [OwnershipStore.releaseSession_of_valid hpos hgen]
    refine accounted_release hs hinv hcall hpos hgen ?_
    rintro t' (⟨uid, h⟩ | h)
    · cases h
    · cases h
      rfl
  | _ =>
    exact accounted_store hinv.accounted hcall rfl rfl (fun _ _ h => .inl h)
      fun _ t _ h => absurd h (not_owes rfl rfl t)

/-- The acting call of a step with successful requests never comes to roll back, and it
removes a binding only after its release. -/
theorem Next.released (hs : TokenInv L tr s) (hcall : s.calls i = some (g, stage))
    (hrp : reply = .ok) (hn : Next L s i g reply stage e stage' s₁) :
    (∀ uid t, stage' = .unbindSession uid t → L.owner s₁.store uid ≠ some t) ∧
      ∀ uid t err, stage' ≠ .rollbackUnbind uid t err := by
  subst hrp
  have hdone : ∀ b t, (∀ uid t', bindDone b t = .unbindSession uid t' →
      L.owner s₁.store uid ≠ some t') ∧ ∀ uid t' err,
        bindDone b t ≠ .rollbackUnbind uid t' err := by
    intro b t
    unfold bindDone
    split <;> simp
  cases hn with
  | unbindReleases uid t =>
    refine ⟨fun uid' t' h => ?_, by simp⟩
    cases h
    obtain ⟨rfl, cid, hb⟩ := (hs.call i g _ hcall).known uid t rfl
    obtain ⟨hpos, hgen, -⟩ := hs.bound_valid t g cid hb
    simp only [OwnershipStore.releaseSession_of_valid hpos hgen]
    exact LawfulStore.release_not_owner s.store hpos hgen
  | locateUnsure uid t err hr | locateFails uid t err hr => exact absurd rfl hr
  | keepToken b l => exact hdone b l
  | releasesOld b l t => exact hdone b t
  | binds b l t =>
    unfold bindTokenDone
    split
    · simp
    · exact hdone b t
  | _ => simp

theorem accounted_disconnect {c : κ}
    (hs : TokenInv L tr s) (hA : Accounted L s) (hfree : s.calls i = none)
    (hc : (s.gate g).conns ((s.gate g).connID c) = some c)
    (h : (s.gate g).remConnWithToken c = ((uid, t), sess))
    (hst : uid ≠ 0 ∧ stage = .disconnectGate uid t ∨ uid = 0 ∧ stage = .returned none) :
    Accounted L ((s.setGate g sess).goto i g stage) := by
  obtain ⟨-, -, -, -, hbnd, hview⟩ := Session.remConnWithToken_views (hs.index g) hc h
  refine accounted_goto hA rfl (fun u t' h => .inl h) ?_ ?_
  · intro g' u t' _ hb
    by_cases hg : g' = g
    · subst hg
      simp only [setGate, update_self, hview u]
      rcases hst with ⟨h0, rfl⟩ | ⟨h0, rfl⟩
      · by_cases hu : u = uid
        · subst hu
          -- the call owes the token until its own release
          rw [hbnd h0] at hb
          cases hb
          exact .inr (.inr rfl)
        · simp [hu, hb]
      · simp [h0, hb]
    · left
      simpa only [setGate, update_of_ne hg] using hb
  · intro g' st u t' hst'
    rw [hfree] at hst'
    cases hst'

end Step

/-- The condition on a scheduler choice: requests succeed, binds are installed in the order
of their tokens and on connections that have not moved, and `Unbind` finds its own token. -/
def ownershipGuard (s : Cluster γ κ σ) (act : Action γ κ) : Bool :=
  requestsSucceed act && s.installsNewer act && s.connUnmoved act && s.unbindsOwn act

variable {L : LawfulStore σ} {s : Cluster γ κ σ} {i : ℕ} {g : γ} {tr : List (Event γ)}
  {heap : γ → κ → ConnObj} {store : σ}

omit [DecidableEq γ] [DecidableEq κ] in
theorem OwnershipInv.goto {s₁ : Cluster γ κ σ}
    {stage' : Stage} (hinv : OwnershipInv L s) (hcs : s₁.calls = s.calls)
    (hacc : Accounted L (s₁.goto i g stage'))
    (hrel : ∀ j g' uid t, s.calls j = some (g', .unbindSession uid t) →
      L.owner s₁.store uid ≠ some t)
    (hown : ∀ uid t, stage' = .unbindSession uid t → L.owner s₁.store uid ≠ some t)
    (hno : ∀ uid t err, stage' ≠ .rollbackUnbind uid t err) :
    OwnershipInv L (s₁.goto i g stage') := by
  refine ⟨hacc, fun j g' uid t hj => ?_, fun j g' uid t err hj => ?_⟩
  · rcases goto_calls hj with ⟨-, hx⟩ | ⟨-, hj⟩
    · cases hx
      exact hown uid t rfl
    · exact hrel j g' uid t (hcs ▸ hj)
  · rcases goto_calls hj with ⟨-, hx⟩ | ⟨-, hj⟩
    · cases hx
      exact hno uid t err rfl
    · exact hinv.no_rollback j g' uid t err (hcs ▸ hj)

theorem OwnershipInv.transition {s' : Cluster γ κ σ}
    {e : Event γ} {act : Action γ κ} (hs : TokenInv L tr s) (hinv : OwnershipInv L s)
    (hG : s.ownershipGuard act = true) (ht : Transition L s act e s') : OwnershipInv L s' := by
  simp only [ownershipGuard, Bool.and_eq_true] at hG
  obtain ⟨⟨⟨hok, hnew⟩, hmv⟩, hown⟩ := hG
  cases ht with
  | connect g c =>
    obtain ⟨-, -, -, -, hview⟩ := Session.connect_views (s.gate g) c
    refine ⟨fun u t howne => ?_, hinv.released, hinv.no_rollback⟩
    rcases hinv.accounted u t howne with ⟨g', hb⟩ | h
    · refine .inl ⟨g', ?_⟩
      by_cases hg : g' = g
      · subst hg
        simpa only [setGate, update_self, hview u] using hb
      · simpa only [setGate, update_of_ne hg] using hb
    · exact .inr h
  | start i g entry stage hfree hst =>
    obtain ⟨h1, h2, h3, h4⟩ := starts_none hst
    refine hinv.goto rfl ?_ hinv.released ?_ ?_
    · refine accounted_goto hinv.accounted rfl (fun _ _ h => .inl h)
        (fun _ _ _ _ h => .inl h) fun g' st u t hst' => ?_
      rw [hfree] at hst'
      cases hst'
    · rintro uid t rfl
      cases h3
    · rintro uid t err rfl
      cases h3
  | disconnect i g c uid t sess stage hfree hc hrem hst =>
    refine hinv.goto rfl (accounted_disconnect hs hinv.accounted hfree hc hrem hst) hinv.released
      ?_ ?_
    · rintro uid' t' rfl
      rcases hst with ⟨-, h⟩ | ⟨-, h⟩ <;> cases h
    · rintro uid' t' err rfl
      rcases hst with ⟨-, h⟩ | ⟨-, h⟩ <;> cases h
  | next i reply g stage _ stage' s₁ hcall hn =>
    have hrp := requestsSucceed_step hok
    obtain ⟨hrel, hno⟩ := hn.released hs hcall hrp
    refine hinv.goto hn.calls (hn.accounted hs hinv hcall hrp hnew hmv hown) ?_ hrel hno
    -- a released token stays released: it is older than what the store hands out
    intro j g' uid t hj howne
    obtain ⟨huid, cid, hb⟩ := (hs.call j g' _ hj).known uid t rfl
    have hle := (hs.bound_valid t g' cid hb).2.2.1
    rw [huid] at hle
    have hmov := (hn.evolves hs.index).store
    exact hinv.released j g' uid t hj (hmov.owner_old howne hle)

omit [DecidableEq γ] [DecidableEq κ] in
theorem init_ownershipInv
    (hown : ∀ u, L.owner store u = none) : OwnershipInv L (init heap store) := by
  refine ⟨fun u t h => ?_, fun i g uid t h => ?_, fun i g uid t err h => ?_⟩
  · have h' : L.owner store u = some t := h
    rw [hown u] at h'
    cases h'
  · cases h
  · cases h

theorem run_ownershipInv (hid : ∀ g, Function.Injective fun c => (heap g c).id)
    (hown : ∀ u, L.owner store u = none)
    (hrun : Run (guardedRel (step L.toOwnershipStore) ownershipGuard)
      (init heap store) tr s) : OwnershipInv L s := by
  refine (run_invariant (fun tr s => TokenInv L tr s ∧ OwnershipInv L s)
    ⟨init_tokenInv hid hown, init_ownershipInv hown⟩ ?_ hrun).2
  rintro tr s e s' ⟨hs, hinv⟩ ⟨act, hG, hstep⟩
  have ht := step_transition hstep
  exact ⟨hs.transition ht, hinv.transition hs hG ht⟩

omit [DecidableEq γ] [DecidableEq κ] in
theorem Quiescent.not_owes (hq : s.Quiescent)
    {stage : Stage} (hcall : s.calls i = some (g, stage)) (t : Token) : ¬ stage.Owes t := by
  obtain ⟨err, rfl⟩ := hq i g stage hcall
  exact Cluster.not_owes rfl rfl t

/-- No orphaned ownership: in a run whose steps meet the condition, once every call has
returned, whatever the store reports as owned is the binding of a registered connection. -/
theorem no_orphaned_ownership (L : LawfulStore σ) (heap : γ → κ → ConnObj) (store : σ)
    (hid : ∀ g, Function.Injective fun c => (heap g c).id)
    (hown : ∀ u, L.owner store u = none) (tr : List (Event γ)) (s : Cluster γ κ σ)
    (hrun : Run (guardedRel (step L.toOwnershipStore) ownershipGuard)
      (init heap store) tr s)
    (hq : s.Quiescent) (u : ℤ) (t : Token) (ht : L.current s.store u = .ok (some t)) :
    ∃ g c, (s.gate g).users u = some c ∧ (s.gate g).conns ((s.gate g).connID c) = some c ∧
      (s.gate g).tokens ((s.gate g).connID c) = t := by
  have hs := run_tokenInv hid hown hrun
  have howne := (L.current_ok s.store u (some t) ht).symm
  rcases (run_ownershipInv hid hown hrun).accounted u t howne with ⟨g, hb⟩ | ⟨i, g, st, hi, howe⟩
  · obtain ⟨c, hc, htok⟩ := Session.boundToken_eq_some.mp hb
    exact ⟨g, c, hc, ((hs.index g).users_conn u c hc).1, htok⟩
  · exact absurd howe (hq.not_owes hi t)

def crossedBinds : List (Action Unit Bool) :=
  [.connect () false, .call 0 () (.bind 1 5), .call 1 () (.bind 1 6), .step 0 .ok, .step 1 .ok,
    .step 0 .ok, .step 1 .ok, .step 0 .ok, .step 1 .ok, .step 0 .ok, .step 1 .ok]

def crossedBindsRun : Option (List (Event Unit) × Cluster Unit Bool MemoryOwnershipStore) :=
  exec (step memoryStore.toOwnershipStore) (fun _ => requestsSucceed)
    (init twoIdle MemoryOwnershipStore.new) crossedBinds

/-- It ends with user 5 owned and bound nowhere. -/
theorem crossed_binds_orphan_ownership : ∃ tr s,
    Run (guardedRel (step memoryStore.toOwnershipStore) (fun _ => requestsSucceed))
      (init twoIdle MemoryOwnershipStore.new) tr s ∧ s.Quiescent ∧
      memoryStore.current s.store 5 = .ok (some ⟨5, 1⟩) ∧ (s.gate ()).users 5 = none := by
  have hrun : crossedBindsRun.isSome = true := by decide
  exact ⟨_, _, run_of_exec _ hrun, quiescent_of_returnedBelow 2 rfl fun _ => rfl, by rfl, by rfl⟩

def bindThenMove : List (Action Unit Bool) :=
  [.connect () false, .call 0 () (.bind 1 5), .step 0 .ok, .step 0 .ok, .step 0 .ok, .step 0 .ok,
    .call 1 () (.bind 1 6), .step 1 .ok, .step 1 .ok, .step 1 .ok, .step 1 .ok, .step 1 .ok]

def bindThenMoveRun : Option (List (Event Unit) × Cluster Unit Bool MemoryOwnershipStore) :=
  exec (step memoryStore.toOwnershipStore) ownershipGuard
    (init twoIdle MemoryOwnershipStore.new) bindThenMove

theorem no_orphaned_ownership_bindThenMove :
    ∃ s : Cluster Unit Bool MemoryOwnershipStore, s.Quiescent ∧
      memoryStore.current s.store 6 = .ok (some ⟨6, 1⟩) ∧
      ∃ g c, (s.gate g).users 6 = some c ∧ (s.gate g).conns ((s.gate g).connID c) = some c ∧
        (s.gate g).tokens ((s.gate g).connID c) = ⟨6, 1⟩ := by
  have hrun : bindThenMoveRun.isSome = true := by decide
  have hq : (bindThenMoveRun.get hrun).2.Quiescent := quiescent_of_returnedBelow 2 rfl fun _ => rfl
  have ht : memoryStore.current (bindThenMoveRun.get hrun).2.store 6 = .ok (some ⟨6, 1⟩) := by
    rfl
  exact ⟨_, hq, ht, no_orphaned_ownership memoryStore twoIdle MemoryOwnershipStore.new
    twoIdle_id_injective (fun _ => rfl) _ _ (run_of_exec _ hrun) hq 6 ⟨6, 1⟩ ht⟩

end Cluster

end DueServer
