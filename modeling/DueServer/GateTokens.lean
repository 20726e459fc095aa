import DueServer.GateSteps

/-! Where tokens are. A token is allocated by the store, held by the call that acquired it, and
bound at most once; from then on it stays in one slot of one gate until that slot is overwritten. -/
namespace DueServer

open Session

open Function (update_self update_of_ne)

namespace Stage

def fresh : Stage → Option (ℤ × Token)
  | .bindToken b _ t | .releaseNew b t _ => some (b.uid, t)
  | _ => none

def found : Stage → Option (ℤ × Token)
  | .isCurrent b l | .current b l | .acquire b l | .bindToken b l _ => some (b.cid, l)
  | _ => none

def known : Stage → Option (ℤ × Token)
  | .current b l => some (b.uid, l)
  | .releaseOld b _ t => some (b.uid, t)
  | .bindGate uid t | .rollbackUnbind uid t _ => some (uid, t)
  | .unbindRelease uid t | .unbindSession uid t | .unbindGate uid t => some (uid, t)
  | .disconnectGate uid t => some (uid, t)
  | _ => none

def detached : Stage → Option Token
  | .releaseOld _ l _ => some l
  | .disconnectGate _ t | .disconnectRelease t => some t
  | _ => none

end Stage

namespace Cluster

variable {γ κ σ : Type}

def Bound (tr : List (Event γ)) (t : Token) (g : γ) (cid : ℤ) : Prop :=
  ∃ i uid, Event.boundToken i g cid uid t ∈ tr

variable {tr : List (Event γ)} {e : Event γ} {t : Token} {g : γ} {cid : ℤ} {L : LawfulStore σ}
  {s s₁ : Cluster γ κ σ} {heap : γ → κ → ConnObj} {store : σ}

theorem bound_snoc :
    Bound (tr ++ [e]) t g cid ↔ Bound tr t g cid ∨ ∃ i uid, e = .boundToken i g cid uid t := by
  simp [Bound, exists_or, eq_comm]

theorem Bound.snoc (h : Bound tr t g cid) (e : Event γ) : Bound (tr ++ [e]) t g cid :=
  bound_snoc.mpr (.inl h)

structure CallInv (L : LawfulStore σ) (tr : List (Event γ)) (s : Cluster γ κ σ) (g : γ)
    (stage : Stage) : Prop where
  fresh : ∀ uid t, stage.fresh = some (uid, t) →
    t.uid = uid ∧ 0 < uid ∧ t.generation ≠ 0 ∧ t.generation ≤ L.issued s.store uid ∧
      ∀ g' cid, ¬ Bound tr t g' cid
  found : ∀ cid l, stage.found = some (cid, l) → l = 0 ∨ Bound tr l g cid
  known : ∀ uid t, stage.known = some (uid, t) → t.uid = uid ∧ ∃ cid, Bound tr t g cid
  detached : ∀ t, stage.detached = some t →
    (∃ cid, Bound tr t g cid) ∧ ∀ g' cid, (s.gate g').tokens cid ≠ t
  same_user : ∀ b l, stage = .isCurrent b l → l.uid = b.uid

structure TokenInv (L : LawfulStore σ) (tr : List (Event γ)) (s : Cluster γ κ σ) : Prop where
  index : ∀ g, (s.gate g).IndexInv
  latest : L.OwnerLatest s.store
  bound_valid : ∀ t g cid, Bound tr t g cid →
    0 < t.uid ∧ t.generation ≠ 0 ∧ t.generation ≤ L.issued s.store t.uid ∧
      t.generation ≤ (s.gate g).generations t.uid
  bound_once : ∀ t g cid g' cid', Bound tr t g cid → Bound tr t g' cid' → g = g' ∧ cid = cid'
  slot_bound : ∀ g cid, (s.gate g).tokens cid ≠ 0 → Bound tr ((s.gate g).tokens cid) g cid
  call : ∀ i g stage, s.calls i = some (g, stage) → CallInv L tr s g stage
  fresh_unique : ∀ i j g g' stage stage' uid uid' t, s.calls i = some (g, stage) →
    s.calls j = some (g', stage') → stage.fresh = some (uid, t) →
    stage'.fresh = some (uid', t) → i = j

section

variable {L : LawfulStore σ} {tr : List (Event γ)} {s : Cluster γ κ σ}

variable {t : Token} {g : γ} {cid : ℤ}

theorem TokenInv.bound_ne_zero (hs : TokenInv L tr s) (h : Bound tr t g cid) : t ≠ 0 := by
  rintro rfl
  exact (hs.bound_valid 0 g cid h).2.1 rfl

theorem TokenInv.bound_of_boundToken (hs : TokenInv L tr s) {uid : ℤ}
    (h : (s.gate g).boundToken uid = some t) :
    t.uid = uid ∧ ∃ cid, Bound tr t g cid ∧ (s.gate g).tokens cid = t := by
  obtain ⟨huid, -, hne⟩ := (hs.index g).bound_valid h
  obtain ⟨c, -, hslot⟩ := boundToken_eq_some.mp h
  have hb := hs.slot_bound g ((s.gate g).connID c) (by rwa [hslot])
  rw [hslot] at hb
  exact ⟨huid, _, hb, hslot⟩

theorem TokenInv.slot_unique (hs : TokenInv L tr s) {g' : γ} {cid' : ℤ}
    (hb : Bound tr t g cid) (hslot : (s.gate g').tokens cid' = t) : g' = g ∧ cid' = cid := by
  have hne : (s.gate g').tokens cid' ≠ 0 := by
    rw [hslot]
    exact hs.bound_ne_zero hb
  have hb' := hs.slot_bound g' cid' hne
  rw [hslot] at hb'
  exact hs.bound_once t g' cid' g cid hb' hb

end

/-- What a step does to the slots, the counters and the store: slots are cleared, or take
the token that the event names. -/
structure Evolves (L : LawfulStore σ) (s : Cluster γ κ σ) (e : Event γ) (s₁ : Cluster γ κ σ) :
    Prop where
  slot : ∀ g cid, (s₁.gate g).tokens cid = (s.gate g).tokens cid ∨
    (s₁.gate g).tokens cid = 0 ∨ ∃ i uid t, e = .boundToken i g cid uid t ∧
      (s₁.gate g).tokens cid = t
  generations : ∀ g u, (s.gate g).generations u ≤ (s₁.gate g).generations u
  store : L.Moves s.store s₁.store
  index : ∀ g, (s₁.gate g).IndexInv

theorem Evolves.setGate_same [DecidableEq γ] {sess : Session κ}
    (e : Event γ) (hs : ∀ g, (s.gate g).IndexInv) (hi : sess.IndexInv)
    (ht : sess.tokens = (s.gate g).tokens) (hg : sess.generations = (s.gate g).generations) :
    Evolves L s e (s.setGate g sess) := by
  refine ⟨fun g' cid => .inl ?_, fun g' u => ?_, .same, fun g' => ?_⟩ <;>
    by_cases h : g' = g
  · subst h
    simp [setGate, ht]
  · simp [setGate, h]
  · subst h
    simp [setGate, hg]
  · simp [setGate, h]
  · subst h
    simpa [setGate] using hi
  · simpa [setGate, h] using hs g'

theorem Evolves.of_gate_eq (e : Event γ)
    (hs : ∀ g, (s.gate g).IndexInv) (hg : s₁.gate = s.gate) (hst : L.Moves s.store s₁.store) :
    Evolves L s e s₁ := by
  refine ⟨fun g cid => .inl ?_, fun g u => ?_, hst, fun g => ?_⟩ <;> rw [hg]
  exact hs g

theorem Next.evolves [DecidableEq γ] [DecidableEq κ] {i : ℕ} {reply : Reply}
    {stage stage' : Stage} (hs : ∀ g, (s.gate g).IndexInv)
    (h : Next L s i g reply stage e stage' s₁) : Evolves L s e s₁ := by
  cases h with
  | binds b l t sess hb =>
    obtain ⟨-, htok, hgen, -⟩ := bindToken_views (hs g) hb
    have hinv := bindToken_inv (hs g) hb
    refine ⟨fun g' cid => ?_, fun g' u => ?_, .same, fun g' => ?_⟩ <;>
      by_cases h : g' = g
    · subst h
      simp only [setGate, update_self, htok]
      by_cases hcid : cid = b.cid
      · subst hcid
        exact .inr (.inr ⟨i, b.uid, t, rfl, update_self ..⟩)
      · exact .inl (update_of_ne hcid ..)
    · exact .inl (by simp [setGate, h])
    · subst h
      simp only [setGate, update_self, hgen]
      by_cases hu : u = b.uid
      · subst hu
        rw [update_self]
        exact le_max_left _ _
      · rw [update_of_ne hu]
    · simp [setGate, h]
    · subst h
      simpa [setGate] using hinv
    · simpa [setGate, h] using hs g'
  | rollsBack uid t err cid sess hu | unbinds uid t cid sess hu =>
    obtain ⟨-, htok, hgen, -⟩ := unbind_views hu
    exact .setGate_same _ hs (unbind_inv (hs g) hu) htok hgen
  | acquireFails b l err store ha =>
    refine .of_gate_eq _ hs rfl ?_
    have hm := OwnershipStore.acquireReply_moves (L := L) reply s.store b.uid
    rwa [ha] at hm
  | acquires b l t store ha =>
    refine .of_gate_eq _ hs rfl ?_
    have hm : L.Moves s.store (L.acquire s.store b.uid).2 := .acquired b.uid
    rwa [ha] at hm
  | releasesNew b t =>
    exact .of_gate_eq _ hs rfl (OwnershipStore.releaseReply_moves reply s.store b.uid t)
  | releasesOld b l =>
    exact .of_gate_eq _ hs rfl (OwnershipStore.releaseReply_moves reply s.store l.uid l)
  | rollbackReleases t | unbindReleaseFails uid t | unbindReleases uid t
  | disconnectReleases t =>
    exact .of_gate_eq _ hs rfl (OwnershipStore.releaseSession_moves reply s.store t)
  | _ => exact .of_gate_eq _ hs rfl .same

section Preservation

variable {L : LawfulStore σ} {tr : List (Event γ)} {s s₁ : Cluster γ κ σ} {e : Event γ}
  {i : ℕ} {g : γ} {reply : Reply} {stage stage' : Stage}

/-- The steps of others leave a call what it relies on: a token that is newly bound is
neither one that was bound before nor one that this call holds. -/
theorem CallInv.evolves (hs : TokenInv L tr s) (hev : Evolves L s e s₁)
    (hc : CallInv L tr s g stage)
    (hnew : ∀ j g' cid uid t, e = .boundToken j g' cid uid t →
      (∀ g cid, ¬ Bound tr t g cid) ∧ ∀ u, stage.fresh ≠ some (u, t)) :
    CallInv L (tr ++ [e]) s₁ g stage := by
  refine ⟨fun uid t h => ?_, fun cid l h => ?_, fun uid t h => ?_, fun t h => ?_, hc.same_user⟩
  · obtain ⟨huid, hpos, hgen, hle, hnb⟩ := hc.fresh uid t h
    refine ⟨huid, hpos, hgen, hle.trans (hev.store.issued_mono uid), fun g' cid hb => ?_⟩
    rcases bound_snoc.mp hb with hb | ⟨j, u, he⟩
    · exact hnb g' cid hb
    · exact (hnew j g' cid u t he).2 uid h
  · exact (hc.found cid l h).imp_right fun hb => hb.snoc e
  · obtain ⟨huid, cid, hb⟩ := hc.known uid t h
    exact ⟨huid, cid, hb.snoc e⟩
  · obtain ⟨⟨cid, hb⟩, hslot⟩ := hc.detached t h
    refine ⟨⟨cid, hb.snoc e⟩, fun g' cid' heq => ?_⟩
    rcases hev.slot g' cid' with hkeep | hzero | ⟨j, u, t', he, ht'⟩
    · exact hslot g' cid' (hkeep.symm.trans heq)
    · exact hs.bound_ne_zero hb (heq.symm.trans hzero)
    rw [ht'] at heq
    subst heq
    exact (hnew j g' cid' u t' he).1 g cid hb

theorem CallInv.of_known (hfr : stage.fresh = none) (hfd : stage.found = none)
    (hdet : stage.detached = none) (hkn : ∀ uid t, stage.known = some (uid, t) →
      t.uid = uid ∧ ∃ cid, Bound tr t g cid) : CallInv L tr s g stage := by
  refine ⟨fun uid t h => ?_, fun cid l h => ?_, hkn, fun t h => ?_, fun b l h => ?_⟩
  · rw [hfr] at h
    cases h
  · rw [hfd] at h
    cases h
  · rw [hdet] at h
    cases h
  · rw [h] at hfd
    cases hfd

theorem CallInv.of_none (hfr : stage.fresh = none) (hfd : stage.found = none)
    (hkn : stage.known = none) (hdet : stage.detached = none) : CallInv L tr s g stage := by
  refine .of_known hfr hfd hdet fun uid t h => ?_
  rw [hkn] at h
  cases h

theorem CallInv.returned (err : Option DueErr) : CallInv L tr s g (.returned err) :=
  .of_none rfl rfl rfl rfl

variable {uid : ℤ} {t : Token} {b : BindArgs}

theorem CallInv.bindDone
    (h : t.uid = b.uid ∧ ∃ cid, Bound tr t g cid) : CallInv L tr s g (bindDone b t) := by
  unfold Cluster.bindDone
  split
  · exact .of_known rfl rfl rfl (by rintro _ _ ⟨⟩; exact h)
  · exact .returned none

theorem CallInv.acquire {l : Token} (h : l = 0 ∨ Bound tr l g b.cid) :
    CallInv L tr s g (.acquire b l) := by
  refine ⟨nofun, fun cid l' h' => ?_, nofun, nofun, nofun⟩
  cases h'
  exact h

variable [DecidableEq γ] [DecidableEq κ]

theorem Next.binds_fresh (hs : TokenInv L tr s)
    (hn : Next L s i g reply stage e stage' s₁) {j : ℕ} {g' : γ} {cid : ℤ}
    (he : e = .boundToken j g' cid uid t) :
    j = i ∧ g' = g ∧ stage.fresh = some (uid, t) ∧ t.generation ≤ (s₁.gate g).generations uid := by
  cases hn with
  | binds b l t' sess hb =>
    cases he
    refine ⟨rfl, rfl, rfl, ?_⟩
    obtain ⟨-, -, hgen, -⟩ := bindToken_views (hs.index g) hb
    simp only [setGate, update_self, hgen]
    exact le_max_right _ _
  | _ => cases he

theorem Next.callInv (hs : TokenInv L tr s) (hcall : s.calls i = some (g, stage))
    (hn : Next L s i g reply stage e stage' s₁) : CallInv L (tr ++ [e]) s₁ g stage' := by
  have hev := hn.evolves hs.index
  have hc := hs.call i g stage hcall
  -- at a step that binds nothing, what the call relied on still holds
  have hkeep : (∀ j g' cid uid t, e ≠ .boundToken j g' cid uid t) →
      CallInv L (tr ++ [e]) s₁ g stage := fun hne =>
    hc.evolves hs hev fun j g' cid uid t he => absurd he (hne j g' cid uid t)
  have hslot : ∀ cid, (s.gate g).tokens cid = 0 ∨ Bound tr ((s.gate g).tokens cid) g cid :=
    fun cid => or_iff_not_imp_left.mpr (hs.slot_bound g cid)
  cases hn with
  | giveUp | acquireFails | releasesNew | locates | rollbackReleases | unbindReleaseFails
  | unlocates | disconnectReleases => exact .returned _
  | readLocal b l h huid =>
    obtain ⟨-, rfl⟩ := (token_conn_ok (hs.index g)).mp h
    refine ⟨by rintro _ _ ⟨⟩, fun cid l h => ?_, by rintro _ _ ⟨⟩, by rintro _ ⟨⟩, fun b' l h => ?_⟩
    · cases h
      exact (hslot b.cid).imp_right fun hb => hb.snoc _
    · cases h
      exact huid
  | readOther b l h =>
    obtain ⟨-, rfl⟩ := (token_conn_ok (hs.index g)).mp h
    exact .acquire ((hslot b.cid).imp_right fun hb => hb.snoc _)
  | seen b l h =>
    obtain ⟨-, hgen, -⟩ := isCurrent_iff.mp h
    have hc' := hkeep (by simp)
    have hb := (hc'.found b.cid l rfl).resolve_left fun h0 => hgen (by rw [h0]; rfl)
    refine ⟨by rintro _ _ ⟨⟩, hc'.found, fun uid t h => ?_, by rintro _ ⟨⟩, by rintro _ _ ⟨⟩⟩
    cases h
    exact ⟨hc.same_user b l rfl, b.cid, hb⟩
  | notCurrent b l | notOwner b l => exact .acquire ((hkeep (by simp)).found b.cid l rfl)
  | keepToken b l => exact .bindDone ((hkeep (by simp)).known b.uid l rfl)
  | acquires b l t store h =>
    obtain ⟨hpos, huid, hlt, -, hiss⟩ := L.acquire_ok _ _ _ _ h
    refine ⟨fun uid t' h' => ?_, (hkeep (by simp)).found, by rintro _ _ ⟨⟩, by rintro _ ⟨⟩,
      by rintro _ _ ⟨⟩⟩
    cases h'
    refine ⟨huid, hpos, by omega, by simp [hiss], fun g' cid hb => ?_⟩
    -- every token bound so far has an older generation
    rcases bound_snoc.mp hb with hb | ⟨j, u, he⟩
    · have hle := (hs.bound_valid t g' cid hb).2.2.1
      rw [huid] at hle
      omega
    · cases he
  | bindFails =>
    exact ⟨(hkeep (by simp)).fresh, by rintro _ _ ⟨⟩, by rintro _ _ ⟨⟩, by rintro _ ⟨⟩,
      by rintro _ _ ⟨⟩⟩
  | binds b l t sess h =>
    obtain ⟨-, htok, -, -⟩ := bindToken_views (hs.index g) h
    obtain ⟨huid, -, -, -, hnb⟩ := hc.fresh b.uid t rfl
    have hb : Bound (tr ++ [.boundToken i g b.cid b.uid t]) t g b.cid :=
      bound_snoc.mpr (.inr ⟨i, b.uid, rfl⟩)
    unfold bindTokenDone
    split
    · rename_i hold
      have hl := (hc.found b.cid l rfl).resolve_left fun h0 => hold.1 (by rw [h0]; rfl)
      refine ⟨by rintro _ _ ⟨⟩, by rintro _ _ ⟨⟩, fun uid t' h => ?_, fun t' h => ?_,
        by rintro _ _ ⟨⟩⟩
      · cases h
        exact ⟨huid, b.cid, hb⟩
      · -- the old token was in the slot that has just been overwritten
        cases h
        refine ⟨⟨b.cid, hl.snoc _⟩, fun g' cid hslot' => ?_⟩
        by_cases hg : g' = g
        · subst hg
          simp only [setGate, update_self, htok] at hslot'
          by_cases hcid : cid = b.cid
          · subst hcid
            rw [update_self] at hslot'
            exact hnb g' b.cid (hslot' ▸ hl)
          rw [update_of_ne hcid] at hslot'
          exact hcid (hs.slot_unique hl hslot').2
        · simp only [setGate, update_of_ne hg] at hslot'
          exact hg (hs.slot_unique hl hslot').1
    · exact .bindDone ⟨huid, b.cid, hb⟩
  | releasesOld b l t => exact .bindDone ((hkeep (by simp)).known b.uid t rfl)
  | locateUnsure uid t | locateFails uid t | unbindReleases uid t | unbinds uid t =>
    exact .of_known rfl rfl rfl (hkeep (by simp)).known
  | rollbackNothing | rollsBack => exact .of_none rfl rfl rfl rfl
  | readUser uid t h =>
    obtain ⟨huid, cid, hb, -⟩ := hs.bound_of_boundToken h
    exact .of_known rfl rfl rfl (by rintro _ _ ⟨⟩; exact ⟨huid, cid, hb.snoc _⟩)
  | disconnectUnlocates | disconnectFails =>
    exact ⟨by rintro _ _ ⟨⟩, by rintro _ _ ⟨⟩, by rintro _ _ ⟨⟩, (hkeep (by simp)).detached,
      by rintro _ _ ⟨⟩⟩

omit [DecidableEq κ] [DecidableEq γ] in
theorem TokenInv.evolves (hs : TokenInv L tr s) (hev : Evolves L s e s₁)
    (hbind : ∀ j g cid uid t, e = .boundToken j g cid uid t →
      0 < t.uid ∧ t.generation ≠ 0 ∧ t.generation ≤ L.issued s.store t.uid ∧
        t.generation ≤ (s₁.gate g).generations t.uid ∧ ∀ g cid, ¬ Bound tr t g cid)
    (hcall : ∀ j g stage, s₁.calls j = some (g, stage) → CallInv L (tr ++ [e]) s₁ g stage)
    (huni : ∀ i j g g' stage stage' uid uid' t, s₁.calls i = some (g, stage) →
      s₁.calls j = some (g', stage') → stage.fresh = some (uid, t) →
      stage'.fresh = some (uid', t) → i = j) : TokenInv L (tr ++ [e]) s₁ := by
  refine ⟨hev.index, hev.store.latest hs.latest, fun t g cid hb => ?_,
    fun t g cid g' cid' hb hb' => ?_, fun g cid hne => ?_, hcall, huni⟩
  · rcases bound_snoc.mp hb with hb | ⟨j, u, he⟩
    · obtain ⟨hpos, hgen, hiss, hgens⟩ := hs.bound_valid t g cid hb
      exact ⟨hpos, hgen, hiss.trans (hev.store.issued_mono _),
        hgens.trans (hev.generations g _)⟩
    · obtain ⟨hpos, hgen, hiss, hgens, -⟩ := hbind j g cid u t he
      exact ⟨hpos, hgen, hiss.trans (hev.store.issued_mono _), hgens⟩
  · -- the token of the event is new, so two bindings of one token are the same event
    rcases bound_snoc.mp hb with hb | ⟨j, u, he⟩ <;>
      rcases bound_snoc.mp hb' with hb' | ⟨j', u', he'⟩
    · exact hs.bound_once t g cid g' cid' hb hb'
    · exact absurd hb ((hbind j' g' cid' u' t he').2.2.2.2 g cid)
    · exact absurd hb' ((hbind j g cid u t he).2.2.2.2 g' cid')
    rw [he] at he'
    cases he'
    exact ⟨rfl, rfl⟩
  · rcases hev.slot g cid with hkeep | hzero | ⟨j, u, t, he, ht⟩
    · rw [hkeep] at hne ⊢
      exact (hs.slot_bound g cid hne).snoc e
    · exact absurd hzero hne
    · rw [ht]
      exact bound_snoc.mpr (.inr ⟨j, u, he⟩)

omit [DecidableEq γ] [DecidableEq κ] in
/-- One call takes a step, starts or ends, and holds no fresh token but its own or one
that has just been acquired. -/
theorem TokenInv.goto (hs : TokenInv L tr s) (hev : Evolves L s e s₁) (hcs : s₁.calls = s.calls)
    (hbind : ∀ j g' cid uid t, e = .boundToken j g' cid uid t → j = i ∧ g' = g ∧
      (∃ stage, s.calls i = some (g, stage) ∧ stage.fresh = some (uid, t)) ∧
      t.generation ≤ (s₁.gate g).generations uid)
    (hstg : CallInv L (tr ++ [e]) s₁ g stage')
    (hfr : ∀ uid t, stage'.fresh = some (uid, t) →
      (∃ stage, s.calls i = some (g, stage) ∧ stage.fresh = some (uid, t)) ∨
        L.issued s.store uid < t.generation) :
    TokenInv L (tr ++ [e]) (s₁.goto i g stage') := by
  have hoth : ∀ j g' st, j ≠ i → s.calls j = some (g', st) → CallInv L (tr ++ [e]) s₁ g' st := by
    intro j g' st hji hj
    refine (hs.call j g' st hj).evolves hs hev fun k g₁ cid uid t he => ?_
    obtain ⟨rfl, rfl, ⟨stage, hcall, hf⟩, -⟩ := hbind k g₁ cid uid t he
    refine ⟨((hs.call k g₁ stage hcall).fresh uid t hf).2.2.2.2, fun u hu => ?_⟩
    exact hji (hs.fresh_unique j k g' g₁ st stage u uid t hj hcall hu hf)
  -- a token that a call other than `i` holds is not held by `i`
  have halo : ∀ j g' st u u' t, j ≠ i → s.calls j = some (g', st) →
      st.fresh = some (u, t) → stage'.fresh ≠ some (u', t) := by
    intro j g' st u u' t hji hj hu hu'
    rcases hfr u' t hu' with ⟨stage, hcall, hf⟩ | hlt
    · exact hji (hs.fresh_unique j i g' g st stage u u' t hj hcall hu hf)
    obtain ⟨huid, -, -, hle, -⟩ := (hs.call j g' st hj).fresh u t hu
    obtain ⟨huid', -⟩ := hstg.fresh u' t hu'
    rw [← huid, huid'] at hle
    omega
  have hev' : Evolves L s e (s₁.goto i g stage') :=
    ⟨hev.slot, hev.generations, hev.store, hev.index⟩
  refine hs.evolves hev' ?_ ?_ ?_
  · intro j g' cid uid t he
    obtain ⟨rfl, rfl, ⟨stage, hcall, hf⟩, hgens⟩ := hbind j g' cid uid t he
    obtain ⟨rfl, hpos, hgen, hle, hnb⟩ := (hs.call j g' stage hcall).fresh uid t hf
    exact ⟨hpos, hgen, hle, hgens, hnb⟩
  · intro j g' st hj
    rcases goto_calls hj with ⟨-, hx⟩ | ⟨hji, hj⟩
    · cases hx
      exact ⟨hstg.fresh, hstg.found, hstg.known, hstg.detached, hstg.same_user⟩
    rw [hcs] at hj
    have h := hoth j g' st hji hj
    exact ⟨h.fresh, h.found, h.known, h.detached, h.same_user⟩
  · intro j k g₁ g₂ st st' u u' t hj hk hu hu'
    rcases goto_calls hj with ⟨hji, hx⟩ | ⟨hji, hj⟩ <;>
      rcases goto_calls hk with ⟨hki, hy⟩ | ⟨hki, hk⟩
    · exact hji.trans hki.symm
    · cases hx
      rw [hcs] at hk
      exact absurd hu (halo k g₂ st' u' u t hki hk hu')
    · cases hy
      rw [hcs] at hj
      exact absurd hu' (halo j g₁ st u u' t hji hj hu)
    rw [hcs] at hj hk
    exact hs.fresh_unique j k g₁ g₂ st st' u u' t hj hk hu hu'

theorem Next.calls (hn : Next L s i g reply stage e stage' s₁) : s₁.calls = s.calls := by
  cases hn <;> rfl

theorem bindDone_fresh (b : BindArgs) (t : Token) : (bindDone b t).fresh = none := by
  unfold bindDone
  split <;> rfl

theorem bindTokenDone_fresh (b : BindArgs) (l t : Token) : (bindTokenDone b l t).fresh = none := by
  unfold bindTokenDone
  split
  · rfl
  · exact bindDone_fresh b t

theorem Next.fresh (hn : Next L s i g reply stage e stage' s₁) (h : stage'.fresh = some (uid, t)) :
    stage.fresh = some (uid, t) ∨ L.issued s.store uid < t.generation := by
  cases hn with
  | acquires b l t' store ha =>
    cases h
    exact .inr (L.acquire_ok _ _ _ _ ha).2.2.1
  | bindFails => exact .inl h
  | keepToken | releasesOld => simp [bindDone_fresh] at h
  | binds => simp [bindTokenDone_fresh] at h
  | _ => cases h

omit [DecidableEq κ] in
theorem starts_none {entry : Entry κ} (h : Starts entry stage) : stage.fresh = none ∧
    stage.found = none ∧ stage.known = none ∧ stage.detached = none := by
  cases entry with
  | bindSession =>
    rw [show stage = _ from h]
    exact ⟨rfl, rfl, rfl, rfl⟩
  | bind | unbind => rcases h with rfl | rfl <;> exact ⟨rfl, rfl, rfl, rfl⟩
  | handleDisconnect => exact h.elim

/-- `RemConnWithToken` takes the token of the connection out of the only slot it is in. -/
theorem disconnect_evolves (hs : TokenInv L tr s) {c : κ}
    {sess : Session κ} (hc : (s.gate g).conns ((s.gate g).connID c) = some c)
    (h : (s.gate g).remConnWithToken c = ((uid, t), sess)) :
    Evolves L s .silent (s.setGate g sess) ∧
      (uid ≠ 0 → CallInv L (tr ++ [.silent]) (s.setGate g sess) g (.disconnectGate uid t)) := by
  obtain ⟨-, htok, hgen, ht, hbnd, -⟩ :=
    remConnWithToken_views (hs.index g) hc h
  have hinv : sess.IndexInv := by
    have hrem := remConn_inv (c := c) (hs.index g)
    rwa [remConn, h] at hrem
  refine ⟨⟨fun g' cid => ?_, fun g' u => ?_, .same, fun g' => ?_⟩, fun h0 => ?_⟩
  · by_cases hg : g' = g
    · subst hg
      simp only [setGate, update_self, htok]
      by_cases hcid : cid = (s.gate g').connID c
      · subst hcid
        exact .inr (.inl (update_self ..))
      · exact .inl (update_of_ne hcid ..)
    · exact .inl (by simp [setGate, hg])
  · by_cases hg : g' = g
    · subst hg
      simp [setGate, hgen]
    · simp [setGate, hg]
  · by_cases hg : g' = g
    · subst hg
      simpa [setGate] using hinv
    · simpa [setGate, hg] using hs.index g'
  · obtain ⟨huid, cid, hb, -⟩ := hs.bound_of_boundToken (hbnd h0)
    refine ⟨by rintro _ _ ⟨⟩, by rintro _ _ ⟨⟩, fun uid' t' h' => ?_, fun t' h' => ?_,
      by rintro _ _ ⟨⟩⟩
    · cases h'
      exact ⟨huid, cid, hb.snoc _⟩
    · cases h'
      refine ⟨⟨cid, hb.snoc _⟩, fun g' cid' hslot => ?_⟩
      by_cases hg : g' = g
      · subst hg
        simp only [setGate, update_self, htok] at hslot
        by_cases hcid : cid' = (s.gate g').connID c
        · subst hcid
          rw [update_self] at hslot
          exact hs.bound_ne_zero hb hslot.symm
        rw [update_of_ne hcid] at hslot
        have h1 := hs.slot_unique hb hslot
        have h2 := hs.slot_unique hb ht.symm
        exact hcid (h1.2.trans h2.2.symm)
      · simp only [setGate, update_of_ne hg] at hslot
        exact hg (hs.slot_unique hb hslot).1

theorem TokenInv.transition {act : Action γ κ} {s' : Cluster γ κ σ} (hs : TokenInv L tr s)
    (ht : Transition L s act e s') : TokenInv L (tr ++ [e]) s' := by
  cases ht with
  | connect g c hc =>
    obtain ⟨-, htok, hgen, -, -⟩ := connect_views (s.gate g) c
    have hev : Evolves L s .silent (s.setGate g ((s.gate g).connect c)) :=
      .setGate_same _ hs.index (connect_inv (hs.index g) hc) htok hgen
    refine hs.evolves hev nofun (fun j g' stage hj => ?_) hs.fresh_unique
    exact (hs.call j g' stage hj).evolves hs hev nofun
  | start i g entry stage hfree hst =>
    obtain ⟨h1, h2, h3, h4⟩ := starts_none hst
    refine hs.goto (.of_gate_eq _ hs.index rfl .same) rfl nofun (.of_none h1 h2 h3 h4) ?_
    intro uid t h
    rw [h1] at h
    cases h
  | disconnect i g c uid t sess stage hfree hc hrem hst =>
    obtain ⟨hev, hcall⟩ := disconnect_evolves hs hc hrem
    rcases hst with ⟨h0, rfl⟩ | ⟨-, rfl⟩
    · exact hs.goto hev rfl nofun (hcall h0) nofun
    · exact hs.goto hev rfl nofun (.returned none) nofun
  | next i reply g stage _ stage' s₁ hcall hn =>
    refine hs.goto (hn.evolves hs.index) hn.calls ?_ (hn.callInv hs hcall) ?_
    · intro j g' cid uid t he
      obtain ⟨hj, hg, hf, hgens⟩ := hn.binds_fresh hs he
      exact ⟨hj, hg, ⟨stage, hcall, hf⟩, hgens⟩
    · intro uid t h
      exact (hn.fresh h).imp_left fun hf => ⟨stage, hcall, hf⟩

end Preservation

section

variable (hid : ∀ g, Function.Injective fun c => (heap g c).id) (hown : ∀ u, L.owner store u = none)

include hid hown

/-- Gates as they start: no call in flight and nothing owned, next to a store that may
have allocated generations before. -/
theorem init_tokenInv : TokenInv L [] (init heap store) := by
  refine ⟨fun g => newSession_inv (heap g) (hid g), fun u t h => ?_, ?_, ?_,
    fun g cid h => (h rfl).elim, fun i g stage h => ?_, fun i j g g' st st' u u' t h => ?_⟩
  · have h' : L.owner store u = some t := h
    rw [hown u] at h'
    cases h'
  · rintro t g cid ⟨i, uid, h⟩
    cases h
  · rintro t g cid g' cid' ⟨i, uid, h⟩
    cases h
  · cases h
  · cases h

theorem run_tokenInv [DecidableEq γ] [DecidableEq κ] {G : Cluster γ κ σ → Action γ κ → Bool}
    (hrun : Lib.Run (Lib.guardedRel (step L.toOwnershipStore) G) (init heap store) tr s) :
    TokenInv L tr s := by
  refine Lib.run_invariant (TokenInv L) (init_tokenInv hid hown) ?_ hrun
  rintro tr s e s' hs ⟨act, -, hstep⟩
  exact hs.transition (step_transition hstep)

end

def twoIdle (_ : γ) : Bool → ConnObj := Session.twoConns 0

theorem twoIdle_id_injective (g : γ) : Function.Injective fun c => (twoIdle g c).id :=
  Session.twoConns_id_injective 0

def returnedBelow (s : Cluster γ κ σ) (n : ℕ) : Bool :=
  (List.range n).all fun i =>
    match s.calls i with
    | some (_, .returned _) => true
    | _ => false

theorem quiescent_of_returnedBelow (n : ℕ) (h : s.returnedBelow n = true)
    (hn : ∀ i, s.calls (i + n) = none) : s.Quiescent := by
  intro i g stage hi
  by_cases hlt : i < n
  · have hr := List.all_eq_true.mp h i (List.mem_range.mpr hlt)
    rw [hi] at hr
    split at hr
    · rename_i g' err heq
      cases heq
      exact ⟨err, rfl⟩
    · cases hr
  · obtain ⟨k, rfl⟩ := Nat.exists_eq_add_of_le' (not_lt.mp hlt)
    rw [hn k] at hi
    cases hi

end Cluster

end DueServer
