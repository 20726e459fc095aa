import DueServer.LibTransition
import DueServer.SessionModel

/-! The four indexes of the session table agree with each other and with the uid that
each connection carries, as long as `AddConn` never takes a user over. -/
namespace DueServer.Session

open Function (update_self update_of_ne update_eq_self update)
open List

variable {κ : Type}

/-- The agreement between `users`, `conns`, `tokens` and the uid on the connection: an
indexed user leads to a registered connection with that uid and a real token, and a
registered connection with a uid is the indexed one. -/
structure IndexAgrees (s : Session κ) : Prop where
  users_conn : ∀ uid c, s.users uid = some c →
    s.conns (s.connID c) = some c ∧ s.connUID c = uid ∧
      (s.tokens (s.connID c)).uid = uid ∧ (s.tokens (s.connID c)).generation ≠ 0
  conn_users : ∀ c, s.conns (s.connID c) = some c → s.connUID c ≠ 0 →
    s.users (s.connUID c) = some c

structure IndexInv (s : Session κ) : Prop extends IndexAgrees s where
  conns_key : ∀ cid c, s.conns cid = some c → s.connID c = cid
  users_ne_zero : ∀ uid c, s.users uid = some c → uid ≠ 0
  id_injective : ∀ c d, s.connID c = s.connID d → c = d

variable {s s' : Session κ} {c : κ} {cid uid : ℤ} {token : Token}

theorem IndexInv.users_inj (hs : IndexInv s) {u v : ℤ}
    (hu : s.users u = some c) (hv : s.users v = some c) : u = v :=
  (hs.users_conn u c hu).2.1.symm.trans (hs.users_conn v c hv).2.1

theorem conn_conn_ok : s.conn .conn cid = .ok c ↔ s.conns cid = some c := by
  unfold conn
  cases s.conns cid <;> simp

theorem conn_user_ok : s.conn .user uid = .ok c ↔ s.users uid = some c := by
  unfold conn
  cases s.users uid <;> simp

theorem newSession_inv (heap : κ → ConnObj)
    (hid : Function.Injective fun c => (heap c).id) : IndexInv (newSession heap) := by
  refine ⟨⟨?_, ?_⟩, ?_, ?_, ?_⟩
  · intro uid c h
    cases h
  · intro c h
    cases h
  · intro cid c h
    cases h
  · intro uid c h
    cases h
  · intro c d h
    exact hid h

theorem nextGeneration_ne_zero (s : Session κ) (uid : ℤ) : (s.nextGeneration uid).1 ≠ 0 := by
  simp only [nextGeneration]
  split <;> omega

theorem IndexInv.set_generations (hs : IndexInv s) (gens : ℤ → ℕ) :
    IndexInv { s with generations := gens } :=
  ⟨⟨hs.users_conn, hs.conn_users⟩, hs.conns_key, hs.users_ne_zero, hs.id_injective⟩

theorem addConn_unbound (h : s.connUID c = 0) :
    s.addConn c = { s with conns := update s.conns (s.connID c) (some c) } := by
  simp [addConn, h]

theorem addConn_bound (h : s.connUID c ≠ 0) : s.addConn c = { s with
      conns := update s.conns (s.connID c) (some c)
      users := update s.users (s.connUID c) (some c)
      tokens := update s.tokens (s.connID c)
        ⟨s.connUID c, (s.nextGeneration (s.connUID c)).1⟩
      generations := (s.nextGeneration (s.connUID c)).2.generations } := by
  simp [addConn, h, nextGeneration]

theorem addConn_inv (hs : IndexInv s)
    (hfree : s.connUID c ≠ 0 → ∀ d, s.users (s.connUID c) = some d → d = c) :
    IndexInv (s.addConn c) := by
  have hkey : ∀ d, s.connID d = s.connID c → d = c := fun d => hs.id_injective d c
  obtain ⟨⟨huse, hcon⟩, hkeys, hzero, hinj⟩ := hs
  by_cases h0 : s.connUID c = 0
  · rw [addConn_unbound h0]
    refine ⟨⟨fun u d => ?_, fun d => ?_⟩, fun cid d => ?_, hzero, hinj⟩
    all_goals
      simp only [connID, connUID] at *
      grind
  · rw [addConn_bound h0]
    have hgen := nextGeneration_ne_zero s (s.connUID c)
    refine ⟨⟨fun u d => ?_, fun d => ?_⟩, fun cid d => ?_, fun u d => ?_, hinj⟩
    all_goals
      simp only [connID, connUID] at *
      grind

def userFree (s : Session κ) (conn : κ) : Prop :=
  s.connUID conn = 0 ∨ ∀ d, s.users (s.connUID conn) = some d → d = conn

/-- An `AddConn` that takes a user over leaves the old connection with a uid whose index
entry is no longer its own. -/
theorem addConn_not_agrees (hs : IndexInv s) (h : ¬ s.userFree c) :
    ¬ IndexAgrees (s.addConn c) := by
  intro ha
  unfold userFree at h
  push Not at h
  obtain ⟨h0, d, hd, hne⟩ := h
  obtain ⟨hreg, huid, -⟩ := hs.users_conn _ d hd
  have hid : s.connID d ≠ s.connID c := fun he => hne (hs.id_injective d c he)
  rw [addConn_bound h0] at ha
  have hold := ha.conn_users d
  simp only [connID, connUID] at *
  grind

variable [DecidableEq κ]

section Fields

variable (s : Session κ)

@[simp] theorem connID_setUID (c d : κ) (uid : ℤ) : (s.setUID c uid).connID d = s.connID d := by
  by_cases h : d = c
  · subst h
    simp [setUID, connID]
  · simp [setUID, connID, update_of_ne h]

theorem connUID_setUID (c d : κ) (uid : ℤ) :
    (s.setUID c uid).connUID d = if d = c then uid else s.connUID d := by
  by_cases h : d = c
  · subst h
    simp [setUID, connUID]
  · simp [setUID, connUID, h]

theorem doUnsubscribe_fields (channel : String) (c : κ) :
    ∃ ch, s.doUnsubscribe channel c = { s with channels := ch } := by
  unfold doUnsubscribe
  split
  · exact ⟨s.channels, rfl⟩
  · exact ⟨_, rfl⟩

theorem foldl_doUnsubscribe_fields (channels : List String) (c : κ) :
    ∃ ch, channels.foldl (fun s channel => s.doUnsubscribe channel c) s =
      { s with channels := ch } := by
  induction channels generalizing s with
  | nil => exact ⟨s.channels, rfl⟩
  | cons channel channels ih =>
    obtain ⟨ch, h⟩ := s.doUnsubscribe_fields channel c
    obtain ⟨ch', h'⟩ := ih (s.doUnsubscribe channel c)
    refine ⟨ch', ?_⟩
    rw [foldl_cons, h', h]

theorem remConnWithToken_eq (c : κ) :
    ∃ ch, s.remConnWithToken c = ((s.connUID c, s.tokens (s.connID c)),
      { s with
        conns := update s.conns (s.connID c) none
        tokens := update s.tokens (s.connID c) 0
        users := if s.connUID c ≠ 0 ∧ s.users (s.connUID c) = some c then
          update s.users (s.connUID c) none else s.users
        channels := ch }) := by
  unfold remConnWithToken
  by_cases h : s.connUID c ≠ 0 ∧ s.users (s.connUID c) = some c
  · obtain ⟨ch, hch⟩ := foldl_doUnsubscribe_fields
      { s with
        conns := update s.conns (s.connID c) none
        tokens := update s.tokens (s.connID c) 0
        users := update s.users (s.connUID c) none } (s.heap c).attr c
    refine ⟨ch, ?_⟩
    simp [h, hch]
  · obtain ⟨ch, hch⟩ := foldl_doUnsubscribe_fields
      { s with
        conns := update s.conns (s.connID c) none
        tokens := update s.tokens (s.connID c) 0 } (s.heap c).attr c
    refine ⟨ch, ?_⟩
    simp [h, hch]

end Fields

section BindTokenConn

variable (s : Session κ) (c : κ) (uid : ℤ) (token : Token)

theorem leaveUser_eq : ∃ users, s.leaveUser c uid = { s with users := users } ∧
    ∀ u, users u = if u ≠ uid ∧ u ≠ 0 ∧ s.connUID c = u ∧ s.users u = some c then none
      else s.users u := by
  by_cases h : s.connUID c ≠ 0 ∧ s.connUID c ≠ uid ∧ s.users (s.connUID c) = some c
  · refine ⟨update s.users (s.connUID c) none, if_pos h, ?_⟩
    intro u
    by_cases hu : u = s.connUID c
    · subst hu
      simp [h]
    · simp [update_of_ne hu, Ne.symm hu]
  · refine ⟨s.users, if_neg h, ?_⟩
    intro u
    rw [if_neg]
    rintro ⟨hu, hu0, rfl, huc⟩
    exact h ⟨hu0, hu, huc⟩

theorem evictUser_eq : ∃ heap, s.evictUser c uid = { s with heap := heap } ∧
    (∀ d, (heap d).id = (s.heap d).id) ∧
    ∀ d, (heap d).uid = if s.users uid = some d ∧ d ≠ c then 0 else (s.heap d).uid := by
  unfold evictUser
  split
  · rename_i oldConn h
    by_cases hc : oldConn = c
    · subst hc
      exact ⟨s.heap, by simp, fun _ => rfl, by grind⟩
    refine ⟨(s.setUID oldConn 0).heap, by simp [hc, setUID], ?_, ?_⟩
    · intro d
      exact connID_setUID s oldConn d 0
    · intro d
      have hd := connUID_setUID s oldConn d 0
      unfold connUID at hd
      grind
  · rename_i h
    exact ⟨s.heap, rfl, fun _ => rfl, by simp [h]⟩

/-- A binding as one update of the table: the users index, the uids of the connections
and the token slot of `c`. -/
theorem bindTokenConn_eq : ∃ users heap, s.bindTokenConn c uid token = { s with
      users := users
      heap := heap
      tokens := update s.tokens (s.connID c) token } ∧
    (∀ d, (heap d).id = (s.heap d).id) ∧
    (∀ d, (heap d).uid =
      if d = c then uid else if s.users uid = some d then 0 else (s.heap d).uid) ∧
    ∀ u, users u = if u = uid then some c
      else if u ≠ 0 ∧ s.connUID c = u ∧ s.users u = some c then none else s.users u := by
  unfold bindTokenConn
  by_cases h : s.connUID c ≠ 0 ∧ s.connUID c = uid ∧ s.users uid = some c
  · refine ⟨s.users, s.heap, if_pos h, fun _ => rfl, ?_, ?_⟩
    · have hc : (s.heap c).uid = uid := h.2.1
      grind
    · grind
  obtain ⟨users, hl, hlu⟩ := leaveUser_eq s c uid
  obtain ⟨heap, he, hid, huid⟩ := evictUser_eq (s.leaveUser c uid) c uid
  rw [hl] at he hid huid
  refine ⟨update users uid (some c),
    update heap c { heap c with uid := uid }, ?_, ?_, ?_, ?_⟩
  · simp [h, hl, he, setUID]
  · intro d
    by_cases hd : d = c
    · subst hd
      simpa using hid d
    · simpa [update_of_ne hd] using hid d
  · intro d
    by_cases hd : d = c
    · simp [hd]
    rw [update_of_ne hd, huid d]
    simp [hlu, hd]
  · intro u
    by_cases hu : u = uid
    · simp [hu]
    rw [update_of_ne hu, hlu u]
    simp [hu]

/-- In a table whose indexes agree, the bound connection is indexed under `uid` and under
no other user. -/
theorem bindTokenConn_users (hs : IndexInv s) (u : ℤ) : (s.bindTokenConn c uid token).users u =
      if u = uid then some c else if s.users u = some c then none else s.users u := by
  obtain ⟨users, heap, heq, -, -, huse⟩ := bindTokenConn_eq s c uid token
  have hleft : s.users u = some c → u ≠ 0 ∧ s.connUID c = u := fun h =>
    ⟨hs.users_ne_zero u c h, (hs.users_conn u c h).2.1⟩
  simp only [heq]
  grind

theorem bindTokenConn_inv (hs : IndexInv s) (hc : s.conns (s.connID c) = some c)
    (huid : uid ≠ 0) (htok : token.uid = uid) (hgen : token.generation ≠ 0) :
    IndexInv (s.bindTokenConn c uid token) := by
  have hu := fun u => bindTokenConn_users s c uid token hs u
  obtain ⟨users, heap, heq, hid, huids, -⟩ := bindTokenConn_eq s c uid token
  rw [heq] at hu ⊢
  refine ⟨⟨?_, ?_⟩, ?_, ?_, ?_⟩ <;> simp only [connID, connUID, hid]
  · intro u d hd
    have hold := hs.users_conn u d
    have hinj : s.users u = some d → s.users uid = some d → u = uid := hs.users_inj
    simp only [connID, connUID] at hold hc
    grind
  · intro d hd hd0
    have hold := hs.conn_users d
    simp only [connID, connUID] at hold hc
    grind
  · intro cid d hd
    exact hs.conns_key cid d hd
  · intro u d hd
    have hold := hs.users_ne_zero u d
    grind
  · exact hs.id_injective

end BindTokenConn

theorem unbind_ok (h : s.unbind uid = .ok (cid, s')) :
    ∃ c, s.users uid = some c ∧ cid = s.connID c ∧
      s' = { s.setUID c 0 with users := update s.users uid none } := by
  unfold unbind at h
  split at h
  · cases h
  rename_i c hc
  simp only [connID_setUID, Except.ok.injEq, Prod.mk.injEq] at h
  exact ⟨c, conn_user_ok.mp hc, h.1.symm, h.2.symm⟩

theorem bindToken_ok (h : s.bindToken cid uid token = .ok s') :
    0 < uid ∧ token.uid = uid ∧ token.generation ≠ 0 ∧ ∃ c, s.conns cid = some c ∧
      s' = { s.bindTokenConn c uid token with
        generations := update s.generations uid
          (max (s.generations uid) token.generation) } := by
  unfold bindToken at h
  split at h
  · cases h
  split at h
  · cases h
  rename_i c hc
  have hgens : (s.bindTokenConn c uid token).generations = s.generations := by
    obtain ⟨users, heap, heq, -⟩ := bindTokenConn_eq s c uid token
    rw [heq]
  refine ⟨by omega, by tauto, by tauto, c, conn_conn_ok.mp hc, ?_⟩
  simp only [hgens] at h
  split at h
  · rename_i hlt
    simp only [Except.ok.injEq] at h
    rw [← h, max_eq_right (le_of_lt hlt)]
  rename_i hge
  simp only [Except.ok.injEq] at h
  rw [← h, max_eq_left (not_lt.mp hge), update_eq_self, ← hgens]

theorem bindToken_filed (hc : s.conns cid ≠ none)
    (hpos : 0 < uid) (htok : token.uid = uid) (hgen : token.generation ≠ 0) :
    ∃ s', s.bindToken cid uid token = .ok s' := by
  obtain ⟨c, hc⟩ := Option.ne_none_iff_exists'.mp hc
  unfold bindToken
  rw [if_neg (by omega), conn_conn_ok.mpr hc]
  dsimp only
  split <;> exact ⟨_, rfl⟩

theorem IndexInv.renew (hs : IndexInv s) {o : ConnObj}
    (hfree : ∀ cid, s.conns cid ≠ some c) (hnew : ∀ d ≠ c, s.connID d ≠ o.id) :
    IndexInv { s with heap := update s.heap c o } := by
  have hoth : ∀ d ≠ c, update s.heap c o d = s.heap d := fun d hd =>
    update_of_ne hd _ _
  have hfil : ∀ {cid d}, s.conns cid = some d → d ≠ c := by
    rintro cid d hd rfl
    exact hfree cid hd
  refine ⟨⟨?_, ?_⟩, ?_, hs.users_ne_zero, ?_⟩ <;> simp only [connID, connUID]
  · intro uid d hd
    have hold := hs.users_conn uid d hd
    rw [hoth d (hfil hold.1)]
    exact hold
  · intro d hd
    rw [hoth d (hfil hd)] at hd ⊢
    exact hs.conn_users d hd
  · intro cid d hd
    rw [hoth d (hfil hd)]
    exact hs.conns_key cid d hd
  · intro d d' hid
    by_cases hd : d = c <;> by_cases hd' : d' = c
    · rw [hd, hd']
    · rw [hd, hoth d' hd', update_self] at hid
      exact absurd hid.symm (hnew d' hd')
    · rw [hd', hoth d hd, update_self] at hid
      exact absurd hid (hnew d hd)
    rw [hoth d hd, hoth d' hd'] at hid
    exact hs.id_injective d d' hid

theorem remConn_inv (hs : IndexInv s) : IndexInv (s.remConn c) := by
  obtain ⟨ch, heq⟩ := s.remConnWithToken_eq c
  have hkey : ∀ d, s.connID d = s.connID c → d = c := fun d => hs.id_injective d c
  obtain ⟨⟨huse, hcon⟩, hkeys, hzero, hinj⟩ := hs
  unfold remConn
  rw [heq]
  refine ⟨⟨fun u d => ?_, fun d => ?_⟩, fun cid d => ?_, fun u d => ?_, hinj⟩
  all_goals
    simp only [connID, connUID] at *
    grind

theorem unbind_inv (hs : IndexInv s) (h : s.unbind uid = .ok (cid, s')) : IndexInv s' := by
  obtain ⟨c, hc, -, rfl⟩ := unbind_ok h
  have hinj : ∀ u, s.users u = some c → u = uid := fun u hu => hs.users_inj hu hc
  have hid : ∀ d, (update s.heap c { s.heap c with uid := 0 } d).id = (s.heap d).id :=
    fun d => connID_setUID s c d 0
  have huid : ∀ d, (update s.heap c { s.heap c with uid := 0 } d).uid =
      if d = c then 0 else (s.heap d).uid := fun d => connUID_setUID s c d 0
  refine ⟨⟨?_, ?_⟩, ?_, ?_, ?_⟩ <;> simp only [setUID, connID, connUID, hid]
  · intro u d hd
    have hold := hs.users_conn u d
    simp only [connID, connUID] at hold
    grind
  · intro d hd hd0
    have hold := hs.conn_users d
    simp only [connID, connUID] at hold
    grind
  · exact hs.conns_key
  · intro u d hd
    have hold := hs.users_ne_zero u d
    grind
  · exact hs.id_injective

theorem bindToken_inv (hs : IndexInv s) (h : s.bindToken cid uid token = .ok s') : IndexInv s' := by
  obtain ⟨hpos, htok, hgen, c, hc, rfl⟩ := bindToken_ok h
  have hkey := hs.conns_key cid c hc
  subst hkey
  exact (bindTokenConn_inv s c uid token hs hc (by omega) htok hgen).set_generations _

theorem bind_inv (hs : IndexInv s) (hpos : 0 < uid)
    (h : s.bind cid uid = .ok s') : IndexInv s' := by
  unfold bind at h
  split at h
  · cases h
  rename_i c hc
  split at h
  · cases h
    exact hs
  simp only [Except.ok.injEq] at h
  have hc' := conn_conn_ok.mp hc
  have hkey := hs.conns_key cid c hc'
  subst hkey h
  exact bindTokenConn_inv _ c uid _ (hs.set_generations _) hc' (by omega) rfl
    (nextGeneration_ne_zero s uid)

inductive Op (κ : Type) where
  | addConn (conn : κ)
  | remConn (conn : κ)
  | bind (cid uid : ℤ) (hpos : 0 < uid)
  | bindToken (cid uid : ℤ) (token : Token)
  | unbind (uid : ℤ)

def apply (s : Session κ) : Op κ → Session κ
  | .addConn conn => s.addConn conn
  | .remConn conn => s.remConn conn
  | .bind cid uid _ => match s.bind cid uid with
    | .ok s' => s'
    | .error _ => s
  | .bindToken cid uid token => match s.bindToken cid uid token with
    | .ok s' => s'
    | .error _ => s
  | .unbind uid => match s.unbind uid with
    | .ok (_, s') => s'
    | .error _ => s

def admissible (s : Session κ) : Op κ → Prop
  | .addConn conn => s.userFree conn
  | _ => True

theorem apply_inv {op : Op κ} (hs : IndexInv s) (hop : s.admissible op) :
    IndexInv (s.apply op) := by
  cases op with
  | addConn c =>
    apply addConn_inv hs
    intro h0 d hd
    exact hop.resolve_left h0 d hd
  | remConn c => exact remConn_inv hs
  | bind cid uid hpos =>
    simp only [apply]
    split
    · rename_i s' h
      exact bind_inv hs hpos h
    · exact hs
  | bindToken cid uid token =>
    simp only [apply]
    split
    · rename_i s' h
      exact bindToken_inv hs h
    · exact hs
  | unbind uid =>
    simp only [apply]
    split
    · rename_i cid s' h
      exact unbind_inv hs h
    · exact hs

def applyAll (heap : κ → ConnObj) (ops : List (Op κ)) : Session κ :=
  ops.foldl apply (newSession heap)

/-- Every `AddConn` of the list brings uid 0, or a uid under which no other connection is
indexed at that moment. -/
def TakeoverFree (heap : κ → ConnObj) (ops : List (Op κ)) : Prop :=
  ∀ pre c, pre ++ [Op.addConn c] <+: ops → (applyAll heap pre).userFree c

theorem applyAll_inv (heap : κ → ConnObj) (hid : Function.Injective fun c => (heap c).id)
    (ops : List (Op κ)) (hfree : TakeoverFree heap ops) : IndexInv (applyAll heap ops) := by
  induction ops using reverseRecOn with
  | nil => exact newSession_inv heap hid
  | append_singleton ops op ih =>
    have hpre : TakeoverFree heap ops := fun pre c h => hfree pre c (h.trans (prefix_append _ _))
    unfold applyAll
    rw [foldl_append]
    apply apply_inv (ih hpre)
    cases op with
    | addConn c => exact hfree ops c prefix_rfl
    | _ => trivial

/-- Every state reached from `NewSession` has agreeing indexes exactly when no `AddConn`
takes over a user that another connection is indexed under. -/
theorem index_agrees_iff_takeover_free (heap : κ → ConnObj)
    (hid : Function.Injective fun c => (heap c).id) (ops : List (Op κ)) :
    (∀ pre, pre <+: ops → IndexAgrees (applyAll heap pre)) ↔ TakeoverFree heap ops := by
  constructor
  · intro hall
    induction ops using reverseRecOn with
    | nil =>
      intro pre c h
      simp at h
    | append_singleton ops op ih =>
      have hpre := ih fun pre h => hall pre (h.trans (prefix_append _ _))
      intro pre c h
      rcases prefix_concat_iff.mp h with he | hp
      · -- the last call: it starts from a state that still has the invariant
        obtain ⟨rfl, hop⟩ := append_inj' he rfl
        cases hop
        by_contra hbad
        apply addConn_not_agrees (applyAll_inv heap hid pre hpre) hbad
        simpa [applyAll, apply] using hall _ prefix_rfl
      · exact hpre pre c hp
  · intro hfree pre hpre
    exact (applyAll_inv heap hid pre
      (fun pre' c h => hfree pre' c (h.trans hpre))).toIndexAgrees

-- connections 1 and 2, both of the given user
def twoConns (uid : ℤ) (conn : Bool) : ConnObj := ⟨if conn then 2 else 1, uid, []⟩

theorem twoConns_id_injective (uid : ℤ) : Function.Injective fun c => (twoConns uid c).id := by
  have h : ∀ a b : Bool, (if a then (2 : ℤ) else 1) = (if b then 2 else 1) → a = b := by decide
  exact fun a b => h a b

/-- Adding both leaves the first with uid 5 while user 5 is indexed to the second. -/
theorem addConn_takeover_breaks_index : (Function.Injective fun c => (twoConns 5 c).id) ∧
      ¬ IndexAgrees (applyAll (twoConns 5) [Op.addConn false, Op.addConn true]) := by
  refine ⟨twoConns_id_injective 5, fun h => ?_⟩
  have hbad := h.conn_users false (by decide) (by decide)
  revert hbad
  decide

-- the first connection leaves before the second takes its user
def handover : List (Op Bool) :=
  [.addConn false, .bind 1 6 (by decide), .addConn true, .bind 2 7 (by decide), .remConn false,
    .bind 2 6 (by decide), .remConn true]

theorem index_agrees_iff_twoConns :
    (∀ pre, pre <+: handover → IndexAgrees (applyAll (twoConns 5) pre)) ↔
      TakeoverFree (twoConns 5) handover :=
  index_agrees_iff_takeover_free (twoConns 5) (twoConns_id_injective 5) handover

end DueServer.Session
