import DueServer.SessionModel

/-! `session.OwnershipStore`: the store that hands out one token generation after the other
for each user. The interface and its contract, and the in-process implementation. -/
namespace DueServer

open Function (update_self update_of_ne update)

-- ctx.Err() of a call's context: the error of a finished one
abbrev Ctx := Option DueErr

inductive Reply where
  | ok
  | failed (executed : Bool) (err : DueErr)
deriving DecidableEq

def Reply.executed : Reply → Bool
  | .ok => true
  | .failed executed _ => executed

structure OwnershipStore (σ : Type) where
  acquire : σ → ℤ → Except DueErr Token × σ
  current : σ → ℤ → Except DueErr (Option Token)
  release : σ → ℤ → Token → Except DueErr Bool × σ

/-- The contract: what the store reports as owned and the newest generation it has
allocated, and how the operations change them. `Acquire` must allocate a generation newer
than every one allocated before for the user; a failed call changes nothing. -/
structure LawfulStore (σ : Type) extends OwnershipStore σ where
  owner : σ → ℤ → Option Token
  issued : σ → ℤ → ℕ
  acquire_ok : ∀ st st' uid t, acquire st uid = (.ok t, st') →
    0 < uid ∧ t.uid = uid ∧ issued st uid < t.generation ∧
      owner st' = update (owner st) uid (some t) ∧
      issued st' = update (issued st) uid t.generation
  acquire_error : ∀ st st' uid e, acquire st uid = (.error e, st') →
    owner st' = owner st ∧ issued st' = issued st
  current_ok : ∀ st uid o, current st uid = .ok o → o = owner st uid
  release_owner : ∀ st uid t, 0 < uid → t.uid = uid → t.generation ≠ 0 →
    (release st uid t).1 = .ok (decide (owner st uid = some t)) ∧
      owner (release st uid t).2 =
        if owner st uid = some t then update (owner st) uid none else owner st
  release_invalid : ∀ st uid t, ¬ (0 < uid ∧ t.uid = uid ∧ t.generation ≠ 0) →
    owner (release st uid t).2 = owner st
  release_issued : ∀ st uid t, issued (release st uid t).2 = issued st

namespace LawfulStore

variable {σ : Type} (L : LawfulStore σ)

def OwnerLatest (st : σ) : Prop :=
  ∀ u t, L.owner st u = some t →
    0 < u ∧ t.uid = u ∧ t.generation ≠ 0 ∧ t.generation = L.issued st u

inductive Moves (st : σ) : σ → Prop where
  | same : Moves st st
  | acquired (uid : ℤ) : Moves st (L.acquire st uid).2
  | released (uid : ℤ) (t : Token) : Moves st (L.release st uid t).2

variable {L} {st st' : σ}

theorem release_owner_cases (st : σ) (uid : ℤ) (t : Token) :
    L.owner (L.release st uid t).2 = L.owner st ∨
      L.owner (L.release st uid t).2 = update (L.owner st) uid none := by
  by_cases hargs : 0 < uid ∧ t.uid = uid ∧ t.generation ≠ 0
  · obtain ⟨hpos, htok, hgen⟩ := hargs
    rw [(L.release_owner st uid t hpos htok hgen).2]
    split
    · exact .inr rfl
    · exact .inl rfl
  · exact .inl (L.release_invalid st uid t hargs)

variable {u uid : ℤ} {t t' : Token}

theorem owner_of_release
    (h : L.owner (L.release st uid t').2 u = some t) : L.owner st u = some t := by
  rcases release_owner_cases st uid t' with ho | ho
  · rwa [ho] at h
  rw [ho] at h
  by_cases hu : u = uid
  · simp [hu] at h
  · rwa [update_of_ne hu] at h

theorem acquire_cases (st : σ) (uid : ℤ) :
    (L.owner (L.acquire st uid).2 = L.owner st ∧ L.issued (L.acquire st uid).2 = L.issued st) ∨
      ∃ t : Token, 0 < uid ∧ t.uid = uid ∧ L.issued st uid < t.generation ∧
        L.owner (L.acquire st uid).2 = update (L.owner st) uid (some t) ∧
        L.issued (L.acquire st uid).2 = update (L.issued st) uid t.generation := by
  rcases h : L.acquire st uid with ⟨res, st'⟩
  rcases res with err | t
  · exact .inl (L.acquire_error st st' uid err h)
  · exact .inr ⟨t, L.acquire_ok st st' uid t h⟩

theorem Moves.latest (h : L.Moves st st') (hs : L.OwnerLatest st) : L.OwnerLatest st' := by
  intro u t ht
  rcases h with _ | uid | ⟨uid, t'⟩
  · exact hs u t ht
  · rcases acquire_cases st uid with ⟨ho, hi⟩ | ⟨t', hpos, htok, hlt, ho, hi⟩
    · rw [ho] at ht
      rw [hi]
      exact hs u t ht
    · rw [ho] at ht
      rw [hi]
      by_cases hu : u = uid
      · subst hu
        rw [update_self] at ht ⊢
        cases ht
        exact ⟨hpos, htok, by omega, rfl⟩
      rw [update_of_ne hu] at ht ⊢
      exact hs u t ht
  · rw [L.release_issued]
    exact hs u t (owner_of_release ht)

theorem Moves.issued_mono (h : L.Moves st st') (u : ℤ) : L.issued st u ≤ L.issued st' u := by
  rcases h with _ | uid | ⟨uid, t⟩
  · exact le_rfl
  · rcases acquire_cases st uid with ⟨-, hi⟩ | ⟨t, -, -, hlt, -, hi⟩
    · rw [hi]
    · rw [hi]
      by_cases hu : u = uid
      · subst hu
        rw [update_self]
        exact le_of_lt hlt
      · rw [update_of_ne hu]
  · rw [L.release_issued]

theorem Moves.owner_old (h : L.Moves st st')
    (ht : L.owner st' u = some t) (hold : t.generation ≤ L.issued st u) :
    L.owner st u = some t := by
  rcases h with _ | uid | ⟨uid, t'⟩
  · exact ht
  · rcases acquire_cases st uid with ⟨ho, -⟩ | ⟨t', -, -, hlt, ho, -⟩
    · rwa [ho] at ht
    · rw [ho] at ht
      by_cases hu : u = uid
      · subst hu
        rw [update_self] at ht
        cases ht
        omega
      · rwa [update_of_ne hu] at ht
  · exact owner_of_release ht

theorem release_not_owner (st : σ) (hpos : 0 < t.uid) (hgen : t.generation ≠ 0) :
    L.owner (L.release st t.uid t).2 t.uid ≠ some t := by
  rw [(L.release_owner st t.uid t hpos rfl hgen).2]
  split
  · simp
  · assumption

theorem release_owner_ne (st : σ) (hne : t' ≠ t)
    (ht : L.owner st u = some t) : L.owner (L.release st uid t').2 u = some t := by
  by_cases hargs : 0 < uid ∧ t'.uid = uid ∧ t'.generation ≠ 0
  · rw [(L.release_owner st uid t' hargs.1 hargs.2.1 hargs.2.2).2]
    split
    · rename_i ho
      have hu : u ≠ uid := by
        rintro rfl
        rw [ht] at ho
        exact hne (Option.some.inj ho).symm
      rwa [update_of_ne hu]
    · exact ht
  · rwa [L.release_invalid st uid t' hargs]

end LawfulStore

structure MemoryOwnershipStore where
  owners : ℤ → Option Token
  generations : ℤ → ℕ

namespace MemoryOwnershipStore

-- NewMemoryOwnershipStore
def new : MemoryOwnershipStore := ⟨fun _ => none, fun _ => 0⟩

def acquire (s : MemoryOwnershipStore) (ctx : Ctx) (uid : ℤ) :
    Except DueErr Token × MemoryOwnershipStore :=
  match ctx with
  | some err => (.error err, s)
  | none =>
    if uid ≤ 0 then (.error .errInvalidArgument, s)
    else
      let currentGeneration := s.generations uid
      if currentGeneration = maxUint64 then (.error .errOwnershipGenerationExhausted, s)
      else
        let token : Token := ⟨uid, currentGeneration + 1⟩
        (.ok token, {
          owners := update s.owners uid (some token)
          generations := update s.generations uid token.generation })

def current (s : MemoryOwnershipStore) (ctx : Ctx) (uid : ℤ) : Except DueErr (Option Token) :=
  match ctx with
  | some err => .error err
  | none => if uid ≤ 0 then .error .errInvalidArgument else .ok (s.owners uid)

def release (s : MemoryOwnershipStore) (ctx : Ctx) (uid : ℤ) (token : Token) :
    Except DueErr Bool × MemoryOwnershipStore :=
  match ctx with
  | some err => (.error err, s)
  | none =>
    if uid ≤ 0 ∨ token.uid ≠ uid ∨ token.generation = 0 then (.error .errInvalidArgument, s)
    else if s.owners uid ≠ some token then (.ok false, s)
    else (.ok true, { s with owners := update s.owners uid none })

end MemoryOwnershipStore

open MemoryOwnershipStore in
def memoryStore : LawfulStore MemoryOwnershipStore where
  acquire st uid := st.acquire none uid
  current st uid := st.current none uid
  release st uid t := st.release none uid t
  owner := owners
  issued := generations
  acquire_ok := by
    intro st st' uid t h
    simp only [MemoryOwnershipStore.acquire] at h
    split at h
    · simp at h
    split at h
    · simp at h
    simp only [Prod.mk.injEq, Except.ok.injEq] at h
    obtain ⟨rfl, rfl⟩ := h
    exact ⟨by omega, rfl, Nat.lt_succ_self _, rfl, rfl⟩
  acquire_error := by
    intro st st' uid e h
    simp only [MemoryOwnershipStore.acquire] at h
    split at h
    · simp only [Prod.mk.injEq] at h
      rw [h.2]
      exact ⟨rfl, rfl⟩
    split at h
    · simp only [Prod.mk.injEq] at h
      rw [h.2]
      exact ⟨rfl, rfl⟩
    · simp at h
  current_ok := by
    intro st uid o h
    simp only [MemoryOwnershipStore.current] at h
    split at h
    · cases h
    simp only [Except.ok.injEq] at h
    exact h.symm
  release_owner := by
    intro st uid t hpos htok hgen
    have hargs : ¬ (uid ≤ 0 ∨ t.uid ≠ uid ∨ t.generation = 0) := by
      simp only [htok, hgen, ne_eq, not_true_eq_false, or_self, or_false, not_le]
      exact hpos
    simp only [MemoryOwnershipStore.release, if_neg hargs]
    by_cases ho : st.owners uid = some t <;> simp [ho]
  release_invalid := by
    intro st uid t h
    have hargs : uid ≤ 0 ∨ t.uid ≠ uid ∨ t.generation = 0 := by
      by_contra hn
      push Not at hn
      exact h hn
    simp only [MemoryOwnershipStore.release, if_pos hargs]
  release_issued := by
    intro st uid t
    simp only [MemoryOwnershipStore.release]
    split
    · rfl
    · split <;> rfl

end DueServer
