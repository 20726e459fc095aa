import DueServer.RedisRefinement

/-! What a history of calls says about the in-process store: which tokens the successful `Acquire`s
of a user returned, and which of them is still held. -/
namespace DueServer.MemoryOwnershipStore

open Redis (StoreOp StoreResult memoryApply)
open Function (update update_self update_of_ne update_apply)
open List Lib

abbrev History := List (StoreOp × StoreResult)

def run (ops : List StoreOp) : MemoryOwnershipStore × History :=
  ops.foldl (fun p op => ((memoryApply p.1 op).2, p.2 ++ [(op, (memoryApply p.1 op).1)])) (new, [])

def uidOf : StoreOp → ℤ
  | .acquire _ uid | .current _ uid | .release _ uid _ => uid

def failed : StoreResult → Bool
  | .acquire (.error _) | .current (.error _) | .release (.error _) => true
  | _ => false

def acquiredBy (uid : ℤ) : StoreOp × StoreResult → Option Token
  | (.acquire _ u, .acquire (.ok t)) => if u = uid then some t else none
  | _ => none

/-- The tokens that the successful `Acquire`s of `uid` returned, in order. -/
def acquired (h : History) (uid : ℤ) : List Token := h.filterMap (acquiredBy uid)

def heldAfter (uid : ℤ) (held : Option Token) : StoreOp × StoreResult → Option Token
  | (.acquire _ u, .acquire (.ok t)) => if u = uid then some t else held
  | (.release _ u t, .release (.ok true)) => if u = uid ∧ held = some t then none else held
  | _ => held

/-- The token of the last successful `Acquire` of `uid`, unless a `Release` of it has succeeded. -/
def held (h : History) (uid : ℤ) : Option Token := h.foldl (heldAfter uid) none

structure Follows (h : History) (s : MemoryOwnershipStore) (uid : ℤ) : Prop where
  owner : s.owners uid = held h uid
  owned : ∀ t, s.owners uid = some t → t.uid = uid ∧ 0 < uid ∧ t.generation ≠ 0
  bound : s.generations uid ≤ maxUint64
  below : ∀ t ∈ acquired h uid, t.uid = uid ∧ t.generation ≠ 0 ∧ t.generation ≤ s.generations uid
  sorted : (acquired h uid).Pairwise fun t t' => t.generation < t'.generation

variable {h : History} {s : MemoryOwnershipStore} {uid : ℤ}

theorem acquired_snoc (h : History) (e : StoreOp × StoreResult) (uid : ℤ) :
    acquired (h ++ [e]) uid = acquired h uid ++ (acquiredBy uid e).toList := by
  cases he : acquiredBy uid e <;> simp [acquired, he]

theorem held_snoc (h : History) (e : StoreOp × StoreResult) (uid : ℤ) :
    held (h ++ [e]) uid = heldAfter uid (held h uid) e := foldl_concat ..

theorem Follows.same (hf : Follows h s uid) {s' : MemoryOwnershipStore} {e : StoreOp × StoreResult}
    (hown : s'.owners uid = s.owners uid) (hgen : s'.generations uid = s.generations uid)
    (hacq : acquiredBy uid e = none) (hheld : heldAfter uid (held h uid) e = held h uid) :
    Follows (h ++ [e]) s' uid := by
  have hsame : acquired (h ++ [e]) uid = acquired h uid := by
    rw [acquired_snoc, hacq]
    exact append_nil _
  refine ⟨?_, ?_, ?_, ?_, ?_⟩
  · rw [hown, held_snoc, hheld, hf.owner]
  · rw [hown]
    exact hf.owned
  · rw [hgen]
    exact hf.bound
  · rw [hsame, hgen]
    exact hf.below
  · rw [hsame]
    exact hf.sorted

/-- What a call can do: nothing, hand out the next generation, or take back the owner's token. -/
inductive Effect (s : MemoryOwnershipStore) (op : StoreOp) :
    StoreResult × MemoryOwnershipStore → Prop where
  | quiet (r : StoreResult) (hacquired : ∀ uid, acquiredBy uid (op, r) = none)
      (hheld : ∀ uid o, heldAfter uid o (op, r) = o) : Effect s op (r, s)
  | acquired (u : ℤ) (hop : op = .acquire none u) (hpos : 0 < u)
    (hroom : s.generations u ≠ maxUint64) :
      Effect s op (.acquire (.ok ⟨u, s.generations u + 1⟩),
        { owners := update s.owners u (some ⟨u, s.generations u + 1⟩)
          generations := update s.generations u (s.generations u + 1) })
  | released (u : ℤ) (t : Token) (hop : op = .release none u t) (howner : s.owners u = some t) :
      Effect s op (.release (.ok true), { s with owners := update s.owners u none })

theorem memoryApply_effect (s : MemoryOwnershipStore) (op : StoreOp) :
    Effect s op (memoryApply s op) := by
  rcases op with ⟨ctx, u⟩ | ⟨ctx, u⟩ | ⟨ctx, u, t⟩
  · cases ctx with
    | some err => exact .quiet _ (fun _ => rfl) fun _ _ => rfl
    | none =>
      simp only [memoryApply, acquire]
      split
      · exact .quiet _ (fun _ => rfl) fun _ _ => rfl
      split
      · exact .quiet _ (fun _ => rfl) fun _ _ => rfl
      · exact .acquired u rfl (by omega) ‹_›
  · exact .quiet _ (fun _ => rfl) fun _ _ => rfl
  · cases ctx with
    | some err => exact .quiet _ (fun _ => rfl) fun _ _ => rfl
    | none =>
      simp only [memoryApply, release]
      split
      · exact .quiet _ (fun _ => rfl) fun _ _ => rfl
      split
      · exact .quiet _ (fun _ => rfl) fun _ _ => rfl
      · exact .released u t rfl (not_not.mp ‹_›)

theorem Follows.step (hf : Follows h s uid) (op : StoreOp) :
    Follows (h ++ [(op, (memoryApply s op).1)]) (memoryApply s op).2 uid := by
  have heff := memoryApply_effect s op
  generalize memoryApply s op = p at heff
  cases heff with
  | quiet r hacq hheld => exact hf.same rfl rfl (hacq uid) (hheld uid _)
  | acquired u hop hpos hroom =>
    subst hop
    by_cases hu : u = uid
    swap
    · exact hf.same (update_of_ne (Ne.symm hu) ..) (update_of_ne (Ne.symm hu) ..) (if_neg hu)
        (if_neg hu)
    subst hu
    have hbnd := hf.bound
    have hacq : acquired (h ++ [(.acquire none u, .acquire (.ok ⟨u, s.generations u + 1⟩))]) u =
        acquired h u ++ [⟨u, s.generations u + 1⟩] := by
      rw [acquired_snoc, acquiredBy, if_pos rfl]
      rfl
    refine ⟨?_, ?_, ?_, ?_, ?_⟩ <;> simp only [update_self]
    · rw [held_snoc, heldAfter, if_pos rfl]
    · rintro t ⟨⟩
      exact ⟨rfl, hpos, Nat.succ_ne_zero _⟩
    · omega
    · rw [hacq]
      intro t ht
      rcases mem_append.mp ht with hold | hnew
      · obtain ⟨huid, hne, hle⟩ := hf.below t hold
        exact ⟨huid, hne, by omega⟩
      cases mem_singleton.mp hnew
      exact ⟨rfl, Nat.succ_ne_zero _, le_rfl⟩
    · -- the generations handed out before are at most the one in the map
      rw [hacq, pairwise_append]
      refine ⟨hf.sorted, pairwise_singleton .., fun t ht t' ht' => ?_⟩
      cases mem_singleton.mp ht'
      exact Nat.lt_succ_of_le (hf.below t ht).2.2
  | released u t hop hown =>
    subst hop
    by_cases hu : u = uid
    swap
    · exact hf.same (update_of_ne (Ne.symm hu) ..) rfl rfl (if_neg fun hc => hu hc.1)
    subst hu
    have hacq : acquired (h ++ [(.release none u t, .release (.ok true))]) u = acquired h u := by
      rw [acquired_snoc]
      exact append_nil _
    have hheld : held h u = some t := hf.owner.symm.trans hown
    refine ⟨?_, ?_, hf.bound, ?_, ?_⟩
    · rw [held_snoc, heldAfter, if_pos ⟨rfl, hheld⟩]
      exact update_self ..
    · simp only [update_self]
      intro t' ht'
      cases ht'
    · rw [hacq]
      exact hf.below
    · rw [hacq]
      exact hf.sorted

theorem run_snoc (ops : List StoreOp) (op : StoreOp) : run (ops ++ [op]) =
    ((memoryApply (run ops).1 op).2, (run ops).2 ++ [(op, (memoryApply (run ops).1 op).1)]) :=
  foldl_concat ..

theorem run_follows (ops : List StoreOp) (uid : ℤ) : Follows (run ops).2 (run ops).1 uid := by
  induction ops using reverseRecOn with
  | nil => exact ⟨rfl, nofun, Nat.zero_le _, nofun, .nil⟩
  | append_singleton ops op ih =>
    rw [run_snoc]
    exact ih.step op

theorem current_follows (hf : Follows h s uid) (t : Token) :
    s.current none uid = .ok (some t) ↔ held h uid = some t := by
  rw [← hf.owner]
  simp only [current]
  split
  · refine iff_of_false nofun fun hown => ?_
    have hpos := (hf.owned t hown).2.1
    omega
  · rw [Except.ok.injEq]

theorem release_follows (hf : Follows h s uid) (ctx : Ctx) (t : Token) :
    (s.release ctx uid t).1 = .ok true ↔ ctx = none ∧ held h uid = some t := by
  rw [← hf.owner]
  cases ctx with
  | some err => exact iff_of_false nofun fun hc => nomatch hc.1
  | none =>
    simp only [release, true_and]
    split
    · -- the owner's token passes the check of the arguments
      rename_i hargs
      refine iff_of_false nofun fun hown => ?_
      obtain ⟨huid, hpos, hne⟩ := hf.owned t hown
      rcases hargs with hle | hoth | hzero
      · omega
      · exact hoth huid
      · exact hne hzero
    · split
      · exact iff_of_false nofun ‹_›
      · exact iff_of_true rfl (not_not.mp ‹_›)

theorem unchanged_of_failed {op : StoreOp} (hfld : failed (memoryApply s op).1 = true) :
    (memoryApply s op).2 = s := by
  have heff := memoryApply_effect s op
  generalize memoryApply s op = p at heff hfld
  cases heff with
  | quiet => rfl
  | acquired | released => cases hfld

def AgreeOff (uid : ℤ) (s s' : MemoryOwnershipStore) : Prop :=
  ∀ u, u ≠ uid → s.owners u = s'.owners u ∧ s.generations u = s'.generations u

theorem memoryApply_agreeOff (s : MemoryOwnershipStore) (op : StoreOp) :
    AgreeOff (uidOf op) (memoryApply s op).2 s := by
  intro u hu
  have heff := memoryApply_effect s op
  generalize memoryApply s op = p at heff
  cases heff with
  | quiet => exact ⟨rfl, rfl⟩
  | acquired u' hop =>
    subst hop
    exact ⟨update_of_ne hu .., update_of_ne hu ..⟩
  | released u' t hop =>
    subst hop
    exact ⟨update_of_ne hu .., rfl⟩

theorem memoryApply_agree {s' : MemoryOwnershipStore} {op : StoreOp} (hagr : AgreeOff uid s s')
    (hop : uidOf op ≠ uid) : (memoryApply s op).1 = (memoryApply s' op).1 ∧
      AgreeOff uid (memoryApply s op).2 (memoryApply s' op).2 := by
  rcases op with ⟨_ | err, u⟩ | ⟨_ | err, u⟩ | ⟨_ | err, u, t⟩
  all_goals obtain ⟨hown, hgen⟩ := hagr u hop
  case acquire.none =>
    simp only [memoryApply, acquire, hgen]
    split
    · exact ⟨rfl, hagr⟩
    split
    · exact ⟨rfl, hagr⟩
    refine ⟨rfl, fun v hv => ?_⟩
    simp [update_apply, hagr v hv]
  case release.none =>
    simp only [memoryApply, release, hown]
    split
    · exact ⟨rfl, hagr⟩
    split
    · exact ⟨rfl, hagr⟩
    refine ⟨rfl, fun v hv => ?_⟩
    simp [update_apply, hagr v hv]
  all_goals exact ⟨by simp only [memoryApply, acquire, current, release, hown], hagr⟩

theorem outputs_agree (later : List StoreOp) (hlat : ∀ op ∈ later, uidOf op ≠ uid) :
    ∀ {s s' : MemoryOwnershipStore}, AgreeOff uid s s' →
      outputs memoryApply s later = outputs memoryApply s' later := by
  induction later with
  | nil => exact fun _ => rfl
  | cons op later ih =>
    intro s s' hagr
    obtain ⟨hout, hnext⟩ := memoryApply_agree hagr (hlat op mem_cons_self)
    rw [outputs, outputs, hout, ih (fun op hop => hlat op (mem_cons_of_mem _ hop)) hnext]

/-- The contract of the in-process store after every sequence of calls. What is observable on other
users is what any later calls for them return. -/
theorem memory_store_contract (ops : List StoreOp) :
    (∀ uid, (acquired (run ops).2 uid).Pairwise (fun t t' => t.generation < t'.generation) ∧
      ∀ t ∈ acquired (run ops).2 uid, t.uid = uid ∧ t.generation ≠ 0 ∧ t.generation ≤ maxUint64) ∧
    (∀ uid t, (run ops).1.current none uid = .ok (some t) ↔ held (run ops).2 uid = some t) ∧
    (∀ ctx uid t, ((run ops).1.release ctx uid t).1 = .ok true ↔
      ctx = none ∧ held (run ops).2 uid = some t) ∧
    (∀ op, failed (memoryApply (run ops).1 op).1 = true →
      (memoryApply (run ops).1 op).2 = (run ops).1) ∧
    ∀ op later, (∀ d ∈ later, uidOf d ≠ uidOf op) →
      outputs memoryApply (memoryApply (run ops).1 op).2 later =
        outputs memoryApply (run ops).1 later := by
  have hf := run_follows ops
  refine ⟨fun uid => ⟨(hf uid).sorted, fun t ht => ?_⟩, fun uid => current_follows (hf uid),
    fun ctx uid => release_follows (hf uid) ctx, fun _ => unchanged_of_failed,
    fun op later hlat => ?_⟩
  · obtain ⟨huid, hne, hle⟩ := (hf uid).below t ht
    exact ⟨huid, hne, hle.trans (hf uid).bound⟩
  · exact outputs_agree later hlat (memoryApply_agreeOff _ op)

end DueServer.MemoryOwnershipStore
