import DueServer.LibTransition
import DueServer.RedisStore

/-! The redis store and the in-process store give the same answers. The redis store may skip
generations when it moves to a new range, so the answers agree up to a strictly increasing
renaming of the generations of each user. -/
namespace DueServer.Redis

open Lib
open Function (update_self update_of_ne update_eq_self update)

/-- A range allocator that succeeds whenever generations are left: `top` is the end of the
highest range it has reserved for a user, and a new range lies above it and above the floor. -/
structure RangeAllocator (α : Type) where
  reserve : α → ℤ → ℕ → (ℕ × ℕ) × α
  top : α → ℤ → ℕ
  reserve_above : ∀ a uid floor, floor < maxInt64 → top a uid < maxInt64 →
    floor < (reserve a uid floor).1.1 ∧ top a uid < (reserve a uid floor).1.1 ∧
      (reserve a uid floor).1.1 ≤ (reserve a uid floor).1.2 ∧
      (reserve a uid floor).1.2 ≤ maxInt64
  reserve_top : ∀ a uid floor, top (reserve a uid floor).2 =
    update (top a) uid (reserve a uid floor).1.2

structure Store (α : Type) where
  hashes : ℤ → Hash
  allocator : α

namespace Store

variable {α : Type}

def new (a : α) : Store α := ⟨fun _ => Hash.empty, a⟩

def acquire (A : RangeAllocator α) (st : Store α) (ctx : Ctx) (uid : ℤ) :
    Except DueErr Token × Store α :=
  match acquireArgs ctx uid with
  | some err => (.error err, st)
  | none =>
    let seen := runScript .ok (acquireScript (st.hashes uid)) (st.hashes uid)
    match acquireReply uid true seen.1 with
    | .done result => (result, { st with hashes := update st.hashes uid seen.2 })
    | .range floor =>
      let reserved := A.reserve st.allocator uid floor
      let r := (Use.new floor).run seen.2 true reserved.1.1 reserved.1.2 .ok
      (finishAcquire ctx uid r.1 r.1.err, ⟨update st.hashes uid r.2.1, reserved.2⟩)

def current (st : Store α) (ctx : Ctx) (uid : ℤ) : Except DueErr (Option Token) :=
  Redis.current (st.hashes uid) ctx uid

def release (st : Store α) (ctx : Ctx) (uid : ℤ) (token : Token) : Except DueErr Bool × Store α :=
  let r := Redis.release (st.hashes uid) ctx uid token .ok
  (r.1, { st with hashes := update st.hashes uid r.2 })

end Store

inductive StoreOp where
  | acquire (ctx : Ctx) (uid : ℤ)
  | current (ctx : Ctx) (uid : ℤ)
  | release (ctx : Ctx) (uid : ℤ) (token : Token)
deriving DecidableEq

inductive StoreResult where
  | acquire (result : Except DueErr Token)
  | current (result : Except DueErr (Option Token))
  | release (result : Except DueErr Bool)
deriving DecidableEq

def StoreResult.exhausted (r : StoreResult) : Bool :=
  decide (r = .acquire (.error .errOwnershipGenerationExhausted)) ||
    decide (r = .current (.error .errOwnershipGenerationExhausted))

def Store.apply {α : Type} (A : RangeAllocator α) (st : Store α) : StoreOp → StoreResult × Store α
  | .acquire ctx uid => ((.acquire (st.acquire A ctx uid).1), (st.acquire A ctx uid).2)
  | .current ctx uid => (.current (st.current ctx uid), st)
  | .release ctx uid token =>
    (.release (st.release ctx uid token).1, (st.release ctx uid token).2)

def memoryApply (m : MemoryOwnershipStore) : StoreOp → StoreResult × MemoryOwnershipStore
  | .acquire ctx uid => (.acquire (m.acquire ctx uid).1, (m.acquire ctx uid).2)
  | .current ctx uid => (.current (m.current ctx uid), m)
  | .release ctx uid token => (.release (m.release ctx uid token).1, (m.release ctx uid token).2)

section Renaming

variable (f : ℤ → ℕ → ℕ)

def renameToken (t : Token) : Token := ⟨t.uid, f t.uid t.generation⟩

def renameOp : StoreOp → StoreOp
  | .release ctx uid token => .release ctx uid (renameToken f token)
  | op => op

def renameResult : StoreResult → StoreResult
  | .acquire (.ok t) => .acquire (.ok (renameToken f t))
  | .current (.ok o) => .current (.ok (o.map (renameToken f)))
  | r => r

end Renaming

section Acquire

variable {α : Type} {A : RangeAllocator α} {st : Store α} {uid : ℤ} {o : Option Range}

theorem acquireReply_issued {n : ℕ} {rangeAllocator : Bool} (hpos : 0 < n) (hn : n ≤ maxInt64) :
    acquireReply uid rangeAllocator (.ok ["ok".toList, formatUint n]) = .done (.ok ⟨uid, n⟩) := by
  simp only [acquireReply, decodeRangeReply_ok hpos hn, Bool.false_eq_true, not_false_eq_true,
    if_pos]

theorem acquireReply_asks {n : ℕ} (hn : n ≤ maxInt64) :
    acquireReply uid true (.ok ["range".toList, formatUint n]) =
      if n = maxInt64 then .done (.error .errOwnershipGenerationExhausted) else .range n := by
  simp only [acquireReply, decodeRangeReply_range hn, not_true_eq_false, if_false]

theorem Use.replied_issued {u : Use} {n : ℕ} (hflo : u.floor < n) (hn : n ≤ maxInt64) :
    u.replied (.ok ["ok".toList, formatUint n]) =
      { u with calls := u.calls + 1, generation := n } := by
  simp only [Use.replied, decodeRangeReply_ok (by omega : 0 < n) hn]
  exact if_neg (by simpa using hflo)

theorem Use.run_first (h : Full o) {start last : ℕ} (hflo : newest o < start)
    (hle : start ≤ last) (hmax : last ≤ maxInt64) :
    (Use.new (newest o)).run (encode o) true start last .ok =
      (⟨newest o, 1, start, none⟩,
        encode (some (Range.first start last (by omega) hle hmax)), some start) := by
  have hpos : 0 < start := by omega
  have hrej : (Use.new (newest o)).rejects true start last = false := by
    simp only [Use.rejects, Use.new, Bool.or_eq_false_iff, decide_eq_false_iff_not]
    exact ⟨⟨⟨⟨⟨by simp, rfl⟩, decide_eq_false (not_le.mpr hflo)⟩, hpos.ne'⟩, not_lt.mpr hle⟩,
      not_lt.mpr hmax⟩
  have hrep : (Use.new (newest o)).replied (.ok ["ok".toList, formatUint start]) =
      ⟨newest o, 1, start, none⟩ := Use.replied_issued hflo (hle.trans hmax)
  simp only [Use.run, hrej, Bool.false_eq_true, if_false,
    initializeRangeScript_first h hpos hle hmax hflo, runScript, Except.mapError, hrep,
    issuedBy_ok hpos (hle.trans hmax), Reply.executed, if_true]

/-- Where the allocator stands: without a hash it has generations left, otherwise the range in
the hash is the last one it has reserved. -/
def Reserved (A : RangeAllocator α) (a : α) (uid : ℤ) : Option Range → Prop
  | none => A.top a uid < maxInt64
  | some r => A.top a uid = r.limit

theorem Reserved.top_lt {a : α} (hres : Reserved A a uid o) (h : Full o)
    (hne : newest o ≠ maxInt64) : A.top a uid < maxInt64 := by
  rcases o with _ | r
  · exact hres
  have hfull := h r rfl
  have hle := r.le_limit
  have hmax := r.limit_le
  have hgen : r.generation ≠ maxInt64 := hne
  have htop : A.top a uid = r.limit := hres
  omega

theorem Store.acquire_cases (huid : 0 < uid) (ho : st.hashes uid = encode o)
    (hres : Reserved A st.allocator uid o) :
    (∃ r : Range, newest o < r.generation ∧ r.held = true ∧
      (st.acquire A none uid).1 = .ok ⟨uid, r.generation⟩ ∧
      (st.acquire A none uid).2.hashes = update st.hashes uid (encode (some r)) ∧
      Reserved A (st.acquire A none uid).2.allocator uid (some r) ∧
      ∀ v ≠ uid, A.top (st.acquire A none uid).2.allocator v = A.top st.allocator v) ∨
    (st.acquire A none uid).1 = .error .errOwnershipGenerationExhausted := by
  have hargs : acquireArgs none uid = none := if_neg (by omega)
  rcases full_or_capacity o with h | ⟨r, rfl, h⟩
  · have hseen : runScript .ok (acquireScript (st.hashes uid)) (st.hashes uid) =
        (.ok ["range".toList, formatUint (newest o)], encode o) := by
      rw [ho, acquireScript_full h]
      rfl
    by_cases hmax : newest o = maxInt64
    · refine .inr ?_
      simp only [Store.acquire, hargs, hseen, acquireReply_asks (newest_le o), if_pos hmax]
    have hlt : newest o < maxInt64 := lt_of_le_of_ne (newest_le o) hmax
    obtain ⟨hflo, _, hle, hlast⟩ :=
      A.reserve_above st.allocator uid (newest o) hlt (hres.top_lt h hmax)
    have hacq : st.acquire A none uid = (.ok ⟨uid, (A.reserve st.allocator uid (newest o)).1.1⟩,
        ⟨update st.hashes uid (encode (some (Range.first _ _ (by omega) hle hlast))),
          (A.reserve st.allocator uid (newest o)).2⟩) := by
      simp only [Store.acquire, hargs, hseen, acquireReply_asks (newest_le o), if_neg hmax,
        Use.run_first h hflo hle hlast, finishAcquire]
      rw [if_neg (by simp; omega)]
    rw [hacq]
    refine .inl ⟨Range.first _ _ (by omega) hle hlast, hflo, rfl, rfl, rfl, ?_, ?_⟩
    · simp only [Reserved, A.reserve_top, update_self]
      rfl
    · intro v hv
      rw [A.reserve_top, update_of_ne hv]
  · have hseen : runScript .ok (acquireScript (st.hashes uid)) (st.hashes uid) =
        (.ok ["ok".toList, formatUint (r.generation + 1)], encode (some (r.next h))) := by
      rw [ho, acquireScript_next r h]
      rfl
    have hacq : st.acquire A none uid = (.ok ⟨uid, r.generation + 1⟩,
        { st with hashes := update st.hashes uid (encode (some (r.next h))) }) := by
      simp only [Store.acquire, hargs, hseen,
        acquireReply_issued (Nat.succ_pos _) (h.trans_le r.limit_le)]
    rw [hacq]
    exact .inl ⟨r.next h, Nat.lt_succ_self _, rfl, rfl, rfl, hres, fun _ _ => rfl⟩

end Acquire

section Simulation

variable {α : Type} {A : RangeAllocator α} {f f₀ : ℤ → ℕ → ℕ} {m : MemoryOwnershipStore}
  {st : Store α} {uid : ℤ} {o : Option Range}

/-- The two stores agree on a user: the hash holds the image of the newest generation, and
both stores have the same owner. -/
structure Matches (A : RangeAllocator α) (f : ℤ → ℕ → ℕ) (m : MemoryOwnershipStore)
    (st : Store α) (uid : ℤ) (o : Option Range) : Prop where
  hash : st.hashes uid = encode o
  newest : newest o = f uid (m.generations uid)
  owner : m.owners uid = o.bind fun r => if r.held then some ⟨uid, m.generations uid⟩ else none
  reserved : Reserved A st.allocator uid o
  zero : f uid 0 = 0
  increasing : ∀ i j, i < j → j ≤ m.generations uid → f uid i < f uid j

theorem Matches.le_newest (h : Matches A f m st uid o) : ∀ k ≤ m.generations uid, k ≤ f uid k := by
  intro k
  induction k with
  | zero => exact fun _ => Nat.zero_le _
  | succ k ih =>
    intro hk
    have hlt := h.increasing k (k + 1) (Nat.lt_succ_self k) hk
    omega

theorem Matches.generations_lt (h : Matches A f m st uid o) : m.generations uid ≠ maxUint64 := by
  have hle := h.le_newest _ le_rfl
  rw [← h.newest] at hle
  have hmax := newest_le o
  have hcmp : maxInt64 < maxUint64 := by decide
  omega

/-- `f` prolongs what is known of the renaming so far. -/
def Prolongs (m : MemoryOwnershipStore) (f₀ f : ℤ → ℕ → ℕ) : Prop :=
  ∀ uid k, k ≤ m.generations uid → f uid k = f₀ uid k

def prolong (n : ℕ) (g : ℕ → ℕ) (k : ℕ) : ℕ := if k ≤ n then g k else g n + (k - n)

variable {n : ℕ} {op : StoreOp} {m' : MemoryOwnershipStore} {st' : Store α} {token : Token}

theorem prolong_strictMono {g : ℕ → ℕ} (h : ∀ i j, i < j → j ≤ n → g i < g j) :
    StrictMono (prolong n g) := by
  intro i j hij
  unfold prolong
  by_cases hj : j ≤ n
  · rw [if_pos hj, if_pos (by omega)]
    exact h i j hij hj
  rw [if_neg hj]
  by_cases hi : i ≤ n
  · rw [if_pos hi]
    rcases Nat.lt_or_eq_of_le hi with hlt | rfl
    · have := h i n hlt le_rfl
      omega
    · omega
  · rw [if_neg hi]
    omega

theorem exists_prolonging (h : ∀ uid, ∃ o, Matches A f₀ m st uid o) :
    ∃ f, (∀ uid, StrictMono (f uid)) ∧ Prolongs m f₀ f := by
  refine ⟨fun uid => prolong (m.generations uid) (f₀ uid), ?_, ?_⟩
  · intro uid
    obtain ⟨o, ho⟩ := h uid
    exact prolong_strictMono ho.increasing
  · intro uid k hk
    exact if_pos hk

/-- One call on both stores, whatever the renaming will be beyond the known generations: the
redis store is exhausted, or the answers agree and so do the stores afterwards. -/
def Step (A : RangeAllocator α) (f₀ : ℤ → ℕ → ℕ) (m : MemoryOwnershipStore) (st : Store α)
    (op : StoreOp) : Prop :=
  (∀ f, (st.apply A (renameOp f op)).1.exhausted = true) ∨
  ∃ f₁ st', (∀ uid, ∃ o, Matches A f₁ (memoryApply m op).2 st' uid o) ∧
    (∀ f, Prolongs (memoryApply m op).2 f₁ f → Prolongs m f₀ f) ∧
    ∀ f, (∀ uid, StrictMono (f uid)) → Prolongs (memoryApply m op).2 f₁ f →
      st.apply A (renameOp f op) = (renameResult f (memoryApply m op).1, st')

theorem Step.unchanged (h : ∀ uid, ∃ o, Matches A f₀ m st uid o) (hmem : (memoryApply m op).2 = m)
    (hst : ∀ f, (∀ uid, StrictMono (f uid)) → Prolongs m f₀ f →
      st.apply A (renameOp f op) = (renameResult f (memoryApply m op).1, st)) :
    Step A f₀ m st op := by
  refine .inr ⟨f₀, st, ?_, ?_, ?_⟩
  · rw [hmem]
    exact h
  · rw [hmem]
    exact fun f hf => hf
  · rw [hmem]
    exact hst

theorem Matches.transfer (h : Matches A f₀ m st uid o) (hf : f uid = f₀ uid)
    (hgen : m'.generations uid = m.generations uid) (hown : m'.owners uid = m.owners uid)
    (hhash : st'.hashes uid = st.hashes uid)
    (htop : A.top st'.allocator uid = A.top st.allocator uid) : Matches A f m' st' uid o := by
  refine ⟨hhash.trans h.hash, ?_, ?_, ?_, ?_, ?_⟩
  · rw [hf, hgen]
    exact h.newest
  · rw [hown, hgen]
    exact h.owner
  · have hres := h.reserved
    rcases o with _ | r <;> simpa only [Reserved, htop] using hres
  · rw [hf]
    exact h.zero
  · rw [hf, hgen]
    exact h.increasing

def learn (f : ℤ → ℕ → ℕ) (uid : ℤ) (n g : ℕ) : ℤ → ℕ → ℕ :=
  update f uid (update (f uid) n g)

theorem learn_self (n g : ℕ) : learn f uid n g uid n = g := by
  rw [learn, update_self, update_self]

theorem learn_old {g k : ℕ} (hk : k ≠ n) : learn f uid n g uid k = f uid k := by
  rw [learn, update_self, update_of_ne hk]

theorem learn_other {g : ℕ} {v : ℤ} (hv : v ≠ uid) : learn f uid n g v = f v := by
  rw [learn, update_of_ne hv]

theorem Matches.issued {r : Range}
    (h : Matches A f₀ m st uid o) (hnew : Redis.newest o < r.generation) (hheld : r.held = true)
    (hgen : m'.generations uid = m.generations uid + 1)
    (hown : m'.owners uid = some ⟨uid, m.generations uid + 1⟩)
    (hhash : st'.hashes uid = encode (some r))
    (hres : Reserved A st'.allocator uid (some r)) :
    Matches A (learn f₀ uid (m.generations uid + 1) r.generation) m' st' uid (some r) := by
  refine ⟨hhash, ?_, ?_, hres, ?_, ?_⟩
  · rw [hgen, learn_self]
    rfl
  · rw [hown, hgen, Option.bind_some, if_pos hheld]
  · rw [learn_old (Nat.succ_ne_zero _).symm]
    exact h.zero
  · intro i j hij hj
    rw [hgen] at hj
    rw [learn_old (by omega)]
    rcases Nat.lt_or_eq_of_le hj with hlt | rfl
    · rw [learn_old (by omega)]
      exact h.increasing i j hij (by omega)
    -- the new generation lies above all that were known
    rw [learn_self]
    refine lt_of_le_of_lt ?_ hnew
    rw [h.newest]
    rcases Nat.lt_or_eq_of_le (Nat.lt_succ_iff.mp hij) with hlt | rfl
    · exact (h.increasing i _ hlt le_rfl).le
    · exact le_rfl

theorem Step.acquire (ctx : Ctx) (uid : ℤ) (h : ∀ uid, ∃ o, Matches A f₀ m st uid o) :
    Step A f₀ m st (.acquire ctx uid) := by
  rcases ctx with _ | err
  · by_cases huid : uid ≤ 0
    · have hmem : m.acquire none uid = (.error .errInvalidArgument, m) := if_pos huid
      have hargs : acquireArgs none uid = some .errInvalidArgument := if_pos huid
      refine Step.unchanged h ?_ ?_
      · simp only [memoryApply, hmem]
      · intro f _ _
        simp only [renameOp, Store.apply, Store.acquire, hargs, memoryApply, hmem, renameResult]
    · obtain ⟨o, ho⟩ := h uid
      rcases Store.acquire_cases (by omega) ho.hash ho.reserved with
        ⟨r, hnew, hheld, hres, hhash, hrsv, htop⟩ | hex
      · -- both hand out their next generation, and the renaming learns the pair
        have hmem : m.acquire none uid = (.ok ⟨uid, m.generations uid + 1⟩,
            ⟨update m.owners uid (some ⟨uid, m.generations uid + 1⟩),
              update m.generations uid (m.generations uid + 1)⟩) := by
          simp only [MemoryOwnershipStore.acquire, if_neg huid, if_neg ho.generations_lt]
        have hself : (m.acquire none uid).2.generations uid = m.generations uid + 1 := by
          rw [hmem]
          exact update_self ..
        have hoth : ∀ v ≠ uid, (m.acquire none uid).2.generations v = m.generations v := by
          intro v hv
          rw [hmem]
          exact update_of_ne hv ..
        refine .inr ⟨learn f₀ uid (m.generations uid + 1) r.generation,
          (st.acquire A none uid).2, ?_, ?_, ?_⟩
        · intro v
          by_cases hv : v = uid
          · subst hv
            refine ⟨some r, ho.issued hnew hheld hself ?_ ?_ hrsv⟩
            · simp [memoryApply, hmem]
            · rw [hhash, update_self]
          obtain ⟨o', ho'⟩ := h v
          refine ⟨o', ho'.transfer (learn_other hv) (hoth v hv) ?_ ?_ (htop v hv)⟩
          · simp only [memoryApply, hmem, update_of_ne hv]
          · rw [hhash, update_of_ne hv]
        · intro f hf v k hk
          by_cases hv : v = uid
          · subst hv
            rw [hf v k (hk.trans (hself ▸ Nat.le_succ _)), learn_old (by omega)]
          · rw [hf v k (hk.trans (hoth v hv).ge), learn_other hv]
        · intro f _ hf
          have hgen : f uid (m.generations uid + 1) = r.generation := by
            rw [hf uid _ hself.ge, learn_self]
          simp [renameOp, Store.apply, hres, memoryApply, hmem, renameResult, renameToken, hgen]
      · refine .inl ?_
        simp [renameOp, Store.apply, hex, StoreResult.exhausted]
  · refine Step.unchanged h rfl ?_
    intro f _ _
    rfl

theorem Step.current (ctx : Ctx) (uid : ℤ) (h : ∀ uid, ∃ o, Matches A f₀ m st uid o) :
    Step A f₀ m st (.current ctx uid) := by
  refine Step.unchanged h rfl ?_
  intro f _ hf
  rcases ctx with _ | err
  · by_cases huid : uid ≤ 0
    · have hmem : m.current none uid = .error .errInvalidArgument := if_pos huid
      have hargs : acquireArgs none uid = some .errInvalidArgument := if_pos huid
      simp [renameOp, Store.apply, Store.current, Redis.current, hargs, memoryApply,
        hmem, renameResult]
    · obtain ⟨o, ho⟩ := h uid
      have hmem : m.current none uid = .ok (m.owners uid) := if_neg huid
      have hcur : st.current none uid = .ok ((m.owners uid).map (renameToken f)) := by
        rw [Store.current, ho.hash, current_encode o (by omega), ho.owner]
        rcases o with _ | r
        · rfl
        -- the owner's generation is always the newest one
        have hgen : r.generation = f uid (m.generations uid) :=
          ho.newest.trans (hf uid _ le_rfl).symm
        rcases hheld : r.held with _ | _
        · simp [hheld]
        · simp [renameToken, hgen]
      simp only [renameOp, Store.apply, hcur, memoryApply, hmem, renameResult]
  · rfl

theorem Matches.of_owner (h : Matches A f₀ m st uid o) (hown : m.owners uid = some token) :
    ∃ r, o = some r ∧ r.held = true ∧ token.generation = m.generations uid := by
  rw [h.owner] at hown
  obtain ⟨r, rfl, hr⟩ := Option.bind_eq_some_iff.mp hown
  split at hr
  · rename_i hheld
    cases hr
    exact ⟨r, rfl, hheld, rfl⟩
  · cases hr

section

variable (h : ∀ uid, ∃ o, Matches A f₀ m st uid o)

include h

theorem renamed_args_iff (hmono : ∀ v, StrictMono (f v)) (hf : Prolongs m f₀ f) :
    (uid ≤ 0 ∨ (renameToken f token).uid ≠ uid ∨ (renameToken f token).generation = 0) ↔
      (uid ≤ 0 ∨ token.uid ≠ uid ∨ token.generation = 0) := by
  obtain ⟨o, ho⟩ := h token.uid
  have h0 : f token.uid 0 = 0 := (hf _ 0 (Nat.zero_le _)).trans ho.zero
  have hzero : f token.uid token.generation = 0 ↔ token.generation = 0 := by
    rw [← h0, (hmono _).injective.eq_iff, h0]
  simp only [renameToken, hzero]

theorem release_renamed (hargs : ¬ (uid ≤ 0 ∨ token.uid ≠ uid ∨ token.generation = 0))
    (hmono : ∀ v, StrictMono (f v)) (hf : Prolongs m f₀ f) (hash : Hash) :
    Redis.release hash none uid (renameToken f token) .ok =
      (.ok (decide ((releaseScript hash (formatUint (f token.uid token.generation))).1 = 1)),
        (releaseScript hash (formatUint (f token.uid token.generation))).2) := by
  have hargs' := mt (renamed_args_iff h hmono hf).mp hargs
  simp only [Redis.release, if_neg hargs']
  rfl

theorem Step.release_invalid (hargs : uid ≤ 0 ∨ token.uid ≠ uid ∨ token.generation = 0) :
    Step A f₀ m st (.release none uid token) := by
  have hmem : m.release none uid token = (.error .errInvalidArgument, m) := if_pos hargs
  refine Step.unchanged h (by simp only [memoryApply, hmem]) ?_
  intro f hmono hf
  have hargs' := (renamed_args_iff h hmono hf).mpr hargs
  simp [renameOp, Store.apply, Store.release, Redis.release, if_pos hargs', memoryApply,
    hmem, renameResult]

section

variable (hargs : ¬ (uid ≤ 0 ∨ token.uid ≠ uid ∨ token.generation = 0)) (htok : token.uid = uid)

include hargs htok

theorem Step.release_owner (hown : m.owners uid = some token) :
    Step A f₀ m st (.release none uid token) := by
  obtain ⟨o, ho⟩ := h uid
  obtain ⟨r, rfl, hheld, hgen⟩ := ho.of_owner hown
  have hmem : m.release none uid token =
      (.ok true, { m with owners := update m.owners uid none }) := by
    simp only [MemoryOwnershipStore.release, if_neg hargs, if_neg (not_not.mpr hown)]
  refine .inr ⟨f₀,
    { st with hashes := update st.hashes uid (encode (some r.release)) }, ?_, ?_, ?_⟩
  · intro v
    simp only [memoryApply, hmem]
    by_cases hv : v = uid
    · subst hv
      refine ⟨some r.release, update_self .., ho.newest, ?_, ho.reserved, ho.zero,
        ho.increasing⟩
      exact update_self ..
    obtain ⟨o', ho'⟩ := h v
    exact ⟨o', ho'.transfer rfl rfl (update_of_ne hv ..)
      (update_of_ne hv ..) rfl⟩
  · simp only [memoryApply, hmem]
    exact fun f hf => hf
  · simp only [memoryApply, hmem]
    intro f hmono hf
    -- the script is called with the generation that the hash holds
    have hima : f token.uid token.generation = r.generation := by
      rw [htok, hgen]
      exact (hf uid _ le_rfl).trans ho.newest.symm
    simp [renameOp, Store.apply, Store.release, release_renamed h hargs hmono hf, hima, ho.hash,
      releaseScript_held r hheld, renameResult]

theorem Step.release_other (hown : m.owners uid ≠ some token) :
    Step A f₀ m st (.release none uid token) := by
  obtain ⟨o, ho⟩ := h uid
  have hmem : m.release none uid token = (.ok false, m) := by
    simp only [MemoryOwnershipStore.release, if_neg hargs, if_pos hown]
  refine Step.unchanged h (by simp only [memoryApply, hmem]) ?_
  intro f hmono hf
  have hne : ∀ r ∈ o, r.held = true → r.generation ≠ f token.uid token.generation := by
    rintro r ⟨rfl⟩ hheld heq
    have hnew : r.generation = f uid (m.generations uid) :=
      ho.newest.trans (hf uid _ le_rfl).symm
    rw [htok, hnew] at heq
    have hgen : m.generations uid = token.generation := (hmono uid).injective heq
    apply hown
    rw [ho.owner, Option.bind_some, if_pos hheld, hgen, ← htok]
  simp only [renameOp, Store.apply, Store.release, release_renamed h hargs hmono hf, ho.hash,
    releaseScript_ne o _ hne, memoryApply, hmem]
  rw [← ho.hash, update_eq_self]
  rfl

end

end

theorem Step.release (ctx : Ctx) (uid : ℤ) (token : Token)
    (h : ∀ uid, ∃ o, Matches A f₀ m st uid o) : Step A f₀ m st (.release ctx uid token) := by
  rcases ctx with _ | err
  · by_cases hargs : uid ≤ 0 ∨ token.uid ≠ uid ∨ token.generation = 0
    · exact Step.release_invalid h hargs
    · have htok : token.uid = uid := by
        by_contra hne
        exact hargs (.inr (.inl hne))
      by_cases hown : m.owners uid = some token
      · exact Step.release_owner h hargs htok hown
      · exact Step.release_other h hargs htok hown
  · refine Step.unchanged h rfl ?_
    intro f _ _
    simp [renameOp, Store.apply, Store.release, Redis.release, memoryApply,
      MemoryOwnershipStore.release, renameResult]

theorem Step.of_matches (op : StoreOp) (h : ∀ uid, ∃ o, Matches A f₀ m st uid o) :
    Step A f₀ m st op := by
  cases op with
  | acquire ctx uid => exact Step.acquire ctx uid h
  | current ctx uid => exact Step.current ctx uid h
  | release ctx uid token => exact Step.release ctx uid token h

def Agree (A : RangeAllocator α) (f : ℤ → ℕ → ℕ) (m : MemoryOwnershipStore) (st : Store α)
    (ops : List StoreOp) : Prop :=
  (∀ r ∈ outputs (Store.apply A) st (ops.map (renameOp f)), r.exhausted = false) →
  (∀ r ∈ outputs memoryApply m ops, r.exhausted = false) →
  outputs (Store.apply A) st (ops.map (renameOp f)) =
    (outputs memoryApply m ops).map (renameResult f)

theorem agree_cons {ops : List StoreOp}
    (hst : st.apply A (renameOp f op) = (renameResult f (memoryApply m op).1, st'))
    (h : Agree A f (memoryApply m op).2 st' ops) : Agree A f m st (op :: ops) := by
  intro hs hm
  simp only [List.map_cons, outputs, hst, List.forall_mem_cons] at hs hm ⊢
  rw [h hs.2 hm.2]

theorem refines_from (ops : List StoreOp) : ∀ (f₀ : ℤ → ℕ → ℕ) (m : MemoryOwnershipStore)
    (st : Store α), (∀ uid, ∃ o, Matches A f₀ m st uid o) →
      ∃ f, (∀ uid, StrictMono (f uid)) ∧ Prolongs m f₀ f ∧
        ∀ pre, pre <+: ops → Agree A f m st pre := by
  induction ops with
  | nil =>
    intro f₀ m st h
    obtain ⟨f, hmono, hf⟩ := exists_prolonging h
    refine ⟨f, hmono, hf, ?_⟩
    intro pre hpre
    rw [List.prefix_nil.mp hpre]
    exact fun _ _ => rfl
  | cons op ops ih =>
    intro f₀ m st h
    rcases Step.of_matches op h with hex | ⟨f₁, st', hmat, hback, hstep⟩
    · obtain ⟨f, hmono, hf⟩ := exists_prolonging h
      refine ⟨f, hmono, hf, ?_⟩
      intro pre hpre
      rcases List.prefix_cons_iff.mp hpre with rfl | ⟨pre', rfl, _⟩
      · exact fun _ _ => rfl
      intro hs _
      have hne := hs _ (List.mem_cons_self ..)
      rw [hex f] at hne
      cases hne
    · obtain ⟨f, hmono, hf, hagr⟩ := ih f₁ _ st' hmat
      refine ⟨f, hmono, hback f hf, ?_⟩
      intro pre hpre
      rcases List.prefix_cons_iff.mp hpre with rfl | ⟨pre', rfl, hpre'⟩
      · exact fun _ _ => rfl
      · exact agree_cons (hstep f hmono hf) (hagr pre' hpre')

/-- For every sequence of calls there is a renaming, strictly increasing for each user, under
which the redis store answers every call as the in-process store does, up to the first call
that reports exhaustion. -/
theorem store_refines_memory (A : RangeAllocator α) (a : α)
    (ha : ∀ uid, A.top a uid < maxInt64) (ops : List StoreOp) :
    ∃ f : ℤ → ℕ → ℕ, (∀ uid, StrictMono (f uid) ∧ f uid 0 = 0) ∧
      ∀ pre, pre <+: ops →
        (∀ r ∈ outputs (Store.apply A) (Store.new a) (pre.map (renameOp f)),
          r.exhausted = false) →
        (∀ r ∈ outputs memoryApply MemoryOwnershipStore.new pre, r.exhausted = false) →
        outputs (Store.apply A) (Store.new a) (pre.map (renameOp f)) =
          (outputs memoryApply MemoryOwnershipStore.new pre).map (renameResult f) := by
  have hinit : ∀ uid, ∃ o, Matches A (fun _ k => k)
    MemoryOwnershipStore.new (Store.new a) uid o := by
    intro uid
    exact ⟨none, rfl, rfl, rfl, ha uid, rfl, fun i j hij _ => hij⟩
  obtain ⟨f, hmono, hf, hagr⟩ := refines_from ops _ _ _ hinit
  exact ⟨f, fun uid => ⟨hmono uid, hf uid 0 le_rfl⟩, hagr⟩

end Simulation

def rangeModel : RangeAllocator (ℤ → ℕ) where
  reserve reserved uid floor :=
    let floor := if reserved uid > floor then reserved uid else floor
    let size := if 1024 > maxInt64 - floor then maxInt64 - floor else 1024
    ((floor + 1, floor + size), update reserved uid (floor + size))
  top reserved uid := reserved uid
  reserve_above := by
    intro reserved uid floor hfloor htop
    dsimp only at htop ⊢
    split <;> split <;> omega
  reserve_top := by
    intro reserved uid floor
    rfl

def acquireTwice : List StoreOp := [.acquire none 7, .current none 7, .acquire none 7]

/-- An allocator that has reserved 1024 generations before: the store goes on above them. -/
theorem store_refines_memory_acquireTwice : ∃ f : ℤ → ℕ → ℕ,
    (∀ uid, StrictMono (f uid) ∧ f uid 0 = 0) ∧
      [.acquire (.ok ⟨7, 1025⟩), .current (.ok (some ⟨7, 1025⟩)), .acquire (.ok ⟨7, 1026⟩)] =
        (outputs memoryApply MemoryOwnershipStore.new acquireTwice).map (renameResult f) := by
  obtain ⟨f, hf, hagr⟩ := store_refines_memory rangeModel (fun _ => 1024)
    (fun _ => (by decide : 1024 < maxInt64)) acquireTwice
  have hst : outputs (Store.apply rangeModel) (Store.new fun _ => 1024) acquireTwice =
      [.acquire (.ok ⟨7, 1025⟩), .current (.ok (some ⟨7, 1025⟩)), .acquire (.ok ⟨7, 1026⟩)] := by
    decide +kernel
  refine ⟨f, hf, ?_⟩
  refine hagr acquireTwice (List.prefix_refl _) ?_ (by decide +kernel)
  have hmap : acquireTwice.map (renameOp f) = acquireTwice := rfl
  rw [hmap]
  decide

end DueServer.Redis
