import DueServer.LibTransition

/-! The distributed locks of `lock/redis` and `lock/memcache`: any number of Lockers of one key,
each with its owner, who calls `Acquire`, `TryAcquire` and `Release` one after the other, and the
renewals that its timers start. A redis script is one command; `swap` of the memcache maker is a
`Get` and a `CompareAndSwap`, between which anything can happen. -/
namespace DueServer.Lock

open Lib
open Function (update_self update_of_ne update)
open List

inductive Kind where
  | redis
  | memcache
deriving DecidableEq

/-- What the key holds: the version of a Locker, by which the Locker is named here, and the number
that memcached gives to every write. -/
structure Item where
  version : ℕ
  cas : ℕ
deriving DecidableEq

inductive Err where
  | errIllegalOperation
  | errCacheMiss
  | errCASConflict
deriving DecidableEq

/-- Where the owner of a Locker is; `held` records whether the key held the version of the Locker
when `Release` began. -/
inductive Owner where
  | idle
  | adding (timed : Bool)
  | arming
  | stopping (held : Bool)
  | releasing (held : Bool)
  | swapping (held : Bool) (item : Item)
deriving DecidableEq

inductive Renewal where
  | renewing
  | swapping (item : Item)
  | rearming
deriving DecidableEq

/-- `cas` is the number of the last write; `timer` is that of each Locker, by number, `armed` are
the timers that can still fire. -/
structure State where
  key : Option Item
  cas : ℕ
  owner : ℕ → Owner
  timer : ℕ → Option ℕ
  timers : ℕ
  armed : List (ℕ × ℕ)
  renewals : List (ℕ × Renewal)

inductive Who where
  | acquire (l : ℕ)
  | release (l : ℕ)
  | renewal (l : ℕ)
  | expiry
deriving DecidableEq

/-- A step: who made it, the key before and after it, and, at the end of a `Release`, whether the
key was held when it began and what it returns. -/
structure Event where
  who : Who
  before : Option Item
  after : Option Item
  returned : Option (Bool × Option Err) := none
deriving DecidableEq

/-- A scheduling choice. `giveUp` is the end of an acquisition that did not get the key. -/
inductive Act where
  | acquire (l : ℕ) (timed : Bool)
  | release (l : ℕ)
  | next (l : ℕ)
  | giveUp (l : ℕ)
  | fire (i : ℕ)
  | renew (i : ℕ)
  | expire
deriving DecidableEq

namespace State

def init : State where
  key := none
  cas := 0
  owner := fun _ => .idle
  timer := fun _ => none
  timers := 0
  armed := []
  renewals := []

variable (s : State)

def holds (l : ℕ) : Bool := s.key.any fun item => item.version = l

def goto (l : ℕ) (o : Owner) : State := { s with owner := Function.update s.owner l o }

def write (l : ℕ) : State := { s with key := some ⟨l, s.cas + 1⟩, cas := s.cas + 1 }

/-- `DEL`, or a write that has expired. -/
def erase : State := { s with key := none }

/-- `l.timer = time.AfterFunc(…, l.renewal)`. -/
def arm (l : ℕ) : State := { s with
  timer := Function.update s.timer l (some s.timers)
  timers := s.timers + 1
  armed := s.armed ++ [(l, s.timers)] }

/-- `l.timer.Stop()`. -/
def stop (l : ℕ) : State := match s.timer l with
  | none => s
  | some n => { s with armed := s.armed.erase (l, n) }

/-- `client.Get` and the comparison of `swap`. -/
def get (l : ℕ) : Except Err Item := match s.key with
  | none => .error .errIllegalOperation
  | some item => if item.version = l then .ok item else .error .errIllegalOperation

/-- `client.CompareAndSwap` of an item that was read before: the error, if the key has been written
or is gone since then. -/
def conflict (item : Item) : Option Err := match s.key with
  | none => some .errCacheMiss
  | some cur => if cur.cas = item.cas then none else some .errCASConflict

def returns (l : ℕ) (held : Bool) (err : Option Err) (s' : State) : State × Event :=
  (s'.goto l .idle, ⟨.release l, s.key, s'.key, some (held, err)⟩)

/-- The owner of `l` goes on: `acquire` tries once more, `Acquire` arms the timer, `Release` stops
it and goes to the store, where `release` of the redis maker is one script. -/
def next (kind : Kind) (l : ℕ) : Option (State × Event) := match s.owner l with
  | .idle => none
  | .adding timed => match s.key with
    | some _ => some (s, ⟨.acquire l, s.key, s.key, none⟩)
    | none =>
      let s' := (s.write l).goto l (if timed then .arming else .idle)
      some (s', ⟨.acquire l, s.key, s'.key, none⟩)
  | .arming => some ((s.arm l).goto l .idle, ⟨.acquire l, s.key, s.key, none⟩)
  | .stopping held => some ((s.stop l).goto l (.releasing held), ⟨.release l, s.key, s.key, none⟩)
  | .releasing held => match s.get l, kind with
    | .error err, _ => some (s.returns l held (some err) s)
    | .ok _, .redis => some (s.returns l held none s.erase)
    | .ok item, .memcache => some (s.goto l (.swapping held item), ⟨.release l, s.key, s.key, none⟩)
  | .swapping held item => match s.conflict item with
    | some err => some (s.returns l held (some err) s)
    | none => some (s.returns l held none s.erase)

def renew (kind : Kind) (l : ℕ) : Renewal → List (ℕ × Renewal) × State
  | .renewing => match s.get l, kind with
    | .error _, _ => ([], s)
    | .ok _, .redis => ([(l, .rearming)], s)
    | .ok item, .memcache => ([(l, .swapping item)], s)
  | .swapping item => match s.conflict item with
    | some _ => ([], s)
    | none => ([(l, .rearming)], s.write item.version)
  | .rearming => ([], s.arm l)

def inRelease (l : ℕ) : Bool := match s.owner l with
  | .stopping _ | .releasing _ | .swapping _ _ => true
  | _ => false

def step (kind : Kind) : Act → Option (State × Event)
  | .acquire l timed =>
    if s.owner l = .idle then some (s.goto l (.adding timed), ⟨.acquire l, s.key, s.key, none⟩)
      else none
  | .release l =>
    if s.owner l = .idle then
      some (s.goto l (.stopping (s.holds l)), ⟨.release l, s.key, s.key, none⟩)
    else none
  | .next l => s.next kind l
  | .giveUp l => match s.owner l with
    | .adding _ => some (s.goto l .idle, ⟨.acquire l, s.key, s.key, none⟩)
    | _ => none
  | .fire i => match s.armed[i]? with
    | none => none
    | some (l, _) => some ({ s with
        armed := s.armed.eraseIdx i, renewals := s.renewals ++ [(l, .renewing)] },
        ⟨.renewal l, s.key, s.key, none⟩)
  | .renew i => match s.renewals[i]? with
    | none => none
    | some (l, r) =>
      let (left, s') := s.renew kind l r
      some ({ s' with renewals := s.renewals.eraseIdx i ++ left },
        ⟨.renewal l, s.key, s'.key, none⟩)
  | .expire => match s.key with
    | none => none
    -- a key does not expire while its holder releases it
    | some item => if s.inRelease item.version then none
      else some (s.erase, ⟨.expiry, s.key, none, none⟩)

/-- No renewal of a Locker makes its `CompareAndSwap` while a `Release` of the Locker is between its
`Get` and its `CompareAndSwap`. -/
def unraced (s : State) : Act → Bool
  | .renew i => match s.renewals[i]? with
    | some (l, .swapping _) => match s.owner l with
      | .swapping _ _ => false
      | _ => true
    | _ => true
  | _ => true

end State

/-- A key of another Locker is left as it is, and a key that was not held by `l` is not held by it
afterwards. -/
def Leaves (l : ℕ) (before after : Option Item) : Prop :=
  (∀ item, before = some item → item.version ≠ l → after = before) ∧
    ∀ item, after = some item → item.version = l → ∃ old, before = some old ∧ old.version = l

structure Event.Sound (e : Event) : Prop where
  leaves : ∀ l, e.who = .release l ∨ e.who = .renewal l → Leaves l e.before e.after
  frees : ∀ err, e.returned = some (true, err) → err = none ∧ e.after = none

/-- What a command of the Locker `l` can do to the key: nothing, erase it, or write it. -/
inductive Touch (l : ℕ) (s s' : State) : Prop where
  | same (hkey : s'.key = s.key) (hcas : s'.cas = s.cas)
  | gone (hold : ∃ old, s.key = some old ∧ old.version = l) (hkey : s'.key = none)
      (hcas : s'.cas = s.cas)
  | written (hold : ∀ old, s.key = some old → old.version = l) (hkey : s'.key = some ⟨l, s.cas + 1⟩)
      (hcas : s'.cas = s.cas + 1)

structure Known (s : State) (l : ℕ) (item : Item) : Prop where
  version : item.version = l
  le : item.cas ≤ s.cas
  unique : ∀ cur, s.key = some cur → cur.cas = item.cas → cur = item

def OwnerOk (s : State) (l : ℕ) : Owner → Prop
  | .stopping held | .releasing held => held = true → ∃ item, s.key = some item ∧ item.version = l
  | .swapping held item => Known s l item ∧ (held = true → s.key = some item)
  | _ => True

def RenewalOk (kind : Kind) (s : State) (l : ℕ) : Renewal → Prop
  | .swapping item => kind = .memcache ∧ Known s l item
  | _ => True

/-- A `Release` that began with the key held still finds it held, and what has been read is known.
-/
structure Inv (kind : Kind) (s : State) : Prop where
  fresh : ∀ item, s.key = some item → item.cas ≤ s.cas
  owner : ∀ l, OwnerOk s l (s.owner l)
  renewals : ∀ p ∈ s.renewals, RenewalOk kind s p.1 p.2

variable {kind : Kind} {s s' : State} {l : ℕ} {item : Item}

theorem Touch.leaves (h : Touch l s s') (hadd : s.key = none → s'.key = none) :
    Leaves l s.key s'.key := by
  cases h with
  | same hkey _ =>
    rw [hkey]
    exact ⟨fun _ _ _ => rfl, fun item hitem hver => ⟨item, hitem, hver⟩⟩
  | gone hold hkey _ =>
    obtain ⟨old, hold, hver⟩ := hold
    rw [hkey, hold]
    refine ⟨fun item hitem hne => ?_, fun item hitem => nomatch hitem⟩
    cases hitem
    exact absurd hver hne
  | written hold hkey _ =>
    refine ⟨fun item hitem hne => absurd (hold item hitem) hne, fun _ _ _ => ?_⟩
    cases hbef : s.key with
    | none =>
      have hnone := hadd hbef
      rw [hkey] at hnone
      cases hnone
    | some old => exact ⟨old, rfl, hold old hbef⟩

theorem Touch.fresh (h : Touch l s s') (hs : ∀ item, s.key = some item → item.cas ≤ s.cas) :
    ∀ item, s'.key = some item → item.cas ≤ s'.cas := by
  intro item hitem
  cases h with
  | same hkey hcas =>
    rw [hkey] at hitem
    rw [hcas]
    exact hs item hitem
  | gone _ hkey _ =>
    rw [hkey] at hitem
    cases hitem
  | written _ hkey hcas =>
    rw [hkey] at hitem
    cases hitem
    exact Nat.le_of_eq hcas.symm

variable {l' : ℕ} {o : Owner} {e : Event} {held : Bool} {r : Renewal}

theorem Known.touch (h : Touch l s s') (hk : Known s l' item) : Known s' l' item := by
  have hle := hk.le
  cases h with
  | same hkey hcas =>
    refine ⟨hk.version, hcas.symm ▸ hle, ?_⟩
    rw [hkey]
    exact hk.unique
  | gone _ hkey hcas =>
    refine ⟨hk.version, hcas.symm ▸ hle, fun cur hcur => ?_⟩
    rw [hkey] at hcur
    cases hcur
  | written _ hkey hcas =>
    -- a write has a number that nothing read before has
    refine ⟨hk.version, by omega, fun cur hcur hsame => ?_⟩
    rw [hkey] at hcur
    cases hcur
    simp only at hsame
    omega

theorem OwnerOk.touch (h : Touch l s s') (hne : l' ≠ l) (ho : OwnerOk s l' o) :
    OwnerOk s' l' o := by
  have hkeep : ∀ item, s.key = some item → item.version = l' → s'.key = some item := by
    intro item hitem hver
    cases h with
    | same hkey _ => rw [hkey, hitem]
    | gone hold _ _ =>
      obtain ⟨old, hold, hold'⟩ := hold
      rw [hitem] at hold
      cases hold
      exact absurd (hver.symm.trans hold') hne
    | written hold _ _ => exact absurd (hver.symm.trans (hold item hitem)) hne
  have hheld : ∀ held, (held = true → ∃ item, s.key = some item ∧ item.version = l') →
      held = true → ∃ item, s'.key = some item ∧ item.version = l' := by
    intro held hbef htrue
    obtain ⟨item, hitem, hver⟩ := hbef htrue
    exact ⟨item, hkeep item hitem hver, hver⟩
  cases o with
  | stopping held | releasing held => exact hheld held ho
  | swapping held item => exact ⟨ho.1.touch h, fun htrue => hkeep item (ho.2 htrue) ho.1.version⟩
  | idle | adding | arming => trivial

theorem Inv.touch (hs : Inv kind s) (h : Touch l s s') (hoth : ∀ l' ≠ l, s'.owner l' = s.owner l')
    (hown : OwnerOk s' l (s'.owner l))
    (hren : ∀ p ∈ s'.renewals, p ∈ s.renewals ∨ RenewalOk kind s' p.1 p.2) : Inv kind s' where
  fresh := h.fresh hs.fresh
  owner := by
    intro l'
    by_cases hne : l' = l
    · rw [hne]
      exact hown
    rw [hoth l' hne]
    exact (hs.owner l').touch h hne
  renewals := by
    intro p hp
    rcases hren p hp with hold | hnew
    · have hok := hs.renewals p hold
      obtain ⟨l', r⟩ := p
      cases r with
      | swapping item => exact ⟨hok.1, hok.2.touch h⟩
      | renewing | rearming => trivial
    · exact hnew

theorem get_ok (h : s.get l = .ok item) : s.key = some item ∧ item.version = l := by
  unfold State.get at h
  split at h
  · cases h
  rename_i cur hkey
  split at h
  · cases h
    exact ⟨hkey, ‹_›⟩
  · cases h

theorem conflict_none (h : s.conflict item = none) (hk : Known s l item) : s.key = some item := by
  unfold State.conflict at h
  split at h
  · cases h
  rename_i cur hkey
  split at h
  · rename_i hcas
    rw [hkey, hk.unique cur hkey hcas]
  · cases h

theorem conflict_self (h : s.key = some item) : s.conflict item = none := by
  simp [State.conflict, h]

theorem known_of_get (hs : Inv kind s) (h : s.get l = .ok item) : Known s l item := by
  obtain ⟨hkey, hver⟩ := get_ok h
  refine ⟨hver, hs.fresh item hkey, fun cur hcur _ => ?_⟩
  rw [hkey] at hcur
  cases hcur
  rfl

theorem sound_same (h : e.after = e.before) (hret : e.returned = none) : e.Sound where
  leaves := by
    intro l _
    rw [h]
    exact ⟨fun _ _ _ => rfl, fun item hitem hver => ⟨item, hitem, hver⟩⟩
  frees := by
    intro err herr
    rw [hret] at herr
    cases herr

theorem Inv.goto (hs : Inv kind s) (hkey : s'.key = s.key) (hcas : s'.cas = s.cas)
    (hren : s'.renewals = s.renewals) (howne : s'.owner = update s.owner l o)
    (hown : OwnerOk s' l o) : Inv kind s' := by
  apply hs.touch (.same hkey hcas)
  · intro l' hne
    rw [howne, update_of_ne hne]
  · rw [howne, update_self]
    exact hown
  · intro p hp
    rw [hren] at hp
    exact .inl hp

theorem erase_touch (h : s.key = some item) (hver : item.version = l) : Touch l s s.erase :=
  .gone ⟨item, h, hver⟩ rfl rfl

theorem returns_ok (hs : Inv kind s) (hkey : s.key = some item) (hver : item.version = l) :
    Inv kind (s.returns l held none s.erase).1 ∧ (s.returns l held none s.erase).2.Sound := by
  have htou := erase_touch hkey hver
  have hgone : Touch l s (s.returns l held none s.erase).1 := .gone ⟨item, hkey, hver⟩ rfl rfl
  refine ⟨hs.touch hgone (fun l' hne => update_of_ne hne _ _) ?_ fun p hp => .inl hp, ?_, ?_⟩
  · change OwnerOk _ l (update s.owner l .idle l)
    rw [update_self]
    trivial
  · intro l' hwho
    have hl : l = l' := by simpa [State.returns] using hwho
    subst hl
    exact htou.leaves fun _ => rfl
  · intro err herr
    cases herr
    exact ⟨rfl, rfl⟩

theorem returns_err (hs : Inv kind s) {err : Err} :
    Inv kind (s.returns l false (some err) s).1 ∧ (s.returns l false (some err) s).2.Sound := by
  refine ⟨hs.goto rfl rfl rfl rfl trivial, ?_, fun err herr => nomatch herr⟩
  intro l' _
  exact ⟨fun _ _ _ => rfl, fun item hitem hver => ⟨item, hitem, hver⟩⟩

theorem next_ok (hs : Inv kind s) (h : s.next kind l = some (s', e)) : Inv kind s' ∧ e.Sound := by
  have hown := hs.owner l
  unfold State.next at h
  split at h <;> rename_i howne <;> rw [howne] at hown
  · cases h
  · split at h
    · cases h
      exact ⟨hs, sound_same rfl rfl⟩
    · rename_i timed _ hkey
      cases h
      refine ⟨hs.touch (.written (fun old hold => ?_) rfl rfl)
        (fun l' hne => update_of_ne hne _ _) ?_ fun p hp => .inl hp, ?_⟩
      · rw [hkey] at hold
        cases hold
      · change OwnerOk _ l (update s.owner l _ l)
        rw [update_self]
        split <;> trivial
      · exact ⟨fun l' hwho => by simp at hwho, fun err herr => nomatch herr⟩
  · cases h
    exact ⟨hs.goto rfl rfl rfl rfl trivial, sound_same rfl rfl⟩
  · rename_i held
    cases h
    have hstop : (s.stop l).key = s.key ∧ (s.stop l).cas = s.cas ∧ (s.stop l).owner = s.owner ∧
        (s.stop l).renewals = s.renewals := by
      unfold State.stop
      split <;> exact ⟨rfl, rfl, rfl, rfl⟩
    obtain ⟨hkey, hcas, howns, hren⟩ := hstop
    refine ⟨hs.goto (l := l) (o := .releasing held) hkey hcas hren ?_ ?_, sound_same rfl rfl⟩
    · change update (s.stop l).owner l _ = _
      rw [howns]
    · intro hheld
      change ∃ item, (s.stop l).key = some item ∧ item.version = l
      rw [hkey]
      exact hown hheld
  · rename_i held
    split at h
    · rename_i err hget
      cases h
      cases held with
      | false => exact returns_err hs
      | true =>
        obtain ⟨item, hkey, hver⟩ := hown rfl
        simp [State.get, hkey, hver] at hget
    · rename_i item hget
      cases h
      exact returns_ok hs (get_ok hget).1 (get_ok hget).2
    · rename_i item hget
      cases h
      have hkn : Known (s.goto l (.swapping held item)) l item :=
        Known.touch (l := l) (s := s) (.same rfl rfl) (known_of_get hs hget)
      exact ⟨hs.goto rfl rfl rfl rfl ⟨hkn, fun _ => (get_ok hget).1⟩,
        sound_same rfl rfl⟩
  · rename_i held item
    split at h
    · rename_i err hcon
      cases h
      cases held with
      | false => exact returns_err hs
      | true =>
        rw [conflict_self (hown.2 rfl)] at hcon
        cases hcon
    · rename_i hcon
      cases h
      exact returns_ok hs (conflict_none hcon hown.1) hown.1.version

structure Renews (kind : Kind) (l : ℕ) (r : Renewal) (left : List (ℕ × Renewal))
    (s s' : State) : Prop where
  touch : Touch l s s'
  none_iff : s.key = none ↔ s'.key = none
  owner : s'.owner = s.owner
  renewals : s'.renewals = s.renewals
  left : ∀ p ∈ left, RenewalOk kind s p.1 p.2
  quiet : (∀ item, r ≠ .swapping item) → s'.key = s.key

theorem renews_of_renew (hs : Inv kind s) (hr : RenewalOk kind s l r) {left : List (ℕ × Renewal)}
    (h : s.renew kind l r = (left, s')) : Renews kind l r left s s' := by
  cases r with
  | renewing =>
    simp only [State.renew] at h
    split at h <;> cases h
    · exact ⟨.same rfl rfl, .rfl, rfl, rfl, (nofun), fun _ => rfl⟩
    · refine ⟨.same rfl rfl, .rfl, rfl, rfl, fun p hp => ?_, fun _ => rfl⟩
      cases mem_singleton.mp hp
      trivial
    rename_i item hget
    refine ⟨.same rfl rfl, .rfl, rfl, rfl, fun p hp => ?_, fun _ => rfl⟩
    cases mem_singleton.mp hp
    exact ⟨rfl, known_of_get hs hget⟩
  | swapping item =>
    simp only [State.renew] at h
    split at h <;> cases h
    · exact ⟨.same rfl rfl, .rfl, rfl, rfl, (nofun), fun h => absurd rfl (h item)⟩
    rename_i hcon
    have hkey := conflict_none hcon hr.2
    have hver := hr.2.version
    subst hver
    refine ⟨.written (fun old hold => ?_) rfl rfl, ?_, rfl, rfl, fun p hp => ?_,
      fun h => absurd rfl (h item)⟩
    · rw [hkey] at hold
      cases hold
      rfl
    · rw [hkey]
      exact iff_of_false (Option.some_ne_none _) (Option.some_ne_none _)
    · cases mem_singleton.mp hp
      trivial
  | rearming =>
    cases h
    exact ⟨.same rfl rfl, .rfl, rfl, rfl, (nofun), fun _ => rfl⟩

theorem OwnerOk.renewed (h : Touch l s s') (hkey : s.key = none ↔ s'.key = none)
    (ho : OwnerOk s l o) (hqt : (∃ held item, o = .swapping held item) → s'.key = s.key) :
    OwnerOk s' l o := by
  have hheld : ∀ held, (held = true → ∃ item, s.key = some item ∧ item.version = l) →
      held = true → ∃ item, s'.key = some item ∧ item.version = l := by
    intro held hbef htrue
    obtain ⟨item, hitem, hver⟩ := hbef htrue
    cases h with
    | same hsame _ => exact ⟨item, hsame.trans hitem, hver⟩
    | gone _ hnone _ =>
      rw [hkey.mpr hnone] at hitem
      cases hitem
    | written _ hnew _ => exact ⟨_, hnew, rfl⟩
  cases o with
  | stopping held | releasing held => exact hheld held ho
  | swapping held item =>
    refine ⟨ho.1.touch h, fun htrue => ?_⟩
    rw [hqt ⟨held, item, rfl⟩]
    exact ho.2 htrue
  | idle | adding | arming => trivial

theorem unraced_owner {i : ℕ} (hg : s.unraced (.renew i) = true)
    (hi : s.renewals[i]? = some (l, r)) (hown : s.owner l = .swapping held item) :
    ∀ item, r ≠ .swapping item := by
  rintro item rfl
  simp [State.unraced, hi, hown] at hg

theorem step_ok (hs : Inv kind s) {act : Act} (hg : kind = .memcache → s.unraced act = true)
    (h : s.step kind act = some (s', e)) : Inv kind s' ∧ e.Sound := by
  cases act with
  | acquire l timed =>
    simp only [State.step] at h
    split at h <;> cases h
    exact ⟨hs.goto rfl rfl rfl rfl trivial, sound_same rfl rfl⟩
  | release l =>
    simp only [State.step] at h
    split at h <;> cases h
    refine ⟨hs.goto rfl rfl rfl rfl fun hheld => ?_, sound_same rfl rfl⟩
    obtain ⟨item, hitem, hver⟩ := (Option.any_eq_true _ _).mp hheld
    exact ⟨item, hitem, by simpa using hver⟩
  | next l => exact next_ok hs h
  | giveUp l =>
    simp only [State.step] at h
    split at h <;> cases h
    exact ⟨hs.goto rfl rfl rfl rfl trivial, sound_same rfl rfl⟩
  | fire i =>
    simp only [State.step] at h
    split at h <;> cases h
    rename_i l n _
    refine ⟨hs.touch (l := l) (.same rfl rfl) (fun _ _ => rfl) ?_ fun p hp => ?_,
      sound_same rfl rfl⟩
    · exact OwnerOk.renewed (s := s) (.same rfl rfl) .rfl (hs.owner l) fun _ => rfl
    · rcases mem_append.mp hp with hold | hnew
      · exact .inl hold
      · cases mem_singleton.mp hnew
        exact .inr trivial
  | renew i =>
    simp only [State.step] at h
    split at h <;> cases h
    rename_i l r hi
    have hr := hs.renewals _ (mem_of_getElem? hi)
    obtain ⟨left, t, ht⟩ : ∃ left t, s.renew kind l r = (left, t) := ⟨_, _, rfl⟩
    have hdoes := renews_of_renew hs hr ht
    simp only [ht]
    have htou : Touch l s { t with renewals := s.renewals.eraseIdx i ++ left } := by
      cases hdoes.touch with
      | same hkey hcas => exact .same hkey hcas
      | gone hold hkey hcas => exact .gone hold hkey hcas
      | written hold hkey hcas => exact .written hold hkey hcas
    refine ⟨hs.touch htou (fun l' _ => congrFun hdoes.owner l') ?_ fun p hp => ?_, ?_, nofun⟩
    · have howns : t.owner l = s.owner l := congrFun hdoes.owner l
      rw [howns]
      refine (hs.owner l).renewed htou hdoes.none_iff fun ⟨held, item, hown⟩ => ?_
      -- a `Release` that swaps keeps the renewal from its own swap
      apply hdoes.quiet
      rintro item rfl
      exact unraced_owner (hg hr.1) hi hown item rfl
    · rcases mem_append.mp hp with hold | hnew
      · exact .inl (mem_of_mem_eraseIdx hold)
      · have hok := hdoes.left p hnew
        obtain ⟨l', r'⟩ := p
        cases r' with
        | swapping item => exact .inr ⟨hok.1, hok.2.touch htou⟩
        | renewing | rearming => exact .inr trivial
    · intro l' hwho
      have hl : l = l' := by simpa using hwho
      subst hl
      exact hdoes.touch.leaves hdoes.none_iff.mp
  | expire =>
    simp only [State.step] at h
    split at h
    · cases h
    rename_i item hkey
    split at h <;> cases h
    rename_i hidle
    refine ⟨hs.touch (erase_touch hkey rfl) (fun _ _ => rfl) ?_ fun p hp => .inl hp, ?_, nofun⟩
    · change OwnerOk _ _ (s.owner item.version)
      cases hown : s.owner item.version <;> simp [State.inRelease, hown] at hidle <;> trivial
    · intro l hwho
      simp at hwho

theorem init_ok : Inv kind State.init where
  fresh := nofun
  owner := fun _ => trivial
  renewals := nofun

/-- A Locker that holds the key can release it, its `Release` leaves the key free, and neither its
renewals nor its `Release` take the key again or touch that of another Locker. -/
theorem holder_releases (kind : Kind) {tr : List Event} {s : State}
    (h : Run (guardedRel (State.step · kind) fun s act =>
      kind = .redis || s.unraced act) .init tr s) :
    ∀ e ∈ tr, e.Sound := by
  suffices hboth : Inv kind s ∧ ∀ e ∈ tr, e.Sound from hboth.2
  induction h with
  | nil => exact ⟨init_ok, nofun⟩
  | @snoc _ t _ _ _ hstep ih =>
    obtain ⟨act, hg, hact⟩ := hstep
    have hgd : kind = .memcache → t.unraced act = true := by
      rintro rfl
      simpa using hg
    obtain ⟨hinv, hsou⟩ := step_ok ih.1 hgd hact
    refine ⟨hinv, fun e he => ?_⟩
    rcases mem_append.mp he with hold | hnew
    · exact ih.2 e hold
    rw [mem_singleton.mp hnew]
    exact hsou

/-- A memcache Locker that is renewed before its `Release`, with another Locker waiting for the key.
-/
def renewedRelease : List Act :=
  [.acquire 1 true, .next 1, .next 1, .acquire 2 false, .next 2, .fire 0, .release 1, .next 1,
    .renew 0, .renew 0, .next 1, .next 1, .renew 0, .next 2]

theorem renewedRelease_isSome : (exec (State.step · .memcache)
    (fun s act => Kind.memcache = .redis || s.unraced act) .init renewedRelease).isSome := rfl

theorem renewedRelease_sound :
    let run := (exec (State.step · .memcache) (fun s act => Kind.memcache = .redis || s.unraced act)
      .init renewedRelease).get renewedRelease_isSome
    (run.1.map Event.returned).filter Option.isSome = [some (true, none)] ∧
      ∀ e ∈ run.1, e.Sound :=
  ⟨by decide +kernel, holder_releases .memcache (run_of_exec _ renewedRelease_isSome)⟩

/-- The renewal writes the key between the `Get` and the `CompareAndSwap` of `Release`. -/
def racedRelease : List Act :=
  [.acquire 1 true, .next 1, .next 1, .fire 0, .release 1, .next 1, .next 1, .renew 0, .renew 0,
    .next 1]

/-- `Release` of the memcache Locker that holds the key fails, the key stays held, and the renewal
arms the next timer. -/
theorem racedRelease_fails :
    ∃ tr s, Run (guardedRel (State.step · .memcache) fun _ _ => true) .init tr s ∧
      (∃ e ∈ tr, e.who = .release 1 ∧ e.returned = some (true, some .errCASConflict)) ∧
      s.holds 1 = true ∧ s.renewals = [(1, .rearming)] := by
  refine ⟨_, _, run_of_exec racedRelease rfl, ?_⟩
  decide +kernel

end DueServer.Lock
