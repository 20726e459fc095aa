import DueServer.HintsRefinement

/-! The user sources of a `NodeLinker` (`internal/link/node.go`): the routing hints where
`SourceHintCapacity` is positive, and the map `sources`, which is the cache of the legacy mode and
holds the sources owned by this node in both modes. -/
namespace DueServer.Link

open Option Lib Lib.Lru

namespace SourceHints

variable {h : SourceHints} {key k : SourceHintKey} {node v : String}

theorem hint_eq_lookup (hl : h.Linked) (key : SourceHintKey) :
    h.hint key = (h.lru hl).lookup key := by
  unfold hint
  cases hfind : h.entries.lookup key with
  | none => exact (lookup_eq_none.mpr (lru_absent hl hfind)).symm
  | some addr =>
    obtain ⟨e, he, rfl, rfl⟩ := hl.element hfind
    rw [bind_some, hl.deref he]
    exact (lru_lookup hl he).symm

theorem linked_putLocked (hl : h.Linked) (key : SourceHintKey) (node : String) :
    (h.putLocked key node).Linked := by
  by_cases hnode : node = ""
  · rw [putLocked, if_pos hnode]
    exact hl
  · exact (putLocked_spec hl key hnode).1

theorem hint_putLocked (hl : h.Linked) (hv : (h.putLocked key node).hint k = some v) :
    (k = key ∧ v = node) ∨ h.hint k = some v := by
  by_cases hnode : node = ""
  · rw [putLocked, if_pos hnode] at hv
    exact .inr hv
  obtain ⟨hl', hlis, hcap, -⟩ := putLocked_spec hl key hnode
  have hlru : (h.putLocked key node).lru hl' = (h.lru hl).put key node := by
    refine ext' ?_ hlis
    rw [capacity_put]
    exact hcap
  rw [hint_eq_lookup hl', hlru] at hv
  rw [hint_eq_lookup hl]
  exact lookup_of_lookup_put hv

end SourceHints

structure Hints where
  raw : SourceHints
  linked : raw.Linked

namespace Hints

variable (h : Hints) {key k : SourceHintKey} {node v : String} {r : UInt64}

def new (capacity : ℕ) (hpos : 0 < capacity) : Hints :=
  ⟨⟨capacity, 0, ∅, [], 0⟩, (Refines.new hpos).linked⟩

def get (key : SourceHintKey) : Option String := h.raw.hint key

def load (key : SourceHintKey) : (Option String × UInt64) × Hints :=
  ((h.raw.load key).1, ⟨(h.raw.load key).2, (SourceHints.load_spec h.linked key).2.1⟩)

def store (key : SourceHintKey) (node : String) : Hints :=
  ⟨h.raw.store key node, SourceHints.linked_putLocked (h.linked.setRevision _) key node⟩

def fill (key : SourceHintKey) (node : String) (revision : UInt64) : Hints :=
  ⟨h.raw.fill key node revision, by
    unfold SourceHints.fill
    split
    · exact SourceHints.linked_putLocked h.linked key node
    · exact h.linked⟩

def invalidate (key : SourceHintKey) : Hints :=
  ⟨h.raw.invalidate key, (SourceHints.invalidate_spec h.linked key).1⟩

variable {h}

theorem load_result : (h.load key).1 = (h.get key, h.raw.revision) := by
  rw [get, SourceHints.hint_eq_lookup h.linked]
  exact (SourceHints.load_spec h.linked key).1

theorem revision_load : (h.load key).2.raw.revision = h.raw.revision :=
  (SourceHints.load_spec h.linked key).2.2.2.2

theorem revision_fill : (h.fill key node r).raw.revision = h.raw.revision := by
  have hput : (h.raw.putLocked key node).revision = h.raw.revision := by
    by_cases hnode : node = ""
    · rw [SourceHints.putLocked, if_pos hnode]
    · exact (SourceHints.putLocked_spec h.linked key hnode).2.2.2
  have hfill : (h.raw.fill key node r).revision = h.raw.revision := by
    unfold SourceHints.fill
    split
    · exact hput
    · rfl
  exact hfill

theorem revision_invalidate : (h.invalidate key).raw.revision ≠ h.raw.revision := by
  have hbump : (h.invalidate key).raw.revision = h.raw.revision + 1 :=
    (SourceHints.invalidate_spec h.linked key).2.2.2
  rw [hbump]
  intro heq
  have hone : (1 : UInt64) = 0 := by
    have hsub := congrArg (fun r => r - h.raw.revision) heq
    simpa only [UInt64.sub_self, UInt64.add_comm h.raw.revision, UInt64.add_sub_cancel] using hsub
  exact absurd hone (by decide)

theorem get_load : (h.load key).2.get k = h.get k := by
  obtain ⟨-, hl, hlis, hcap, -⟩ := SourceHints.load_spec h.linked key
  have hlru : (h.raw.load key).2.lru hl = (h.raw.lru h.linked).touch key := by
    refine ext' ?_ hlis
    rw [capacity_touch]
    exact hcap
  have hget : (h.load key).2.get k = ((h.raw.load key).2.lru hl).lookup k :=
    SourceHints.hint_eq_lookup hl k
  rw [hget, hlru, lookup_touch, get, SourceHints.hint_eq_lookup h.linked]

theorem get_store (hv : (h.store key node).get k = some v) :
    (k = key ∧ v = node) ∨ h.get k = some v := by
  have hput := SourceHints.hint_putLocked (h.linked.setRevision (h.raw.revision + 1)) hv
  exact hput

theorem get_fill (hv : (h.fill key node r).get k = some v) :
    (k = key ∧ v = node ∧ r = h.raw.revision) ∨ h.get k = some v := by
  by_cases hr : r = h.raw.revision
  · have hfill : (h.fill key node r).raw = h.raw.putLocked key node := if_pos hr
    rw [get, hfill] at hv
    rcases SourceHints.hint_putLocked h.linked hv with ⟨hk, hnode⟩ | hold
    · exact .inl ⟨hk, hnode, hr⟩
    · exact .inr hold
  · have hfill : (h.fill key node r).raw = h.raw := if_neg hr
    rw [get, hfill] at hv
    exact .inr hv

theorem lru_invalidate : (h.invalidate key).raw.lru (h.invalidate key).linked =
    (h.raw.lru h.linked).remove key := by
  obtain ⟨-, hlis, hcap, -⟩ := SourceHints.invalidate_spec h.linked key
  exact ext' hcap hlis

theorem get_invalidate_self : (h.invalidate key).get key = none := by
  rw [get, SourceHints.hint_eq_lookup (h.invalidate key).linked, lru_invalidate]
  exact lookup_remove_self

theorem get_invalidate_of_ne (hne : k ≠ key) : (h.invalidate key).get k = h.get k := by
  rw [get, get, SourceHints.hint_eq_lookup (h.invalidate key).linked, lru_invalidate,
    SourceHints.hint_eq_lookup h.linked]
  exact lookup_remove_of_ne hne

end Hints

structure NodeSources where
  id : String
  isGate : Bool
  hasLocator : Bool
  hints : Option Hints
  sources : AList fun _ : Int64 => AList fun _ : String => String

namespace NodeSources

/-- `NewNodeLinker`; a negative `SourceHintCapacity` panics there. -/
def new (id : String) (isGate hasLocator : Bool) (sourceHintCapacity : ℕ) : NodeSources :=
  ⟨id, isGate, hasLocator,
    if hpos : 0 < sourceHintCapacity then some (Hints.new sourceHintCapacity hpos) else none, ∅⟩

variable (l : NodeSources)

/-- `sources[uid][name]`. -/
def owned (key : SourceHintKey) : Option String :=
  (l.sources.lookup key.uid).bind fun sources => sources.lookup key.name

def cached (key : SourceHintKey) : Option String :=
  match l.hints with
  | some hints => hints.get key
  | none => l.owned key

def storeLegacySource (key : SourceHintKey) (nid : String) : (Bool × Bool) × NodeSources :=
  match l.sources.lookup key.uid with
  | some sources =>
    match sources.lookup key.name with
    | some oldNID =>
      if oldNID = nid then ((false, false), l)
      else
        (if l.id = oldNID then (false, true)
          else if l.id = nid then (true, false)
          else (false, false),
          { l with sources := l.sources.insert key.uid (sources.insert key.name nid) })
    | none =>
      ((decide (l.id = nid), false),
        { l with sources := l.sources.insert key.uid (sources.insert key.name nid) })
  | none =>
    ((decide (l.id = nid), false),
      { l with sources := l.sources.insert key.uid (AList.singleton key.name nid) })

def deleteLegacySource (key : SourceHintKey) (nid : String) : Bool × NodeSources :=
  match l.sources.lookup key.uid with
  | none => (false, l)
  | some sources =>
    match sources.lookup key.name with
    | none => (false, l)
    | some oldNID =>
      if oldNID ≠ nid then (false, l)
      else
        (decide (oldNID = l.id),
          { l with sources :=
              if sources.entries.length = 1 then l.sources.erase key.uid
              else l.sources.insert key.uid (sources.erase key.name) })

def setHints (hints : Hints) : NodeSources := { l with hints := some hints }

/-- `doLoadSource`; in hint mode a hit becomes the most recent hint. -/
def doLoadSource (key : SourceHintKey) : Option String × NodeSources :=
  match l.hints with
  | some hints => ((hints.load key).1.1, l.setHints (hints.load key).2)
  | none => (l.owned key, l)

inductive Lookup where
  | noLocator
  | cached (nid : String)
  | asked
deriving DecidableEq

def locateNode (key : SourceHintKey) : Lookup × NodeSources :=
  if l.hasLocator = false then (.noLocator, l)
  else
    match l.doLoadSource key with
    | (some nid, l') => (.cached nid, l')
    | (none, l') => (.asked, l')

def invalidateSessionSourceHints (uid : Int64) : NodeSources :=
  if uid ≤ 0 ∨ l.isGate = false then l
  else
    match l.hints with
    | some hints => l.setHints (hints.invalidate ⟨uid, "game"⟩)
    | none => { l with sources := l.sources.erase uid }

variable {key k : SourceHintKey} {nid : String}

variable {sources : AList fun _ : String => String}

def user (uid : Int64) : AList fun _ : String => String := (l.sources.lookup uid).getD ∅

def setSource (key : SourceHintKey) (nid : String) : NodeSources :=
  { l with sources := l.sources.insert key.uid ((l.user key.uid).insert key.name nid) }

def dropSource (key : SourceHintKey) : NodeSources :=
  { l with sources :=
      if (l.user key.uid).entries.length = 1 then l.sources.erase key.uid
      else l.sources.insert key.uid ((l.user key.uid).erase key.name) }

variable {l}

theorem owned_eq_user : l.owned k = (l.user k.uid).lookup k.name := by
  unfold owned user
  cases l.sources.lookup k.uid with
  | none => rw [bind_none, getD_none, AList.lookup_empty]
  | some sources => rfl

theorem owned_insert (uid : Int64) (sources : AList fun _ : String => String) :
    { l with sources := l.sources.insert uid sources }.owned k =
      if k.uid = uid then sources.lookup k.name else l.owned k := by
  unfold owned
  rw [lookup_insert_eq]
  split <;> rfl

theorem owned_setSource : (l.setSource key nid).owned k =
    if k = key then some nid else l.owned k := by
  obtain ⟨uid, name⟩ := key
  obtain ⟨u, n⟩ := k
  rw [setSource, owned_insert, lookup_insert_eq]
  simp only [SourceHintKey.mk.injEq]
  by_cases hu : u = uid
  · subst hu
    simp [owned_eq_user]
  · rw [if_neg hu, if_neg fun h => hu h.1]

theorem lookup_of_length_one {name n : String}
    (hlen : sources.entries.length = 1) (hname : sources.lookup name ≠ none) (hne : n ≠ name) :
    sources.lookup n = none := by
  have hkeys : sources.keys.length = 1 := (List.length_map _).trans hlen
  obtain ⟨a, ha⟩ := List.length_eq_one_iff.mp hkeys
  have hmem (x : String) : x ∈ sources ↔ x = a := by
    rw [AList.mem_keys, ha, List.mem_singleton]
  have hname' : name = a := (hmem name).mp (not_not.mp fun h => hname (AList.lookup_eq_none.mpr h))
  apply AList.lookup_eq_none.mpr
  intro hn
  exact hne (((hmem n).mp hn).trans hname'.symm)

theorem owned_dropSource (hkey : l.owned key ≠ none) : (l.dropSource key).owned k =
    if k = key then none else l.owned k := by
  obtain ⟨uid, name⟩ := key
  obtain ⟨u, n⟩ := k
  rw [owned_eq_user] at hkey
  simp only [SourceHintKey.mk.injEq]
  by_cases hu : u = uid
  swap
  · rw [if_neg fun h => hu h.1, dropSource]
    split
    · unfold owned
      rw [lookup_erase_eq, if_neg hu]
    · rw [owned_insert, if_neg hu]
  subst hu
  rw [dropSource]
  split
  · rename_i hlen
    have hera : { l with sources := l.sources.erase u }.owned ⟨u, n⟩ = none := by
      rw [owned, AList.lookup_erase, bind_none]
    rw [hera]
    by_cases hn : n = name
    · rw [if_pos ⟨rfl, hn⟩]
    rw [if_neg fun h => hn h.2, owned_eq_user]
    exact (lookup_of_length_one hlen hkey hn).symm
  · rw [owned_insert, lookup_erase_eq]
    simp [owned_eq_user]

theorem user_of_lookup (huser : l.sources.lookup key.uid = some sources) :
    l.user key.uid = sources ∧ l.owned key = sources.lookup key.name := by
  rw [owned_eq_user, user, huser]
  exact ⟨rfl, rfl⟩

theorem user_of_absent (huser : l.sources.lookup key.uid = none) :
    l.user key.uid = ∅ ∧ l.owned key = none := by
  rw [owned_eq_user, user, huser]
  exact ⟨rfl, rfl⟩

theorem storeLegacySource_eq : l.storeLegacySource key nid =
    ((decide (l.owned key ≠ some l.id ∧ nid = l.id), decide (l.owned key = some l.id ∧ nid ≠ l.id)),
      if l.owned key = some nid then l else l.setSource key nid) := by
  unfold storeLegacySource setSource
  cases huser : l.sources.lookup key.uid with
  | none =>
    obtain ⟨hem, howne⟩ := user_of_absent huser
    rw [hem, howne]
    simp [eq_comm]
  | some sources =>
    obtain ⟨hsou, howne⟩ := user_of_lookup huser
    rw [hsou, howne]
    simp only
    cases hold : sources.lookup key.name with
    | none => simp [eq_comm]
    | some oldNID =>
      simp only [some.injEq]
      by_cases hsame : oldNID = nid
      · subst hsame
        simp
      rw [if_neg hsame, if_neg hsame]
      by_cases hown : l.id = oldNID
      · subst hown
        simp [Ne.symm hsame]
      by_cases hnew : l.id = nid
      · subst hnew
        simp [hown, hsame]
      · simp [hown, hnew, Ne.symm hown, Ne.symm hnew]

theorem deleteLegacySource_eq : l.deleteLegacySource key nid =
    (decide (l.owned key = some nid ∧ nid = l.id),
      if l.owned key = some nid then l.dropSource key else l) := by
  unfold deleteLegacySource dropSource
  cases huser : l.sources.lookup key.uid with
  | none =>
    obtain ⟨-, hown⟩ := user_of_absent huser
    rw [hown]
    simp
  | some sources =>
    obtain ⟨hsou, hown⟩ := user_of_lookup huser
    rw [hsou, hown]
    simp only
    cases hold : sources.lookup key.name with
    | none => simp
    | some oldNID =>
      by_cases hsame : oldNID = nid
      · subst hsame
        simp
      · simp [hsame]

theorem owned_storeLegacySource : (l.storeLegacySource key nid).2.owned k =
    if k = key then some nid else l.owned k := by
  rw [storeLegacySource_eq]
  split
  · rename_i hsame
    by_cases hk : k = key
    · rw [if_pos hk, hk, hsame]
    · rw [if_neg hk]
  · exact owned_setSource

theorem owned_deleteLegacySource : (l.deleteLegacySource key nid).2.owned k =
    if k = key ∧ l.owned key = some nid then none else l.owned k := by
  rw [deleteLegacySource_eq]
  split
  · rename_i hheld
    rw [owned_dropSource (by rw [hheld]; exact some_ne_none nid)]
    simp [hheld]
  rename_i hoth
  rw [if_neg fun h => hoth h.2]

theorem id_storeLegacySource : (l.storeLegacySource key nid).2.id = l.id := by
  rw [storeLegacySource_eq]
  split <;> rfl

theorem hints_storeLegacySource : (l.storeLegacySource key nid).2.hints = l.hints := by
  rw [storeLegacySource_eq]
  split <;> rfl

theorem id_deleteLegacySource : (l.deleteLegacySource key nid).2.id = l.id := by
  rw [deleteLegacySource_eq]
  split <;> rfl

theorem hints_deleteLegacySource : (l.deleteLegacySource key nid).2.hints = l.hints := by
  rw [deleteLegacySource_eq]
  split <;> rfl

section Session

variable {uid : Int64} {hints : Hints}

theorem locateNode_result : (l.locateNode key).1 =
    if l.hasLocator = false then .noLocator
    else
      match l.cached key with
      | some nid => .cached nid
      | none => .asked := by
  unfold locateNode doLoadSource cached
  split
  · rfl
  cases hmode : l.hints with
  | none =>
    cases l.owned key <;> rfl
  | some hints =>
    simp only [Hints.load_result]
    cases hints.get key <;> rfl

theorem guard_invalidate (hgate : l.isGate = true) (huid : 0 < uid) :
    ¬ (uid ≤ 0 ∨ l.isGate = false) := by
  rintro (hle | hnode)
  · exact Int64.not_le.mpr huid hle
  · rw [hgate] at hnode
    cases hnode

theorem cached_invalidate_hints (hmode : l.hints = some hints) (hgate : l.isGate = true)
    (huid : 0 < uid) : (l.invalidateSessionSourceHints uid).cached k =
      if k = ⟨uid, "game"⟩ then none else l.cached k := by
  rw [invalidateSessionSourceHints, if_neg (guard_invalidate hgate huid)]
  simp only [cached, setHints, hmode]
  by_cases hk : k = ⟨uid, "game"⟩
  · rw [if_pos hk, hk, Hints.get_invalidate_self]
  · rw [if_neg hk, Hints.get_invalidate_of_ne hk]

theorem cached_invalidate_legacy (hmode : l.hints = none) (hgate : l.isGate = true)
    (huid : 0 < uid) : (l.invalidateSessionSourceHints uid).cached k =
      if k.uid = uid then none else l.cached k := by
  rw [invalidateSessionSourceHints, if_neg (guard_invalidate hgate huid)]
  simp only [cached, hmode, owned, lookup_erase_eq]
  split <;> rfl

theorem hasLocator_invalidate : (l.invalidateSessionSourceHints uid).hasLocator = l.hasLocator := by
  unfold invalidateSessionSourceHints
  split
  · rfl
  · split <;> rfl

theorem locateNode_asks_iff (l : NodeSources) (key : SourceHintKey) : (l.locateNode key).1 =
    (if l.hasLocator then Lookup.asked else Lookup.noLocator) ↔
      (l.hasLocator = true → l.cached key = none) := by
  rw [locateNode_result]
  cases l.hasLocator with
  | false => exact iff_of_true rfl fun h => by cases h
  | true =>
    cases hcch : l.cached key with
    | none => exact iff_of_true rfl fun _ => rfl
    | some nid => exact iff_of_false (fun h => by cases h) (fun h => by cases h rfl)

/-- After a new session on a gate the next look-up asks the locator, and the hints of other users
are as before, except in hint mode for a hint of another group than "game": only that group is
invalidated. -/
theorem newSession_asks_locator_iff (l : NodeSources) (hgate : l.isGate = true) (uid : Int64)
    (huid : 0 < uid) (group : String) :
    (((l.invalidateSessionSourceHints uid).locateNode ⟨uid, group⟩).1 =
        (if l.hasLocator then Lookup.asked else Lookup.noLocator) ∧
      ∀ k : SourceHintKey, k.uid ≠ uid →
        (l.invalidateSessionSourceHints uid).cached k = l.cached k) ↔
      ¬ (l.hasLocator = true ∧ l.hints.isSome = true ∧ group ≠ "game" ∧
        l.cached ⟨uid, group⟩ ≠ none) := by
  have hasks := locateNode_asks_iff (l.invalidateSessionSourceHints uid) ⟨uid, group⟩
  rw [hasLocator_invalidate] at hasks
  rw [hasks]
  cases hmode : l.hints with
  | none =>
    have hcch (k : SourceHintKey) := cached_invalidate_legacy (k := k) hmode hgate huid
    refine iff_of_true ⟨?_, ?_⟩ ?_
    · intro _
      rw [hcch, if_pos rfl]
    · intro k hk
      rw [hcch, if_neg hk]
    · rintro ⟨-, hsome, -⟩
      cases hsome
  | some hints =>
    have hcch (k : SourceHintKey) := cached_invalidate_hints (k := k) hmode hgate huid
    have hoths : ∀ k : SourceHintKey, k.uid ≠ uid →
        (l.invalidateSessionSourceHints uid).cached k = l.cached k := by
      intro k hk
      rw [hcch, if_neg]
      rintro rfl
      exact hk rfl
    rw [and_iff_left hoths, hcch]
    simp only [SourceHintKey.mk.injEq, true_and, isSome_some]
    constructor
    · rintro hasks ⟨hloc, hgro, hkept⟩
      have hnone := hasks hloc
      rw [if_neg hgro] at hnone
      exact hkept hnone
    · intro hnot hloc
      by_cases hgro : group = "game"
      · rw [if_pos hgro]
      rw [if_neg hgro]
      exact not_not.mp fun hkept => hnot ⟨hloc, hgro, hkept⟩

def chatGate : NodeSources :=
  ⟨"gate-1", true, true, some ((Hints.new 4 (by decide)).store ⟨7, "chat"⟩ "chat-1"), ∅⟩

theorem newSession_keeps_chat_hint :
    ((chatGate.invalidateSessionSourceHints 7).locateNode ⟨7, "chat"⟩).1 = .cached "chat-1" := by
  decide

theorem newSession_asks_locator_game : chatGate.isGate = true ∧ (0 : Int64) < 7 ∧
    ((chatGate.invalidateSessionSourceHints 7).locateNode ⟨7, "game"⟩).1 = .asked := by
  refine ⟨rfl, by decide, ?_⟩
  exact ((newSession_asks_locator_iff chatGate rfl 7 (by decide) "game").mpr
    fun h => h.2.2.1 rfl).1

end Session

end NodeSources

end DueServer.Link
