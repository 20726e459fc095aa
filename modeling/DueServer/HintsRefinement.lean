import Mathlib.Algebra.Group.Nat.Defs
import DueServer.HintsModel
import DueServer.LibTransition

/-! `sourceHints` against a least-recently-used map with guarded fills. The revision is a `uint64`,
so the guard compares the numbers of writes modulo `2 ^ 64`. -/
namespace DueServer.Link

open Lib List UInt64

namespace SourceHints

variable {h : SourceHints} {key : SourceHintKey} {node : String} {e : Element}

/-! What the list operations do to an element of the list. -/

theorem Linked.deref (hl : h.Linked) (he : e ∈ h.order) :
    Element.deref h.order e.addr = some e.value := by
  rw [Element.deref, hl.find he]
  rfl

theorem Linked.moveToFront (hl : h.Linked) (he : e ∈ h.order) :
    Element.moveToFront h.order e.addr = e :: Element.remove h.order e.addr := by
  unfold Element.moveToFront
  rw [hl.find he]
  rfl

theorem Linked.moveToFront_setValue (hl : h.Linked) (he : e ∈ h.order) (value : SourceHint) :
    Element.moveToFront (Element.setValue h.order e.addr value) e.addr =
      ⟨e.addr, value⟩ :: Element.remove h.order e.addr := by
  -- no address changes, so the same elements are found and kept
  have haddr (p : ℕ → Bool) : ((fun x : Element => p x.addr) ∘ fun x : Element =>
      if x.addr = e.addr then { x with value := value } else x) = fun x => p x.addr := by
    funext x
    apply congrArg p
    dsimp only
    split <;> rfl
  have hfind : ((Element.setValue h.order e.addr value).find? fun x => x.addr = e.addr) =
      some ⟨e.addr, value⟩ := by
    rw [Element.setValue, find?_map, haddr fun a => a = e.addr, hl.find he, Option.map_some,
      if_pos rfl]
  have hrest : ((Element.setValue h.order e.addr value).filter fun y => y.addr ≠ e.addr) =
      Element.remove h.order e.addr := by
    rw [Element.setValue, filter_map, haddr fun a => a ≠ e.addr]
    calc
      _ = (h.order.filter fun y => y.addr ≠ e.addr).map id := by
        apply map_congr_left
        intro x hx
        exact if_neg (by simpa using (mem_filter.mp hx).2)
      _ = _ := map_id _
  unfold Element.moveToFront
  rw [hfind]
  exact congrArg _ hrest

theorem mem_remove {order : List Element} {addr : ℕ} {x : Element} :
    x ∈ Element.remove order addr ↔ x ∈ order ∧ x.addr ≠ addr := by
  simp [Element.remove]

theorem Linked.length_remove_lt (he : e ∈ h.order) :
    (Element.remove h.order e.addr).length < h.order.length :=
  length_filter_lt_length_iff_exists.mpr ⟨e, he, by simp⟩

theorem Linked.keys_remove (hl : h.Linked) (he : e ∈ h.order) :
    ((Element.remove h.order e.addr).map fun e => e.value.key) =
      (h.order.map fun e => e.value.key).erase e.value.key := by
  rw [hl.nodup.erase_eq_filter, filter_map]
  apply congrArg
  apply filter_congr
  intro x hx
  have hiff := not_congr (hl.addr_eq_iff he hx)
  rw [Bool.eq_iff_iff]
  simpa using hiff

/-! Every operation keeps the map and the list linked. -/

theorem Linked.setRevision (hl : h.Linked) (revision : UInt64) :
    { h with revision := revision }.Linked := ⟨hl.1, hl.2, hl.3, hl.4, hl.5, hl.6, hl.7⟩

theorem Linked.refront (hl : h.Linked) (he : e ∈ h.order) (hnode : node ≠ "") :
    { h with order := ⟨e.addr, ⟨e.value.key, node⟩⟩ :: Element.remove h.order e.addr }.Linked where
  pos := hl.pos
  lookup := by
    intro x hx
    rcases mem_cons.mp hx with rfl | hx
    · exact hl.lookup e he
    · exact hl.lookup x (mem_remove.mp hx).1
  keys := by
    have hmem : e.value.key ∈ h.order.map fun e => e.value.key := mem_map.mpr ⟨e, he, rfl⟩
    simp only [map_cons, hl.keys_remove he]
    exact hl.keys.trans (perm_cons_erase hmem)
  addrs := by
    simp only [map_cons, nodup_cons]
    refine ⟨?_, hl.addrs.sublist (filter_sublist.map _)⟩
    intro hmem
    obtain ⟨x, hx, haddr⟩ := mem_map.mp hmem
    exact (mem_remove.mp hx).2 haddr
  fresh := by
    intro x hx
    rcases mem_cons.mp hx with rfl | hx
    · exact hl.fresh e he
    · exact hl.fresh x (mem_remove.mp hx).1
  bounded := Nat.lt_of_lt_of_le (length_remove_lt he) hl.bounded
  node := by
    intro x hx
    rcases mem_cons.mp hx with rfl | hx
    · exact hnode
    · exact hl.node x (mem_remove.mp hx).1

theorem Linked.erase (hl : h.Linked) (he : e ∈ h.order) :
    { h with
      entries := h.entries.erase e.value.key
      order := Element.remove h.order e.addr }.Linked where
  pos := hl.pos
  lookup := by
    intro x hx
    obtain ⟨hx, haddr⟩ := mem_remove.mp hx
    have hne : x.value.key ≠ e.value.key := fun hk => haddr ((hl.addr_eq_iff he hx).mpr hk)
    exact (AList.lookup_erase_ne hne).trans (hl.lookup x hx)
  keys := by
    simp only [AList.keys_erase, hl.keys_remove he]
    exact hl.keys.erase _
  addrs := hl.addrs.sublist (filter_sublist.map _)
  fresh := fun x hx => hl.fresh x (mem_remove.mp hx).1
  bounded := Nat.le_trans (Nat.le_of_lt (length_remove_lt he)) hl.bounded
  node := fun x hx => hl.node x (mem_remove.mp hx).1

theorem Linked.pushFront (hl : h.Linked) (hroom : h.order.length < h.capacity)
    (habs : key ∉ h.order.map fun e => e.value.key) (hnode : node ≠ "") :
    (h.pushFront ⟨key, node⟩).Linked where
  pos := hl.pos
  lookup := by
    intro x hx
    rcases mem_cons.mp hx with rfl | hx
    · exact AList.lookup_insert _
    have hne : x.value.key ≠ key := fun hk => habs (mem_map.mpr ⟨x, hx, hk⟩)
    exact (AList.lookup_insert_ne hne).trans (hl.lookup x hx)
  keys := by
    have hkey : key ∉ h.entries.keys := fun hk => habs (hl.keys.subset hk)
    simp only [SourceHints.pushFront, AList.keys_insert, erase_of_not_mem hkey]
    exact hl.keys.cons key
  addrs := by
    simp only [SourceHints.pushFront, map_cons, nodup_cons]
    refine ⟨?_, hl.addrs⟩
    intro hmem
    obtain ⟨x, hx, haddr⟩ := mem_map.mp hmem
    exact Nat.ne_of_lt (hl.fresh x hx) haddr
  fresh := by
    intro x hx
    rcases mem_cons.mp hx with rfl | hx
    · exact Nat.lt_succ_self _
    · exact Nat.lt_succ_of_lt (hl.fresh x hx)
  bounded := hroom
  node := by
    intro x hx
    rcases mem_cons.mp hx with rfl | hx
    · exact hnode
    · exact hl.node x hx

theorem Linked.evict (hl : h.Linked) (hfull : h.order.length = h.capacity) :
    h.evict.Linked ∧ h.evict.listed = h.listed.dropLast ∧ h.evict.capacity = h.capacity ∧
      h.evict.order.length < h.capacity ∧ ∀ e ∈ h.evict.order, e ∈ h.order := by
  have hne : h.order ≠ [] := by
    intro hnil
    have hpos := hl.pos
    rw [← hfull, hnil] at hpos
    exact absurd hpos (Nat.lt_irrefl 0)
  have hlast := getLast_mem hne
  have hsp := dropLast_append_getLast hne
  have hrem : Element.remove h.order (h.order.getLast hne).addr = h.order.dropLast := by
    -- no other element has the address of the last one
    have hnd := hl.addrs
    rw [← hsp, map_append] at hnd
    have hdis := disjoint_of_nodup_append hnd
    have hkeep : h.order.dropLast.filter (fun y => y.addr ≠ (h.order.getLast hne).addr) =
        h.order.dropLast := by
      apply filter_eq_self.mpr
      intro x hx
      refine decide_eq_true fun haddr => ?_
      exact hdis (mem_map.mpr ⟨x, hx, haddr⟩) (mem_singleton_self _)
    have hdrop : [h.order.getLast hne].filter (fun y => y.addr ≠ (h.order.getLast hne).addr) =
        [] := by
      simp
    have hfil : (h.order.dropLast ++ [h.order.getLast hne]).filter
        (fun y => y.addr ≠ (h.order.getLast hne).addr) = h.order.dropLast := by
      rw [filter_append, hkeep, hdrop, append_nil]
    rw [hsp] at hfil
    exact hfil
  have hevi : h.evict = { h with
      entries := h.entries.erase (h.order.getLast hne).value.key
      order := Element.remove h.order (h.order.getLast hne).addr } := by
    rw [SourceHints.evict, getLast?_eq_getLast_of_ne_nil hne]
  rw [hevi]
  refine ⟨hl.erase hlast, ?_, rfl, ?_, fun x hx => (mem_remove.mp hx).1⟩
  · simp [listed, hrem]
  · exact hfull ▸ length_remove_lt hlast

def lru (h : SourceHints) (hl : h.Linked) : Lru SourceHintKey String where
  capacity := h.capacity
  entries := h.listed
  pos := hl.pos
  nodup := listed_keys ▸ hl.nodup
  bounded := by
    rw [listed, length_map]
    exact hl.bounded

section

variable (hl : h.Linked)

include hl

theorem lru_lookup (he : e ∈ h.order) : (h.lru hl).lookup e.value.key = some e.value.node :=
  Lru.lookup_eq_some.mpr (mem_map.mpr ⟨e, he, rfl⟩)

theorem lru_absent (hfind : h.entries.lookup key = none) :
    key ∉ (h.lru hl).entries.map Prod.fst := by
  have habs := hl.absent hfind
  rw [← listed_keys] at habs
  exact habs

theorem lru_present (he : e ∈ h.order) : e.value.key ∈ (h.lru hl).entries.map Prod.fst :=
  mem_map.mpr ⟨(e.value.key, e.value.node), mem_map.mpr ⟨e, he, rfl⟩, rfl⟩

theorem listed_refront (he : e ∈ h.order) :
    { h with order := ⟨e.addr, ⟨e.value.key, node⟩⟩ :: Element.remove h.order e.addr }.listed =
      ((h.lru hl).put e.value.key node).entries := by
  rw [Lru.put_of_mem (lru_present hl he)]
  exact congrArg _ (hl.listed_remove he)

theorem load_spec (key : SourceHintKey) :
    (h.load key).1 = ((h.lru hl).lookup key, h.revision) ∧ (h.load key).2.Linked ∧
      (h.load key).2.listed = ((h.lru hl).touch key).entries ∧
      (h.load key).2.capacity = h.capacity ∧ (h.load key).2.revision = h.revision := by
  cases hfind : h.entries.lookup key with
  | none =>
    have hload : h.load key = ((none, h.revision), h) := by
      rw [load, hfind]
    have hmiss := Lru.lookup_eq_none.mpr (lru_absent hl hfind)
    rw [hload, Lru.touch, hmiss]
    exact ⟨rfl, hl, rfl, rfl, rfl⟩
  | some =>
    obtain ⟨e, he, rfl, rfl⟩ := hl.element hfind
    have hload : h.load e.value.key = ((some e.value.node, h.revision),
        { h with order := e :: Element.remove h.order e.addr }) := by
      rw [load, hfind]
      simp [hl.deref he, hl.moveToFront he]
    have hhit := lru_lookup hl he
    rw [hload, Lru.touch, hhit]
    exact ⟨rfl, hl.refront he (hl.node e he), listed_refront hl he, rfl, rfl⟩

theorem putLocked_spec (key : SourceHintKey) (hnode : node ≠ "") : (h.putLocked key node).Linked ∧
      (h.putLocked key node).listed = ((h.lru hl).put key node).entries ∧
      (h.putLocked key node).capacity = h.capacity ∧
      (h.putLocked key node).revision = h.revision := by
  unfold putLocked
  rw [if_neg hnode]
  cases hfind : h.entries.lookup key with
  | some =>
    obtain ⟨e, he, rfl, rfl⟩ := hl.element hfind
    simp only [hl.moveToFront_setValue he]
    exact ⟨hl.refront he hnode, listed_refront hl he, trivial, trivial⟩
  | none =>
    have habs := lru_absent hl hfind
    simp only [hl.length_entries]
    by_cases hfull : h.order.length = h.capacity
    · rw [if_pos hfull]
      obtain ⟨hevi, hlis, hcapa, hroom, hsub⟩ := hl.evict hfull
      have hgone : key ∉ h.evict.order.map fun e => e.value.key := by
        intro hmem
        obtain ⟨x, hx, hkey⟩ := mem_map.mp hmem
        exact hl.absent hfind (mem_map.mpr ⟨x, hsub x hx, hkey⟩)
      have hcap : (h.lru hl).entries.length = (h.lru hl).capacity := (length_map _).trans hfull
      rw [Lru.put_of_full habs hcap]
      refine ⟨hevi.pushFront (hcapa ▸ hroom) hgone hnode, ?_, hcapa, ?_⟩
      · exact congrArg _ hlis
      · unfold SourceHints.evict
        split <;> rfl
    · rw [if_neg hfull]
      have hcap : (h.lru hl).entries.length ≠ (h.lru hl).capacity := by
        intro hlen
        exact hfull ((length_map _).symm.trans hlen)
      rw [Lru.put_of_room habs hcap]
      have hroom : h.order.length < h.capacity := Nat.lt_of_le_of_ne hl.bounded hfull
      exact ⟨hl.pushFront hroom (hl.absent hfind) hnode, rfl, rfl, rfl⟩

theorem invalidate_spec (key : SourceHintKey) :
    (h.invalidate key).Linked ∧ (h.invalidate key).listed = ((h.lru hl).remove key).entries ∧
      (h.invalidate key).capacity = h.capacity ∧
      (h.invalidate key).revision = h.revision + 1 := by
  unfold invalidate
  cases hfind : h.entries.lookup key with
  | none =>
    refine ⟨hl.setRevision _, ?_, rfl, rfl⟩
    exact (without_of_absent (lru_absent hl hfind)).symm
  | some =>
    obtain ⟨e, he, rfl, rfl⟩ := hl.element hfind
    exact ⟨(hl.erase he).setRevision _, hl.listed_remove he, rfl, rfl⟩

end

end SourceHints

inductive HintOp where
  | load (key : SourceHintKey)
  | store (key : SourceHintKey) (node : String)
  | fill (key : SourceHintKey) (node : String) (l : ℕ)
  | invalidate (key : SourceHintKey)
  | count
deriving DecidableEq

inductive HintResult where
  | loaded (node : Option String)
  | done
  | counted (n : ℕ)
deriving DecidableEq

def HintOp.isWrite : HintOp → Bool
  | .store .. | .invalidate _ => true
  | _ => false

structure HintCalls where
  hints : SourceHints
  returned : List UInt64

def HintCalls.step (s : HintCalls) : HintOp → HintResult × HintCalls
  | .load key =>
    (.loaded (s.hints.load key).1.1,
      ⟨(s.hints.load key).2, s.returned ++ [(s.hints.load key).1.2]⟩)
  | .store key node => (.done, { s with hints := s.hints.store key node })
  | .fill key node l =>
    match s.returned[l]? with
    | none => (.done, s)
    | some revision => (.done, { s with hints := s.hints.fill key node revision })
  | .invalidate key => (.done, { s with hints := s.hints.invalidate key })
  | .count => (.counted s.hints.count, s)

def written (node : String) : Option String := if node = "" then none else some node

def cacheStep (since : ℕ → ℕ → Bool) (g : Guarded SourceHintKey String) :
    HintOp → HintResult × Guarded SourceHintKey String
  | .load key => (.loaded (g.load key).1, (g.load key).2)
  | .store key node => (.done, g.store key (written node))
  | .fill key node l => (.done, g.fill since key (written node) l)
  | .invalidate key => (.done, g.invalidate key)
  | .count => (.counted g.count, g)

def unwritten (w writes : ℕ) : Bool := w = writes

def unwrittenMod (w writes : ℕ) : Bool := UInt64.ofNat w = UInt64.ofNat writes

def emptyCache (capacity : ℕ) (hpos : 0 < capacity) : Guarded SourceHintKey String :=
  ⟨.empty capacity hpos, 0, []⟩

structure Refines (s : HintCalls) (g : Guarded SourceHintKey String) : Prop where
  linked : s.hints.Linked
  cache : g.cache = s.hints.lru linked
  revision : s.hints.revision = UInt64.ofNat g.writes
  returned : s.returned = g.loads.map UInt64.ofNat

namespace Refines

variable {s : HintCalls} {g : Guarded SourceHintKey String}

theorem mk' {h : SourceHints} {c : Lru SourceHintKey String} {returned : List UInt64}
    {w : ℕ} {loads : List ℕ} (hl : h.Linked) (hlis : h.listed = c.entries)
    (hcap : h.capacity = c.capacity) (hrev : h.revision = ofNat w)
    (hret : returned = loads.map ofNat) : Refines ⟨h, returned⟩ ⟨c, w, loads⟩ :=
  ⟨hl, Lru.ext' hcap.symm hlis.symm, hrev, hret⟩

section

variable (r : Refines s g)

include r

theorem load (key : SourceHintKey) :
    (s.step (.load key)).1 = (cacheStep unwrittenMod g (.load key)).1 ∧
      Refines (s.step (.load key)).2 (cacheStep unwrittenMod g (.load key)).2 := by
  obtain ⟨hres, hl, hlis, hcap, hrev⟩ := SourceHints.load_spec r.linked key
  constructor
  · simp only [HintCalls.step, cacheStep, Guarded.load, hres, r.cache]
  · refine mk' hl ?_ ?_ (hrev.trans r.revision) ?_
    · rw [hlis, r.cache]
    · rw [hcap, Lru.capacity_touch, r.cache]
      rfl
    · rw [hres, r.returned, r.revision, map_append, map_singleton]

theorem write (key : SourceHintKey) (node : String) :
    Refines { s with hints := s.hints.putLocked key node } (g.write key (written node)) := by
  by_cases hnode : node = ""
  · have hput : s.hints.putLocked key node = s.hints := by
      rw [SourceHints.putLocked, if_pos hnode]
    rw [hput, written, if_pos hnode]
    exact r
  obtain ⟨hl, hlis, hcap, hrev⟩ :=
    SourceHints.putLocked_spec r.linked key hnode
  rw [written, if_neg hnode]
  refine mk' hl ?_ ?_ (hrev.trans r.revision) r.returned
  · rw [hlis, r.cache]
  · rw [hcap, Lru.capacity_put, r.cache]
    rfl

theorem bump : Refines { s with hints := { s.hints with revision := s.hints.revision + 1 } }
      { g with writes := g.writes + 1 } := by
  refine ⟨r.linked.setRevision _, r.cache, ?_, r.returned⟩
  rw [ofNat_add, ← r.revision]
  rfl

theorem invalidate (key : SourceHintKey) :
    Refines { s with hints := s.hints.invalidate key } (g.invalidate key) := by
  obtain ⟨hl, hlis, hcap, hrev⟩ := SourceHints.invalidate_spec r.linked key
  refine mk' hl ?_ ?_ ?_ r.returned
  · rw [hlis, r.cache]
  · rw [hcap]
    exact (congrArg Lru.capacity r.cache).symm
  · rw [hrev, r.revision, ofNat_add]
    rfl

theorem fill (key : SourceHintKey) (node : String) (l : ℕ) :
    Refines (s.step (.fill key node l)).2 (g.fill unwrittenMod key (written node) l) := by
  have hret : s.returned[l]? = g.loads[l]?.map ofNat := by
    rw [r.returned, getElem?_map]
  unfold Guarded.fill
  simp only [HintCalls.step, hret]
  cases g.loads[l]? with
  | none => exact r
  | some =>
    simp only [Option.map_some, SourceHints.fill, r.revision, unwrittenMod, decide_eq_true_eq]
    split
    · exact r.write key node
    · exact r

theorem step (op : HintOp) : (s.step op).1 = (cacheStep unwrittenMod g op).1 ∧
      Refines (s.step op).2 (cacheStep unwrittenMod g op).2 := by
  cases op with
  | load key => exact r.load key
  | store key node => exact ⟨rfl, r.bump.write key node⟩
  | fill key node l =>
    refine ⟨?_, r.fill key node l⟩
    simp only [HintCalls.step]
    split <;> rfl
  | invalidate key => exact ⟨rfl, r.invalidate key⟩
  | count =>
    refine ⟨?_, r⟩
    simp only [HintCalls.step, cacheStep, SourceHints.count, Guarded.count,
      r.linked.length_entries, r.cache]
    exact congrArg _ (length_map _).symm

end

theorem new {capacity : ℕ} (hpos : 0 < capacity) :
    Refines ⟨⟨capacity, 0, ∅, [], 0⟩, []⟩ (emptyCache capacity hpos) := by
  have hl : SourceHints.Linked ⟨capacity, 0, ∅, [], 0⟩ :=
    ⟨hpos, nofun, Perm.refl _, nodup_nil, nofun, Nat.zero_le _, nofun⟩
  exact ⟨hl, rfl, rfl, rfl⟩

end Refines

section Guard

variable {g : Guarded SourceHintKey String}

theorem unwrittenMod_iff {w writes : ℕ} (hw : w ≤ writes) (hlt : writes < 2 ^ 64) :
    unwrittenMod w writes = unwritten w writes := by
  have hiff : ofNat w = ofNat writes ↔ w = writes := by
    constructor
    · intro h
      have htoN := congrArg toNat h
      rw [toNat_ofNat_of_lt' (Nat.lt_of_le_of_lt hw hlt),
        toNat_ofNat_of_lt' hlt] at htoN
      exact htoN
    · intro h
      rw [h]
  exact decide_eq_decide.mpr hiff

def LoadsLe (g : Guarded SourceHintKey String) : Prop := ∀ w ∈ g.loads, w ≤ g.writes

theorem writes_write (key : SourceHintKey) (v : Option String) :
    (g.write key v).writes = g.writes ∧ (g.write key v).loads = g.loads := by
  cases v <;> exact ⟨rfl, rfl⟩

theorem cacheStep_loadsLe (since : ℕ → ℕ → Bool) (h : LoadsLe g) (op : HintOp) :
    LoadsLe (cacheStep since g op).2 ∧
      (cacheStep since g op).2.writes = g.writes + if op.isWrite then 1 else 0 := by
  cases op with
  | load =>
    refine ⟨?_, rfl⟩
    intro w hw
    rcases mem_append.mp hw with hw | hw
    · exact h w hw
    · exact Nat.le_of_eq (mem_singleton.mp hw)
  | store key node =>
    obtain ⟨hwrs, hloa⟩ := writes_write key
      (written node)
    refine ⟨?_, hwrs⟩
    intro w hw
    simp only [cacheStep, Guarded.store, hloa] at hw
    simp only [cacheStep, Guarded.store, hwrs]
    exact Nat.le_succ_of_le (h w hw)
  | fill key node l =>
    simp only [cacheStep, Guarded.fill]
    cases g.loads[l]? with
    | none => exact ⟨h, rfl⟩
    | some w =>
      obtain ⟨hwrs, hloa⟩ := writes_write key (written node)
      simp only
      split
      · refine ⟨?_, hwrs⟩
        intro w hw
        rw [hloa] at hw
        rw [hwrs]
        exact h w hw
      · exact ⟨h, rfl⟩
  | invalidate => exact ⟨fun w hw => Nat.le_succ_of_le (h w hw), rfl⟩
  | count => exact ⟨h, rfl⟩

theorem cacheStep_mod (h : LoadsLe g) (hlt : g.writes < 2 ^ 64) (op : HintOp) :
    cacheStep unwrittenMod g op = cacheStep unwritten g op := by
  cases op with
  | fill key node l =>
    simp only [cacheStep, Guarded.fill]
    cases hload : g.loads[l]? with
    | none => rfl
    | some w =>
      simp only
      rw [unwrittenMod_iff (h w (mem_of_getElem? hload)) hlt]
  | _ => rfl

theorem capacity_write (key : SourceHintKey) (v : Option String) :
    (g.write key v).cache.capacity = g.cache.capacity := by
  cases v with
  | none => rfl
  | some => exact Lru.capacity_put

theorem cacheStep_capacity (since : ℕ → ℕ → Bool) (op : HintOp) :
    (cacheStep since g op).2.cache.capacity = g.cache.capacity := by
  cases op with
  | load => exact Lru.capacity_touch
  | store key => exact capacity_write key _
  | fill key =>
    simp only [cacheStep, Guarded.fill]
    split
    · rfl
    split
    · exact capacity_write key _
    · rfl
  | invalidate | count => rfl

/-- Below `2 ^ 64` writes the wrapping guard is the exact one. -/
theorem outputs_mod (ops : List HintOp) : ∀ {g : Guarded SourceHintKey String}, LoadsLe g →
    g.writes + ops.countP HintOp.isWrite < 2 ^ 64 →
    outputs (cacheStep unwrittenMod) g ops = outputs (cacheStep unwritten) g ops := by
  induction ops with
  | nil =>
    intro g _ _
    rfl
  | cons op ops ih =>
    intro g hloa hlt
    rw [countP_cons] at hlt
    have hstep := cacheStep_mod hloa (Nat.lt_of_le_of_lt (Nat.le_add_right ..) hlt) op
    obtain ⟨hloa', hwrs⟩ := cacheStep_loadsLe unwritten hloa op
    rw [outputs, outputs, hstep, ih hloa']
    omega

end Guard

/-- For every capacity and every sequence of calls the results are those of the abstract cache in
which a fill writes if and only if the number of stores and invalidations since its load is a
multiple of `2 ^ 64`; while less than `2 ^ 64` of them happen, if and only if there was none. The
map and the list hold the same keys, each once and at most as many as the capacity. -/
theorem sourceHints_refines_lru (capacity : ℤ) (hpos : 0 < capacity) (ops : List HintOp) :
    ∃ hints, newSourceHints capacity = some hints ∧
      outputs HintCalls.step ⟨hints, []⟩ ops =
        outputs (cacheStep unwrittenMod)
          (emptyCache capacity.toNat (Int.lt_toNat.mpr hpos)) ops ∧
      (ops.countP HintOp.isWrite < 2 ^ 64 → outputs HintCalls.step ⟨hints, []⟩ ops =
        outputs (cacheStep unwritten)
          (emptyCache capacity.toNat (Int.lt_toNat.mpr hpos)) ops) ∧
      ((after HintCalls.step ⟨hints, []⟩ ops).hints.entries.keys.Perm
        ((after HintCalls.step ⟨hints, []⟩ ops).hints.order.map fun e => e.value.key)) ∧
      ((after HintCalls.step ⟨hints, []⟩ ops).hints.order.map fun e => e.value.key).Nodup ∧
      ((after HintCalls.step ⟨hints, []⟩ ops).hints.order.length : ℤ) ≤ capacity := by
  have hcapa : 0 < capacity.toNat := Int.lt_toNat.mpr hpos
  obtain ⟨hout, haft, hcap⟩ := outputs_of_simulation
    (fun s g => Refines s g ∧ g.cache.capacity = capacity.toNat)
    (fun s g op r => ⟨(r.1.step op).1, (r.1.step op).2, (cacheStep_capacity _ op).trans r.2⟩) ops
    ⟨Refines.new hcapa, rfl⟩
  refine ⟨_, if_neg (Int.not_le.mpr hpos), hout, ?_, haft.linked.keys, haft.linked.nodup, ?_⟩
  · intro hlt
    have hloa : LoadsLe (emptyCache capacity.toNat hcapa) := fun w hw => by cases hw
    rw [hout, outputs_mod ops hloa (by rw [emptyCache, Nat.zero_add]; exact hlt)]
  · have hbou := haft.linked.bounded
    rw [haft.cache] at hcap
    have hsame : (after HintCalls.step ⟨⟨capacity.toNat, 0, ∅, [], 0⟩, []⟩ ops).hints.capacity =
        capacity.toNat := hcap
    omega

/-- The sequence of the unit test: a hit keeps the first hint, the third key replaces the second. -/
theorem sourceHints_refines_lru_two : (0 : ℤ) < 2 ∧ ∃ hints, newSourceHints 2 = some hints ∧
      outputs HintCalls.step ⟨hints, []⟩
          [.store ⟨1, "game"⟩ "a", .store ⟨2, "game"⟩ "b", .load ⟨1, "game"⟩,
            .store ⟨3, "chat"⟩ "c", .load ⟨2, "game"⟩] =
        [.done, .done, .loaded (some "a"), .done, .loaded none] := by
  obtain ⟨hints, hnew, hout, -⟩ := sourceHints_refines_lru 2 (by decide)
    [.store ⟨1, "game"⟩ "a", .store ⟨2, "game"⟩ "b", .load ⟨1, "game"⟩,
      .store ⟨3, "chat"⟩ "c", .load ⟨2, "game"⟩]
  exact ⟨by decide, hints, hnew, hout.trans (by decide)⟩

section Turn

def lateFill (n : ℕ) : List HintOp :=
  (.load ⟨1, "game"⟩ :: replicate n (.invalidate ⟨1, "game"⟩)) ++
    [.fill ⟨1, "game"⟩ "old" 0, .load ⟨1, "game"⟩]

theorem after_invalidations (n : ℕ) (returned : List UInt64) : ∀ revision : UInt64,
    after HintCalls.step ⟨⟨1, revision, ∅, [], 0⟩, returned⟩
        (replicate n (.invalidate ⟨1, "game"⟩)) =
      ⟨⟨1, revision + ofNat n, ∅, [], 0⟩, returned⟩ := by
  induction n with
  | zero =>
    intro revision
    exact congrArg (fun r => HintCalls.mk ⟨1, r, ∅, [], 0⟩ returned) (UInt64.add_zero _).symm
  | succ n ih =>
    intro revision
    refine (ih (revision + 1)).trans ?_
    rw [ofNat_add, UInt64.add_assoc, UInt64.add_comm 1]
    rfl

theorem cache_after_invalidations (n : ℕ) (loads : List ℕ) : ∀ writes : ℕ,
    after (cacheStep unwritten) ⟨.empty 1 Nat.one_pos, writes, loads⟩
        (replicate n (.invalidate ⟨1, "game"⟩)) =
      ⟨.empty 1 Nat.one_pos, writes + n, loads⟩ := by
  induction n with
  | zero =>
    intro writes
    rfl
  | succ n ih =>
    intro writes
    refine (ih (writes + 1)).trans ?_
    rw [Nat.add_right_comm]
    rfl

theorem lateFill_hit {n : ℕ} (hn : ofNat n = 0) :
    (outputs HintCalls.step ⟨⟨1, 0, ∅, [], 0⟩, []⟩ (lateFill n)).getLast? =
      some (.loaded (some "old")) := by
  have haft : after HintCalls.step ⟨⟨1, 0, ∅, [], 0⟩, []⟩
      (.load ⟨1, "game"⟩ :: replicate n (.invalidate ⟨1, "game"⟩)) =
      ⟨⟨1, 0, ∅, [], 0⟩, [0]⟩ := by
    refine (after_invalidations n [0] 0).trans ?_
    rw [hn]
    rfl
  rw [lateFill, outputs_append, haft, getLast?_append]
  rfl

theorem lateFill_miss {n : ℕ} (hn : n ≠ 0) :
    (outputs (cacheStep unwritten) (emptyCache 1 Nat.one_pos) (lateFill n)).getLast? =
      some (.loaded none) := by
  have haft : after (cacheStep unwritten) (emptyCache 1 Nat.one_pos)
      (.load ⟨1, "game"⟩ :: replicate n (.invalidate ⟨1, "game"⟩)) =
      ⟨.empty 1 Nat.one_pos, n, [0]⟩ := by
    refine (cache_after_invalidations n [0] 0).trans ?_
    rw [Nat.zero_add]
  have hgd : unwritten 0 n = false := decide_eq_false hn.symm
  have hfill : (Guarded.mk (.empty 1 Nat.one_pos) n [0]).fill unwritten
      (⟨1, "game"⟩ : SourceHintKey) (written "old") 0 = ⟨.empty 1 Nat.one_pos, n, [0]⟩ := by
    simp [Guarded.fill, hgd]
  rw [lateFill, outputs_append, haft, getLast?_append]
  simp only [outputs, cacheStep, hfill]
  rfl

/-- After `2 ^ 64` invalidations the revision is the one of the load again, and the late reply is
written. -/
theorem late_fill_after_full_turn : (∃ hints, newSourceHints 1 = some hints ∧
      (outputs HintCalls.step ⟨hints, []⟩ (lateFill (2 ^ 64))).getLast? =
        some (.loaded (some "old"))) ∧
    (outputs (cacheStep unwritten) (emptyCache 1 Nat.one_pos) (lateFill (2 ^ 64))).getLast? =
      some (.loaded none) := by
  have hturn : ofNat (2 ^ 64) = 0 := by decide
  have hne : (2 ^ 64 : ℕ) ≠ 0 := by decide
  exact ⟨⟨_, rfl, lateFill_hit hturn⟩, lateFill_miss hne⟩

end Turn

end DueServer.Link
