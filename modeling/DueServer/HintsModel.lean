import DueServer.LibLru

/-! `internal/link/source_hints.go`: the routing hints, a map into the elements of a linked list and
a revision that guards late fills. -/
namespace DueServer.Link

open List

structure SourceHintKey where
  uid : Int64
  name : String
deriving DecidableEq

structure SourceHint where
  key : SourceHintKey
  node : String
deriving DecidableEq

structure Element where
  addr : ℕ
  value : SourceHint
deriving DecidableEq

namespace Element

def deref (order : List Element) (e : ℕ) : Option SourceHint :=
  (order.find? fun x => x.addr = e).map Element.value

def moveToFront (order : List Element) (e : ℕ) : List Element :=
  match order.find? fun x => x.addr = e with
  | none => order
  | some x => x :: order.filter fun y => y.addr ≠ e

def remove (order : List Element) (e : ℕ) : List Element := order.filter fun y => y.addr ≠ e

def setValue (order : List Element) (e : ℕ) (value : SourceHint) : List Element :=
  order.map fun x => if x.addr = e then { x with value := value } else x

end Element

structure SourceHints where
  capacity : ℕ
  revision : UInt64
  entries : AList fun _ : SourceHintKey => ℕ
  /-- from front to back -/
  order : List Element
  /-- the address of the next element -/
  fresh : ℕ

def newSourceHints (capacity : ℤ) : Option SourceHints :=
  if capacity ≤ 0 then none else some ⟨capacity.toNat, 0, ∅, [], 0⟩

namespace SourceHints

variable (h : SourceHints)

def load (key : SourceHintKey) : (Option String × UInt64) × SourceHints :=
  match h.entries.lookup key with
  | some e =>
    (((Element.deref h.order e).map SourceHint.node, h.revision),
      { h with order := Element.moveToFront h.order e })
  | none => ((none, h.revision), h)

def evict : SourceHints :=
  match h.order.getLast? with
  | none => h
  | some e =>
    { h with
      entries := h.entries.erase e.value.key
      order := Element.remove h.order e.addr }

def pushFront (value : SourceHint) : SourceHints :=
  { h with
    entries := h.entries.insert value.key h.fresh
    order := ⟨h.fresh, value⟩ :: h.order
    fresh := h.fresh + 1 }

def putLocked (key : SourceHintKey) (node : String) : SourceHints :=
  if node = "" then h
  else
    match h.entries.lookup key with
    | some e => { h with order := Element.moveToFront (Element.setValue h.order e ⟨key, node⟩) e }
    | none =>
      if h.entries.entries.length = h.capacity then h.evict.pushFront ⟨key, node⟩
      else h.pushFront ⟨key, node⟩

def store (key : SourceHintKey) (node : String) : SourceHints :=
  { h with revision := h.revision + 1 }.putLocked key node

def fill (key : SourceHintKey) (node : String) (revision : UInt64) : SourceHints :=
  if revision = h.revision then h.putLocked key node else h

def invalidate (key : SourceHintKey) : SourceHints :=
  match h.entries.lookup key with
  | some e =>
    { h with
      revision := h.revision + 1
      entries := h.entries.erase key
      order := Element.remove h.order e }
  | none => { h with revision := h.revision + 1 }

def count : ℕ := h.entries.entries.length

def hint (key : SourceHintKey) : Option String :=
  (h.entries.lookup key).bind fun e => (Element.deref h.order e).map SourceHint.node

structure Linked : Prop where
  pos : 0 < h.capacity
  lookup : ∀ e ∈ h.order, h.entries.lookup e.value.key = some e.addr
  keys : h.entries.keys.Perm (h.order.map fun e => e.value.key)
  addrs : (h.order.map Element.addr).Nodup
  fresh : ∀ e ∈ h.order, e.addr < h.fresh
  bounded : h.order.length ≤ h.capacity
  node : ∀ e ∈ h.order, e.value.node ≠ ""

def listed : List (SourceHintKey × String) := h.order.map fun e => (e.value.key, e.value.node)

variable {h} {key : SourceHintKey} {node : String} {e : Element}

theorem Linked.nodup (hl : h.Linked) : (h.order.map fun e => e.value.key).Nodup :=
  hl.keys.nodup_iff.mp h.entries.keys_nodup

theorem listed_keys : h.listed.map Prod.fst = h.order.map fun e => e.value.key := by
  rw [listed, map_map]
  rfl

section

variable (hl : h.Linked)

include hl

theorem Linked.length_entries : h.entries.entries.length = h.order.length := by
  have hlen := hl.keys.length_eq
  rw [length_map] at hlen
  rw [← hlen]
  exact (length_map _).symm

theorem Linked.element {addr : ℕ} (hfind : h.entries.lookup key = some addr) :
    ∃ e ∈ h.order, e.addr = addr ∧ e.value.key = key := by
  have hkey : key ∈ h.entries.keys := AList.mem_keys.mp
    (AList.lookup_isSome.mp (by rw [hfind]; rfl))
  obtain ⟨e, he, hk⟩ := mem_map.mp (hl.keys.subset hkey)
  have haddr := hl.lookup e he
  rw [hk, hfind] at haddr
  exact ⟨e, he, (Option.some.inj haddr).symm, hk⟩

theorem Linked.absent (hfind : h.entries.lookup key = none) :
    key ∉ h.order.map fun e => e.value.key := fun hkey =>
  AList.lookup_eq_none.mp hfind (AList.mem_keys.mpr (hl.keys.symm.subset hkey))

theorem Linked.find (he : e ∈ h.order) : (h.order.find? fun x => x.addr = e.addr) = some e := by
  cases hfind : h.order.find? fun x => x.addr = e.addr with
  | none => exact absurd (decide_eq_true rfl) (find?_eq_none.mp hfind e he)
  | some x =>
    have haddr : x.addr = e.addr := by simpa using find?_some hfind
    rw [inj_on_of_nodup_map hl.addrs (mem_of_find?_eq_some hfind) he haddr]

theorem Linked.addr_eq_iff (he : e ∈ h.order) {x : Element} (hx : x ∈ h.order) :
    x.addr = e.addr ↔ x.value.key = e.value.key := by
  constructor
  · intro haddr
    rw [inj_on_of_nodup_map hl.addrs hx he haddr]
  · intro hkey
    rw [inj_on_of_nodup_map hl.nodup hx he hkey]

theorem Linked.listed_remove (he : e ∈ h.order) :
    (Element.remove h.order e.addr).map (fun e => (e.value.key, e.value.node)) =
      Lib.without e.value.key h.listed := by
  rw [listed, Lib.without, filter_map]
  apply congrArg
  apply filter_congr
  intro x hx
  exact decide_eq_decide.mpr (not_congr (hl.addr_eq_iff he hx))

end

end SourceHints

end DueServer.Link
