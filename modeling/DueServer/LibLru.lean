import Mathlib.Data.List.AList

/-! A bounded map that forgets the least recently used entry, and a guard for values that were
looked up elsewhere: such a value is only written if nothing was written in between. -/
namespace DueServer.Lib

open List

variable {κ ν : Type} [DecidableEq κ]

theorem lookup_insert_eq (m : AList fun _ : κ => ν) (a a' : κ) (b : ν) :
    (m.insert a b).lookup a' = if a' = a then some b else m.lookup a' := by
  by_cases h : a' = a
  · rw [if_pos h, h, AList.lookup_insert]
  · rw [if_neg h, AList.lookup_insert_ne h]

theorem lookup_erase_eq (m : AList fun _ : κ => ν) (a a' : κ) :
    (m.erase a).lookup a' = if a' = a then none else m.lookup a' := by
  by_cases h : a' = a
  · rw [if_pos h, h, AList.lookup_erase]
  · rw [if_neg h, AList.lookup_erase_ne h]

def without (k : κ) (entries : List (κ × ν)) : List (κ × ν) := entries.filter fun e => e.1 ≠ k

variable {k : κ} {entries : List (κ × ν)}

theorem mem_without {e : κ × ν} : e ∈ without k entries ↔ e ∈ entries ∧ e.1 ≠ k := by
  simp [without]

theorem without_of_absent (h : k ∉ entries.map Prod.fst) : without k entries = entries := by
  apply filter_eq_self.mpr
  intro e he
  have hne : e.1 ≠ k := fun hk => h (mem_map.mpr ⟨e, he, hk⟩)
  exact decide_eq_true hne

theorem absent_without (k : κ) (entries : List (κ × ν)) : k ∉ (without k entries).map Prod.fst := by
  intro h
  obtain ⟨e, he, hk⟩ := mem_map.mp h
  exact (mem_without.mp he).2 hk

theorem nodup_without (h : (entries.map Prod.fst).Nodup) (k : κ) :
    ((without k entries).map Prod.fst).Nodup :=
  h.sublist (filter_sublist.map _)

theorem length_without_lt (h : k ∈ entries.map Prod.fst) :
    (without k entries).length < entries.length := by
  obtain ⟨e, he, hk⟩ := mem_map.mp h
  exact length_filter_lt_length_iff_exists.mpr ⟨e, he, by simp [hk]⟩

structure Lru (κ ν : Type) where
  capacity : ℕ
  entries : List (κ × ν)
  pos : 0 < capacity
  nodup : (entries.map Prod.fst).Nodup
  bounded : entries.length ≤ capacity

namespace Lru

def empty (capacity : ℕ) (h : 0 < capacity) : Lru κ ν :=
  ⟨capacity, [], h, nodup_nil, Nat.zero_le _⟩

variable (c : Lru κ ν)

def lookup (k : κ) : Option ν := (c.entries.find? fun e => e.1 = k).map Prod.snd

def put (k : κ) (v : ν) : Lru κ ν :=
  if hk : k ∈ c.entries.map Prod.fst then
    { c with
      entries := (k, v) :: without k c.entries
      nodup := nodup_cons.mpr ⟨absent_without k _, nodup_without c.nodup k⟩
      bounded := Nat.lt_of_lt_of_le (length_without_lt hk) c.bounded }
  else if hfull : c.entries.length = c.capacity then
    { c with
      entries := (k, v) :: c.entries.dropLast
      nodup := by
        rw [map_cons, nodup_cons, map_dropLast]
        exact ⟨fun h => hk (dropLast_subset _ h), c.nodup.sublist (dropLast_sublist _)⟩
      bounded := by
        have hpos := c.pos
        rw [length_cons, length_dropLast]
        omega }
  else
    { c with
      entries := (k, v) :: c.entries
      nodup := nodup_cons.mpr ⟨hk, c.nodup⟩
      bounded := by
        have hle := c.bounded
        rw [length_cons]
        omega }

def touch (k : κ) : Lru κ ν :=
  match c.lookup k with
  | none => c
  | some v => c.put k v

def remove (k : κ) : Lru κ ν :=
  { c with
    entries := without k c.entries
    nodup := nodup_without c.nodup k
    bounded := Nat.le_trans (length_filter_le _ _) c.bounded }

variable {c}

omit [DecidableEq κ] in
theorem ext' {c c' : Lru κ ν} (hcap : c.capacity = c'.capacity) (h : c.entries = c'.entries) :
    c = c' := by
  cases c
  cases hcap
  cases h
  rfl

variable {k k' : κ} {v : ν}

@[simp] theorem capacity_put : (c.put k v).capacity = c.capacity := by
  unfold put
  split
  · rfl
  · split <;> rfl

@[simp] theorem capacity_touch : (c.touch k).capacity = c.capacity := by
  unfold touch
  split
  · rfl
  · exact capacity_put

theorem put_of_mem (h : k ∈ c.entries.map Prod.fst) :
    (c.put k v).entries = (k, v) :: without k c.entries := by
  rw [put, dif_pos h]

theorem put_of_full (h : k ∉ c.entries.map Prod.fst) (hfull : c.entries.length = c.capacity) :
    (c.put k v).entries = (k, v) :: c.entries.dropLast := by
  rw [put, dif_neg h, dif_pos hfull]

theorem put_of_room (h : k ∉ c.entries.map Prod.fst)
    (hroom : c.entries.length ≠ c.capacity) : (c.put k v).entries = (k, v) :: c.entries := by
  rw [put, dif_neg h, dif_neg hroom]

theorem lookup_eq_some : c.lookup k = some v ↔ (k, v) ∈ c.entries := by
  unfold lookup
  constructor
  · intro h
    obtain ⟨e, he, hv⟩ := Option.map_eq_some_iff.mp h
    have hk : e.1 = k := by simpa using find?_some he
    rw [← hk, ← hv]
    exact mem_of_find?_eq_some he
  · intro h
    cases hfind : c.entries.find? fun e => e.1 = k with
    | none =>
      have hne := find?_eq_none.mp hfind (k, v) h
      exact absurd (decide_eq_true rfl) hne
    | some e =>
      have hk : e.1 = k := by simpa using find?_some hfind
      have hmem := mem_of_find?_eq_some hfind
      -- two entries of one key are the same entry
      have heq : e = (k, v) := inj_on_of_nodup_map c.nodup hmem h hk
      rw [heq]
      rfl

theorem lookup_eq_none : c.lookup k = none ↔ k ∉ c.entries.map Prod.fst := by
  rw [Option.eq_none_iff_forall_not_mem]
  constructor
  · intro h hk
    obtain ⟨e, he, rfl⟩ := mem_map.mp hk
    exact h e.2 (lookup_eq_some.mpr he)
  · intro h v hv
    exact h (mem_map.mpr ⟨(k, v), lookup_eq_some.mp hv, rfl⟩)

theorem mem_of_mem_put {e : κ × ν} (h : e ∈ (c.put k v).entries) : e = (k, v) ∨ e ∈ c.entries := by
  unfold put at h
  split at h
  · exact (mem_cons.mp h).imp_right fun he => (mem_without.mp he).1
  split at h
  · exact (mem_cons.mp h).imp_right fun he => dropLast_subset _ he
  · exact mem_cons.mp h

theorem lookup_of_lookup_put {v' : ν} (h : (c.put k v).lookup k' = some v') :
    (k' = k ∧ v' = v) ∨ c.lookup k' = some v' := by
  rcases mem_of_mem_put (lookup_eq_some.mp h) with heq | hmem
  · exact .inl (Prod.mk.inj heq)
  · exact .inr (lookup_eq_some.mpr hmem)

theorem lookup_touch : (c.touch k).lookup k' = c.lookup k' := by
  unfold touch
  split
  · rfl
  rename_i v hhit
  apply Option.ext
  intro v'
  constructor
  · intro h
    rcases lookup_of_lookup_put h with ⟨rfl, rfl⟩ | h
    · exact hhit
    · exact h
  · intro h
    have hk : k ∈ c.entries.map Prod.fst := mem_map.mpr ⟨_, lookup_eq_some.mp hhit, rfl⟩
    apply lookup_eq_some.mpr
    rw [put_of_mem hk]
    by_cases hne : k' = k
    · subst hne
      rw [hhit] at h
      cases h
      exact mem_cons_self
    · exact mem_cons_of_mem _ (mem_without.mpr ⟨lookup_eq_some.mp h, hne⟩)

theorem lookup_remove_self : (c.remove k).lookup k = none :=
  lookup_eq_none.mpr (absent_without k _)

theorem lookup_remove_of_ne (hne : k' ≠ k) : (c.remove k).lookup k' = c.lookup k' := by
  apply Option.ext
  intro v
  constructor
  · intro h
    exact lookup_eq_some.mpr (mem_without.mp (lookup_eq_some.mp h)).1
  · intro h
    exact lookup_eq_some.mpr (mem_without.mpr ⟨lookup_eq_some.mp h, hne⟩)

end Lru

/-- A map whose `fill` names an earlier load. `since` decides from the number of writes at that
load and now whether the value may still be written. -/
structure Guarded (κ ν : Type) where
  cache : Lru κ ν
  /-- stores and removals so far -/
  writes : ℕ
  /-- the writes before each load -/
  loads : List ℕ

namespace Guarded

variable (since : ℕ → ℕ → Bool) (g : Guarded κ ν)

def load (k : κ) : Option ν × Guarded κ ν :=
  (g.cache.lookup k, { g with cache := g.cache.touch k, loads := g.loads ++ [g.writes] })

def write (k : κ) (v : Option ν) : Guarded κ ν :=
  match v with
  | none => g
  | some v => { g with cache := g.cache.put k v }

def store (k : κ) (v : Option ν) : Guarded κ ν := { g with writes := g.writes + 1 }.write k v

def fill (k : κ) (v : Option ν) (l : ℕ) : Guarded κ ν :=
  match g.loads[l]? with
  | none => g
  | some w => if since w g.writes then g.write k v else g

def invalidate (k : κ) : Guarded κ ν :=
  { g with writes := g.writes + 1, cache := g.cache.remove k }

def count : ℕ := g.cache.entries.length

end Guarded

end DueServer.Lib
