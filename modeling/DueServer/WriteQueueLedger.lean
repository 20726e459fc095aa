import DueServer.WriteQueueModel

/-! The bookkeeping of the budget: `reserve` and `release` against the tasks that it counts. -/
namespace DueServer.WriteQueue

open List

namespace Task

def lowBytes (t : Task) : ℤ := if t.lowPriority then t.queuedBytes else 0

def highBytes (t : Task) : ℤ := if t.lowPriority then 0 else t.queuedBytes

theorem lowBytes_add_highBytes (t : Task) : t.lowBytes + t.highBytes = t.queuedBytes := by
  rw [lowBytes, highBytes]
  split
  · exact add_zero _
  · exact zero_add _

end Task

def bytes (ts : List Task) : ℤ := (ts.map Task.queuedBytes).sum

def lowBytes (ts : List Task) : ℤ := (ts.map Task.lowBytes).sum

def highBytes (ts : List Task) : ℤ := (ts.map Task.highBytes).sum

theorem lowBytes_add_highBytes (ts : List Task) : lowBytes ts + highBytes ts = bytes ts := by
  rw [lowBytes, highBytes, bytes, ← sum_map_add]
  simp only [Task.lowBytes_add_highBytes]

theorem bytes_nonneg {ts : List Task} (h : ∀ t ∈ ts, 0 ≤ t.queuedBytes) : 0 ≤ bytes ts := by
  apply sum_nonneg
  intro x hx
  obtain ⟨t, ht, rfl⟩ := mem_map.mp hx
  exact h t ht

theorem lowBytes_nonneg {ts : List Task} (h : ∀ t ∈ ts, 0 ≤ t.queuedBytes) : 0 ≤ lowBytes ts := by
  apply sum_nonneg
  intro x hx
  obtain ⟨t, ht, rfl⟩ := mem_map.mp hx
  rw [Task.lowBytes]
  split
  · exact h t ht
  · exact le_rfl

theorem bytes_cons (t : Task) (ts : List Task) : bytes (t :: ts) = t.queuedBytes + bytes ts :=
  sum_cons

theorem lowBytes_cons (t : Task) (ts : List Task) :
    lowBytes (t :: ts) = t.lowBytes + lowBytes ts := sum_cons

structure Accounts (b : Budget) (ts : List Task) : Prop where
  reserve_nonneg : 0 ≤ b.highReserveBytes
  reserve_le : b.highReserveBytes ≤ b.maxBytes
  pos : 0 < b.maxBytes
  sizes : ∀ t ∈ ts, 0 ≤ t.queuedBytes
  queued : b.queuedBytes = bytes ts
  low : b.lowPriorityBytes = lowBytes ts
  queued_le : b.queuedBytes ≤ b.maxBytes
  low_le : b.lowPriorityBytes ≤ b.maxBytes - b.highReserveBytes

namespace Accounts

variable {b : Budget} {ts : List Task}

theorem perm {ts' : List Task} (h : Accounts b ts) (hperm : ts.Perm ts') : Accounts b ts' where
  reserve_nonneg := h.reserve_nonneg
  reserve_le := h.reserve_le
  pos := h.pos
  sizes := fun t ht => h.sizes t (hperm.mem_iff.mpr ht)
  queued := h.queued.trans (hperm.map _).sum_eq
  low := h.low.trans (hperm.map _).sum_eq
  queued_le := h.queued_le
  low_le := h.low_le

theorem new {maxBytes highReserveBytes : ℤ} (hpos : 0 < maxBytes) :
    Accounts (.newWriteQueueBudget maxBytes highReserveBytes) [] := by
  have hmax : (if maxBytes < 0 then 0 else maxBytes) = maxBytes := if_neg (not_lt.mpr hpos.le)
  constructor
  case sizes => exact fun t ht => nomatch ht
  case queued => rfl
  case low => rfl
  all_goals
    simp only [Budget.newWriteQueueBudget]
    all_goals omega

theorem cons_of_zero (h : Accounts b ts) {t : Task} (ht : t.queuedBytes = 0) :
    Accounts b (t :: ts) := by
  have hlow : t.lowBytes = 0 := by rw [Task.lowBytes, ht, ite_self]
  constructor
  case sizes => exact forall_mem_cons.mpr ⟨ht.ge, h.sizes⟩
  case queued => rw [bytes_cons, ht, zero_add, h.queued]
  case low => rw [lowBytes_cons, hlow, zero_add, h.low]
  exacts [h.reserve_nonneg, h.reserve_le, h.pos, h.queued_le, h.low_le]

theorem reserve (h : Accounts b ts) {b' : Budget} {t : Task} (ht : 0 ≤ t.queuedBytes)
    (hb : b.reserve t.queuedBytes t.lowPriority = some b') : Accounts b' (t :: ts) := by
  have hpos := h.pos
  rw [Budget.reserve] at hb
  split at hb
  · cases hb
    have hnone : t.queuedBytes = 0 := by omega
    exact h.cons_of_zero hnone
  split at hb
  · cases hb
  split at hb
  · cases hb
  rename_i hroom hlowr
  cases hb
  have hlowr : t.lowPriority = true →
      t.queuedBytes ≤ b.maxBytes - b.highReserveBytes - b.lowPriorityBytes :=
    fun hlow => not_lt.mp fun hlt => hlowr ⟨hlow, hlt⟩
  constructor
  case sizes => exact forall_mem_cons.mpr ⟨ht, h.sizes⟩
  case queued =>
    rw [bytes_cons, ← h.queued]
    exact add_comm _ _
  case low =>
    rw [lowBytes_cons, ← h.low, Task.lowBytes]
    split
    · exact add_comm _ _
    · exact (zero_add _).symm
  case queued_le =>
    change b.queuedBytes + t.queuedBytes ≤ b.maxBytes
    omega
  case low_le =>
    change (if t.lowPriority = true then b.lowPriorityBytes + t.queuedBytes
      else b.lowPriorityBytes) ≤ b.maxBytes - b.highReserveBytes
    split
    · rename_i hlow
      have hroom := hlowr hlow
      omega
    · exact h.low_le
  exacts [h.reserve_nonneg, h.reserve_le, h.pos]

/-- `release` gives exactly the bytes of the task back: its clamping to 0 changes nothing. -/
theorem release {t : Task} (h : Accounts b (t :: ts)) :
    Accounts (b.release t.queuedBytes t.lowPriority) ts := by
  have hpos := h.pos
  have ht : 0 ≤ t.queuedBytes := h.sizes t mem_cons_self
  have hsiz : ∀ u ∈ ts, 0 ≤ u.queuedBytes := fun u hu => h.sizes u (mem_cons_of_mem _ hu)
  have hrest := bytes_nonneg hsiz
  have hlowr := lowBytes_nonneg hsiz
  have hque : b.queuedBytes = t.queuedBytes + bytes ts := h.queued.trans (bytes_cons t ts)
  have hlow : b.lowPriorityBytes = t.lowBytes + lowBytes ts :=
    h.low.trans (lowBytes_cons t ts)
  have hqueued_le := h.queued_le
  have hlow_le := h.low_le
  rw [Task.lowBytes] at hlow
  rw [Budget.release]
  split
  · have hnone : t.queuedBytes = 0 := by omega
    rw [hnone, ite_self, zero_add] at hlow
    rw [hnone, zero_add] at hque
    exact ⟨h.reserve_nonneg, h.reserve_le, hpos, hsiz, hque, hlow, hqueued_le, hlow_le⟩
  constructor
  case sizes => exact hsiz
  case queued =>
    change (if b.queuedBytes ≤ t.queuedBytes then 0 else b.queuedBytes - t.queuedBytes) = _
    split <;> omega
  case low =>
    change (if t.lowPriority = true then
      if b.lowPriorityBytes ≤ t.queuedBytes then 0 else b.lowPriorityBytes - t.queuedBytes
      else b.lowPriorityBytes) = _
    split at hlow
    · split <;> omega
    rename_i hprio
    rw [if_neg hprio]
    omega
  case queued_le =>
    change (if b.queuedBytes ≤ t.queuedBytes then 0 else b.queuedBytes - t.queuedBytes) ≤ b.maxBytes
    split <;> omega
  case low_le =>
    change (if t.lowPriority = true then
      if b.lowPriorityBytes ≤ t.queuedBytes then 0 else b.lowPriorityBytes - t.queuedBytes
      else b.lowPriorityBytes) ≤ b.maxBytes - b.highReserveBytes
    all_goals omega
  exacts [h.reserve_nonneg, h.reserve_le, hpos]

theorem reserve_high (h : Accounts b ts) {n : ℤ}
    (hn : highBytes ts + n ≤ b.highReserveBytes) : (b.reserve n false).isSome = true := by
  have hsum : b.queuedBytes = b.lowPriorityBytes + highBytes ts := by
    rw [h.queued, h.low, lowBytes_add_highBytes]
  have hlow := h.low_le
  rw [Budget.reserve]
  split
  · rfl
  have hroom : ¬b.maxBytes - b.queuedBytes < n := by omega
  rw [if_neg hroom]
  rfl

end Accounts

end DueServer.WriteQueue
