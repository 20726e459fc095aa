import DueServer.ActorSound

/-! The end of an actor. The three ways to kill an actor meet in the registry: whoever removes it
has it alone, and takes it through `Destroy`, the closing of its channels and the release hook
once. -/
namespace DueServer.Scheduler

open Lib

def Stage.ending : Stage → Bool
  | unrelating _ | swapping | cancelling | destroying | inDestroy | unbinding | closing | hooking
  | inHook | completing | finishing => true
  | _ => false

def Call.ends (a : ℕ) (c : Call) : Bool := (c.stageOf a).any Stage.ending

/-- What is recorded of an actor once at most, or once exactly. The number of calls that are about
to end an actor stands in for what they will record. -/
structure EndsOnce (s : State) (a : ℕ) : Prop where
  destroy : (s.actors a).life.count .destroy ≤ 1
  hook : (s.actors a).life.count .hook ≤ 1
  doneWait : (∃ x, .unregistered x ∈ (s.actors a).life) → (s.actors a).opts.wait = true →
    (s.actors a).life.count .doneWait + s.calls.countP (Call.ends a) = 1
  noDoneWait : (¬∃ x, .unregistered x ∈ (s.actors a).life) ∨ (s.actors a).opts.wait = false →
    (s.actors a).life.count .doneWait = 0
  unsent : .sent true ∉ (s.actors a).life
  own : ∀ x, .unregistered x ∈ (s.actors a).life → x = some a
  complete : (s.actors a).complete = true →
    .destroyed ∈ (s.actors a).life ∧
      ((s.actors a).opts.releaseHook = true → .hooked ∈ (s.actors a).life)

/-- A call that works on one actor leaves every other as it is, in the registry or not, and goes on
as a call that works on that actor. -/
def Isolated (s : State) : Prop :=
  ∀ i choice c a s', s.calls[i]? = some c → c.subject = some a →
    s.next (.step i choice) = some s' →
    (∀ b, b ≠ a → s'.actors b = s.actors b ∧
      (s'.registry (s'.pid b) = some b ↔ s.registry (s.pid b) = some b)) ∧
    ∀ c' ∈ s'.calls, c' ∈ s.calls ∨ c'.subject = some a

theorem Call.countP_ends (a : ℕ) (calls : List Call) :
    calls.countP (Call.ends a) = (calls.filterMap (Call.stageOf a)).countP Stage.ending := by
  rw [List.countP_filterMap]
  refine List.countP_congr fun c _ => ?_
  unfold Call.ends
  cases c.stageOf a <;> rfl

namespace Stage

variable (o : Options) (a : ℕ) (st : Stage)

theorem count_script_le {l : Life} (hl : l = .destroy ∨ l = .hook) :
    (st.script o a).count l ≤ 1 := by
  obtain ⟨_, _, wait, _, _, hook, _⟩ := o
  rcases hl with rfl | rfl <;> cases st <;> cases wait <;> cases hook <;> simp [script]

theorem eq_of_unregistered_mem_script {x : Option ℕ} (h : .unregistered x ∈ st.script o a) :
    x = some a ∧ (st.ending = true ∨ st = .ended) := by
  obtain ⟨_, _, wait, _, _, hook, _⟩ := o
  cases st <;> cases wait <;> cases hook <;> simp_all [script, ending]

theorem unregistered_mem_script (h : st.ending = true ∨ st = .ended) :
    .unregistered (some a) ∈ st.script o a := by
  obtain ⟨_, _, wait, _, _, hook, _⟩ := o
  cases st <;> cases wait <;> cases hook <;> simp_all [script, ending]

theorem count_doneWait_script :
    (st.script o a).count .doneWait = if st = .ended ∧ o.wait = true then 1 else 0 := by
  obtain ⟨_, _, wait, _, _, hook, _⟩ := o
  cases st <;> cases wait <;> cases hook <;> simp [script]

theorem countP_work : st.work.countP ending = if st.ending = true then 1 else 0 := by
  cases st <;> rfl

theorem complete_script (h : st.complete = true) :
    .destroyed ∈ st.script o a ∧ (o.releaseHook = true → .hooked ∈ st.script o a) := by
  obtain ⟨_, _, wait, _, _, hook, _⟩ := o
  cases st <;> cases wait <;> cases hook <;> simp_all [script, complete]

end Stage

namespace Matches

variable {s : State} {a : ℕ} {st : Stage}

theorem count_eq (hm : Matches s a st) {l : Life} (hl : l.ofStage = true) :
    (s.actors a).life.count l = (st.script (s.actors a).opts a).count l := by
  rw [← hm.inside.life, List.count_filter hl]

theorem mem_iff (hm : Matches s a st) {l : Life} (hl : l.ofStage = true) :
    l ∈ (s.actors a).life ↔ l ∈ st.script (s.actors a).opts a := by
  rw [← hm.inside.life, List.mem_filter]
  exact (and_iff_left hl).symm

theorem endsOnce (hm : Matches s a st) (huns : .sent true ∉ (s.actors a).life) : EndsOnce s a where
  destroy := by
    rw [hm.count_eq rfl]
    exact st.count_script_le _ a (.inl rfl)
  hook := by
    rw [hm.count_eq rfl]
    exact st.count_script_le _ a (.inr rfl)
  doneWait := by
    rintro ⟨x, hx⟩ hwait
    obtain ⟨-, hst⟩ := st.eq_of_unregistered_mem_script _ a ((hm.mem_iff rfl).mp hx)
    rw [hm.count_eq rfl, Call.countP_ends, hm.calls, st.count_doneWait_script, st.countP_work]
    rcases hst with hend | rfl
    · have hover : st ≠ .ended := by
        rintro rfl
        cases hend
      rw [if_neg fun h => hover h.1, if_pos hend]
    rw [if_pos ⟨rfl, hwait⟩]
    rfl
  noDoneWait := by
    intro hnone
    rw [hm.count_eq rfl, st.count_doneWait_script, if_neg]
    rintro ⟨hover, hwait⟩
    rcases hnone with hin | hnow
    · exact hin ⟨some a, (hm.mem_iff rfl).mpr (st.unregistered_mem_script _ a (.inr hover))⟩
    rw [hwait] at hnow
    cases hnow
  unsent := huns
  own := fun _ hx => (st.eq_of_unregistered_mem_script _ a ((hm.mem_iff rfl).mp hx)).1
  complete := by
    intro hcmp
    obtain ⟨hdes, hhoo⟩ :=
      st.complete_script (s.actors a).opts a (hm.inside.complete.symm.trans hcmp)
    exact ⟨(hm.mem_iff rfl).mpr hdes, fun hhook => (hm.mem_iff rfl).mpr (hhoo hhook)⟩

end Matches

theorem Does.subject {s : State} {c : Call} {e : Effect} {a : ℕ} (h : Does s [c] e)
    (hc : c.subject = some a) : e.actor = a ∧ ∀ c' ∈ e.calls, c'.subject = some a := by
  cases h <;> simp_all [Call.subject, State.remove, State.schedule]

theorem Sound.isolated {s : State} (hs : Sound s) : Isolated s := by
  intro i choice c a s' hc hsub hnext
  obtain ⟨e, others, hturn⟩ := State.turn_of_next hnext
  have hsrc : s.source (.step i choice) = [c] := by rw [State.source, hc, Option.toList_some]
  rw [hsrc] at hturn
  obtain ⟨rfl, hcs⟩ := hturn.does.subject hsub
  refine ⟨fun b hb => ⟨hturn.actor_of_ne hb, ?_⟩, fun c' hc' => ?_⟩
  · rw [State.pid, hturn.actor_of_ne hb]
    exact hs.registry_of_ne hturn hb
  · rcases List.mem_append.mp (hturn.after.mem_iff.mp hc') with hnew | hold
    · exact .inr (hcs c' hnew)
    · exact .inl (hturn.before.mem_iff.mpr (List.mem_append_right _ hold))

def steps (n call : ℕ) : List Act := List.replicate n (.step call true)

/-- A waiting actor with a release hook is killed by itself and by name, and spawned again while its
`Destroy` has not begun. -/
def killedTwice : List Act :=
  let room : Options := ⟨"1", "room", true, false, false, true, false⟩
  [.spawn room] ++ steps 5 0 ++ [.killActor 0, .kill "room" "1"] ++ steps 2 0 ++ steps 1 1 ++
    [.spawn room] ++ steps 5 1 ++ steps 10 0

theorem killedTwice_isSome :
    (exec State.step (fun _ _ => true) State.init killedTwice).isSome = true := by
  decide +kernel

end DueServer.Scheduler
