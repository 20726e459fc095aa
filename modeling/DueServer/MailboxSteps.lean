import DueServer.MailboxModel

/-! What one step can do to an actor and its goroutines: the cases of the frame that moves, and the
goroutines before and after it, up to their order. -/
namespace DueServer.Mailbox

open Lib List Function

namespace Method

def locks : Method → Bool
  | next _ | tryInvoke | tryInvokeContext | destroy => true
  | _ => false

end Method

namespace Actor

@[simp] theorem queue_take_self (c : Chan) (item : Item) (rest : List Item) (a : Actor) :
    (a.take c item rest).queue c = rest := update_self _ _ _

theorem queue_take_of_ne {c c' : Chan} (h : c ≠ c') (item : Item) (rest : List Item) (a : Actor) :
    (a.take c' item rest).queue c = a.queue c := update_of_ne h _ _

@[simp] theorem received_take_self (c : Chan) (item : Item) (rest : List Item) (a : Actor) :
    (a.take c item rest).received c = a.received c ++ [item.ticket] := update_self _ _ _

theorem received_take_of_ne {c c' : Chan} (h : c ≠ c') (item : Item) (rest : List Item)
    (a : Actor) : (a.take c' item rest).received c = a.received c := update_of_ne h _ _

@[simp] theorem queue_send_self (item : Item) (a : Actor) :
    (a.send item).queue item.chan = a.queue item.chan ++ [item] := update_self _ _ _

theorem queue_send_of_ne {c : Chan} {item : Item} (h : c ≠ item.chan) (a : Actor) :
    (a.send item).queue c = a.queue c := update_of_ne h _ _

end Actor

namespace Frame

/-- `Destroy` after the swap of the state, up to the closing of the channels. -/
def destroys : Frame → Bool
  | inDestroy | announcing | closing => true
  | _ => false

end Frame

inductive Does (s : State) : Frame → Choice → Effect → Prop where
  | enter (f : Frame) (m : Method) (item : Item) (hruns : State.runs f = true)
      (hlocks : m.locks = true) :
      Does s f (.call m) (.to [.locking item, f] .ticket)
  | destroy (f : Frame) (hruns : State.runs f = true) :
      Does s f (.call .destroy) (.to [.removing, f])
  | late (f : Frame) (m : Method) : Does s f (.call m) (.to [f])
  | start (f : Frame) : Does s f (.call .start) { frames := [f], started := [.outside] }
  | afterFunc (f : Frame) : Does s f (.call .afterFunc) { frames := [f], started := [.firing] }
  | afterInvoke (f : Frame) (item : Item) :
      Does s f (.call .afterInvoke)
        { frames := [f], started := [.locking item], write := Actor.ticket }
  | handOn (f : Frame) (obj : ℕ) :
      Does s f (.call (.handOn obj)) (.to [f] (.incrVersion obj (s.handled obj)))
  | retOutside : Does s .outside .ret (.to [])
  | retCallback : Does s .callback .ret (.to [])
  | retHandling (t obj : ℕ) (v : Int32) :
      Does s (.handling t obj v) .ret (.to [.comparing t obj v])
  | retPosting (t : ℕ) :
      Does s (.posting t) .ret (.to [.selecting] (.recycle t))
  | retRunning (t : ℕ) :
      Does s (.running t) .ret (.to [.selecting] (.execute t))
  | retInDestroy : Does s .inDestroy .ret (.to [.announcing])
  | retInHook : Does s .inHook .ret (.to [])
  | takeContext (c : Chan) (t obj : ℕ) (rest : List Item)
      (hqueue : s.actor.queue c = .context t obj :: rest) :
      Does s .selecting (.receive c)
        (.to [.handling t obj (s.actor.versions obj)] (.take c (.context t obj) rest))
  | takeFunction (c : Chan) (t : ℕ) (patient : Bool) (rest : List Item)
      (hqueue : s.actor.queue c = .function t patient :: rest) :
      Does s .selecting (.receive c) (.to [.running t] (.take c (.function t patient) rest))
  | done (c : Chan) (hqueue : s.actor.queue c = []) (hclosed : s.actor.closed c = true) :
      Does s .selecting (.receive c) (.to [])
  | same (t obj : ℕ) (v : Int32) (hversion : s.actor.versions obj = v) :
      Does s (.comparing t obj v) .go (.to [.posting t] (.clearVersion obj))
  | moved (t obj : ℕ) (v : Int32) (hversion : s.actor.versions obj ≠ v) :
      Does s (.comparing t obj v) .go (.to [.selecting])
  | fire : Does s .firing .go (.to [.fired])
  | firedLate : Does s .fired .go (.to [])
  | callback : Does s .fired .go (.to [.callback])
  | lock (item : Item) : Does s (.locking item) .go (.to [.checking item])
  | refuse (item : Item) : Does s (.checking item) .go (.to [])
  | admitContext (t obj : ℕ) (hdestroyed : s.actor.destroyed = false) :
      Does s (.checking (.context t obj)) .go (.to [.marking t obj])
  | admitFunction (t : ℕ) (patient : Bool) (hdestroyed : s.actor.destroyed = false) :
      Does s (.checking (.function t patient)) .go (.to [.sending (.function t patient)])
  | mark (t obj : ℕ) :
      Does s (.marking t obj) .go
        (.to [.sending (.context t obj)] (.incrVersion obj (s.handled obj)))
  | send (item : Item) :
      Does s (.sending item) .go (.to [.returning item] (.send item))
  | giveUp (t : ℕ) : Does s (.sending (.function t false)) .giveUp (.to [])
  | accept (item : Item) :
      Does s (.returning item) .go (.to [] (.accept item))
  | remove :
      Does s .removing .go (.to [.swapping] fun a => { a with registered := false })
  | absent : Does s .removing .go (.to [])
  | swap :
      Does s .swapping .go (.to [.inDestroy] fun a => { a with destroyed := true })
  | swapped : Does s .swapping .go (.to [])
  | announce : Does s .announcing .go (.to [.closing])
  | close (hreaders : s.readers = false) :
      Does s .closing .go (.to [.closingFn] (.close .mailbox))
  | closeFn : Does s .closingFn .go (.to [.inHook] (.close .fnChan))

variable {s s' : State} {f : Frame} {e : Effect} {act : Act}

theorem does_of_call (m : Method) (hruns : State.runs f = true) :
    Does s f (.call m) (s.call f m) := by
  cases m with
  | next obj | tryInvoke | tryInvokeContext => exact .enter f _ _ hruns rfl
  | afterFunc =>
    rw [State.call]
    split
    · exact .late f _
    · exact .afterFunc f
  | afterInvoke =>
    rw [State.call]
    split
    · exact .late f _
    · exact .afterInvoke f _
  | destroy => exact .destroy f hruns
  | handOn obj => exact .handOn f obj
  | start => exact .start f

theorem does_of_go (h : s.go f = some e) : Does s f .go e := by
  cases f <;> simp only [State.go] at h
  case comparing t obj v =>
    split at h <;> cases h <;> rename_i hver
    · exact .same t obj v hver
    · exact .moved t obj v hver
  case firing =>
    split at h <;> cases h
    exact .fire
  case fired =>
    split at h <;> cases h
    · exact .firedLate
    · exact .callback
  case locking item =>
    split at h <;> cases h
    exact .lock item
  case checking item =>
    split at h
    · cases h
      exact .refuse item
    rename_i hdes
    have hdes := Bool.eq_false_iff.mpr hdes
    cases item with
    | context t obj =>
      cases h
      exact .admitContext t obj hdes
    | function t patient =>
      cases h
      exact .admitFunction t patient hdes
  case sending item =>
    split at h <;> cases h
    exact .send item
  case removing =>
    split at h <;> cases h
    · exact .remove
    · exact .absent
  case swapping =>
    split at h <;> cases h
    · exact .swapped
    · exact .swap
  case closing =>
    split at h <;> cases h
    rename_i hrds
    exact .close (Bool.eq_false_iff.mpr hrds)
  all_goals
    cases h
    try constructor

theorem does_of_effect {choice : Choice} (h : s.effect f choice = some e) : Does s f choice e := by
  cases choice with
  | go => exact does_of_go h
  | giveUp =>
    simp only [State.effect] at h
    split at h <;> cases h
    exact .giveUp _
  | receive c =>
    simp only [State.effect] at h
    split at h
    · simp only [State.receive] at h
      split at h
      · rename_i t obj rest hqu
        cases h
        exact .takeContext c t obj rest hqu
      · rename_i t patient rest hqu
        cases h
        exact .takeFunction c t patient rest hqu
      rename_i hqu
      split at h <;> cases h
      rename_i hcl
      exact .done c hqu hcl
    · cases h
  | call m =>
    simp only [State.effect] at h
    split at h <;> cases h
    rename_i hruns
    exact does_of_call m hruns
  | ret =>
    cases f <;> cases h <;> constructor

namespace Does

variable {s : State} {f : Frame} {choice : Choice} {e : Effect}

theorem destroyed_mono (h : Does s f choice e) (hdes : s.actor.destroyed = true) :
    (e.write s.actor).destroyed = true := by
  cases h
  case swap => rfl
  all_goals exact hdes

theorem destroys_new (h : Does s f choice e) (hf : f.destroys = false) :
    (e.frames ++ e.started).any Frame.destroys = false ∨
      f = .swapping ∧ (e.write s.actor).destroyed = true := by
  cases h
  case enter | destroy | late | start | afterFunc | afterInvoke | handOn =>
    apply Or.inl
    simp only [any_append, any_cons, hf]
    rfl
  case swap => exact .inr ⟨rfl, rfl⟩
  case retInDestroy | announce => cases hf
  all_goals exact .inl rfl

end Does

def State.mover (s : State) (act : Act) : Option (Thread Role Frame) := s.threads[act.thread]?

def Effect.threads (e : Effect) (role : Role) (rest : List Frame) : List (Thread Role Frame) :=
  ⟨role, e.frames ++ rest⟩ :: e.started.map fun f => ⟨.other, [f]⟩

structure State.Turn (s : State) (act : Act) (role : Role) (f : Frame) (rest : List Frame)
    (e : Effect) (others : List (Thread Role Frame)) (s' : State) : Prop where
  mover : s.mover act = some ⟨role, f :: rest⟩
  does : Does s f act.choice e
  before : s.threads.Perm (⟨role, f :: rest⟩ :: others)
  after : s'.threads.Perm (e.threads role rest ++ others)
  actor : s'.actor = e.write s.actor

theorem turn_of_next (h : s.next act = some s') :
    ∃ role f rest e others, s.Turn act role f rest e others s' := by
  simp only [State.next, Option.bind_eq_bind, Option.bind_eq_some_iff] at h
  obtain ⟨⟨role, stack⟩, ht, h⟩ := h
  cases stack with
  | nil => cases h
  | cons f rest =>
    obtain ⟨e, he, h⟩ := Option.bind_eq_some_iff.mp h
    cases h
    obtain ⟨others, hbef, haft⟩ := replaceAt_perm ht
    exact ⟨role, f, rest, e, others, ht, does_of_effect he, hbef, haft _, rfl⟩

theorem turn_of_step {G : State → Act → Bool} (h : guardedRel State.step G s act s') :
    G s act = true ∧ ∃ role f rest e others, s.Turn act role f rest e others s' := by
  obtain ⟨act', hG, hs⟩ := h
  obtain ⟨s'', hnext, heq⟩ := Option.map_eq_some_iff.mp hs
  cases heq
  exact ⟨hG, turn_of_next hnext⟩

namespace State.Turn

variable {s s' : State} {act : Act} {role : Role} {f : Frame} {rest : List Frame} {e : Effect}
  {others : List (Thread Role Frame)}

variable {t : Thread Role Frame} {g : Frame}

section

variable (h : s.Turn act role f rest e others s')

include h

theorem mem_others (ht : t ∈ others) : t ∈ s.threads := h.before.mem_iff.mpr (mem_cons_of_mem _ ht)

theorem mover_mem : ⟨role, f :: rest⟩ ∈ s.threads :=
  h.before.mem_iff.mpr mem_cons_self

theorem mem_after (ht : t ∈ s'.threads) :
    t = ⟨role, e.frames ++ rest⟩ ∨ (∃ g ∈ e.started, t = ⟨.other, [g]⟩) ∨ t ∈ others := by
  have hmem := h.after.mem_iff.mp ht
  rcases mem_append.mp hmem with hmem | hmem
  · rcases mem_cons.mp hmem with rfl | hmem
    · exact .inl rfl
    · obtain ⟨g, hg, rfl⟩ := mem_map.mp hmem
      exact .inr (.inl ⟨g, hg, rfl⟩)
  · exact .inr (.inr hmem)

theorem frames_before :
    (frames s.threads).Perm (f :: (rest ++ frames others)) := h.before.flatMap_right _

theorem frames_after :
    (frames s'.threads).Perm (e.frames ++ e.started ++ (rest ++ frames others)) := by
  have haft : (frames s'.threads).Perm (frames (e.threads role rest ++ others)) :=
    h.after.flatMap_right _
  refine haft.trans ?_
  rw [frames_append]
  have hstd : frames (e.started.map fun f => (⟨.other, [f]⟩ : Thread Role Frame)) = e.started :=
    frames_singletons _ _
  change ((e.frames ++ rest) ++ frames (e.started.map _) ++ frames others).Perm _
  rw [hstd, append_assoc, append_assoc, append_assoc]
  exact (perm_append_comm_assoc rest e.started _).append_left _

theorem mem_frames_after (hg : g ∈ frames s'.threads) :
    g ∈ e.frames ∨ g ∈ e.started ∨ g ∈ frames s.threads := by
  have hmem := h.frames_after.mem_iff.mp hg
  rcases mem_append.mp hmem with hmem | hmem
  · exact (mem_append.mp hmem).imp_right .inl
  · exact .inr (.inr (h.frames_before.mem_iff.mpr (mem_cons_of_mem _ hmem)))

theorem stays (hg : g ∈ frames s.threads) : g = f ∨ g ∈ frames s'.threads := by
  refine (mem_cons.mp (h.frames_before.mem_iff.mp hg)).imp_right fun hg => ?_
  exact h.frames_after.mem_iff.mpr (mem_append_right _ hg)

theorem new_mem (hg : g ∈ e.frames) : g ∈ frames s'.threads :=
  h.frames_after.mem_iff.mpr (mem_append_left _ (mem_append_left _ hg))

theorem frame_mem : f ∈ frames s.threads :=
  h.frames_before.mem_iff.mpr mem_cons_self

theorem destroyed (hold : ∀ g ∈ frames s.threads, g.destroys = true → s.actor.destroyed = true) :
    ∀ g ∈ frames s'.threads, g.destroys = true → s'.actor.destroyed = true := by
  intro g hg hdes
  rw [h.actor]
  have hmono : ∀ g ∈ frames s.threads, g.destroys = true →
      (e.write s.actor).destroyed = true := by
    intro g hg hdes
    exact h.does.destroyed_mono (hold g hg hdes)
  cases hf : f.destroys with
  | true => exact hmono f h.frame_mem hf
  | false =>
    rcases h.does.destroys_new hf with hnew | ⟨_, hdest⟩
    · rcases h.mem_frames_after hg with hg | hg | hg
      · exact absurd hdes (any_eq_false.mp hnew g (mem_append_left _ hg))
      · exact absurd hdes (any_eq_false.mp hnew g (mem_append_right _ hg))
      · exact hmono g hg hdes
    · exact hdest

end

end State.Turn

end DueServer.Mailbox
