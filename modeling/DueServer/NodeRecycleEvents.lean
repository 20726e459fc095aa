import DueServer.NodeRecycleExact

/-! The events that a node passes on to its actors: as long as each is handed to one actor at most,
it goes back to its pool exactly once, after the actor is done with it. -/
namespace DueServer.Node

open Lib Node.Frame

variable {χ δ φ ε : Type}

namespace Mark

def isHanded (obj acq : ℕ) : Mark χ δ → Bool
  | handed o a _ => o = obj && a = acq
  | _ => false

def Recycles (obj acq : ℕ) : Mark χ δ → Prop
  | won o _ cur => o = obj ∧ cur = acq
  | reset o _ cur => o = obj ∧ cur = acq
  | put o _ cur => o = obj ∧ cur = acq
  | _ => False

end Mark

namespace Phase

/-- Where the frame of `Trigger.handle` can stand with an event, once handed to an actor (`hd`) or
not. -/
def FitsHandle (c : Context χ δ φ) (version : Int32) (hd : Bool) : Phase → Prop
  | entering => hd = false ∧ c.version = 0 ∧ c.actor = none
  | running code => code ≠ .post ∧ version = 1 ∧ (hd = false → c.version = 1 ∧ c.actor = none)
  | storing _ rest back => rest = [] ∧ (back = some .handler ∨ back = some .defers) ∧ version = 1 ∧
      hd = false ∧ c.version = 1 ∧ c.actor = none
  | bumping actor rest back => rest = [] ∧ (back = some .handler ∨ back = some .defers) ∧
      version = 1 ∧ hd = false ∧ c.version = 1 ∧ c.actor = some actor
  | mailing actor rest back => rest = [] ∧ (back = some .handler ∨ back = some .defers) ∧
      version = 1 ∧ hd = false ∧ c.version = 2 ∧ c.actor = some actor
  | deferring => version = 1 ∧ (hd = false → c.version = 1 ∧ c.actor = none)
  | comparing => version = 1 ∧ (hd = false → c.version = 1 ∧ c.actor = none)
  | resetting => hd = false ∧ c.version = 0
  | putting => hd = false ∧ c.version = 0 ∧ c.actor = none
  | _ => False

def FitsActor (c : Context χ δ φ) (version : Int32) (actor : ℕ) : Phase → Prop
  | loading => c.version = 2 ∧ c.actor = some actor
  | running code => code ≠ .post ∧ version = 2 ∧ c.version = 2 ∧ c.actor = some actor
  | deferring => version = 2 ∧ c.version = 2 ∧ c.actor = some actor
  | comparing => version = 2 ∧ c.version = 2 ∧ c.actor = some actor
  | resetting => c.version = 0
  | putting => c.version = 0 ∧ c.actor = none
  | _ => False

def intact : Phase → Bool
  | filling => false
  | resetting => false
  | putting => false
  | _ => true

end Phase

namespace Frame

def Fits (f : Frame χ δ) (c : Context χ δ φ) (hd : Bool) : Prop :=
  match f.call with
  | .source entry => entry.isRequest = false ∧ (f.phase = .filling ∨ f.phase = .queueing) ∧
      hd = false ∧ c.version = 0 ∧ c.actor = none
  | .handle => f.phase.FitsHandle c f.version hd
  | .actor actor => hd = true ∧ f.phase.FitsActor c f.version actor
  | _ => False

/-- The frame is the one that the event is with, not one of `handle` that has handed it on. -/
def carries (hd : Bool) (f : Frame χ δ) : Bool := !(f.call.isHandle && hd)

def OneActor (choice : Choice) (hd : Bool) : Prop :=
  choice ≠ .task ∧ ∀ actors, choice = .next actors → actors = [] ∨ actors.length = 1 ∧ hd = false

end Frame

namespace Does

variable {n : Config χ δ ε} {f : Frame χ δ} {c : Context χ δ φ} {cur : ℕ} {choice : Choice}
  {e : Effect χ δ φ} {hd : Bool}

section

variable (h : Does n f c cur choice e)

include h

theorem fits (heve : c.isRequest = false) (hfits : f.Fits c hd) (hone : OneActor choice hd)
    (hstl : f.call = .handle → hd = true → c.version ≠ 1) :
    ∀ g ∈ e.holders, g.Fits (e.write c) (hd || e.marks.any (Mark.isHanded f.obj f.acq)) := by
  cases h with
  | hand code hph actors =>
    cases hcall : f.call with
    | handle =>
      simp only [Fits, hcall, hph, Phase.FitsHandle] at hfits
      rcases hone.2 actors rfl with rfl | ⟨hlen, hfr⟩
      · simpa [Fits, Effect.holders, hcall, nextPhase, Phase.FitsHandle] using hfits
      obtain ⟨actor, rfl⟩ := List.length_eq_one_iff.mp hlen
      have hback : code = .handler ∨ code = .defers := by
        cases code <;> simp_all
      simp_all [Fits, Effect.holders, nextPhase, Phase.FitsHandle]
    | actor =>
      simp only [Fits, hcall, hph, Phase.FitsActor] at hfits
      rcases hone.2 actors rfl with rfl | ⟨-, hfr⟩
      · simpa [Fits, Effect.holders, hcall, nextPhase, Phase.FitsActor] using hfits
      · simp_all
    | _ => simp_all [Fits]
  | mail actor rest back hph =>
    cases hcall : f.call with
    | handle =>
      simp only [Fits, hcall, hph, Phase.FitsHandle] at hfits
      obtain ⟨rfl, rfl | rfl, hrest⟩ := hfits <;>
        simp_all [Fits, Effect.holders, nextPhase, Phase.FitsHandle, Phase.FitsActor,
          Letter.frame, Mark.isHanded]
    | _ => simp_all [Fits, Phase.FitsActor]
  | fill entry =>
    cases entry <;> simp_all [Fits, Effect.holders, Entry.phase, Entry.isRequest]
  | queue entry =>
    cases entry <;> simp_all [Fits, Effect.holders, Entry.isRequest, Entry.chan,
      Letter.frame, Phase.FitsHandle]
  | _ =>
    cases hcall : f.call <;> simp_all [Fits, Effect.holders, Phase.FitsHandle,
      Phase.FitsActor, Frame.inner, Mark.isHanded, OneActor]

theorem carries (heve : c.isRequest = false) (hfits : f.Fits c hd)
    (hone : OneActor choice hd) (hstl : f.call = .handle → hd = true → c.version ≠ 1) :
    e.holders.countP (carries (hd || e.marks.any (Mark.isHanded f.obj f.acq))) +
      e.marks.countP (Mark.isPut f.obj cur) = if f.carries hd then 1 else 0 := by
  cases h with
  | queue entry =>
    cases entry <;> simp_all [Fits, Effect.holders, carries, Entry.isRequest,
      Entry.chan, Letter.frame, Call.isHandle]
  | mail =>
    cases hcall : f.call <;> simp_all [Fits, Effect.holders, carries, Phase.FitsHandle,
      Phase.FitsActor, Letter.frame, Mark.isHanded, Mark.isPut, Call.isHandle]
  | _ =>
    cases hcall : f.call <;> simp_all [Fits, Effect.holders, carries, Entry.isRequest,
      Phase.FitsHandle, Phase.FitsActor, Mark.isHanded, Mark.isPut, OneActor,
      Call.isHandle]

theorem seats (heve : c.isRequest = false) (hone : OneActor choice hd) :
    e.workers = [] ∧ e.frames.length ≤ 1 ∧ ∀ g ∈ e.frames, g.call = f.call := by
  -- only `task` starts a worker, and only requests are skipped or pass a middleware
  cases h <;> simp_all [OneActor, Frame.inner]

/-- A frame of `handle` that has handed the event on does not touch it any more. -/
theorem stale (hfits : f.Fits c true) (hhan : f.call = .handle)
    (hone : OneActor choice true) (heve : c.isRequest = false) (hstl : c.version ≠ 1) :
    e.write c = c ∧ e.sent = [] ∧ e.put = false ∧
      ∀ m ∈ e.marks, m = .saw f.call f.obj f.acq c.seen c.actor := by
  -- it runs, defers or compares, and its version is not the one it compares with
  cases h <;> simp_all [Fits, Phase.FitsHandle, OneActor]

theorem intact (heve : c.isRequest = false) (_ : f.Fits c hd) :
    ∀ g ∈ e.holders, g.phase.intact = true →
      f.phase.intact = true ∧ (e.write c).seen = c.seen ∨
        ∃ entry, f.call = .source entry ∧ e.write = entry.fill n := by
  -- before the recycling only the fill changes what can be seen
  cases h with
  | _ =>
    cases hcall : f.call <;> simp_all [Effect.holders, Phase.intact]

theorem recycling (heve : c.isRequest = false) (hfits : f.Fits c hd)
    (hrec : f.phase.recycles = true ∨ ∃ m ∈ e.marks, m.Recycles f.obj cur) :
    ∀ g ∈ e.holders, g.phase.recycles = true := by
  -- from the swap on the frame resets and puts, and an event has no post-route handler
  cases h with
  | _ =>
    cases hcall : f.call <;> simp_all [Fits, Effect.holders, Phase.FitsHandle,
      Phase.FitsActor, Phase.recycles, Mark.Recycles]

theorem puts (hput : e.put = true ∨ e.marks.countP (Mark.isPut f.obj cur) ≠ 0) :
    f.phase = .putting ∧ e.write = id ∧ e.marks = [.put f.obj f.acq cur] := by
  cases h with
  | put hph => exact ⟨hph, rfl, rfl⟩
  | _ => simp_all [Mark.isPut]

theorem isRequest : (e.write c).isRequest = c.isRequest := by
  cases h <;> simp

theorem source {entry : Entry χ δ} :
    ∀ g ∈ e.holders, g.call = .source entry → f.call = .source entry := by
  cases h with
  | queue entry' => cases entry' <;> simp [Effect.holders, Letter.frame, Entry.chan]
  | _ => simp_all [Effect.holders, Frame.inner, Letter.frame]

theorem marks_cases : e.marks = [] ∨ ∃ m, e.marks = [m] := by
  cases h <;> simp

theorem saw {call : Call χ δ} {obj acq : ℕ} {seen : Seen χ δ} {actor : Option ℕ}
    (hm : .saw call obj acq seen actor ∈ e.marks) :
    call = f.call ∧ obj = f.obj ∧ acq = f.acq ∧ seen = c.seen ∧ actor = c.actor ∧
      ∃ code, f.phase = .running code := by
  cases h with
  | look code hph =>
    cases List.mem_singleton.mp hm
    exact ⟨rfl, rfl, rfl, rfl, rfl, code, hph⟩
  | _ => simp_all

end

end Does

namespace Frame

variable {f : Frame χ δ} {c c' : Context χ δ φ} {hd : Bool}

theorem carries_false : f.carries hd = false ↔ f.call = .handle ∧ hd = true := by
  cases hcall : f.call <;> simp [carries, hcall, Call.isHandle]

theorem Fits.of_stale (h : f.Fits c hd) (hstl : f.carries hd = false) : f.Fits c' hd := by
  obtain ⟨hcall, rfl⟩ := carries_false.mp hstl
  simp only [Fits] at h ⊢
  cases hph : f.phase <;> simp_all [Phase.FitsHandle]

theorem Fits.of_version_one (h : f.Fits c hd) (hver : c.version = 1) :
    f.call = .handle ∧ f.phase ≠ .entering := by
  unfold Fits at h
  cases hcall : f.call with
  | handle =>
    refine ⟨rfl, fun hph => ?_⟩
    simp_all [Phase.FitsHandle]
  | actor => cases hph : f.phase <;> simp_all [Phase.FitsActor]
  | _ => simp_all

end Frame

theorem Letter.phase_frame (l : Letter) (h : (l.frame : Frame χ δ).call = .handle) :
    (l.frame : Frame χ δ).phase = .entering := by
  obtain ⟨chan, obj, acq⟩ := l
  cases chan with
  | mailbox => cases h
  | _ => rfl

def Entry.wanted (n : Config χ δ ε) (entry : Entry χ δ) : Seen χ δ :=
  (entry.fill n (.event (Event.new : Event χ Unit))).seen

theorem Entry.seen_fill (n : Config χ δ ε) {entry : Entry χ δ} {c : Context χ δ φ}
    (hent : entry.isRequest = false) (heve : c.isRequest = false) :
    (entry.fill n c).seen = entry.wanted n := by
  cases entry with
  | trigger =>
    cases c with
    | request => cases heve
    | event => rfl
  | _ => cases hent

namespace State

variable {n : Config χ δ ε} {s s' : State χ δ φ}

def handed (s : State χ δ φ) (obj acq : ℕ) : Bool := s.log.any (Mark.isHanded obj acq)

def carried (s : State χ δ φ) (f : Frame χ δ) : Bool := f.carries (s.handed f.obj f.acq)

def carriers (s : State χ δ φ) (obj : ℕ) : ℕ := s.holders.countP fun f => f.obj = obj && s.carried f

def handsOnce (s : State χ δ φ) : Act χ δ → Bool
  | .call entry _ => !entry.isRequest
  | .step i choice =>
    match s.threads[i]?, choice with
    | some ⟨_, f :: _⟩, .next actors =>
      actors.isEmpty || actors.length = 1 && !s.handed f.obj f.acq
    | _, .task => false
    | _, _ => true
  | .receive .. => true

def Seated (ts : List (Thread Role (Frame χ δ))) : Prop :=
  ∀ i t, ts[i]? = some t → t.stack.length ≤ 1 ∧
    (i ≠ 0 → t.role ≠ .node ∧ ∀ f ∈ t.stack, f.call ≠ .handle)

/-- What a handler has seen is the event of its call, with the actor it runs in; `handle` may see
something else once it has handed the event on. -/
def SawRight (n : Config χ δ ε) (calls : List (Entry χ δ × ℕ)) (before : List (Mark χ δ)) :
    Mark χ δ → Prop
  | .saw (.actor a) obj acq seen actor =>
    actor = some a ∧ ∃ entry, calls[acq]? = some (entry, obj) ∧ seen = entry.wanted n
  | .saw .handle obj acq seen actor => before.any (Mark.isHanded obj acq) = false →
    actor = none ∧ ∃ entry, calls[acq]? = some (entry, obj) ∧ seen = entry.wanted n
  | _ => True

/-- Each event goes back to its pool exactly once, and only when the actors that received it are
done with it; every handler sees the event and its own actor. -/
structure Delivered (n : Config χ δ ε) (s : State χ δ φ) : Prop where
  once (obj acq : ℕ) : s.puts obj acq ≤ 1
  returns (acq obj : ℕ) (entry : Entry χ δ) : s.calls[acq]? = some (entry, obj) →
    (∀ f ∈ s.holders, f.obj = obj → f.acq ≠ acq) → s.puts obj acq = 1
  waits : ∀ f ∈ s.holders, ∀ actor, f.call = .actor actor → f.phase.recycles = false →
    ∀ m ∈ s.log, ¬ m.Recycles f.obj f.acq
  saw : ∀ before m after, s.log = before ++ m :: after → SawRight n s.calls before m

structure Kept (n : Config χ δ ε) (s : State χ δ φ) : Prop where
  seated : Seated s.threads
  known : ∀ f ∈ s.holders, ∃ entry, s.calls[f.acq]? = some (entry, f.obj) ∧
    ∀ entry', f.call = .source entry' → entry' = entry
  calls (acq obj : ℕ) (entry : Entry χ δ) : s.calls[acq]? = some (entry, obj) →
    obj < s.made ∧ entry.isRequest = false ∧ (s.cur obj = acq ∨ s.puts obj acq = 1)
  event : ∀ obj < s.made, (s.heap obj).isRequest = false
  fits : ∀ f ∈ s.holders, f.Fits (s.heap f.obj) (s.handed f.obj f.acq)
  latest : ∀ f ∈ s.holders, s.carried f = true → s.cur f.obj = f.acq
  intact : ∀ f ∈ s.holders, s.carried f = true → f.phase.intact = true →
    ∀ entry obj, s.calls[f.acq]? = some (entry, obj) → (s.heap f.obj).seen = entry.wanted n
  waits : ∀ f ∈ s.holders, s.carried f = true → f.phase.recycles = false →
    ∀ m ∈ s.log, ¬ m.Recycles f.obj f.acq
  count : ∀ obj < s.made, s.carriers obj + s.puts obj (s.cur obj) = 1
  idle : ∀ obj < s.made, s.carriers obj = 0 → (s.heap obj).version = 0 ∧ (s.heap obj).actor = none
  nodup : s.pool.Nodup
  pool : ∀ obj ∈ s.pool, obj < s.made ∧ s.carriers obj = 0
  unborn (obj acq : ℕ) : s.calls.length ≤ acq → s.handed obj acq = false ∧
    ∀ m ∈ s.log, ¬ m.Recycles obj acq
  once (obj acq : ℕ) : s.puts obj acq ≤ 1
  saw : ∀ before m after, s.log = before ++ m :: after → SawRight n s.calls before m

theorem Kept.delivered (hs : s.Kept n) : s.Delivered n where
  once := hs.once
  returns acq obj entry hcall hnone := by
    obtain ⟨hmade, -, hlat | hput⟩ := hs.calls acq obj entry hcall
    · have hcarr : s.carriers obj = 0 := by
        refine List.countP_eq_zero.mpr fun f hf hcar => ?_
        obtain ⟨hobj, hcar⟩ := Bool.and_eq_true_iff.mp hcar
        have hobj : f.obj = obj := of_decide_eq_true hobj
        have hacq := hs.latest f hf hcar
        rw [hobj, hlat] at hacq
        exact hnone f hf hobj hacq.symm
      have hct := hs.count obj hmade
      rwa [hcarr, Nat.zero_add, hlat] at hct
    · exact hput
  waits f hf actor hcall := hs.waits f hf (by simp [carried, carries, hcall, Call.isHandle])
  saw := hs.saw

end State

end DueServer.Node
