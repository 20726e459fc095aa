import DueServer.NodeRecycleModel

/-! What one step of a node can do to its contexts: the cases of a frame's step, and the frames,
letters and records of the whole node before and after it. -/
namespace DueServer.Node

open Lib List Node.Frame

variable {χ δ φ ε : Type}

namespace Context

@[simp] theorem cancel_fields (c : Context χ δ φ) : c.cancel.version = c.version ∧
    c.cancel.isRequest = c.isRequest ∧ c.cancel.seen = c.seen ∧ c.cancel.actor = c.actor := by
  cases c <;> exact ⟨rfl, rfl, rfl, rfl⟩

@[simp] theorem incrVersion_fields (c : Context χ δ φ) :
    c.incrVersion.version = c.version + 1 ∧ c.incrVersion.isRequest = c.isRequest ∧
      c.incrVersion.seen = c.seen ∧ c.incrVersion.actor = c.actor := by
  cases c <;> exact ⟨rfl, rfl, rfl, rfl⟩

@[simp] theorem storeActor_fields (actor : ℕ) (c : Context χ δ φ) :
    (c.storeActor actor).version = c.version ∧ (c.storeActor actor).isRequest = c.isRequest ∧
      (c.storeActor actor).seen = c.seen ∧ (c.storeActor actor).actor = some actor := by
  cases c <;> exact ⟨rfl, rfl, rfl, rfl⟩

@[simp] theorem clearVersion_fields (c : Context χ δ φ) : c.clearVersion.version = 0 ∧
    c.clearVersion.isRequest = c.isRequest ∧ c.clearVersion.seen = c.seen ∧
      c.clearVersion.actor = c.actor := by
  cases c <;> exact ⟨rfl, rfl, rfl, rfl⟩

@[simp] theorem reset_fields (c : Context χ δ φ) : c.reset.version = c.version ∧
    c.reset.isRequest = c.isRequest ∧ c.reset.actor = none := by
  cases c <;> exact ⟨rfl, rfl, rfl⟩

@[simp] theorem fill_fields (n : Config χ δ ε) (entry : Entry χ δ) (c : Context χ δ φ) :
    (entry.fill n c).version = c.version ∧ (entry.fill n c).isRequest = c.isRequest ∧
      (entry.fill n c).actor = c.actor := by
  cases entry with
  | deliver =>
    cases c with
    | request =>
      simp only [Entry.fill]
      split <;> exact ⟨rfl, rfl, rfl⟩
    | event => exact ⟨rfl, rfl, rfl⟩
  | _ => cases c <;> exact ⟨rfl, rfl, rfl⟩

end Context

inductive Does (n : Config χ δ ε) (f : Frame χ δ) (c : Context χ δ φ) (cur : ℕ) :
    Choice → Effect χ δ φ → Prop where
  | fill (entry : Entry χ δ) (hcall : f.call = .source entry) (hphase : f.phase = .filling) :
      Does n f c cur .go (.to [f.goTo entry.phase] (entry.fill n))
  | drop (actor : ℕ) (uid : ℤ) (message : Message δ)
      (hcall : f.call = .source (.deliver actor uid message)) (hphase : f.phase = .filling) :
      Does n f c cur .ret (.to [] ((Entry.deliver actor uid message).fill n))
  | queue (entry : Entry χ δ) (hcall : f.call = .source entry) (hphase : f.phase = .queueing) :
      Does n f c cur .go { frames := [], sent := [⟨entry.chan, f.obj, f.acq⟩] }
  | enter (hphase : f.phase = .entering) :
      Does n f c cur .go (.to [f.inner c f.call] .incrVersion)
  | load (hphase : f.phase = .loading) :
      Does n f c cur .go (.to [{ f with version := c.version, phase := .running .handler }])
  | store (actor : ℕ) (rest : List ℕ) (back : Option Code)
      (hphase : f.phase = .storing actor rest back) :
      Does n f c cur .go (.to [f.goTo (.bumping actor rest back)] (.storeActor actor))
  | bump (actor : ℕ) (rest : List ℕ) (back : Option Code)
      (hphase : f.phase = .bumping actor rest back) :
      Does n f c cur .go (.to [f.goTo (.mailing actor rest back)] fun c => c.incrVersion.cancel)
  | mail (actor : ℕ) (rest : List ℕ) (back : Option Code)
      (hphase : f.phase = .mailing actor rest back) :
      Does n f c cur .go
        { frames := [f.goTo (nextPhase back rest)]
          sent := [⟨.mailbox actor, f.obj, f.acq⟩]
          marks := [.handed f.obj f.acq actor] }
  | task (code : Code) (hphase : f.phase = .running code) :
      Does n f c cur .task
        { frames := [f], workers := [f.inner c .task], write := fun c => c.incrVersion.cancel }
  | hand (code : Code) (hphase : f.phase = .running code) (actors : List ℕ)
      (hmay : mayHand c actors = true) :
      Does n f c cur (.next actors) (.to [f.goTo (nextPhase (some code) actors)])
  | skip (code : Code) (hphase : f.phase = .running code) (hrequest : c.isRequest = true) :
      Does n f c cur .skip (.to [f.inner c .skip, f] fun c => c.incrVersion.cancel)
  | middleware (hphase : f.phase = .running .handler) (hrequest : c.isRequest = true) :
      Does n f c cur .middleware
        (.to [f.inner c .skip, f.goTo .leaving] fun c => c.incrVersion.cancel)
  | look (code : Code) (hphase : f.phase = .running code) :
      Does n f c cur .look
        { frames := [f], marks := [.saw f.call f.obj f.acq c.seen c.actor] }
  | unhandled (hphase : f.phase = .running .handler) :
      Does n f c cur .unhandled (.to [f.goTo .comparing])
  | retHandler (hphase : f.phase = .running .handler) :
      Does n f c cur .ret (.to [f.goTo .deferring])
  | retDefers (hphase : f.phase = .running .defers) :
      Does n f c cur .ret (.to [f.goTo .comparing])
  | retPost (hphase : f.phase = .running .post) :
      Does n f c cur .ret (.to [f.goTo .resetting])
  | fire (hphase : f.phase = .deferring) (hversion : c.version = f.version) :
      Does n f c cur .go (.to [f.goTo (.running .defers)])
  | noFire (hphase : f.phase = .deferring) :
      Does n f c cur .go (.to [f.goTo .comparing])
  | win (hphase : f.phase = .comparing) (hversion : c.version = f.version) :
      Does n f c cur .go
        { frames := [f.goTo (if c.isRequest then .running .post else .resetting)]
          write := Context.clearVersion
          marks := [.won f.obj f.acq cur] }
  | lose (hphase : f.phase = .comparing) (hversion : c.version ≠ f.version) :
      Does n f c cur .go (.to [])
  | reset (hphase : f.phase = .resetting) :
      Does n f c cur .go
        { frames := [f.goTo .putting], write := Context.reset, marks := [.reset f.obj f.acq cur] }
  | put (hphase : f.phase = .putting) :
      Does n f c cur .go { frames := [], put := true, marks := [.put f.obj f.acq cur] }
  | leave (hphase : f.phase = .leaving) : Does n f c cur .go (.to [])

variable {n : Config χ δ ε} {f : Frame χ δ} {c : Context χ δ φ} {cur : ℕ} {choice : Choice}
  {e : Effect χ δ φ}

theorem does_of_runCode
    {code : Code} (hph : f.phase = .running code)
    (h : f.runCode c code choice = some e) : Does n f c cur choice e := by
  cases choice with
  | go => cases h
  | ret =>
    cases code <;> cases h
    · exact .retHandler hph
    · exact .retDefers hph
    · exact .retPost hph
  | unhandled =>
    simp only [runCode] at h
    split at h
    · rename_i hmay
      cases h
      exact .unhandled (hmay.2 ▸ hph)
    · cases h
  | task =>
    cases h
    exact .task code hph
  | next actors =>
    simp only [runCode] at h
    split at h
    · rename_i hmay
      cases h
      exact .hand code hph actors hmay
    · cases h
  | skip =>
    simp only [runCode] at h
    split at h
    · rename_i hreq
      cases h
      exact .skip code hph hreq
    · cases h
  | middleware =>
    simp only [runCode] at h
    split at h
    · rename_i hmay
      cases h
      exact .middleware (hmay.2.2 ▸ hph) hmay.1
    · cases h
  | look =>
    cases h
    exact .look code hph

theorem does_of_effect (h : f.effect n c cur choice = some e) : Does n f c cur choice e := by
  unfold effect at h
  split at h
  · rename_i code hph
    exact does_of_runCode hph h
  · rename_i hph
    split at h
    · rename_i entry hcall
      cases h
      exact .fill entry hcall hph
    · rename_i actor uid message hcall
      cases h
      exact .drop actor uid message hcall hph
    · cases h
  · split at h
    · rename_i hgo
      subst hgo
      split at h
      · rename_i hph
        split at h
        · rename_i entry hcall
          cases h
          exact .queue entry hcall hph
        · cases h
      · rename_i hph
        cases h
        exact .enter hph
      · rename_i hph
        cases h
        exact .load hph
      · rename_i actor rest back hph
        cases h
        exact .store actor rest back hph
      · rename_i actor rest back hph
        cases h
        exact .bump actor rest back hph
      · rename_i actor rest back hph
        cases h
        exact .mail actor rest back hph
      · rename_i hph
        cases h
        split
        · rename_i hver
          exact .fire hph hver
        · exact .noFire hph
      · rename_i hph
        cases h
        unfold recycle
        split
        · rename_i hver
          exact .win hph hver
        rename_i hver
        exact .lose hph hver
      · rename_i hph
        cases h
        exact .reset hph
      · rename_i hph
        cases h
        exact .put hph
      · rename_i hph
        cases h
        exact .leave hph
      · cases h
    · cases h

namespace Mark

def isPut (obj acq : ℕ) : Mark χ δ → Bool
  | put o _ cur => o = obj && cur = acq
  | _ => false

/-- A `compareVersionRecycle` swapped the version when `acq` was the latest acquisition. -/
def isWon (obj acq : ℕ) : Mark χ δ → Bool
  | won o _ cur => o = obj && cur = acq
  | _ => false

end Mark

@[simp] theorem goTo_fields (f : Frame χ δ) (phase : Phase) :
    (f.goTo phase).phase = phase ∧ (f.goTo phase).obj = f.obj ∧ (f.goTo phase).acq = f.acq ∧
      (f.goTo phase).call = f.call ∧ (f.goTo phase).version = f.version :=
  ⟨rfl, rfl, rfl, rfl, rfl⟩

@[simp] theorem Letter.frame_fields (l : Letter) :
    (l.frame : Frame χ δ).obj = l.obj ∧ (l.frame : Frame χ δ).acq = l.acq := by
  unfold Letter.frame
  split <;> exact ⟨rfl, rfl⟩

/-- Whoever has a context after a step of a frame: the frames that take its place, the workers, and
those that what it sends will start. -/
def Effect.holders (e : Effect χ δ φ) : List (Frame χ δ) :=
  e.frames ++ e.workers ++ e.sent.map Letter.frame

namespace Does

variable {n : Config χ δ ε} {f : Frame χ δ} {c : Context χ δ φ} {cur : ℕ} {choice : Choice}
  {e : Effect χ δ φ}

theorem same (h : Does n f c cur choice e) : ∀ g ∈ e.holders, g.obj = f.obj ∧ g.acq = f.acq := by
  cases h <;> simp [Effect.holders, Frame.inner]

theorem marks (h : Does n f c cur choice e) : ∀ m ∈ e.marks,
    m = .won f.obj f.acq cur ∨ m = .reset f.obj f.acq cur ∨ m = .put f.obj f.acq cur ∨
      (∃ actor, m = .handed f.obj f.acq actor) ∨
      m = .saw f.call f.obj f.acq c.seen c.actor := by
  cases h <;> simp

theorem marks_elsewhere (h : Does n f c cur choice e) (obj acq : ℕ)
    (hne : obj = f.obj → acq ≠ cur) :
    e.marks.countP (Mark.isPut obj acq) = 0 ∧ e.marks.countP (Mark.isWon obj acq) = 0 := by
  constructor <;> rw [countP_eq_zero] <;> intro m hm
  · rcases h.marks m hm with rfl | rfl | rfl | ⟨actor, rfl⟩ | rfl <;> simp [Mark.isPut]
    exact fun hobj hacq => hne hobj.symm hacq.symm
  · rcases h.marks m hm with rfl | rfl | rfl | ⟨actor, rfl⟩ | rfl <;> simp [Mark.isWon]
    exact fun hobj hacq => hne hobj.symm hacq.symm

end Does

theorem version_new (entry : Entry χ δ) : (entry.new : Context χ δ φ).version = 0 := by
  unfold Entry.new
  split <;> rfl

namespace State

variable {n : Config χ δ ε} {s s' : State χ δ φ}

def puts (s : State χ δ φ) (obj acq : ℕ) : ℕ := s.log.countP (Mark.isPut obj acq)

def wins (s : State χ δ φ) (obj acq : ℕ) : ℕ := s.log.countP (Mark.isWon obj acq)

def holders (s : State χ δ φ) : List (Frame χ δ) :=
  frames s.threads ++ s.letters.map Letter.frame

inductive Move (n : Config χ δ ε) (s : State χ δ φ) : Act χ δ → State χ δ φ → Prop where
  | act {i : ℕ} {choice : Choice} {t : Thread Role (Frame χ δ)} {f : Frame χ δ}
      {rest others : List (Frame χ δ)} {e : Effect χ δ φ} (ht : s.threads[i]? = some t)
      (hstack : t.stack = f :: rest) (hdoes : Does n f (s.heap f.obj) (s.cur f.obj) choice e)
      (hbefore : s.holders.Perm (f :: others))
      (hafter : (s.apply i t rest f.obj e).holders.Perm (e.holders ++ others)) :
      Move n s (.step i choice) (s.apply i t rest f.obj e)
  | receive {i : ℕ} {chan : Chan} {t : Thread Role (Frame χ δ)} {l : Letter}
      (ht : s.threads[i]? = some t) (hidle : t.stack = []) (hreceives : receives t.role chan = true)
      (hl : l ∈ s.letters) (hchan : l.chan = chan)
      (hsame : (s.received i t l).holders.Perm s.holders) :
      Move n s (.receive i chan) (s.received i t l)
  | reuse (entry : Entry χ δ) (obj : ℕ) (hpool : obj ∈ s.pool)
      (hkind : (s.heap obj).isRequest = entry.isRequest) :
      Move n s (.call entry (some obj)) ({ s with pool := s.pool.erase obj }.acquired entry obj)
  | make (entry : Entry χ δ) :
      Move n s (.call entry none)
        ({ s with
            heap := Function.update s.heap s.made entry.new
            made := s.made + 1 }.acquired entry s.made)

theorem holders_init (actors : ℕ) : (init actors : State χ δ φ).holders = [] := by
  simp [holders, init, frames]

theorem holders_acquired (entry : Entry χ δ) (obj : ℕ) : (s.acquired entry obj).holders.Perm
    (⟨.source entry, obj, s.calls.length, 0, .filling⟩ :: s.holders) := by
  have hfrs : frames (s.acquired entry obj).threads =
      frames s.threads ++ [⟨.source entry, obj, s.calls.length, 0, .filling⟩] := frames_append _ _
  simp only [holders, hfrs, append_assoc]
  exact perm_middle

section Apply

variable {i : ℕ} {t : Thread Role (Frame χ δ)} {f : Frame χ δ} {rest : List (Frame χ δ)}
  {e : Effect χ δ φ}

theorem puts_apply (obj acq : ℕ) : (s.apply i t rest f.obj e).puts obj acq =
    s.puts obj acq + e.marks.countP (Mark.isPut obj acq) := countP_append

theorem wins_apply (obj acq : ℕ) : (s.apply i t rest f.obj e).wins obj acq =
    s.wins obj acq + e.marks.countP (Mark.isWon obj acq) := countP_append

theorem heap_apply_self : (s.apply i t rest f.obj e).heap f.obj = e.write (s.heap f.obj) :=
  Function.update_self ..

theorem heap_apply_of_ne {obj : ℕ} (hne : obj ≠ f.obj) :
    (s.apply i t rest f.obj e).heap obj = s.heap obj :=
  Function.update_of_ne hne ..

theorem mem_pool_apply {obj : ℕ} (h : obj ∈ (s.apply i t rest f.obj e).pool) :
    obj = f.obj ∧ e.put = true ∨ obj ∈ s.pool := by
  have hpool : obj ∈ if e.put then f.obj :: s.pool else s.pool := h
  split at hpool
  · rename_i hput
    exact (mem_cons.mp hpool).imp_left fun hobj => ⟨hobj, hput⟩
  · exact .inr hpool

end Apply

theorem move_act {i : ℕ} {choice : Choice} {t : Thread Role (Frame χ δ)} {f : Frame χ δ}
    {rest : List (Frame χ δ)} {e : Effect χ δ φ} (ht : s.threads[i]? = some t)
    (hstk : t.stack = f :: rest)
    (he : f.effect n (s.heap f.obj) (s.cur f.obj) choice = some e) :
    Move n s (.step i choice) (s.apply i t rest f.obj e) := by
  obtain ⟨others, hbef, haft⟩ := frames_set [f] rest ht hstk
  refine .act ht hstk (does_of_effect he) (hbef.append_right _) ?_
  have hfrs : (frames (s.apply i t rest f.obj e).threads).Perm
      (e.frames ++ e.workers ++ others) := by
    simp only [apply, frames_append, frames_singletons, append_assoc]
    have hset := (haft e.frames).append_right e.workers
    rw [append_assoc] at hset
    exact hset.trans (perm_append_comm.append_left e.frames)
  have hlet : (s.apply i t rest f.obj e).letters.map (Letter.frame (χ := χ) (δ := δ)) =
      s.letters.map Letter.frame ++ e.sent.map Letter.frame := map_append
  rw [holders, hlet, Effect.holders]
  refine (hfrs.append_right _).trans ?_
  simp only [append_assoc]
  refine (perm_append_left_iff _).mpr ((perm_append_left_iff _).mpr ?_)
  rw [← append_assoc]
  exact perm_append_comm

theorem move_of_next {act : Act χ δ} (h : s.next n act = some s') : Move n s act s' := by
  cases act with
  | step =>
    obtain ⟨t, ht, h⟩ := Option.bind_eq_some_iff.mp h
    split at h
    · cases h
    rename_i f rest hstk
    obtain ⟨e, he, h⟩ := Option.bind_eq_some_iff.mp h
    cases h
    exact move_act ht hstk he
  | receive i chan =>
    obtain ⟨t, ht, h⟩ := Option.bind_eq_some_iff.mp h
    split at h
    · cases h
    rename_i hidle
    split at h
    · rename_i hrec
      obtain ⟨l, hl, h⟩ := Option.bind_eq_some_iff.mp h
      cases h
      have hchan : l.chan = chan := by simpa using find?_some hl
      have hmem : l ∈ s.letters := mem_of_find?_eq_some hl
      refine .receive ht hidle hrec hmem hchan ?_
      -- the frame that starts stands for the letter that is taken
      obtain ⟨others, hbef, haft⟩ := frames_set [] [] ht hidle
      have hfrs : (frames (s.received i t l).threads).Perm (l.frame :: frames s.threads) :=
        (haft [l.frame]).trans (hbef.symm.cons _)
      have hlet := (perm_cons_erase hmem).map (Letter.frame (χ := χ) (δ := δ))
      exact (hfrs.append_right _).trans
        (perm_middle.symm.trans (hlet.symm.append_left _))
    · cases h
  | call entry obj =>
    simp only [next] at h
    split at h
    · obtain ⟨⟨o, s₁⟩, hget, h⟩ := Option.bind_eq_some_iff.mp h
      cases h
      cases obj with
      | none =>
        cases hget
        exact .make entry
      | some =>
        simp only [get] at hget
        split at hget
        · rename_i hpool
          cases hget
          exact .reuse entry _ hpool.1 hpool.2
        · cases hget
    · cases h

end State

end DueServer.Node
