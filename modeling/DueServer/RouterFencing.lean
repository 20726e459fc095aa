import DueServer.RouterModel

/-! The check of the session comes before all code of the application: a stateful route runs for a
request of a gate only if its token is current. -/
namespace DueServer.Routing

open Node (Request)
open List

variable {χ δ μ ε : Type}

structure Admitted (req : Request χ δ Deferred) (current : ℤ → Except ε (Option Token)) : Prop where
  uid : 0 < req.uid
  token : req.token.uid = req.uid
  generation : req.token.generation ≠ 0
  current : current req.uid = .ok (some req.token)

namespace Scene

def Extends (s t : Scene χ δ μ ε) : Prop := s.log <+: t.log

theorem Extends.refl (s : Scene χ δ μ ε) : s.Extends s := prefix_rfl

theorem Extends.trans {s t u : Scene χ δ μ ε} (h : s.Extends t) (h' : t.Extends u) :
    s.Extends u := IsPrefix.trans h h'

variable (s : Scene χ δ μ ε)

theorem extends_record (e : Event μ ε) : s.Extends (s.record e) := prefix_append _ _

theorem extends_handOn : s.Extends s.handOn := prefix_append _ _

theorem extends_runDeferred (f : Deferred) : s.Extends (s.runDeferred f) := by
  rw [runDeferred]
  split
  · exact (s.extends_record _).trans (extends_handOn _)
  · exact s.extends_record _

theorem extends_fireHead : s.Extends s.fireHead := by
  have hfold : ∀ (fs : List Deferred) (s : Scene χ δ μ ε), s.Extends (fs.foldl runDeferred s) := by
    intro fs
    induction fs with
    | nil => exact Extends.refl
    | cons f fs ih =>
      intro s
      exact (s.extends_runDeferred f).trans (ih _)
  exact hfold _ s

theorem extends_compareVersionExecDefer (version : Int32) :
    s.Extends (s.compareVersionExecDefer version) := by
  rw [compareVersionExecDefer]
  split
  · exact s.extends_fireHead
  · exact Extends.refl s

theorem compareVersionRecycle_log {version : Int32} (h : s.req.version = version) :
    (s.compareVersionRecycle version).log = s.log ++ [.recycled] := by
  rw [compareVersionRecycle, if_pos h]
  rfl

theorem extends_compareVersionRecycle (version : Int32) :
    s.Extends (s.compareVersionRecycle version) := by
  rw [compareVersionRecycle]
  split
  · exact prefix_append _ _
  · exact Extends.refl s

theorem extends_finish (version : Int32) : s.Extends (s.finish version) :=
  (s.extends_compareVersionExecDefer version).trans (extends_compareVersionRecycle _ version)

end Scene

open Scene

theorem extends_reach (ms : List μ) (self : Code)
    {run : Scene χ δ μ ε → Scene χ δ μ ε × Option Code}
    (hrun : ∀ s : Scene χ δ μ ε, s.Extends (run s).1) (s : Scene χ δ μ ε) :
      s.Extends (reach ms self run s).1 := by
  rw [reach]
  split
  · exact (s.extends_record _).trans (hrun _)
  · exact Extends.refl s

theorem extends_exec (ms : List μ) (code : Code) : ∀ (self : Code) (s : Scene χ δ μ ε),
    s.Extends (exec ms self code s).1 := by
  induction code with
  | ret | panic => exact fun _ s => Extends.refl s
  | defer f bottom rest ih => exact fun self s => ih self (s.addDefer f bottom)
  | cancel rest ih => exact fun self s => ih self s.cancel
  | handOn rest ih => exact fun self s => s.extends_handOn.trans (ih self s.handOn)
  | skip n inner recovers rest ihinner ih =>
    intro self s
    -- the call of `Skip`, up to the end of its deferred function
    have hleft : s.Extends ((reach ms self (exec ms inner inner) (s.enter n)).1.finish
        (s.enter n).req.version) :=
      (extends_reach ms self (ihinner inner) (s.enter n)).trans (extends_finish _ _)
    simp only [exec]
    split
    · exact ih self s
    split
    · exact hleft
    · exact hleft.trans (ih self _)

namespace Router

variable (r : Router μ)

theorem extends_before (pre : Code) (s : Scene χ δ μ ε) : s.Extends (r.before pre s) := by
  rw [before]
  split
  · exact (s.extends_record _).trans (extends_exec _ pre pre _)
  · exact Extends.refl s

theorem extends_serve (middlewares : List μ) (pre code : Code) (version : Int32)
    (s : Scene χ δ μ ε) : s.Extends (r.serve middlewares pre code version s).scene := by
  refine (r.extends_before pre s).trans ?_
  simp only [serve]
  split
  · exact ((extends_record _ _).trans (extends_exec _ code code _)).trans (extends_finish _ _)
  have hnext := extends_exec (r.requestMiddlewares ++ middlewares) (.skip 1 code false .ret) .ret
    { r.before pre s with index := -1 }
  exact hnext

variable {r} {current : ℤ → Except ε (Option Token)} {req : Request χ δ Deferred}
  {route : Options μ}

structure Fenced (r : Router μ) (req : Request χ δ Deferred) (route : Options μ) : Prop where
  stateful : route.stateful = true
  gid : req.gid ≠ ""
  store : r.ownershipStore = true

section

variable (h : r.Fenced req route)

include h

theorem validateSession_eq : r.validateSession req route current =
      if req.uid ≤ 0 ∨ req.token.uid ≠ req.uid ∨ req.token.generation = 0 then
        ([], .error .errStaleSession)
      else
        ([.checked req.uid (current req.uid)],
          match current req.uid with
          | .error err => .error (.store err)
          | .ok none => .error .errStaleSession
          | .ok (some token) => if token = req.token then .ok () else .error .errStaleSession) := by
  have hche : ¬((!route.stateful) = true ∨ req.gid = "" ∨ (!r.ownershipStore) = true) := by
    simp [h.stateful, h.gid, h.store]
  exact if_neg hche

theorem validateSession_admitted (hadm : Admitted req current) :
    r.validateSession req route current =
      ([.checked req.uid (current req.uid)], .ok ()) := by
  rw [validateSession_eq h, if_neg]
  · simp [hadm.current]
  · rintro (huid | htok | hgen)
    · exact absurd hadm.uid (not_lt.mpr huid)
    · exact htok hadm.token
    · exact hadm.generation hgen

theorem validateSession_rejected (hadm : ¬Admitted req current) :
    ∃ err, (r.validateSession req route current).2 = .error err := by
  rw [validateSession_eq h]
  split
  · exact ⟨_, rfl⟩
  rename_i hval
  obtain ⟨huid, htok, hgen⟩ := not_or.mp hval |>.imp_right not_or.mp
  cases hcur : current req.uid with
  | error err => exact ⟨_, rfl⟩
  | ok found =>
    cases found with
    | none => exact ⟨_, rfl⟩
    | some token =>
      by_cases heq : token = req.token
      · subst heq
        exact absurd ⟨not_le.mp huid, not_not.mp htok, hgen, hcur⟩ hadm
      · exact ⟨_, if_neg heq⟩

theorem validateSession_log (current : ℤ → Except ε (Option Token)) :
    ∀ e ∈ (r.validateSession req route current).1, e.isCode = false ∧ e.isRecycled = false := by
  rw [validateSession_eq h]
  split
  · exact fun e he => nomatch he
  intro e he
  rw [mem_singleton.mp he]
  exact ⟨rfl, rfl⟩

end

section

variable (pre code : Code) (hroute : r.routes req.message.route = some route)
  (h : r.Fenced req route)

include pre code hroute h

theorem handle_rejected (hadm : ¬Admitted req current) : (r.handle current pre code req).scene.log =
      (r.validateSession req route current).1 ++ [.recycled] := by
  obtain ⟨err, herr⟩ := validateSession_rejected h hadm
  have hsame : r.validateSession req.incrVersion route current =
      r.validateSession req route current := rfl
  simp only [handle, hroute, hsame, herr]
  exact Scene.compareVersionRecycle_log _ rfl

theorem handle_admitted (hadm : Admitted req current) :
    ∃ rest, (r.handle current pre code req).scene.log =
      .checked req.uid (current req.uid) :: rest := by
  have hsame : r.validateSession req.incrVersion route current =
      ([.checked req.uid (current req.uid)], .ok ()) := by
    exact (validateSession_admitted h hadm :)
  simp only [handle, hroute, hsame]
  obtain ⟨rest, hrest⟩ := r.extends_serve route.middlewares pre code (req.version + 1)
    ⟨req.incrVersion, 0, [.checked req.uid (current req.uid)]⟩
  exact ⟨rest, hrest.symm⟩

end

end Router

/-- Of a registered stateful route no pre-route handler, middleware or handler runs for a request of
a gate, and the request is not handed on, unless its token is valid and equalled the current one at
the check that came first in the same call. A rejected request runs none of them and is recycled
exactly once. -/
theorem stateful_route_fenced (r : Router μ) (current : ℤ → Except ε (Option Token))
    (pre code : Code) (req : Request χ δ Deferred) (route : Options μ)
    (hroute : r.routes req.message.route = some route) (h : r.Fenced req route) :
    let log := (r.handle current pre code req).scene.log
    ((∃ e ∈ log, e.isCode = true) →
        Admitted req current ∧ log.head? = some (.checked req.uid (current req.uid))) ∧
      (¬Admitted req current →
        (∀ e ∈ log, e.isCode = false) ∧ log.countP Event.isRecycled = 1) := by
  intro log
  have hrej : ¬Admitted req current →
      (∀ e ∈ log, e.isCode = false) ∧ log.countP Event.isRecycled = 1 := by
    intro hadm
    have hlog : log = (r.validateSession req route current).1 ++ [.recycled] :=
      Router.handle_rejected pre code hroute h hadm
    have hchk := Router.validateSession_log h current
    rw [hlog]
    refine ⟨fun e he => ?_, ?_⟩
    · rcases mem_append.mp he with he | he
      · exact (hchk e he).1
      · rw [mem_singleton.mp he]
        rfl
    · have hnone : (r.validateSession req route current).1.countP Event.isRecycled = 0 :=
        countP_eq_zero.mpr fun e he => Bool.eq_false_iff.mp (hchk e he).2
      rw [countP_append, hnone]
      rfl
  refine ⟨?_, hrej⟩
  rintro ⟨e, he, hcode⟩
  by_cases hadm : Admitted req current
  · obtain ⟨rest, hrest⟩ := Router.handle_admitted pre code hroute h hadm
    refine ⟨hadm, ?_⟩
    change (r.handle current pre code req).scene.log.head? = _
    rw [hrest]
    rfl
  · cases ((hrej hadm).1 e he).symm.trans hcode

def fencedRouter : Router ℕ :=
  Router.addRouteHandler ⟨fun _ => none, [], false, true, true⟩ 9101 ⟨true, [7]⟩

def staleRequest : Request ℕ ℕ Deferred :=
  { (Request.new : Request ℕ ℕ Deferred) with
    gid := "gate-1"
    uid := 1001
    token := ⟨1001, 1⟩
    message := ⟨1, 9101, none⟩ }

def secondGeneration (uid : ℤ) : Except Unit (Option Token) := .ok (some ⟨uid, 2⟩)

theorem staleRequest_not_admitted : ¬Admitted staleRequest secondGeneration :=
  fun h => absurd h.current (by decide)

/-- The request is checked and recycled. -/
theorem staleRequest_fenced :
    let log := (fencedRouter.handle secondGeneration .ret .ret staleRequest).scene.log
    (∀ e ∈ log, e.isCode = false) ∧ log.countP Event.isRecycled = 1 :=
  (stateful_route_fenced fencedRouter secondGeneration .ret .ret staleRequest ⟨true, [7]⟩ rfl
    ⟨rfl, by decide, rfl⟩).2 staleRequest_not_admitted

end DueServer.Routing
