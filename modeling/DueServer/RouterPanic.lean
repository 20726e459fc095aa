import DueServer.RouterModel

/-! Panics of handlers and middlewares. On a route without middlewares `xcall.Call` recovers them
and the request is finished as usual; `Middleware.Next` is called without it. -/
namespace DueServer.Routing

open Node (Request)

variable {χ δ μ ε : Type}

namespace Outcome

variable (out : Outcome χ δ μ ε)

def fired : List ℕ := out.scene.log.filterMap Event.firedId

def handedOn : Bool := out.scene.log.any Event.isHandedOn

def recycled : ℕ := out.scene.log.countP Event.isRecycled

end Outcome

namespace Router

variable (r : Router μ)

def middlewares (route : Int32) : List μ :=
  r.requestMiddlewares ++ ((r.routes route).map Options.middlewares).getD []

def plain : Router μ :=
  { r with
    requestMiddlewares := []
    routes := fun route => (r.routes route).map fun options => { options with middlewares := [] } }

/-- The panic of `culprit` stays within `handle`, the functions deferred are those that run when
`culprit` is the handler of a route without middlewares, and the request is recycled once unless it
was handed on. -/
structure Isolates (current : ℤ → Except ε (Option Token)) (pre code : Code)
    (req : Request χ δ Deferred) (culprit : Code) : Prop where
  returns : (r.handle current pre code req).escaped = false
  fired : (r.handle current pre code req).fired = (r.plain.handle current pre culprit req).fired
  recycled : (r.handle current pre code req).handedOn = false →
    (r.handle current pre code req).recycled = 1

end Router

theorem exec_nil_skip (n : ℤ) (inner : Code) (recovers : Bool) (rest self : Code)
    {s : Scene χ δ μ ε} (hs : 0 ≤ s.index) :
    exec [] self (.skip n inner recovers rest) s = exec [] self rest s := by
  exact if_pos hs

theorem exec_nil_culprit (code : Code) : ∀ (self : Code) {s : Scene χ δ μ ε}, 0 ≤ s.index →
    ∀ {c : Code}, (exec [] self code s).2 = some c → c = self := by
  induction code with
  | ret => exact fun _ _ _ _ h => nomatch h
  | panic => exact fun _ _ _ _ h => (Option.some.inj h).symm
  | defer f bottom rest ih =>
    intro self s hs c h
    have hs' : 0 ≤ (s.addDefer f bottom).index := hs
    exact ih self hs' h
  | cancel rest ih =>
    intro self s hs c h
    have hs' : 0 ≤ s.cancel.index := hs
    exact ih self hs' h
  | handOn rest ih =>
    intro self s hs c h
    have hs' : 0 ≤ s.handOn.index := hs
    exact ih self hs' h
  | skip n inner recovers rest _ ih =>
    intro self s hs c h
    rw [exec_nil_skip n inner recovers rest self hs] at h
    exact ih self hs h

/-- The request has its version, unless it was handed on, and is not recycled yet. There is no
`Middleware` to call. -/
structure Intact (version : Int32) (s : Scene χ δ μ ε) : Prop where
  version : s.req.version = version ∨ s.log.any Event.isHandedOn = true
  recycled : s.log.countP Event.isRecycled = 0
  index : 0 ≤ s.index

namespace Intact

variable {version : Int32} {s : Scene χ δ μ ε}

section

variable (h : Intact version s)

include h

theorem record {e : Event μ ε} (he : e.isRecycled = false) : Intact version (s.record e) where
  version := by
    refine h.version.imp_right fun hhan => ?_
    rw [Scene.record, List.any_append, hhan, Bool.true_or]
  recycled := by
    have hct : [e].countP Event.isRecycled = 0 := by
      rw [List.countP_singleton, he]
      rfl
    rw [Scene.record, List.countP_append, h.recycled, hct]
  index := h.index

theorem addDefer (f : Deferred) (bottom : Bool) :
    Intact version (s.addDefer f bottom) := ⟨h.version, h.recycled, h.index⟩

theorem cancel : Intact version s.cancel := ⟨h.version, h.recycled, h.index⟩

theorem handOn : Intact version s.handOn where
  version := by
    apply Or.inr
    rw [Scene.handOn, Scene.record, List.any_append]
    exact Bool.or_true _
  recycled := by
    rw [Scene.handOn, Scene.record, List.countP_append]
    exact h.recycled
  index := h.index

theorem runDeferred (f : Deferred) : Intact version (s.runDeferred f) := by
  rw [Scene.runDeferred]
  split
  · exact (h.record rfl).handOn
  · exact h.record rfl

theorem fireHead : Intact version s.fireHead := by
  have hfold : ∀ (fs : List Deferred) {s : Scene χ δ μ ε}, Intact version s →
      Intact version (fs.foldl Scene.runDeferred s) := by
    intro fs
    induction fs with
    | nil => exact fun h => h
    | cons f fs ih => exact fun h => ih (h.runDeferred f)
  have hfir := hfold (s.req.chain.getD []) h
  exact ⟨hfir.version, hfir.recycled, hfir.index⟩

end

theorem exec (code : Code) : ∀ (self : Code) {s : Scene χ δ μ ε}, Intact version s →
    Intact version (exec [] self code s).1 := by
  induction code with
  | ret | panic => exact fun _ _ h => h
  | defer f bottom rest ih => exact fun self _ h => ih self (h.addDefer f bottom)
  | cancel rest ih => exact fun self _ h => ih self h.cancel
  | handOn rest ih => exact fun self _ h => ih self h.handOn
  | skip n inner recovers rest _ ih =>
    intro self s h
    have hskip : Routing.exec [] self (.skip n inner recovers rest) s =
      Routing.exec [] self rest s :=
      exec_nil_skip n inner recovers rest self h.index
    rw [hskip]
    exact ih self h

theorem finish (h : Intact version s) : (s.finish version).log.any Event.isHandedOn = true ∨
      (s.finish version).log.countP Event.isRecycled = 1 := by
  have hdef : Intact version (s.compareVersionExecDefer version) := by
    rw [Scene.compareVersionExecDefer]
    split
    · exact h.fireHead
    · exact h
  rw [Scene.finish, Scene.compareVersionRecycle]
  split
  · apply Or.inr
    rw [Scene.record, List.countP_append]
    change (s.compareVersionExecDefer version).log.countP Event.isRecycled + 1 = 1
    rw [hdef.recycled]
  rename_i hver
  exact .inl (hdef.version.resolve_left hver)

end Intact

namespace Router

variable (r : Router μ) {current : ℤ → Except ε (Option Token)} {pre code : Code}
  {req : Request χ δ Deferred}

theorem intact_before {version : Int32} {s : Scene χ δ μ ε} (h : Intact version s) :
    Intact version (r.before pre s) := by
  rw [before]
  split
  · exact (h.record rfl).exec pre pre
  · exact h

theorem exists_serve {c : Code} (hpan : (r.handle current pre code req).culprit = some c) :
    ∃ s : Scene χ δ μ ε, Intact (req.version + 1) s ∧
      r.handle current pre code req =
        r.serve (((r.routes req.message.route).map Options.middlewares).getD []) pre code
          (req.version + 1) s := by
  have hinta : ∀ log : List (Event μ ε), log.countP Event.isRecycled = 0 →
      Intact (req.version + 1) (⟨req.incrVersion, 0, log⟩ : Scene χ δ μ ε) :=
    fun log hlog => ⟨.inl rfl, hlog, le_rfl⟩
  have hchk : ∀ route : Options μ,
      (r.validateSession req.incrVersion route current).1.countP Event.isRecycled = 0 := by
    intro route
    rw [validateSession]
    split
    · rfl
    split
    · rfl
    · rfl
  rw [handle] at hpan ⊢
  cases hrt : r.routes req.message.route with
  | none =>
    simp only [hrt] at hpan ⊢
    split at hpan
    · rename_i hdef
      rw [if_pos hdef]
      exact ⟨_, hinta [] rfl, rfl⟩
    · cases hpan
  | some route =>
    simp only [hrt] at hpan ⊢
    split at hpan
    · cases hpan
    · exact ⟨_, hinta _ (hchk route), rfl⟩

theorem serve_escaped (pre code : Code) {ms : List μ} (hms : r.requestMiddlewares ++ ms ≠ [])
    (version : Int32) (s : Scene χ δ μ ε) :
    (r.serve ms pre code version s).escaped = (r.serve ms pre code version s).culprit.isSome := by
  have hem : (r.requestMiddlewares ++ ms).isEmpty = false := by
    rw [List.isEmpty_eq_false_iff]
    exact hms
  simp only [serve, hem]
  rfl

theorem serve_nil (pre code : Code) {ms : List μ} (hms : r.requestMiddlewares ++ ms = [])
    (version : Int32) (s : Scene χ δ μ ε) :
    r.serve ms pre code version s =
      ⟨(exec [] code code ((r.before pre s).record .handler)).1.finish version,
        (exec [] code code ((r.before pre s).record .handler)).2, false⟩ := by
  simp only [serve, hms]
  rfl

theorem plain_handle (hms : r.middlewares req.message.route = []) :
    r.plain.handle current pre code req = r.handle current pre code req := by
  obtain ⟨hglo, hloc⟩ := List.append_eq_nil_iff.mp hms
  have hrou : r.plain.routes req.message.route = r.routes req.message.route := by
    change (r.routes req.message.route).map _ = _
    cases hrt : r.routes req.message.route with
    | none => rfl
    | some route =>
      rw [hrt] at hloc
      have hsame : { route with middlewares := [] } = route := by
        rw [← show route.middlewares = [] from hloc]
      exact congrArg some hsame
  have hser : ∀ (ms : List μ) (version : Int32) (s : Scene χ δ μ ε),
      r.plain.serve ms pre code version s = r.serve ms pre code version s := by
    intro ms version s
    rw [serve, serve, hglo]
    rfl
  rw [handle, handle, hrou]
  cases r.routes req.message.route with
  | none | some route =>
    simp only [hser]
    rfl

end Router

/-- A panic that the application does not recover itself is isolated exactly on routes to which no
middleware applies, global or of the group or the route. -/
theorem panic_isolated_iff (r : Router μ) (current : ℤ → Except ε (Option Token)) (pre code : Code)
    (req : Request χ δ Deferred) (c : Code)
    (hpanic : (r.handle current pre code req).culprit = some c) :
    r.Isolates current pre code req c ↔ r.middlewares req.message.route = [] := by
  obtain ⟨s, hs, hser⟩ := r.exists_serve hpanic
  constructor
  · intro h
    by_contra hms
    have hesc := r.serve_escaped pre code hms (req.version + 1) s
    rw [← hser, hpanic, h.returns] at hesc
    cases hesc
  · intro hms
    have hent : Intact (req.version + 1) ((r.before pre s).record .handler) :=
      (r.intact_before hs).record rfl
    have hnil := r.serve_nil pre code hms (req.version + 1) s
    rw [← hser] at hnil
    have hc : c = code := by
      rw [hnil] at hpanic
      exact exec_nil_culprit code code hent.index hpanic
    refine ⟨by rw [hnil], ?_, ?_⟩
    · rw [hc, r.plain_handle hms]
    · intro hhan
      rw [hnil] at hhan
      rw [hnil]
      rcases (hent.exec code code).finish with h | h
      · cases h.symm.trans hhan
      · exact h

def middlewareRouter (middlewares : List ℕ) : Router ℕ :=
  Router.addRouteHandler ⟨fun _ => none, [], false, false, false⟩ 1 ⟨false, middlewares⟩

def routedRequest : Request ℕ ℕ Deferred :=
  { (Request.new : Request ℕ ℕ Deferred) with message := ⟨1, 1, none⟩ }

def noStore (_ : ℤ) : Except Unit (Option Token) := .ok none

/-- The handler defers a function and panics. On a route without middlewares the function runs, the
request is recycled and `handle` returns. -/
theorem handler_panic_isolated :
    let code : Code := .defer ⟨1, false⟩ false .panic
    (middlewareRouter []).Isolates noStore .ret code routedRequest code :=
  (panic_isolated_iff (middlewareRouter []) noStore .ret (.defer ⟨1, false⟩ false .panic)
    routedRequest (.defer ⟨1, false⟩ false .panic) rfl).mpr rfl

/-- A middleware that only calls `Next` lets the panic of the same handler through to the loop. -/
theorem middleware_panic_escapes :
    ¬∀ (r : Router ℕ) (current : ℤ → Except Unit (Option Token)) (pre code : Code)
        (req : Request ℕ ℕ Deferred) (c : Code),
      (r.handle current pre code req).culprit = some c → r.Isolates current pre code req c := by
  intro hall
  have h := hall (middlewareRouter [7]) noStore .ret
    (.skip 1 (.defer ⟨1, false⟩ false .panic) false .ret) routedRequest
    (.defer ⟨1, false⟩ false .panic) rfl
  cases h.returns

end DueServer.Routing
