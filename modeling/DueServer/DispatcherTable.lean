import DueServer.DispatcherModel

/-! The table that `ReplaceServices` makes, and the turns a route takes (`internal/dispatcher`). -/
namespace DueServer.Dispatch

open List

variable {route : Int32} {es : List ServiceEndpoint}

/-- The endpoints of an instance for a route, one for each time it is listed. -/
def ServiceInstance.offers (route : Int32) (s : ServiceInstance) : List ServiceEndpoint :=
  s.endpoint.toList.flatMap fun address =>
    s.routes.flatMap fun item => if item.id = route then [⟨s.id, s.state, address, s.weight, 0⟩]
      else []

/-- The endpoints `es` and no others, in their order. -/
structure Abstract.Holds (a : Abstract) (es : List ServiceEndpoint) : Prop where
  work : a.endpoints1 = es.filter (·.state = .work)
  busy : a.endpoints2 = es.filter (·.state = .busy)
  hang : a.endpoints3 = es.filter (·.state = .hang)
  shut : a.endpoints4 = es.filter (·.state = .shut)
  direct : ∀ insID, a.endpoints5.lookup insID = (es.filter (·.insID = insID)).getLast?

def Exact (es : List ServiceEndpoint) : Option Route → Prop
  | none => es = []
  | some r => es ≠ [] ∧ r.Holds es

theorem Abstract.Holds.add {a : Abstract} (h : a.Holds es) (se : ServiceEndpoint) :
    (a.addServiceEndpoint se).Holds (es ++ [se]) := by
  obtain ⟨hwork, hbusy, hhang, hshut, hdir⟩ := h
  have hlast (insID : String) : (a.endpoints5.insert se.insID se).lookup insID =
      ((es ++ [se]).filter (·.insID = insID)).getLast? := by
    by_cases h : se.insID = insID
    · subst h
      simp
    · simp [AList.lookup_insert_ne (Ne.symm h), h, hdir]
  unfold addServiceEndpoint
  -- an endpoint joins the list of its state, and every list takes it as its filter does
  cases hs : se.state <;> refine ⟨?_, ?_, ?_, ?_, hlast⟩ <;>
    simp [hs, hwork, hbusy, hhang, hshut]

theorem Exact.addService {d : Dispatcher} (h : Exact es (d.findRoute route)) (s : ServiceInstance) :
    Exact (es ++ s.offers route) ((d.addService s).findRoute route) := by
  unfold Dispatcher.addService ServiceInstance.offers
  cases s.endpoint with
  | none => simpa using h
  | some address =>
    simp only [Dispatcher.findRoute, Option.toList, flatMap_singleton] at *
    generalize d.routes = routes at *
    induction s.routes generalizing routes es with
    | nil => simpa using h
    | cons item items ih =>
      rw [flatMap_cons, ← append_assoc]
      apply ih
      split_ifs with hid
      · subst hid
        rw [Dispatcher.addRoute, AList.lookup_insert]
        refine ⟨by simp, .add ?_ _⟩
        cases hr : routes.lookup item.id with
        | none =>
          rw [hr] at h
          obtain rfl : es = [] := h
          exact ⟨rfl, rfl, rfl, rfl, fun _ => rfl⟩
        | some r =>
          rw [hr] at h
          exact h.2
      · rwa [Dispatcher.addRoute, AList.lookup_insert_ne (Ne.symm hid), append_nil]

/-- A route exists if an instance offers it, and nothing is left of the table before. -/
theorem replaceServices_exact (d : Dispatcher) (services : List ServiceInstance) (route : Int32) :
    Exact (services.flatMap (·.offers route)) ((d.replaceServices services).findRoute route) := by
  have hfold (d : Dispatcher) (es) (h : Exact es (d.findRoute route)) : Exact
      (es ++ services.flatMap (·.offers route))
        ((services.foldl Dispatcher.addService d).findRoute route) := by
    induction services generalizing d es with
    | nil => simpa using h
    | cons s services ih =>
      rw [flatMap_cons, ← append_assoc]
      exact ih _ _ (h.addService s)
  exact hfold _ [] rfl

/-- The addresses to choose from: those of the busy instances only if none works. -/
def Route.serving (r : Route) : List String :=
  (if r.endpoints1 = [] then r.endpoints2 else r.endpoints1).map (·.endpoint)

namespace Route

variable {r : Route}

theorem roundRobin_eq (c : UInt64) (rand : ℕ) :
    findEndpoint { r with counter := c } .roundRobin rand "" =
    (r.serving[(c + 1).toNat % r.serving.length]?,
      { r with counter := if r.serving = [] then c else c + 1 }) := by
  simp only [findEndpoint, roundRobinDispatch, serving]
  by_cases hwork : r.endpoints1 = []
  · by_cases hbusy : r.endpoints2 = []
    · simp [hwork, hbusy]
    · simp [hwork, hbusy, pick]
  · simp [hwork, pick]

/-- The selections take the endpoints in turn, as long as the counter does not start again. -/
theorem roundRobin_in_turn (r : Route) (rands : List ℕ) (rand : ℕ) :
    ((r.after .roundRobin rands).findEndpoint .roundRobin rand "").1 =
      r.serving[(r.counter + UInt64.ofNat rands.length + 1).toNat % r.serving.length]? := by
  have hafter : ∃ c, r.after .roundRobin rands = { r with counter := c } ∧
      (r.serving ≠ [] → c = r.counter + UInt64.ofNat rands.length) := by
    induction rands with
    | nil => exact ⟨r.counter, rfl, by simp⟩
    | cons rand rands ih =>
      obtain ⟨c, hc, hct⟩ := ih
      rw [after, hc, roundRobin_eq]
      refine ⟨_, rfl, fun hne => ?_⟩
      rw [if_neg hne, hct hne, length_cons, UInt64.ofNat_add, UInt64.add_assoc]
      rfl
  obtain ⟨c, hc, hct⟩ := hafter
  rw [hc, roundRobin_eq]
  by_cases hne : r.serving = []
  · simp [hne]
  · rw [hct hne]

end Route

end DueServer.Dispatch
