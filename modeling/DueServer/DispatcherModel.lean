import Mathlib.Data.List.AList

/-! `internal/dispatcher`: the routes and endpoints of the registered service instances, and the
strategies that choose an instance for a route. Events are left out. -/
namespace DueServer.Dispatch

/-- `cluster.State` as the registry tells it; `other` is any text that is not the name of a
state. -/
inductive State where
  | work
  | busy
  | hang
  | shut
  | other
deriving DecidableEq

structure RouteInfo where
  id : Int32
  internal : Bool
  stateful : Bool
  authorized : Bool
deriving DecidableEq

structure ServiceInstance where
  id : String
  insAlias : String
  state : State
  /-- the address of the endpoint, if `ParseEndpoint` accepts it -/
  endpoint : Option String
  weight : ℤ
  routes : List RouteInfo
deriving DecidableEq

inductive Strategy where
  | random
  | roundRobin
  | weightRoundRobin
deriving DecidableEq

structure ServiceEndpoint where
  insID : String
  state : State
  endpoint : String
  weight : ℤ
  currWeight : ℤ := 0
deriving DecidableEq

structure Abstract where
  endpoints1 : List ServiceEndpoint := []
  endpoints2 : List ServiceEndpoint := []
  endpoints3 : List ServiceEndpoint := []
  endpoints4 : List ServiceEndpoint := []
  endpoints5 : AList (fun _ : String => ServiceEndpoint) := ∅

def Abstract.addServiceEndpoint (a : Abstract) (se : ServiceEndpoint) : Abstract :=
  let a := { a with endpoints5 := a.endpoints5.insert se.insID se }
  match se.state with
  | .work => { a with endpoints1 := a.endpoints1 ++ [se] }
  | .busy => { a with endpoints2 := a.endpoints2 ++ [se] }
  | .hang => { a with endpoints3 := a.endpoints3 ++ [se] }
  | .shut => { a with endpoints4 := a.endpoints4 ++ [se] }
  | .other => a

structure Route extends Abstract where
  route : RouteInfo
  group : String
  counter : UInt64 := 0

/-- The loop of `weightRoundRobinDispatch`: the endpoints with their new weights, the sum of the
weights, and the first of the heaviest endpoints with its weight. -/
structure Weighing where
  endpoints : List ServiceEndpoint := []
  totalWeight : ℤ := 0
  selected : Option (ℕ × ℤ) := none

def Weighing.visit (w : Weighing) (se : ServiceEndpoint) : Weighing where
  endpoints := w.endpoints ++ [{ se with currWeight := se.currWeight + se.weight }]
  totalWeight := w.totalWeight + se.weight
  selected :=
    match w.selected with
    | none => some (w.endpoints.length, se.currWeight + se.weight)
    | some (i, weight) =>
      if se.currWeight + se.weight > weight then
        some (w.endpoints.length, se.currWeight + se.weight)
      else some (i, weight)

def weigh (endpoints : List ServiceEndpoint) : Option (String × List ServiceEndpoint) := do
  let w := endpoints.foldl Weighing.visit {}
  let (i, _) ← w.selected
  let se ← w.endpoints[i]?
  return (se.endpoint, w.endpoints.set i { se with currWeight := se.currWeight - w.totalWeight })

namespace Route

variable (r : Route)

def new (group : String) (route : RouteInfo) : Route := { route := route, group := group }

def directDispatch (insID : String) : Option String := (r.endpoints5.lookup insID).map (·.endpoint)

def pick (index : ℕ → ℕ) : Option String :=
  if 0 < r.endpoints1.length then
    (r.endpoints1[index r.endpoints1.length]?).map (·.endpoint)
  else if 0 < r.endpoints2.length then
    (r.endpoints2[index r.endpoints2.length]?).map (·.endpoint)
  else none

/-- `rand` is what `rand.IntN` is drawn from. -/
def randomDispatch (rand : ℕ) : Option String := r.pick fun n => rand % n

def roundRobinDispatch : Option String × Route :=
  if r.endpoints1.length = 0 ∧ r.endpoints2.length = 0 then (none, r)
  else
    (r.pick fun n => (r.counter + 1).toNat % n, { r with counter := r.counter + 1 })

def weightRoundRobinDispatch : Option String × Route :=
  if 0 < r.endpoints1.length then
    match weigh r.endpoints1 with
    | some (address, endpoints) => (some address, { r with endpoints1 := endpoints })
    | none => (none, r)
  else if 0 < r.endpoints2.length then
    match weigh r.endpoints2 with
    | some (address, endpoints) => (some address, { r with endpoints2 := endpoints })
    | none => (none, r)
  else (none, r)

/-- `FindEndpoint`; `none` is `ErrNotFoundEndpoint`. -/
def findEndpoint (dispatch : Strategy) (rand : ℕ) (insID : String) : Option String × Route :=
  if insID = "" then
    match dispatch with
    | .roundRobin => r.roundRobinDispatch
    | .weightRoundRobin => r.weightRoundRobinDispatch
    | .random => (r.randomDispatch rand, r)
  else (r.directDispatch insID, r)

def after (dispatch : Strategy) : List ℕ → Route
  | [] => r
  | rand :: rands => ((after dispatch rands).findEndpoint dispatch rand "").2

end Route

structure Dispatcher where
  dispatch : Strategy
  routes : AList (fun _ : Int32 => Route) := ∅
  endpoints : AList (fun _ : String => String) := ∅

namespace Dispatcher

variable (d : Dispatcher)

def findEndpoint (insID : String) : Option String := d.endpoints.lookup insID

def findRoute (route : Int32) : Option Route := d.routes.lookup route

def addRoute (service : ServiceInstance) (address : String)
    (routes : AList (fun _ : Int32 => Route)) (item : RouteInfo) :
    AList (fun _ : Int32 => Route) :=
  let route := (routes.lookup item.id).getD (Route.new service.insAlias item)
  let se : ServiceEndpoint := ⟨service.id, service.state, address, service.weight, 0⟩
  routes.insert item.id { route with toAbstract := route.toAbstract.addServiceEndpoint se }

def addService (service : ServiceInstance) : Dispatcher :=
  match service.endpoint with
  | none => d
  | some address =>
    { d with
      endpoints := d.endpoints.insert service.id address
      routes := service.routes.foldl (addRoute service address) d.routes }

def replaceServices (services : List ServiceInstance) : Dispatcher :=
  services.foldl addService ⟨d.dispatch, ∅, ∅⟩

end Dispatcher

namespace Route

variable {r : Route} {dispatch : Strategy} {rand : ℕ}

theorem findEndpoint_of_ne {insID : String} (h : insID ≠ "") :
    r.findEndpoint dispatch rand insID = (r.directDispatch insID, r) := if_neg h

theorem endpoints5_roundRobinDispatch : r.roundRobinDispatch.2.endpoints5 = r.endpoints5 := by
  unfold roundRobinDispatch
  split <;> rfl

theorem endpoints5_weightRoundRobinDispatch :
    r.weightRoundRobinDispatch.2.endpoints5 = r.endpoints5 := by
  unfold weightRoundRobinDispatch
  split
  · cases weigh r.endpoints1 <;> rfl
  split
  · cases weigh r.endpoints2 <;> rfl
  · rfl

theorem directDispatch_after (rands : List ℕ) (insID : String) :
    (r.after dispatch rands).directDispatch insID = r.directDispatch insID := by
  have hkept : (r.after dispatch rands).endpoints5 = r.endpoints5 := by
    induction rands with
    | nil => rfl
    | cons rand rands ih =>
      rw [← ih]
      cases dispatch with
      | random => rfl
      | roundRobin => exact endpoints5_roundRobinDispatch
      | weightRoundRobin => exact endpoints5_weightRoundRobinDispatch
  rw [directDispatch, hkept]
  rfl

end Route

end DueServer.Dispatch
