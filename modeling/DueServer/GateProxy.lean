import DueServer.DispatcherModel
import DueServer.HintsModel
import DueServer.LinkRecipients
import DueServer.PacketModel

/-! `cluster/gate/proxy.go`: `proxy.deliver`, with `NodeLinker.ResolveStatelessAffinityNode` and the
dispatcher of the gate. The registered instances do not change during a call. -/
namespace DueServer.Link

open Dispatch (Strategy ServiceInstance Dispatcher)
open Option Except NodeLinker

structure Answers where
  /-- the cache of user sources -/
  sources : SourceHintKey → Option String
  /-- `Locator.LocateNode` -/
  locator : SourceHintKey → Except LinkErr String
  /-- the random draws of the choices that other requests made for the route before -/
  earlier : List ℕ
  rand : ℕ
  build : String → Option LinkErr
  deliver : String → Option LinkErr

/-- The moments of a call: the look-up for a stateless route, and the rounds of `doRPC`. -/
structure Moments where
  affinity : Answers
  first : Answers
  second : Answers

structure Proxy where
  packer : Packet.Packer
  strategy : Strategy
  services : List ServiceInstance
  hasLocator : Bool
  statelessRouteAffinity : Option (Int32 → List UInt8 → Int64 × String × Bool)

inductive ProxyErr where
  | packet (e : Packet.PackErr)
  | link (e : LinkErr)
deriving DecidableEq

namespace Proxy

variable (p : Proxy)

def dispatcher : Dispatcher := Dispatcher.replaceServices ⟨p.strategy, ∅, ∅⟩ p.services

def endpoint (route : Dispatch.Route) (a : Answers) (nid : String) : Except LinkErr String :=
  match ((route.after p.strategy a.earlier).findEndpoint p.strategy a.rand nid).1 with
  | none => .error .notFoundEndpoint
  | some address => .ok address

def flags (route : Dispatch.Route) : Route :=
  ⟨route.route.internal, route.route.stateful, route.route.authorized⟩

def linker : NodeLinker where
  isGate := true
  hasLocator := p.hasLocator
  routes id := (p.dispatcher.findRoute id).map flags
  endpoints := p.dispatcher.findEndpoint

def round (routeID : Int32) (uid : Int64) (a : Answers) : Round where
  cached := (p.dispatcher.findRoute routeID).bind fun route => a.sources ⟨uid, route.group⟩
  located :=
    match p.dispatcher.findRoute routeID with
    | none => .error .notFoundRoute
    | some route => a.locator ⟨uid, route.group⟩
  endpoint nid :=
    match p.dispatcher.findRoute routeID with
    | none => .error .notFoundRoute
    | some route => p.endpoint route a nid
  build := a.build
  deliver := a.deliver

def resolveStatelessAffinityNode (a : Answers) (routeID : Int32) (uid : Int64) (group : String) :
    Except LinkErr String :=
  if uid ≤ 0 ∨ group = "" then .ok ""
  else
    match p.dispatcher.findRoute routeID with
    | none => .error .notFoundRoute
    | some route =>
      if route.route.stateful ∨ route.route.authorized ∨ route.group ≠ group then .ok ""
      else if p.hasLocator = false then .error .notFoundLocator
      else
        match a.locator ⟨uid, group⟩ with
        | .error e => if e = .notFoundUserLocation then .ok "" else .error e
        | .ok nid =>
          if nid = "" then .ok ""
          else
            match p.endpoint route a nid with
            -- a stale location
            | .error e => if e = .notFoundEndpoint then .ok "" else .error e
            | .ok _ => .ok nid

def preferredNID (a : Answers) (uid : Int64) (message : Packet.Message) : Except LinkErr String :=
  if uid = 0 then
    match p.statelessRouteAffinity with
    | none => .ok ""
    | some f =>
      match f message.route message.buffer with
      | (routingUID, group, true) =>
        p.resolveStatelessAffinityNode a message.route routingUID group
      | (_, _, false) => .ok ""
  else .ok ""

/-- The call of `DeliverRequest`: its error, and the clients the frame is handed to with the rounds
in which it is. -/
def request (env : Moments) (uid : Int64) (routeID : Int32) (nid : String) (data : List UInt8) :
    Option ProxyErr × List (Round × String) :=
  let sent := p.linker.send (p.round routeID uid env.first, p.round routeID uid env.second)
    ⟨nid, uid, routeID, .bytes (some data)⟩ true (.buffer [.node data]) (some data)
  (sent.err.map .link, sent.attempts.map Attempt.handed)

def deliver (env : Moments) (uid : Int64) (data : List UInt8) :
    Option ProxyErr × List (Round × String) :=
  match p.packer.unpackMessage data with
  | .error e => (some (.packet e), [])
  | .ok message =>
    match p.preferredNID env.affinity uid message with
    | .error e => (some (.link e), [])
    | .ok nid => p.request env uid message.route nid data

def Located (route : Dispatch.Route) (uid : Int64) (a : Answers) (nid : String) : Prop :=
  p.hasLocator = true ∧ nid ≠ "" ∧
    (a.sources ⟨uid, route.group⟩ = some nid ∨
      a.sources ⟨uid, route.group⟩ = none ∧ a.locator ⟨uid, route.group⟩ = .ok nid)

/-- A frame for the route may go to the client it was handed to: the route is registered and not
internal, a route that is stateful or needs authorization has a user, and one that is stateful goes
to the node where the user is located in that round. -/
def Admitted (env : Moments) (uid : Int64) (routeID : Int32) (handed : Round × String) : Prop :=
  ∃ route, p.dispatcher.findRoute routeID = some route ∧ route.route.internal = false ∧
    (route.route.stateful = true ∨ route.route.authorized = true → uid ≠ 0) ∧
    (route.route.stateful = true → ∃ a, (a = env.first ∨ a = env.second) ∧
      handed.1 = p.round routeID uid a ∧
      ∃ nid, p.Located route uid a nid ∧ route.directDispatch nid = some handed.2)

def Prefers (a : Answers) (message : Packet.Message) (route : Dispatch.Route)
    (nid : String) : Prop :=
  ∃ f routingUID, p.statelessRouteAffinity = some f ∧
    f message.route message.buffer = (routingUID, route.group, true) ∧
    0 < routingUID ∧ route.group ≠ "" ∧
    p.dispatcher.findRoute message.route = some route ∧
    route.route.stateful = false ∧ route.route.authorized = false ∧
    p.hasLocator = true ∧ a.locator ⟨routingUID, route.group⟩ = .ok nid ∧
    nid ≠ "" ∧ route.directDispatch nid ≠ none

def ReachesInternal (env : Moments) (uid : Int64) (message : Packet.Message) : Prop :=
  uid = 0 ∧ ∃ route nid address, p.Prefers env.affinity message route nid ∧
    route.route.internal = true ∧
    p.dispatcher.findEndpoint nid = some address ∧ env.first.build address = none

def Strays (env : Moments) (uid : Int64) (message : Packet.Message) : Prop :=
  uid ≠ 0 ∧ ∃ route nid address other, p.dispatcher.findRoute message.route = some route ∧
    route.route.internal = false ∧ route.route.stateful = true ∧
    p.Located route uid env.first nid ∧ route.directDispatch nid = some address ∧
    (env.first.build address ≠ none ∨ env.first.deliver address ≠ none) ∧
    env.second.sources ⟨uid, route.group⟩ = some "" ∧
    p.endpoint route env.second "" = .ok other ∧ env.second.build other = none

section Choices

variable {p} {route : Dispatch.Route} {routeID : Int32} {uid : Int64} {a : Answers} {nid : String}

theorem endpoint_iff {client : String} (hnid : nid ≠ "") :
    p.endpoint route a nid = .ok client ↔ route.directDispatch nid = some client := by
  rw [endpoint, Dispatch.Route.findEndpoint_of_ne hnid, Dispatch.Route.directDispatch_after]
  cases route.directDispatch nid with
  | none => exact iff_of_false nofun nofun
  | some address =>
    exact ⟨fun h => congrArg some (ok.inj h), fun h => congrArg _ (some.inj h)⟩

theorem endpoint_error {e : LinkErr} (h : p.endpoint route a nid = .error e) :
    e = .notFoundEndpoint := by
  unfold endpoint at h
  split at h
  · exact (error.inj h).symm
  · cases h

theorem locateNode_round (hroute : p.dispatcher.findRoute routeID = some route) (hnid : nid ≠ "") :
    p.linker.locateNode (p.round routeID uid a) = .ok nid ↔ p.Located route uid a nid := by
  simp only [locateNode, linker, round, hroute, bind_some, Located]
  cases p.hasLocator with
  | false => exact iff_of_false nofun fun h => nomatch h.1
  | true =>
    simp only [Bool.true_eq_false, if_false, hnid, ne_eq, not_false_eq_true]
    cases a.sources ⟨uid, route.group⟩ with
    | some cached =>
      simp
    | none =>
      simp only [reduceCtorEq, false_or, true_and]
      cases a.locator ⟨uid, route.group⟩ with
      | error e => rfl
      | ok found =>
        simp only
        split
        · next hem =>
          refine iff_of_false nofun fun h => hnid ?_
          rw [← ok.inj h, hem]
        · rfl

theorem locateNode_round_empty (hroute : p.dispatcher.findRoute routeID = some route) :
    p.linker.locateNode (p.round routeID uid a) = .ok "" ↔
      p.hasLocator = true ∧ a.sources ⟨uid, route.group⟩ = some "" := by
  simp only [locateNode, linker, round, hroute, bind_some]
  cases p.hasLocator with
  | false => exact iff_of_false nofun fun h => nomatch h.1
  | true =>
    simp only [Bool.true_eq_false, if_false]
    cases a.sources ⟨uid, route.group⟩ with
    | some cached => simp
    | none =>
      refine iff_of_false ?_ nofun
      simp only
      split
      · exact nofun
      split
      · exact nofun
      · next hne => exact fun h => hne (ok.inj h)

theorem Prefers.ne_empty {message : Packet.Message} (h : p.Prefers a message route nid) :
    nid ≠ "" := by
  obtain ⟨f, routingUID, -, -, -, -, -, -, -, -, -, hnid, -⟩ := h
  exact hnid

theorem resolveStatelessAffinityNode_iff {group : String} (hnid : nid ≠ "") :
    p.resolveStatelessAffinityNode a routeID uid group = .ok nid ↔
      0 < uid ∧ group ≠ "" ∧ ∃ route, p.dispatcher.findRoute routeID = some route ∧
        route.route.stateful = false ∧ route.route.authorized = false ∧ route.group = group ∧
        p.hasLocator = true ∧ a.locator ⟨uid, group⟩ = .ok nid ∧
        route.directDispatch nid ≠ none := by
  have hem : (ok "" : Except LinkErr String) ≠ .ok nid :=
    fun h => hnid (ok.inj h).symm
  unfold resolveStatelessAffinityNode
  by_cases hargs : uid ≤ 0 ∨ group = ""
  · rw [if_pos hargs]
    refine iff_of_false hem ?_
    rintro ⟨huid, hgro, -⟩
    exact hargs.elim (fun h => Int64.not_le.mpr huid h) hgro
  rw [if_neg hargs]
  rw [not_or, Int64.not_le] at hargs
  rw [and_iff_right hargs.1, and_iff_right hargs.2]
  cases p.dispatcher.findRoute routeID with
  | none => exact iff_of_false nofun fun h => nomatch h.choose_spec.1
  | some route =>
    simp only [some.injEq, exists_eq_left']
    by_cases hroute : route.route.stateful = true ∨ route.route.authorized = true ∨
      route.group ≠ group
    · rw [if_pos hroute]
      refine iff_of_false hem ?_
      rintro ⟨hsf, haut, hgro, -⟩
      rw [hsf, haut] at hroute
      exact hroute.elim nofun fun h => h.elim nofun fun h => h hgro
    rw [if_neg hroute]
    simp only [not_or, Bool.not_eq_true, not_not] at hroute
    rw [and_iff_right hroute.1, and_iff_right hroute.2.1, and_iff_right hroute.2.2]
    cases p.hasLocator with
    | false => exact iff_of_false nofun fun h => nomatch h.1
    | true =>
      simp only [Bool.true_eq_false, if_false, true_and]
      cases a.locator ⟨uid, group⟩ with
      | error e =>
        refine iff_of_false ?_ fun h => nomatch h.1
        simp only
        split
        · exact hem
        · exact nofun
      | ok found =>
        simp only
        by_cases hfd : found = ""
        · rw [if_pos hfd]
          refine iff_of_false hem fun h => hnid ?_
          rw [← ok.inj h.1, hfd]
        rw [if_neg hfd]
        cases hep : p.endpoint route a found with
        | error e =>
          simp only [endpoint_error hep]
          refine iff_of_false hem ?_
          rintro ⟨hsame, h⟩
          obtain rfl := ok.inj hsame
          obtain ⟨client, hcli⟩ := ne_none_iff_exists'.mp h
          rw [(endpoint_iff hfd).mpr hcli] at hep
          cases hep
        | ok client =>
          refine ⟨fun h => ⟨h, ?_⟩, fun h => h.1⟩
          rw [← ok.inj h, (endpoint_iff hfd).mp hep]
          exact some_ne_none client

theorem preferredNID_iff {message : Packet.Message} (hnid : nid ≠ "") :
    p.preferredNID a uid message = .ok nid ↔ uid = 0 ∧ ∃ route, p.Prefers a message route nid := by
  have hem : (ok "" : Except LinkErr String) ≠ .ok nid :=
    fun h => hnid (ok.inj h).symm
  unfold preferredNID Prefers
  by_cases huid : uid = 0
  · rw [if_pos huid, and_iff_right huid]
    cases p.statelessRouteAffinity with
    | none =>
      refine iff_of_false hem ?_
      rintro ⟨route, f, routingUID, h, -⟩
      cases h
    | some f =>
      simp only
      split
      · next routingUID group hf =>
        rw [resolveStatelessAffinityNode_iff hnid]
        constructor
        · rintro ⟨h0, hgro, route, hroute, hsf, haut, rfl, hloc, hnode, hdir⟩
          exact ⟨route, f, routingUID, rfl, hf, h0, hgro, hroute, hsf, haut, hloc,
            hnode, hnid, hdir⟩
        · rintro ⟨route, g, routingUID', hg, hg', h0, hgro, hroute, hsf, haut,
            hloc, hnode, -, hdir⟩
          cases hg
          rw [hf] at hg'
          cases hg'
          exact ⟨h0, hgro, route, hroute, hsf, haut, rfl, hloc, hnode, hdir⟩
      · next hf =>
        refine iff_of_false hem ?_
        rintro ⟨route, g, routingUID, hg, hg', -⟩
        cases hg
        rw [hf] at hg'
        cases hg'
  · rw [if_neg huid]
    exact iff_of_false hem fun h => huid h.1

section

variable (hroute : p.dispatcher.findRoute routeID = some route)

include hroute

theorem routes_eq : p.linker.routes routeID = some (flags route) := by
  simp [linker, hroute]

theorem round_endpoint : (p.round routeID uid a).endpoint nid = p.endpoint route a nid := by
  simp only [round, hroute]

theorem mem_recipient_round {prev : String} {handed : Round × String}
    (hsf : route.route.stateful = true) :
    handed ∈ p.linker.recipient (flags route) (p.round routeID uid a) prev ↔
      handed.1 = p.round routeID uid a ∧ a.build handed.2 = none ∧
        ((∃ nid, nid ≠ prev ∧ p.Located route uid a nid ∧
          route.directDispatch nid = some handed.2) ∨
        "" ≠ prev ∧ (p.hasLocator = true ∧ a.sources ⟨uid, route.group⟩ = some "") ∧
          p.endpoint route a "" = .ok handed.2) := by
  have hfla : (flags route).stateful = true := hsf
  rw [mem_recipient]
  simp only [calls_iff hfla, round_endpoint hroute]
  constructor
  · rintro ⟨nid, client, ⟨hnode, hprev, hep, hbd⟩, rfl⟩
    refine ⟨rfl, hbd, ?_⟩
    by_cases hnid : nid = ""
    · subst hnid
      exact .inr ⟨hprev, (locateNode_round_empty hroute).mp hnode, hep⟩
    exact .inl ⟨nid, hprev, (locateNode_round hroute hnid).mp hnode,
      (endpoint_iff hnid).mp hep⟩
  · rintro ⟨hrou, hbd, ⟨nid, hprev, hnode, hdir⟩ | ⟨hprev, hnode, hep⟩⟩
    · exact ⟨nid, handed.2, ⟨(locateNode_round hroute hnode.2.1).mpr hnode, hprev,
        (endpoint_iff hnode.2.1).mpr hdir, hbd⟩, Prod.ext hrou rfl⟩
    · exact ⟨"", handed.2, ⟨(locateNode_round_empty hroute).mpr hnode, hprev, hep, hbd⟩,
        Prod.ext hrou rfl⟩

theorem moves_round {data : List UInt8} (hsf : route.route.stateful = true) :
    p.linker.Moves (some data) (flags route) (p.round routeID uid a) nid ↔
      p.Located route uid a nid ∧ ∃ address, route.directDispatch nid = some address ∧
        (a.build address ≠ none ∨ a.deliver address ≠ none) := by
  have hfla : (flags route).stateful = true := hsf
  rw [moves_iff hfla, round_endpoint hroute]
  constructor
  · rintro ⟨hnode, hnid, address, hep, hfld⟩
    exact ⟨(locateNode_round hroute hnid).mp hnode, address, (endpoint_iff hnid).mp hep,
      hfld.imp_right And.right⟩
  · rintro ⟨hnode, address, hdir, hfld⟩
    exact ⟨(locateNode_round hroute hnode.2.1).mpr hnode, hnode.2.1, address,
      (endpoint_iff hnode.2.1).mpr hdir, hfld.imp_right fun h => ⟨some_ne_none data, h⟩⟩

end

end Choices

section Admission

variable {p} {env : Moments} {uid : Int64} {message : Packet.Message}

variable {route : Dispatch.Route} {data : List UInt8} {handed : Round × String} {nid : String}

theorem admits_iff : p.linker.Admits uid (flags route) ↔
      (route.route.stateful = true ∨ route.route.authorized = true → uid ≠ 0) ∧
        route.route.internal = false := by
  simp only [NodeLinker.Admits, linker, not_and, Bool.not_eq_true, true_implies]
  exact and_congr_left fun _ => ⟨fun h hfla huid => h huid hfla, fun h huid hfla => h hfla huid⟩

theorem mem_request : handed ∈ (p.request env uid message.route "" data).2 ↔
      ∃ route, p.dispatcher.findRoute message.route = some route ∧
        p.linker.Admits uid (flags route) ∧
        (handed ∈ p.linker.recipient (flags route) (p.round message.route uid env.first) "" ∨
          ∃ prev, p.linker.Moves (some data) (flags route)
            (p.round message.route uid env.first) prev ∧
            handed ∈ p.linker.recipient (flags route)
              (p.round message.route uid env.second) prev) := by
  rw [request, mem_send]
  constructor
  · rintro ⟨flagged, hroute, h⟩
    obtain ⟨route, hfd, rfl⟩ := map_eq_some_iff.mp hroute
    exact ⟨route, hfd, h⟩
  · rintro ⟨route, hroute, h⟩
    exact ⟨flags route, routes_eq hroute, h⟩

theorem admitted_of_not_strays (hstr : ¬ p.Strays env uid message)
    (h : handed ∈ (p.request env uid message.route "" data).2) :
    p.Admitted env uid message.route handed := by
  obtain ⟨route, hroute, hadm, h⟩ := mem_request.mp h
  obtain ⟨huid, hinte⟩ := admits_iff.mp hadm
  refine ⟨route, hroute, hinte, huid, fun hsf => ?_⟩
  rcases h with h | ⟨prev, hmov, h⟩
  · obtain ⟨hrou, -, ⟨nid, -, hnode⟩ | ⟨hprev, -⟩⟩ := (mem_recipient_round hroute hsf).mp h
    · exact ⟨env.first, .inl rfl, hrou, nid, hnode⟩
    · exact absurd rfl hprev
  obtain ⟨hrou, hbd, ⟨nid, -, hnode⟩ | ⟨-, ⟨-, hsrc⟩, hoth⟩⟩ :=
    (mem_recipient_round hroute hsf).mp h
  · exact ⟨env.second, .inr rfl, hrou, nid, hnode⟩
  obtain ⟨hnode, address, hdir, hfld⟩ := (moves_round hroute hsf).mp hmov
  exact absurd ⟨huid (.inl hsf), route, prev, address, handed.2, hroute, hinte,
    hsf, hnode, hdir, hfld, hsrc, hoth, hbd⟩ hstr

theorem not_admitted_of_strays (data : List UInt8) (h : p.Strays env uid message) :
    ∃ handed ∈ (p.request env uid message.route "" data).2,
      ¬ p.Admitted env uid message.route handed := by
  obtain ⟨huid, route, nid, address, other, hroute, hinte, hsf, hnode, hdir, hfld,
    hsrc, hoth, hbd⟩ := h
  refine ⟨(p.round message.route uid env.second, other), mem_request.mpr ⟨route, hroute,
    admits_iff.mpr ⟨fun _ => huid, hinte⟩, (.inr ⟨nid,
      (moves_round hroute hsf).mpr ⟨hnode, address, hdir, hfld⟩,
      (mem_recipient_round hroute hsf).mpr ⟨rfl, hbd,
        .inr ⟨hnode.2.1.symm, ⟨hnode.1, hsrc⟩, hoth⟩⟩⟩)⟩, ?_⟩
  rintro ⟨route', hroute', -, -, hadm⟩
  obtain rfl := some.inj (hroute.symm.trans hroute')
  obtain ⟨a, -, hrou, nid', ⟨-, hnid', hfd⟩, -⟩ := hadm hsf
  -- the round found the empty id in the cache
  have hcch : a.sources ⟨uid, route.group⟩ = some "" := by
    have hsame := congrArg Round.cached hrou
    simp only [round, hroute, bind_some, hsrc] at hsame
    exact hsame.symm
  rw [hcch] at hfd
  rcases hfd with hfd | ⟨hfd, -⟩
  · exact hnid' (some.inj hfd).symm
  · cases hfd

theorem mem_request_preferred (hnid : nid ≠ "") {routeID : Int32} :
    handed ∈ (p.request env uid routeID nid data).2 ↔
      handed.1 = p.round routeID uid env.first ∧
        p.dispatcher.findEndpoint nid = some handed.2 ∧ env.first.build handed.2 = none := by
  rw [request, mem_send, if_neg hnid, doBuildClient, if_neg hnid]
  refine and_congr_right fun _ => ?_
  simp only [linker, round]
  cases p.dispatcher.findEndpoint nid with
  | none => exact iff_of_false nofun fun h => nomatch h.1
  | some address =>
    simp only [some.injEq]
    cases hbd : env.first.build address with
    | some e =>
      refine iff_of_false nofun ?_
      rintro ⟨rfl, h⟩
      rw [hbd] at h
      cases h
    | none =>
      constructor
      · intro h
        obtain rfl := ok.inj h
        exact ⟨rfl, hbd⟩
      · rintro ⟨rfl, -⟩
        rfl

theorem admitted_preferred_iff (hpre : p.Prefers env.affinity message route nid) :
    (∀ handed ∈ (p.request env 0 message.route nid data).2,
      p.Admitted env 0 message.route handed) ↔ ¬ p.ReachesInternal env 0 message := by
  obtain ⟨f, routingUID, hf, hans, h0, hgro, hroute, hsf, haut, hloc, hnode,
    hnid, hdir⟩ := id hpre
  constructor
  · rintro h ⟨-, route', nid', address, ⟨g, routingUID', hg, hans', -, -, hroute', -, -, -, hnode',
      -, -⟩, hinte, haddr, hbd⟩
    -- the function, the route and the locator answer once
    obtain rfl := some.inj (hf.symm.trans hg)
    obtain rfl := some.inj (hroute.symm.trans hroute')
    obtain ⟨rfl, -⟩ := Prod.ext_iff.mp (hans.symm.trans hans')
    obtain rfl := ok.inj (hnode.symm.trans hnode')
    obtain ⟨route', hroute', hext, -⟩ := h (p.round message.route 0 env.first, address)
      ((mem_request_preferred hnid).mpr ⟨rfl, haddr, hbd⟩)
    obtain rfl := some.inj (hroute.symm.trans hroute')
    rw [hinte] at hext
    cases hext
  · intro h handed hhan
    obtain ⟨-, haddr, hbd⟩ := (mem_request_preferred hnid).mp hhan
    refine ⟨route, hroute, Bool.eq_false_iff.mpr fun hinte =>
      h ⟨rfl, route, nid, handed.2, hpre, hinte, haddr, hbd⟩, ?_, ?_⟩
    · rw [hsf, haut]
      exact fun hfla => hfla.elim nofun nofun
    · rw [hsf]
      exact nofun

/-- A frame is handed to a client that it may go to, in every call in which it does not reach an
internal route through the preferred node and does not stray. -/
theorem route_admission_iff (p : Proxy) (env : Moments) (uid : Int64) (data : List UInt8) :
    (∀ handed ∈ (p.deliver env uid data).2, ∃ message,
      p.packer.unpackMessage data = .ok message ∧ p.Admitted env uid message.route handed) ↔
    ¬ ∃ message, p.packer.unpackMessage data = .ok message ∧
      (p.ReachesInternal env uid message ∨ p.Strays env uid message) := by
  unfold deliver
  cases p.packer.unpackMessage data with
  | error e =>
    refine iff_of_true (fun handed h => absurd h List.not_mem_nil) ?_
    rintro ⟨message, h, -⟩
    cases h
  | ok message =>
    simp only [ok.injEq, exists_eq_left', not_or]
    cases hpre : p.preferredNID env.affinity uid message with
    | error e =>
      refine iff_of_true (fun handed h => absurd h List.not_mem_nil) ⟨?_, ?_⟩
      · rintro ⟨huid, route, nid, address, hpref, -⟩
        have hnid : nid ≠ "" := hpref.ne_empty
        rw [(preferredNID_iff hnid).mpr ⟨huid, route, hpref⟩] at hpre
        cases hpre
      · rintro ⟨huid, -⟩
        rw [preferredNID, if_neg huid] at hpre
        cases hpre
    | ok nid =>
      by_cases hnid : nid = ""
      · subst hnid
        have hinte : ¬ p.ReachesInternal env uid message := by
          rintro ⟨huid, route, nid, address, hpref, -⟩
          rw [(preferredNID_iff hpref.ne_empty).mpr ⟨huid, route, hpref⟩] at hpre
          exact hpref.ne_empty (ok.inj hpre)
        rw [and_iff_right hinte]
        constructor
        · intro h hstr
          obtain ⟨handed, hmem, hnot⟩ := not_admitted_of_strays data hstr
          exact hnot (h handed hmem)
        · exact fun hstr handed => admitted_of_not_strays hstr
      · obtain ⟨rfl, route, hpref⟩ := (preferredNID_iff hnid).mp hpre
        rw [and_iff_left fun h => h.1 rfl]
        exact admitted_preferred_iff hpref

end Admission

/-- One instance with an internal route of the group `game`, and an affinity function that names a
user for every frame. -/
def exposed : Proxy where
  packer := Packet.defaultPacker
  strategy := .random
  services := [⟨"n1", "game", .work, some "a1", 1, [⟨1, true, false, false⟩]⟩]
  hasLocator := true
  statelessRouteAffinity := some fun _ _ => (7, "game", true)

def atNode : Answers where
  sources _ := none
  locator _ := .ok "n1"
  earlier := []
  rand := 0
  build _ := none
  deliver _ := none

-- size, header, route 1, sequence number
def internalFrame : List UInt8 := [0, 0, 0, 5, 0, 0, 1, 0, 0]

/-- A connection without a user reaches the internal route. -/
theorem internal_route_reached :
    ¬ ∀ handed ∈ (exposed.deliver ⟨atNode, atNode, atNode⟩ 0 internalFrame).2, ∃ message,
      exposed.packer.unpackMessage internalFrame = .ok message ∧
        exposed.Admitted ⟨atNode, atNode, atNode⟩ 0 message.route handed := by
  intro h
  have hhan : "a1" ∈
      (exposed.deliver ⟨atNode, atNode, atNode⟩ 0 internalFrame).2.map Prod.snd := by
    decide +kernel
  obtain ⟨handed, hmem, -⟩ := List.mem_map.mp hhan
  obtain ⟨message, hmsg, route, hroute, hext, -⟩ := h handed hmem
  have hunp : exposed.packer.unpackMessage internalFrame = .ok ⟨0, 1, []⟩ := by decide +kernel
  have hinte : (exposed.dispatcher.findRoute 1).map (fun route => route.route.internal) =
      some true := by
    decide +kernel
  obtain rfl := ok.inj (hunp.symm.trans hmsg)
  rw [hroute, map_some, hext] at hinte
  cases hinte

end Proxy

end DueServer.Link
