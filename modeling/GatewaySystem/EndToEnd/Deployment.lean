import GatewaySystem.App.ControlPlane
import GatewaySystem.EndToEnd.Transport
import GatewaySystem.Net.Producers

/-!
# Gateway and control plane as one system

A deployment is a gateway, a control plane and the requests of the one that the
other serves: each AUTH worker and the config puller has at most one. The control
plane serves any other requests besides. A request of the gateway arrives as it
was sent or not at all, and what comes back of the reply is a beginning of it,
as `Exchange.Delivers` has it.

`timeline` has no counterpart in the source. It puts the events of the gateway
and the contents of the store that the accesses of the control plane met into one
order, newest first.
-/

namespace GatewaySystem

open App ControlPlaneClient

/-- What the two services are given. -/
structure Site where
  backend : StoreBackend
  library : Json.Library
  args : Server.StartArgs
  platform : Platform
  config : ApplicationConfig
  policy : AuthFailurePolicy
  encoding : Encoding library
  writer : NetHttp.Writer encoding.encode

namespace Site

variable (site : Site)

def application : Application site.backend.State :=
  routesWithConfig site.backend site.platform site.config site.policy

def server : Transition.System Server Action := gateway site.library site.args

def plane : Transition.System (Plane site.backend) (Machine.Action Choice HttpRequest) :=
  controlPlane site.backend site.platform site.config site.policy

end Site

/-- Something that happened in one of the services. -/
inductive Moment (b : StoreBackend) where
  | event (event : Event)
  | store (store : b.State)

structure Deployment (b : StoreBackend) where
  gateway : Server
  plane : Plane b
  /-- The thread that serves the request of an AUTH worker. -/
  checks : ℕ → Option ℕ := fun _ => none
  /-- The thread that serves the request of the config puller. -/
  pull : Option ℕ := none
  timeline : List (Moment b) := []

inductive DeploymentAction where
  | gateway (action : Action)
  | plane (action : Machine.Action Choice HttpRequest)
  /-- An AUTH worker sends its request. -/
  | ask (i : ℕ) (r : HttpRequest)
  /-- The exchange of an AUTH worker is over. -/
  | answer (i : ℕ) (exchange : Exchange)
  /-- The config puller sends its request. -/
  | poll (r : HttpRequest)
  /-- The exchange of the config puller is over. -/
  | polled (exchange : Exchange)

/-- An action of the gateway that uses no reply of the control plane. -/
def Action.isFree : Action → Bool
  | .authWorker _ (.handleAuth (.answered _)) => false
  | .pullConfig (some _) => false
  | _ => true

namespace Deployment

section Steps

variable (site : Site) (d : Deployment site.backend)

/-- What a thread of the control plane has answered. -/
def reply (thread? : Option ℕ) : Option HttpResponse :=
  match thread?.bind fun j => d.plane.threads[j]? with
  | some ⟨_, _, .done response⟩ => some response
  | _ => none

/-- The requests that are left when a worker goes on. -/
def settle (checks : ℕ → Option ℕ) : Action → ℕ → Option ℕ
  | .authWorker i (.handleAuth _) => Function.update checks i none
  | _ => checks

/-- The events by which one log extends another. -/
def newEvents (old new : List Event) : List Event := new.take (new.length - old.length)

def gatewayStep (action : Action) : Option (Deployment site.backend) :=
  (Server.step site.library d.gateway action).map fun s =>
    { d with
      gateway := s
      checks := settle d.checks action
      timeline := (newEvents d.gateway.log s.log).map .event ++ d.timeline }

def planeStep (action : Machine.Action Choice HttpRequest) : Option (Deployment site.backend) :=
  if Machine.Admits Timely d.plane action then
    (site.plane.step d.plane action).map fun m =>
      { d with plane := m, timeline := .store d.plane.shared.store :: d.timeline }
  else none

/-- The request of an AUTH worker, as the control plane reads it. -/
def Asks (i : ℕ) (r : HttpRequest) (task : AuthTask) (clientId token : Bytes) : Prop :=
  d.gateway.authWorkers[i]? = some (.checking task) ∧
    Business.credentials site.library task.request = some (clientId, token) ∧
    r.method = .post ∧ r.path = .authCheck ∧ r.body = authPayload site.library clientId token

/-- The worker that may send a request, with the task it checks. -/
def asking? (i : ℕ) (r : HttpRequest) : Bool :=
  match d.gateway.authWorkers[i]? with
  | some (.checking task) =>
      match Business.credentials site.library task.request with
      | some (clientId, token) =>
          (d.checks i).isNone && r.method = .post && r.path = .authCheck &&
            r.body = authPayload site.library clientId token
      | none => false
  | _ => false

def step : DeploymentAction → Option (Deployment site.backend)
  | .gateway action => if action.isFree then d.gatewayStep site action else none
  | .plane action => d.planeStep site action
  | .ask i r =>
      if d.asking? site i r then
        (d.planeStep site (.spawn r)).map fun d' =>
          { d' with checks := Function.update d.checks i (some d.plane.threads.length) }
      else none
  | .answer i exchange =>
      if exchange.Delivers ((d.reply site (d.checks i)).map site.writer.bytes) then
        (checkAuth site.library exchange).bind fun result =>
          d.gatewayStep site (.authWorker i (.handleAuth (.answered result)))
      else none
  | .poll r =>
      if d.pull.isNone && r.method = .get && r.path = .config then
        (d.planeStep site (.spawn r)).map fun d' =>
          { d' with pull := some d.plane.threads.length }
      else none
  | .polled exchange =>
      if exchange.Delivers ((d.reply site d.pull).map site.writer.bytes) then
        (requestJsonOnce exchange).bind fun result =>
          (d.gatewayStep site (.pullConfig (if result.ok then some result.body else none))).map
            fun d' => { d' with pull := none }
      else none

end Steps

end Deployment

/-- The two services from their start on. -/
def deployment (site : Site) : Transition.System (Deployment site.backend) DeploymentAction where
  init d := site.server.init d.gateway ∧ site.plane.init d.plane ∧
    (∀ i, d.checks i = none) ∧ d.pull = none ∧ d.timeline = []
  step d := d.step site

namespace Deployment

variable {site : Site} {d d' : Deployment site.backend}

/-- What a step of the gateway does to the deployment. -/
structure GatewayMove (site : Site) (d : Deployment site.backend) (action : Action)
    (d' : Deployment site.backend) : Prop where
  step : Server.step site.library d.gateway action = some d'.gateway
  plane : d'.plane = d.plane
  checks : d'.checks = settle d.checks action
  timeline : d'.timeline =
    (newEvents d.gateway.log d'.gateway.log).map .event ++ d.timeline

/-- What a step of the control plane does to it. -/
structure PlaneMove (site : Site) (d : Deployment site.backend)
    (action : Machine.Action Choice HttpRequest) (d' : Deployment site.backend) : Prop where
  admits : Machine.Admits Timely d.plane action
  step : site.plane.step d.plane action = some d'.plane
  gateway : d'.gateway = d.gateway
  timeline : d'.timeline = .store d.plane.shared.store :: d.timeline

/-- What a step is. -/
inductive Step (site : Site) (d d' : Deployment site.backend) : DeploymentAction → Prop
  | gateway {action : Action} (hfree : action.isFree = true) (h : GatewayMove site d action d') :
      Step site d d' (.gateway action)
  | answer {i : ℕ} {exchange : Exchange} {result : Business.AuthResult}
      (hdelivers : exchange.Delivers ((d.reply site (d.checks i)).map site.writer.bytes))
      (hresult : checkAuth site.library exchange = some result)
      (h : GatewayMove site d (.authWorker i (.handleAuth (.answered result))) d') :
      Step site d d' (.answer i exchange)
  | polled {exchange : Exchange} {result : HttpResult}
      (hdelivers : exchange.Delivers ((d.reply site d.pull).map site.writer.bytes))
      (hresult : requestJsonOnce exchange = some result)
      (h : GatewayMove site d (.pullConfig (if result.ok then some result.body else none)) d') :
      Step site d d' (.polled exchange)
  | plane {action : Machine.Action Choice HttpRequest} (h : PlaneMove site d action d')
      (hchecks : d'.checks = d.checks) : Step site d d' (.plane action)
  | ask {i : ℕ} {r : HttpRequest} {task : AuthTask} {clientId token : Bytes}
      (hasks : d.Asks site i r task clientId token) (h : PlaneMove site d (.spawn r) d')
      (hchecks : d'.checks = Function.update d.checks i (some d.plane.threads.length)) :
      Step site d d' (.ask i r)
  | poll {r : HttpRequest} (h : PlaneMove site d (.spawn r) d')
      (hchecks : d'.checks = d.checks) : Step site d d' (.poll r)

theorem gatewayStep_eq_some {action : Action} (h : d.gatewayStep site action = some d') :
    GatewayMove site d action d' := by
  obtain ⟨s, hstep, rfl⟩ := Option.map_eq_some_iff.mp h
  exact ⟨hstep, rfl, rfl, rfl⟩

theorem planeStep_eq_some {action : Machine.Action Choice HttpRequest}
    (h : d.planeStep site action = some d') :
    PlaneMove site d action d' ∧ d'.checks = d.checks := by
  obtain ⟨hadmits, h⟩ := Option.ite_none_right_eq_some.mp h
  obtain ⟨m, hstep, rfl⟩ := Option.map_eq_some_iff.mp h
  exact ⟨⟨hadmits, hstep, rfl, rfl⟩, rfl⟩

theorem asks_of_asking? {i : ℕ} {r : HttpRequest} (h : d.asking? site i r = true) :
    ∃ task clientId token, d.Asks site i r task clientId token := by
  unfold asking? at h
  split at h
  · next task hworker =>
      split at h
      · next clientId token hcredentials =>
          simp only [Bool.and_eq_true, decide_eq_true_eq] at h
          obtain ⟨⟨⟨-, hmethod⟩, hpath⟩, hbody⟩ := h
          exact ⟨task, clientId, token, hworker, hcredentials, hmethod, hpath, hbody⟩
      · cases h
  · cases h

theorem step_cases {action : DeploymentAction} (h : (deployment site).step d action = some d') :
    Step site d d' action := by
  cases action with
  | gateway action =>
      obtain ⟨hfree, h⟩ := Option.ite_none_right_eq_some.mp h
      exact .gateway hfree (gatewayStep_eq_some h)
  | plane action =>
      obtain ⟨hmove, hchecks⟩ := planeStep_eq_some h
      exact .plane hmove hchecks
  | ask i r =>
      obtain ⟨hasking, h⟩ := Option.ite_none_right_eq_some.mp h
      obtain ⟨u, hu, rfl⟩ := Option.map_eq_some_iff.mp h
      obtain ⟨⟨hadmits, hstep, hgateway, htimeline⟩, -⟩ := planeStep_eq_some hu
      obtain ⟨task, clientId, token, hasks⟩ := asks_of_asking? hasking
      exact .ask hasks ⟨hadmits, hstep, hgateway, htimeline⟩ rfl
  | answer i exchange =>
      obtain ⟨hdelivers, h⟩ := Option.ite_none_right_eq_some.mp h
      obtain ⟨result, hresult, h⟩ := Option.bind_eq_some_iff.mp h
      exact .answer hdelivers hresult (gatewayStep_eq_some h)
  | poll r =>
      obtain ⟨-, h⟩ := Option.ite_none_right_eq_some.mp h
      obtain ⟨u, hu, rfl⟩ := Option.map_eq_some_iff.mp h
      obtain ⟨⟨hadmits, hstep, hgateway, htimeline⟩, hchecks⟩ := planeStep_eq_some hu
      exact .poll ⟨hadmits, hstep, hgateway, htimeline⟩ hchecks
  | polled exchange =>
      obtain ⟨hdelivers, h⟩ := Option.ite_none_right_eq_some.mp h
      obtain ⟨result, hresult, h⟩ := Option.bind_eq_some_iff.mp h
      obtain ⟨u, hu, rfl⟩ := Option.map_eq_some_iff.mp h
      obtain ⟨hstep, hplane, hchecks, htimeline⟩ := gatewayStep_eq_some hu
      exact .polled hdelivers hresult ⟨hstep, hplane, hchecks, htimeline⟩

/-- A step is one of the gateway or one of the control plane. -/
theorem Step.moves {action : DeploymentAction} (h : Step site d d' action) :
    (∃ own, GatewayMove site d own d') ∨ ∃ own, PlaneMove site d own d' := by
  cases h with
  | gateway _ h => exact .inl ⟨_, h⟩
  | answer _ _ h => exact .inl ⟨_, h⟩
  | polled _ _ h => exact .inl ⟨_, h⟩
  | plane h => exact .inr ⟨_, h⟩
  | ask _ h => exact .inr ⟨_, h⟩
  | poll h => exact .inr ⟨_, h⟩

/-- Each of the services makes a run of its own. -/
theorem parts_reachable (h : Transition.Reachable (deployment site) d) :
    Transition.Reachable site.server d.gateway ∧
      Transition.ReachableBy site.plane (Machine.Admits Timely) d.plane := by
  refine h.invariant (I := fun d => Transition.Reachable site.server d.gateway ∧
    Transition.ReachableBy site.plane (Machine.Admits Timely) d.plane) ?_ ?_
  · rintro d ⟨hgateway, hplane, -⟩
    exact ⟨.init hgateway, .init hplane⟩
  · rintro d action d' - ⟨hgateway, hplane⟩ - hstep
    rcases (step_cases hstep).moves with ⟨own, hmove⟩ | ⟨own, hmove⟩
    · rw [hmove.plane]
      exact ⟨.step hgateway trivial hmove.step, hplane⟩
    · rw [hmove.gateway]
      exact ⟨hgateway, .step hplane hmove.admits hmove.step⟩

/-- A reply is the answer of a thread. -/
theorem reply_eq_some {thread? : Option ℕ} {response : HttpResponse}
    (h : d.reply site thread? = some response) :
    ∃ j r since, thread? = some j ∧ d.plane.threads[j]? = some ⟨r, since, .done response⟩ := by
  unfold reply at h
  split at h
  · next r since answered hthread =>
      obtain rfl := Option.some.inj h
      obtain ⟨j, hj, hthread⟩ := Option.bind_eq_some_iff.mp hthread
      exact ⟨j, r, since, hj, hthread⟩
  · cases h

end Deployment

namespace Sample

/-- The member of a request with the given name. -/
def member (document : Json) (name : String) : Json := (document.member? (text name)).getD .null

def decodeUpdate (document : Json) : Except DecodeError ConfigUpdateRequest :=
  match member document "max_payload_size", member document "max_connections_per_client",
      member document "max_requests_per_client_per_second",
      member document "slow_client_output_limit", member document "log_level" with
  | .unsigned payload, .unsigned connections, .unsigned requests, .unsigned output,
      .string level => .ok ⟨payload, connections, requests, output, level⟩
  | _, _, _, _, _ => .error .invalid

/-- `json.Decode` over the same library. -/
def decode {α : Type} (read : Json → Except DecodeError α) (body : Bytes) :
    Except DecodeError α :=
  match Json.flatLibrary.parse body with
  | .ok document => read document
  | .error _ => .error .invalid

def jsonPlatform : Platform :=
  { App.Sample.plainPlatform with
    decodeAuthCheckRequest := decode fun document =>
      match Business.authCredentials document with
      | some (clientId, token) => .ok ⟨clientId, token⟩
      | none => .error .invalid
    decodeTokenUpsertRequest := decode fun document =>
      match member document "client_id" with
      | .string clientId => .ok ⟨clientId⟩
      | _ => .error .invalid
    decodeConfigUpdateRequest := decode decodeUpdate }

/-- A gateway with defaults and a control plane with a new Redis. -/
def site : Site where
  backend := .redis
  library := Json.flatLibrary
  args := {}
  platform := jsonPlatform
  config := {}
  policy := App.Sample.oneFailure
  encoding := jsonEncoding
  writer := plainWriter jsonEncoding.encode

/-- The services as they start. -/
def started : Deployment site.backend where
  gateway := Server.started {} 0
  plane := { shared := { store := site.backend.fresh, now := 0 } }

theorem started_reachable : Transition.Reachable (deployment site) started :=
  .init ⟨⟨0, rfl⟩, ⟨⟨rfl, rfl⟩, rfl⟩, fun _ => rfl, rfl, rfl⟩

/-- A whole reply. -/
def whole (d : Deployment site.backend) (thread? : Option ℕ) : Exchange :=
  .received [((d.reply site thread?).map site.writer.bytes).getD []] .eof

end Sample

end GatewaySystem
