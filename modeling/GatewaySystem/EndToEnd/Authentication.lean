import GatewaySystem.App.TokenLifecycle
import GatewaySystem.EndToEnd.Deployment
import GatewaySystem.Net.AuthTrail

/-!
# Authentication from one end to the other

A connection of the gateway is authenticated as a client only if an AUTH frame
of that connection named the client and a token, and the store of the control
plane held, after the frame was admitted and before the connection was
authenticated, a record of the client that was not disabled and had the digest of
the token. `Trail` carries this through the gateway, the exchange and the control
plane; whatever fails on the way leaves a connection without authentication.
-/

namespace GatewaySystem

open App ControlPlaneClient

/-- What a check of a digest answered holds of the store that it met. -/
theorem App.Possible.verified {b : StoreBackend} {platform : Platform}
    {policy : AuthFailurePolicy} {w : World b.State} (h : Possible b platform policy w)
    {past : Past b.State} (hpast : past ∈ w.history) {clientId digest : Bytes}
    {decision : TokenAuthDecision}
    (hevent : past.event = .verifyDigest clientId digest (.ok decision)) :
    (b.view past.store).decision clientId digest = decision := by
  induction h with
  | fresh now => cases hpast
  | @move w _ _ hmove ih =>
      cases hmove with
      | idle => exact ih hpast
      | @effect now event store _ _ heffect =>
          rcases List.mem_cons.mp hpast with rfl | hpast
          · obtain rfl : event = .verifyDigest clientId digest (.ok decision) := hevent
            generalize b.view w.store = v, b.view store = v' at heffect ⊢
            cases heffect with
            | verify => rfl
          · exact ih hpast

theorem App.Application.decode_of_decodeAuthCheck {σ : Type} {a : Application σ} {r : HttpRequest}
    {req : AuthCheckRequest} (h : a.decodeAuthCheck r = .ok req) :
    a.platform.decodeAuthCheckRequest r.body = .ok req := by
  unfold Application.decodeAuthCheck decodeJSON at h
  cases hdecode : a.platform.decodeAuthCheckRequest r.body with
  | error error =>
      rw [hdecode] at h
      cases error <;> cases h
  | ok value =>
      rw [hdecode] at h
      simp only at h
      split at h <;> cases h
      rfl

namespace Site

variable (site : Site)

/-- The store holds a record of the client that is not disabled and has the digest
of the token. -/
def Opens (store : site.backend.State) (clientId token : Bytes) : Prop :=
  ∃ record, (site.backend.view store).token clientId = some record ∧ record.disabled = false ∧
    record.digest = site.application.digest token

/-- What the control plane reads of a request for a check is what the gateway has
written. -/
def RoundTrips : Prop :=
  ∀ request clientId token req,
    Business.credentials site.library request = some (clientId, token) →
    site.platform.decodeAuthCheckRequest (authPayload site.library clientId token) = .ok req →
    req = ⟨clientId, token⟩

end Site

namespace Deployment

section Statements

variable (site : Site) (d : Deployment site.backend)

/-- What speaks for the authentication of a frame, below the given moments: its
credentials opened the store after it was admitted. -/
def Evidence (timeline later : List (Moment site.backend)) (request : Request)
    (clientId : Bytes) : Prop :=
  request.type = .auth ∧ ∃ token store,
    Business.credentials site.library request = some (clientId, token) ∧
    site.Opens store clientId token ∧
    List.Sublist (later ++ [.store store, .event (.admitted request)]) timeline

/-- The thread serves the request of the worker, and the accesses since it arrived
came after the admission of the frame. -/
def Serves (i j : ℕ) : Prop :=
  ∃ (task : AuthTask) (clientId token : Bytes) (r : HttpRequest) (since : World site.backend.State)
    (program : Task site.backend.State HttpResponse),
    d.gateway.authWorkers[i]? = some (.checking task) ∧
    Business.credentials site.library task.request = some (clientId, token) ∧
    r.body = authPayload site.library clientId token ∧
    d.plane.threads[j]? = some ⟨r, since, program⟩ ∧
    ∀ later past earlier, d.plane.shared.history = later ++ past :: earlier →
      since.history <:+ earlier →
      List.Sublist [.store past.store, .event (.admitted task.request)] d.timeline

/-- What is known of the authentications, from the request of a worker on. -/
structure Trail : Prop where
  recorded : ∀ event ∈ d.gateway.log, .event event ∈ d.timeline
  calls : ∀ i j, d.checks i = some j → d.Serves site i j
  answering : ∀ (i : ℕ) (task : AuthTask) (reply : AuthReply) (clientId : Bytes),
    d.gateway.authWorkers[i]? = some (.answering task reply) →
    (Server.authHandling site.library task.request reply).response.clientIdToAuthenticate =
      some clientId → Evidence site d.timeline [] task.request clientId
  offered : ∀ request response result clientId,
    .offered request response result ∈ d.gateway.log →
    response.clientIdToAuthenticate = some clientId →
    Evidence site d.timeline [] request clientId
  authenticated : ∀ key clientId, .authenticated key clientId ∈ d.gateway.log →
    ∃ request, .decoded key request ∈ d.gateway.log ∧
      Evidence site d.timeline [.event (.authenticated key clientId)] request clientId

end Statements

variable {site : Site} {d d' : Deployment site.backend} {action : Machine.Action Choice HttpRequest}

theorem Evidence.mono {timeline timeline' later : List (Moment site.backend)} {request : Request}
    {clientId : Bytes} (h : Evidence site timeline later request clientId)
    (hgrows : timeline <:+ timeline') : Evidence site timeline' later request clientId := by
  obtain ⟨htype, token, store, hcredentials, hopens, horder⟩ := h
  exact ⟨htype, token, store, hcredentials, hopens, horder.trans hgrows.sublist⟩

theorem newEvents_append {old new : List Event} (h : old <:+ new) :
    new = newEvents old new ++ old := by
  obtain ⟨events, rfl⟩ := h
  simp [newEvents]

theorem settle_eq_some {checks : ℕ → Option ℕ} {action : Action} {i j : ℕ}
    (h : settle checks action i = some j) :
    checks i = some j ∧ ∀ reply, action ≠ .authWorker i (.handleAuth reply) := by
  unfold settle at h
  split at h
  · next k reply =>
      by_cases hik : i = k
      · subst hik
        rw [Function.update_self] at h
        cases h
      · rw [Function.update_of_ne hik] at h
        refine ⟨h, fun reply' heq => hik ?_⟩
        cases heq
        rfl
  · next hother => exact ⟨h, fun reply => hother i reply⟩

/-- A step of the gateway keeps the trail when there is evidence for the replies
that it takes. -/
theorem Trail.gateway (hreach : Transition.Reachable (deployment site) d) (h : d.Trail site)
    {action : Action} (hmove : GatewayMove site d action d')
    (hreply : ∀ (i : ℕ) (task : AuthTask) (reply : AuthReply) (clientId : Bytes),
      action = .authWorker i (.handleAuth reply) →
      d.gateway.authWorkers[i]? = some (.checking task) →
      (Server.authHandling site.library task.request reply).response.clientIdToAuthenticate =
        some clientId → Evidence site d.timeline [] task.request clientId) :
    d'.Trail site := by
  have hgateway := (parts_reachable hreach).1
  have hgrows : d.timeline <:+ d'.timeline := by
    rw [hmove.timeline]
    exact List.suffix_append _ _
  have hlog := newEvents_append (Server.step_log hmove.step)
  refine ⟨?_, ?_, ?_, ?_, ?_⟩
  · intro event hevent
    rw [hlog] at hevent
    rw [hmove.timeline, List.mem_append]
    exact (List.mem_append.mp hevent).imp (List.mem_map_of_mem) (h.recorded event)
  · intro i j hcall
    rw [hmove.checks] at hcall
    obtain ⟨hcall, hother⟩ := settle_eq_some hcall
    obtain ⟨task, clientId, token, r, since, program, hworker, hcredentials, hbody, hthread,
      hsince⟩ := h.calls i j hcall
    refine ⟨task, clientId, token, r, since, program,
      Server.step_checking hmove.step hworker hother, hcredentials, hbody, ?_, ?_⟩
    · rw [hmove.plane]
      exact hthread
    · intro later past earlier hhistory harrived
      rw [hmove.plane] at hhistory
      exact (hsince later past earlier hhistory harrived).trans hgrows.sublist
  · intro i task reply clientId hworker hclient
    rcases Server.step_answering hmove.step hworker with hworker | ⟨haction, hworker⟩
    · exact (h.answering i task reply clientId hworker hclient).mono hgrows
    · exact (hreply i task reply clientId haction hworker hclient).mono hgrows
  · intro request response result clientId hoffered hclient
    rcases Server.step_offered hmove.step hoffered hclient with
      hoffered | ⟨i, task, reply, hworker, rfl, rfl⟩
    · exact (h.offered request response result clientId hoffered hclient).mono hgrows
    · exact (h.answering i task reply clientId hworker hclient).mono hgrows
  · intro key clientId hevent
    have hdecoded : ∀ request, .decoded key request ∈ d.gateway.log →
        .decoded key request ∈ d'.gateway.log :=
      fun request hmem => (Server.step_log hmove.step).subset hmem
    rcases List.mem_append.mp (hlog ▸ hevent) with hnew | hold
    · -- the response was offered before, so what speaks for it lies below
      have hnext : Transition.Reachable site.server d'.gateway :=
        .step hgateway trivial hmove.step
      obtain ⟨request, response, result, hoffered, hkey, hclient⟩ :=
        (Server.ledger_trailed hnext).authenticated key clientId
          (List.mem_filter.mpr ⟨hevent, rfl⟩)
      have hbefore := Server.step_authenticated hmove.step hlog hnew
        (List.mem_filter.mp hoffered).1
      obtain ⟨-, hrequest⟩ := (Server.ledger_sound hgateway).sourced.offered request response result
        (List.mem_filter.mpr ⟨hbefore, rfl⟩)
      rw [hkey] at hrequest
      obtain ⟨htype, token, store, hcredentials, hopens, horder⟩ :=
        h.offered request response result clientId hbefore hclient
      refine ⟨request, hdecoded request (List.mem_filter.mp hrequest).1, htype, token, store,
        hcredentials, hopens, ?_⟩
      rw [hmove.timeline]
      exact (List.singleton_sublist.mpr (List.mem_map_of_mem hnew)).append horder
    · obtain ⟨request, hrequest, hevidence⟩ := h.authenticated key clientId hold
      exact ⟨request, hdecoded request hrequest, hevidence.mono hgrows⟩

/-- A thread serves its worker on while the control plane goes on. -/
theorem Serves.plane (hreach : Transition.Reachable (deployment site) d) (htrail : d.Trail site)
    (hmove : PlaneMove site d action d') {i j : ℕ} (h : d.Serves site i j) :
    d'.Serves site i j := by
  obtain ⟨task, clientId, token, r, since, program, hworker, hcredentials, hbody, hthread,
    hsince⟩ := h
  obtain ⟨program', hthread'⟩ := Machine.thread_kept hmove.step hthread
  refine ⟨task, clientId, token, r, since, program', hmove.gateway ▸ hworker, hcredentials, hbody,
    hthread', ?_⟩
  rw [hmove.timeline]
  have hadmitted : .event (.admitted task.request) ∈ d.timeline :=
    htrail.recorded _ (Server.checking_admitted (parts_reachable hreach).1 hworker).1
  have hold : ∀ later past earlier, d.plane.shared.history = later ++ past :: earlier →
      since.history <:+ earlier →
      List.Sublist [.store past.store, .event (.admitted task.request)]
        (.store d.plane.shared.store :: d.timeline) :=
    fun later past earlier hhistory harrived =>
      (hsince later past earlier hhistory harrived).cons _
  cases action with
  | spawn r =>
      have hsame : d'.plane.shared = d.plane.shared := by
        rw [← Option.some.inj hmove.step]
      rw [hsame]
      exact hold
  | access k choice =>
      have hworld := Plane.access_move (parts_reachable hreach).2 hmove.admits hmove.step
      generalize d'.plane.shared = world at hworld
      cases hworld with
      | idle => exact hold
      | effect =>
          intro later past earlier hhistory harrived
          cases later with
          | nil =>
              obtain ⟨rfl, -⟩ := List.cons.inj hhistory
              exact (List.singleton_sublist.mpr hadmitted).cons_cons _
          | cons newest later =>
              obtain ⟨-, hhistory⟩ := List.cons.inj hhistory
              exact hold later past earlier hhistory harrived

/-- A step of the control plane keeps the trail when the new requests are
served. -/
theorem Trail.plane (hreach : Transition.Reachable (deployment site) d) (h : d.Trail site)
    (hmove : PlaneMove site d action d')
    (hcalls : ∀ i j, d'.checks i = some j → d.checks i = some j ∨ d'.Serves site i j) :
    d'.Trail site := by
  have hgrows : d.timeline <:+ d'.timeline := by
    rw [hmove.timeline]
    exact List.suffix_cons _ _
  refine ⟨?_, ?_, ?_, ?_, ?_⟩
  · intro event hevent
    rw [hmove.gateway] at hevent
    exact hgrows.subset (h.recorded event hevent)
  · intro i j hcall
    rcases hcalls i j hcall with hcall | hserves
    · exact (h.calls i j hcall).plane hreach h hmove
    · exact hserves
  · intro i task reply clientId hworker hclient
    rw [hmove.gateway] at hworker
    exact (h.answering i task reply clientId hworker hclient).mono hgrows
  · intro request response result clientId hoffered hclient
    rw [hmove.gateway] at hoffered
    exact (h.offered request response result clientId hoffered hclient).mono hgrows
  · intro key clientId hevent
    rw [hmove.gateway] at hevent ⊢
    obtain ⟨request, hrequest, hevidence⟩ := h.authenticated key clientId hevent
    exact ⟨request, hrequest, hevidence.mono hgrows⟩

/-- A request that has just been sent is served by a new thread. -/
theorem serves_asked {i : ℕ} {r : HttpRequest} {task : AuthTask} {clientId token : Bytes}
    (hasks : d.Asks site i r task clientId token) (hmove : PlaneMove site d (.spawn r) d') :
    d'.Serves site i d.plane.threads.length := by
  obtain ⟨hworker, hcredentials, -, -, hbody⟩ := hasks
  have hplane := Option.some.inj hmove.step
  refine ⟨task, clientId, token, r, d.plane.shared, site.application.serve r,
    hmove.gateway ▸ hworker, hcredentials, hbody, ?_, ?_⟩
  · rw [← hplane]
    exact List.getElem?_concat_length
  · intro later past earlier hhistory harrived
    have hlength := congrArg List.length hhistory
    have hle := harrived.length_le
    rw [← hplane, List.length_append, List.length_cons] at hlength
    simp only at hlength
    omega

/-- There is evidence for a reply that allows the client. -/
theorem Trail.reply (hround : site.RoundTrips)
    (hreach : Transition.Reachable (deployment site) d) (h : d.Trail site) {i : ℕ}
    {exchange : Exchange} {result : Business.AuthResult}
    (hdelivers : exchange.Delivers ((d.reply site (d.checks i)).map site.writer.bytes))
    (hresult : checkAuth site.library exchange = some result) {task : AuthTask}
    (hworker : d.gateway.authWorkers[i]? = some (.checking task)) {clientId : Bytes}
    (hclient : (Server.authHandling site.library task.request
      (.answered result)).response.clientIdToAuthenticate = some clientId) :
    Evidence site d.timeline [] task.request clientId := by
  obtain ⟨hgateway, hplane⟩ := parts_reachable hreach
  obtain ⟨token, own, hcredentials, hown, hallowed⟩ := Business.handleAuth_authenticates hclient
  obtain rfl := Option.some.inj hown
  -- the reply was a success, so the whole answer of the thread was delivered
  obtain ⟨http, hhttp, hread⟩ := Option.map_eq_some_iff.mp hresult
  have hok : http.ok = true := by
    by_contra hfailed
    rw [if_neg hfailed] at hread
    rw [← hread] at hallowed
    cases hallowed
  rw [if_pos hok] at hread
  obtain ⟨response, chunks, ending, hreply, -, -, hbytes⟩ :=
    delivered_of_ok site.writer hdelivers hhttp hok
  rw [← hread, hbytes] at hallowed
  obtain ⟨j, r, since, hcall, hthread⟩ := reply_eq_some hreply
  have hanswers := Plane.answers hplane (List.mem_of_getElem? hthread)
  obtain ⟨answer, hanswer, hyes⟩ := readAuth_encode site.encoding hanswers.int64 hallowed
  obtain ⟨task', clientId', token', r', since', program, hworker', hcredentials', hbody, hthread',
    hsince⟩ := h.calls i j hcall
  cases hworker.symm.trans hworker'
  cases hcredentials.symm.trans hcredentials'
  cases hthread.symm.trans hthread'
  -- the answer rests on an access since the request arrived
  obtain ⟨req, hdecode, later, past, earlier, hhistory, hevent, harrived⟩ :=
    hanswers.allowed answer hanswer hyes
  have hreq : req = ⟨clientId, token⟩ := by
    refine hround task.request clientId token req hcredentials ?_
    rw [← hbody]
    exact Application.decode_of_decodeAuthCheck hdecode
  subst hreq
  have hpast : past ∈ d.plane.shared.history := by
    rw [hhistory]
    exact List.mem_append_right _ List.mem_cons_self
  have hdecision := (Plane.possible hplane).verified hpast hevent
  exact ⟨(Server.checking_admitted hgateway hworker).2, token, past.store, hcredentials,
    View.decision_allowed.mp hdecision, hsince later past earlier hhistory harrived⟩

/-- The trail of every run. -/
theorem trail (hround : site.RoundTrips) (h : Transition.Reachable (deployment site) d) :
    d.Trail site := by
  refine h.invariant (I := fun d => d.Trail site) ?_ ?_
  · rintro d ⟨⟨now, hstart⟩, -, hchecks, -⟩
    have hgateway := Server.start_eq_some hstart
    have hlog : d.gateway.log = [] := by
      rw [hgateway]
      rfl
    refine ⟨?_, ?_, ?_, ?_, ?_⟩
    · simp [hlog]
    · simp [hchecks]
    · intro i task reply clientId hworker
      rw [hgateway] at hworker
      have hwaiting := List.eq_of_mem_replicate (List.mem_of_getElem? hworker)
      cases hwaiting
    · simp [hlog]
    · simp [hlog]
  · intro d action d' hreach htrail _ hstep
    cases step_cases hstep with
    | gateway hfree hmove =>
        refine htrail.gateway hreach hmove fun i task reply clientId haction _ hclient => ?_
        subst haction
        cases reply with
        | answered result => cases hfree
        | threw =>
            obtain ⟨token, result, -, hnone, -⟩ := Business.handleAuth_authenticates hclient
            cases hnone
        | unknown => cases hclient
    | answer hdelivers hresult hmove =>
        refine htrail.gateway hreach hmove fun i task reply clientId haction hworker hclient => ?_
        cases haction
        exact htrail.reply hround hreach hdelivers hresult hworker hclient
    | polled _ _ hmove => exact htrail.gateway hreach hmove nofun
    | plane hmove hchecks =>
        refine htrail.plane hreach hmove fun i j hcall => .inl ?_
        rw [← hchecks]
        exact hcall
    | poll hmove hchecks =>
        refine htrail.plane hreach hmove fun i j hcall => .inl ?_
        rw [← hchecks]
        exact hcall
    | @ask k r task clientId token hasks hmove hchecks =>
        refine htrail.plane hreach hmove fun i j hcall => ?_
        rw [hchecks] at hcall
        by_cases hik : i = k
        · subst hik
          rw [Function.update_self] at hcall
          obtain rfl := Option.some.inj hcall
          exact .inr (serves_asked hasks hmove)
        · rw [Function.update_of_ne hik] at hcall
          exact .inl hcall

/-- A connection is authenticated only as a client whose token, as an AUTH frame
of that connection named it, opened the store between the admission of the frame
and the authentication. -/
theorem authentication_sound (hround : site.RoundTrips)
    (h : Transition.Reachable (deployment site) d) {fd : Fd} {c : Connection}
    (hc : d.gateway.connections.lookup fd = some c) (hauth : c.authenticated = true) :
    ∃ request token store record, .decoded ⟨fd, c.connId⟩ request ∈ d.gateway.log ∧
      request.type = .auth ∧
      Business.credentials site.library request = some (c.clientId, token) ∧
      (site.backend.view store).token c.clientId = some record ∧ record.disabled = false ∧
      record.digest = site.application.digest token ∧
      List.Sublist [.event (.authenticated ⟨fd, c.connId⟩ c.clientId), .store store,
        .event (.admitted request)] d.timeline := by
  have hholds : d.gateway.ledger.Holds ⟨fd, c.connId⟩ c.clientId := ⟨c, ⟨hc, rfl⟩, hauth, rfl⟩
  have hevent := (Server.ledger_trailed (parts_reachable h).1).holds _ _ hholds
  obtain ⟨request, hdecoded, htype, token, store, hcredentials,
    ⟨record, htoken, henabled, hdigest⟩, horder⟩ :=
    (trail hround h).authenticated _ _ (List.mem_filter.mp hevent).1
  exact ⟨request, token, store, record, hdecoded, htype, hcredentials, htoken, henabled, hdigest,
    horder⟩

end Deployment

namespace Sample

theorem site_roundTrips : site.RoundTrips := by
  intro request clientId token req _ hdecode
  have hparse : Json.flatLibrary.parse (authPayload Json.flatLibrary clientId token) =
      .ok (.object [(text "client_id", .string clientId), (text "token", .string token)]) :=
    Json.parse_dump_object ⟨_, rfl, by simp, by simp [Json.plain_string]⟩
  have hdecoded : site.platform.decodeAuthCheckRequest
      (authPayload site.library clientId token) = .ok ⟨clientId, token⟩ := by
    simp only [site, jsonPlatform, decode, hparse]
    rfl
  rw [hdecoded] at hdecode
  exact (Except.ok.inj hdecode).symm

/-- What the AUTH frame of the client holds. -/
def loginPayload : Bytes := authPayload Json.flatLibrary App.Sample.client (text "t")

def creation : HttpRequest where
  method := .post
  path := .tokens
  body := text "\x7b\"client_id\":\"a\"\x7d"

/-- A token is created, a client connects and names it, and the control plane
checks it. -/
def checked : Deployment site.backend :=
  ((deployment site).run started
    [.plane (.spawn creation),
      .plane (.access 0 { now := 0, entropy := some (text "t") }),
      .plane (.access 0 { now := 0, entropy := some (text "t") }),
      .plane (.access 0 { now := 0, entropy := some (text "t") }),
      .gateway (.reactor (.accept 5 true)),
      .gateway (.reactor (.read 5 (.data (BigEndian.encode 4 (10 + loginPayload.length) ++
        [1, 10, 0, 0, 0, 0, 0, 0, 0, 7] ++ loginPayload)) [])),
      .gateway (.reactor (.enqueueNext true)), .gateway (.reactor (.enqueueNext true)),
      .gateway (.reactor (.enqueueNext true)), .gateway (.authWorker 0 .pop),
      .gateway (.authWorker 0 .testCancellation),
      .ask 0 { method := .post, path := .authCheck, body := loginPayload },
      .plane (.access 1 { now := 0 }), .plane (.access 1 { now := 0 }),
      .plane (.access 1 { now := 0 })]).get (by decide +kernel)

/-- The answer arrives, and the reactor takes it up. -/
def loggedIn : Deployment site.backend :=
  ((deployment site).run checked
    [.answer 0 (whole checked (checked.checks 0)), .gateway (.authWorker 0 .offer),
      .gateway (.reactor (.drainResponse true))]).get (by decide +kernel)

theorem loggedIn_reachable : Transition.Reachable (deployment site) loggedIn :=
  Transition.System.run_reachable
    (Transition.System.run_reachable started_reachable (fun _ _ _ => trivial)
      (Option.some_get _).symm)
    (fun _ _ _ => trivial) (Option.some_get _).symm

end Sample

/-- The connection of the client is authenticated when the answer has been taken
up. -/
theorem Deployment.authentication_sound_loggedIn :
    ∃ c token store record, Sample.loggedIn.gateway.connections.lookup 5 = some c ∧
      c.authenticated = true ∧
      (Sample.site.backend.view store).token c.clientId = some record ∧
      record.disabled = false ∧ record.digest = Sample.site.application.digest token := by
  have hlookup : (Sample.loggedIn.gateway.connections.lookup 5).map (·.authenticated) =
      some true := by decide +kernel
  obtain ⟨c, hc, hauth⟩ := Option.map_eq_some_iff.mp hlookup
  obtain ⟨request, token, store, record, -, -, -, htoken, henabled, hdigest, -⟩ :=
    authentication_sound Sample.site_roundTrips Sample.loggedIn_reachable hc hauth
  exact ⟨c, token, store, record, hc, hauth, htoken, henabled, hdigest⟩

end GatewaySystem
