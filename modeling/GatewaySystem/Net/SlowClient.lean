import GatewaySystem.Net.Isolation
import GatewaySystem.Net.Lifecycle

/-!
# A prompt reader and the output limit

`applyResponse` closes a connection as a slow client when its unsent output and
the new response exceed `slow_client_output_limit`. An accepted configuration
only guarantees that this limit covers a request of the largest size. What the
handlers answer with has a length of its own, so a connection that has read
everything is closed all the same when the limit is below that length. `HasRoom`
says for each kind of request how large the limit has to be.
-/

namespace GatewaySystem

namespace Business

/-- The texts of the objects that are written by the JSON library, whose objects
are sorted by their keys. -/
structure DumpTexts (library : Json.Library) : Prop where
  invalidJson : library.dump (.object [(text "message", .string (text "invalid json")),
    (text "status", .unsigned 400)]) =
      text "\x7b\"message\":\"invalid json\",\"status\":400\x7d"
  invalidLogFormat : library.dump (.object [(text "message", .string (text "invalid log format")),
    (text "status", .unsigned 400)]) =
      text "\x7b\"message\":\"invalid log format\",\"status\":400\x7d"
  stats : ∀ counters : StatsCounters, library.dump counters.document = counters.document.flat

/-- The names in the answer to `STATS` do not depend on the counters. -/
theorem StatsCounters.names_length (counters : StatsCounters) :
    (counters.members.map fun entry => (Json.quote (text entry.1)).length + 2).sum = 680 := by
  have hclosed : ((({} : StatsCounters).members.map Prod.fst).map fun name =>
      (Json.quote (text name)).length + 2).sum = 680 := by decide +kernel
  have hnames : counters.members.map Prod.fst = ({} : StatsCounters).members.map Prod.fst := rfl
  rw [← hnames, List.map_map] at hclosed
  exact hclosed

/-- The length of the answer to `STATS`: a counter has one digit more than its
logarithm. -/
theorem StatsCounters.length_document (counters : StatsCounters) :
    counters.document.flat.length =
      710 + (counters.members.map fun entry => Nat.log 10 entry.2.toNat).sum := by
  have hdigits : (counters.members.map fun entry =>
      (Json.unsigned entry.2.toNat).atom.length).sum =
        (counters.members.map fun entry => Nat.log 10 entry.2.toNat).sum + 29 := by
    have hlength : counters.members.length = 29 := rfl
    simp only [Json.atom, Decimal.length_format_natCast, List.sum_map_add, List.map_const',
      List.sum_replicate_nat, hlength, mul_one]
  have hne : counters.members ≠ [] := List.cons_ne_nil _ _
  rw [document, Json.length_flat (mt List.map_eq_nil_iff.mp hne), List.map_map, List.map_map]
  simp only [Function.comp_def, names_length, hdigits]
  omega

/-- Whether the limit has room for the answer to a request; an answer is 14
bytes longer than its payload. -/
def HasRoom (library : Json.Library) (env : WorkerEnv) (request : Request) (limit : ℕ) : Prop :=
  match request.type with
  | .ping => 43 ≤ limit
  | .echo => True
  | .stats => 724 + (env.counters.members.map fun entry => Nat.log 10 entry.2.toNat).sum ≤ limit
  | .logPush =>
      if request.payload = [] then 57 ≤ limit
      else if request.payload.length > 4096 then True
      else
        match library.parse request.payload with
        | .error .parse => 53 ≤ limit
        | .error .outOfRange => 62 ≤ limit
        | .ok json =>
            if isLogEntry json then
              if env.logWritten then 34 ≤ limit else 59 ≤ limit
            else 59 ≤ limit
  | _ => 53 ≤ limit

end Business

open Business

namespace Server

variable {library : Json.Library} {s : Server} {request : Request} {env : WorkerEnv}

/-- The request is passed on to the queue by `decodeAndEnqueue` for an
authenticated connection under the configuration. -/
def PassedOn (config : RuntimeConfig) (request : Request) : Prop :=
  ∃ (intake : Intake) (frames : List Request) (ticks : List ℕ),
    intake.current.authenticated = true ∧ intake.requests = [] ∧
      request ∈ (intakeFrames config intake frames ticks).requests

/-- What is passed on is no AUTH frame and within the limit of the body. -/
theorem mem_intakeFrames {config : RuntimeConfig} (frames : List Request) :
    ∀ (intake : Intake) (ticks : List ℕ), intake.current.authenticated = true →
      request ∈ (intakeFrames config intake frames ticks).requests →
        request ∈ intake.requests ∨
          request.type ≠ .auth ∧ request.payload.length + 10 ≤ toSize config.maxPayloadSize := by
  induction frames with
  | nil =>
      intro intake ticks _ hmem
      exact .inl hmem
  | cons frame frames ih =>
      intro intake ticks hauth hmem
      rw [intakeFrames] at hmem
      split at hmem
      · exact .inl hmem
      · next hsize =>
          obtain ⟨server, -, hframe⟩ := intakeBusiness_cases config intake frame (ticks.headD 0)
          rcases hframe with ⟨heq, htype⟩ | ⟨response, -, -, heq⟩
          · rw [heq] at hmem
            rcases ih _ _ (by exact hauth) hmem with hmem | hmem
            · rcases List.mem_append.mp hmem with hmem | hmem
              · exact .inl hmem
              · obtain rfl := List.mem_singleton.mp hmem
                exact .inr ⟨htype, not_lt.mp hsize⟩
            · exact .inr hmem
          · rw [heq] at hmem
            rcases ih _ _ (by exact hauth) hmem with hold | hnew
            · exact .inl hold
            · exact .inr hnew

theorem PassedOn.small {config : RuntimeConfig} (hrange : config.InRange)
    (h : PassedOn config request) :
    request.type ≠ .auth ∧ request.payload.length + 14 ≤ config.slowClientOutputLimit := by
  obtain ⟨intake, frames, ticks, hauth, hnone, hmem⟩ := h
  rcases mem_intakeFrames frames intake ticks hauth hmem with hmem | ⟨htype, hsize⟩
  · rw [hnone] at hmem
    cases hmem
  · refine ⟨htype, ?_⟩
    obtain ⟨hmin, hmax⟩ := hrange.maxPayloadSize
    have hlimit := hrange.slowClientOutputLimit.1
    unfold toSize at hsize
    unfold ProtocolCodec.maxPayloadSize at hmax
    omega

theorem handleLogPush_room (htexts : DumpTexts library) {limit : ℕ}
    (hsmall : request.payload.length + 14 ≤ limit) (htype : request.type = .logPush) :
    14 + ((handleLogPush library env request).getD
      (makeInternalErrorResponse request)).payload.length ≤ limit ↔
        HasRoom library env request limit := by
  simp only [HasRoom, htype, handleLogPush]
  split
  · exact Iff.rfl
  · split
    · next hlarge =>
        have hlength : (text "\x7b\"status\":400,\"message\":\"payload too large\"\x7d").length =
          44 := by decide
        simp only [Option.getD_some, hlength, iff_true]
        omega
    · cases library.parse request.payload with
      | error error =>
          cases error with
          | parse =>
              simp only [Option.getD_some, makeErrorResponse, htexts.invalidJson]
              exact Iff.rfl
          | outOfRange => exact Iff.rfl
      | ok json =>
          cases hentry : isLogEntry json with
          | true =>
              cases hwritten : env.logWritten <;>
                simp only [hentry, Bool.false_eq_true, if_true, if_false] <;>
                exact Iff.rfl
          | false =>
              simp only [hentry, Bool.false_eq_true, if_false, Option.getD_some,
                makeErrorResponse, htexts.invalidLogFormat]
              exact Iff.rfl

/-- The response of a worker fits the limit when there is room. -/
theorem workerResponse_room (htexts : DumpTexts library) {limit : ℕ}
    (hsmall : request.payload.length + 14 ≤ limit) (htype : request.type ≠ .auth) :
    14 + (workerResponse library env request).payload.length ≤ limit ↔
      HasRoom library env request limit := by
  cases hkind : request.type with
  | auth => exact absurd hkind htype
  | logPush =>
      simp only [workerResponse, dispatch, hkind]
      exact handleLogPush_room htexts hsmall hkind
  | echo =>
      simp only [workerResponse, dispatch, HasRoom, hkind, Option.getD_some, handleEcho, iff_true]
      omega
  | stats =>
      simp only [workerResponse, dispatch, HasRoom, hkind, Option.getD_some, handleStats,
        htexts.stats, StatsCounters.length_document]
      omega
  | _ =>
      simp only [workerResponse, dispatch, HasRoom, hkind, Option.getD_some]
      exact Iff.rfl

theorem closeConnection_slowClientClosed (s : Server) (fd : Fd) :
    (s.closeConnection fd).stats.slowClientClosed = s.stats.slowClientClosed := by
  unfold closeConnection releaseClient eraseWindow cancelAuth
  split
  · rfl
  · split <;> split <;> first | rfl | (split <;> rfl)

/-- The response was appended, and the connection was not closed as that of a
slow client. -/
def Appended (s : Server) (response : Response) (t : Server) : Prop :=
  t.stats.slowClientClosed = s.stats.slowClientClosed ∧
    (transcriptOf t.log response.key).appended =
      (response, s.runtimeConfig.slowClientOutputLimit) ::
        (transcriptOf s.log response.key).appended

/-- A response of a normal worker is appended if it fits, and closes the
connection if it does not. -/
theorem applyResponse_appended_iff {response : Response} (hanswer : response.BusinessAnswer)
    {c : Connection} (hlive : s.live? response.key = some c) (hunsent : c.unsent = [])
    (ctl : Bool) :
    s.Appended response (s.applyResponse response .worker ctl) ↔
      14 + response.payload.length ≤ s.runtimeConfig.slowClientOutputLimit := by
  obtain ⟨hc, hconnId⟩ := live?_eq_some.mp hlive
  have hc : s.connections.lookup response.fd = some c := hc
  have hconnId : c.connId = response.connId := hconnId
  have hpending : (completeWork .worker c).outputBuffer.length -
      (completeWork .worker c).writeOffset = 0 := by
    have hlength : c.unsent.length = c.outputBuffer.length - c.writeOffset := List.length_drop
    rw [hunsent] at hlength
    exact hlength.symm
  have happly : s.applyResponse response .worker ctl =
      s.deliver response.fd (completeWork .worker c) response ctl := by
    simp [applyResponse, hc, hconnId, authenticate, hanswer.client, hanswer.type, clearAuth,
      hanswer.close]
  rw [happly, Appended, deliver]
  simp only [hanswer.close, Bool.false_and, Bool.false_eq_true, if_false, hpending, Nat.zero_add,
    ProtocolCodec.length_encode]
  split
  · next hslow =>
      refine iff_of_false ?_ (not_le.mpr hslow)
      rw [closeConnection_slowClientClosed]
      rintro ⟨hclosed, -⟩
      exact absurd hclosed (Nat.succ_ne_self _)
  · next hfits =>
      refine iff_of_true ?_ (not_lt.mp hfits)
      have hkey : (⟨response.fd, (completeWork .worker c).connId⟩ : ConnectionKey) =
          response.key := by
        rw [show (completeWork .worker c).connId = c.connId from rfl, hconnId]
        rfl
      rw [hkey]
      cases ctl with
      | true => exact ⟨rfl, congrArg Transcript.appended (transcriptOf_appended ..)⟩
      | false =>
          refine ⟨closeConnection_slowClientClosed _ _, ?_⟩
          refine ((closeConnection_affects _ _ : Affects False False _ _).appended _).trans ?_
          exact congrArg Transcript.appended (transcriptOf_appended ..)

/-- Under a configuration that was accepted, the answer to a request that was
admitted under it is appended to an output that is all sent if and only if the
limit has room for an answer of its kind. -/
theorem prompt_reader_appended_iff (htexts : DumpTexts library) {body : Bytes}
    (hconfig : RuntimeConfig.parseRuntimeConfig library body = some s.runtimeConfig)
    (hpassed : PassedOn s.runtimeConfig request) (env : WorkerEnv) {c : Connection}
    (hlive : s.live? request.key = some c) (hunsent : c.unsent = []) (ctl : Bool) :
    s.Appended (workerResponse library env request)
        (s.applyResponse (workerResponse library env request) .worker ctl) ↔
      HasRoom library env request s.runtimeConfig.slowClientOutputLimit := by
  obtain ⟨htag, hanswer⟩ := workerResponse_answer library env request
  obtain ⟨htype, hsmall⟩ := hpassed.small (RuntimeConfig.parseRuntimeConfig_inRange hconfig)
  have hkey : (workerResponse library env request).key = request.key := congrArg Tag.key htag
  rw [← hkey] at hlive
  rw [applyResponse_appended_iff hanswer hlive hunsent ctl, workerResponse_room htexts hsmall htype]

end Server

namespace Sample

theorem library_texts : DumpTexts library := ⟨by decide, by decide, fun _ => rfl⟩

/-- A client authenticates under the configuration `settings`, reads the answer
and sends a frame of the given type, which a worker answers. -/
def tight (type : UInt8) : List Action :=
  .pullConfig (some settings) :: (authentication ++
    [.reactor (.write 5 (.sent 42) true), .reactor (.read 5 (.data (frame type 8)) [1]),
      .reactor (.enqueueNext true), .reactor (.enqueueNext true), .reactor (.enqueueNext true),
      .worker 0 .pop, .worker 0 (.dispatch ⟨true, {}⟩)])

/-- The answer to a frame of an unknown type is in the queue. -/
def unknownAnswered : Server :=
  (Server.after library {} 0 (tight 77)).get (by decide +kernel)

/-- The answer to a `PING` is in the queue. -/
def pingAnswered : Server :=
  (Server.after library {} 0 (tight 1)).get (by decide +kernel)

/-- The frame as it was decoded. -/
def prompt (type : MessageType) : Request where
  fd := 5
  connId := 1
  version := 1
  type := type
  requestId := 8
  payload := []

theorem pingAnswered_passedOn :
    Server.PassedOn pingAnswered.runtimeConfig (prompt .ping) :=
  ⟨.start pingAnswered 5 ((pingAnswered.live? ⟨5, 1⟩).get (by decide +kernel)) [] [] false,
    [prompt .ping], [2000000000], by decide +kernel, rfl, by decide +kernel⟩

theorem unknownAnswered_passedOn :
    Server.PassedOn unknownAnswered.runtimeConfig (prompt (.unknown 77)) :=
  ⟨.start unknownAnswered 5 ((unknownAnswered.live? ⟨5, 1⟩).get (by decide +kernel)) [] [] false,
    [prompt (.unknown 77)], [2000000000], by decide +kernel, rfl, by decide +kernel⟩

end Sample

namespace Server

theorem prompt_reader_appended_iff_ping :
    RuntimeConfig.parseRuntimeConfig Sample.library Sample.settings =
        some Sample.pingAnswered.runtimeConfig ∧
      Sample.pingAnswered.Appended (workerResponse Sample.library ⟨true, {}⟩
          (Sample.prompt .ping))
        (Sample.pingAnswered.applyResponse (workerResponse Sample.library ⟨true, {}⟩
          (Sample.prompt .ping)) .worker true) := by
  have hconfig : RuntimeConfig.parseRuntimeConfig Sample.library Sample.settings =
      some Sample.pingAnswered.runtimeConfig := by decide +kernel
  have hlive : Sample.pingAnswered.live? (Sample.prompt .ping).key =
      some ((Sample.pingAnswered.live? ⟨5, 1⟩).get (by decide +kernel)) :=
    (Option.some_get _).symm
  have hroom : HasRoom Sample.library ⟨true, {}⟩ (Sample.prompt .ping)
      Sample.pingAnswered.runtimeConfig.slowClientOutputLimit := by
    change 43 ≤ Sample.pingAnswered.runtimeConfig.slowClientOutputLimit
    decide +kernel
  exact ⟨hconfig, (prompt_reader_appended_iff Sample.library_texts hconfig
    Sample.pingAnswered_passedOn _ hlive (by decide +kernel) true).mpr hroom⟩

/-- A client that has read everything sends a frame of an unknown type under an
accepted configuration, and is closed as a slow one. -/
theorem prompt_reader_closed :
    Transition.Reachable (gateway Sample.library {}) Sample.unknownAnswered ∧
      RuntimeConfig.parseRuntimeConfig Sample.library Sample.settings =
        some Sample.unknownAnswered.runtimeConfig ∧
      PassedOn Sample.unknownAnswered.runtimeConfig (Sample.prompt (.unknown 77)) ∧
      Sample.unknownAnswered.responseQueue.items =
        [workerResponse Sample.library ⟨true, {}⟩ (Sample.prompt (.unknown 77))] ∧
      (Sample.unknownAnswered.live? ⟨5, 1⟩).map Connection.unsent = some [] ∧
      ¬Sample.unknownAnswered.Appended
        (workerResponse Sample.library ⟨true, {}⟩ (Sample.prompt (.unknown 77)))
        (Sample.unknownAnswered.applyResponse
          (workerResponse Sample.library ⟨true, {}⟩ (Sample.prompt (.unknown 77)))
          .worker true) := by
  refine ⟨after_reachable (fun _ _ _ => trivial) (Option.some_get _).symm, by decide +kernel,
    Sample.unknownAnswered_passedOn, by decide +kernel, by decide +kernel, fun h => ?_⟩
  exact absurd h.1 (by decide +kernel)

end Server

end GatewaySystem
