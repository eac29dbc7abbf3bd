import GatewaySystem.Net.Reactor
import Mathlib.Algebra.Order.Group.Multiset
import Mathlib.Data.Multiset.Filter
import Mathlib.Logic.Relation

/-!
# The ledger of the work in the gateway

This is the model of what the gateway is for, without its threads and queues.
Every decoded frame is an item of work of its connection: a request, an AUTH
task or the response made from one of them. Items wait in `intake` between the
decoder and a queue, and in `work` between a queue and the answer; where in the
queues and threads an item is plays no role. `Step` lists what can happen to an
item and to a connection. The history records only the events that concern
connections and their frames.

A connection sees its own part of the ledger, its `Session`.
-/

namespace GatewaySystem

/-- A frame on its way from the decoder to its answer. -/
inductive Item where
  | request (request : Request)
  | task (task : AuthTask)
  | response (response : Response)

namespace Item

def tag : Item → Tag
  | .request own => own.tag
  | .task own => own.tag
  | .response own => own.tag

def key (item : Item) : ConnectionKey := item.tag.key

/-- The item is the given request, or the AUTH task made of it. -/
def Carries (item : Item) (request : Request) : Prop :=
  match item with
  | .request own => own = request
  | .task own => own.request = request
  | .response _ => False

theorem Carries.tag {item : Item} {request : Request} (h : item.Carries request) :
    item.tag = request.tag := by
  cases item with
  | request own => exact congrArg Request.tag h
  | task own => exact congrArg Request.tag h
  | response own => exact h.elim

end Item

/-- Every answer the reactor itself makes to a request. -/
def localAnswers (request : Request) : List Response :=
  [Server.alreadyAuthenticated request, Server.rateLimited request,
    makeOverloadResponse request false, Server.authOverloaded request]

theorem tag_of_mem_localAnswers {request : Request} {response : Response}
    (h : response ∈ localAnswers request) : response.tag = request.tag := by
  simp only [localAnswers, List.mem_cons, List.not_mem_nil, or_false] at h
  rcases h with rfl | rfl | rfl | rfl <;> rfl

/-- The connection after `send` took `count` bytes: an output that is all sent
is cleared. -/
def Connection.advance (connection : Connection) (count : ℕ) : Connection :=
  if connection.writeOffset + count = connection.outputBuffer.length then
    { connection with outputBuffer := [], writeOffset := 0 }
  else { connection with writeOffset := connection.writeOffset + count }

/-- What the authentication step of `applyResponse` makes of a connection and a
response, and the event it leaves. -/
inductive Settles (connection : Connection) (response : Response) :
    Connection → Response → List Event → Prop
  | authenticated {clientId : Bytes} (h : response.clientIdToAuthenticate = some clientId) :
      Settles connection response
        { connection with authenticated := true, clientId := clientId } response
        [.authenticated ⟨response.fd, connection.connId⟩ clientId]
  | refused (h : response.clientIdToAuthenticate.isSome) :
      Settles connection response connection (Server.refuseConnection response) []
  | unchanged (h : response.clientIdToAuthenticate = none) :
      Settles connection response connection response []

@[ext] structure Ledger where
  state : ServerState
  connections : Fd → Option Connection
  nextConnId : ℕ
  cancelled : ℕ → Bool
  nextCancellation : ℕ
  /-- The items a queue has accepted and that are not answered. -/
  work : Multiset Item
  /-- The decoded items that are not yet offered to a queue or answered. -/
  intake : Multiset Item
  /-- The connection whose item was accepted and is not yet counted. -/
  admitted : Option ConnectionKey
  history : List Event

namespace Ledger

/-- The ledger of a server that was just started. -/
def initial : Ledger where
  state := .running
  connections _ := none
  nextConnId := 1
  cancelled _ := false
  nextCancellation := 0
  work := 0
  intake := 0
  admitted := none
  history := []

def set (l : Ledger) (fd : Fd) (connection : Connection) : Ledger :=
  { l with connections := Function.update l.connections fd (some connection) }

def record (l : Ledger) (events : List Event) : Ledger :=
  { l with history := events ++ l.history }

/-- Remove a connection; its cell, if it has one, is set. -/
def close (l : Ledger) (fd : Fd) (connection : Connection) : Ledger :=
  { l with
    connections := Function.update l.connections fd none
    cancelled := match connection.authCancellation with
      | none => l.cancelled
      | some cell => Function.update l.cancelled cell true }

/-- Where a response of the given origin comes from. -/
def source (l : Ledger) : ResponseOrigin → Multiset Item
  | .worker => l.work
  | .reactor => l.intake

/-- The ledger with the source of a response reduced to `rest`. -/
def take (l : Ledger) (origin : ResponseOrigin) (rest : Multiset Item) : Ledger :=
  { l with
    work := match origin with
      | .worker => rest
      | .reactor => l.work
    intake := match origin with
      | .worker => l.intake
      | .reactor => rest }

/-- `canCloseAfterDrain`. -/
def Drained (l : Ledger) (connection : Connection) : Prop :=
  (connection.closing = true ∨ connection.readEof = true ∨ l.state = .draining) ∧
    connection.inFlightWork = 0 ∧ connection.outputBuffer.length ≤ connection.writeOffset

/-- No frame is being taken in. -/
def Quiet (l : Ledger) : Prop := l.intake = 0 ∧ l.admitted = none

/-- The live connection with the given key. -/
def Live (l : Ledger) (key : ConnectionKey) (connection : Connection) : Prop :=
  l.connections key.fd = some connection ∧ connection.connId = key.connId

/-- The items `decodeAndEnqueue` makes of the frames of an authenticated
connection: every frame is either passed on or answered. -/
structure BusinessItems (requests : List Request) (items : Multiset Item) : Prop where
  tags : items.map Item.tag = (requests.map Request.tag : Multiset Tag)
  origin : ∀ item ∈ items, ∃ request ∈ requests,
    item = .request request ∧ request.type ≠ .auth ∨
      ∃ response ∈ localAnswers request, item = .response response ∧ response.BusinessAnswer

/-- What can happen to the ledger. -/
inductive Step : Ledger → Ledger → Prop
  | accept {l : Ledger} {fd : Fd} (hfree : l.connections fd = none) (hrun : l.state = .running)
      (hquiet : l.Quiet) :
      Step l (({ l with nextConnId := l.nextConnId + 1 }.set fd
        { fd := fd, connId := l.nextConnId }).record [.accepted ⟨fd, l.nextConnId⟩])
  /-- A number is used up by a connection that could not be registered. -/
  | skip {l : Ledger} : Step l { l with nextConnId := l.nextConnId + 1 }
  | buffer {l : Ledger} {fd : Fd} {c : Connection} (hc : l.connections fd = some c)
      (bytes : Bytes) : Step l (l.set fd { c with inputBuffer := bytes })
  | markEof {l : Ledger} {fd : Fd} {c : Connection} (hc : l.connections fd = some c) :
      Step l (l.set fd { c with readEof := true })
  | send {l : Ledger} {fd : Fd} {c : Connection} (hc : l.connections fd = some c) {count : ℕ}
      (hcount : 0 < count ∧ count ≤ c.unsent.length) (hopen : ¬ l.Drained (c.advance count)) :
      Step l ((l.set fd (c.advance count)).record [.sent ⟨fd, c.connId⟩ (c.unsent.take count)])
  | sendLast {l : Ledger} {fd : Fd} {c : Connection} (hc : l.connections fd = some c) {count : ℕ}
      (hcount : 0 < count ∧ count ≤ c.unsent.length) (hquiet : l.Quiet)
      (hdrained : l.Drained (c.advance count)) :
      Step l ((l.record [.drained ⟨fd, c.connId⟩,
        .sent ⟨fd, c.connId⟩ (c.unsent.take count)]).close fd c)
  | close {l : Ledger} {fd : Fd} {c : Connection} (hc : l.connections fd = some c) :
      Step l (l.close fd c)
  | drain {l : Ledger} {fd : Fd} {c : Connection} (hc : l.connections fd = some c)
      (hquiet : l.Quiet) (hdrained : l.Drained c) :
      Step l ((l.record [.drained ⟨fd, c.connId⟩]).close fd c)
  /-- Frames were decoded and the connection is closed because of one of them. A
  cell is made only for a connection that does not wait for its AUTH. -/
  | decodeClose {l : Ledger} {fd : Fd} {c : Connection} (hc : l.connections fd = some c)
      {requests : List Request} (hkey : ∀ request ∈ requests, request.key = c.key)
      {c' : Connection} {next : ℕ} (hnext : l.nextCancellation ≤ next)
      (hcell : c'.authCancellation = c.authCancellation ∨
        c.authPending = false ∧
          ∃ cell, c'.authCancellation = some cell ∧ l.nextCancellation ≤ cell ∧ cell < next) :
      Step l (({ l with nextCancellation := next }.record
        (requests.map (Event.decoded ⟨fd, c.connId⟩)).reverse).close fd c')
  | decodeBusiness {l : Ledger} {fd : Fd} {c : Connection} (hc : l.connections fd = some c)
      (hrun : l.state = .running) (hquiet : l.Quiet) (hauth : c.authenticated = true)
      {requests : List Request} (hkey : ∀ request ∈ requests, request.key = c.key)
      {items : Multiset Item} (hitems : BusinessItems requests items) (bytes : Bytes) :
      Step l ({ l.set fd { c with inputBuffer := bytes } with intake := items }.record
        (requests.map (Event.decoded ⟨fd, c.connId⟩)).reverse)
  | decodeAuth {l : Ledger} {fd : Fd} {c : Connection} (hc : l.connections fd = some c)
      (hrun : l.state = .running) (hquiet : l.Quiet)
      (hfresh : c.authenticated = false ∧ c.authPending = false ∧ c.closing = false)
      {request : Request} (hkey : request.key = c.key) (htype : request.type = .auth)
      (bytes : Bytes) :
      Step l ({ l.set fd { c with
            inputBuffer := bytes, authPending := true
            authCancellation := some l.nextCancellation } with
          nextCancellation := l.nextCancellation + 1
          intake := {Item.task ⟨request, l.nextCancellation⟩} }.record
            [.decoded ⟨fd, c.connId⟩ request])
  | enqueue {l : Ledger} {item : Item} {rest : Multiset Item} (hintake : l.intake = item ::ₘ rest)
      (hadmitted : l.admitted = none) {request : Request} (hitem : item.Carries request) :
      Step l ({ l with
        work := item ::ₘ l.work, intake := rest, admitted := some item.key }.record
          [.admitted request])
  /-- A queue refused the item, so the reactor answers it. -/
  | refuse {l : Ledger} {item : Item} {rest : Multiset Item} (hintake : l.intake = item ::ₘ rest)
      {request : Request} (hitem : item.Carries request) {response : Response}
      (hanswer : (∃ own, item = .request own) ∧ response = makeOverloadResponse request false ∨
        (∃ task, item = .task task) ∧ response = Server.authOverloaded request) :
      Step l { l with intake := .response response ::ₘ rest }
  | count {l : Ledger} {key : ConnectionKey} (hadmitted : l.admitted = some key)
      {c : Connection} (hlive : l.Live key c) :
      Step l ({ l with admitted := none }.set key.fd { c with inFlightWork := c.inFlightWork + 1 })
  | countGone {l : Ledger} {key : ConnectionKey} (hadmitted : l.admitted = some key)
      (hgone : ∀ c, ¬ l.Live key c) : Step l { l with admitted := none }
  /-- A worker offered the response it made of an item. -/
  | produce {l : Ledger} {item : Item} {rest : Multiset Item} (hwork : l.work = item ::ₘ rest)
      {request : Request} (hitem : item.Carries request) {response : Response}
      (htag : response.tag = request.tag)
      (hanswer : (∃ own, item = .request own) ∧ response.BusinessAnswer ∨
        (∃ task, item = .task task) ∧ response.AuthAnswer)
      (result : PushResult) :
      Step l ({ l with work := .response response ::ₘ rest }.record
        [.offered request response result])
  /-- A worker dropped a cancelled task. -/
  | cancel {l : Ledger} {task : AuthTask} {rest : Multiset Item}
      (hwork : l.work = .task task ::ₘ rest) (hcancelled : l.cancelled task.cancellation = true) :
      Step l { l with work := rest }
  | stale {l : Ledger} {origin : ResponseOrigin} {response : Response} {rest : Multiset Item}
      (hsource : l.source origin = .response response ::ₘ rest)
      (hgone : ∀ c, ¬ l.Live response.key c) : Step l (l.take origin rest)
  | answer {l : Ledger} {origin : ResponseOrigin} {response : Response} {rest : Multiset Item}
      (hsource : l.source origin = .response response ::ₘ rest) (hadmitted : l.admitted = none)
      {c : Connection} (hlive : l.Live response.key c) {c' : Connection} {answer : Response}
      {extra : List Event}
      (hsettles : Settles (Server.clearAuth response (Server.completeWork origin c)) response
        c' answer extra) {limit : ℕ}
      (hlimit : c'.unsent.length + (ProtocolCodec.encode answer).length ≤ limit) :
      Step l (((l.take origin rest).set response.fd (Server.appendOutput c' answer)).record
        (.appended ⟨response.fd, c.connId⟩ answer limit :: extra))
  | answerClose {l : Ledger} {origin : ResponseOrigin} {response : Response}
      {rest : Multiset Item} (hsource : l.source origin = .response response ::ₘ rest)
      {c : Connection} (hlive : l.Live response.key c) {c' : Connection} {answer : Response}
      {extra : List Event}
      (hsettles : Settles (Server.clearAuth response (Server.completeWork origin c)) response
        c' answer extra) :
      Step l (((l.take origin rest).record extra).close response.fd c')
  /-- The server leaves the running state. -/
  | leave {l : Ledger} (hquiet : l.Quiet) (state : ServerState) (hstate : state ≠ .running) :
      Step l { l with state := state }

/-- What the deadline of the shutdown does: the queues are cleared. -/
inductive Discard : Ledger → Ledger → Prop
  | mk {l : Ledger} {work : Multiset Item} (hwork : work ≤ l.work) {state : ServerState}
      (hstate : state ≠ .running) : Discard l { l with work := work, state := state }

/-! ## The operations on the connections -/

theorem take_le {l : Ledger} {origin : ResponseOrigin} {item : Item} {rest : Multiset Item}
    (h : l.source origin = item ::ₘ rest) :
    (l.take origin rest).work ≤ l.work ∧ (l.take origin rest).intake ≤ l.intake := by
  have hle : rest ≤ l.source origin := h ▸ Multiset.le_cons_self rest item
  cases origin with
  | worker => exact ⟨hle, le_refl _⟩
  | reactor => exact ⟨le_refl _, hle⟩

/-- A cell is set by a close only if it is the one of the connection. -/
theorem close_cancelled {l : Ledger} {fd : Fd} {c : Connection} {cell : ℕ}
    (h : (l.close fd c).cancelled cell = true) :
    l.cancelled cell = true ∨ c.authCancellation = some cell := by
  unfold close at h
  cases hcell : c.authCancellation with
  | none => exact .inl (by simpa [hcell] using h)
  | some own =>
      by_cases heq : cell = own
      · exact .inr (by rw [heq])
      · exact .inl (by simpa [hcell, Function.update_of_ne heq] using h)

theorem update_eq_some {connections : Fd → Option Connection} {fd fd' : Fd}
    {value : Option Connection} {c : Connection}
    (h : Function.update connections fd value fd' = some c) :
    fd' = fd ∧ value = some c ∨ fd' ≠ fd ∧ connections fd' = some c := by
  by_cases heq : fd' = fd
  · subst heq
    rw [Function.update_self] at h
    exact .inl ⟨rfl, h⟩
  · rw [Function.update_of_ne heq] at h
    exact .inr ⟨heq, h⟩

end Ledger

end GatewaySystem
