import GatewaySystem.Net.Session

/-!
# Identity and provenance in the ledger

A step of the ledger is read in three ways, each stated once: what it does to
the connections and their cancellation cells (`Step.change`), which events it
records and why (`Step.justified`), and where the items it leaves come from
(`Step.work_origin`, `Step.intake_origin`). From these follow the identity of
the connections, the ownership of the cells and the provenance of every item:
each leads back to a frame decoded from the connection whose key it carries.
-/

namespace GatewaySystem

/-- The connection an event is about. -/
def Event.subject : Event → Option ConnectionKey
  | .decoded key _ => some key
  | .appended key _ _ => some key
  | .authenticated key _ => some key
  | .sent key _ => some key
  | .drained key => some key
  | _ => none

namespace Ledger

variable {l l' : Ledger} {c : Connection} {extra : List Event}

/-! ## The connections -/

/-- What a step does to the connections and to the cells. -/
inductive Change (l l' : Ledger) : Prop
  | same (hconnections : l'.connections = l.connections) (hcancelled : l'.cancelled = l.cancelled)
  | changed {fd : Fd} {c c' : Connection} (hc : l.connections fd = some c)
      (hconnections : l'.connections = Function.update l.connections fd (some c'))
      (hcancelled : l'.cancelled = l.cancelled) (hfd : c'.fd = c.fd) (hid : c'.connId = c.connId)
      (hcell : ∀ cell, c'.authCancellation = some cell → c.authCancellation = some cell ∨
        cell = l.nextCancellation ∧ l.nextCancellation < l'.nextCancellation)
  | closed {fd : Fd} {c : Connection} (hc : l.connections fd = some c)
      (hconnections : l'.connections = Function.update l.connections fd none)
      (hcancelled : ∀ cell, l'.cancelled cell = true → l.cancelled cell = true ∨
        c.authCancellation = some cell ∨
          l.nextCancellation ≤ cell ∧ cell < l'.nextCancellation)
  | accepted {fd : Fd} (hfree : l.connections fd = none)
      (hconnections : l'.connections =
        Function.update l.connections fd (some { fd := fd, connId := l.nextConnId }))
      (hcancelled : l'.cancelled = l.cancelled) (hnext : l'.nextConnId = l.nextConnId + 1)
      (hhistory : .accepted ⟨fd, l.nextConnId⟩ ∈ l'.history)

/-- Settling keeps the identity of the connection and gives it no new cell. -/
theorem settles_identity {origin : ResponseOrigin} {old c : Connection} {response answer : Response}
    (h : Settles (Server.clearAuth response (Server.completeWork origin old)) response
      c answer extra) :
    c.fd = old.fd ∧ c.connId = old.connId ∧
      ∀ cell, c.authCancellation = some cell → old.authCancellation = some cell := by
  have hclear : (Server.clearAuth response (Server.completeWork origin old)).fd = old.fd ∧
      (Server.clearAuth response (Server.completeWork origin old)).connId = old.connId ∧
      ∀ cell, (Server.clearAuth response (Server.completeWork origin old)).authCancellation =
        some cell → old.authCancellation = some cell := by
    unfold Server.clearAuth
    split <;> cases origin <;> simp [Server.completeWork]
  cases h <;> exact hclear

theorem Step.change (h : Step l l') : Change l l' := by
  cases h with
  | accept hfree => exact .accepted hfree rfl rfl rfl List.mem_cons_self
  | skip | enqueue | refuse | countGone | produce | cancel | stale | leave => exact .same rfl rfl
  | buffer hc | markEof hc =>
      exact .changed hc rfl rfl rfl rfl fun _ hcell => .inl hcell
  | send hc =>
      refine .changed hc rfl rfl ?_ ?_ fun cell hcell => .inl ?_
      · unfold Connection.advance; split <;> rfl
      · unfold Connection.advance; split <;> rfl
      · rwa [(Session.advance_same _ _).2.2.2.2] at hcell
  | sendLast hc | close hc | drain hc =>
      refine .closed hc rfl fun cell hcell => ?_
      rcases close_cancelled hcell with hcell | hcell
      · exact .inl hcell
      · exact .inr (.inl hcell)
  | decodeClose hc _ _ hown =>
      refine .closed hc rfl fun cell hcell => ?_
      rcases close_cancelled hcell with hcell | hcell
      · exact .inl hcell
      · rcases hown with hown | ⟨-, own, hown, hle, hlt⟩
        · exact .inr (.inl (hown ▸ hcell))
        · obtain rfl : own = cell := by simpa [hown] using hcell
          exact .inr (.inr ⟨hle, hlt⟩)
  | decodeBusiness hc => exact .changed hc rfl rfl rfl rfl fun _ hcell => .inl hcell
  | decodeAuth hc =>
      refine .changed hc rfl rfl rfl rfl fun cell hcell => .inr ⟨?_, Nat.lt_succ_self _⟩
      exact (Option.some.inj hcell).symm
  | count _ hlive => exact .changed hlive.1 rfl rfl rfl rfl fun _ hcell => .inl hcell
  | answer _ _ hlive hsettles =>
      obtain ⟨hfd, hid, hcell⟩ := settles_identity hsettles
      exact .changed hlive.1 rfl rfl hfd hid fun cell h => .inl (hcell cell h)
  | answerClose _ hlive hsettles =>
      obtain ⟨-, -, hown⟩ := settles_identity hsettles
      refine .closed hlive.1 rfl fun cell hcell => ?_
      rcases close_cancelled hcell with hcell | hcell
      · exact .inl hcell
      · exact .inr (.inl (hown cell hcell))

/-- The counters only grow. -/
theorem Step.next_le (h : Step l l') :
    l.nextConnId ≤ l'.nextConnId ∧ l.nextCancellation ≤ l'.nextCancellation := by
  cases h with
  | accept | skip => exact ⟨Nat.le_succ _, Nat.le_refl _⟩
  | decodeAuth => exact ⟨Nat.le_refl _, Nat.le_succ _⟩
  | decodeClose _ _ hnext => exact ⟨Nat.le_refl _, hnext⟩
  | _ => exact ⟨Nat.le_refl _, Nat.le_refl _⟩

/-! ## The events -/

/-- Why an event may enter the history. -/
inductive Justified (l l' : Ledger) : Event → Prop
  | accepted (fd : Fd) (hnext : l.nextConnId < l'.nextConnId) :
      Justified l l' (.accepted ⟨fd, l.nextConnId⟩)
  | decoded {fd : Fd} {c : Connection} (hc : l.connections fd = some c) {request : Request}
      (hkey : request.key = c.key) : Justified l l' (.decoded ⟨fd, c.connId⟩ request)
  | admitted {item : Item} (hitem : item ∈ l.intake) {request : Request}
      (hcarries : item.Carries request) : Justified l l' (.admitted request)
  | offered {item : Item} (hitem : item ∈ l.work) {request : Request}
      (hcarries : item.Carries request) {response : Response}
      (htag : response.tag = request.tag) (result : PushResult) :
      Justified l l' (.offered request response result)
  | appended {origin : ResponseOrigin} {response : Response}
      (hitem : .response response ∈ l.source origin) {c : Connection}
      (hlive : l.Live response.key c) {answer : Response} (htag : answer.tag = response.tag)
      (hstays : ∃ c', l'.Live response.key c') (limit : ℕ) :
      Justified l l' (.appended response.key answer limit)
  | authenticated {origin : ResponseOrigin} {response : Response}
      (hitem : .response response ∈ l.source origin) {c : Connection}
      (hlive : l.Live response.key c) {clientId : Bytes}
      (hclient : response.clientIdToAuthenticate = some clientId) :
      Justified l l' (.authenticated response.key clientId)
  | sent {fd : Fd} {c : Connection} (hc : l.connections fd = some c) (bytes : Bytes) :
      Justified l l' (.sent ⟨fd, c.connId⟩ bytes)
  | drained {fd : Fd} {c : Connection} (hc : l.connections fd = some c) (hquiet : l.Quiet)
      (hgone : l'.connections fd = none)
      (hlast : l.Drained c ∧ l'.history = .drained ⟨fd, c.connId⟩ :: l.history ∨
        ∃ count, l.Drained (c.advance count) ∧
          l'.history = .drained ⟨fd, c.connId⟩ ::
            .sent ⟨fd, c.connId⟩ (c.unsent.take count) :: l.history) :
      Justified l l' (.drained ⟨fd, c.connId⟩)

theorem settles_tag {old c : Connection} {response answer : Response}
    (h : Settles old response c answer extra) : answer.tag = response.tag := by
  cases h <;> rfl

theorem settles_justified {origin : ResponseOrigin} {response : Response}
    (hitem : .response response ∈ l.source origin) (hlive : l.Live response.key c) {c' : Connection}
    {answer : Response}
    (h : Settles (Server.clearAuth response (Server.completeWork origin c)) response
      c' answer extra) : ∀ event ∈ extra, Justified l l' event := by
  have hid : (Server.clearAuth response (Server.completeWork origin c)).connId =
      response.connId := by
    unfold Server.clearAuth
    split <;> cases origin <;> exact hlive.2
  cases h with
  | authenticated hclient =>
      intro event hevent
      rw [List.mem_singleton.mp hevent, hid]
      exact .authenticated hitem hlive hclient
  | refused | unchanged => simp

theorem decoded_justified {fd : Fd} (hc : l.connections fd = some c) {requests : List Request}
    (hkey : ∀ request ∈ requests, request.key = c.key) :
    ∀ event ∈ (requests.map (Event.decoded ⟨fd, c.connId⟩)).reverse, Justified l l' event := by
  intro event hevent
  obtain ⟨request, hrequest, rfl⟩ := List.mem_map.mp (List.mem_reverse.mp hevent)
  exact .decoded hc (hkey request hrequest)

theorem Step.justified (h : Step l l') :
    ∃ events, l'.history = events ++ l.history ∧ ∀ event ∈ events, Justified l l' event := by
  cases h with
  | skip | buffer | markEof | close | refuse | count | countGone | cancel | stale | leave =>
      exact ⟨[], rfl, by simp⟩
  | accept => exact ⟨_, rfl, by simpa using .accepted _ (Nat.lt_succ_self _)⟩
  | send hc => exact ⟨_, rfl, by simpa using .sent hc _⟩
  | sendLast hc _ hquiet hdrained =>
      refine ⟨_, rfl, fun event hevent => ?_⟩
      rcases List.mem_cons.mp hevent with rfl | hevent
      · exact .drained hc hquiet (Function.update_self ..)
          (.inr ⟨_, hdrained, rfl⟩)
      · rw [List.mem_singleton.mp hevent]
        exact .sent hc _
  | drain hc hquiet hdrained =>
      refine ⟨_, rfl, fun event hevent => ?_⟩
      rw [List.mem_singleton.mp hevent]
      exact .drained hc hquiet (Function.update_self ..) (.inl ⟨hdrained, rfl⟩)
  | decodeClose hc hkey => exact ⟨_, rfl, decoded_justified hc hkey⟩
  | decodeBusiness hc _ _ _ hkey => exact ⟨_, rfl, decoded_justified hc hkey⟩
  | decodeAuth hc _ _ _ hkey => exact ⟨_, rfl, by simpa using .decoded hc hkey⟩
  | enqueue hintake _ hitem =>
      exact ⟨_, rfl, by simpa using .admitted (hintake ▸ Multiset.mem_cons_self _ _) hitem⟩
  | produce hwork hitem htag _ result =>
      exact ⟨_, rfl, by
        simpa using .offered (hwork ▸ Multiset.mem_cons_self _ _) hitem htag result⟩
  | answer hsource _ hlive hsettles =>
      have hitem := hsource ▸ Multiset.mem_cons_self _ _
      refine ⟨_, rfl, fun event hevent => ?_⟩
      rcases List.mem_cons.mp hevent with rfl | hevent
      · rw [hlive.2]
        refine .appended hitem hlive (settles_tag hsettles) ⟨_, Function.update_self .., ?_⟩ _
        exact (settles_identity hsettles).2.1.trans hlive.2
      · exact settles_justified hitem hlive hsettles event hevent
  | answerClose hsource hlive hsettles =>
      exact ⟨_, rfl, settles_justified (hsource ▸ Multiset.mem_cons_self _ _) hlive hsettles⟩

theorem Step.history_suffix (h : Step l l') : l.history <:+ l'.history := by
  obtain ⟨events, hhistory, -⟩ := h.justified
  exact ⟨events, hhistory.symm⟩

/-! ## The identity of connections -/

/-- Connections stand under their descriptor and have numbers of their own. -/
structure Identified (l : Ledger) : Prop where
  fd : ∀ fd c, l.connections fd = some c → c.fd = fd
  accepted : ∀ fd c, l.connections fd = some c → .accepted ⟨fd, c.connId⟩ ∈ l.history
  fresh : ∀ key, .accepted key ∈ l.history → key.connId < l.nextConnId
  subject : ∀ event ∈ l.history, ∀ key, event.subject = some key → .accepted key ∈ l.history

/-- A connection after a step is a later state of the one before, or new. -/
theorem Step.origin (hstep : Step l l') {fd : Fd} (hc : l'.connections fd = some c) :
    (∃ old, l.connections fd = some old ∧ c.fd = old.fd ∧ c.connId = old.connId) ∨
      l.connections fd = none ∧ c = { fd := fd, connId := l.nextConnId } ∧
        .accepted ⟨fd, l.nextConnId⟩ ∈ l'.history := by
  cases hstep.change with
  | same hconnections =>
      rw [hconnections] at hc
      exact .inl ⟨c, hc, rfl, rfl⟩
  | changed hold hconnections _ hfd hid =>
      rw [hconnections] at hc
      rcases update_eq_some hc with ⟨heq, hnew⟩ | ⟨-, hc⟩
      · obtain rfl := Option.some.inj hnew
        exact .inl ⟨_, heq ▸ hold, hfd, hid⟩
      · exact .inl ⟨c, hc, rfl, rfl⟩
  | closed _ hconnections =>
      rw [hconnections] at hc
      rcases update_eq_some hc with ⟨-, hnew⟩ | ⟨-, hc⟩
      · cases hnew
      · exact .inl ⟨c, hc, rfl, rfl⟩
  | accepted hfree hconnections _ _ hhistory =>
      rw [hconnections] at hc
      rcases update_eq_some hc with ⟨heq, hnew⟩ | ⟨-, hc⟩
      · obtain rfl := Option.some.inj hnew
        exact .inr ⟨heq ▸ hfree, by rw [heq], heq ▸ hhistory⟩
      · exact .inl ⟨c, hc, rfl, rfl⟩

/-- A new event is about a live connection. -/
theorem Justified.subject_live {event : Event} (h : Justified l l' event) {key : ConnectionKey}
    (hkey : event.subject = some key) : ∃ c, l.Live key c := by
  cases h with
  | decoded hc | sent hc | drained hc =>
      cases hkey
      exact ⟨_, hc, rfl⟩
  | appended _ hlive | authenticated _ hlive =>
      cases hkey
      exact ⟨_, hlive⟩
  | accepted | admitted | offered => cases hkey

theorem Step.identified (hstep : Step l l') (h : Identified l) : Identified l' where
  fd fd c hc := by
    rcases hstep.origin hc with ⟨old, hold, hfd, -⟩ | ⟨-, rfl, -⟩
    · exact hfd.trans (h.fd fd old hold)
    · rfl
  accepted fd c hc := by
    rcases hstep.origin hc with ⟨old, hold, -, hid⟩ | ⟨-, rfl, hnew⟩
    · rw [hid]
      exact hstep.history_suffix.subset (h.accepted fd old hold)
    · exact hnew
  fresh key hkey := by
    obtain ⟨events, hhistory, hjustified⟩ := hstep.justified
    rw [hhistory] at hkey
    rcases List.mem_append.mp hkey with hkey | hkey
    · cases hjustified _ hkey with
      | accepted _ hnext => exact hnext
    · exact (h.fresh key hkey).trans_le hstep.next_le.1
  subject event hevent key hkey := by
    obtain ⟨events, hhistory, hjustified⟩ := hstep.justified
    rw [hhistory] at hevent
    rcases List.mem_append.mp hevent with hevent | hevent
    · obtain ⟨c, hlive⟩ := (hjustified event hevent).subject_live hkey
      have haccepted := h.accepted _ _ hlive.1
      rw [hlive.2] at haccepted
      exact hstep.history_suffix.subset haccepted
    · exact hstep.history_suffix.subset (h.subject event hevent key hkey)

theorem Identified.connId_lt (h : Identified l) {fd : Fd} (hc : l.connections fd = some c) :
    c.connId < l.nextConnId :=
  h.fresh _ (h.accepted fd c hc)

theorem Identified.subject_lt (h : Identified l) {event : Event} (hevent : event ∈ l.history)
    {key : ConnectionKey} (hkey : event.subject = some key) : key.connId < l.nextConnId :=
  h.fresh _ (h.subject event hevent key hkey)

/-! ## The cancellation cells -/

/-- A cell that a live connection holds is its own and is not set. -/
structure Cells (l : Ledger) : Prop where
  bound : ∀ cell, l.cancelled cell = true → cell < l.nextCancellation
  held : ∀ fd c cell, l.connections fd = some c → c.authCancellation = some cell →
    l.cancelled cell = false ∧ cell < l.nextCancellation
  unique : ∀ fd fd' c c' cell, l.connections fd = some c → l.connections fd' = some c' →
    c.authCancellation = some cell → c'.authCancellation = some cell → fd = fd'

/-- A cell that is held after a step was held before, or was just made. -/
theorem Step.cell_origin (hstep : Step l l') {fd : Fd} {cell : ℕ} (hc : l'.connections fd = some c)
    (hcell : c.authCancellation = some cell) :
    (∃ old, l.connections fd = some old ∧ old.authCancellation = some cell) ∨
      cell = l.nextCancellation ∧ l.nextCancellation < l'.nextCancellation ∧
        l'.cancelled = l.cancelled ∧ ∀ fd', fd' ≠ fd → l'.connections fd' = l.connections fd' := by
  cases hstep.change with
  | same hconnections => exact .inl ⟨c, hconnections ▸ hc, hcell⟩
  | changed hold hconnections hcancelled _ _ hown =>
      rw [hconnections] at hc
      rcases update_eq_some hc with ⟨heq, hnew⟩ | ⟨-, hc⟩
      · obtain rfl := Option.some.inj hnew
        rcases hown cell hcell with hcell | ⟨hfresh, hnext⟩
        · exact .inl ⟨_, heq ▸ hold, hcell⟩
        · refine .inr ⟨hfresh, hnext, hcancelled, fun fd' hne => ?_⟩
          rw [hconnections, ← heq, Function.update_of_ne hne]
      · exact .inl ⟨c, hc, hcell⟩
  | closed _ hconnections =>
      rw [hconnections] at hc
      rcases update_eq_some hc with ⟨-, hnew⟩ | ⟨-, hc⟩
      · cases hnew
      · exact .inl ⟨c, hc, hcell⟩
  | accepted _ hconnections =>
      rw [hconnections] at hc
      rcases update_eq_some hc with ⟨-, hnew⟩ | ⟨-, hc⟩
      · obtain rfl := Option.some.inj hnew
        cases hcell
      · exact .inl ⟨c, hc, hcell⟩

/-- A cell that is set after a step was set before, or its connection was
closed. -/
theorem Step.cancelled_origin (hstep : Step l l') {cell : ℕ} (hcell : l'.cancelled cell = true) :
    l.cancelled cell = true ∨
      (∃ fd old, l.connections fd = some old ∧ old.authCancellation = some cell ∧
        l'.connections fd = none) ∨
      l.nextCancellation ≤ cell ∧ cell < l'.nextCancellation := by
  cases hstep.change with
  | same _ hcancelled | changed _ _ hcancelled | accepted _ _ hcancelled =>
      exact .inl (hcancelled ▸ hcell)
  | closed hold hconnections hcancelled =>
      rcases hcancelled cell hcell with hcell | hcell | hcell
      · exact .inl hcell
      · exact .inr (.inl ⟨_, _, hold, hcell, by rw [hconnections, Function.update_self]⟩)
      · exact .inr (.inr hcell)

theorem Step.cells (hstep : Step l l') (h : Cells l) : Cells l' := by
  have hnext := hstep.next_le.2
  refine ⟨?_, ?_, ?_⟩
  · intro cell hcell
    rcases hstep.cancelled_origin hcell with hcell | ⟨fd, old, hold, hcell, -⟩ | ⟨-, hlt⟩
    · exact (h.bound cell hcell).trans_le hnext
    · exact (h.held fd old cell hold hcell).2.trans_le hnext
    · exact hlt
  · intro fd c cell hc hcell
    rcases hstep.cell_origin hc hcell with ⟨old, hold, hcell⟩ | ⟨rfl, hlt, hcancelled, -⟩
    · obtain ⟨hclear, hlt⟩ := h.held fd old cell hold hcell
      refine ⟨?_, hlt.trans_le hnext⟩
      by_contra hset
      rcases hstep.cancelled_origin (Bool.eq_true_of_not_eq_false hset) with
        hset | ⟨fd', old', hold', hcell', hgone⟩ | ⟨hle, -⟩
      · rw [hclear] at hset
        cases hset
      · -- the cell belongs to one connection only, and that one was not closed
        obtain rfl := h.unique fd fd' old old' cell hold hold' hcell hcell'
        rw [hgone] at hc
        cases hc
      · exact absurd hlt hle.not_gt
    · refine ⟨?_, hlt⟩
      rw [hcancelled]
      by_contra hset
      exact absurd (h.bound _ (Bool.eq_true_of_not_eq_false hset)) (lt_irrefl _)
  · intro fd fd' c c' cell hc hc' hcell hcell'
    rcases hstep.cell_origin hc hcell with ⟨old, hold, hheld⟩ | ⟨rfl, -, -, hother⟩
    · rcases hstep.cell_origin hc' hcell' with ⟨old', hold', hheld'⟩ | ⟨rfl, -⟩
      · exact h.unique fd fd' old old' cell hold hold' hheld hheld'
      · exact absurd (h.held fd old _ hold hheld).2 (lt_irrefl _)
    · by_contra hne
      rw [hother fd' (Ne.symm hne)] at hc'
      exact absurd (h.held fd' c' _ hc' hcell').2 (lt_irrefl _)

/-! ## The items -/

/-- Where an item comes from: a request or a task from a decoded frame, a
response from a worker or from the reactor itself. -/
def Traced (history : List Event) (origin : ResponseOrigin) : Item → Prop
  | .request request => .decoded request.key request ∈ history
  | .task task => .decoded task.key task.request ∈ history
  | .response response =>
      match origin with
      | .worker => ∃ request result, .offered request response result ∈ history
      | .reactor => ∃ request, .decoded request.key request ∈ history ∧
          response ∈ localAnswers request

theorem Traced.mono {history history' : List Event} {origin : ResponseOrigin} {item : Item}
    (h : Traced history origin item) (hgrows : history <:+ history') :
    Traced history' origin item := by
  cases item with
  | request | task => exact hgrows.subset h
  | response response =>
      cases origin with
      | worker =>
          obtain ⟨request, result, hevent⟩ := h
          exact ⟨request, result, hgrows.subset hevent⟩
      | reactor =>
          obtain ⟨request, hevent, hlocal⟩ := h
          exact ⟨request, hgrows.subset hevent, hlocal⟩

/-- An item that carries a request has the trace of the request. -/
theorem carries_traced {item : Item} {request : Request} (h : item.Carries request)
    {history : List Event} {origin : ResponseOrigin} :
    Traced history origin item ↔ .decoded request.key request ∈ history := by
  cases item with
  | request own => cases h; exact Iff.rfl
  | task own => cases h; exact Iff.rfl
  | response own => exact h.elim

/-- Every frame and every item leads back to a decoded frame of a connection
that was accepted. -/
structure Sourced (l : Ledger) : Prop where
  decoded : ∀ key request, .decoded key request ∈ l.history → request.key = key
  admitted : ∀ request, .admitted request ∈ l.history → .decoded request.key request ∈ l.history
  offered : ∀ request response result, .offered request response result ∈ l.history →
    response.tag = request.tag ∧ .decoded request.key request ∈ l.history
  work : ∀ item ∈ l.work, Traced l.history .worker item
  intake : ∀ item ∈ l.intake, Traced l.history .reactor item

theorem Step.work_origin (hstep : Step l l') {item : Item} (hitem : item ∈ l'.work) :
    item ∈ l.work ∨ (∃ request, item.Carries request) ∧ item ∈ l.intake ∨
      ∃ request response result, item = .response response ∧
        .offered request response result ∈ l'.history := by
  cases hstep with
  | enqueue hintake _ hcarries =>
      rcases Multiset.mem_cons.mp hitem with rfl | hitem
      · exact .inr (.inl ⟨⟨_, hcarries⟩, hintake ▸ Multiset.mem_cons_self _ _⟩)
      · exact .inl hitem
  | produce hwork =>
      rcases Multiset.mem_cons.mp hitem with rfl | hitem
      · exact .inr (.inr ⟨_, _, _, rfl, List.mem_cons_self⟩)
      · exact .inl (hwork ▸ Multiset.mem_cons_of_mem hitem)
  | cancel hwork => exact .inl (hwork ▸ Multiset.mem_cons_of_mem hitem)
  | stale hsource | answer hsource | answerClose hsource =>
      exact .inl (Multiset.mem_of_le (take_le hsource).1 hitem)
  | _ => exact .inl hitem

theorem Step.intake_origin (hstep : Step l l') {item : Item} (hitem : item ∈ l'.intake) :
    item ∈ l.intake ∨ ∃ request,
      ((∃ key, .decoded key request ∈ l'.history) ∨
        ∃ own ∈ l.intake, own.Carries request) ∧
      (item.Carries request ∨ ∃ response ∈ localAnswers request, item = .response response) := by
  cases hstep with
  | @decodeBusiness fd c _ _ _ _ requests _ _ hitems =>
      obtain ⟨request, hrequest, horigin⟩ := hitems.origin item hitem
      refine .inr ⟨request, .inl ⟨⟨fd, c.connId⟩, ?_⟩, ?_⟩
      · exact List.mem_append_left _
          (List.mem_reverse.mpr (List.mem_map.mpr ⟨request, hrequest, rfl⟩))
      · rcases horigin with ⟨rfl, -⟩ | ⟨response, hlocal, rfl, -⟩
        · exact .inl rfl
        · exact .inr ⟨response, hlocal, rfl⟩
  | @decodeAuth fd c _ _ _ _ request =>
      rw [Multiset.mem_singleton.mp hitem]
      exact .inr ⟨request, .inl ⟨_, List.mem_cons_self⟩, .inl rfl⟩
  | enqueue hintake => exact .inl (hintake ▸ Multiset.mem_cons_of_mem hitem)
  | refuse hintake hcarries hanswer =>
      rcases Multiset.mem_cons.mp hitem with rfl | hitem
      · refine .inr ⟨_, .inr ⟨_, hintake ▸ Multiset.mem_cons_self _ _, hcarries⟩, .inr ⟨_, ?_, rfl⟩⟩
        rcases hanswer with ⟨-, rfl⟩ | ⟨-, rfl⟩ <;> simp [localAnswers]
      · exact .inl (hintake ▸ Multiset.mem_cons_of_mem hitem)
  | stale hsource | answer hsource | answerClose hsource =>
      exact .inl (Multiset.mem_of_le (take_le hsource).2 hitem)
  | _ => exact .inl hitem

theorem Step.sourced (hstep : Step l l') (hid : Identified l) (h : Sourced l) : Sourced l' := by
  have hgrows := hstep.history_suffix
  obtain ⟨events, hhistory, hjustified⟩ := hstep.justified
  have hdecoded : ∀ key request, .decoded key request ∈ l'.history → request.key = key := by
    intro key request hevent
    rw [hhistory] at hevent
    rcases List.mem_append.mp hevent with hevent | hevent
    · cases hjustified _ hevent with
      | @decoded fd c hc _ hkey =>
          rw [hkey, ← hid.fd fd c hc]
          rfl
    · exact h.decoded key request hevent
  refine ⟨hdecoded, ?_, ?_, ?_, ?_⟩
  · intro request hevent
    rw [hhistory] at hevent
    rcases List.mem_append.mp hevent with hevent | hevent
    · cases hjustified _ hevent with
      | admitted hitem hcarries =>
          exact hgrows.subset ((carries_traced hcarries).mp (h.intake _ hitem))
    · exact hgrows.subset (h.admitted request hevent)
  · intro request response result hevent
    rw [hhistory] at hevent
    rcases List.mem_append.mp hevent with hevent | hevent
    · cases hjustified _ hevent with
      | offered hitem hcarries htag =>
          exact ⟨htag, hgrows.subset ((carries_traced hcarries).mp (h.work _ hitem))⟩
    · exact (h.offered request response result hevent).imp_right fun hdecoded =>
        hgrows.subset hdecoded
  · intro item hitem
    rcases hstep.work_origin hitem with hitem | ⟨⟨request, hcarries⟩, hitem⟩ |
      ⟨request, response, result, rfl, hoffered⟩
    · exact (h.work item hitem).mono hgrows
    · rw [carries_traced hcarries, ← carries_traced hcarries]
      exact (h.intake item hitem).mono hgrows
    · exact ⟨request, result, hoffered⟩
  · intro item hitem
    rcases hstep.intake_origin hitem with hitem | ⟨request, hrequest, hmade⟩
    · exact (h.intake item hitem).mono hgrows
    · have hevent : .decoded request.key request ∈ l'.history := by
        rcases hrequest with ⟨key, hevent⟩ | ⟨own, hown, hcarries⟩
        · rwa [hdecoded key request hevent]
        · exact hgrows.subset ((carries_traced hcarries).mp (h.intake own hown))
      rcases hmade with hcarries | ⟨response, hlocal, rfl⟩
      · exact (carries_traced hcarries).mpr hevent
      · exact ⟨request, hevent, hlocal⟩

/-- Every item has the tag of a decoded frame. -/
theorem Sourced.item (h : Sourced l) (origin : ResponseOrigin) {item : Item}
    (hitem : item ∈ l.source origin) :
    ∃ request, .decoded item.key request ∈ l.history ∧ request.tag = item.tag := by
  have htraced : Traced l.history origin item := by
    cases origin with
    | worker => exact h.work item hitem
    | reactor => exact h.intake item hitem
  cases item with
  | request own => exact ⟨own, htraced, rfl⟩
  | task own => exact ⟨own.request, htraced, rfl⟩
  | response own =>
      cases origin with
      | worker =>
          obtain ⟨request, result, hoffered⟩ := htraced
          obtain ⟨htag, hdecoded⟩ := h.offered request own result hoffered
          have hkey : own.key = request.key := congrArg Tag.key htag
          exact ⟨request, by rwa [Item.key, Item.tag, Response.tag_key, hkey], htag.symm⟩
      | reactor =>
          obtain ⟨request, hdecoded, hlocal⟩ := htraced
          have htag := tag_of_mem_localAnswers hlocal
          have hkey : own.key = request.key := congrArg Tag.key htag
          exact ⟨request, by rwa [Item.key, Item.tag, Response.tag_key, hkey], htag.symm⟩

end Ledger

end GatewaySystem
