import GatewaySystem.Net.Provenance

/-!
# The ledger as its connections see it

A live connection sees its session of the ledger. A step of the ledger is to
it a step of that session or no step at all (`Step.session`), so the invariants
of sessions hold of every live connection along every run. The transcript of a
connection that is gone no longer changes, which carries what held at its last
moment to the end of the run.
-/

namespace GatewaySystem

namespace Event

def decodedBy (key : ConnectionKey) : Event → Option Request
  | .decoded own request => if own = key then some request else none
  | _ => none

def appendedBy (key : ConnectionKey) : Event → Option (Response × ℕ)
  | .appended own response limit => if own = key then some (response, limit) else none
  | _ => none

def sentBy (key : ConnectionKey) : Event → Option Bytes
  | .sent own bytes => if own = key then some bytes else none
  | _ => none

/-- The request of an admission on the given connection. -/
def admittedBy (key : ConnectionKey) : Event → Option Request
  | .admitted request => if request.key = key then some request else none
  | _ => none

/-- An event of another connection leaves no mark in a transcript. -/
theorem views_eq_none {key : ConnectionKey} {event : Event} (h : event.subject ≠ some key) :
    decodedBy key event = none ∧ appendedBy key event = none ∧ sentBy key event = none := by
  cases event with
  | decoded own | appended own | authenticated own | sent own | drained own =>
      have hne : own ≠ key := fun heq => h (by rw [heq]; rfl)
      simp [decodedBy, appendedBy, sentBy, hne]
  | _ => exact ⟨rfl, rfl, rfl⟩

end Event

/-- The part of a history that concerns the frames of one connection. -/
def transcriptOf (history : List Event) (key : ConnectionKey) : Transcript where
  decoded := history.filterMap (Event.decodedBy key)
  appended := history.filterMap (Event.appendedBy key)
  sent := history.filterMap (Event.sentBy key)

variable {key : ConnectionKey}

theorem transcriptOf_append_other {events history : List Event}
    (h : ∀ event ∈ events, event.subject ≠ some key) :
    transcriptOf (events ++ history) key = transcriptOf history key := by
  have hdecoded : events.filterMap (Event.decodedBy key) = [] :=
    List.filterMap_eq_nil_iff.mpr fun event hevent => (Event.views_eq_none (h event hevent)).1
  have happended : events.filterMap (Event.appendedBy key) = [] :=
    List.filterMap_eq_nil_iff.mpr fun event hevent => (Event.views_eq_none (h event hevent)).2.1
  have hsent : events.filterMap (Event.sentBy key) = [] :=
    List.filterMap_eq_nil_iff.mpr fun event hevent => (Event.views_eq_none (h event hevent)).2.2
  simp [transcriptOf, List.filterMap_append, hdecoded, happended, hsent]

theorem transcriptOf_decoded (requests : List Request) (history : List Event)
    (key : ConnectionKey) :
    transcriptOf ((requests.map (Event.decoded key)).reverse ++ history) key =
      { transcriptOf history key with
        decoded := requests.reverse ++ (transcriptOf history key).decoded } := by
  have hdecoded : ((requests.map (Event.decoded key)).reverse).filterMap (Event.decodedBy key) =
      requests.reverse := by
    rw [← List.map_reverse, List.filterMap_map]
    simp [Function.comp_def, Event.decodedBy]
  have happended : ((requests.map (Event.decoded key)).reverse).filterMap
      (Event.appendedBy key) = [] := by
    rw [← List.map_reverse, List.filterMap_map]
    simp [Function.comp_def, Event.appendedBy]
  have hsent : ((requests.map (Event.decoded key)).reverse).filterMap (Event.sentBy key) = [] := by
    rw [← List.map_reverse, List.filterMap_map]
    simp [Function.comp_def, Event.sentBy]
  simp only [transcriptOf, List.filterMap_append, hdecoded, happended, hsent, List.nil_append]

theorem transcriptOf_sent (key : ConnectionKey) (bytes : Bytes) (history : List Event) :
    transcriptOf (.sent key bytes :: history) key =
      { transcriptOf history key with sent := bytes :: (transcriptOf history key).sent } := by
  simp [transcriptOf, List.filterMap_cons, Event.decodedBy, Event.appendedBy, Event.sentBy]

theorem transcriptOf_appended (key : ConnectionKey) (response : Response) (limit : ℕ)
    (history : List Event) :
    transcriptOf (.appended key response limit :: history) key =
      { transcriptOf history key with
        appended := (response, limit) :: (transcriptOf history key).appended } := by
  simp [transcriptOf, List.filterMap_cons, Event.decodedBy, Event.appendedBy, Event.sentBy]

/-- The items of one connection. -/
def itemsOf (items : Multiset Item) (key : ConnectionKey) : Multiset Item :=
  items.filter fun item => item.key = key

@[simp] theorem itemsOf_zero (key : ConnectionKey) : itemsOf 0 key = 0 := rfl

theorem itemsOf_cons_self (item : Item) (items : Multiset Item) :
    itemsOf (item ::ₘ items) item.key = item ::ₘ itemsOf items item.key :=
  Multiset.filter_cons_of_pos _ rfl

theorem itemsOf_cons_other {item : Item} (items : Multiset Item) (h : item.key ≠ key) :
    itemsOf (item ::ₘ items) key = itemsOf items key :=
  Multiset.filter_cons_of_neg _ h

theorem itemsOf_eq_self {items : Multiset Item} (h : ∀ item ∈ items, item.key = key) :
    itemsOf items key = items :=
  Multiset.filter_eq_self.mpr h

theorem itemsOf_eq_zero {items : Multiset Item} (h : ∀ item ∈ items, item.key ≠ key) :
    itemsOf items key = 0 :=
  Multiset.filter_eq_nil.mpr h

namespace Ledger

variable {l l' : Ledger} {c : Connection} {fd : Fd} {rest : Multiset Item} {response : Response}
  {request : Request} {requests : List Request} {key : ConnectionKey} {extra : List Event}
  {item : Item}

/-- What the connection at a descriptor sees of the ledger. -/
def session (l : Ledger) (fd : Fd) (c : Connection) : Session where
  connection := c
  transcript := transcriptOf l.history ⟨fd, c.connId⟩
  work := itemsOf l.work ⟨fd, c.connId⟩
  intake := itemsOf l.intake ⟨fd, c.connId⟩
  admitted := if l.admitted = some ⟨fd, c.connId⟩ then 1 else 0

theorem business_items_key {items : Multiset Item} (hitems : BusinessItems requests items)
    (hkey : ∀ request ∈ requests, request.key = key) : ∀ item ∈ items, item.key = key := by
  intro item hitem
  obtain ⟨request, hrequest, ⟨rfl, -⟩ | ⟨response, hlocal, rfl, -⟩⟩ := hitems.origin item hitem
  · exact hkey request hrequest
  · have htag := tag_of_mem_localAnswers hlocal
    exact (congrArg Tag.key htag).trans (hkey request hrequest)

/-- What a connection at a descriptor after a step sees of the step. -/
def Sees (l l' : Ledger) (fd : Fd) (c' : Connection) : Prop :=
  (∃ c, l.connections fd = some c ∧ c'.connId = c.connId ∧
    Relation.ReflGen Session.Step (l.session fd c) (l'.session fd c')) ∨
  l.connections fd = none ∧ l'.session fd c' = Session.opened fd l.nextConnId

theorem session_eq (hwork : itemsOf l'.work ⟨fd, c.connId⟩ = itemsOf l.work ⟨fd, c.connId⟩)
    (hintake : itemsOf l'.intake ⟨fd, c.connId⟩ = itemsOf l.intake ⟨fd, c.connId⟩)
    (hadmitted : l'.admitted = some ⟨fd, c.connId⟩ ↔ l.admitted = some ⟨fd, c.connId⟩)
    (htranscript : transcriptOf l'.history ⟨fd, c.connId⟩ = transcriptOf l.history ⟨fd, c.connId⟩) :
    l'.session fd c = l.session fd c := by
  simp only [session, hwork, hintake, hadmitted, htranscript]

/-- A connection whose session is unchanged sees nothing. -/
theorem Sees.of_eq (hc : l.connections fd = some c) (h : l'.session fd c = l.session fd c) :
    Sees l l' fd c :=
  .inl ⟨c, hc, rfl, h ▸ .refl⟩

/-- The events of another descriptor leave a session alone. -/
theorem Sees.other {fd fd' : Fd} (hc : l.connections fd' = some c) (hne : fd' ≠ fd)
    {events : List Event}
    (hevents : ∀ event ∈ events, ∀ key, event.subject = some key → key.fd = fd)
    (hwork : itemsOf l'.work ⟨fd', c.connId⟩ = itemsOf l.work ⟨fd', c.connId⟩)
    (hintake : itemsOf l'.intake ⟨fd', c.connId⟩ = itemsOf l.intake ⟨fd', c.connId⟩)
    (hadmitted : l'.admitted = l.admitted) (hhistory : l'.history = events ++ l.history) :
    Sees l l' fd' c := by
  refine .of_eq hc (session_eq hwork hintake (by rw [hadmitted]) ?_)
  rw [hhistory]
  refine transcriptOf_append_other fun event hevent hsubject => hne ?_
  exact hevents event hevent _ hsubject

theorem decoded_subject {connId : ℕ} :
    ∀ event ∈ (requests.map (Event.decoded ⟨fd, connId⟩)).reverse, ∀ key,
      event.subject = some key → key.fd = fd := by
  intro event hevent key hkey
  obtain ⟨request, -, rfl⟩ := List.mem_map.mp (List.mem_reverse.mp hevent)
  cases hkey
  rfl

theorem settles_subject {old c : Connection} {response answer : Response}
    (h : Settles old response c answer extra) :
    ∀ event ∈ extra, ∀ key, event.subject = some key → key.fd = response.fd := by
  cases h with
  | authenticated hclient =>
      intro event hevent key hkey
      rw [List.mem_singleton.mp hevent] at hkey
      cases hkey
      rfl
  | refused | unchanged => simp

theorem settles_transcript {old c : Connection} {response answer : Response}
    (h : Settles old response c answer extra) (history : List Event) (key : ConnectionKey) :
    transcriptOf (extra ++ history) key = transcriptOf history key := by
  cases h <;> rfl

/-- A connection that was just accepted has no item and an empty transcript. -/
theorem session_accept (hid : Identified l) (hsourced : Sourced l) (hquiet : l.Quiet) (fd : Fd)
    (hc : c = { fd := fd, connId := l.nextConnId }) :
    (({ l with nextConnId := l.nextConnId + 1 }.set fd c).record
      [.accepted ⟨fd, l.nextConnId⟩]).session fd c = Session.opened fd l.nextConnId := by
  subst hc
  have hwork : itemsOf l.work ⟨fd, l.nextConnId⟩ = 0 := by
    refine itemsOf_eq_zero fun item hitem hkey => ?_
    obtain ⟨request, hdecoded, -⟩ := hsourced.item .worker hitem
    have hlt := hid.subject_lt hdecoded rfl
    rw [hkey] at hlt
    exact lt_irrefl _ hlt
  have htranscript : transcriptOf l.history ⟨fd, l.nextConnId⟩ = {} := by
    rw [← List.append_nil l.history]
    refine transcriptOf_append_other fun event hevent hsubject => ?_
    exact lt_irrefl _ (hid.subject_lt hevent hsubject)
  simp only [session, Session.opened, record, set, hquiet.1, hquiet.2]
  rw [transcriptOf_append_other (by simp [Event.subject]), htranscript, hwork]
  rfl

/-- A step of the session of a connection that keeps its number. -/
theorem Sees.own {c c' : Connection} (hc : l.connections fd = some c) (hid : c'.connId = c.connId)
    {σ : Session} (hstep : Session.Step (l.session fd c) σ) (hσ : l'.session fd c' = σ) :
    Sees l l' fd c' :=
  .inl ⟨c, hc, hid, hσ ▸ .single hstep⟩

theorem advance_connId (c : Connection) (count : ℕ) : (c.advance count).connId = c.connId := by
  unfold Connection.advance
  split <;> rfl

/-- A send that leaves the connection open did not empty the output of a
closing connection without work. -/
theorem not_all_sent {count : ℕ} (hopen : ¬ l.Drained (c.advance count))
    (hcount : count ≤ c.unsent.length) (hclosing : c.closing = true) (hidle : c.inFlightWork = 0) :
    count < c.unsent.length := by
  have hsame := Session.advance_same c count
  refine lt_of_le_of_ne hcount fun hall => hopen ?_
  have hunsent := Session.advance_unsent c count
  rw [List.drop_eq_nil_of_le hall.ge, Connection.unsent, List.drop_eq_nil_iff] at hunsent
  exact ⟨.inl (by rw [hsame.2.2.2.1, hclosing]), by rw [hsame.1, hidle], hunsent⟩

theorem sees_send (hc : l.connections fd = some c) {count : ℕ}
    (hcount : 0 < count ∧ count ≤ c.unsent.length) (hopen : ¬ l.Drained (c.advance count)) :
    Sees l ((l.set fd (c.advance count)).record
      [.sent ⟨fd, c.connId⟩ (c.unsent.take count)]) fd (c.advance count) := by
  have hid := advance_connId c count
  refine .own hc hid (.send hcount fun hclosing hidle =>
    not_all_sent hopen hcount.2 hclosing hidle) ?_
  simp only [session, record, set, hid, List.singleton_append, transcriptOf_sent]

theorem sees_decodeBusiness (hid : Identified l) (hc : l.connections fd = some c) (hquiet : l.Quiet)
    (hauth : c.authenticated = true) (hkey : ∀ request ∈ requests, request.key = c.key)
    {items : Multiset Item} (hitems : BusinessItems requests items) (bytes : Bytes) :
    Sees l ({ l.set fd { c with inputBuffer := bytes } with intake := items }.record
      (requests.map (Event.decoded ⟨fd, c.connId⟩)).reverse) fd
      { c with inputBuffer := bytes } := by
  have hself : c.key = ⟨fd, c.connId⟩ := by rw [Connection.key, hid.fd fd c hc]
  have hintake : itemsOf l.intake ⟨fd, c.connId⟩ = 0 := by rw [hquiet.1, itemsOf_zero]
  refine .own hc rfl (.decodeBusiness hauth hintake hitems bytes) ?_
  simp only [session, record, set, transcriptOf_decoded]
  rw [itemsOf_eq_self (business_items_key hitems fun request h => (hkey request h).trans hself)]
  rfl

theorem sees_decodeAuth (hid : Identified l) (hc : l.connections fd = some c) (hquiet : l.Quiet)
    (hfresh : c.authenticated = false ∧ c.authPending = false ∧ c.closing = false)
    (hkey : request.key = c.key) (htype : request.type = .auth) (bytes : Bytes) :
    Sees l ({ l.set fd { c with
          inputBuffer := bytes, authPending := true
          authCancellation := some l.nextCancellation } with
        nextCancellation := l.nextCancellation + 1
        intake := {Item.task ⟨request, l.nextCancellation⟩} }.record
          [.decoded ⟨fd, c.connId⟩ request]) fd
      { c with
        inputBuffer := bytes, authPending := true
        authCancellation := some l.nextCancellation } := by
  have hself : c.key = ⟨fd, c.connId⟩ := by rw [Connection.key, hid.fd fd c hc]
  have hintake : itemsOf l.intake ⟨fd, c.connId⟩ = 0 := by rw [hquiet.1, itemsOf_zero]
  refine .own hc rfl (.decodeAuth hfresh hintake htype l.nextCancellation bytes) ?_
  have hdecoded := transcriptOf_decoded [request] l.history ⟨fd, c.connId⟩
  simp only [List.map_cons, List.map_nil, List.reverse_singleton, List.singleton_append]
    at hdecoded
  have hitem : itemsOf {Item.task ⟨request, l.nextCancellation⟩} ⟨fd, c.connId⟩ =
      {Item.task ⟨request, l.nextCancellation⟩} :=
    itemsOf_eq_self fun item hitem => by
      rw [Multiset.mem_singleton.mp hitem]
      exact hkey.trans hself
  simp only [session, record, set, List.singleton_append, hdecoded, hitem]
  rfl

theorem sees_enqueue (hintake : l.intake = item ::ₘ rest) (hadmitted : l.admitted = none)
    (hc : l.connections fd = some c) :
    Sees l ({ l with
      work := item ::ₘ l.work, intake := rest, admitted := some item.key }.record
        [.admitted request]) fd c := by
  have htranscript : transcriptOf (.admitted request :: l.history) ⟨fd, c.connId⟩ =
      transcriptOf l.history ⟨fd, c.connId⟩ := rfl
  by_cases hkey : item.key = ⟨fd, c.connId⟩
  · have hmine : itemsOf l.intake ⟨fd, c.connId⟩ = item ::ₘ itemsOf rest ⟨fd, c.connId⟩ := by
      rw [hintake, ← hkey, itemsOf_cons_self]
    refine .own hc rfl (.enqueue hmine (by simp [session, hadmitted])) ?_
    simp only [session, record, List.singleton_append, htranscript, hkey, if_true]
    rw [← hkey, itemsOf_cons_self]
  · refine .of_eq hc (session_eq ?_ ?_ ?_ htranscript)
    · exact itemsOf_cons_other _ hkey
    · rw [hintake, itemsOf_cons_other _ hkey]
      rfl
    · simp [record, hadmitted, hkey]

theorem sees_refuse (hintake : l.intake = item ::ₘ rest) (hitem : item.Carries request)
    (hanswer : (∃ own, item = .request own) ∧ response = makeOverloadResponse request false ∨
      (∃ task, item = .task task) ∧ response = Server.authOverloaded request)
    (hc : l.connections fd = some c) :
    Sees l { l with intake := .response response ::ₘ rest } fd c := by
  have hsame : (Item.response response).key = item.key := by
    have htag : response.tag = request.tag := by rcases hanswer with ⟨-, rfl⟩ | ⟨-, rfl⟩ <;> rfl
    rw [Item.key, Item.key, hitem.tag, ← htag]
    rfl
  by_cases hkey : item.key = ⟨fd, c.connId⟩
  · have hmine : itemsOf l.intake ⟨fd, c.connId⟩ = item ::ₘ itemsOf rest ⟨fd, c.connId⟩ := by
      rw [hintake, ← hkey, itemsOf_cons_self]
    refine .own hc rfl (.refuse hmine hitem hanswer) ?_
    simp only [session]
    rw [← hkey, ← hsame, itemsOf_cons_self]
  · refine .of_eq hc (session_eq rfl ?_ Iff.rfl rfl)
    rw [hintake, itemsOf_cons_other _ hkey]
    exact itemsOf_cons_other _ (hsame ▸ hkey)

theorem sees_produce (hwork : l.work = item ::ₘ rest) (hitem : item.Carries request)
    (htag : response.tag = request.tag)
    (hanswer : (∃ own, item = .request own) ∧ response.BusinessAnswer ∨
      (∃ task, item = .task task) ∧ response.AuthAnswer) {result : PushResult}
    (hc : l.connections fd = some c) :
    Sees l ({ l with work := .response response ::ₘ rest }.record
      [.offered request response result]) fd c := by
  have hsame : (Item.response response).key = item.key := by
    rw [Item.key, Item.key, hitem.tag, ← htag]
    rfl
  by_cases hkey : item.key = ⟨fd, c.connId⟩
  · have hmine : itemsOf l.work ⟨fd, c.connId⟩ = item ::ₘ itemsOf rest ⟨fd, c.connId⟩ := by
      rw [hwork, ← hkey, itemsOf_cons_self]
    refine .own hc rfl (.produce hmine hitem htag hanswer) ?_
    simp only [session, record]
    rw [← hkey, ← hsame, itemsOf_cons_self]
    rfl
  · refine .of_eq hc (session_eq ?_ rfl Iff.rfl rfl)
    rw [hwork, itemsOf_cons_other _ hkey]
    exact itemsOf_cons_other _ (hsame ▸ hkey)

theorem sees_cancel (hcells : Cells l) {task : AuthTask} (hwork : l.work = .task task ::ₘ rest)
    (hcancelled : l.cancelled task.cancellation = true) (hc : l.connections fd = some c) :
    Sees l { l with work := rest } fd c := by
  by_cases hkey : (Item.task task).key = ⟨fd, c.connId⟩
  · have hmine : itemsOf l.work ⟨fd, c.connId⟩ =
        .task task ::ₘ itemsOf rest ⟨fd, c.connId⟩ := by
      rw [hwork, ← hkey, itemsOf_cons_self]
    refine .own hc rfl (.cancel hmine fun hcell => ?_) rfl
    rw [(hcells.held fd c _ hc hcell).1] at hcancelled
    cases hcancelled
  · refine .of_eq hc (session_eq ?_ rfl Iff.rfl rfl)
    rw [hwork, itemsOf_cons_other _ hkey]

/-- Taking an item of another connection from its source changes nothing. -/
theorem take_session_other {origin : ResponseOrigin} (hsource : l.source origin = item ::ₘ rest)
    (hne : item.key ≠ key) :
    itemsOf (l.take origin rest).work key = itemsOf l.work key ∧
      itemsOf (l.take origin rest).intake key = itemsOf l.intake key := by
  have hrest : itemsOf (l.source origin) key = itemsOf rest key := by
    rw [hsource, itemsOf_cons_other _ hne]
  cases origin with
  | worker => exact ⟨hrest.symm, rfl⟩
  | reactor => exact ⟨rfl, hrest.symm⟩

theorem sees_answer {origin : ResponseOrigin}
    (hsource : l.source origin = .response response ::ₘ rest) (hadmitted : l.admitted = none)
    (hlive : l.Live response.key c) {c' : Connection} {answer : Response}
    (hsettles : Settles (Server.clearAuth response (Server.completeWork origin c)) response
      c' answer extra) {limit : ℕ}
    (hlimit : c'.unsent.length + (ProtocolCodec.encode answer).length ≤ limit) :
    Sees l (((l.take origin rest).set response.fd (Server.appendOutput c' answer)).record
      (.appended ⟨response.fd, c.connId⟩ answer limit :: extra)) response.fd
      (Server.appendOutput c' answer) := by
  have hkey : (Item.response response).key = ⟨response.fd, c.connId⟩ := by
    rw [hlive.2]
    rfl
  have hid : (Server.appendOutput c' answer).connId = c.connId := (settles_identity hsettles).2.1
  have hmine : (l.session response.fd c).source origin =
      .response response ::ₘ itemsOf rest ⟨response.fd, c.connId⟩ := by
    have hpart : itemsOf (l.source origin) ⟨response.fd, c.connId⟩ =
        .response response ::ₘ itemsOf rest ⟨response.fd, c.connId⟩ := by
      rw [hsource, ← hkey, itemsOf_cons_self]
    cases origin <;> exact hpart
  refine .own hlive.1 hid
    (.answer hmine (by simp [session, hadmitted]) hsettles hlimit) ?_
  simp only [session, record, set, hid, List.cons_append, transcriptOf_appended,
    settles_transcript hsettles]
  cases origin <;> rfl

theorem item_key_ne (hne : fd ≠ response.fd) (connId : ℕ) :
    (Item.response response).key ≠ ⟨fd, connId⟩ := by
  intro hkey
  exact hne (congrArg ConnectionKey.fd hkey).symm

/-- A step of the ledger is to a connection a step of its session or nothing. -/
theorem Step.session (hstep : Step l l') (hid : Identified l) (hsourced : Sourced l)
    (hcells : Cells l) (hc : l'.connections fd = some c) : Sees l l' fd c := by
  cases hstep with
  | accept hfree _ hquiet =>
      rcases update_eq_some hc with ⟨rfl, hnew⟩ | ⟨hne, hc⟩
      · exact .inr ⟨hfree, session_accept hid hsourced hquiet _ (Option.some.inj hnew).symm⟩
      · exact .other hc hne (by simp [Event.subject]) rfl rfl rfl rfl
  | skip => exact .of_eq hc rfl
  | buffer hold | markEof hold =>
      rcases update_eq_some hc with ⟨rfl, hnew⟩ | ⟨hne, hc⟩
      · obtain rfl := Option.some.inj hnew
        exact .own hold rfl (.touch _ _ _) rfl
      · exact .other hc hne (List.forall_mem_nil _) rfl rfl rfl rfl
  | send hold hcount hopen =>
      rcases update_eq_some hc with ⟨rfl, hnew⟩ | ⟨hne, hc⟩
      · obtain rfl := Option.some.inj hnew
        exact sees_send hold hcount hopen
      · exact .other hc hne (by simp [Event.subject]) rfl rfl rfl rfl
  | sendLast | drain =>
      rcases update_eq_some hc with ⟨-, hnew⟩ | ⟨hne, hc⟩
      · cases hnew
      · exact .other hc hne (by simp [Event.subject]) rfl rfl rfl rfl
  | close =>
      rcases update_eq_some hc with ⟨-, hnew⟩ | ⟨hne, hc⟩
      · cases hnew
      · exact .other hc hne (List.forall_mem_nil _) rfl rfl rfl rfl
  | decodeClose =>
      rcases update_eq_some hc with ⟨-, hnew⟩ | ⟨hne, hc⟩
      · cases hnew
      · exact .other hc hne decoded_subject rfl rfl rfl rfl
  | decodeBusiness hold _ hquiet hauth hkey hitems bytes =>
      rcases update_eq_some hc with ⟨rfl, hnew⟩ | ⟨hne, hc⟩
      · obtain rfl := Option.some.inj hnew
        exact sees_decodeBusiness hid hold hquiet hauth hkey hitems bytes
      · refine .other hc hne decoded_subject rfl ?_ rfl rfl
        rw [hquiet.1, itemsOf_zero]
        refine itemsOf_eq_zero fun item hitem hown => hne ?_
        rw [business_items_key hitems hkey item hitem] at hown
        exact (congrArg ConnectionKey.fd hown).symm.trans (hid.fd _ _ hold)
  | decodeAuth hold _ hquiet hfresh hkey htype bytes =>
      rcases update_eq_some hc with ⟨rfl, hnew⟩ | ⟨hne, hc⟩
      · obtain rfl := Option.some.inj hnew
        exact sees_decodeAuth hid hold hquiet hfresh hkey htype bytes
      · refine .other hc hne (by simp [Event.subject]) rfl ?_ rfl rfl
        rw [hquiet.1, itemsOf_zero]
        refine itemsOf_eq_zero fun item hitem hown => hne ?_
        rw [Multiset.mem_singleton.mp hitem] at hown
        exact (congrArg ConnectionKey.fd (hkey.symm.trans hown)).symm.trans (hid.fd _ _ hold)
  | enqueue hintake hadmitted => exact sees_enqueue hintake hadmitted hc
  | refuse hintake hitem hanswer => exact sees_refuse hintake hitem hanswer hc
  | @count key hadmitted _ hlive =>
      rcases update_eq_some hc with ⟨rfl, hnew⟩ | ⟨hne, hc⟩
      · obtain rfl := Option.some.inj hnew
        have hcounted : l.admitted = some ⟨key.fd, key.connId⟩ := hadmitted
        refine .own hlive.1 rfl (.count ?_) rfl
        simp only [Ledger.session, hlive.2, hcounted, if_true]
      · refine .of_eq hc (session_eq rfl rfl ?_ rfl)
        rw [hadmitted]
        refine ⟨nofun, fun h => absurd ?_ hne⟩
        exact (congrArg ConnectionKey.fd (Option.some.inj h)).symm
  | @countGone key hadmitted hgone =>
      refine .of_eq hc (session_eq rfl rfl ?_ rfl)
      rw [hadmitted]
      refine ⟨nofun, fun h => absurd ?_ (hgone c)⟩
      obtain rfl := Option.some.inj h
      exact ⟨hc, rfl⟩
  | produce hwork hitem htag hanswer => exact sees_produce hwork hitem htag hanswer hc
  | cancel hwork hcancelled => exact sees_cancel hcells hwork hcancelled hc
  | @stale _ response _ hsource hgone =>
      have hother : (Item.response response).key ≠ ⟨fd, c.connId⟩ := by
        intro hkey
        have hkey' : response.key = ⟨fd, c.connId⟩ := hkey
        exact hgone c (by rw [hkey']; exact ⟨hc, rfl⟩)
      have htake := take_session_other hsource hother
      exact .of_eq hc (session_eq htake.1 htake.2 Iff.rfl rfl)
  | @answer _ response _ hsource hadmitted _ hlive _ _ _ hsettles _ hlimit =>
      rcases update_eq_some hc with ⟨rfl, hnew⟩ | ⟨hne, hc⟩
      · obtain rfl := Option.some.inj hnew
        exact sees_answer hsource hadmitted hlive hsettles hlimit
      · have htake := take_session_other hsource (item_key_ne hne c.connId)
        refine .other hc hne ?_ htake.1 htake.2 rfl rfl
        intro event hevent key hkey
        rcases List.mem_cons.mp hevent with rfl | hevent
        · cases hkey
          rfl
        · exact settles_subject hsettles event hevent key hkey
  | @answerClose _ response _ hsource _ hlive _ _ _ hsettles =>
      rcases update_eq_some hc with ⟨-, hnew⟩ | ⟨hne, hc⟩
      · cases hnew
      · have htake := take_session_other hsource (item_key_ne hne c.connId)
        exact .other hc hne (settles_subject hsettles) htake.1 htake.2 rfl rfl
  | leave => exact .of_eq hc rfl

/-! ## The invariants along a step -/

/-- An invariant of sessions holds of every live connection after a step if it
did before. -/
theorem Step.sessions {P : Session → Prop} (hopened : ∀ fd connId, P (Session.opened fd connId))
    (hkept : ∀ σ σ', Session.Step σ σ' → P σ → P σ') (hstep : Step l l') (hid : Identified l)
    (hsourced : Sourced l) (hcells : Cells l)
    (h : ∀ fd c, l.connections fd = some c → P (l.session fd c)) :
    ∀ fd c, l'.connections fd = some c → P (l'.session fd c) := by
  intro fd c hc
  have hgen : ∀ σ σ', Relation.ReflGen Session.Step σ σ' → P σ → P σ' := by
    intro σ σ' hgen hσ
    cases hgen with
    | refl => exact hσ
    | single hsession => exact hkept σ σ' hsession hσ
  rcases hstep.session hid hsourced hcells hc with ⟨old, hold, -, hsees⟩ | ⟨-, hopen⟩
  · exact hgen _ _ hsees (h fd old hold)
  · rw [hopen]
    exact hopened fd l.nextConnId

/-- The invariant of every run: who the connections are, what the items come
from, and what stands in the outputs. -/
structure Sound (l : Ledger) : Prop where
  identified : Identified l
  cells : Cells l
  sourced : Sourced l
  output : ∀ fd c, l.connections fd = some c → (l.session fd c).Output

theorem Step.sound (hstep : Step l l') (h : Sound l) : Sound l' where
  identified := hstep.identified h.identified
  cells := hstep.cells h.cells
  sourced := hstep.sourced h.identified h.sourced
  output := hstep.sessions Session.opened_output (fun _ _ hsession => hsession.output)
    h.identified h.sourced h.cells h.output

/-- Clearing the queues loses work but breaks nothing. -/
theorem Discard.sound (hdiscard : Discard l l') (h : Sound l) : Sound l' := by
  cases hdiscard with
  | mk hwork =>
      refine ⟨⟨h.identified.fd, h.identified.accepted, h.identified.fresh, h.identified.subject⟩,
        ⟨h.cells.bound, h.cells.held, h.cells.unique⟩,
        ⟨h.sourced.decoded, h.sourced.admitted, h.sourced.offered, ?_, h.sourced.intake⟩, ?_⟩
      · intro item hitem
        exact h.sourced.work item (Multiset.mem_of_le hwork hitem)
      · intro fd c hc
        have houtput := h.output fd c hc
        exact ⟨houtput.offset, houtput.stream, houtput.bound⟩

/-- The transcript of a connection that is gone no longer changes. -/
theorem Step.gone (hstep : Step l l') (hid : Identified l) (haccepted : .accepted key ∈ l.history)
    (hgone : ∀ c, ¬ l.Live key c) :
    (∀ c, ¬ l'.Live key c) ∧ transcriptOf l'.history key = transcriptOf l.history key := by
  constructor
  · intro c hlive
    rcases hstep.origin hlive.1 with ⟨old, hold, -, hsame⟩ | ⟨-, hnew, -⟩
    · exact hgone old ⟨hold, hsame.symm.trans hlive.2⟩
    · have hlt := hid.fresh key haccepted
      rw [← hlive.2, hnew] at hlt
      exact lt_irrefl _ hlt
  · obtain ⟨events, hhistory, hjustified⟩ := hstep.justified
    rw [hhistory]
    refine transcriptOf_append_other fun event hevent hsubject => ?_
    obtain ⟨c, hlive⟩ := (hjustified event hevent).subject_live hsubject
    exact hgone c hlive

/-- The invariant of the runs that discard nothing: the accounting of every
live connection, and the complete transcript of every drained one. -/
structure Accounted (l : Ledger) : Prop where
  balanced : ∀ fd c, l.connections fd = some c → (l.session fd c).Balanced
  drained : ∀ key, .drained key ∈ l.history →
    (∀ c, ¬ l.Live key c) ∧ (transcriptOf l.history key).Complete
  last : ∀ key, ∀ entry ∈ (transcriptOf l.history key).appended.tail,
    entry.1.closeConnection = false

/-- A connection that may be closed after draining has no item left. -/
theorem Accounted.no_items (h : Accounted l) (hc : l.connections fd = some c) (hquiet : l.Quiet)
    (hidle : c.inFlightWork = 0) : (l.session fd c).items = 0 := by
  have hbalanced := h.balanced fd c hc
  have hintake : (l.session fd c).intake = 0 := by
    simp only [session, hquiet.1, itemsOf_zero]
  have hwork : (l.session fd c).work = 0 := by
    have hcount := hbalanced.count
    simp only [session, hquiet.2, hidle, reduceCtorEq, if_false] at hcount
    exact Multiset.card_eq_zero.mp hcount.symm
  rw [Session.items, hintake, hwork, add_zero]

/-- When a connection is closed after draining, its transcript is complete. -/
theorem drained_complete (hsound : Sound l) (h : Accounted l) (hc : l.connections fd = some c)
    (hquiet : l.Quiet)
    (hlast : l.Drained c ∧ l'.history = .drained ⟨fd, c.connId⟩ :: l.history ∨
      ∃ count, l.Drained (c.advance count) ∧
        l'.history = .drained ⟨fd, c.connId⟩ ::
          .sent ⟨fd, c.connId⟩ (c.unsent.take count) :: l.history) :
    (transcriptOf l'.history ⟨fd, c.connId⟩).Complete := by
  have hbalanced := h.balanced fd c hc
  have houtput := hsound.output fd c hc
  rcases hlast with ⟨hdrained, hhistory⟩ | ⟨count, hdrained, hhistory⟩
  · have htags := hbalanced.tags
    rw [h.no_items hc hquiet hdrained.2.1, Multiset.map_zero, add_zero] at htags
    have hunsent : c.unsent = [] := List.drop_eq_nil_of_le hdrained.2.2
    have hstream := houtput.stream
    rw [show (l.session fd c).connection.unsent = [] from hunsent, List.append_nil] at hstream
    rw [hhistory]
    exact ⟨htags, hstream⟩
  · have htags := hbalanced.tags
    have hidle : c.inFlightWork = 0 := (Session.advance_same c count).1 ▸ hdrained.2.1
    rw [h.no_items hc hquiet hidle, Multiset.map_zero, add_zero] at htags
    have hunsent : (c.advance count).unsent = [] := List.drop_eq_nil_of_le hdrained.2.2
    rw [Session.advance_unsent, List.drop_eq_nil_iff] at hunsent
    have htranscript : transcriptOf l'.history ⟨fd, c.connId⟩ =
        { transcriptOf l.history ⟨fd, c.connId⟩ with
          sent := c.unsent :: (transcriptOf l.history ⟨fd, c.connId⟩).sent } := by
      rw [hhistory, ← transcriptOf_sent, List.take_of_length_le hunsent]
      rfl
    rw [htranscript]
    refine ⟨htags, ?_⟩
    simp only [Transcript.sentBytes, List.reverse_cons, List.flatten_append,
      List.flatten_singleton]
    exact houtput.stream

theorem Step.accounted (hstep : Step l l') (hsound : Sound l) (h : Accounted l) :
    Accounted l' := by
  obtain ⟨events, hhistory, hjustified⟩ := hstep.justified
  have hbalanced := hstep.sessions Session.opened_balanced
    (fun _ _ hsession => hsession.balanced) hsound.identified hsound.sourced hsound.cells
    h.balanced
  refine ⟨hbalanced, ?_, ?_⟩
  · intro key hkey
    rw [hhistory] at hkey
    rcases List.mem_append.mp hkey with hkey | hkey
    · cases hjustified _ hkey with
      | drained hc hquiet hgone hlast =>
          refine ⟨fun c hlive => ?_, drained_complete hsound h hc hquiet hlast⟩
          cases hgone.symm.trans hlive.1
    · have hold := h.drained key hkey
      have haccepted := hsound.identified.subject _ hkey key rfl
      obtain ⟨hgone, htranscript⟩ := hstep.gone hsound.identified haccepted hold.1
      exact ⟨hgone, htranscript ▸ hold.2⟩
  · intro key
    by_cases hlive : ∃ c, l'.Live key c
    · obtain ⟨c, hlive⟩ := hlive
      have hlast := (hbalanced key.fd c hlive.1).last
      have hkey : key = ⟨key.fd, c.connId⟩ := by rw [hlive.2]
      rw [hkey]
      exact hlast
    · -- the step appended nothing for a connection that is gone after it
      have hnone : events.filterMap (Event.appendedBy key) = [] := by
        refine List.filterMap_eq_nil_iff.mpr fun event hevent => ?_
        cases event with
        | appended own response limit =>
            have hne : own ≠ key := by
              rintro rfl
              cases hjustified _ hevent with
              | appended _ _ _ hstays => exact hlive hstays
            simp [Event.appendedBy, hne]
        | _ => rfl
      have hlast := h.last key
      simp only [transcriptOf, hhistory, List.filterMap_append, hnone, List.nil_append] at hlast ⊢
      exact hlast

theorem initial_sound : Sound initial := by
  have hnone : ∀ fd c, initial.connections fd ≠ some c := by simp [initial]
  refine ⟨⟨?_, ?_, ?_, ?_⟩, ⟨?_, ?_, ?_⟩, ⟨?_, ?_, ?_, ?_, ?_⟩, ?_⟩
  · exact fun fd c hc => absurd hc (hnone fd c)
  · exact fun fd c hc => absurd hc (hnone fd c)
  · simp [initial]
  · simp [initial]
  · simp [initial]
  · exact fun fd c _ hc => absurd hc (hnone fd c)
  · exact fun fd _ c _ _ hc => absurd hc (hnone fd c)
  · simp [initial]
  · simp [initial]
  · simp [initial]
  · simp [initial]
  · simp [initial]
  · exact fun fd c hc => absurd hc (hnone fd c)

theorem initial_accounted : Accounted initial := by
  refine ⟨?_, ?_, ?_⟩
  · simp [initial]
  · simp [initial]
  · simp [initial, transcriptOf]

end Ledger

end GatewaySystem
