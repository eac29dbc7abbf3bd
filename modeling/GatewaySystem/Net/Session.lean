import GatewaySystem.Net.Ledger

/-!
# The session of one connection

A session is the part of the ledger a single connection sees: its record, the
items that carry its key, and the transcript of its frames, answers and sent
bytes. `Session.Step` is what a step of the ledger can mean to a connection
that survives it.

Two invariants are kept by every such step. `Balanced` is the accounting: the
work counter counts the items, every decoded frame is answered or has one item,
and the items fit the phase the flags describe. `Output` is the integrity of
the byte stream; it does not need the accounting.
-/

namespace GatewaySystem

/-- What happened to the frames and the output of a connection, newest first.
An appended response stands with the output limit it was checked against. -/
structure Transcript where
  decoded : List Request := []
  appended : List (Response × ℕ) := []
  sent : List Bytes := []

namespace Transcript

def decodedTags (transcript : Transcript) : Multiset Tag := transcript.decoded.map Request.tag

def appendedTags (transcript : Transcript) : Multiset Tag :=
  transcript.appended.map fun entry => entry.1.tag

/-- The bytes the kernel has taken, in order. -/
def sentBytes (transcript : Transcript) : Bytes := transcript.sent.reverse.flatten

/-- The encoded responses, in the order in which they were appended. -/
def appendedBytes (transcript : Transcript) : Bytes :=
  (transcript.appended.reverse.map fun entry => ProtocolCodec.encode entry.1).flatten

/-- The output limit at the last append. -/
def lastLimit (transcript : Transcript) : ℕ :=
  (transcript.appended.head?.map Prod.snd).getD 0

/-- Every frame has one response and every byte of the responses was taken. -/
structure Complete (transcript : Transcript) : Prop where
  tags : transcript.decodedTags = transcript.appendedTags
  bytes : transcript.sentBytes = transcript.appendedBytes

end Transcript

namespace Connection

/-- The items a connection may have in its phase. -/
def Fits (c : Connection) : Item → Prop
  | .request request => c.authenticated = true ∧ request.type ≠ .auth
  | .task task => c.authPending = true ∧ c.authCancellation = some task.cancellation
  | .response response =>
      c.authenticated = true ∧ response.BusinessAnswer ∨
        c.authPending = true ∧ response.AuthAnswer

end Connection

structure Session where
  connection : Connection
  transcript : Transcript
  work : Multiset Item
  intake : Multiset Item
  /-- One if an accepted item is not yet counted. -/
  admitted : ℕ

namespace Session

/-- The session of a connection that was just accepted. -/
def opened (fd : Fd) (connId : ℕ) : Session where
  connection := { fd := fd, connId := connId }
  transcript := {}
  work := 0
  intake := 0
  admitted := 0

def items (σ : Session) : Multiset Item := σ.work + σ.intake

def source (σ : Session) : ResponseOrigin → Multiset Item
  | .worker => σ.work
  | .reactor => σ.intake

def take (σ : Session) (origin : ResponseOrigin) (rest : Multiset Item) : Session :=
  { σ with
    work := match origin with
      | .worker => rest
      | .reactor => σ.work
    intake := match origin with
      | .worker => σ.intake
      | .reactor => rest }

/-- What a step of the ledger can mean to a connection. -/
inductive Step : Session → Session → Prop
  | touch (σ : Session) (bytes : Bytes) (eof : Bool) :
      Step σ { σ with
        connection := { σ.connection with inputBuffer := bytes, readEof := eof } }
  | send {σ : Session} {count : ℕ} (hcount : 0 < count ∧ count ≤ σ.connection.unsent.length)
      (hopen : σ.connection.closing = true → σ.connection.inFlightWork = 0 →
        count < σ.connection.unsent.length) :
      Step σ { σ with
        connection := σ.connection.advance count
        transcript := { σ.transcript with
          sent := σ.connection.unsent.take count :: σ.transcript.sent } }
  | decodeBusiness {σ : Session} (hauth : σ.connection.authenticated = true)
      (hintake : σ.intake = 0) {requests : List Request} {items : Multiset Item}
      (hitems : Ledger.BusinessItems requests items) (bytes : Bytes) :
      Step σ { σ with
        connection := { σ.connection with inputBuffer := bytes }
        transcript := { σ.transcript with decoded := requests.reverse ++ σ.transcript.decoded }
        intake := items }
  | decodeAuth {σ : Session} (hfresh : σ.connection.authenticated = false ∧
        σ.connection.authPending = false ∧ σ.connection.closing = false)
      (hintake : σ.intake = 0) {request : Request} (htype : request.type = .auth) (cell : ℕ)
      (bytes : Bytes) :
      Step σ { σ with
        connection := { σ.connection with
          inputBuffer := bytes, authPending := true, authCancellation := some cell }
        transcript := { σ.transcript with decoded := request :: σ.transcript.decoded }
        intake := {Item.task ⟨request, cell⟩} }
  | enqueue {σ : Session} {item : Item} {rest : Multiset Item} (hintake : σ.intake = item ::ₘ rest)
      (hadmitted : σ.admitted = 0) :
      Step σ { σ with work := item ::ₘ σ.work, intake := rest, admitted := 1 }
  | refuse {σ : Session} {item : Item} {rest : Multiset Item} (hintake : σ.intake = item ::ₘ rest)
      {request : Request} (hitem : item.Carries request) {response : Response}
      (hanswer : (∃ own, item = .request own) ∧ response = makeOverloadResponse request false ∨
        (∃ task, item = .task task) ∧ response = Server.authOverloaded request) :
      Step σ { σ with intake := .response response ::ₘ rest }
  | count {σ : Session} (hadmitted : σ.admitted = 1) :
      Step σ { σ with
        admitted := 0
        connection := { σ.connection with
          inFlightWork := σ.connection.inFlightWork + 1 } }
  | produce {σ : Session} {item : Item} {rest : Multiset Item} (hwork : σ.work = item ::ₘ rest)
      {request : Request} (hitem : item.Carries request) {response : Response}
      (htag : response.tag = request.tag)
      (hanswer : (∃ own, item = .request own) ∧ response.BusinessAnswer ∨
        (∃ task, item = .task task) ∧ response.AuthAnswer) :
      Step σ { σ with work := .response response ::ₘ rest }
  | cancel {σ : Session} {task : AuthTask} {rest : Multiset Item}
      (hwork : σ.work = .task task ::ₘ rest)
      (hcell : σ.connection.authCancellation ≠ some task.cancellation) :
      Step σ { σ with work := rest }
  | answer {σ : Session} {origin : ResponseOrigin} {response : Response} {rest : Multiset Item}
      (hsource : σ.source origin = .response response ::ₘ rest) (hadmitted : σ.admitted = 0)
      {c : Connection} {answer : Response} {extra : List Event}
      (hsettles : Settles
        (Server.clearAuth response (Server.completeWork origin σ.connection)) response
        c answer extra) {limit : ℕ}
      (hlimit : c.unsent.length + (ProtocolCodec.encode answer).length ≤ limit) :
      Step σ { σ.take origin rest with
        connection := Server.appendOutput c answer
        transcript := { σ.transcript with
          appended := (answer, limit) :: σ.transcript.appended } }

/-! ## The accounting -/

/-- The accounting of a session: the counter counts the accepted items, every
decoded frame is answered or has one item, and the items fit the phase. -/
structure Balanced (σ : Session) : Prop where
  count : σ.connection.inFlightWork + σ.admitted = σ.work.card
  tags : σ.transcript.decodedTags = σ.transcript.appendedTags + σ.items.map Item.tag
  fits : ∀ item ∈ σ.items, σ.connection.Fits item
  exclusive : σ.connection.authenticated = true → σ.connection.authPending = false
  closing : σ.connection.closing = true → σ.connection.authenticated = false ∧
    σ.connection.authPending = false ∧ σ.connection.unsent ≠ []
  single : σ.connection.authPending = true →
    σ.items.card = 1 ∧ σ.connection.authCancellation.isSome
  idle : σ.connection.authPending = false → σ.connection.authCancellation = none
  order : σ.connection.closing = false →
    ∀ entry ∈ σ.transcript.appended, entry.1.closeConnection = false
  last : ∀ entry ∈ σ.transcript.appended.tail, entry.1.closeConnection = false

theorem opened_balanced (fd : Fd) (connId : ℕ) : Balanced (opened fd connId) where
  count := rfl
  tags := rfl
  fits := by simp [items, opened]
  exclusive := by simp [opened]
  closing := by simp [opened]
  single := by simp [opened]
  idle := by simp [opened]
  order := by simp [opened]
  last := by simp [opened]

namespace Balanced

variable {σ : Session}

/-- A connection that is neither authenticated nor waiting for its AUTH has no
item. -/
theorem items_eq_zero (h : Balanced σ) (hauth : σ.connection.authenticated = false)
    (hpending : σ.connection.authPending = false) : σ.items = 0 := by
  rw [Multiset.eq_zero_iff_forall_notMem]
  intro item hitem
  have hfits := h.fits item hitem
  cases item <;> simp [Connection.Fits, hauth, hpending] at hfits

theorem closing_items (h : Balanced σ) (hclosing : σ.connection.closing = true) :
    σ.items = 0 := by
  obtain ⟨hauth, hpending, -⟩ := h.closing hclosing
  exact h.items_eq_zero hauth hpending

/-- A connection with an item is not closing. -/
theorem not_closing (h : Balanced σ) {item : Item} (hitem : item ∈ σ.items) :
    σ.connection.closing = false := by
  by_contra hclosing
  rw [h.closing_items (Bool.eq_true_of_not_eq_false hclosing)] at hitem
  exact Multiset.notMem_zero item hitem

/-- Replacing an item by the response made of it keeps the balance. -/
theorem replace {σ' : Session} (h : Balanced σ) {item : Item} {response : Response}
    {rest : Multiset Item} (hitems : σ.items = item ::ₘ rest)
    (hitems' : σ'.items = .response response ::ₘ rest)
    (hcard : σ'.work.card = σ.work.card) (hconnection : σ'.connection = σ.connection)
    (htranscript : σ'.transcript = σ.transcript) (hadmitted : σ'.admitted = σ.admitted)
    (htag : response.tag = item.tag) (hfits : σ.connection.Fits (.response response)) :
    Balanced σ' where
  count := by rw [hconnection, hadmitted, hcard, h.count]
  tags := by
    rw [htranscript, h.tags, hitems, hitems', Multiset.map_cons, Multiset.map_cons, ← htag]
    rfl
  fits := by
    intro other hother
    rw [hitems', Multiset.mem_cons] at hother
    rw [hconnection]
    rcases hother with rfl | hother
    · exact hfits
    · exact h.fits other (by rw [hitems]; exact Multiset.mem_cons_of_mem hother)
  exclusive := by rw [hconnection]; exact h.exclusive
  closing := by rw [hconnection]; exact h.closing
  single := by
    rw [hconnection, hitems', Multiset.card_cons]
    intro hpending
    have hsingle := h.single hpending
    rwa [hitems, Multiset.card_cons] at hsingle
  idle := by rw [hconnection]; exact h.idle
  order := by rw [hconnection, htranscript]; exact h.order
  last := by rw [htranscript]; exact h.last

/-- What a worker or the reactor makes of an item fits where the item did. -/
theorem fits_response (h : Balanced σ) {item : Item} (hitem : item ∈ σ.items)
    {response : Response}
    (hanswer : (∃ own, item = .request own) ∧ response.BusinessAnswer ∨
      (∃ task, item = .task task) ∧ response.AuthAnswer) :
    σ.connection.Fits (.response response) := by
  have hfits := h.fits item hitem
  rcases hanswer with ⟨⟨own, rfl⟩, hanswer⟩ | ⟨⟨task, rfl⟩, hanswer⟩
  · exact .inl ⟨hfits.1, hanswer⟩
  · exact .inr ⟨hfits.1, hanswer⟩

end Balanced

theorem items_take {σ : Session} {origin : ResponseOrigin} {item : Item} {rest : Multiset Item}
    (h : σ.source origin = item ::ₘ rest) : σ.items = item ::ₘ (σ.take origin rest).items := by
  cases origin with
  | worker => rw [items, show σ.work = item ::ₘ rest from h, Multiset.cons_add]; rfl
  | reactor => rw [items, show σ.intake = item ::ₘ rest from h, Multiset.add_cons]; rfl

theorem completeWork_same (origin : ResponseOrigin) (c : Connection) :
    (Server.completeWork origin c).authenticated = c.authenticated ∧
      (Server.completeWork origin c).authPending = c.authPending ∧
      (Server.completeWork origin c).authCancellation = c.authCancellation ∧
      (Server.completeWork origin c).closing = c.closing ∧
      (Server.completeWork origin c).unsent = c.unsent := by
  cases origin <;> exact ⟨rfl, rfl, rfl, rfl, rfl⟩

/-- Sending changes the output and nothing else. -/
theorem advance_same (c : Connection) (count : ℕ) :
    (c.advance count).inFlightWork = c.inFlightWork ∧
      (c.advance count).authenticated = c.authenticated ∧
      (c.advance count).authPending = c.authPending ∧
      (c.advance count).closing = c.closing ∧
      (c.advance count).authCancellation = c.authCancellation := by
  unfold Connection.advance
  split <;> exact ⟨rfl, rfl, rfl, rfl, rfl⟩

theorem advance_unsent (c : Connection) (count : ℕ) :
    (c.advance count).unsent = c.unsent.drop count := by
  unfold Connection.advance
  split
  · next hall =>
      have hlen : c.unsent.length = c.outputBuffer.length - c.writeOffset := List.length_drop
      rw [List.drop_eq_nil_of_le (by omega)]
      rfl
  · exact (List.drop_drop).symm

namespace Balanced

variable {σ : Session} {rest : Multiset Item} {response : Response} {origin : ResponseOrigin}
  {item : Item} {request : Request}

theorem touch (h : Balanced σ) (bytes : Bytes) (eof : Bool) :
    Balanced { σ with
      connection := { σ.connection with inputBuffer := bytes, readEof := eof } } :=
  ⟨h.count, h.tags, h.fits, h.exclusive, h.closing, h.single, h.idle, h.order,
    h.last⟩

theorem decodeBusiness (h : Balanced σ) (hauth : σ.connection.authenticated = true)
    (hintake : σ.intake = 0) {requests : List Request} {items : Multiset Item}
    (hitems : Ledger.BusinessItems requests items) (bytes : Bytes) :
    Balanced { σ with
      connection := { σ.connection with inputBuffer := bytes }
      transcript := { σ.transcript with decoded := requests.reverse ++ σ.transcript.decoded }
      intake := items } where
  count := h.count
  tags := by
    have htags := h.tags
    have hnew := hitems.tags
    simp only [Session.items, hintake, add_zero] at htags
    simp only [Session.items, Multiset.map_add, hnew]
    simp only [Transcript.decodedTags, Transcript.appendedTags] at htags ⊢
    rw [List.map_append, ← Multiset.coe_add, htags, List.map_reverse, Multiset.coe_reverse,
      add_comm, add_assoc]
  fits := by
    intro item hitem
    rcases Multiset.mem_add.mp hitem with hitem | hitem
    · exact h.fits item (Multiset.mem_add.mpr (.inl hitem))
    · obtain ⟨request, -, ⟨rfl, htype⟩ | ⟨response, -, rfl, hanswer⟩⟩ := hitems.origin item hitem
      · exact ⟨hauth, htype⟩
      · exact .inl ⟨hauth, hanswer⟩
  exclusive := h.exclusive
  closing := h.closing
  single hpending := by
    rw [h.exclusive hauth] at hpending
    cases hpending
  idle := h.idle
  order := h.order
  last := h.last

theorem decodeAuth (h : Balanced σ)
    (hfresh : σ.connection.authenticated = false ∧
      σ.connection.authPending = false ∧ σ.connection.closing = false) (cell : ℕ) (bytes : Bytes) :
    Balanced { σ with
      connection := { σ.connection with
        inputBuffer := bytes, authPending := true, authCancellation := some cell }
      transcript := { σ.transcript with decoded := request :: σ.transcript.decoded }
      intake := {Item.task ⟨request, cell⟩} } := by
  obtain ⟨hauth, hpending, hclosing⟩ := hfresh
  have hzero := h.items_eq_zero hauth hpending
  have hwork : σ.work = 0 := Multiset.le_zero.mp (hzero ▸ Multiset.le_add_right σ.work σ.intake)
  have htags := h.tags
  rw [hzero, Multiset.map_zero, add_zero] at htags
  refine ⟨h.count, ?_, ?_, ?_, ?_, ?_, ?_, ?_, h.last⟩
  · simp only [Session.items, hwork, zero_add, Multiset.map_singleton, Transcript.decodedTags,
      Transcript.appendedTags, List.map_cons] at htags ⊢
    rw [← Multiset.cons_coe, htags, ← Multiset.singleton_add, add_comm]
    rfl
  · intro item hitem
    simp only [Session.items, hwork, zero_add, Multiset.mem_singleton] at hitem
    subst hitem
    exact ⟨rfl, rfl⟩
  · simp [hauth]
  · simp [hclosing]
  · simp [Session.items, hwork]
  · simp
  · exact h.order

theorem enqueue (h : Balanced σ) (hintake : σ.intake = item ::ₘ rest) (hadmitted : σ.admitted = 0) :
    Balanced { σ with work := item ::ₘ σ.work, intake := rest, admitted := 1 } := by
  have hitems : (item ::ₘ σ.work) + rest = σ.items := by
    rw [Session.items, hintake, Multiset.cons_add, Multiset.add_cons]
  have hcount := h.count
  refine ⟨?_, ?_, ?_, h.exclusive, h.closing, ?_, h.idle, h.order, h.last⟩
  · rw [hadmitted, add_zero] at hcount
    rw [Multiset.card_cons, hcount]
  · simpa only [Session.items, hitems] using h.tags
  · simpa only [Session.items, hitems] using h.fits
  · simpa only [Session.items, hitems] using h.single

theorem counted (h : Balanced σ) (hadmitted : σ.admitted = 1) :
    Balanced { σ with
      admitted := 0
      connection := { σ.connection with
        inFlightWork := σ.connection.inFlightWork + 1 } } := by
  have hcount := h.count
  rw [hadmitted] at hcount
  exact ⟨hcount, h.tags, h.fits, h.exclusive, h.closing, h.single, h.idle, h.order,
    h.last⟩

theorem refuse (h : Balanced σ) (hintake : σ.intake = item ::ₘ rest) (hitem : item.Carries request)
    (hanswer : (∃ own, item = .request own) ∧ response = makeOverloadResponse request false ∨
      (∃ task, item = .task task) ∧ response = Server.authOverloaded request) :
    Balanced { σ with intake := .response response ::ₘ rest } := by
  have hmem : item ∈ σ.items := by simp [Session.items, hintake]
  have hmade : response.tag = request.tag ∧
      ((∃ own, item = .request own) ∧ response.BusinessAnswer ∨
        (∃ task, item = .task task) ∧ response.AuthAnswer) := by
    rcases hanswer with ⟨hitem, rfl⟩ | ⟨hitem, rfl⟩
    · exact ⟨rfl, .inl ⟨hitem, (makeOverloadResponse_answer request).2⟩⟩
    · exact ⟨rfl, .inr ⟨hitem, rfl, rfl, rfl⟩⟩
  exact h.replace (by rw [Session.items, hintake, Multiset.add_cons])
    (by rw [Session.items, Multiset.add_cons]) rfl rfl rfl rfl
    (hmade.1.trans hitem.tag.symm) (h.fits_response hmem hmade.2)

theorem produce (h : Balanced σ) (hwork : σ.work = item ::ₘ rest) (hitem : item.Carries request)
    (htag : response.tag = request.tag)
    (hanswer : (∃ own, item = .request own) ∧ response.BusinessAnswer ∨
      (∃ task, item = .task task) ∧ response.AuthAnswer) :
    Balanced { σ with work := .response response ::ₘ rest } := by
  have hmem : item ∈ σ.items := by simp [Session.items, hwork]
  exact h.replace (by rw [Session.items, hwork, Multiset.cons_add])
    (by rw [Session.items, Multiset.cons_add]) (by rw [hwork]; simp) rfl rfl rfl
    (htag.trans hitem.tag.symm) (h.fits_response hmem hanswer)

/-- A task of the connection is never found cancelled. -/
theorem not_cancelled (h : Balanced σ) {task : AuthTask} (hwork : σ.work = .task task ::ₘ rest) :
    σ.connection.authCancellation = some task.cancellation := by
  have hmem : Item.task task ∈ σ.items := by simp [Session.items, hwork]
  exact (h.fits _ hmem).2

theorem send (h : Balanced σ) {count : ℕ}
    (hopen : σ.connection.closing = true → σ.connection.inFlightWork = 0 →
      count < σ.connection.unsent.length) :
    Balanced { σ with
      connection := σ.connection.advance count
      transcript := { σ.transcript with
        sent := σ.connection.unsent.take count :: σ.transcript.sent } } := by
  have hsame := advance_same σ.connection count
  refine ⟨?_, h.tags, ?_, ?_, ?_, ?_, ?_, ?_, h.last⟩
  · simpa only [hsame] using h.count
  · intro item hitem
    have hfits := h.fits item hitem
    cases item <;> simpa only [Connection.Fits, hsame] using hfits
  · simpa only [hsame] using h.exclusive
  · intro hclosing
    simp only [hsame] at hclosing ⊢
    obtain ⟨hauth, hpending, -⟩ := h.closing hclosing
    have hzero := h.closing_items hclosing
    have hwork : σ.work = 0 := Multiset.le_zero.mp (hzero ▸ Multiset.le_add_right σ.work σ.intake)
    have hidle : σ.connection.inFlightWork = 0 :=
      Nat.eq_zero_of_add_eq_zero_right (h.count.trans (by rw [hwork, Multiset.card_zero]))
    refine ⟨hauth, hpending, ?_⟩
    rw [advance_unsent, ne_eq, List.drop_eq_nil_iff, not_le]
    exact hopen hclosing hidle
  · simpa only [Session.items, hsame] using h.single
  · simpa only [hsame] using h.idle
  · simpa only [hsame] using h.order

/-- The counter after the completion of an item. -/
theorem completeWork_count (h : Balanced σ) (hsource : σ.source origin = item ::ₘ rest)
    (hadmitted : σ.admitted = 0) :
    (Server.completeWork origin σ.connection).inFlightWork = (σ.take origin rest).work.card := by
  have hcount := h.count
  rw [hadmitted, add_zero] at hcount
  cases origin with
  | worker =>
      rw [show σ.work = item ::ₘ rest from hsource, Multiset.card_cons] at hcount
      exact Nat.sub_eq_of_eq_add hcount
  | reactor => exact hcount

/-- The answer to a business request takes its item off the books. -/
theorem answerBusiness (h : Balanced σ) (hsource : σ.source origin = .response response ::ₘ rest)
    (hadmitted : σ.admitted = 0) (hauth : σ.connection.authenticated = true)
    (hanswer : response.BusinessAnswer) (limit : ℕ) :
    Balanced { σ.take origin rest with
      connection := Server.appendOutput (Server.completeWork origin σ.connection) response
      transcript := { σ.transcript with
        appended := (response, limit) :: σ.transcript.appended } } := by
  have hitems := items_take hsource
  have hclosing : σ.connection.closing = false :=
    h.not_closing (by rw [hitems]; exact Multiset.mem_cons_self _ _)
  have hsame := completeWork_same origin σ.connection
  have hpending := h.exclusive hauth
  refine ⟨?_, ?_, ?_, ?_, ?_, ?_, ?_, ?_, h.order hclosing⟩
  · rw [show (σ.take origin rest).admitted = 0 from hadmitted]
    exact h.completeWork_count hsource hadmitted
  · have htags := h.tags
    rw [hitems, Multiset.map_cons] at htags
    simp only [Transcript.decodedTags, Transcript.appendedTags, List.map_cons] at htags ⊢
    rw [htags, ← Multiset.cons_coe, Multiset.cons_add, Multiset.add_cons]
    rfl
  · intro item hitem
    have hfits := h.fits item (by rw [hitems]; exact Multiset.mem_cons_of_mem hitem)
    cases item <;> simpa only [Connection.Fits, Server.appendOutput, hsame] using hfits
  · simpa only [Server.appendOutput, hsame] using h.exclusive
  · simp [Server.appendOutput, hsame, hclosing, hanswer.close]
  · simp [Server.appendOutput, hsame, hpending]
  · simpa only [Server.appendOutput, hsame] using h.idle
  · intro _
    simpa [hanswer.close] using h.order hclosing

/-- The answer to the AUTH frame ends the wait: the connection is authenticated
or closing, and has no other item. -/
theorem answerAuth (h : Balanced σ) (hsource : σ.source origin = .response response ::ₘ rest)
    (hadmitted : σ.admitted = 0) (hpending : σ.connection.authPending = true) {c : Connection}
    (hc : c.authPending = false ∧ c.authCancellation = none ∧
      c.inFlightWork = (Server.completeWork origin σ.connection).inFlightWork ∧
      c.closing = σ.connection.closing) {answer : Response} (htag : answer.tag = response.tag)
    (heffect : answer.closeConnection = !c.authenticated) (limit : ℕ) :
    Balanced { σ.take origin rest with
      connection := Server.appendOutput c answer
      transcript := { σ.transcript with
        appended := (answer, limit) :: σ.transcript.appended } } := by
  have hitems := items_take hsource
  have hclosing : σ.connection.closing = false :=
    h.not_closing (by rw [hitems]; exact Multiset.mem_cons_self _ _)
  obtain ⟨hidle, hcell, hwork, hsame⟩ := hc
  have hnone : (σ.take origin rest).items = 0 := by
    have hsingle := (h.single hpending).1
    rw [hitems, Multiset.card_cons] at hsingle
    exact Multiset.card_eq_zero.mp (Nat.succ.inj hsingle)
  refine ⟨?_, ?_, ?_, ?_, ?_, ?_, ?_, ?_, h.order hclosing⟩
  · rw [show (σ.take origin rest).admitted = 0 from hadmitted]
    exact hwork.trans (h.completeWork_count hsource hadmitted)
  · have htags := h.tags
    rw [hitems, Multiset.map_cons] at htags
    simp only [Transcript.decodedTags, Transcript.appendedTags, List.map_cons] at htags ⊢
    rw [htags, ← Multiset.cons_coe, Multiset.cons_add, Multiset.add_cons, htag]
    rfl
  · intro item hitem
    have hitem' : item ∈ (σ.take origin rest).items := hitem
    rw [hnone] at hitem'
    exact absurd hitem' (Multiset.notMem_zero item)
  · exact fun _ => hidle
  · intro hclose
    have hauth : c.authenticated = false := by
      simpa [Server.appendOutput, hsame, hclosing, heffect] using hclose
    refine ⟨hauth, hidle, ?_⟩
    simp [Server.appendOutput, Connection.unsent, ProtocolCodec.encode_ne_nil]
  · simp [Server.appendOutput, hidle]
  · exact fun _ => hcell
  · intro hopen
    have hopen' : answer.closeConnection = false := by
      simpa [Server.appendOutput, hsame, hclosing] using hopen
    simpa [hopen'] using h.order hclosing

/-- Appending the answer of an item takes the item off the books. -/
theorem answer (h : Balanced σ) (hsource : σ.source origin = .response response ::ₘ rest)
    (hadmitted : σ.admitted = 0) {c : Connection} {answer : Response} {extra : List Event}
    (hsettles : Settles
      (Server.clearAuth response (Server.completeWork origin σ.connection)) response
      c answer extra) (limit : ℕ) :
    Balanced { σ.take origin rest with
      connection := Server.appendOutput c answer
      transcript := { σ.transcript with
        appended := (answer, limit) :: σ.transcript.appended } } := by
  have hmem : Item.response response ∈ σ.items := by
    rw [items_take hsource]
    exact Multiset.mem_cons_self _ _
  have hsame := completeWork_same origin σ.connection
  rcases h.fits _ hmem with ⟨hauth, hanswer⟩ | ⟨hpending, hanswer⟩
  · have hclear : Server.clearAuth response (Server.completeWork origin σ.connection) =
        Server.completeWork origin σ.connection := by
      simp [Server.clearAuth, hanswer.type, hanswer.close]
    rw [hclear] at hsettles
    cases hsettles with
    | authenticated hclient => rw [hanswer.client] at hclient; cases hclient
    | refused hclient => rw [hanswer.client] at hclient; cases hclient
    | unchanged => exact h.answerBusiness hsource hadmitted hauth hanswer limit
  · have hauth : σ.connection.authenticated = false := by
      by_contra hauth
      rw [h.exclusive (Bool.eq_true_of_not_eq_false hauth)] at hpending
      cases hpending
    have hclear : Server.clearAuth response (Server.completeWork origin σ.connection) =
        { Server.completeWork origin σ.connection with
          authPending := false, authCancellation := none } := by
      simp [Server.clearAuth, hanswer.type]
    rw [hclear] at hsettles
    have heffect := hanswer.effect
    cases hsettles with
    | authenticated hclient =>
        refine h.answerAuth hsource hadmitted hpending ?_ rfl ?_ limit
        · exact ⟨rfl, rfl, rfl, hsame.2.2.2.1⟩
        · simp [heffect, hclient]
    | refused =>
        refine h.answerAuth hsource hadmitted hpending ?_ ?_ ?_ limit
        · exact ⟨rfl, rfl, rfl, hsame.2.2.2.1⟩
        · rfl
        · simp [Server.refuseConnection, hsame, hauth]
    | unchanged hclient =>
        refine h.answerAuth hsource hadmitted hpending ?_ rfl ?_ limit
        · exact ⟨rfl, rfl, rfl, hsame.2.2.2.1⟩
        · simp [heffect, hclient, hsame, hauth]

end Balanced

/-- Every step of a session keeps its accounting. -/
theorem Step.balanced {σ σ' : Session} (hstep : Step σ σ') (h : Balanced σ) : Balanced σ' := by
  cases hstep with
  | touch bytes eof => exact h.touch bytes eof
  | send _ hopen => exact h.send hopen
  | decodeBusiness hauth hintake hitems bytes =>
      exact h.decodeBusiness hauth hintake hitems bytes
  | decodeAuth hfresh _ _ cell bytes => exact h.decodeAuth hfresh cell bytes
  | enqueue hintake hadmitted => exact h.enqueue hintake hadmitted
  | refuse hintake hitem hanswer => exact h.refuse hintake hitem hanswer
  | count hadmitted => exact h.counted hadmitted
  | produce hwork hitem htag hanswer => exact h.produce hwork hitem htag hanswer
  | cancel hwork hcell => exact absurd (h.not_cancelled hwork) hcell
  | answer hsource hadmitted hsettles _ => exact h.answer hsource hadmitted hsettles _

/-! ## The output stream -/

/-- What was sent and what is left to send are the encoded responses in order,
and the buffer is within the limit of the last append. -/
structure Output (σ : Session) : Prop where
  offset : σ.connection.writeOffset ≤ σ.connection.outputBuffer.length
  stream : σ.transcript.sentBytes ++ σ.connection.unsent = σ.transcript.appendedBytes
  bound : σ.connection.outputBuffer.length ≤ σ.transcript.lastLimit

theorem opened_output (fd : Fd) (connId : ℕ) : Output (opened fd connId) :=
  ⟨Nat.le_refl _, rfl, Nat.le_refl _⟩

namespace Output

variable {σ : Session}

theorem send (h : Output σ) {count : ℕ} (hcount : count ≤ σ.connection.unsent.length) :
    Output { σ with
      connection := σ.connection.advance count
      transcript := { σ.transcript with
        sent := σ.connection.unsent.take count :: σ.transcript.sent } } where
  offset := by
    have hlen : σ.connection.unsent.length =
        σ.connection.outputBuffer.length - σ.connection.writeOffset := List.length_drop
    have hoffset := h.offset
    unfold Connection.advance
    split
    · exact Nat.le_refl _
    · show σ.connection.writeOffset + count ≤ σ.connection.outputBuffer.length
      omega
  stream := by
    rw [advance_unsent]
    simp only [Transcript.sentBytes, Transcript.appendedBytes, List.reverse_cons,
      List.flatten_append, List.flatten_singleton, List.append_assoc, List.take_append_drop]
    exact h.stream
  bound := by
    unfold Connection.advance
    split
    · exact Nat.zero_le _
    · exact h.bound

/-- An append keeps what is unsent and puts the response behind it. -/
theorem answer (h : Output σ) {c : Connection} (hc : c.unsent = σ.connection.unsent)
    {answer : Response} {limit : ℕ}
    (hlimit : c.unsent.length + (ProtocolCodec.encode answer).length ≤ limit)
    {origin : ResponseOrigin} {rest : Multiset Item} :
    Output { σ.take origin rest with
      connection := Server.appendOutput c answer
      transcript := { σ.transcript with
        appended := (answer, limit) :: σ.transcript.appended } } where
  offset := Nat.zero_le _
  stream := by
    have hstream := h.stream
    simp only [Transcript.sentBytes, Transcript.appendedBytes] at hstream
    simp only [Transcript.sentBytes, Transcript.appendedBytes, Server.appendOutput,
      Connection.unsent, List.drop_zero, List.reverse_cons, List.map_append, List.map_cons,
      List.map_nil, List.flatten_append, List.flatten_singleton, ← hstream,
      List.append_assoc]
    rw [← Connection.unsent, hc]
    rfl
  bound := by
    simpa [Server.appendOutput, Transcript.lastLimit] using hlimit

end Output

/-- Settling a response leaves the output alone. -/
theorem settles_unsent {origin : ResponseOrigin} {old c : Connection}
    {response answer : Response} {extra : List Event}
    (h : Settles (Server.clearAuth response (Server.completeWork origin old)) response
      c answer extra) : c.unsent = old.unsent := by
  have hclear : (Server.clearAuth response (Server.completeWork origin old)).unsent =
      old.unsent := by
    unfold Server.clearAuth
    split <;> exact (completeWork_same origin old).2.2.2.2
  cases h <;> exact hclear

/-- Every step of a session keeps its output stream. -/
theorem Step.output {σ σ' : Session} (hstep : Step σ σ') (h : Output σ) : Output σ' := by
  cases hstep with
  | send hcount => exact h.send hcount.2
  | answer _ _ hsettles hlimit => exact h.answer (settles_unsent hsettles) hlimit
  | touch | decodeBusiness | decodeAuth | enqueue | refuse | count | produce | cancel =>
      exact ⟨h.offset, h.stream, h.bound⟩

end Session

end GatewaySystem
