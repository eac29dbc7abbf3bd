import GatewaySystem.Net.Refinement

/-!
# In-flight accounting and exactly one answer

What the invariants of the ledger say about the gateway itself, before the
deadline of the shutdown. Between two steps of the reactor the work counter of
a live connection is the number of its items in the queues, with the workers
and among the refused responses, so a completed item always finds it above
zero. Every frame decoded from a connection is answered once or has one item
outstanding, and a connection that is closed because it is drained has had
every answer appended and every byte of them taken by the kernel.
-/

namespace GatewaySystem

def NormalWorker.holds (key : ConnectionKey) : NormalWorker → Bool
  | .handling request => request.key = key
  | _ => false

def AuthWorker.holds (key : ConnectionKey) : AuthWorker → Bool
  | .popped task => task.key = key
  | .checking task => task.key = key
  | .answering task _ => task.key = key
  | _ => false

/-- A worker's response for the connection was refused by `response_queue_`. -/
def Event.refuses (key : ConnectionKey) : Event → Bool
  | .offered _ response result => result ≠ .ok && response.key = key
  | _ => false

/-- The items of a collection that belong to a connection, counted where they
come from. -/
theorem card_itemsOf_filterMap {α : Type*} {f : α → Option Item} (key : ConnectionKey)
    {p : α → Bool} (hp : ∀ a, p a = (f a).any fun item => item.key = key) (l : List α) :
    (itemsOf (l.filterMap f : Multiset Item) key).card = l.countP p := by
  induction l with
  | nil => rfl
  | cons a l ih =>
      rw [List.countP_cons, ← ih, hp]
      cases hfa : f a with
      | none => simp [hfa]
      | some item =>
          by_cases hkey : item.key = key
          · subst hkey
            rw [List.filterMap_cons_some hfa, ← Multiset.cons_coe, itemsOf_cons_self]
            simp
          · rw [List.filterMap_cons_some hfa, ← Multiset.cons_coe, itemsOf_cons_other _ hkey]
            simp [hkey]

theorem card_itemsOf_map {α : Type*} (f : α → Item) (key : ConnectionKey) (l : List α) :
    (itemsOf (l.map f : Multiset Item) key).card = l.countP fun a => (f a).key = key := by
  rw [← List.filterMap_eq_map]
  exact card_itemsOf_filterMap key (fun a => rfl) l

theorem itemsOf_add (items items' : Multiset Item) (key : ConnectionKey) :
    itemsOf (items + items') key = itemsOf items key + itemsOf items' key :=
  Multiset.filter_add ..

theorem filterMap_visible {β : Type*} {f : Event → Option β}
    (hf : ∀ event, event.isHidden = true → f event = none) (log : List Event) :
    (visible log).filterMap f = log.filterMap f := by
  rw [visible, List.filterMap_filter]
  refine List.filterMap_congr fun event _ => ?_
  cases hhidden : event.isHidden with
  | true => simp [hf event hhidden]
  | false => simp

/-- The events the ledger leaves out are in no transcript. -/
theorem transcriptOf_visible (log : List Event) (key : ConnectionKey) :
    transcriptOf (visible log) key = transcriptOf log key := by
  have hviews : ∀ event : Event, event.isHidden = true → event.subject ≠ some key := by
    intro event hevent
    cases event <;> simp_all [Event.isHidden, Event.subject]
  unfold transcriptOf
  congr 1
  · exact filterMap_visible (fun event h => (Event.views_eq_none (hviews event h)).1) log
  · exact filterMap_visible (fun event h => (Event.views_eq_none (hviews event h)).2.1) log
  · exact filterMap_visible (fun event h => (Event.views_eq_none (hviews event h)).2.2) log

namespace Server

variable {library : Json.Library} {args : StartArgs} {s : Server}

/-- How many items of a connection are in a queue, with a worker or refused. -/
def outstanding (s : Server) (key : ConnectionKey) : ℕ :=
  s.requestQueue.items.countP (fun request => request.key = key) +
    s.authQueue.items.countP (fun task => task.key = key) +
    s.workers.countP (NormalWorker.holds key) +
    s.authWorkers.countP (AuthWorker.holds key) +
    s.responseQueue.items.countP (fun response => response.key = key) +
    s.log.countP (Event.refuses key)

theorem card_itemsOf_work (s : Server) (key : ConnectionKey) :
    (itemsOf s.work key).card = s.outstanding key := by
  have hworkers := card_itemsOf_filterMap key (f := NormalWorker.item?)
    (p := NormalWorker.holds key) (fun worker => by cases worker <;> rfl) s.workers
  have hauthWorkers := card_itemsOf_filterMap key (f := AuthWorker.item?)
    (p := AuthWorker.holds key) (fun worker => by cases worker <;> rfl) s.authWorkers
  have hrefused := card_itemsOf_filterMap key (f := Event.refused?)
    (p := Event.refuses key) (fun event => by
      cases event with
      | offered request response result => cases result <;> rfl
      | _ => rfl) s.log
  simp only [work, itemsOf_add, Multiset.card_add, card_itemsOf_map, hworkers, hauthWorkers,
    hrefused]
  rfl

/-- The session of a live connection between two steps of the reactor. -/
theorem session_boundary (h : Transition.ReachableBy (gateway library args) BeforeDeadline s)
    (hpoint : s.point = .boundary) {fd : Fd} {c : Connection}
    (hc : s.connections.lookup fd = some c) :
    (s.ledger.session fd c).Balanced ∧ (s.ledger.session fd c).intake = 0 ∧
      (s.ledger.session fd c).admitted = 0 := by
  refine ⟨(ledger_accounted h).balanced fd c hc, ?_, ?_⟩
  · simp [Ledger.session, ledger, intake, hpoint]
  · simp [Ledger.session, ledger, admitted, hpoint]

theorem inFlightWork_eq (h : Transition.ReachableBy (gateway library args) BeforeDeadline s)
    (hpoint : s.point = .boundary) {fd : Fd} {c : Connection}
    (hc : s.connections.lookup fd = some c) : c.inFlightWork = s.outstanding ⟨fd, c.connId⟩ := by
  obtain ⟨hbalanced, -, hadmitted⟩ := session_boundary h hpoint hc
  have hcard := hbalanced.count
  rw [hadmitted, Nat.add_zero] at hcard
  exact hcard.trans (card_itemsOf_work s _)

/-- Between two steps of the reactor the counter of a live connection is the
number of its outstanding items, so the branch of `applyResponse` for a
completion without admitted work is never reached. -/
theorem inFlightWork_eq_outstanding
    (h : Transition.ReachableBy (gateway library args) BeforeDeadline s)
    (hpoint : s.point = .boundary) :
    (∀ fd c, s.connections.lookup fd = some c → c.inFlightWork = s.outstanding ⟨fd, c.connId⟩) ∧
      ∀ response queue, s.responseQueue.tryPop = some (response, queue) →
        ∀ c, s.live? response.key = some c → c.inFlightWork ≠ 0 := by
  refine ⟨fun fd c hc => inFlightWork_eq h hpoint hc, fun response queue hpop c hlive => ?_⟩
  obtain ⟨hc, hconnId⟩ := live?_eq_some.mp hlive
  rw [inFlightWork_eq h hpoint hc, hconnId]
  have hmem : 0 < s.responseQueue.items.countP fun own => own.key = response.key := by
    rw [List.countP_pos_iff, (BlockQueue.tryPop_eq_some hpop).1]
    exact ⟨response, by simp, by simp⟩
  have hle : s.responseQueue.items.countP (fun own => own.key = response.key) ≤
      s.outstanding response.key := by
    unfold outstanding
    omega
  exact Nat.ne_of_gt (Nat.lt_of_lt_of_le hmem hle)

theorem inFlightWork_eq_outstanding_sample :
    (Sample.server.connections.lookup 5).map Connection.inFlightWork = some 1 ∧
      ∀ fd c, Sample.server.connections.lookup fd = some c →
        c.inFlightWork = Sample.server.outstanding ⟨fd, c.connId⟩ :=
  ⟨by decide +kernel, (inFlightWork_eq_outstanding Sample.server_reachable rfl).1⟩

/-- The tags of the frames of a connection that are in a queue, with a worker
or refused. -/
def outstandingTags (s : Server) (key : ConnectionKey) : Multiset Tag :=
  (itemsOf s.work key).map Item.tag

/-- Every frame decoded from a live connection has one response appended or one
item outstanding, with its tag; of a connection that was closed because it was
drained, every frame is answered and every byte of the answers was sent. -/
theorem exactly_one_answer
    (h : Transition.ReachableBy (gateway library args) BeforeDeadline s) :
    (s.point = .boundary → ∀ fd c, s.connections.lookup fd = some c →
      (transcriptOf s.log ⟨fd, c.connId⟩).decodedTags =
        (transcriptOf s.log ⟨fd, c.connId⟩).appendedTags + s.outstandingTags ⟨fd, c.connId⟩) ∧
      ∀ key, Event.drained key ∈ s.log →
        (transcriptOf s.log key).decodedTags = (transcriptOf s.log key).appendedTags ∧
          (transcriptOf s.log key).sentBytes = (transcriptOf s.log key).appendedBytes := by
  constructor
  · intro hpoint fd c hc
    obtain ⟨hbalanced, hintake, -⟩ := session_boundary h hpoint hc
    have htags := hbalanced.tags
    rw [Session.items, hintake, add_zero] at htags
    rw [← transcriptOf_visible]
    exact htags
  · intro key hkey
    have hmem : Event.drained key ∈ s.ledger.history := List.mem_filter.mpr ⟨hkey, rfl⟩
    have hcomplete := ((ledger_accounted h).drained key hmem).2
    rw [← transcriptOf_visible]
    exact ⟨hcomplete.tags, hcomplete.bytes⟩

theorem exactly_one_answer_drained :
    (transcriptOf Sample.drained.log ⟨5, 1⟩).decodedTags.card = 2 ∧
      (transcriptOf Sample.drained.log ⟨5, 1⟩).decodedTags =
        (transcriptOf Sample.drained.log ⟨5, 1⟩).appendedTags ∧
      (transcriptOf Sample.drained.log ⟨5, 1⟩).sentBytes =
        (transcriptOf Sample.drained.log ⟨5, 1⟩).appendedBytes :=
  ⟨by decide +kernel,
    (exactly_one_answer Sample.drained_reachable).2 ⟨5, 1⟩ (by decide +kernel)⟩

end Server

end GatewaySystem
