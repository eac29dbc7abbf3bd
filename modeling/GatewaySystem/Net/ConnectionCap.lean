import GatewaySystem.Net.Accounting
import GatewaySystem.Net.Isolation
import GatewaySystem.Net.Lifecycle
import GatewaySystem.Net.Tables
import Mathlib.Data.Finset.Card

/-!
# The connection limit of a client

An allowed AUTH is not yet an authenticated connection: `applyResponse` counts
the other connections of the client when it applies the response. So the number
of connections a client holds grows only there, and not above the limit of the
configuration then read. A connection refused by that count is closing or gone
and no item carries its key, so nothing can authenticate it or be admitted from
it later.
-/

namespace GatewaySystem

namespace Ledger

variable {l l' : Ledger} {key : ConnectionKey} {clientId : Bytes} {fd : Fd}

/-- The live connection with the key is authenticated as the client. -/
def Holds (l : Ledger) (key : ConnectionKey) (clientId : Bytes) : Prop :=
  ∃ c, l.Live key c ∧ c.authenticated = true ∧ c.clientId = clientId

theorem Holds.of_set {c c' : Connection} (hc : l.connections fd = some c)
    (hconnections : l'.connections = Function.update l.connections fd (some c'))
    (hid : c'.connId = c.connId) (hauth : c'.authenticated = c.authenticated)
    (hclient : c'.clientId = c.clientId) (h : l'.Holds key clientId) : l.Holds key clientId := by
  obtain ⟨own, ⟨hown, hkey⟩, hown_auth, hown_client⟩ := h
  rw [hconnections] at hown
  rcases update_eq_some hown with ⟨hfd, ⟨⟩⟩ | ⟨-, hown⟩
  · exact ⟨c, ⟨hfd ▸ hc, hid.symm.trans hkey⟩, hauth.symm.trans hown_auth,
      hclient.symm.trans hown_client⟩
  · exact ⟨own, ⟨hown, hkey⟩, hown_auth, hown_client⟩

theorem Holds.of_close (hconnections : l'.connections = Function.update l.connections fd none)
    (h : l'.Holds key clientId) : l.Holds key clientId := by
  obtain ⟨own, ⟨hown, hkey⟩, hrest⟩ := h
  rw [hconnections] at hown
  rcases update_eq_some hown with ⟨-, ⟨⟩⟩ | ⟨-, hown⟩
  exact ⟨own, ⟨hown, hkey⟩, hrest⟩

theorem clearAuth_same (response : Response) (origin : ResponseOrigin) (c : Connection) :
    (Server.clearAuth response (Server.completeWork origin c)).connId = c.connId ∧
      (Server.clearAuth response (Server.completeWork origin c)).authenticated =
        c.authenticated ∧
      (Server.clearAuth response (Server.completeWork origin c)).clientId = c.clientId := by
  unfold Server.clearAuth
  split <;> cases origin <;> exact ⟨rfl, rfl, rfl⟩

/-- A connection is authenticated as a client after a step only if it was so
before or the step authenticates it. -/
theorem Step.holds (hstep : Step l l') (h : l'.Holds key clientId) :
    ∃ events, l'.history = events ++ l.history ∧
      (l.Holds key clientId ∨ .authenticated key clientId ∈ events) := by
  cases hstep with
  | accept =>
      refine ⟨[_], rfl, .inl ?_⟩
      obtain ⟨c, ⟨hc, hkey⟩, hauth, hclient⟩ := h
      rcases update_eq_some hc with ⟨-, ⟨⟩⟩ | ⟨-, hc⟩
      · cases hauth
      · exact ⟨c, ⟨hc, hkey⟩, hauth, hclient⟩
  | skip | refuse | countGone | cancel | stale | leave => exact ⟨[], rfl, .inl h⟩
  | enqueue | produce => exact ⟨[_], rfl, .inl h⟩
  | buffer hc | markEof hc => refine ⟨[], rfl, .inl (h.of_set hc rfl ?_ ?_ ?_)⟩ <;> rfl
  | count _ hlive => refine ⟨[], rfl, .inl (h.of_set hlive.1 rfl ?_ ?_ ?_)⟩ <;> rfl
  | send hc =>
      refine ⟨[_], rfl, .inl (h.of_set hc rfl ?_ ?_ ?_)⟩ <;>
        unfold Connection.advance <;> split <;> rfl
  | close => exact ⟨[], rfl, .inl (h.of_close rfl)⟩
  | sendLast => exact ⟨[_, _], rfl, .inl (h.of_close rfl)⟩
  | drain => exact ⟨[_], rfl, .inl (h.of_close rfl)⟩
  | decodeClose => exact ⟨_, rfl, .inl (h.of_close rfl)⟩
  | decodeBusiness hc => refine ⟨_, rfl, .inl (h.of_set hc rfl ?_ ?_ ?_)⟩ <;> rfl
  | decodeAuth hc => refine ⟨[_], rfl, .inl (h.of_set hc rfl ?_ ?_ ?_)⟩ <;> rfl
  | @answer origin response rest _ _ c hlive c' answer extra hsettles =>
      obtain ⟨hid, hauth, hclient⟩ := clearAuth_same response origin c
      cases hsettles with
      | @authenticated own hown =>
          refine ⟨[_, _], rfl, ?_⟩
          obtain ⟨other, ⟨hother, hkey⟩, hother_auth, hother_client⟩ := h
          rcases update_eq_some hother with ⟨hfd, ⟨⟩⟩ | ⟨-, hother⟩
          · obtain ⟨fd, connId⟩ := key
            obtain rfl : fd = response.fd := hfd
            obtain rfl : _ = connId := hkey
            obtain rfl : own = clientId := hother_client
            exact .inr (List.mem_cons_of_mem _ List.mem_cons_self)
          · exact .inl ⟨other, ⟨hother, hkey⟩, hother_auth, hother_client⟩
      | refused | unchanged =>
          refine ⟨[_], rfl, .inl (h.of_set hlive.1 rfl ?_ ?_ ?_)⟩
          exacts [hid, hauth, hclient]
  | answerClose => exact ⟨_, rfl, .inl (h.of_close rfl)⟩

theorem history_along (hsteps : Relation.ReflTransGen Step l l') : l.history <:+ l'.history := by
  induction hsteps with
  | refl => exact List.suffix_refl _
  | tail _ hstep ih => exact ih.trans hstep.history_suffix

theorem holds_along (hsteps : Relation.ReflTransGen Step l l') (h : l'.Holds key clientId) :
    ∃ events, l'.history = events ++ l.history ∧
      (l.Holds key clientId ∨ .authenticated key clientId ∈ events) := by
  induction hsteps with
  | refl => exact ⟨[], rfl, .inl h⟩
  | @tail m n hsteps hstep ih =>
      obtain ⟨newer, hnewer, hm | hnew⟩ := hstep.holds h
      · obtain ⟨events, hevents, hl⟩ := ih hm
        exact ⟨newer ++ events, by rw [hnewer, hevents, List.append_assoc],
          hl.imp_right (List.mem_append_right _)⟩
      · obtain ⟨events, hevents⟩ := history_along hsteps
        exact ⟨newer ++ events, by rw [hnewer, ← hevents, List.append_assoc],
          .inr (List.mem_append_left _ hnew)⟩

/-! ## A connection that is refused -/

/-- The connection is closing or gone, and no item carries its key. -/
structure Shut (key : ConnectionKey) (admitted : List Request) (l : Ledger) : Prop where
  old : key.connId < l.nextConnId
  closing : ∀ c, l.Live key c → c.closing = true ∧ c.authenticated = false
  items : ∀ item ∈ l.work + l.intake, item.key ≠ key
  admitted : l.history.filterMap (Event.admittedBy key) = admitted

variable {admitted : List Request}

theorem Shut.source_ne (h : Shut key admitted l) (origin : ResponseOrigin) {item : Item}
    {rest : Multiset Item} (hsource : l.source origin = item ::ₘ rest) : item.key ≠ key := by
  have hitem : item ∈ l.source origin := hsource ▸ Multiset.mem_cons_self item rest
  cases origin with
  | worker => exact h.items item (Multiset.mem_add.mpr (.inl hitem))
  | reactor => exact h.items item (Multiset.mem_add.mpr (.inr hitem))

/-- The frames of a connection that is shut are not decoded. -/
theorem Shut.key_ne (h : Shut key admitted l) (hid : Identified l) {c : Connection}
    (hc : l.connections fd = some c) (hopen : c.closing = false ∨ c.authenticated = true) :
    c.key ≠ key := by
  rintro rfl
  have hfd : c.fd = fd := hid.fd fd c hc
  obtain ⟨hclosing, hauth⟩ := h.closing c ⟨by rw [← hc, ← hfd]; rfl, rfl⟩
  rcases hopen with hopen | hopen
  · cases hopen.symm.trans hclosing
  · cases hopen.symm.trans hauth

theorem Step.shut_items (hstep : Step l l') (hid : Identified l) (h : Shut key admitted l) :
    ∀ item ∈ l'.work + l'.intake, item.key ≠ key := by
  have hcons : ∀ (origin : ResponseOrigin) {old : Item} {rest : Multiset Item},
      l.source origin = old ::ₘ rest → ∀ new : Item, new.key = old.key →
        ∀ item ∈ new ::ₘ rest, item.key ≠ key := by
    intro origin old rest hsource new hnew item hitem
    rcases Multiset.mem_cons.mp hitem with rfl | hitem
    · exact hnew ▸ h.source_ne origin hsource
    · have hmem : item ∈ l.source origin := hsource ▸ Multiset.mem_cons_of_mem hitem
      cases origin with
      | worker => exact h.items item (Multiset.mem_add.mpr (.inl hmem))
      | reactor => exact h.items item (Multiset.mem_add.mpr (.inr hmem))
  have htake : ∀ (origin : ResponseOrigin) {old : Item} {rest : Multiset Item},
      l.source origin = old ::ₘ rest →
        ∀ item ∈ (l.take origin rest).work + (l.take origin rest).intake, item.key ≠ key := by
    intro origin old rest hsource item hitem
    obtain ⟨hwork, hintake⟩ := take_le hsource
    exact h.items item (Multiset.mem_of_le (add_le_add hwork hintake) hitem)
  intro item hitem
  cases hstep with
  | decodeBusiness hc _ _ hauth hkey hitems =>
      rcases Multiset.mem_add.mp hitem with hitem | hitem
      · exact h.items item (Multiset.mem_add.mpr (.inl hitem))
      · rw [business_items_key hitems hkey item hitem]
        exact h.key_ne hid hc (.inr hauth)
  | decodeAuth hc _ _ hfresh hkey =>
      rcases Multiset.mem_add.mp hitem with hitem | hitem
      · exact h.items item (Multiset.mem_add.mpr (.inl hitem))
      · rw [Multiset.mem_singleton.mp hitem]
        exact fun heq => h.key_ne hid hc (.inl hfresh.2.2) (hkey.symm.trans heq)
  | @enqueue own rest hintake =>
      refine h.items item ?_
      have hintake : l.intake = own ::ₘ rest := hintake
      have hitem : item ∈ own ::ₘ l.work + rest := hitem
      rwa [Multiset.cons_add, ← Multiset.add_cons, ← hintake] at hitem
  | @refuse own rest hintake request hcarries response hanswer =>
      have htag : response.tag = request.tag := by
        rcases hanswer with ⟨-, rfl⟩ | ⟨-, rfl⟩ <;> rfl
      rcases Multiset.mem_add.mp hitem with hitem | hitem
      · exact h.items item (Multiset.mem_add.mpr (.inl hitem))
      · exact hcons .reactor hintake (.response response)
          (congrArg Tag.key (htag.trans hcarries.tag.symm)) item hitem
  | @produce own rest hwork request hcarries response htag hanswer =>
      rcases Multiset.mem_add.mp hitem with hitem | hitem
      · exact hcons .worker hwork (.response response)
          (congrArg Tag.key (htag.trans hcarries.tag.symm)) item hitem
      · exact h.items item (Multiset.mem_add.mpr (.inr hitem))
  | cancel hwork => exact htake .worker hwork item hitem
  | stale hsource | answer hsource | answerClose hsource => exact htake _ hsource item hitem
  | _ => exact h.items item hitem

/-- What happens to a connection that is shut leaves it closing. -/
theorem Shut.closing_set (h : Shut key admitted l) {c c' : Connection}
    (hc : l.connections fd = some c)
    (hconnections : l'.connections = Function.update l.connections fd (some c'))
    (hid : c'.connId = c.connId) (hclosing : c'.closing = c.closing)
    (hauth : c'.authenticated = c.authenticated) :
    ∀ own, l'.Live key own → own.closing = true ∧ own.authenticated = false := by
  rintro own ⟨hown, hkey⟩
  rw [hconnections] at hown
  rcases update_eq_some hown with ⟨hfd, ⟨⟩⟩ | ⟨-, hown⟩
  · rw [hclosing, hauth]
    exact h.closing c ⟨hfd ▸ hc, hid.symm.trans hkey⟩
  · exact h.closing own ⟨hown, hkey⟩

theorem Shut.closing_close (h : Shut key admitted l)
    (hconnections : l'.connections = Function.update l.connections fd none) :
    ∀ own, l'.Live key own → own.closing = true ∧ own.authenticated = false := by
  rintro own ⟨hown, hkey⟩
  rw [hconnections] at hown
  rcases update_eq_some hown with ⟨-, ⟨⟩⟩ | ⟨-, hown⟩
  exact h.closing own ⟨hown, hkey⟩

theorem Step.shut_closing (hstep : Step l l') (h : Shut key admitted l) :
    ∀ c, l'.Live key c → c.closing = true ∧ c.authenticated = false := by
  cases hstep with
  | accept =>
      rintro own ⟨hown, hkey⟩
      rcases update_eq_some hown with ⟨-, ⟨⟩⟩ | ⟨-, hown⟩
      · exact absurd h.old (hkey ▸ lt_irrefl _)
      · exact h.closing own ⟨hown, hkey⟩
  | buffer hc | markEof hc | decodeBusiness hc =>
      refine h.closing_set hc rfl ?_ ?_ ?_ <;> rfl
  | count _ hlive => refine h.closing_set hlive.1 rfl ?_ ?_ ?_ <;> rfl
  | send hc =>
      obtain ⟨-, hauth, -, hclosing, -⟩ := Session.advance_same _ _
      refine h.closing_set hc rfl ?_ hclosing hauth
      unfold Connection.advance
      split <;> rfl
  | close | sendLast | drain | decodeClose | answerClose => exact h.closing_close rfl
  | @decodeAuth fd c hc _ _ hfresh =>
      rintro own ⟨hown, hkey⟩
      rcases update_eq_some hown with ⟨hfd, ⟨⟩⟩ | ⟨-, hown⟩
      · obtain ⟨hclosing, -⟩ := h.closing c ⟨hfd ▸ hc, hkey⟩
        cases hclosing.symm.trans hfresh.2.2
      · exact h.closing own ⟨hown, hkey⟩
  | @answer origin response rest hsource _ c hlive c' answer extra hsettles =>
      rintro own ⟨hown, hkey⟩
      rcases update_eq_some hown with ⟨hfd, ⟨⟩⟩ | ⟨-, hown⟩
      · refine absurd ?_ (h.source_ne origin hsource)
        have hconnId : response.connId = key.connId :=
          hlive.2.symm.trans ((settles_identity hsettles).2.1.symm.trans hkey)
        change (⟨response.fd, response.connId⟩ : ConnectionKey) = key
        rw [← hfd, hconnId]
      · exact h.closing own ⟨hown, hkey⟩
  | _ => exact h.closing

theorem Step.shut_admitted (hstep : Step l l') (h : Shut key admitted l) :
    l'.history.filterMap (Event.admittedBy key) = admitted := by
  rw [← h.admitted]
  have hdecoded : ∀ (own : ConnectionKey) (requests : List Request),
      (requests.map (Event.decoded own)).reverse.filterMap (Event.admittedBy key) = [] := by
    intro own requests
    rw [← List.map_reverse, List.filterMap_map]
    simp [Function.comp_def, Event.admittedBy]
  cases hstep with
  | @enqueue item rest hintake _ request hcarries =>
      have hne : request.key ≠ key := by
        have hkey : item.key = request.key := congrArg Tag.key hcarries.tag
        exact hkey ▸ h.source_ne .reactor hintake
      exact List.filterMap_cons_none (by simp [Event.admittedBy, hne])
  | decodeBusiness | decodeClose =>
      exact (List.filterMap_append ..).trans (by rw [hdecoded]; rfl)
  | answer _ _ _ hsettles | answerClose _ _ hsettles => cases hsettles <;> rfl
  | _ => rfl

theorem Step.shut (hstep : Step l l') (hid : Identified l) (h : Shut key admitted l) :
    Shut key admitted l' where
  old := h.old.trans_le hstep.next_le.1
  closing := hstep.shut_closing h
  items := hstep.shut_items hid h
  admitted := hstep.shut_admitted h

theorem Discard.shut (hdiscard : Discard l l') (h : Shut key admitted l) :
    Shut key admitted l' := by
  cases hdiscard with
  | mk hwork =>
      refine ⟨h.old, h.closing, fun item hitem => h.items item ?_, h.admitted⟩
      exact Multiset.mem_of_le (add_le_add hwork le_rfl) hitem

end Ledger

namespace Server

variable {library : Json.Library} {args : StartArgs} {s t : Server} {key : ConnectionKey}
  {clientId : Bytes} {response : Response} {action : Action}

/-- The number of live connections that are authenticated as the client. -/
def holders (s : Server) (clientId : Bytes) : ℕ :=
  s.connections.entries.countP fun entry =>
    entry.2.authenticated && entry.2.clientId = clientId

/-- The descriptors of these connections. -/
def holderFds (s : Server) (clientId : Bytes) : Finset Fd :=
  ((s.connections.entries.filter fun entry =>
    entry.2.authenticated && entry.2.clientId = clientId).map Sigma.fst).toFinset

theorem mem_holderFds {fd : Fd} : fd ∈ s.holderFds clientId ↔
    ∃ c, s.connections.lookup fd = some c ∧ c.authenticated = true ∧ c.clientId = clientId := by
  simp only [holderFds, List.mem_toFinset, List.mem_map, List.mem_filter, Bool.and_eq_true,
    decide_eq_true_eq]
  constructor
  · rintro ⟨entry, ⟨hentry, hholds⟩, rfl⟩
    exact ⟨entry.2, AList.mem_lookup_iff.mpr hentry, hholds⟩
  · rintro ⟨c, hc, hholds⟩
    exact ⟨⟨fd, c⟩, ⟨AList.mem_lookup_iff.mp hc, hholds⟩, rfl⟩

theorem nodup_filter_fst (s : Server) (p : (Sigma fun _ : Fd => Connection) → Bool) :
    ((s.connections.entries.filter p).map Sigma.fst).Nodup :=
  List.Sublist.nodup (List.filter_sublist.map _) s.connections.nodupKeys

theorem holders_eq_card (s : Server) (clientId : Bytes) :
    s.holders clientId = (s.holderFds clientId).card := by
  rw [holderFds, List.toFinset_card_of_nodup (nodup_filter_fst s _), List.length_map, holders,
    List.countP_eq_length_filter]

/-- `countAuthenticatedConnectionsForClient` leaves out one descriptor. -/
theorem card_erase_le_count (s : Server) (clientId : Bytes) (fd : Fd) :
    ((s.holderFds clientId).erase fd).card ≤
      s.countAuthenticatedConnectionsForClient clientId fd := by
  rw [countAuthenticatedConnectionsForClient, List.countP_eq_length_filter,
    ← List.length_map Sigma.fst, ← List.toFinset_card_of_nodup (nodup_filter_fst s _)]
  refine Finset.card_le_card fun own hown => ?_
  obtain ⟨hne, hown⟩ := Finset.mem_erase.mp hown
  obtain ⟨c, hc, hholds⟩ := mem_holderFds.mp hown
  simp only [List.mem_toFinset, List.mem_map, List.mem_filter, Bool.and_eq_true,
    decide_eq_true_eq]
  exact ⟨⟨own, c⟩, ⟨AList.mem_lookup_iff.mp hc, ⟨hne, hholds.1⟩, hholds.2⟩, rfl⟩

theorem mem_holderFds_of_holds (h : s.ledger.Holds key clientId) :
    key.fd ∈ s.holderFds clientId := by
  obtain ⟨c, ⟨hc, -⟩, hholds⟩ := h
  exact mem_holderFds.mpr ⟨c, hc, hholds⟩

theorem holds_of_mem_holderFds {fd : Fd} (h : fd ∈ s.holderFds clientId) :
    ∃ connId, s.ledger.Holds ⟨fd, connId⟩ clientId := by
  obtain ⟨c, hc, hholds⟩ := mem_holderFds.mp h
  exact ⟨c.connId, c, ⟨hc, rfl⟩, hholds⟩

/-- Without a new holder the number does not grow. -/
theorem holders_le (h : ∀ key, t.ledger.Holds key clientId → s.ledger.Holds key clientId) :
    t.holders clientId ≤ s.holders clientId := by
  rw [holders_eq_card, holders_eq_card]
  refine Finset.card_le_card fun fd hfd => ?_
  obtain ⟨connId, hholds⟩ := holds_of_mem_holderFds hfd
  exact mem_holderFds_of_holds (h _ hholds)

/-- With one new holder the number is at most one more than the count without
it. -/
theorem holders_le_count_succ
    (h : ∀ own, t.ledger.Holds own clientId → s.ledger.Holds own clientId ∨ own = key) :
    t.holders clientId ≤ s.countAuthenticatedConnectionsForClient clientId key.fd + 1 := by
  have hsubset : t.holderFds clientId ⊆ insert key.fd ((s.holderFds clientId).erase key.fd) := by
    intro fd hfd
    obtain ⟨connId, hholds⟩ := holds_of_mem_holderFds hfd
    by_cases heq : fd = key.fd
    · exact Finset.mem_insert.mpr (.inl heq)
    · refine Finset.mem_insert_of_mem (Finset.mem_erase.mpr ⟨heq, ?_⟩)
      rcases h _ hholds with hold | rfl
      · exact mem_holderFds_of_holds hold
      · exact absurd rfl heq
  calc t.holders clientId = (t.holderFds clientId).card := holders_eq_card t clientId
    _ ≤ (insert key.fd ((s.holderFds clientId).erase key.fd)).card := Finset.card_le_card hsubset
    _ ≤ ((s.holderFds clientId).erase key.fd).card + 1 := Finset.card_insert_le _ _
    _ ≤ s.countAuthenticatedConnectionsForClient clientId key.fd + 1 :=
        Nat.add_le_add_right (card_erase_le_count s clientId key.fd) 1

/-! ## Which steps authenticate -/

/-- Without the permission to answer no connection is authenticated. -/
theorem Affects.no_authenticated {queues : Prop} (h : Affects queues False s t) :
    ∃ events, t.log = events ++ s.log ∧ ∀ own client, .authenticated own client ∉ events := by
  induction h with
  | refl => exact ⟨[], rfl, by simp⟩
  | tail _ hstep ih =>
      obtain ⟨older, hlog, holder⟩ := ih
      obtain ⟨-, newer, hlog', hnewer⟩ := hstep.events
      refine ⟨newer ++ older, by rw [hlog', hlog, List.append_assoc], fun own client hmem => ?_⟩
      rcases List.mem_append.mp hmem with hmem | hmem
      · exact hnewer _ hmem
      · exact holder own client hmem

/-- A step that applies no response authenticates nothing. -/
theorem step_no_authenticated (hstep : step library s action = some t)
    (hnone : ∀ own, action = .reactor own → s.answered? own = none) :
    ∃ events, t.log = events ++ s.log ∧ ∀ own client, .authenticated own client ∉ events := by
  cases step_move hstep with
  | reactor h =>
      have haffects := reactorStep_affects h
      rw [hnone _ rfl, Option.isSome_none, Bool.false_eq_true] at haffects
      exact haffects.no_authenticated
  | worker _ h => exact Affects.no_authenticated (workerStep_affects h)
  | authWorker _ h => exact Affects.no_authenticated (authWorkerStep_affects h)
  | pullConfig | tick => exact ⟨[], rfl, by simp⟩

theorem step_holds (hstep : step library s action = some t)
    (hnone : ∀ own, action = .reactor own → s.answered? own = none)
    (h : t.ledger.Holds key clientId) : s.ledger.Holds key clientId := by
  by_cases hdeadline : action = .reactor .deadline
  · subst hdeadline
    obtain ⟨-, ⟨⟩⟩ := Option.ite_none_right_eq_some.mp hstep
    exact h
  · obtain ⟨events, hhistory, hold | hown⟩ :=
      Ledger.holds_along (step_refines hdeadline hstep) h
    · exact hold
    · obtain ⟨new, hlog, hnew⟩ := step_no_authenticated hstep hnone
      have hvisible : visible t.log = visible new ++ visible s.log := by
        rw [hlog]
        exact List.filter_append ..
      rw [← List.append_cancel_right (hvisible.symm.trans hhistory)] at hown
      exact absurd (List.mem_filter.mp hown).1 (hnew key clientId)

/-! ## The response that is applied -/

theorem deliver_lookup_self {fd : Fd} {c c' : Connection} {ctl : Bool}
    (h : (s.deliver fd c response ctl).connections.lookup fd = some c') :
    c' = appendOutput c response := by
  unfold deliver at h
  split at h
  · cases (closeConnection_lookup_self _ fd).symm.trans h
  · split at h
    · cases (closeConnection_lookup_self _ fd).symm.trans h
    · cases ctl with
      | true => exact (Option.some.inj ((AList.lookup_insert _).symm.trans h)).symm
      | false => cases (closeConnection_lookup_self _ fd).symm.trans h

/-- The step that applies a response, as a change of the ledger. -/
theorem answered_step {own : ReactorAction} (hstep : s.reactorStep own = some t)
    (h : s.answered? own = some response) :
    ∃ (u : Server) (origin : ResponseOrigin) (rest : Multiset Item) (ctl : Bool),
      t = u.applyResponse response origin ctl ∧
      s.ledger.source origin = .response response ::ₘ rest ∧
      u.ledger = s.ledger.take origin rest ∧ u.connections = s.connections ∧
      u.runtimeConfig = s.runtimeConfig := by
  rcases answered?_eq_some h with
    ⟨ctl, queue, rfl, hpop⟩ | ⟨ctl, fd, responses, eof, rfl, hpoint⟩
  · obtain ⟨-, hstep⟩ := Option.ite_none_right_eq_some.mp hstep
    rw [hpop] at hstep
    cases hstep
    refine ⟨{ s with responseQueue := queue }, .worker, _, ctl, rfl, ?_, rfl, rfl, rfl⟩
    change s.work = .response response ::ₘ ({ s with responseQueue := queue } : Server).work
    simp only [work, (BlockQueue.tryPop_eq_some hpop).1, List.map_cons, ← Multiset.cons_coe,
      ← Multiset.singleton_add]
    abel
  · simp only [reactorStep, hpoint] at hstep
    cases hstep
    obtain ⟨hintake, hadmitted⟩ := ledger_source hpoint
    refine ⟨{ s with point := .enqueue ⟨fd, [], [], responses, none, eof⟩ }, .reactor,
      Enqueue.items ⟨fd, [], [], responses, none, eof⟩, ctl, rfl,
      hintake.trans (items_response rfl), ?_, rfl, rfl⟩
    exact Ledger.ext rfl rfl rfl rfl rfl rfl rfl hadmitted.symm rfl

/-- The three ends of the authentication step. -/
theorem authenticate_cases (s : Server) (c : Connection) (response : Response) :
    (∃ client, response.clientIdToAuthenticate = some client ∧
      s.countAuthenticatedConnectionsForClient client c.fd <
        toSize s.runtimeConfig.maxConnectionsPerClient ∧
      (s.authenticate c response).2 =
        ({ c with authenticated := true, clientId := client }, response)) ∨
    (∃ client, response.clientIdToAuthenticate = some client ∧
      toSize s.runtimeConfig.maxConnectionsPerClient ≤
        s.countAuthenticatedConnectionsForClient client c.fd ∧
      (s.authenticate c response).2 = (c, refuseConnection response)) ∨
    response.clientIdToAuthenticate = none ∧ (s.authenticate c response).2 = (c, response) := by
  unfold authenticate
  split
  · next client hclient =>
      split
      · next hlimit => exact .inr (.inl ⟨client, hclient, hlimit, rfl⟩)
      · next hlimit => exact .inl ⟨client, hclient, not_le.mp hlimit, rfl⟩
  · next hclient => split <;> exact .inr (.inr ⟨hclient, rfl⟩)

/-- A response that meets its connection. -/
theorem applyResponse_live {c : Connection} (hlive : s.ledger.Live response.key c)
    (origin : ResponseOrigin) (ctl : Bool) :
    s.applyResponse response origin ctl =
      (s.authenticate (clearAuth response (completeWork origin c)) response).1.deliver response.fd
        (s.authenticate (clearAuth response (completeWork origin c)) response).2.1
        (s.authenticate (clearAuth response (completeWork origin c)) response).2.2 ctl := by
  have hc : s.connections.lookup response.fd = some c := hlive.1
  have hconnId : c.connId = response.connId := hlive.2
  simp only [applyResponse, hc, hconnId, ne_eq, not_true_eq_false, if_false]

/-- Who is authenticated after a response was applied. -/
theorem applyResponse_holds (hid : s.ledger.Identified) {origin : ResponseOrigin} {ctl : Bool}
    (h : (s.applyResponse response origin ctl).ledger.Holds key clientId) :
    s.ledger.Holds key clientId ∨
      key = response.key ∧ response.clientIdToAuthenticate = some clientId ∧
        s.countAuthenticatedConnectionsForClient clientId response.fd <
          toSize s.runtimeConfig.maxConnectionsPerClient := by
  obtain ⟨c', ⟨hc', hkey⟩, hauth, hclient⟩ := h
  have hc' : (s.applyResponse response origin ctl).connections.lookup key.fd = some c' := hc'
  by_cases hsame : (s.applyResponse response origin ctl).connections.lookup key.fd =
      s.connections.lookup key.fd
  · exact .inl ⟨c', ⟨hsame.symm.trans hc', hkey⟩, hauth, hclient⟩
  · obtain ⟨c, hc, hresponse⟩ := applyResponse_lookup hsame
    obtain ⟨hfd, hconnId⟩ : response.fd = key.fd ∧ response.connId = c.connId :=
      ConnectionKey.mk.inj hresponse
    have hlive : s.ledger.Live response.key c := by
      rw [hresponse]
      exact ⟨hc, rfl⟩
    obtain ⟨hid', hauth', hclient'⟩ := Ledger.clearAuth_same response origin c
    have hcurrentFd : (clearAuth response (completeWork origin c)).fd = response.fd := by
      rw [hfd, ← hid.fd key.fd c hc]
      unfold clearAuth
      split <;> cases origin <;> rfl
    rw [applyResponse_live hlive, ← hfd] at hc'
    obtain rfl := deliver_lookup_self hc'
    simp only [appendOutput] at hkey hauth hclient
    have hkept : (s.authenticate (clearAuth response (completeWork origin c)) response).2.1 =
        clearAuth response (completeWork origin c) → s.ledger.Holds key clientId := by
      intro heq
      rw [heq] at hkey hauth hclient
      exact ⟨c, ⟨hc, hid'.symm.trans hkey⟩, hauth'.symm.trans hauth, hclient'.symm.trans hclient⟩
    rcases authenticate_cases s (clearAuth response (completeWork origin c)) response with
      ⟨client, hsome, hlimit, heq⟩ | ⟨client, -, -, heq⟩ | ⟨-, heq⟩
    · rw [heq] at hkey hclient
      obtain rfl : client = clientId := hclient
      rw [hcurrentFd] at hlimit
      refine .inr ⟨?_, hsome, hlimit⟩
      rw [hresponse, ← hid', hkey]
    · exact .inl (hkept (congrArg Prod.fst heq))
    · exact .inl (hkept (congrArg Prod.fst heq))

/-! ## The limit -/

theorem toSize_maxConnections (h : s.runtimeConfig.InRange) :
    (toSize s.runtimeConfig.maxConnectionsPerClient : ℤ) =
      s.runtimeConfig.maxConnectionsPerClient := by
  obtain ⟨hmin, hmax⟩ := h.maxConnectionsPerClient
  unfold RuntimeConfig.intMax at hmax
  unfold toSize
  omega

/-- The step applies an allowed AUTH of the client to a live connection, and
the client is below the limit. -/
def Authenticates (s : Server) (action : Action) (key : ConnectionKey) (clientId : Bytes) : Prop :=
  ∃ own response, action = .reactor own ∧ s.answered? own = some response ∧ response.key = key ∧
    response.clientIdToAuthenticate = some clientId ∧
    s.countAuthenticatedConnectionsForClient clientId key.fd <
      toSize s.runtimeConfig.maxConnectionsPerClient

/-- A connection is authenticated as a client only by such a step. -/
theorem authenticates_of_holds (h : Transition.Reachable (gateway library args) s)
    (hstep : step library s action = some t) (hholds : t.ledger.Holds key clientId)
    (hnew : ¬s.ledger.Holds key clientId) : s.Authenticates action key clientId := by
  by_cases hanswered : ∃ own response, action = .reactor own ∧ s.answered? own = some response
  · obtain ⟨own, response, rfl, hanswered⟩ := hanswered
    obtain ⟨u, origin, rest, ctl, rfl, -, hledger, hconnections, hconfig⟩ :=
      answered_step hstep hanswered
    have hid : u.ledger.Identified := by
      have hidentified := (ledger_sound h).identified
      rw [hledger]
      exact ⟨hidentified.fd, hidentified.accepted, hidentified.fresh, hidentified.subject⟩
    rcases applyResponse_holds hid hholds with hold | ⟨hkey, hclient, hlimit⟩
    · rw [hledger] at hold
      exact absurd hold hnew
    · refine ⟨own, response, rfl, hanswered, hkey.symm, hclient, ?_⟩
      rw [countAuthenticatedConnectionsForClient, hconnections, hconfig] at hlimit
      rw [hkey]
      exact hlimit
  · refine absurd (step_holds hstep (fun own hown => ?_) hholds) hnew
    exact Option.eq_none_iff_forall_ne_some.mpr fun response hsome =>
      hanswered ⟨own, response, hown, hsome⟩

theorem holders_le_max (h : Transition.Reachable (gateway library args) s)
    (hstep : step library s action = some t) (hauth : s.Authenticates action key clientId) :
    (t.holders clientId : ℤ) ≤ s.runtimeConfig.maxConnectionsPerClient := by
  obtain ⟨own, response, rfl, hanswered, rfl, hclient, hlimit⟩ := hauth
  have hcount : t.holders clientId ≤
      s.countAuthenticatedConnectionsForClient clientId response.key.fd + 1 := by
    refine holders_le_count_succ fun other hother => ?_
    by_cases hold : s.ledger.Holds other clientId
    · exact .inl hold
    · obtain ⟨own', response', hown, hanswered', hkey, -⟩ :=
        authenticates_of_holds h hstep hother hold
      cases hown
      cases hanswered.symm.trans hanswered'
      exact .inr hkey.symm
  have hmax := toSize_maxConnections (limitsInRange h).config
  omega

/-! ## The refusal -/

/-- The step applies an allowed AUTH to the connection and finds its client at
the limit. -/
def Refuses (s : Server) (action : Action) (key : ConnectionKey) : Prop :=
  ∃ own response c clientId, action = .reactor own ∧ s.answered? own = some response ∧
    response.key = key ∧ s.live? key = some c ∧
    response.clientIdToAuthenticate = some clientId ∧
    toSize s.runtimeConfig.maxConnectionsPerClient ≤
      s.countAuthenticatedConnectionsForClient clientId key.fd

/-- The output of a response leaves the items alone. -/
structure SameWork (s t : Server) : Prop where
  nextConnId : t.ledger.nextConnId = s.ledger.nextConnId
  work : t.ledger.work = s.ledger.work
  intake : t.ledger.intake = s.ledger.intake
  admitted : ∀ key, t.ledger.history.filterMap (Event.admittedBy key) =
    s.ledger.history.filterMap (Event.admittedBy key)

theorem SameWork.trans {u : Server} (h : SameWork s t) (h' : SameWork t u) : SameWork s u where
  nextConnId := h'.nextConnId.trans h.nextConnId
  work := h'.work.trans h.work
  intake := h'.intake.trans h.intake
  admitted key := (h'.admitted key).trans (h.admitted key)

theorem closeConnection_sameWork (s : Server) (fd : Fd) : SameWork s (s.closeConnection fd) := by
  cases hc : s.connections.lookup fd with
  | none =>
      rw [closeConnection_none hc]
      exact ⟨rfl, rfl, rfl, fun _ => rfl⟩
  | some c =>
      have hledger := ledger_closeConnection hc
      refine ⟨?_, ?_, ?_, fun key => ?_⟩ <;> rw [hledger] <;> rfl

theorem deliver_sameWork (s : Server) (fd : Fd) (c : Connection) (response : Response)
    (ctl : Bool) : SameWork s (s.deliver fd c response ctl) := by
  have hset : ∀ c, SameWork s (s.setConnection fd c) :=
    fun c => ⟨rfl, rfl, rfl, fun _ => rfl⟩
  unfold deliver
  split
  · exact (hset c).trans (closeConnection_sameWork _ fd)
  · split
    · refine (SameWork.trans (hset c) ?_).trans (closeConnection_sameWork _ fd)
      exact ⟨rfl, rfl, rfl, fun _ => rfl⟩
    · have hemit : SameWork s ((s.setConnection fd (appendOutput c response)).emit
          (.appended ⟨fd, c.connId⟩ response s.runtimeConfig.slowClientOutputLimit)) :=
        (hset _).trans ⟨rfl, rfl, rfl, fun _ => rfl⟩
      cases ctl with
      | true => exact hemit.trans ⟨rfl, rfl, rfl, fun _ => rfl⟩
      | false => exact hemit.trans (closeConnection_sameWork _ fd)

theorem authenticate_sameWork (s : Server) (c : Connection) (response : Response) :
    SameWork s (s.authenticate c response).1 := by
  unfold authenticate
  split
  · split <;> exact ⟨rfl, rfl, rfl, fun _ => rfl⟩
  · split <;> exact ⟨rfl, rfl, rfl, fun _ => rfl⟩

theorem applyResponse_sameWork {c : Connection} (hlive : s.ledger.Live response.key c)
    (origin : ResponseOrigin) (ctl : Bool) : SameWork s (s.applyResponse response origin ctl) := by
  rw [applyResponse_live hlive]
  exact (authenticate_sameWork ..).trans (deliver_sameWork ..)

/-- A response that is applied to a live connection and may authenticate it is
the only item of the connection, and the connection is not authenticated. -/
theorem auth_response_alone (h : Transition.ReachableBy (gateway library args) BeforeDeadline s)
    {c : Connection} (hlive : s.ledger.Live response.key c) {origin : ResponseOrigin}
    {rest : Multiset Item} (hsource : s.ledger.source origin = .response response ::ₘ rest)
    (hclient : response.clientIdToAuthenticate ≠ none) :
    c.authenticated = false ∧ ∀ item ∈ (s.ledger.take origin rest).work +
      (s.ledger.take origin rest).intake, item.key ≠ response.key := by
  have hbalanced := (ledger_accounted h).balanced response.fd c hlive.1
  have hkey : (⟨response.fd, c.connId⟩ : ConnectionKey) = response.key := by
    rw [hlive.2]
    rfl
  have hall : s.ledger.work + s.ledger.intake = .response response ::ₘ
      ((s.ledger.take origin rest).work + (s.ledger.take origin rest).intake) := by
    cases origin with
    | worker => exact (congrArg (· + s.ledger.intake) hsource).trans (Multiset.cons_add ..)
    | reactor => exact (congrArg (s.ledger.work + ·) hsource).trans (Multiset.add_cons ..)
  have hitems : (s.ledger.session response.fd c).items = .response response ::ₘ
      itemsOf ((s.ledger.take origin rest).work + (s.ledger.take origin rest).intake)
        response.key := by
    have hcons := itemsOf_cons_self (.response response)
      ((s.ledger.take origin rest).work + (s.ledger.take origin rest).intake)
    rw [← hall] at hcons
    simp only [Session.items, Ledger.session, hkey, ← itemsOf_add]
    exact hcons
  have hfits := hbalanced.fits (.response response)
    (hitems ▸ Multiset.mem_cons_self _ _)
  have hpending : c.authPending = true := by
    rcases hfits with ⟨-, hbusiness⟩ | ⟨hpending, -⟩
    · exact absurd hbusiness.client hclient
    · exact hpending
  have hcard := (hbalanced.single hpending).1
  rw [hitems, Multiset.card_cons, Nat.add_eq_right, Multiset.card_eq_zero] at hcard
  refine ⟨?_, fun item hitem heq => ?_⟩
  · cases hauth : c.authenticated with
    | false => rfl
    | true => cases (hbalanced.exclusive hauth).symm.trans hpending
  · exact Multiset.filter_eq_nil.mp hcard item hitem heq

theorem refused_shut (h : Transition.Reachable (gateway library args) s)
    (hstep : step library s action = some t) (hrefuses : s.Refuses action key) :
    Ledger.Shut key (s.log.filterMap (Event.admittedBy key)) t.ledger := by
  obtain ⟨own, response, c, clientId, rfl, hanswered, rfl, hlive, hclient, hlimit⟩ := hrefuses
  have hlive := live?_eq_some.mp hlive
  have hbefore : Transition.ReachableBy (gateway library args) BeforeDeadline s := by
    refine (beforeDeadline_or_left h).resolve_right fun hleft => ?_
    rcases answered?_eq_some hanswered with
      ⟨ctl, queue, rfl, -⟩ | ⟨ctl, fd, responses, eof, rfl, hpoint⟩
    · simp [step, reactorStep, hleft.atBoundary] at hstep
    · cases hleft.2.symm.trans hpoint
  obtain ⟨u, origin, rest, ctl, rfl, hsource, hledger, hconnections, hconfig⟩ :=
    answered_step hstep hanswered
  obtain ⟨hauth, hitems⟩ :=
    auth_response_alone hbefore hlive hsource (by rw [hclient]; simp)
  have hulive : u.ledger.Live response.key c := by
    rw [hledger]
    exact hlive
  have hidentified := (ledger_sound h).identified
  have hfd : (clearAuth response (completeWork origin c)).fd = response.fd := by
    rw [← hidentified.fd response.fd c hlive.1]
    unfold clearAuth
    split <;> cases origin <;> rfl
  obtain ⟨-, hauth', -⟩ := Ledger.clearAuth_same response origin c
  have hrefused : (u.authenticate (clearAuth response (completeWork origin c)) response).2 =
      (clearAuth response (completeWork origin c), refuseConnection response) := by
    rcases authenticate_cases u (clearAuth response (completeWork origin c)) response with
      ⟨client, hsome, hlt, -⟩ | ⟨-, -, -, heq⟩ | ⟨hnone, -⟩
    · cases hclient.symm.trans hsome
      rw [hfd, countAuthenticatedConnectionsForClient, hconnections, hconfig] at hlt
      exact absurd hlimit (not_le.mpr hlt)
    · exact heq
    · cases hclient.symm.trans hnone
  have hsame := applyResponse_sameWork hulive origin ctl
  refine ⟨?_, fun c' hc' => ?_, ?_, ?_⟩
  · rw [hsame.nextConnId, hledger, ← hlive.2]
    exact hidentified.connId_lt hlive.1
  · rw [applyResponse_live hulive] at hc'
    obtain rfl := deliver_lookup_self hc'.1
    rw [hrefused]
    exact ⟨Bool.or_true _, hauth'.trans hauth⟩
  · rw [hsame.work, hsame.intake, hledger]
    exact hitems
  · rw [hsame.admitted, hledger]
    exact filterMap_visible (fun event hevent => by cases event <;> first | rfl | cases hevent) _

theorem shut_step {admitted : List Request} (h : Transition.Reachable (gateway library args) s)
    (hstep : step library s action = some t) (hshut : Ledger.Shut key admitted s.ledger) :
    Ledger.Shut key admitted t.ledger := by
  by_cases hdeadline : action = .reactor .deadline
  · subst hdeadline
    exact (deadline_discards hstep).shut hshut
  · have hboth := Transition.kept_along
      (fun l l' (hstep : Ledger.Step l l') (h : l.Sound ∧ Ledger.Shut key admitted l) =>
        ⟨hstep.sound h.1, hstep.shut h.1.identified h.2⟩)
      (step_refines hdeadline hstep) ⟨ledger_sound h, hshut⟩
    exact hboth.2

/-- What is shut stays shut. -/
theorem shut_along {admitted : List Request} {u : Server}
    (h : Transition.Reachable (gateway library args) t) (hshut : Ledger.Shut key admitted t.ledger)
    (hleads : Transition.Leads (gateway library args) (fun _ _ => True) t u) :
    Ledger.Shut key admitted u.ledger := by
  have hboth : Transition.Reachable (gateway library args) u ∧
      Ledger.Shut key admitted u.ledger := by
    refine Transition.kept_along (I := fun s : Server =>
      Transition.Reachable (gateway library args) s ∧ Ledger.Shut key admitted s.ledger)
      ?_ hleads ⟨h, hshut⟩
    rintro s s' ⟨action, -, hstep⟩ ⟨hs, hshut⟩
    exact ⟨.step hs trivial hstep, shut_step hs hstep hshut⟩
  exact hboth.2

/-- A step that authenticates a connection leaves its client at or below the
limit then in force, the number of connections a client holds grows in no other
step, and a connection that is refused is never authenticated later and has no
further request admitted. -/
theorem connection_cap (h : Transition.Reachable (gateway library args) s) {action : Action}
    (hstep : step library s action = some t) :
    (∀ key clientId c, t.live? key = some c → c.authenticated = true → c.clientId = clientId →
      (∀ old, s.live? key = some old → ¬(old.authenticated = true ∧ old.clientId = clientId)) →
        (t.holders clientId : ℤ) ≤ s.runtimeConfig.maxConnectionsPerClient) ∧
    (∀ clientId, s.holders clientId < t.holders clientId →
      ∃ key, s.Authenticates action key clientId ∧
        (t.holders clientId : ℤ) ≤ s.runtimeConfig.maxConnectionsPerClient) ∧
    ∀ key, s.Refuses action key →
      ∀ u, Transition.Leads (gateway library args) (fun _ _ => True) t u →
        (∀ c, u.live? key = some c → c.authenticated = false) ∧
          u.log.filterMap (Event.admittedBy key) = s.log.filterMap (Event.admittedBy key) := by
  refine ⟨fun key clientId c hc hauth hclient hnew => ?_, fun clientId hlt => ?_,
    fun key hrefuses u hleads => ?_⟩
  · have hholds : t.ledger.Holds key clientId := ⟨c, live?_eq_some.mp hc, hauth, hclient⟩
    have hfresh : ¬s.ledger.Holds key clientId := by
      rintro ⟨old, hold, hholds⟩
      exact hnew old (live?_eq_some.mpr hold) hholds
    exact holders_le_max h hstep (authenticates_of_holds h hstep hholds hfresh)
  · obtain ⟨key, hholds, hfresh⟩ : ∃ key, t.ledger.Holds key clientId ∧
        ¬s.ledger.Holds key clientId := by
      by_contra hnone
      refine absurd (holders_le fun key hholds => ?_) (not_le.mpr hlt)
      by_contra hfresh
      exact hnone ⟨key, hholds, hfresh⟩
    have hauth := authenticates_of_holds h hstep hholds hfresh
    exact ⟨key, hauth, holders_le_max h hstep hauth⟩
  · have hreach : Transition.Reachable (gateway library args) t := .step h trivial hstep
    have hshut := shut_along hreach (refused_shut h hstep hrefuses) hleads
    refine ⟨fun c hc => (hshut.closing c (live?_eq_some.mp hc)).2, ?_⟩
    rw [← hshut.admitted]
    exact (filterMap_visible (fun event hevent => by
      cases event <;> first | rfl | cases hevent) _).symm

end Server

namespace Sample

/-- A client connects at a descriptor and authenticates, and the control plane
allows it. -/
def authenticateAt (fd : Fd) : List Action :=
  [.reactor (.accept fd true), .reactor (.read fd (.data login) []),
    .reactor (.enqueueNext true), .reactor (.enqueueNext true), .reactor (.enqueueNext true),
    .authWorker 0 .pop, .authWorker 0 .testCancellation,
    .authWorker 0 (.handleAuth (.answered ⟨.allowed, []⟩)), .authWorker 0 .offer]

/-- Two connections of a client are authenticated, and the third is about to be. -/
def crowded : Server :=
  (Server.after library {} 0 (authenticateAt 5 ++ authenticateAt 6 ++ authenticateAt 7 ++
    [.reactor (.drainResponse true), .reactor (.drainResponse true)])).get (by decide +kernel)

/-- The third is refused. -/
def capped : Server :=
  (crowded.reactorStep (.drainResponse true)).get (by decide +kernel)

end Sample

namespace Server

theorem connection_cap_crowded :
    Sample.crowded.holders [97] = 2 ∧ Sample.capped.holders [97] = 2 ∧
      Sample.crowded.Refuses (.reactor (.drainResponse true)) ⟨7, 3⟩ ∧
      ∀ u, Transition.Leads (gateway Sample.library {}) (fun _ _ => True) Sample.capped u →
        ∀ c, u.live? ⟨7, 3⟩ = some c → c.authenticated = false := by
  have hreach : Transition.Reachable (gateway Sample.library {}) Sample.crowded :=
    after_reachable (fun _ _ _ => trivial) (Option.some_get _).symm
  have hstep : step Sample.library Sample.crowded (.reactor (.drainResponse true)) =
      some Sample.capped := (Option.some_get _).symm
  have hrefuses : Sample.crowded.Refuses (.reactor (.drainResponse true)) ⟨7, 3⟩ := by
    refine ⟨.drainResponse true,
      (Sample.crowded.answered? (.drainResponse true)).get (by decide +kernel),
      (Sample.crowded.live? ⟨7, 3⟩).get (by decide +kernel), [97], rfl, (Option.some_get _).symm,
      by decide +kernel, (Option.some_get _).symm, by decide +kernel, by decide +kernel⟩
  obtain ⟨-, -, hrefused⟩ := connection_cap hreach hstep
  exact ⟨by decide +kernel, by decide +kernel, hrefuses,
    fun u hleads => (hrefused ⟨7, 3⟩ hrefuses u hleads).1⟩

end Server

end GatewaySystem
