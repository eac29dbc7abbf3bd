import GatewaySystem.Control.ControlPlaneClient
import GatewaySystem.Control.HttpGrammar
import GatewaySystem.Protocol.Reading

/-!
# Replies in pieces

The parser decides on what has arrived. An undecided parser has forgotten
nothing: it goes on as a fresh parser would on all bytes so far. A decision
stays what it is when more bytes arrive, with one exception. Once the announced
body is complete the reply is returned, and bytes behind it are not looked at;
if they arrive in the same piece the reply is refused. So exactly the replies
with surplus bytes depend on their segmentation.
-/

namespace GatewaySystem

namespace HttpResponseParser

variable {reply status body : Bytes} {lines : List Bytes} {code length : ℕ}
  {parser : HttpResponseParser} {more : Bytes}

/-- A reply whose head is in order and whose body goes on behind the announced
length. -/
def Surplus (reply : Bytes) : Prop :=
  ∃ status lines body code length, Cut reply status lines body ∧
    (head status lines).length + 4 ≤ maxHeaderBytes ∧ Described status lines code length ∧
    length < body.length

/-- A parser that has not decided goes on as if everything had arrived at once. -/
theorem Outcome.consume_append (h : Outcome reply parser) (hdone : parser.done = false)
    (hsize : (reply ++ more).length < 2 ^ 64) :
    consume parser more = consume {} (reply ++ more) := by
  cases h with
  | waiting _ _ => simp [consume, parseHeaders]
  | reading hcut hshort hread _ =>
      rw [consume_cut (hcut.append more) hsize, if_neg (not_lt.mpr hshort), hread]
      rfl
  | _ => cases hdone

theorem Outcome.next (h : Outcome reply parser) (hdone : parser.done = false)
    (hsize : (reply ++ more).length < 2 ^ 64) :
    ∃ next, consume parser more = some next ∧ Outcome (reply ++ more) next := by
  rw [h.consume_append hdone hsize]
  exact consume_outcome hsize

/-- The next chunk, after chunks that have left the parser undecided. -/
theorem consume_next {received chunk : Bytes} (hconsume : consume {} received = some parser)
    (hdone : parser.done = false) (hsize : (received ++ chunk).length < 2 ^ 64) :
    ∃ next, consume {} (received ++ chunk) = some next ∧ consume parser chunk = some next ∧
      Outcome (received ++ chunk) next := by
  obtain ⟨_, hsame, houtcome⟩ := consume_outcome
    (lt_of_le_of_lt (List.prefix_append received chunk).length_le hsize)
  obtain rfl := Option.some.inj (hconsume.symm.trans hsame)
  obtain ⟨next, hnext, hafter⟩ := houtcome.next hdone hsize
  exact ⟨next, (houtcome.consume_append hdone hsize).symm.trans hnext, hnext, hafter⟩

/-- A blank line that is completed by later bytes ends behind them. -/
theorem Cut.length_lt (hfind : Search.find (crlf ++ crlf) reply = none)
    (h : Cut (reply ++ more) status lines body) :
    reply.length < (head status lines).length + 4 := by
  by_contra hle
  have htake := Search.find_take h.first (not_lt.mp hle)
  rw [List.take_left, hfind] at htake
  cases htake

theorem Cut.surplus (h : Cut reply status lines body) (hsize : reply.length < 2 ^ 64)
    (hshort : (head status lines).length + 4 ≤ maxHeaderBytes)
    (hread : readHead status lines = .ok (code, length)) (hgt : length < body.length) :
    Surplus reply := by
  have hdescribed := (readHead_eq_ok fun line hline => h.line_length_lt hsize hline).mp hread
  exact ⟨status, lines, body, code, length, h, hshort, hdescribed, hgt⟩

/-- A complete reply has no surplus. -/
theorem Accepted.not_surplus (h : Accepted reply code body) (hsize : reply.length < 2 ^ 64) :
    ¬ Surplus reply := by
  rintro ⟨status, lines, body', code', length, hcut, hshort, hdescribed, hgt⟩
  have hread := (readHead_eq_ok fun line hline => hcut.line_length_lt hsize hline).mpr hdescribed
  obtain ⟨-, hread', -⟩ := (accepted_iff hcut hsize).mp h
  rw [hread] at hread'
  cases hread'
  exact lt_irrefl _ hgt

/-- A beginning of a reply that holds the blank line has the same head. -/
theorem Cut.take (h : Cut reply status lines body) {k : ℕ}
    (hk : (head status lines).length + 4 ≤ k) :
    Cut (reply.take k) status lines (body.take (k - ((head status lines).length + 4))) where
  reply_eq := by
    have hfour : (head status lines ++ (crlf ++ crlf)).length = (head status lines).length + 4 := by
      simp [crlf]
    rw [h.reply_eq, ← List.append_assoc, List.take_append, hfour,
      List.take_of_length_le (by omega), List.append_assoc]
  first := Search.find_take h.first hk
  status_line := h.status_line
  header_line := h.header_line

/-- Before the announced body is complete nothing is decided. -/
theorem Cut.undecided (h : Cut reply status lines body) (hsize : reply.length < 2 ^ 64)
    (hshort : (head status lines).length + 4 ≤ maxHeaderBytes)
    (hread : readHead status lines = .ok (code, length)) {k : ℕ}
    (hk : k < (head status lines).length + 4 + length) :
    ∃ parser, consume {} (reply.take k) = some parser ∧ parser.done = false := by
  have hfits : (reply.take k).length < 2 ^ 64 :=
    lt_of_le_of_lt (List.take_prefix k reply).length_le hsize
  by_cases hhead : (head status lines).length + 4 ≤ k
  · have hlt : (body.take (k - ((head status lines).length + 4))).length < length := by
      rw [List.length_take]
      omega
    refine ⟨opened (reply.take k) ((head status lines).length + 4) code length, ?_, rfl⟩
    rw [consume_cut (h.take hhead) hfits, if_neg (not_lt.mpr hshort), hread]
    exact (h.take hhead).finish_reading hlt
  · have hfind : Search.find (crlf ++ crlf) (reply.take k) = none :=
      Search.find_take_eq_none h.first (not_le.mp hhead)
    have hle : (reply.take k).length ≤ maxHeaderBytes := by
      rw [List.length_take]
      omega
    exact ⟨_, consume_short hfind hle, rfl⟩

/-- A decision stays what it is when more bytes arrive, unless there is a
surplus. -/
theorem Outcome.decided (h : Outcome reply parser) (hconsume : consume {} reply = some parser)
    (hdone : parser.done = true) (hsize : (reply ++ more).length < 2 ^ 64)
    (hsurplus : ¬ Surplus (reply ++ more)) :
    ∃ parser', consume {} (reply ++ more) = some parser' ∧ parser'.done = true ∧
      parser'.result = parser.result := by
  cases h with
  | waiting _ _ => cases hdone
  | reading _ _ _ _ => cases hdone
  | headless hfind hlong =>
      cases hfound : Search.find (crlf ++ crlf) (reply ++ more) with
      | none =>
          have hlong' : maxHeaderBytes < (reply ++ more).length := by
            rw [List.length_append]
            omega
          exact ⟨_, consume_long hfound hlong', rfl, rfl⟩
      | some i =>
          obtain ⟨status, lines, body, hcut, -⟩ := exists_cut hfound
          have hlate := hcut.length_lt hfind
          rw [consume_cut hcut hsize, if_pos (by omega)]
          exact ⟨_, rfl, rfl, rfl⟩
  | longHead hcut hlong =>
      rw [consume_cut (hcut.append more) hsize, if_pos hlong]
      exact ⟨_, rfl, rfl, rfl⟩
  | badHead hcut hshort hread _ =>
      rw [consume_cut (hcut.append more) hsize, if_neg (not_lt.mpr hshort), hread]
      exact ⟨_, rfl, rfl, rfl⟩
  | complete hcut hshort hread =>
      cases more with
      | nil =>
          rw [List.append_nil]
          exact ⟨_, hconsume, rfl, rfl⟩
      | cons byte more =>
          exact absurd ((hcut.append _).surplus hsize hshort hread (by simp)) hsurplus
  | surplus hcut hshort hread hgt =>
      refine absurd ((hcut.append more).surplus hsize hshort hread ?_) hsurplus
      rw [List.length_append]
      omega

end HttpResponseParser

namespace ControlPlaneClient

open HttpResponseParser

variable {parser : HttpResponseParser} {received : Bytes}

/-- Without a surplus every segmentation gives what the whole stream gives. -/
theorem receiveLoop_eq_parse (hconsume : consume {} received = some parser)
    (hdone : parser.done = false) (chunks : List Bytes)
    (hsize : (received ++ chunks.flatten).length < 2 ^ 64)
    (hsurplus : ¬ Surplus (received ++ chunks.flatten)) :
    receiveLoop .eof parser chunks = parse (received ++ chunks.flatten) := by
  induction chunks generalizing received parser with
  | nil =>
      rw [List.flatten_nil, List.append_nil, parse, hconsume]
      rfl
  | cons chunk chunks ih =>
      rw [List.flatten_cons, ← List.append_assoc] at hsize hsurplus ⊢
      have hfits : (received ++ chunk).length < 2 ^ 64 := by
        rw [List.length_append] at hsize
        omega
      obtain ⟨next, hnext, hstep, hnextOutcome⟩ := consume_next hconsume hdone hfits
      rw [receiveLoop_cons hdone, hstep, Option.bind_some]
      cases hdecided : next.done with
      | false => exact ih hnext hdecided hsize hsurplus
      | true =>
          obtain ⟨parser', hconsume', hdone', hresult⟩ :=
            hnextOutcome.decided hnext hdecided hsize hsurplus
          rw [receiveLoop_done hdecided, parse, hconsume', Option.map_some, finishOnEof,
            if_pos hdone', hresult]

/-- A reply that counts as a success is one that the grammar accepts, on some
beginning of what was received. -/
theorem receiveLoop_accepted {ending : StreamEnd} (hending : ending ≠ .error .none)
    (hconsume : consume {} received = some parser) (hdone : parser.done = false)
    {chunks : List Bytes} (hsize : (received ++ chunks.flatten).length < 2 ^ 64)
    {result : HttpResult} (h : receiveLoop ending parser chunks = some result)
    (hok : result.ok = true) :
    ∃ front, front <+: received ++ chunks.flatten ∧
      Accepted front result.statusCode result.body := by
  have herror : result.error = .none := by
    simp only [HttpResult.ok, decide_eq_true_eq] at hok
    exact hok.1
  induction chunks generalizing received parser with
  | nil =>
      cases ending with
      | eof =>
          cases h
          simp only [finishOnEof, hdone] at herror
          cases hparsed : parser.headersParsed <;> simp [fail, hparsed] at herror
      | error error =>
          cases h
          simp only [finishOnTransportError, hdone] at herror
          exact absurd (congrArg StreamEnd.error herror) hending
  | cons chunk chunks ih =>
      rw [List.flatten_cons, ← List.append_assoc] at hsize ⊢
      have hfits : (received ++ chunk).length < 2 ^ 64 := by
        rw [List.length_append] at hsize
        omega
      obtain ⟨next, hnext, hstep, hnextOutcome⟩ := consume_next hconsume hdone hfits
      rw [receiveLoop_cons hdone, hstep, Option.bind_some] at h
      cases hdecided : next.done with
      | false => exact ih hnext hdecided hsize h
      | true =>
          rw [receiveLoop_done hdecided] at h
          have hresult : next.finishOnEof.result = result := by
            rw [finishOnEof, if_pos hdecided]
            exact Option.some.inj h
          have hjudged := hnextOutcome.judged hfits
          rw [hresult] at hjudged
          obtain ⟨code, body, haccepted⟩ := hjudged.2.1.mp (.inl herror)
          refine ⟨received ++ chunk, List.prefix_append _ _, ?_⟩
          rw [hjudged.1 code body haccepted]
          exact haccepted

/-- Chunks that leave the parser undecided only hand on what was received. -/
theorem receiveLoop_undecided (ending : StreamEnd) (hconsume : consume {} received = some parser)
    (front back : List Bytes) (hsize : (received ++ front.flatten).length < 2 ^ 64)
    (hundecided : ∀ piece, piece <+: received ++ front.flatten →
      ∃ parser, consume {} piece = some parser ∧ parser.done = false) :
    ∃ parser', consume {} (received ++ front.flatten) = some parser' ∧ parser'.done = false ∧
      receiveLoop ending parser (front ++ back) = receiveLoop ending parser' back := by
  have hdone : parser.done = false := by
    obtain ⟨_, hsame, hdone⟩ := hundecided received (List.prefix_append _ _)
    obtain rfl := Option.some.inj (hconsume.symm.trans hsame)
    exact hdone
  induction front generalizing received parser with
  | nil => exact ⟨parser, by simpa using hconsume, hdone, rfl⟩
  | cons chunk front ih =>
      rw [List.flatten_cons, ← List.append_assoc] at hsize hundecided ⊢
      have hfits : (received ++ chunk).length < 2 ^ 64 := by
        rw [List.length_append] at hsize
        omega
      obtain ⟨next, hnext, hstep, -⟩ := consume_next hconsume hdone hfits
      have hnextDone : next.done = false := by
        obtain ⟨_, hsame, hnextDone⟩ := hundecided (received ++ chunk) (List.prefix_append _ _)
        obtain rfl := Option.some.inj (hnext.symm.trans hsame)
        exact hnextDone
      rw [List.cons_append, receiveLoop_cons hdone, hstep, Option.bind_some]
      exact ih hnext hsize hundecided hnextDone

/-- A stream byte by byte, but for one chunk of `width` bytes. -/
def around (stream : Bytes) (start width : ℕ) : List Bytes :=
  Reading.bytewise (stream.take start) ++
    (stream.drop start).take width :: Reading.bytewise (stream.drop (start + width))

theorem cut_around {stream : Bytes} {start width : ℕ} (hstart : start < stream.length)
    (hpos : 0 < width) (hwidth : width ≤ bufferSize) :
    Reading.Cut bufferSize stream (around stream start width) := by
  obtain ⟨hfront, hfrontPieces⟩ := Reading.cut_bytewise (stream.take start)
  obtain ⟨hback, hbackPieces⟩ := Reading.cut_bytewise (stream.drop (start + width))
  refine ⟨?_, fun piece hpiece => ?_⟩
  · rw [around, List.flatten_append, List.flatten_cons, hfront, hback, ← List.drop_drop,
      List.take_append_drop, List.take_append_drop]
  · have hone : 1 ≤ bufferSize := by decide
    rcases List.mem_append.mp hpiece with hpiece | hpiece
    · exact ⟨(hfrontPieces piece hpiece).1, (hfrontPieces piece hpiece).2.trans hone⟩
    · rcases List.mem_cons.mp hpiece with rfl | hpiece
      · rw [List.length_take, List.length_drop]
        omega
      · exact ⟨(hbackPieces piece hpiece).1, (hbackPieces piece hpiece).2.trans hone⟩

/-- Around the end of the announced body, the chunk that reaches it decides. -/
theorem receiveLoop_around {stream status body : Bytes} {lines : List Bytes} {code length : ℕ}
    (h : Cut stream status lines body) (hsize : stream.length < 2 ^ 64)
    (hshort : (head status lines).length + 4 ≤ maxHeaderBytes)
    (hread : readHead status lines = .ok (code, length)) {start width : ℕ}
    (hstart : start < (head status lines).length + 4 + length) (ending : StreamEnd) :
    receiveLoop ending {} (around stream start width) =
      (consume {} (stream.take (start + width))).bind fun parser =>
        receiveLoop ending parser (Reading.bytewise (stream.drop (start + width))) := by
  have hfits : ∀ k, (stream.take k).length < 2 ^ 64 := fun k =>
    lt_of_le_of_lt (List.take_prefix k stream).length_le hsize
  have hbytes := (Reading.cut_bytewise (stream.take start)).1
  obtain ⟨parser, hconsume, hdone, hloop⟩ := receiveLoop_undecided ending consume_nil
    (Reading.bytewise (stream.take start))
    ((stream.drop start).take width :: Reading.bytewise (stream.drop (start + width)))
    (by rw [hbytes]; exact hfits start) (by
      intro piece hpiece
      rw [hbytes, List.nil_append] at hpiece
      have htake : piece = stream.take piece.length :=
        List.prefix_iff_eq_take.mp (hpiece.trans (List.take_prefix start stream))
      have hle : piece.length ≤ start := hpiece.length_le.trans (List.length_take_le _ _)
      rw [htake]
      exact h.undecided hsize hshort hread (by omega))
  rw [hbytes, List.nil_append] at hconsume
  obtain ⟨_, hsame, houtcome⟩ := consume_outcome (hfits start)
  obtain rfl := Option.some.inj (hconsume.symm.trans hsame)
  have happend : stream.take start ++ (stream.drop start).take width =
      stream.take (start + width) :=
    List.take_add.symm
  rw [around, hloop, receiveLoop_cons hdone, houtcome.consume_append hdone (by
    rw [happend]; exact hfits _), happend]

theorem receiveLoop_surplus {stream status body : Bytes} {lines : List Bytes} {code length : ℕ}
    (h : Cut stream status lines body) (hsize : stream.length < 2 ^ 64)
    (hshort : (head status lines).length + 4 ≤ maxHeaderBytes)
    (hread : readHead status lines = .ok (code, length)) (hgt : length < body.length)
    (ending : StreamEnd) :
    receiveLoop ending {} (around stream ((head status lines).length + 3 + length) 1) =
        some ⟨statusError code, code, body.take length⟩ ∧
      receiveLoop ending {} (around stream ((head status lines).length + 3 + length) 2) =
        some ⟨.malformedResponse, code, []⟩ := by
  have hconsume : ∀ {k}, (head status lines).length + 4 ≤ k → consume {} (stream.take k) =
      finishBodyIfComplete (opened (stream.take k) ((head status lines).length + 4)
        code length) := by
    intro k hk
    have hfits : (stream.take k).length < 2 ^ 64 :=
      lt_of_le_of_lt (List.take_prefix k stream).length_le hsize
    rw [consume_cut (h.take hk) hfits, if_neg (not_lt.mpr hshort), hread]
  constructor
  · have hexact : (body.take ((head status lines).length + 3 + length + 1 -
        ((head status lines).length + 4))).length = length := by
      rw [List.length_take]
      omega
    have hbody : body.take ((head status lines).length + 3 + length + 1 -
        ((head status lines).length + 4)) = body.take length := by
      congr 1
      omega
    rw [receiveLoop_around h hsize hshort hread (by omega), hconsume (by omega),
      (h.take (by omega)).finish_complete hexact, Option.bind_some, hbody]
    exact receiveLoop_done rfl _
  · have hlonger : length < (body.take ((head status lines).length + 3 + length + 2 -
        ((head status lines).length + 4))).length := by
      rw [List.length_take]
      omega
    rw [receiveLoop_around h hsize hshort hread (by omega), hconsume (by omega),
      (h.take (by omega)).finish_surplus hlonger, Option.bind_some]
    exact receiveLoop_done rfl _

/-- The result depends on the segmentation exactly for the streams with a
surplus. -/
theorem receiveLoop_segmentation (stream : Bytes) (hsize : stream.length < 2 ^ 64) :
    (∀ chunks chunks', Reading.Cut bufferSize stream chunks →
        Reading.Cut bufferSize stream chunks' →
        receiveLoop .eof {} chunks = receiveLoop .eof {} chunks') ↔ ¬ Surplus stream := by
  constructor
  · rintro hsame ⟨status, lines, body, code, length, hcut, hshort, hdescribed, hgt⟩
    have hread := (readHead_eq_ok fun line hline => hcut.line_length_lt hsize hline).mpr hdescribed
    obtain ⟨hcomplete, hmalformed⟩ := receiveLoop_surplus hcut hsize hshort hread hgt .eof
    have hstart : (head status lines).length + 3 + length < stream.length := by
      have hbody := hcut.body_length
      omega
    have heq := hsame _ _ (cut_around hstart Nat.one_pos (by decide))
      (cut_around hstart Nat.two_pos (by decide))
    rw [hcomplete, hmalformed] at heq
    have herror : statusError code = .malformedResponse :=
      congrArg HttpResult.error (Option.some.inj heq)
    rw [statusError] at herror
    split at herror <;> cases herror
  · intro hsurplus
    have hone : ∀ chunks, Reading.Cut bufferSize stream chunks →
        receiveLoop .eof {} chunks = parse stream := by
      rintro chunks ⟨rfl, -⟩
      exact receiveLoop_eq_parse consume_nil rfl chunks hsize hsurplus
    intro chunks chunks' hchunks hchunks'
    rw [hone chunks hchunks, hone chunks' hchunks']

/-- Two segmentations of a reply without a surplus. -/
theorem receiveLoop_segmentation_reply :
    receiveLoop .eof {} [Sample.reply] = receiveLoop .eof {} (Reading.bytewise Sample.reply) := by
  have hsize : Sample.reply.length < 2 ^ 64 := by decide +kernel
  have hsurplus : ¬ Surplus Sample.reply := by
    obtain ⟨parser, hconsume, houtcome⟩ := consume_outcome hsize
    have hparse : parse Sample.reply = some ⟨.none, 200, text "\x7b\x7d"⟩ := by decide +kernel
    rw [parse, hconsume] at hparse
    have herror : parser.finishOnEof.result.error = .none :=
      congrArg HttpResult.error (Option.some.inj hparse)
    obtain ⟨code, body, haccepted⟩ := (houtcome.judged hsize).2.1.mp (.inl herror)
    exact haccepted.not_surplus hsize
  refine (receiveLoop_segmentation Sample.reply hsize).mpr hsurplus _ _ (by decide +kernel) ?_
  exact (Reading.cut_bytewise _).mono (by decide)

/-- Five bytes behind the announced body: refused in one chunk, accepted in two. -/
theorem receiveLoop_extra :
    receiveLoop .eof {} [Sample.reply ++ text "extra"] = some ⟨.malformedResponse, 200, []⟩ ∧
      receiveLoop .eof {} [Sample.reply, text "extra"] = some ⟨.none, 200, text "\x7b\x7d"⟩ ∧
      Reading.Cut bufferSize (Sample.reply ++ text "extra") [Sample.reply ++ text "extra"] ∧
      Reading.Cut bufferSize (Sample.reply ++ text "extra") [Sample.reply, text "extra"] := by
  decide +kernel

end ControlPlaneClient

end GatewaySystem
