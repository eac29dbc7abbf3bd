import GatewaySystem.Control.Segments
import GatewaySystem.Lib.Transition

/-!
# What a reply can make the parser hold

The client feeds the parser whatever the server sends, so the buffer must not
grow with it. The members of the parser are called in any order here. As long
as the parser is undecided it holds at most a header section, or less than a
header section and the body it announces; once it is done no call changes it.
So a receive loop never holds more than these two and one chunk.
-/

namespace GatewaySystem

namespace HttpResponseParser

/-- What a `string_view` can refer to: no object is larger. -/
structure Chunk where
  bytes : Bytes
  size_lt : bytes.length < 2 ^ 63

/-- A call of one of the members that may change the parser. -/
inductive Call where
  | consume (chunk : Chunk)
  | finishOnEof
  | finishOnTransportError (error : HttpError)

/-- The bytes that a call hands over. -/
def Call.bytes : Call → Bytes
  | .consume chunk => chunk.bytes
  | _ => []

/-- `none` is an overflow. -/
def call (parser : HttpResponseParser) : Call → Option HttpResponseParser
  | .consume chunk => parser.consume chunk.bytes
  | .finishOnEof => some parser.finishOnEof
  | .finishOnTransportError error => some (parser.finishOnTransportError error)

/-- A parser from its construction on. -/
def calls : Transition.System HttpResponseParser Call where
  init parser := parser = {}
  step := call

section Bounds

variable {reply : Bytes} {parser : HttpResponseParser}

theorem Outcome.received_eq (h : Outcome reply parser) : parser.received = reply := by
  cases h <;> rfl

/-- A length that was read is within the limit. -/
theorem Cut.length_le {status body : Bytes} {lines : List Bytes} {code length : ℕ}
    (h : Cut reply status lines body) (hsize : reply.length < 2 ^ 64)
    (hread : readHead status lines = .ok (code, length)) : length ≤ maxBodyBytes := by
  obtain ⟨-, -, -, line, -, hannounced⟩ :=
    (readHead_eq_ok fun line hline => h.line_length_lt hsize hline).mp hread
  exact hannounced.2

/-- The bound on the buffer of an undecided parser. -/
def Bounded (parser : HttpResponseParser) : Prop :=
  (parser.headersParsed = false → parser.received.length ≤ maxHeaderBytes) ∧
    (parser.headersParsed = true → ∃ length, parser.contentLength = some length ∧
      parser.received.length < parser.bodyOffset + length ∧
      parser.bodyOffset + length ≤ maxHeaderBytes + maxBodyBytes)

theorem Bounded.received_le (h : Bounded parser) :
    parser.received.length ≤ maxHeaderBytes + maxBodyBytes := by
  cases hparsed : parser.headersParsed with
  | false => exact Nat.le_add_right_of_le (h.1 hparsed)
  | true =>
      obtain ⟨length, -, hlt, hle⟩ := h.2 hparsed
      exact hlt.le.trans hle

theorem Outcome.bounded (h : Outcome reply parser) (hsize : reply.length < 2 ^ 64)
    (hdone : parser.done = false) : Bounded parser := by
  cases h with
  | waiting _ hshort => exact ⟨fun _ => hshort, nofun⟩
  | @reading status lines body code length hcut hshort hread hlt =>
      refine ⟨nofun, fun _ => ⟨length, rfl, ?_, ?_⟩⟩
      · -- the buffer is the head, the blank line and the body so far
        have hbody := hcut.body_length
        have hroom : (head status lines).length + 4 ≤ reply.length :=
          Search.find_add_length_le hcut.first
        change reply.length < (head status lines).length + 4 + length
        omega
      · exact Nat.add_le_add hshort (hcut.length_le hsize hread)
  | _ => cases hdone

theorem Outcome.announced (h : Outcome reply parser) (hparsed : parser.headersParsed = true) :
    parser.contentLength.isSome = true := by
  cases h with
  | reading | complete | surplus => rfl
  | _ => cases hparsed

end Bounds

/-- What holds of a parser after any calls: as long as it is undecided, it is
what its bytes would have made of it at once. -/
structure Held (parser : HttpResponseParser) : Prop where
  undecided : parser.done = false → Outcome parser.received parser ∧ Bounded parser
  announced : parser.headersParsed = true → parser.contentLength.isSome = true

theorem Outcome.held {reply : Bytes} {parser : HttpResponseParser} (h : Outcome reply parser)
    (hsize : reply.length < 2 ^ 64) : Held parser where
  undecided hdone := ⟨h.received_eq ▸ h, h.bounded hsize hdone⟩
  announced := h.announced

theorem held_fresh : Held {} := by
  have houtcome : Outcome [] {} := .waiting rfl (Nat.zero_le _)
  exact houtcome.held (by decide)

section Calls

variable {parser : HttpResponseParser}

theorem call_done (h : parser.done = true) (c : Call) : parser.call c = some parser := by
  cases c with
  | consume chunk => rw [call, consume, if_pos h]
  | finishOnEof => rw [call, finishOnEof, if_pos h]
  | finishOnTransportError error => rw [call, finishOnTransportError, if_pos h]

theorem Held.fail (h : Held parser) (error : HttpError) (statusCode : ℕ) :
    Held (parser.fail error statusCode) where
  undecided := nofun
  announced := h.announced

/-- No call overflows. Each keeps the bound, and an undecided parser takes over
the bytes of the call. -/
theorem Held.call (h : Held parser) (c : Call) :
    ∃ parser', parser.call c = some parser' ∧ Held parser' ∧
      (parser.done = false → parser'.received = parser.received ++ c.bytes) := by
  cases hdone : parser.done with
  | true => exact ⟨parser, call_done hdone c, h, nofun⟩
  | false =>
      cases c with
      | consume chunk =>
          obtain ⟨houtcome, hbounded⟩ := h.undecided hdone
          have hsize : (parser.received ++ chunk.bytes).length < 2 ^ 64 := by
            have hreceived := hbounded.received_le
            have hchunk := chunk.size_lt
            rw [List.length_append]
            unfold maxHeaderBytes maxBodyBytes at hreceived
            omega
          obtain ⟨next, hnext, hafter⟩ := houtcome.next hdone hsize
          exact ⟨next, hnext, hafter.held hsize, fun _ => hafter.received_eq⟩
      | finishOnEof =>
          refine ⟨_, rfl, ?_⟩
          rw [finishOnEof, hdone]
          exact ⟨h.fail _ _, fun _ => (List.append_nil _).symm⟩
      | finishOnTransportError error =>
          refine ⟨_, rfl, ?_⟩
          rw [finishOnTransportError, hdone]
          exact ⟨h.fail _ _, fun _ => (List.append_nil _).symm⟩

theorem run_cons {next : HttpResponseParser} {c : Call} (h : parser.call c = some next)
    (more : List Call) : calls.run parser (c :: more) = calls.run next more := by
  have hstep : calls.step parser c = some next := h
  rw [Transition.System.run, hstep, Option.bind_some]

theorem Held.run (h : Held parser) (more : List Call) :
    ∃ parser', calls.run parser more = some parser' ∧ Held parser' := by
  induction more generalizing parser with
  | nil => exact ⟨parser, rfl, h⟩
  | cons c more ih =>
      obtain ⟨next, hnext, hheld, -⟩ := h.call c
      obtain ⟨parser', hrun, hheld'⟩ := ih hheld
      exact ⟨parser', (run_cons hnext more).trans hrun, hheld'⟩

theorem run_done (h : parser.done = true) (more : List Call) :
    calls.run parser more = some parser := by
  induction more with
  | nil => rfl
  | cons c more ih =>
      rw [run_cons (call_done h c)]
      exact ih

end Calls

/-- Whatever a fresh parser is called with, an undecided one holds at most the
limit of the header section, or less than the header section and the body that
it announces, both within their limits; and a parser that is done stays as it
is. -/
theorem parser_memory (before : List Call) : ∃ parser, calls.run {} before = some parser ∧
    (parser.done = false →
      (parser.headersParsed = false → parser.received.length ≤ maxHeaderBytes) ∧
      (parser.headersParsed = true → ∃ length, parser.contentLength = some length ∧
        parser.received.length < parser.bodyOffset + length ∧
        parser.bodyOffset + length ≤ maxHeaderBytes + maxBodyBytes)) ∧
    (parser.headersParsed = true → parser.contentLength.isSome = true) ∧
    (parser.done = true → ∀ more, calls.run parser more = some parser) := by
  obtain ⟨parser, hrun, hheld⟩ := held_fresh.run before
  exact ⟨parser, hrun, fun hdone => (hheld.undecided hdone).2, hheld.announced, run_done⟩

/-- Calls with small chunks leave a small buffer, whether the parser is done or
not. -/
theorem run_received_le {n : ℕ} {before : List Call} (hsmall : ∀ c ∈ before, c.bytes.length ≤ n)
    {parser parser' : HttpResponseParser} (h : Held parser)
    (hle : parser.received.length ≤ maxHeaderBytes + maxBodyBytes + n)
    (hrun : calls.run parser before = some parser') :
    parser'.received.length ≤ maxHeaderBytes + maxBodyBytes + n := by
  induction before generalizing parser with
  | nil =>
      cases hrun
      exact hle
  | cons c before ih =>
      obtain ⟨next, hnext, hheld, hreceived⟩ := h.call c
      rw [run_cons hnext] at hrun
      refine ih (fun other hother => hsmall other (List.mem_cons_of_mem _ hother)) hheld ?_ hrun
      cases hdone : parser.done with
      | true =>
          rw [call_done hdone] at hnext
          cases hnext
          exact hle
      | false =>
          have hbound := (h.undecided hdone).2.received_le
          have hbytes := hsmall c List.mem_cons_self
          rw [hreceived hdone, List.length_append]
          omega

end HttpResponseParser

namespace ControlPlaneClient

open HttpResponseParser

/-- The call behind the receive loop. -/
def StreamEnd.call : StreamEnd → Call
  | .eof => .finishOnEof
  | .error failure => .finishOnTransportError failure

/-- The calls of the receive loop. -/
def loopCalls (chunks : List Chunk) (ending : StreamEnd) : List Call :=
  chunks.map .consume ++ [ending.call]

theorem receiveLoop_eq_run (chunks : List Chunk) (ending : StreamEnd)
    (parser : HttpResponseParser) : receiveLoop ending parser (chunks.map Chunk.bytes) =
      (calls.run parser (loopCalls chunks ending)).map HttpResponseParser.result := by
  induction chunks generalizing parser with
  | nil => cases ending <;> rfl
  | cons chunk chunks ih =>
      cases hdone : parser.done with
      | true =>
          rw [receiveLoop_done hdone, run_done hdone]
          rfl
      | false =>
          rw [List.map_cons, receiveLoop_cons hdone]
          simp only [ih]
          exact (Option.map_bind ..).symm

/-- At no point of its receive loop does the client hold more of a reply than the
two limits and one buffer. -/
theorem receiveLoop_memory {chunks : List Chunk}
    (hbuffer : ∀ chunk ∈ chunks, chunk.bytes.length ≤ bufferSize) (ending : StreamEnd) :
    receiveLoop ending {} (chunks.map Chunk.bytes) =
      (calls.run {} (loopCalls chunks ending)).map HttpResponseParser.result ∧
    ∀ front, front <+: loopCalls chunks ending → ∃ parser, calls.run {} front = some parser ∧
      parser.received.length ≤ maxHeaderBytes + maxBodyBytes + bufferSize := by
  refine ⟨receiveLoop_eq_run chunks ending {}, fun front hfront => ?_⟩
  have hsmall : ∀ c ∈ front, c.bytes.length ≤ bufferSize := by
    intro c hc
    rcases List.mem_append.mp (hfront.mem hc) with hchunk | hend
    · obtain ⟨chunk, hmem, rfl⟩ := List.mem_map.mp hchunk
      exact hbuffer chunk hmem
    · obtain rfl := List.mem_singleton.mp hend
      cases ending <;> exact Nat.zero_le _
  obtain ⟨parser, hrun, -⟩ := held_fresh.run front
  exact ⟨parser, hrun, run_received_le hsmall held_fresh (Nat.zero_le _) hrun⟩

/-- A reply in two chunks and a third one behind it. -/
def Sample.pieces : List Chunk :=
  [⟨text "HTTP/1.1 200 OK\r\nContent-Length: 2\r\n", by decide⟩, ⟨text "\r\nOK", by decide⟩,
    ⟨text "extra", by decide⟩]

theorem receiveLoop_memory_extra : ∃ parser,
    calls.run {} (loopCalls Sample.pieces .eof) = some parser ∧
      receiveLoop .eof {} (Sample.pieces.map Chunk.bytes) = some parser.result ∧
      parser.received.length ≤ maxHeaderBytes + maxBodyBytes + bufferSize ∧
      parser.result = ⟨.none, 200, text "OK"⟩ := by
  obtain ⟨hloop, hfront⟩ := receiveLoop_memory (by decide : ∀ chunk ∈ Sample.pieces, _) .eof
  obtain ⟨parser, hrun, hlength⟩ := hfront _ List.prefix_rfl
  rw [hrun, Option.map_some] at hloop
  have hresult : receiveLoop .eof {} (Sample.pieces.map Chunk.bytes) =
      some ⟨.none, 200, text "OK"⟩ := by decide +kernel
  exact ⟨parser, hrun, hloop, hlength, Option.some.inj (hloop.symm.trans hresult)⟩

end ControlPlaneClient

end GatewaySystem
