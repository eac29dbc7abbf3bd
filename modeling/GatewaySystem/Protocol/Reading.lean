import GatewaySystem.Protocol.Codec

/-!
# Reading a stream in pieces

The input of an authenticated connection arrives in pieces. After each piece
the complete frames are decoded, and the business frames among them go to the
queue. An illegal length closes the connection before that is done, so the
frames decoded together with it are lost.

`feedAll` is this reading. In which pieces the stream arrives matters for this
reason only (`feedAll_eq_business`), and it does matter whenever one piece can
hold an illegal length and the end of a business frame (`exists_cut_of_loses`).
-/

namespace GatewaySystem

/-- What the reading depends on. -/
structure Reading where
  fd : Fd
  connId : ℕ
  /-- The largest legal body. -/
  bodyLimit : ℕ

namespace Reading

open ProtocolCodec

variable (reading : Reading)

def key : ConnectionKey := ⟨reading.fd, reading.connId⟩

def decode (bytes : Bytes) : DecodeStatus × List Request × Bytes :=
  decodeAll reading.fd reading.connId reading.bodyLimit bytes

/-- The requests that go to the queue. -/
def business (requests : List Request) : List Request :=
  requests.filter fun request => request.type ≠ .auth

/-- One piece behind an incomplete frame: the requests that are queued, and the
incomplete frame that is left unless the connection is closed. -/
def feed (buffer piece : Bytes) : List Request × Option Bytes :=
  let decoded := reading.decode (buffer ++ piece)
  if decoded.1 = .invalidLength then ([], none) else (business decoded.2.1, some decoded.2.2)

/-- All pieces. -/
def feedAll : Option Bytes → List Bytes → List Request × Option Bytes
  | none, _ => ([], none)
  | some buffer, [] => ([], some buffer)
  | some buffer, piece :: pieces =>
      let first := reading.feed buffer piece
      let rest := feedAll first.2 pieces
      (first.1 ++ rest.1, rest.2)

/-- A piece of at most `span` bytes can hold an illegal length and the end of a
business frame before it. -/
def Loses (span : ℕ) (bytes : Bytes) : Prop :=
  (reading.decode bytes).1 = .invalidLength ∧ ∃ before request after,
    (reading.decode bytes).2.1 = before ++ request :: after ∧ request.type ≠ .auth ∧
      framesSize after + 5 ≤ span

/-- The pieces `recv` may cut a stream into. -/
def Cut (span : ℕ) (stream : Bytes) (pieces : List Bytes) : Prop :=
  pieces.flatten = stream ∧ ∀ piece ∈ pieces, 0 < piece.length ∧ piece.length ≤ span

instance (span : ℕ) (stream : Bytes) (pieces : List Bytes) : Decidable (Cut span stream pieces) :=
  inferInstanceAs (Decidable (_ ∧ ∀ piece ∈ pieces, _))

@[simp] theorem business_append (requests requests' : List Request) :
    business (requests ++ requests') = business requests ++ business requests' := by
  simp [business]

variable {reading} {buffer piece : Bytes} {pieces : List Bytes} {span : ℕ}

/-- There is nothing to decode in the buffer. -/
def Waiting (reading : Reading) (buffer : Bytes) : Prop :=
  Incomplete reading.fd reading.connId reading.bodyLimit buffer

/-- A piece holds what was decoded with it, up to the first frame, of which it
holds at least the last byte. -/
theorem Waiting.length_le (h : reading.Waiting buffer) {before after : List Request}
    {request : Request}
    (hdecode : (reading.decode (buffer ++ piece)).2.1 = before ++ request :: after) :
    framesSize after + (reading.decode (buffer ++ piece)).2.2.length + 1 ≤ piece.length := by
  have htotal : (buffer ++ piece).length =
      framesSize (reading.decode (buffer ++ piece)).2.1 +
        (reading.decode (buffer ++ piece)).2.2.length := decodeAll_length _
  rw [List.length_append, hdecode, framesSize_append, framesSize_cons] at htotal
  cases before with
  | nil =>
      have hfirst := Incomplete.length_lt h hdecode
      rw [framesSize_nil] at htotal
      omega
  | cons first before =>
      have hfirst := Incomplete.length_lt h hdecode
      rw [framesSize_cons] at htotal
      omega

/-- Decoding goes on with the next pieces where it stopped. -/
theorem decode_append {bytes : Bytes} (more : Bytes)
    (h : (reading.decode bytes).1 ≠ .invalidLength) :
    reading.decode (bytes ++ more) = ((reading.decode ((reading.decode bytes).2.2 ++ more)).1,
      (reading.decode bytes).2.1 ++ (reading.decode ((reading.decode bytes).2.2 ++ more)).2.1,
      (reading.decode ((reading.decode bytes).2.2 ++ more)).2.2) :=
  decodeAll_append more h

theorem feed_illegal (h : (reading.decode (buffer ++ piece)).1 = .invalidLength) :
    reading.feed buffer piece = ([], none) := by
  rw [feed]
  exact if_pos h

theorem feed_open (h : (reading.decode (buffer ++ piece)).1 ≠ .invalidLength) :
    reading.feed buffer piece = (business (reading.decode (buffer ++ piece)).2.1,
      some (reading.decode (buffer ++ piece)).2.2) := by
  rw [feed]
  exact if_neg h

theorem Waiting.feed_nil (h : reading.Waiting buffer) :
    reading.feed buffer [] = ([], some buffer) := by
  have hnone : (reading.decode buffer).2.1 = [] := h.2
  have hrest : (reading.decode buffer).2.2 = buffer := Incomplete.rest_eq h
  rw [← List.append_nil buffer] at hnone hrest
  rw [feed_open (by rw [List.append_nil]; exact h.1), hnone, hrest, List.append_nil]
  rfl

theorem feedAll_cons (buffer piece : Bytes) (pieces : List Bytes) :
    reading.feedAll (some buffer) (piece :: pieces) =
      ((reading.feed buffer piece).1 ++ (reading.feedAll (reading.feed buffer piece).2 pieces).1,
        (reading.feedAll (reading.feed buffer piece).2 pieces).2) := rfl

@[simp] theorem feedAll_none (pieces : List Bytes) :
    reading.feedAll none pieces = ([], none) := by
  cases pieces <;> rfl

/-- What is lost later is lost in the whole stream. -/
theorem Loses.of_rest (hstatus : (reading.decode (buffer ++ piece)).1 ≠ .invalidLength)
    {more : Bytes}
    (h : reading.Loses span ((reading.decode (buffer ++ piece)).2.2 ++ more)) :
    reading.Loses span ((buffer ++ piece) ++ more) := by
  obtain ⟨hillegal, before, request, after, hrequests, htype, hspan⟩ := h
  have hdecode := decode_append more hstatus
  refine ⟨?_, (reading.decode (buffer ++ piece)).2.1 ++ before, request, after, ?_, htype, hspan⟩
  · rw [hdecode]
    exact hillegal
  · rw [hdecode, List.append_assoc]
    exact congrArg _ hrequests

/-- Pieces that make no difference: every business request is queued. -/
theorem feedAll_eq_business (hwaiting : reading.Waiting buffer)
    (hpieces : ∀ piece ∈ pieces, piece.length ≤ span)
    (hsafe : ¬ reading.Loses span (buffer ++ pieces.flatten)) :
    (reading.feedAll (some buffer) pieces).1 =
      business (reading.decode (buffer ++ pieces.flatten)).2.1 := by
  induction pieces generalizing buffer with
  | nil =>
      have hnone : (reading.decode buffer).2.1 = [] := hwaiting.2
      rw [List.flatten_nil, List.append_nil, hnone]
      rfl
  | cons piece pieces ih =>
      have hspan := hpieces piece List.mem_cons_self
      rw [List.flatten_cons, ← List.append_assoc] at hsafe ⊢
      rw [feedAll_cons]
      by_cases hstatus : (reading.decode (buffer ++ piece)).1 = .invalidLength
      · -- the business frames of this piece are lost, so there must be none
        have hdecode : reading.decode ((buffer ++ piece) ++ pieces.flatten) = _ :=
          decodeAll_append_illegal pieces.flatten hstatus
        have hempty : business (reading.decode (buffer ++ piece)).2.1 = [] := by
          refine List.filter_eq_nil_iff.mpr fun request hrequest htype => ?_
          obtain ⟨before, after, hrequests⟩ := List.append_of_mem hrequest
          have hlength := hwaiting.length_le hrequests
          have hfour : 4 ≤ (reading.decode (buffer ++ piece)).2.2.length :=
            four_le_of_invalidLength hstatus
          refine hsafe ⟨by rw [hdecode], before, request, after, ?_, by simpa using htype, by omega⟩
          rw [hdecode]
          exact hrequests
        rw [feed_illegal hstatus, feedAll_none, hdecode]
        exact hempty.symm
      · have hdecode := decode_append pieces.flatten hstatus
        have hnext : reading.Waiting (reading.decode (buffer ++ piece)).2.2 :=
          incomplete_rest hstatus
        have hrest := ih hnext (fun own hown => hpieces own (List.mem_cons_of_mem piece hown))
          fun hloses => hsafe (hloses.of_rest hstatus)
        rw [feed_open hstatus, hrest, hdecode, business_append]

/-- An illegal length closes the connection, whatever the pieces. -/
theorem feedAll_eq_none (hwaiting : reading.Waiting buffer) :
    (reading.feedAll (some buffer) pieces).2 = none ↔
      (reading.decode (buffer ++ pieces.flatten)).1 = .invalidLength := by
  induction pieces generalizing buffer with
  | nil =>
      have hstatus : (reading.decode buffer).1 ≠ .invalidLength := hwaiting.1
      simp [feedAll, hstatus]
  | cons piece pieces ih =>
      rw [List.flatten_cons, ← List.append_assoc, feedAll_cons]
      by_cases hstatus : (reading.decode (buffer ++ piece)).1 = .invalidLength
      · have hdecode : reading.decode ((buffer ++ piece) ++ pieces.flatten) = _ :=
          decodeAll_append_illegal pieces.flatten hstatus
        rw [feed_illegal hstatus, hdecode]
        simp
      · have hnext : reading.Waiting (reading.decode (buffer ++ piece)).2.2 :=
          incomplete_rest hstatus
        rw [feed_open hstatus, ih hnext, decode_append pieces.flatten hstatus]

/-- A stream byte by byte. -/
def bytewise (stream : Bytes) : List Bytes := stream.map fun byte => [byte]

theorem cut_bytewise (stream : Bytes) : Cut 1 stream (bytewise stream) := by
  constructor
  · induction stream with
    | nil => rfl
    | cons byte stream ih => exact congrArg (byte :: ·) ih
  · intro piece hpiece
    obtain ⟨byte, -, rfl⟩ := List.mem_map.mp hpiece
    exact ⟨Nat.one_pos, Nat.le_refl 1⟩

theorem Cut.mono {span' : ℕ} {stream : Bytes} (h : Cut span stream pieces) (hle : span ≤ span') :
    Cut span' stream pieces :=
  ⟨h.1, fun piece hpiece => ⟨(h.2 piece hpiece).1, (h.2 piece hpiece).2.trans hle⟩⟩

/-- Single bytes lose nothing. -/
theorem not_loses_one (bytes : Bytes) : ¬ reading.Loses 1 bytes := by
  rintro ⟨-, before, request, after, -, -, hspan⟩
  omega

/-- A stream cut at two places behind the buffer. -/
theorem exists_three (buffer stream : Bytes) {n₁ n₂ : ℕ} (hbuffer : buffer.length ≤ n₁)
    (hle : n₁ ≤ n₂) (hlength : n₂ ≤ (buffer ++ stream).length) :
    ∃ first piece last, first ++ (piece ++ last) = stream ∧ piece.length = n₂ - n₁ ∧
      buffer ++ first = (buffer ++ stream).take n₁ ∧
      (buffer ++ first) ++ piece = (buffer ++ stream).take n₂ := by
  rw [List.length_append] at hlength
  have hfirst : (buffer ++ stream).take n₁ = buffer ++ stream.take (n₁ - buffer.length) := by
    rw [List.take_append, List.take_of_length_le hbuffer]
  have hsecond : (buffer ++ stream).take n₂ = buffer ++ stream.take (n₂ - buffer.length) := by
    rw [List.take_append, List.take_of_length_le (hbuffer.trans hle)]
  have hsplit : n₂ - buffer.length = (n₁ - buffer.length) + (n₂ - n₁) := by omega
  refine ⟨stream.take (n₁ - buffer.length),
    (stream.drop (n₁ - buffer.length)).take (n₂ - n₁),
    (stream.drop (n₁ - buffer.length)).drop (n₂ - n₁), ?_, ?_, hfirst.symm, ?_⟩
  · rw [List.take_append_drop, List.take_append_drop]
  · rw [List.length_take, List.length_drop]
    omega
  · rw [hsecond, hsplit, List.take_add, List.append_assoc]

theorem feedAll_append (buffer : Option Bytes) (pieces pieces' : List Bytes) :
    reading.feedAll buffer (pieces ++ pieces') =
      ((reading.feedAll buffer pieces).1 ++
          (reading.feedAll (reading.feedAll buffer pieces).2 pieces').1,
        (reading.feedAll (reading.feedAll buffer pieces).2 pieces').2) := by
  induction pieces generalizing buffer with
  | nil => cases buffer <;> simp [feedAll]
  | cons piece pieces ih =>
      cases buffer with
      | none => simp
      | some buffer => simp [feedAll_cons, ih]

/-- A stream without an illegal length leaves the connection open, whatever the
pieces. -/
theorem feedAll_open (pieces : List Bytes) (hwaiting : reading.Waiting buffer)
    (hstatus : (reading.decode (buffer ++ pieces.flatten)).1 ≠ .invalidLength) :
    reading.feedAll (some buffer) pieces =
      (business (reading.decode (buffer ++ pieces.flatten)).2.1,
        some (reading.decode (buffer ++ pieces.flatten)).2.2) := by
  induction pieces generalizing buffer with
  | nil =>
      have hnil := hwaiting.feed_nil
      rw [feed_open (by rw [List.append_nil]; exact hwaiting.1)] at hnil
      exact hnil.symm
  | cons piece pieces ih =>
      rw [List.flatten_cons, ← List.append_assoc] at hstatus ⊢
      have hfirst : (reading.decode (buffer ++ piece)).1 ≠ .invalidLength := fun hillegal =>
        hstatus (by rw [decode, decodeAll_append_illegal pieces.flatten hillegal])
      have hnext : reading.Waiting (reading.decode (buffer ++ piece)).2.2 := incomplete_rest hfirst
      rw [decode_append pieces.flatten hfirst] at hstatus ⊢
      rw [feedAll_cons, feed_open hfirst, ih hnext hstatus, business_append]

/-- If something can be lost, there is a cut that loses it: byte by byte up to
the last byte of the frame, and from there to the illegal length in one
piece. -/
theorem exists_cut_of_loses (hwaiting : reading.Waiting buffer) (hspan : 1 ≤ span)
    {stream : Bytes} (h : reading.Loses span (buffer ++ stream)) :
    ∃ pieces, Cut span stream pieces ∧ (reading.feedAll (some buffer) pieces).1 ≠
      business (reading.decode (buffer ++ stream)).2.1 := by
  obtain ⟨hstatus, before, request, after, hrequests, htype, hpiece⟩ := h
  have hone : 1 ≤ frameSize request :=
    Nat.le_add_right_of_le (Nat.le_add_right_of_le (by decide))
  have hlength : (buffer ++ stream).length =
      framesSize (reading.decode (buffer ++ stream)).2.1 +
        (reading.decode (buffer ++ stream)).2.2.length := decodeAll_length _
  have hfour : 4 ≤ (reading.decode (buffer ++ stream)).2.2.length :=
    four_le_of_invalidLength hstatus
  have htotal : framesSize (reading.decode (buffer ++ stream)).2.1 =
      framesSize before + (frameSize request + framesSize after) := by
    rw [hrequests, framesSize_append, framesSize_cons]
  -- the first cut is inside a frame, so it is behind the buffer
  have hbuffer : buffer.length ≤ framesSize before + (frameSize request - 1) := by
    cases before with
    | nil =>
        have hfirst := Incomplete.length_lt hwaiting hrequests
        omega
    | cons first before =>
        have hfirst := Incomplete.length_lt hwaiting hrequests
        rw [framesSize_cons]
        omega
  have hle : framesSize before + (frameSize request - 1) ≤
      framesSize (reading.decode (buffer ++ stream)).2.1 + 4 := by omega
  obtain ⟨first, piece, last, hstream, hsize, hfirst, hsecond⟩ :=
    exists_three buffer stream hbuffer hle (by omega)
  have hflatten : (bytewise first).flatten = first := (cut_bytewise first).1
  have hdecoded : (reading.decode (buffer ++ first)).1 ≠ .invalidLength ∧
      (reading.decode (buffer ++ first)).2.1 = before := by
    rw [hfirst]
    exact decodeAll_take hrequests (Nat.sub_one_lt_of_lt hone)
  have hopen := feedAll_open (bytewise first) hwaiting (by rw [hflatten]; exact hdecoded.1)
  rw [hflatten, hdecoded.2] at hopen
  have hillegal : (reading.decode ((reading.decode (buffer ++ first)).2.2 ++ piece)).1 =
      .invalidLength := by
    have htake : (reading.decode ((buffer ++ first) ++ piece)).1 = .invalidLength := by
      rw [hsecond]
      exact decodeAll_take_illegal hstatus
    rwa [decode_append piece hdecoded.1] at htake
  refine ⟨bytewise first ++ piece :: bytewise last, ⟨?_, fun own hown => ?_⟩, ?_⟩
  · rw [List.flatten_append, List.flatten_cons, hflatten, (cut_bytewise last).1, hstream]
  · rcases List.mem_append.mp hown with hown | hown
    · exact ((cut_bytewise first).mono hspan).2 own hown
    · rcases List.mem_cons.mp hown with rfl | hown
      · omega
      · exact ((cut_bytewise last).mono hspan).2 own hown
  · rw [feedAll_append, hopen, feedAll_cons, feed_illegal hillegal, feedAll_none, hrequests]
    simp [business, htype]

end Reading

end GatewaySystem
