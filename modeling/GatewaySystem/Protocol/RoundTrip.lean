import GatewaySystem.Protocol.Codec

/-!
# Round trips of the frame codec

Encoding and decoding are inverse to each other as far as the format goes.
Frames written by `encode` one after another are read back in order, and the
beginning of one more frame stays in the buffer. In the other direction the
requests read from a buffer, written again in front of what is left, are the
buffer. A stream may arrive in pieces: decoding after each piece, as long as no
illegal length was met, gives what decoding the whole stream at once gives.
-/

namespace GatewaySystem

namespace ProtocolCodec

/-- A response whose body the decoder accepts under `limit`. -/
def Carried (limit : ℕ) (response : Response) : Prop :=
  1 + 1 + 8 + response.payload.length ≤ min (maxPayloadSize + 10) limit

instance (limit : ℕ) (response : Response) : Decidable (Carried limit response) :=
  inferInstanceAs (Decidable (_ ≤ _))

/-- What the peer that decodes a response should see: the four fields of the
frame, under the descriptor and the number of its own connection. -/
def received (fd : Fd) (connId : ℕ) (response : Response) : Request where
  fd := fd
  connId := connId
  version := response.version
  type := MessageType.ofCode response.type.code
  requestId := response.requestId
  payload := response.payload

/-- A decoded request as a message to encode: the same four fields. -/
def resend (request : Request) : Response :=
  { request.respond request.type with payload := request.payload }

section Written

variable {fd : Fd} {connId limit : ℕ} {response : Response}

theorem Carried.legal (h : Carried limit response) :
    LegalLength limit (10 + response.payload.length) := by
  obtain ⟨hmax, hlimit⟩ := le_min_iff.mp h
  exact ⟨Nat.le_add_right _ _, hmax, hlimit⟩

theorem Carried.fits (h : Carried limit response) :
    10 + response.payload.length < 256 ^ 4 := by
  have hmax : 10 + response.payload.length ≤ 4194314 := h.legal.2.1
  omega

/-- The four bytes of the length, and the rest of the frame. -/
theorem encode_eq (response : Response) :
    encode response = BigEndian.encode 4 (10 + response.payload.length) ++
      ([response.version, response.type.code] ++ BigEndian.encode 8 response.requestId.toNat ++
        response.payload) := by
  simp [encode]

/-- A beginning of a frame that has its length announces the body's length. -/
theorem bodyLength_take_encode (h : Carried limit response) {n : ℕ} (hn : 4 ≤ n) :
    bodyLength ((encode response).take n) = 10 + response.payload.length := by
  have hfour : (encode response).take 4 =
      BigEndian.encode 4 (10 + response.payload.length) := by
    rw [encode_eq]
    exact List.take_left' (BigEndian.length_encode _ _)
  rw [bodyLength, List.take_take, Nat.min_eq_left hn, hfour, BigEndian.decode_encode,
    Nat.mod_eq_of_lt h.fits]

theorem bodyLength_encode (h : Carried limit response) :
    bodyLength (encode response) = 10 + response.payload.length := by
  have hlen := length_encode response
  rw [← bodyLength_take_encode h (by omega : 4 ≤ (encode response).length), List.take_length]

theorem readRequest_encode (h : Carried limit response) :
    readRequest fd connId (encode response) = received fd connId response := by
  have hfour : ∀ n, BigEndian.encode 4 n = [(n / 256 ^ 3).toUInt8, (n / 256 ^ 2).toUInt8,
      (n / 256 ^ 1).toUInt8, (n / 256 ^ 0).toUInt8] := fun _ => rfl
  have hnumber : ((encode response).drop 6).take 8 =
      BigEndian.encode 8 response.requestId.toNat := by
    rw [encode_eq, hfour]
    simp
  have hpayload : (encode response).drop 14 = response.payload := by
    rw [encode_eq, hfour]
    simp
  have hid : (BigEndian.decode (BigEndian.encode 8 response.requestId.toNat)).toUInt64 =
      response.requestId := by
    have hlt : response.requestId.toNat < 256 ^ 8 := response.requestId.toNat_lt
    rw [BigEndian.decode_encode, Nat.mod_eq_of_lt hlt]
    simp
  rw [readRequest, received, bodyLength_encode h, hnumber, hpayload, hid, encode_eq, hfour]
  simp [fixedBodySize]

/-- A written frame is read back, whatever follows it. -/
theorem scanFrame_encode (h : Carried limit response) (more : Bytes) :
    scanFrame fd connId limit (encode response ++ more) =
      .frame (received fd connId response) more := by
  have hlen : 4 + bodyLength (encode response) = (encode response).length := by
    rw [bodyLength_encode h, length_encode]
    omega
  have hlegal : LegalLength limit (bodyLength (encode response)) := by
    rw [bodyLength_encode h]
    exact h.legal
  have hframe : scanFrame fd connId limit (encode response) =
      .frame (received fd connId response) [] := by
    rw [scanFrame_of_complete hlegal hlen.le, readRequest_encode h, hlen, List.drop_length]
  exact scanFrame_frame_append more hframe

/-- A beginning of a frame, neither empty nor all of it, is an incomplete frame. -/
theorem scanFrame_beginning {start : Bytes} (h : Carried limit response)
    (hstart : start <+: encode response) (hne : start ≠ []) (hproper : start ≠ encode response) :
    scanFrame fd connId limit start = .short := by
  have htake : start = (encode response).take start.length := List.prefix_iff_eq_take.mp hstart
  have hlt : start.length < (encode response).length :=
    lt_of_le_of_ne hstart.length_le fun heq => hproper (hstart.eq_of_length heq)
  have hzero : ¬ start.length = 0 := fun heq => hne (List.length_eq_zero_iff.mp heq)
  rw [scanFrame, if_neg hzero]
  by_cases hfour : start.length < 4
  · rw [if_pos hfour]
  · have hbody : bodyLength start = 10 + response.payload.length := by
      rw [htake]
      exact bodyLength_take_encode h (not_lt.mp hfour)
    have hlen := length_encode response
    rw [if_neg hfour, hbody, if_neg (not_not.mpr h.legal), if_pos (by omega)]

theorem decodeAll_beginning {start : Bytes} (h : Carried limit response)
    (hstart : start <+: encode response) (hproper : start ≠ encode response) :
    decodeAll fd connId limit start =
      (if start = [] then .ok else .needMoreData, [], start) := by
  by_cases hne : start = []
  · rw [if_pos hne, decodeAll_done (scanFrame_eq_done.mpr hne)]
  · rw [if_neg hne, decodeAll_short (scanFrame_beginning h hstart hne hproper)]

/-- Frames in front of a buffer are read first. -/
theorem decodeAll_encode {responses : List Response}
    (h : ∀ response ∈ responses, Carried limit response) (rest : Bytes) :
    decodeAll fd connId limit (responses.flatMap encode ++ rest) =
      ((decodeAll fd connId limit rest).1,
        responses.map (received fd connId) ++ (decodeAll fd connId limit rest).2.1,
        (decodeAll fd connId limit rest).2.2) := by
  induction responses with
  | nil => rfl
  | cons response responses ih =>
      have hrest := ih fun other hother => h other (List.mem_cons_of_mem _ hother)
      rw [List.flatMap_cons, List.append_assoc,
        decodeAll_frame (scanFrame_encode (h response List.mem_cons_self) _), hrest]
      rfl

end Written

section Read

variable {fd : Fd} {connId limit : ℕ}

/-- Writing a request that was read gives the bytes it was read from. -/
theorem encode_readRequest {rest : Bytes} (hmin : fixedBodySize ≤ bodyLength rest)
    (hlen : 4 + bodyLength rest ≤ rest.length) :
    encode (resend (readRequest fd connId rest)) = rest.take (4 + bodyLength rest) := by
  have hfixed : fixedBodySize = 10 := rfl
  have hsize : 10 + ((rest.drop 14).take (bodyLength rest - fixedBodySize)).length =
      bodyLength rest := by
    rw [List.length_take, List.length_drop]
    omega
  have hlength : BigEndian.encode 4 (bodyLength rest) = rest.take 4 := by
    have hfour := BigEndian.encode_decode (rest.take 4)
    rwa [List.length_take_of_le (by omega)] at hfour
  have hhead : [rest.getD 4 0, rest.getD 5 0] = (rest.drop 4).take 2 := by
    rw [List.take_add_one, List.take_add_one]
    simp [List.getD_eq_getElem?_getD, List.getElem?_eq_getElem (by omega : 4 < rest.length),
      List.getElem?_eq_getElem (by omega : 5 < rest.length)]
  have hnumber : BigEndian.encode 8
      (BigEndian.decode ((rest.drop 6).take 8)).toUInt64.toNat = (rest.drop 6).take 8 := by
    have height : ((rest.drop 6).take 8).length = 8 := by
      rw [List.length_take, List.length_drop]
      omega
    have hlt : BigEndian.decode ((rest.drop 6).take 8) < 2 ^ 64 := by
      have hlt := BigEndian.decode_lt ((rest.drop 6).take 8)
      rwa [height] at hlt
    have hbytes := BigEndian.encode_decode ((rest.drop 6).take 8)
    rw [height] at hbytes
    rw [UInt64.toNat_ofNat_of_lt' hlt, hbytes]
  have hsplit : 4 + bodyLength rest = 4 + (2 + (8 + (bodyLength rest - fixedBodySize))) := by
    omega
  rw [encode_eq, resend, Request.respond, readRequest, MessageType.code_ofCode]
  simp only
  rw [hsize, hlength, hhead, hnumber, hsplit, List.take_add, List.take_add, List.take_add,
    List.drop_drop, List.drop_drop, List.append_assoc]

theorem scanFrame_frame_encode {rest rest' : Bytes} {request : Request}
    (h : scanFrame fd connId limit rest = .frame request rest') :
    encode (resend request) ++ rest' = rest := by
  obtain ⟨hlegal, hlen, rfl, rfl⟩ := scanFrame_eq_frame h
  rw [encode_readRequest hlegal.1 hlen, List.take_append_drop]

/-- The requests read from a buffer and what is left are the buffer. -/
theorem encode_decodeAll (buffer : Bytes) :
    ((decodeAll fd connId limit buffer).2.1.flatMap fun request => encode (resend request)) ++
      (decodeAll fd connId limit buffer).2.2 = buffer := by
  induction buffer using frames_induction fd connId limit with
  | hdone rest hscan => rw [decodeAll_done hscan]; rfl
  | hshort rest hscan => rw [decodeAll_short hscan]; rfl
  | hillegal rest hscan => rw [decodeAll_illegal hscan]; rfl
  | hframe rest request rest' hscan ih =>
      rw [decodeAll_frame hscan, List.flatMap_cons, List.append_assoc, ih]
      exact scanFrame_frame_encode hscan

end Read

variable {connId limit : ℕ}

theorem decode_of_valid {fd : Fd} {buffer : Bytes}
    (h : (decodeAll fd connId limit buffer).1 ≠ .invalidLength) :
    decode buffer fd connId limit = decodeAll fd connId limit buffer := by
  rw [decode_eq, if_neg h]

theorem decode_status {fd : Fd} (buffer : Bytes) :
    (decode buffer fd connId limit).1 = (decodeAll fd connId limit buffer).1 := by
  rw [decode_eq]
  by_cases h : (decodeAll fd connId limit buffer).1 = .invalidLength
  · rw [if_pos h, h]
  · rw [if_neg h]

theorem decode_rest {fd : Fd} {buffer : Bytes}
    (h : (decodeAll fd connId limit buffer).1 ≠ .invalidLength) :
    (decode buffer fd connId limit).2.2 = (decodeAll fd connId limit buffer).2.2 := by
  rw [decode_of_valid h]

/-- The two round trips of the codec. -/
theorem round_trip (fd : Fd) (connId limit : ℕ) :
    (∀ (responses : List Response) (next : Response) (start : Bytes),
      (∀ response ∈ responses, Carried limit response) → Carried limit next →
      start <+: encode next → start ≠ encode next →
      decode (responses.flatMap encode ++ start) fd connId limit =
        (if start = [] then .ok else .needMoreData,
          responses.map (received fd connId), start)) ∧
    (∀ buffer : Bytes, (decode buffer fd connId limit).1 ≠ .invalidLength →
      ((decode buffer fd connId limit).2.1.flatMap fun request => encode (resend request)) ++
        (decode buffer fd connId limit).2.2 = buffer) := by
  constructor
  · intro responses next start hcarried hnext hstart hproper
    have hall : decodeAll fd connId limit (responses.flatMap encode ++ start) =
        (if start = [] then .ok else .needMoreData, responses.map (received fd connId), start) := by
      rw [decodeAll_encode hcarried, decodeAll_beginning hnext hstart hproper, List.append_nil]
    have hvalid : (decodeAll fd connId limit (responses.flatMap encode ++ start)).1 ≠
        .invalidLength := by
      rw [hall]
      by_cases hempty : start = [] <;> simp [hempty]
    rw [decode_of_valid hvalid, hall]
  · intro buffer hvalid
    rw [decode_status] at hvalid
    rw [decode_of_valid hvalid]
    exact encode_decodeAll buffer

/-- A frame of an unnamed type followed by three bytes of another one. -/
theorem round_trip_tail :
    decode (encode ⟨7, 1, 1, .unknown 200, 9, 0, [1, 2], none, false, false⟩ ++ [0, 0, 0]) 3 4 16 =
      (.needMoreData, [⟨3, 4, 1, .unknown 200, 9, [1, 2]⟩], [0, 0, 0]) := by
  have h := (round_trip 3 4 16).1 [⟨7, 1, 1, .unknown 200, 9, 0, [1, 2], none, false, false⟩]
    ⟨7, 1, 1, .ping, 10, 0, [], none, false, false⟩ [0, 0, 0] (by decide) (by decide)
    (by decide) (by decide)
  simpa [received, MessageType.ofCode, MessageType.code] using h

/-! ### Pieces of a stream -/

/-- What a reader holds between two pieces: the status of its last call of
`decode`, all requests decoded so far, and the buffer. -/
abbrev Progress := DecodeStatus × List Request × Bytes

/-- One piece arrives. After an illegal length nothing is read any more. -/
def decodePiece (fd : Fd) (connId limit : ℕ) (progress : Progress) (piece : Bytes) : Progress :=
  if progress.1 = .invalidLength then progress
  else
    let result := decode (progress.2.2 ++ piece) fd connId limit
    (result.1, progress.2.1 ++ result.2.1, result.2.2)

/-- The pieces of a stream, one at a time. -/
def decodePieces (fd : Fd) (connId limit : ℕ) (pieces : List Bytes) : Progress :=
  pieces.foldl (decodePiece fd connId limit) (.ok, [], [])

section Pieces

variable {fd : Fd} {connId limit : ℕ}

/-- A reader that has read `stream` in some pieces stands where one that read
it at once stands. The buffers may differ only after an illegal length. -/
def ReadSoFar (fd : Fd) (connId limit : ℕ) (stream : Bytes) (progress : Progress) : Prop :=
  progress.1 = (decodeAll fd connId limit stream).1 ∧
    progress.2.1 = (decodeAll fd connId limit stream).2.1 ∧
    (progress.1 = .invalidLength ∨ progress.2.2 = (decodeAll fd connId limit stream).2.2)

theorem ReadSoFar.piece {stream : Bytes} {progress : Progress}
    (h : ReadSoFar fd connId limit stream progress) (piece : Bytes) :
    ReadSoFar fd connId limit (stream ++ piece) (decodePiece fd connId limit progress piece) := by
  obtain ⟨hstatus, hrequests, hbuffer⟩ := h
  by_cases hillegal : progress.1 = .invalidLength
  · have happend := decodeAll_append_illegal piece (hstatus.symm.trans hillegal)
    rw [decodePiece, if_pos hillegal, ReadSoFar, happend]
    exact ⟨hillegal, hrequests, .inl hillegal⟩
  · have hrest := hbuffer.resolve_left hillegal
    have happend := decodeAll_append piece fun heq => hillegal (hstatus.trans heq)
    rw [← hrest, ← hrequests] at happend
    rw [decodePiece, if_neg hillegal, ReadSoFar, happend]
    refine ⟨decode_status _, congrArg (progress.2.1 ++ ·) (decode_requests _), ?_⟩
    by_cases hnext : (decodeAll fd connId limit (progress.2.2 ++ piece)).1 = .invalidLength
    · exact .inl ((decode_status _).trans hnext)
    · exact .inr (decode_rest hnext)

theorem readSoFar_pieces {stream : Bytes} {progress : Progress}
    (h : ReadSoFar fd connId limit stream progress) (pieces : List Bytes) :
    ReadSoFar fd connId limit (stream ++ pieces.flatten)
      (pieces.foldl (decodePiece fd connId limit) progress) := by
  induction pieces generalizing stream progress with
  | nil => simpa using h
  | cons piece pieces ih =>
      rw [List.flatten_cons, ← List.append_assoc]
      exact ih (h.piece piece)

/-- Decoding after each piece and decoding once give the same status and the
same requests, and the same buffer unless an illegal length was met. -/
theorem decodePieces_eq_decode (pieces : List Bytes) :
    (decodePieces fd connId limit pieces).1 = (decode pieces.flatten fd connId limit).1 ∧
      (decodePieces fd connId limit pieces).2.1 = (decode pieces.flatten fd connId limit).2.1 ∧
      ((decodePieces fd connId limit pieces).1 = .invalidLength ∨
        (decodePieces fd connId limit pieces).2.2 =
          (decode pieces.flatten fd connId limit).2.2) := by
  have hstart : ReadSoFar fd connId limit [] (.ok, [], []) := ⟨rfl, rfl, .inr rfl⟩
  obtain ⟨hstatus, hrequests, hbuffer⟩ := readSoFar_pieces hstart pieces
  refine ⟨hstatus.trans (decode_status _).symm, hrequests.trans (decode_requests _).symm, ?_⟩
  rcases hbuffer with hillegal | hbuffer
  · exact .inl hillegal
  · by_cases hillegal : (decodePieces fd connId limit pieces).1 = .invalidLength
    · exact .inl hillegal
    · have hvalid : (decodeAll fd connId limit pieces.flatten).1 ≠ .invalidLength :=
        fun heq => hillegal (hstatus.trans heq)
      exact .inr (hbuffer.trans (decode_rest hvalid).symm)

end Pieces

end ProtocolCodec

end GatewaySystem
