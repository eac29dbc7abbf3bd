import GatewaySystem.Lib.BigEndian
import GatewaySystem.Protocol.Message

/-!
# The frame codec

A frame is a four-byte length followed by a body of that many bytes: version,
type, eight bytes of request number, payload. `encode` writes one response.
`decode` reads as many complete frames as its buffer holds; the loop looks at
one frame at a time, so `scanFrame` is that look and `decodeLoop` repeats it.
An illegal length ends the loop at once: the requests decoded so far are
returned and the buffer is left as it was, with nothing erased.
-/

namespace GatewaySystem

namespace ProtocolCodec

def maxPayloadSize : ℕ := 4 * 1024 * 1024

def fixedBodySize : ℕ := 1 + 1 + 8

def maxBodySize : ℕ := maxPayloadSize + fixedBodySize

inductive DecodeStatus where
  | ok
  | needMoreData
  | invalidLength
  deriving DecidableEq, Repr

/-- `encode`: the length counts the body only and is a 32-bit number. -/
def encode (response : Response) : Bytes :=
  BigEndian.encode 4 (1 + 1 + 8 + response.payload.length) ++
    [response.version, response.type.code] ++
    BigEndian.encode 8 response.requestId.toNat ++
    response.payload

theorem length_encode (response : Response) :
    (encode response).length = 14 + response.payload.length := by
  simp [encode]
  omega

theorem encode_ne_nil (response : Response) : encode response ≠ [] := by
  intro h
  have hlen := length_encode response
  rw [h] at hlen
  simp at hlen
  omega

/-- What one turn of the decoding loop finds at the read position. -/
inductive Scan where
  /-- Nothing is left. -/
  | done
  /-- The length or the body has not arrived completely. -/
  | short
  /-- The announced length is outside the limits. -/
  | illegal
  /-- A complete frame, and what follows it. -/
  | frame (request : Request) (rest : Bytes)
  deriving DecidableEq

/-- The body length announced at the read position. -/
def bodyLength (rest : Bytes) : ℕ := BigEndian.decode (rest.take 4)

/-- The request read from a complete frame at the read position. -/
def readRequest (fd : Fd) (connId : ℕ) (rest : Bytes) : Request where
  fd := fd
  connId := connId
  version := rest.getD 4 0
  type := MessageType.ofCode (rest.getD 5 0)
  requestId := (BigEndian.decode ((rest.drop 6).take 8)).toUInt64
  payload := (rest.drop 14).take (bodyLength rest - fixedBodySize)

/-- The limits a body length must keep. -/
def LegalLength (limit length : ℕ) : Prop :=
  fixedBodySize ≤ length ∧ length ≤ maxBodySize ∧ length ≤ limit

instance (limit length : ℕ) : Decidable (LegalLength limit length) :=
  inferInstanceAs (Decidable (_ ∧ _ ∧ _))

/-- One turn of the decoding loop. -/
def scanFrame (fd : Fd) (connId limit : ℕ) (rest : Bytes) : Scan :=
  if rest.length = 0 then .done
  else if rest.length < 4 then .short
  else if ¬ LegalLength limit (bodyLength rest) then .illegal
  else if rest.length < 4 + bodyLength rest then .short
  else .frame (readRequest fd connId rest) (rest.drop (4 + bodyLength rest))

/-- The decoding loop from a read position, at most `fuel` turns. -/
def decodeLoop (fd : Fd) (connId limit : ℕ) :
    ℕ → Bytes → DecodeStatus × List Request × Bytes
  | 0, rest => (.ok, [], rest)
  | fuel + 1, rest =>
      match scanFrame fd connId limit rest with
      | .done => (.ok, [], rest)
      | .short => (.needMoreData, [], rest)
      | .illegal => (.invalidLength, [], rest)
      | .frame request rest' =>
          let result := decodeLoop fd connId limit fuel rest'
          (result.1, request :: result.2.1, result.2.2)

/-- `decode`: the status, the requests and the buffer afterwards. A turn that
continues consumes a frame, so one turn more than the buffer has bytes is
enough. -/
def decode (inputBuffer : Bytes) (fd : Fd) (connId limit : ℕ) :
    DecodeStatus × List Request × Bytes :=
  let result := decodeLoop fd connId limit (inputBuffer.length + 1) inputBuffer
  if result.1 = .invalidLength then (.invalidLength, result.2.1, inputBuffer)
  else result

section Scan

variable {fd : Fd} {connId limit : ℕ} {rest : Bytes} {request : Request}

theorem scanFrame_eq_frame {rest rest' : Bytes}
    (h : scanFrame fd connId limit rest = .frame request rest') :
    LegalLength limit (bodyLength rest) ∧ 4 + bodyLength rest ≤ rest.length ∧
      request = readRequest fd connId rest ∧ rest' = rest.drop (4 + bodyLength rest) := by
  unfold scanFrame at h
  split at h
  · cases h
  · split at h
    · cases h
    · split at h
      · cases h
      · next hlegal =>
          split at h
          · cases h
          · next hlen =>
              simp only [Scan.frame.injEq] at h
              exact ⟨not_not.mp hlegal, not_lt.mp hlen, h.1.symm, h.2.symm⟩

theorem scanFrame_of_complete (hlegal : LegalLength limit (bodyLength rest))
    (hlen : 4 + bodyLength rest ≤ rest.length) :
    scanFrame fd connId limit rest =
      .frame (readRequest fd connId rest) (rest.drop (4 + bodyLength rest)) := by
  have hzero : ¬ rest.length = 0 := by omega
  have hfour : ¬ rest.length < 4 := by omega
  simp [scanFrame, hzero, hfour, hlegal, not_lt.mpr hlen]

theorem scanFrame_eq_illegal :
    scanFrame fd connId limit rest = .illegal ↔
      4 ≤ rest.length ∧ ¬ LegalLength limit (bodyLength rest) := by
  unfold scanFrame
  by_cases hzero : rest.length = 0
  · simp [hzero]
  · by_cases hfour : rest.length < 4
    · simp [hzero, hfour]
    · by_cases hlegal : LegalLength limit (bodyLength rest)
      · by_cases hlen : rest.length < 4 + bodyLength rest <;> simp [hzero, hfour, hlegal, hlen]
      · simp [hzero, hfour, hlegal, not_lt.mp hfour]

theorem scanFrame_eq_done : scanFrame fd connId limit rest = .done ↔ rest = [] := by
  unfold scanFrame
  by_cases hzero : rest.length = 0
  · simp [List.length_eq_zero_iff.mp hzero]
  · have hne : rest ≠ [] := fun h => hzero (by simp [h])
    simp only [hzero, if_false, hne, iff_false]
    split
    · simp
    · split
      · simp
      · split <;> simp

/-- A complete frame takes at least fourteen bytes. -/
theorem scanFrame_frame_length {rest rest' : Bytes}
    (h : scanFrame fd connId limit rest = .frame request rest') :
    rest'.length + 14 ≤ rest.length := by
  obtain ⟨hlegal, hlen, -, rfl⟩ := scanFrame_eq_frame h
  have hmin : fixedBodySize ≤ bodyLength rest := hlegal.1
  have hfixed : fixedBodySize = 10 := rfl
  rw [List.length_drop]
  omega

theorem bodyLength_append (more : Bytes) (h : 4 ≤ rest.length) :
    bodyLength (rest ++ more) = bodyLength rest := by
  rw [bodyLength, bodyLength, List.take_append_of_le_length h]

theorem readRequest_append (more : Bytes) (hmin : fixedBodySize ≤ bodyLength rest)
    (hlen : 4 + bodyLength rest ≤ rest.length) :
    readRequest fd connId (rest ++ more) = readRequest fd connId rest := by
  have hfixed : fixedBodySize = 10 := rfl
  have hbody : bodyLength (rest ++ more) = bodyLength rest :=
    bodyLength_append more (by omega)
  have hversion : (rest ++ more).getD 4 0 = rest.getD 4 0 := by
    simp [List.getD_eq_getElem?_getD, List.getElem?_append_left (by omega : 4 < rest.length)]
  have htype : (rest ++ more).getD 5 0 = rest.getD 5 0 := by
    simp [List.getD_eq_getElem?_getD, List.getElem?_append_left (by omega : 5 < rest.length)]
  have hnumber : ((rest ++ more).drop 6).take 8 = (rest.drop 6).take 8 := by
    rw [List.drop_append_of_le_length (by omega), List.take_append_of_le_length]
    rw [List.length_drop]
    omega
  have hpayload : ((rest ++ more).drop 14).take (bodyLength rest - fixedBodySize) =
      (rest.drop 14).take (bodyLength rest - fixedBodySize) := by
    rw [List.drop_append_of_le_length (by omega), List.take_append_of_le_length]
    rw [List.length_drop]
    omega
  rw [readRequest, readRequest, hbody, hversion, htype, hnumber, hpayload]

/-- A complete frame stays complete when more bytes arrive behind it. -/
theorem scanFrame_frame_append {rest rest' : Bytes} (more : Bytes)
    (h : scanFrame fd connId limit rest = .frame request rest') :
    scanFrame fd connId limit (rest ++ more) = .frame request (rest' ++ more) := by
  obtain ⟨hlegal, hlen, rfl, rfl⟩ := scanFrame_eq_frame h
  have hbody : bodyLength (rest ++ more) = bodyLength rest :=
    bodyLength_append more (by omega)
  rw [scanFrame_of_complete (by rwa [hbody]) (by rw [hbody, List.length_append]; omega),
    readRequest_append more hlegal.1 hlen, hbody, List.drop_append_of_le_length hlen]

/-- An illegal length stays illegal when more bytes arrive behind it. -/
theorem scanFrame_illegal_append (more : Bytes) (h : scanFrame fd connId limit rest = .illegal) :
    scanFrame fd connId limit (rest ++ more) = .illegal := by
  obtain ⟨hlen, hillegal⟩ := scanFrame_eq_illegal.mp h
  refine scanFrame_eq_illegal.mpr ⟨by rw [List.length_append]; omega, ?_⟩
  rwa [bodyLength_append more hlen]

end Scan

section Loop

variable {fd : Fd} {connId limit : ℕ} {buffer : Bytes} {request : Request} {rest : Bytes}

/-- Any number of turns above the number of bytes gives the same result. -/
theorem decodeLoop_fuel {fuel fuel' : ℕ} (h : rest.length < fuel) (h' : rest.length < fuel') :
    decodeLoop fd connId limit fuel rest = decodeLoop fd connId limit fuel' rest := by
  induction fuel generalizing fuel' rest with
  | zero => omega
  | succ fuel ih =>
      cases fuel' with
      | zero => omega
      | succ fuel' =>
          rw [decodeLoop, decodeLoop]
          cases hscan : scanFrame fd connId limit rest with
          | done => rfl
          | short => rfl
          | illegal => rfl
          | frame request rest' =>
              have hlen := scanFrame_frame_length hscan
              simp only
              have hnext : decodeLoop fd connId limit fuel rest' =
                  decodeLoop fd connId limit fuel' rest' := ih (by omega) (by omega)
              rw [hnext]

/-- The result of the decoding loop without its turn counter. -/
def decodeAll (fd : Fd) (connId limit : ℕ) (rest : Bytes) : DecodeStatus × List Request × Bytes :=
  decodeLoop fd connId limit (rest.length + 1) rest

theorem decodeAll_done (h : scanFrame fd connId limit rest = .done) :
    decodeAll fd connId limit rest = (.ok, [], rest) := by
  rw [decodeAll, decodeLoop, h]

theorem decodeAll_short (h : scanFrame fd connId limit rest = .short) :
    decodeAll fd connId limit rest = (.needMoreData, [], rest) := by
  rw [decodeAll, decodeLoop, h]

theorem decodeAll_illegal (h : scanFrame fd connId limit rest = .illegal) :
    decodeAll fd connId limit rest = (.invalidLength, [], rest) := by
  rw [decodeAll, decodeLoop, h]

theorem decodeAll_frame {rest rest' : Bytes}
    (h : scanFrame fd connId limit rest = .frame request rest') :
    decodeAll fd connId limit rest =
      ((decodeAll fd connId limit rest').1,
        request :: (decodeAll fd connId limit rest').2.1,
        (decodeAll fd connId limit rest').2.2) := by
  have hlen := scanFrame_frame_length h
  have hfuel : decodeLoop fd connId limit rest.length rest' = decodeAll fd connId limit rest' :=
    decodeLoop_fuel (by omega) (by omega)
  rw [decodeAll, decodeLoop, h]
  simp only [hfuel]

/-- Induction along the frames of a buffer. -/
theorem frames_induction (fd : Fd) (connId limit : ℕ) {P : Bytes → Prop}
    (hdone : ∀ rest, scanFrame fd connId limit rest = .done → P rest)
    (hshort : ∀ rest, scanFrame fd connId limit rest = .short → P rest)
    (hillegal : ∀ rest, scanFrame fd connId limit rest = .illegal → P rest)
    (hframe : ∀ rest request rest', scanFrame fd connId limit rest = .frame request rest' →
      P rest' → P rest) (rest : Bytes) : P rest := by
  induction hn : rest.length using Nat.strong_induction_on generalizing rest with
  | _ n ih =>
      cases hscan : scanFrame fd connId limit rest with
      | done => exact hdone rest hscan
      | short => exact hshort rest hscan
      | illegal => exact hillegal rest hscan
      | frame request rest' =>
          have hlen := scanFrame_frame_length hscan
          exact hframe rest request rest' hscan (ih rest'.length (by omega) rest' rfl)

theorem decode_eq (inputBuffer : Bytes) :
    decode inputBuffer fd connId limit =
      if (decodeAll fd connId limit inputBuffer).1 = .invalidLength then
        (.invalidLength, (decodeAll fd connId limit inputBuffer).2.1, inputBuffer)
      else decodeAll fd connId limit inputBuffer := rfl

/-- Every decoded request carries the descriptor and number it was decoded for. -/
theorem decodeAll_key (h : request ∈ (decodeAll fd connId limit rest).2.1) :
    request.key = ⟨fd, connId⟩ := by
  induction rest using frames_induction fd connId limit with
  | hdone rest hscan => simp [decodeAll_done hscan] at h
  | hshort rest hscan => simp [decodeAll_short hscan] at h
  | hillegal rest hscan => simp [decodeAll_illegal hscan] at h
  | hframe rest first rest' hscan ih =>
      rw [decodeAll_frame hscan] at h
      rcases List.mem_cons.mp h with rfl | h
      · obtain ⟨-, -, rfl, -⟩ := scanFrame_eq_frame hscan
        rfl
      · exact ih h

/-- The first request was read from the first frame. -/
theorem scanFrame_of_requests {requests : List Request}
    (h : (decodeAll fd connId limit buffer).2.1 = request :: requests) :
    ∃ rest, scanFrame fd connId limit buffer = .frame request rest ∧
      (decodeAll fd connId limit rest).2.1 = requests := by
  cases hscan : scanFrame fd connId limit buffer with
  | done => simp [decodeAll_done hscan] at h
  | short => simp [decodeAll_short hscan] at h
  | illegal => simp [decodeAll_illegal hscan] at h
  | frame first rest =>
      rw [decodeAll_frame hscan] at h
      obtain ⟨rfl, hrest⟩ := List.cons.inj h
      exact ⟨rest, rfl, hrest⟩

/-! ### Cuts of a buffer -/

/-- The size of the frame a request was read from. -/
def frameSize (request : Request) : ℕ := 4 + fixedBodySize + request.payload.length

/-- The size of the frames of several requests. -/
def framesSize (requests : List Request) : ℕ := (requests.map frameSize).sum

@[simp] theorem framesSize_nil : framesSize [] = 0 := rfl

@[simp] theorem framesSize_cons (request : Request) (requests : List Request) :
    framesSize (request :: requests) = frameSize request + framesSize requests := by
  simp [framesSize]

@[simp] theorem framesSize_append (requests requests' : List Request) :
    framesSize (requests ++ requests') = framesSize requests + framesSize requests' := by
  simp [framesSize]

theorem frameSize_readRequest (hmin : fixedBodySize ≤ bodyLength rest)
    (hlen : 4 + bodyLength rest ≤ rest.length) :
    frameSize (readRequest fd connId rest) = 4 + bodyLength rest := by
  have hfixed : fixedBodySize = 10 := rfl
  rw [frameSize, readRequest, List.length_take, List.length_drop]
  omega

theorem scanFrame_frame_size {rest rest' : Bytes}
    (h : scanFrame fd connId limit rest = .frame request rest') :
    rest.length = frameSize request + rest'.length := by
  obtain ⟨hlegal, hlen, rfl, rfl⟩ := scanFrame_eq_frame h
  rw [frameSize_readRequest hlegal.1 hlen, List.length_drop]
  omega

/-- The bytes of a buffer are those of its frames and the rest. -/
theorem decodeAll_length (buffer : Bytes) :
    buffer.length = framesSize (decodeAll fd connId limit buffer).2.1 +
      (decodeAll fd connId limit buffer).2.2.length := by
  induction buffer using frames_induction fd connId limit with
  | hdone rest hscan => simp [decodeAll_done hscan]
  | hshort rest hscan => simp [decodeAll_short hscan]
  | hillegal rest hscan => simp [decodeAll_illegal hscan]
  | hframe rest request rest' hscan ih =>
      have hsize := scanFrame_frame_size hscan
      rw [decodeAll_frame hscan, framesSize_cons]
      simp only
      omega

theorem four_le_of_invalidLength (h : (decodeAll fd connId limit buffer).1 = .invalidLength) :
    4 ≤ (decodeAll fd connId limit buffer).2.2.length := by
  induction buffer using frames_induction fd connId limit with
  | hdone rest hscan => simp [decodeAll_done hscan] at h
  | hshort rest hscan => simp [decodeAll_short hscan] at h
  | hillegal rest hscan =>
      rw [decodeAll_illegal hscan]
      exact (scanFrame_eq_illegal.mp hscan).1
  | hframe rest request rest' hscan ih =>
      rw [decodeAll_frame hscan] at h ⊢
      exact ih h

/-- A decoded frame is within the limit. -/
theorem decodeAll_payload (h : request ∈ (decodeAll fd connId limit buffer).2.1) :
    request.payload.length + fixedBodySize ≤ limit := by
  induction buffer using frames_induction fd connId limit with
  | hdone rest hscan => simp [decodeAll_done hscan] at h
  | hshort rest hscan => simp [decodeAll_short hscan] at h
  | hillegal rest hscan => simp [decodeAll_illegal hscan] at h
  | hframe rest first rest' hscan ih =>
      rw [decodeAll_frame hscan] at h
      rcases List.mem_cons.mp h with rfl | h
      · obtain ⟨hlegal, hlen, rfl, -⟩ := scanFrame_eq_frame hscan
        have hsize : frameSize (readRequest fd connId rest) = 4 + bodyLength rest :=
          frameSize_readRequest hlegal.1 hlen
        rw [frameSize] at hsize
        have hlimit : bodyLength rest ≤ limit := hlegal.2.2
        omega
      · exact ih h

/-- Bytes behind an illegal length change nothing. -/
theorem decodeAll_append_illegal (more : Bytes)
    (h : (decodeAll fd connId limit buffer).1 = .invalidLength) :
    decodeAll fd connId limit (buffer ++ more) =
      (.invalidLength, (decodeAll fd connId limit buffer).2.1,
        (decodeAll fd connId limit buffer).2.2 ++ more) := by
  induction buffer using frames_induction fd connId limit with
  | hdone rest hscan => simp [decodeAll_done hscan] at h
  | hshort rest hscan => simp [decodeAll_short hscan] at h
  | hillegal rest hscan =>
      rw [decodeAll_illegal (scanFrame_illegal_append more hscan), decodeAll_illegal hscan]
  | hframe rest request rest' hscan ih =>
      rw [decodeAll_frame hscan] at h
      rw [decodeAll_frame (scanFrame_frame_append more hscan), ih h, decodeAll_frame hscan]

/-- Otherwise decoding goes on where it stopped. -/
theorem decodeAll_append (more : Bytes)
    (h : (decodeAll fd connId limit buffer).1 ≠ .invalidLength) :
    decodeAll fd connId limit (buffer ++ more) =
      ((decodeAll fd connId limit ((decodeAll fd connId limit buffer).2.2 ++ more)).1,
        (decodeAll fd connId limit buffer).2.1 ++
          (decodeAll fd connId limit ((decodeAll fd connId limit buffer).2.2 ++ more)).2.1,
        (decodeAll fd connId limit ((decodeAll fd connId limit buffer).2.2 ++ more)).2.2) := by
  induction buffer using frames_induction fd connId limit with
  | hdone rest hscan => simp [decodeAll_done hscan]
  | hshort rest hscan => simp [decodeAll_short hscan]
  | hillegal rest hscan => simp [decodeAll_illegal hscan] at h
  | hframe rest request rest' hscan ih =>
      rw [decodeAll_frame hscan] at h
      rw [decodeAll_frame (scanFrame_frame_append more hscan), ih h, decodeAll_frame hscan]
      rfl

/-- There is no complete frame and no illegal length in the buffer. -/
def Incomplete (fd : Fd) (connId limit : ℕ) (buffer : Bytes) : Prop :=
  (decodeAll fd connId limit buffer).1 ≠ .invalidLength ∧
    (decodeAll fd connId limit buffer).2.1 = []

theorem incomplete_of_scanFrame
    (h : scanFrame fd connId limit rest = .done ∨ scanFrame fd connId limit rest = .short) :
    Incomplete fd connId limit rest := by
  rcases h with h | h
  · rw [Incomplete, decodeAll_done h]
    exact ⟨nofun, rfl⟩
  · rw [Incomplete, decodeAll_short h]
    exact ⟨nofun, rfl⟩

theorem Incomplete.rest_eq (h : Incomplete fd connId limit buffer) :
    (decodeAll fd connId limit buffer).2.2 = buffer := by
  cases hscan : scanFrame fd connId limit buffer with
  | done => rw [decodeAll_done hscan]
  | short => rw [decodeAll_short hscan]
  | illegal => rw [decodeAll_illegal hscan]
  | frame request rest =>
      have hnone := h.2
      rw [decodeAll_frame hscan] at hnone
      cases hnone

/-- Decoding leaves an incomplete frame. -/
theorem incomplete_rest (h : (decodeAll fd connId limit buffer).1 ≠ .invalidLength) :
    Incomplete fd connId limit (decodeAll fd connId limit buffer).2.2 := by
  induction buffer using frames_induction fd connId limit with
  | hdone rest hscan =>
      rw [decodeAll_done hscan]
      exact incomplete_of_scanFrame (.inl hscan)
  | hshort rest hscan =>
      rw [decodeAll_short hscan]
      exact incomplete_of_scanFrame (.inr hscan)
  | hillegal rest hscan => simp [decodeAll_illegal hscan] at h
  | hframe rest request rest' hscan ih =>
      rw [decodeAll_frame hscan] at h ⊢
      exact ih h

/-- Under no limit is there a complete frame in the buffer. -/
def Unfinished (buffer : Bytes) : Prop :=
  buffer.length < 4 ∨ buffer.length < 4 + bodyLength buffer

theorem Unfinished.no_frames (h : Unfinished buffer) :
    (decodeAll fd connId limit buffer).2.1 = [] := by
  cases hscan : scanFrame fd connId limit buffer with
  | done => rw [decodeAll_done hscan]
  | short => rw [decodeAll_short hscan]
  | illegal => rw [decodeAll_illegal hscan]
  | frame request rest =>
      obtain ⟨-, hlen, -, -⟩ := scanFrame_eq_frame hscan
      unfold Unfinished at h
      omega

/-- The beginning of a frame of legal length. -/
def PartialFrame (buffer : Bytes) : Prop :=
  buffer.length < 4 ∨ fixedBodySize ≤ bodyLength buffer ∧ bodyLength buffer ≤ maxBodySize ∧
    buffer.length < 4 + bodyLength buffer

instance (buffer : Bytes) : Decidable (PartialFrame buffer) :=
  inferInstanceAs (Decidable (_ ∨ _))

theorem partialFrame_nil : PartialFrame [] := .inl (by decide)

theorem PartialFrame.unfinished (h : PartialFrame buffer) : Unfinished buffer :=
  h.imp_right fun hbody => hbody.2.2

theorem scanFrame_eq_short (h : scanFrame fd connId limit rest = .short) : PartialFrame rest := by
  unfold scanFrame at h
  split at h
  · cases h
  · split at h
    · next hfour => exact .inl hfour
    · split at h
      · cases h
      · next hlegal =>
          have hlegal : LegalLength limit (bodyLength rest) := not_not.mp hlegal
          split at h
          · next hbody => exact .inr ⟨hlegal.1, hlegal.2.1, hbody⟩
          · cases h

/-- What decoding leaves is the beginning of a frame. -/
theorem partialFrame_rest (h : (decodeAll fd connId limit buffer).1 ≠ .invalidLength) :
    PartialFrame (decodeAll fd connId limit buffer).2.2 := by
  induction buffer using frames_induction fd connId limit with
  | hdone rest hscan =>
      rw [decodeAll_done hscan, scanFrame_eq_done.mp hscan]
      exact partialFrame_nil
  | hshort rest hscan =>
      rw [decodeAll_short hscan]
      exact scanFrame_eq_short hscan
  | hillegal rest hscan => simp [decodeAll_illegal hscan] at h
  | hframe rest request rest' hscan ih =>
      rw [decodeAll_frame hscan] at h ⊢
      exact ih h

/-- The first frame that more bytes complete ends behind the old ones. -/
theorem Incomplete.length_lt {buffer more : Bytes} {requests : List Request}
    (h : Incomplete fd connId limit buffer)
    (hmore : (decodeAll fd connId limit (buffer ++ more)).2.1 = request :: requests) :
    buffer.length < frameSize request := by
  obtain ⟨rest, hscan, -⟩ := scanFrame_of_requests hmore
  obtain ⟨hlegal, hlen, rfl, -⟩ := scanFrame_eq_frame hscan
  rw [frameSize_readRequest hlegal.1 hlen]
  by_contra hcomplete
  -- then the frame was complete before
  have hfour : 4 ≤ buffer.length := by omega
  rw [bodyLength_append more hfour] at hlegal hcomplete
  have hold : scanFrame fd connId limit buffer = .frame _ _ :=
    scanFrame_of_complete hlegal (not_lt.mp hcomplete)
  have hnone := h.2
  rw [decodeAll_frame hold] at hnone
  cases hnone

theorem bodyLength_take {n : ℕ} (h : 4 ≤ n) : bodyLength (rest.take n) = bodyLength rest := by
  rw [bodyLength, bodyLength, List.take_take, Nat.min_eq_left h]

/-- A frame is read the same way from a buffer that is cut off behind it. -/
theorem scanFrame_frame_take {rest rest' : Bytes} (n : ℕ)
    (h : scanFrame fd connId limit rest = .frame request rest') :
    scanFrame fd connId limit (rest.take (frameSize request + n)) =
      .frame request (rest'.take n) := by
  obtain ⟨hlegal, hlen, rfl, rfl⟩ := scanFrame_eq_frame h
  have hsize : frameSize (readRequest fd connId rest) = 4 + bodyLength rest :=
    frameSize_readRequest hlegal.1 hlen
  have hbody : bodyLength (rest.take (4 + bodyLength rest)) = bodyLength rest :=
    bodyLength_take (Nat.le_add_right 4 _)
  have htake : (rest.take (4 + bodyLength rest)).length = 4 + bodyLength rest :=
    List.length_take_of_le hlen
  have hread : readRequest fd connId (rest.take (4 + bodyLength rest)) =
      readRequest fd connId rest := by
    rw [← readRequest_append (rest.drop (4 + bodyLength rest)) (by rw [hbody]; exact hlegal.1)
      (by rw [hbody, htake]), List.take_append_drop]
  have hframe : scanFrame fd connId limit (rest.take (4 + bodyLength rest)) =
      .frame (readRequest fd connId rest) [] := by
    rw [scanFrame_of_complete (by rwa [hbody]) (by rw [hbody, htake]), hread, hbody,
      List.drop_of_length_le (Nat.le_of_eq htake)]
  rw [hsize, List.take_add]
  exact scanFrame_frame_append _ hframe

/-- What is cut off inside a frame leaves the frames before it. -/
theorem decodeAll_take {before after : List Request}
    (h : (decodeAll fd connId limit buffer).2.1 = before ++ request :: after) {k : ℕ}
    (hk : k < frameSize request) :
    (decodeAll fd connId limit (buffer.take (framesSize before + k))).1 ≠ .invalidLength ∧
      (decodeAll fd connId limit (buffer.take (framesSize before + k))).2.1 = before := by
  induction before generalizing buffer with
  | nil =>
      obtain ⟨rest, hscan, -⟩ := scanFrame_of_requests h
      obtain ⟨hlegal, hlen, rfl, -⟩ := scanFrame_eq_frame hscan
      rw [frameSize_readRequest hlegal.1 hlen] at hk
      rw [framesSize_nil, Nat.zero_add]
      have hlength : (buffer.take k).length = k := List.length_take_of_le (by omega)
      apply incomplete_of_scanFrame
      unfold scanFrame
      rw [hlength]
      split
      · exact .inl rfl
      · split
        · exact .inr rfl
        · next hfour =>
            rw [bodyLength_take (not_lt.mp hfour), if_neg (not_not.mpr hlegal), if_pos hk]
            exact .inr rfl
  | cons first before ih =>
      obtain ⟨rest, hscan, hrest⟩ := scanFrame_of_requests h
      obtain ⟨hstatus, hrequests⟩ := ih hrest
      rw [framesSize_cons, Nat.add_assoc, decodeAll_frame (scanFrame_frame_take _ hscan)]
      exact ⟨hstatus, congrArg (first :: ·) hrequests⟩

/-- An illegal length is found when its four bytes have arrived. -/
theorem decodeAll_take_illegal (h : (decodeAll fd connId limit buffer).1 = .invalidLength) :
    (decodeAll fd connId limit
      (buffer.take (framesSize (decodeAll fd connId limit buffer).2.1 + 4))).1 =
        .invalidLength := by
  induction buffer using frames_induction fd connId limit with
  | hdone rest hscan => simp [decodeAll_done hscan] at h
  | hshort rest hscan => simp [decodeAll_short hscan] at h
  | hillegal rest hscan =>
      obtain ⟨hlen, hillegal⟩ := scanFrame_eq_illegal.mp hscan
      rw [decodeAll_illegal hscan, framesSize_nil, Nat.zero_add, decodeAll_illegal]
      refine scanFrame_eq_illegal.mpr ⟨?_, ?_⟩
      · rw [List.length_take_of_le hlen]
      · rwa [bodyLength_take (Nat.le_refl 4)]
  | hframe rest request rest' hscan ih =>
      rw [decodeAll_frame hscan] at h ⊢
      rw [framesSize_cons, Nat.add_assoc, decodeAll_frame (scanFrame_frame_take _ hscan)]
      exact ih h

/-- A buffer that was decoded to its end is empty. -/
theorem rest_of_ok (h : (decodeAll fd connId limit buffer).1 = .ok) :
    (decodeAll fd connId limit buffer).2.2 = [] := by
  induction buffer using frames_induction fd connId limit with
  | hdone rest hscan => rw [decodeAll_done hscan, scanFrame_eq_done.mp hscan]
  | hshort rest hscan => simp [decodeAll_short hscan] at h
  | hillegal rest hscan => simp [decodeAll_illegal hscan] at h
  | hframe rest request rest' hscan ih =>
      rw [decodeAll_frame hscan] at h ⊢
      exact ih h

theorem decode_requests (inputBuffer : Bytes) :
    (decode inputBuffer fd connId limit).2.1 = (decodeAll fd connId limit inputBuffer).2.1 := by
  rw [decode_eq]
  split <;> rfl

theorem decode_key {inputBuffer : Bytes} (h : request ∈ (decode inputBuffer fd connId limit).2.1) :
    request.key = ⟨fd, connId⟩ :=
  decodeAll_key (decode_requests inputBuffer ▸ h)

theorem decode_payload {inputBuffer : Bytes}
    (h : request ∈ (decode inputBuffer fd connId limit).2.1) :
    request.payload.length + fixedBodySize ≤ limit :=
  decodeAll_payload (decode_requests inputBuffer ▸ h)

end Loop

end ProtocolCodec

end GatewaySystem
