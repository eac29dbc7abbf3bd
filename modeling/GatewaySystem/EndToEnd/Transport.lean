import GatewaySystem.Control.Segments
import GatewaySystem.EndToEnd.Documents
import GatewaySystem.EndToEnd.Handshake

/-!
# Replies on their way to the gateway

`net/http` writes a status line, header fields, a blank line and the body that
`writeJSON` handed to it, whose length `writeJSON` has announced; this is the
assumption `Writer`. Of these bytes the network delivers a beginning, in any
pieces, and the exchange may fail before or after it. Whatever happens, a reply
that the gateway takes for a success was delivered as a whole. So what
`checkAuth` takes for an allowed client is an answer that allows it, and a
configuration that `fetchConfig` returns is one the control plane answered.
-/

namespace GatewaySystem

open HttpResponseParser

namespace NetHttp

/-- What is assumed of `net/http` where it writes a response. -/
structure Writer (encode : App.Payload → Bytes) where
  statusLine : App.HttpResponse → Bytes
  header : App.HttpResponse → List Bytes
  return_notMem_statusLine : ∀ response, 13 ∉ statusLine response
  header_line : ∀ response, ∀ line ∈ header response, 13 ∉ line ∧ line ≠ []
  /-- The length that `writeJSON` has set is the only one. -/
  contentLength : ∀ response, lengthLines (header response) =
    [text "Content-Length: " ++ Decimal.format (encode response.body).length]

variable {encode : App.Payload → Bytes}

/-- What is written for a response. -/
def Writer.bytes (writer : Writer encode) (response : App.HttpResponse) : Bytes :=
  head (writer.statusLine response) (writer.header response) ++
    (crlf ++ crlf ++ encode response.body)

theorem Writer.cut (writer : Writer encode) (response : App.HttpResponse) :
    Cut (writer.bytes response) (writer.statusLine response) (writer.header response)
      (encode response.body) :=
  cut_head (writer.return_notMem_statusLine response) (writer.header_line response) _

theorem announces_length {n length : ℕ}
    (h : Announces (text "Content-Length: " ++ Decimal.format n) length) : length = n := by
  have hvalue : fieldValue (text "Content-Length: " ++ Decimal.format n) =
      32 :: Decimal.format n := by
    rw [fieldValue_append (i := 14) (by decide +kernel)]
    exact congrArg (· ++ Decimal.format n) (by decide +kernel : fieldValue _ = [32])
  have hblank : ∀ byte ∈ Decimal.format n, isBlank byte = false := by
    intro byte hbyte
    refine Bool.eq_false_iff.mpr fun heq => ?_
    simp only [isBlank, decide_eq_true_eq] at heq
    rcases heq with rfl | rfl
    · exact Decimal.notMem_format (by decide) (by decide) hbyte
    · exact Decimal.notMem_format (by decide) (by decide) hbyte
  have htrimmed : trimmed (Decimal.format n) = Decimal.format n := by
    refine trimmed_eq_self.mpr ?_
    rintro (⟨byte, hbyte, heq⟩ | ⟨byte, hbyte, heq⟩)
    · rw [hblank byte (List.mem_of_mem_head? hbyte)] at heq
      cases heq
    · rw [hblank byte (List.mem_of_mem_getLast? hbyte)] at heq
      cases heq
  have hread := h.1
  rw [hvalue, trimmed_cons_blank (by decide), htrimmed] at hread
  have hparse := Decimal.parse_of_natural? hread
  rw [Decimal.parse_format] at hparse
  exact_mod_cast (Option.some.inj hparse).symm

/-- Of the beginnings of a reply only the whole of it is accepted. -/
theorem Writer.eq_of_accepted (writer : Writer encode) {response : App.HttpResponse}
    {received body : Bytes} {code : ℕ} (hbeginning : received <+: writer.bytes response)
    (hsize : received.length < 2 ^ 64) (h : Accepted received code body) :
    body = encode response.body ∧ received = writer.bytes response := by
  obtain ⟨status, lines, hcut, -⟩ := id h
  have hwhole := writer.cut response
  have htake : received = (writer.bytes response).take received.length :=
    List.prefix_iff_eq_take.mp hbeginning
  -- the blank line that was received is the one that was written
  have hhead : (head (writer.statusLine response) (writer.header response)).length + 4 ≤
      received.length := by
    obtain ⟨rest, hrest⟩ := hbeginning
    have hfound := Search.find_append hcut.first rest
    rw [hrest, hwhole.first] at hfound
    rw [Option.some.inj hfound]
    exact Search.find_add_length_le hcut.first
  have hreceived := hwhole.take hhead
  rw [← htake] at hreceived
  obtain ⟨-, hread, rfl⟩ := (accepted_iff hreceived hsize).mp h
  obtain ⟨-, -, -, line, hline, hannounces⟩ :=
    (readHead_eq_ok fun line hline => hreceived.line_length_lt hsize hline).mp hread
  rw [writer.contentLength response] at hline
  obtain rfl := List.singleton_inj.mp hline
  have hbody := (List.take_prefix _ _).eq_of_length (announces_length hannounces)
  refine ⟨hbody, ?_⟩
  rw [hreceived.reply_eq, hbody]
  rfl

end NetHttp

namespace Sample

open NetHttp

/-- A writer that announces the length and nothing else. -/
def plainWriter (encode : App.Payload → Bytes) : Writer encode where
  statusLine response := text "HTTP/1.1 " ++ Decimal.format response.status ++ text " "
  header response := [text "Content-Length: " ++ Decimal.format (encode response.body).length]
  return_notMem_statusLine response := by
    simp only [List.mem_append, not_or]
    exact ⟨⟨by decide +kernel, Decimal.notMem_format (by decide) (by decide)⟩, by decide +kernel⟩
  header_line response line hline := by
    obtain rfl := List.mem_singleton.mp hline
    refine ⟨?_, List.append_ne_nil_of_left_ne_nil (by decide +kernel) _⟩
    simp only [List.mem_append, not_or]
    exact ⟨by decide +kernel, Decimal.notMem_format (by decide) (by decide)⟩
  contentLength response := by
    have hname : fieldName? (text "Content-Length: " ++
        Decimal.format (encode response.body).length) = some (text "content-length") :=
      (fieldName?_append (i := 13) (by decide +kernel) _).trans (by decide +kernel)
    exact lengthLines_cons_length hname

end Sample

namespace ControlPlaneClient

open NetHttp

/-- An exchange in which the network delivers a beginning of a reply, as far as
there is one. -/
def Exchange.Delivers (reply : Option Bytes) : Exchange → Prop
  | .failed error => error ≠ .none
  | .received chunks ending =>
      ending ≠ .error .none ∧ chunks.flatten.length < 2 ^ 64 ∧ chunks.flatten <+: reply.getD []

instance (reply : Option Bytes) : (exchange : Exchange) → Decidable (exchange.Delivers reply)
  | .failed _ => inferInstanceAs (Decidable (_ ≠ _))
  | .received _ _ => inferInstanceAs (Decidable (_ ∧ _))

variable {encode : App.Payload → Bytes} {response? : Option App.HttpResponse}
  {exchange : Exchange} {result : HttpResult}

/-- A success has the body of the answer, and nothing of the reply is missing. -/
theorem delivered_of_ok (writer : Writer encode)
    (hdelivers : exchange.Delivers (response?.map writer.bytes))
    (h : requestJsonOnce exchange = some result) (hok : result.ok = true) :
    ∃ response chunks ending, response? = some response ∧ exchange = .received chunks ending ∧
      chunks.flatten = writer.bytes response ∧ result.body = encode response.body := by
  cases exchange with
  | failed error =>
      obtain rfl := Option.some.inj h
      simp [HttpResult.ok] at hok
  | received chunks ending =>
      obtain ⟨hending, hsize, hbeginning⟩ := hdelivers
      have hfits : ([] ++ chunks.flatten).length < 2 ^ 64 := hsize
      obtain ⟨front, hfront, haccepted⟩ := receiveLoop_accepted hending consume_nil rfl hfits h hok
      have hfront : front <+: chunks.flatten := hfront
      have hreceived := hfront.trans hbeginning
      cases response? with
      | none =>
          obtain rfl := List.prefix_nil.mp hreceived
          obtain ⟨status, lines, hcut, -⟩ := haccepted
          cases hcut.first
      | some response =>
          have hlength := lt_of_le_of_lt hfront.length_le hsize
          obtain ⟨hbody, hwhole⟩ := writer.eq_of_accepted hreceived hlength haccepted
          have hall : chunks.flatten = writer.bytes response := by
            refine hbeginning.eq_of_length_le ?_
            rw [hwhole] at hfront
            exact hfront.length_le
          exact ⟨response, chunks, ending, rfl, rfl, hall, hbody⟩

section Reading

variable {library : Json.Library} (encoding : App.Encoding library)

/-- Only an answer to `/auth/check` is read as one. -/
theorem readAuth_encode {payload : App.Payload} (hint64 : App.Int64s payload.numbers)
    (h : (readAuth library (encoding.encode payload)).outcome = .allowed) :
    ∃ answer, payload = .authCheck answer ∧ answer.allowed = true := by
  rw [readAuth, encoding.parse_encode payload hint64] at h
  cases payload with
  | authCheck answer =>
      obtain ⟨allowed, code, reason⟩ := answer
      cases allowed with
      | true => exact ⟨_, rfl, rfl⟩
      | false => cases h
  | _ => cases h

/-- Only a configuration is read as one. -/
theorem parse_encode {payload : App.Payload} (hint64 : App.Int64s payload.numbers)
    {parsed : RuntimeConfig}
    (h : RuntimeConfig.parseRuntimeConfig library (encoding.encode payload) = some parsed) :
    ∃ config, payload = .config config ∧ parsed.Matches config := by
  cases payload with
  | config config =>
      exact ⟨config, rfl, ((RuntimeConfig.parse_encode_config encoding hint64).mp h).2⟩
  | _ =>
      rw [RuntimeConfig.parseRuntimeConfig, encoding.parse_encode _ hint64] at h
      cases h

end Reading

end ControlPlaneClient

end GatewaySystem
