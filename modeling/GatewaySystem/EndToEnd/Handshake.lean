import GatewaySystem.App.StartupConfig
import GatewaySystem.Control.ControlPlaneClient
import GatewaySystem.Control.HttpGrammar

/-!
# The shared token between gateway and control plane

The gateway writes its token behind `X-Gateway-Token: ` and the control plane
compares what `net/http` hands it. Of `net/http` it is assumed that the value of
a header is what follows the colon of its line, without the spaces and tabs
around it. A token with a space or a tab at one of its ends is accepted by both
services at startup, and then no request of the gateway is let through.
-/

namespace GatewaySystem

namespace NetHttp

open HttpResponseParser

/-- A request cut at its line ends. -/
def lines : Bytes → List Bytes
  | [] => [[]]
  | [byte] => [[byte]]
  | first :: second :: rest =>
      if first = 13 ∧ second = 10 then [] :: lines rest
      else
        match lines (second :: rest) with
        | [] => [[first]]
        | line :: more => (first :: line) :: more

/-- The header lines of a request. -/
def headerLines (request : Bytes) : List Bytes := ((lines request).drop 1).takeWhile (· ≠ [])

/-- `Header.Get` on the request that was read. -/
def headerGet (request : Bytes) (name : String) : Bytes :=
  match (headerLines request).find? fun line => fieldName? line = some (lowerAscii (text name)) with
  | some line => trimmed (fieldValue line)
  | none => []

theorem lines_append {line : Bytes} (h : 13 ∉ line) (rest : Bytes) :
    lines (line ++ (crlf ++ rest)) = line :: lines rest := by
  induction line with
  | nil => simp [crlf, lines]
  | cons byte line ih =>
      have hne : byte ≠ 13 := fun heq => h (heq ▸ List.mem_cons_self)
      have hrest := ih fun hmem => h (List.mem_cons_of_mem _ hmem)
      obtain ⟨second, more, hmore⟩ : ∃ second more, line ++ (crlf ++ rest) = second :: more := by
        cases line with
        | nil => exact ⟨13, 10 :: rest, rfl⟩
        | cons second line => exact ⟨second, line ++ (crlf ++ rest), rfl⟩
      rw [List.cons_append, hmore, lines, if_neg fun hcrlf => hne hcrlf.1, ← hmore, hrest]

theorem lines_flatMap {front : List Bytes} (h : ∀ line ∈ front, 13 ∉ line) (rest : Bytes) :
    lines (front.flatMap (· ++ crlf) ++ rest) = front ++ lines rest := by
  induction front with
  | nil => rfl
  | cons line front ih =>
      rw [List.flatMap_cons, List.append_assoc, List.append_assoc,
        lines_append (h line List.mem_cons_self),
        ih fun other hother => h other (List.mem_cons_of_mem _ hother), List.cons_append]

/-- A line that begins with a name and a colon has that name. -/
theorem fieldName?_append {front : Bytes} {i : ℕ} (h : Search.find (text ":") front = some (i + 1))
    (more : Bytes) : fieldName? (front ++ more) = fieldName? front := by
  have hroom : i + 1 + 1 ≤ front.length := Search.find_add_length_le h
  simp only [fieldName?, h, Search.find_append h more]
  rw [List.take_append_of_le_length (by omega)]

theorem fieldValue_append {front : Bytes} {i : ℕ} (h : Search.find (text ":") front = some i)
    (more : Bytes) : fieldValue (front ++ more) = fieldValue front ++ more := by
  have hroom : i + 1 ≤ front.length := Search.find_add_length_le h
  simp only [fieldValue, h, Search.find_append h more]
  rw [List.drop_append_of_le_length hroom]

/-- A token that `net/http` would not hand on as it is. -/
def Padded (token : Bytes) : Prop :=
  (∃ byte ∈ token.head?, isBlank byte) ∨ ∃ byte ∈ token.getLast?, isBlank byte

instance (token : Bytes) : Decidable (Padded token) := inferInstanceAs (Decidable (_ ∨ _))

theorem trimmed_eq_self {token : Bytes} : trimmed token = token ↔ ¬ Padded token := by
  have hfirst : token.dropWhile isBlank = token ↔ ¬ ∃ byte ∈ token.head?, isBlank byte := by
    rw [List.dropWhile_eq_self_iff]
    cases token with
    | nil => simp
    | cons byte token => simp
  have hlast : token.rdropWhile isBlank = token ↔ ¬ ∃ byte ∈ token.getLast?, isBlank byte := by
    rw [List.rdropWhile_eq_self_iff]
    rcases List.eq_nil_or_concat token with rfl | ⟨front, byte, rfl⟩
    · simp
    · simp
  rw [Padded, not_or, ← hfirst, ← hlast, trimmed]
  constructor
  · intro h
    have hsuffix := List.dropWhile_suffix (l := token) isBlank
    have hprefix := List.rdropWhile_prefix isBlank (token.dropWhile isBlank)
    have hdrop : token.dropWhile isBlank = token := by
      refine hsuffix.eq_of_length (Nat.le_antisymm hsuffix.length_le ?_)
      have hle := hprefix.length_le
      rwa [h] at hle
    rw [hdrop] at h
    exact ⟨hdrop, h⟩
  · rintro ⟨hdrop, hrdrop⟩
    rw [hdrop, hrdrop]

theorem trimmed_cons_blank {byte : UInt8} (h : isBlank byte) (value : Bytes) :
    trimmed (byte :: value) = trimmed value := by
  rw [trimmed, List.dropWhile_cons_of_pos h, trimmed]

end NetHttp

namespace ControlPlaneClient

open HttpResponseParser NetHttp

variable {client : ControlPlaneClient} {host gatewayToken : Bytes} {port timeoutMs : ℕ}
  {method path : Bytes}

/-- What the constructor stores has no line break. -/
theorem create_eq_ok (h : create host port timeoutMs gatewayToken = .ok client) :
    client.gatewayToken = gatewayToken ∧ 13 ∉ client.host ∧ 13 ∉ client.gatewayToken := by
  have hvalid : ∀ {name : String} {value : Bytes}, validateHeaderValue name value = .ok () →
      13 ∉ value := by
    intro name value hvalid hmem
    rw [validateHeaderValue, if_pos (.inl hmem)] at hvalid
    cases hvalid
  rw [create] at h
  split at h
  · cases h
  · split at h
    · cases h
    · split at h
      · cases h
      · obtain ⟨⟨⟩, hhost, h⟩ := bind_eq_ok.mp h
        obtain ⟨⟨⟩, htoken, h⟩ := bind_eq_ok.mp h
        cases h
        exact ⟨rfl, hvalid hhost, hvalid htoken⟩

theorem return_notMem_format (n : ℕ) : 13 ∉ Decimal.format n :=
  Decimal.notMem_format (by decide) (by decide)

theorem return_notMem_hostHeader (h : 13 ∉ client.host) : 13 ∉ client.hostHeader := by
  have hport := return_notMem_format client.port
  have hopen : (13 : UInt8) ∉ text "[" := by decide
  have hclose : (13 : UInt8) ∉ text "]" := by decide
  have hcolon : (13 : UInt8) ∉ text ":" := by decide
  rw [hostHeader]
  split
  · simp [h, hopen, hclose, hcolon, hport]
  · simp [h, hcolon, hport]

/-- No line of a request holds a carriage return. -/
theorem return_notMem_requestLines (hhost : 13 ∉ client.host) (htoken : 13 ∉ client.gatewayToken)
    (hmethod : 13 ∉ method) (hpath : 13 ∉ path) (body : Bytes) :
    ∀ line ∈ client.requestLines method path body, 13 ∉ line := by
  have hheader := return_notMem_hostHeader hhost
  have hlength := return_notMem_format body.length
  have htext : ∀ s ∈ [" ", " HTTP/1.1", "Host: ", "Accept: application/json", "X-Gateway-Token: ",
      "Content-Type: application/json", "Content-Length: ", "Connection: close"],
      (13 : UInt8) ∉ text s := by decide +kernel
  simp only [List.mem_cons, List.not_mem_nil, or_false, forall_eq_or_imp, forall_eq] at htext
  obtain ⟨hspace, hversion, hhostName, haccept, htokenName, htype, hlengthName, hclose⟩ := htext
  rw [requestLines]
  split
  · simp [hmethod, hpath, hheader, htoken, hlength, hspace, hversion, hhostName, haccept,
      htokenName, htype, hlengthName, hclose]
  · simp [hmethod, hpath, hheader, htoken, hspace, hversion, hhostName, haccept, htokenName, hclose]

/-- The header lines that `net/http` reads are those that were written. -/
theorem headerLines_requestBytes (hhost : 13 ∉ client.host) (htoken : 13 ∉ client.gatewayToken)
    (hmethod : 13 ∉ method) (hpath : 13 ∉ path) (body : Bytes) :
    headerLines (client.requestBytes method path body) =
      (client.requestLines method path body).drop 1 := by
  have hlines := return_notMem_requestLines hhost htoken hmethod hpath body
  have hblank : ∀ rest, lines (crlf ++ rest) = [] :: lines rest := fun rest =>
    lines_append List.not_mem_nil rest
  have hne : ∀ line ∈ (client.requestLines method path body).drop 1, line ≠ [] := by
    have htext : ∀ s ∈ ["Host: ", "Accept: application/json", "X-Gateway-Token: ",
        "Content-Type: application/json", "Content-Length: ", "Connection: close"],
        text s ≠ [] := by decide +kernel
    simp only [List.mem_cons, List.not_mem_nil, or_false, forall_eq_or_imp, forall_eq] at htext
    obtain ⟨hhostName, haccept, htokenName, htype, hlengthName, hclose⟩ := htext
    rw [requestLines]
    split
    · simp [hhostName, haccept, htokenName, htype, hlengthName, hclose]
    · simp [hhostName, haccept, htokenName, hclose]
  have hdrop : ∀ rest : List Bytes, (client.requestLines method path body ++ rest).drop 1 =
      (client.requestLines method path body).drop 1 ++ rest := by
    intro rest
    rw [requestLines]
    rfl
  rw [headerLines, requestBytes, lines_flatMap hlines, hblank, hdrop,
    List.takeWhile_append_of_pos (by simpa using hne), List.takeWhile_cons_of_neg (by simp),
    List.append_nil]

/-- Of the lines of a request only one names the token, and none names an
authorization. -/
theorem headerGet_requestBytes (hhost : 13 ∉ client.host) (htoken : 13 ∉ client.gatewayToken)
    (hmethod : 13 ∉ method) (hpath : 13 ∉ path) (body : Bytes) :
    headerGet (client.requestBytes method path body) "X-Gateway-Token" =
        trimmed client.gatewayToken ∧
      headerGet (client.requestBytes method path body) "Authorization" = [] := by
  have hlines := headerLines_requestBytes hhost htoken hmethod hpath body
  have hhostName : fieldName? (text "Host: " ++ client.hostHeader) = some (text "host") :=
    (fieldName?_append (i := 3) (by decide +kernel) _).trans (by decide +kernel)
  have hacceptName : fieldName? (text "Accept: application/json") = some (text "accept") := by
    decide +kernel
  have htokenName : fieldName? (text "X-Gateway-Token: " ++ client.gatewayToken) =
      some (text "x-gateway-token") :=
    (fieldName?_append (i := 14) (by decide +kernel) _).trans (by decide +kernel)
  have htokenValue : fieldValue (text "X-Gateway-Token: " ++ client.gatewayToken) =
      32 :: client.gatewayToken := by
    rw [fieldValue_append (i := 15) (by decide +kernel)]
    exact congrArg (· ++ client.gatewayToken) (by decide +kernel : fieldValue _ = [32])
  have htypeName : fieldName? (text "Content-Type: application/json") =
      some (text "content-type") := by
    decide +kernel
  have hlengthName : ∀ value, fieldName? (text "Content-Length: " ++ value) =
      some (text "content-length") := fun value =>
    (fieldName?_append (i := 13) (by decide +kernel) _).trans (by decide +kernel)
  have hcloseName : fieldName? (text "Connection: close") = some (text "connection") := by
    decide +kernel
  have hasked : lowerAscii (text "X-Gateway-Token") = text "x-gateway-token" ∧
      lowerAscii (text "Authorization") = text "authorization" := by decide +kernel
  have hdistinct : ∀ name ∈ ["host", "accept"], text name ≠ text "x-gateway-token" := by
    decide +kernel
  have hother : ∀ name ∈ ["host", "accept", "x-gateway-token", "content-type", "content-length",
      "connection"], text name ≠ text "authorization" := by
    decide +kernel
  simp only [List.mem_cons, List.not_mem_nil, or_false, forall_eq_or_imp, forall_eq]
    at hdistinct hother
  constructor
  · have hfind : ((client.requestLines method path body).drop 1).find? (fun line =>
        fieldName? line = some (lowerAscii (text "X-Gateway-Token"))) =
        some (text "X-Gateway-Token: " ++ client.gatewayToken) := by
      rw [requestLines]
      simp [hhostName, hacceptName, htokenName, hasked, hdistinct]
    have hvalue := trimmed_cons_blank (by decide : isBlank 32 = true) client.gatewayToken
    rw [← htokenValue] at hvalue
    rw [headerGet, hlines, hfind]
    exact hvalue
  · have hfind : ((client.requestLines method path body).drop 1).find? (fun line =>
        fieldName? line = some (lowerAscii (text "Authorization"))) = none := by
      rw [requestLines]
      split
      · simp [hhostName, hacceptName, htokenName, htypeName, hlengthName, hcloseName,
          hasked, hother]
      · simp [hhostName, hacceptName, htokenName, hcloseName, hasked, hother]
    rw [headerGet, hlines, hfind]

end ControlPlaneClient

namespace App

open ControlPlaneClient NetHttp

/-- A request that `net/http` has read from the bytes of a connection, as far as
the guards look at it. -/
def HttpRequest.ReadFrom (r : HttpRequest) (bytes : Bytes) : Prop :=
  r.authorization = headerGet bytes "Authorization" ∧
    r.gatewayToken = headerGet bytes "X-Gateway-Token"

instance (r : HttpRequest) (bytes : Bytes) : Decidable (r.ReadFrom bytes) :=
  inferInstanceAs (Decidable (_ ∧ _))

/-- A token that both services accept is let through exactly when it has no
blank at its ends. -/
theorem handshake {strings : Strings} (hstrings : strings.Documented)
    (gatewayEnviron planeEnviron : Environment)
    (hshared : gatewayEnviron "GATEWAY_SHARED_TOKEN" = planeEnviron "GATEWAY_SHARED_TOKEN")
    {startup : StartupConfig}
    (hstartup : StartupConfig.parseStartupConfig gatewayEnviron = .ok startup)
    {client : ControlPlaneClient}
    (hclient : ControlPlaneClient.create startup.controlPlaneHost startup.controlPlanePort
      startup.controlPlaneTimeoutMs startup.gatewayToken = .ok client)
    {config : ApplicationConfig}
    (hconfig : loadApplicationConfigFromEnv strings planeEnviron = .ok config)
    (henvironment : config.environment ≠ appEnvDevelopment)
    (b : StoreBackend) (platform : Platform) (policy : AuthFailurePolicy) (body : Bytes) :
    (∀ r : HttpRequest, r.ReadFrom (client.requestBytes (text "POST") (text "/auth/check") body) →
      ((routesWithConfig b platform config policy).requireGateway r .authCheck = .authCheck ↔
        ¬ Padded startup.gatewayToken)) ∧
    (∀ r : HttpRequest, r.ReadFrom (client.requestBytes (text "GET") (text "/config") []) →
      ((routesWithConfig b platform config policy).requireAdminOrGateway r .configGet = .configGet ↔
        ¬ Padded startup.gatewayToken)) := by
  obtain ⟨hadmin, hgateway⟩ := loaded_secrets hstrings hconfig henvironment
  obtain ⟨hstored, hhost, htoken⟩ := create_eq_ok hclient
  have hsame : startup.gatewayToken = config.gatewayToken := by
    rw [StartupConfig.parseStartupConfig_gatewayToken hstartup, loaded_gatewayToken hconfig,
      hshared, getenv]
  -- what a request carries, for the two requests of the gateway
  have hcarried : ∀ {method path : Bytes} {r : HttpRequest}, 13 ∉ method → 13 ∉ path →
      ∀ body, r.ReadFrom (client.requestBytes method path body) →
        r.authorization = [] ∧ ((routesWithConfig b platform config policy).gatewayOk r = true ↔
          ¬ Padded startup.gatewayToken) := by
    intro method path r hmethod hpath body hread
    obtain ⟨hvalue, hauthorization⟩ := headerGet_requestBytes hhost htoken hmethod hpath body
    refine ⟨hread.1.trans hauthorization, ?_⟩
    rw [gatewayOk_iff hgateway, hread.2, hvalue, hstored, ← trimmed_eq_self, hsame]
    rfl
  constructor
  · intro r hread
    obtain ⟨-, hok⟩ := hcarried (by decide +kernel) (by decide +kernel) body hread
    rw [← hok, Application.requireGateway]
    cases (routesWithConfig b platform config policy).gatewayOk r <;> simp
  · intro r hread
    obtain ⟨hauthorization, hok⟩ := hcarried (by decide +kernel) (by decide +kernel) [] hread
    have hbearer : secureBearerEqual r.authorization
        (routesWithConfig b platform config policy).adminToken = false := by
      refine Bool.eq_false_iff.mpr fun heq => ?_
      have hheader := (secureBearerEqual_iff hadmin).mp heq
      rw [hauthorization] at hheader
      exact absurd hheader.symm (List.append_ne_nil_of_left_ne_nil (by decide +kernel) _)
    rw [← hok, Application.requireAdminOrGateway, hbearer]
    cases (routesWithConfig b platform config policy).gatewayOk r <;> simp

namespace Sample

def gatewayClient (gatewayToken : String) : ControlPlaneClient :=
  ⟨text "127.0.0.1", 8080, 1000, text gatewayToken⟩

/-- A request as the control plane sees it. -/
def gatewayRequest (gatewayToken : String) : HttpRequest where
  method := .post
  path := .authCheck
  gatewayToken := text gatewayToken

end Sample

theorem handshake_secret :
    (routesWithConfig .memory Sample.plainPlatform (Sample.sharedConfig "gateway-secret")
      Sample.oneFailure).requireGateway (Sample.gatewayRequest "gateway-secret") .authCheck =
      .authCheck := by
  have hstrings : Sample.asciiStrings.Documented := rfl
  have hstartup : StartupConfig.parseStartupConfig (Sample.secrets "gateway-secret") =
      .ok { gatewayToken := text "gateway-secret" } := by decide +kernel
  have hclient : create (text "127.0.0.1") 8080 1000 (text "gateway-secret") =
      .ok (Sample.gatewayClient "gateway-secret") := by decide +kernel
  have hconfig : loadApplicationConfigFromEnv Sample.asciiStrings
      (Sample.secrets "gateway-secret") = .ok (Sample.sharedConfig "gateway-secret") := by
    decide +kernel
  have hread : (Sample.gatewayRequest "gateway-secret").ReadFrom
      ((Sample.gatewayClient "gateway-secret").requestBytes (text "POST") (text "/auth/check")
        []) := by decide +kernel
  exact ((handshake hstrings _ _ rfl hstartup hclient hconfig (by decide +kernel) .memory
    Sample.plainPlatform Sample.oneFailure []).1 _ hread).mpr (by decide +kernel)

/-- A blank behind the token: both services start, and the gateway is refused. -/
theorem handshake_padded :
    StartupConfig.parseStartupConfig (Sample.secrets "gateway-secret ") =
        .ok { gatewayToken := text "gateway-secret " } ∧
      create (text "127.0.0.1") 8080 1000 (text "gateway-secret ") =
        .ok (Sample.gatewayClient "gateway-secret ") ∧
      loadApplicationConfigFromEnv Sample.asciiStrings (Sample.secrets "gateway-secret ") =
        .ok (Sample.sharedConfig "gateway-secret ") ∧
      (Sample.gatewayRequest "gateway-secret").ReadFrom
        ((Sample.gatewayClient "gateway-secret ").requestBytes (text "POST") (text "/auth/check")
          []) ∧
      (routesWithConfig .memory Sample.plainPlatform (Sample.sharedConfig "gateway-secret ")
        Sample.oneFailure).requireGateway (Sample.gatewayRequest "gateway-secret") .authCheck ≠
        .authCheck := by
  decide +kernel

end App

end GatewaySystem
