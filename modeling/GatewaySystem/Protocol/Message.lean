import Mathlib.Data.Int.Notation
import Mathlib.Data.Nat.Notation

/-!
# Messages of the TCP protocol

A frame carries a version byte, a message type byte, a 64-bit request number
and a payload. The type byte is cast to the enumeration without a check, so a
value outside the named ones is representable and `MessageType.unknown` keeps
its code. A request and the response made for it share the descriptor, the
connection number, the version and the request number; `Tag` is that quadruple.

Connection numbers are natural numbers: the 64-bit counter `next_conn_id_`
does not wrap within a run.
-/

namespace GatewaySystem

/-- A byte string: the contents of a `std::string`. -/
abbrev Bytes := List UInt8

/-- Equality of byte strings is the test of their bytes. -/
instance Bytes.lawfulBEq : LawfulBEq Bytes := inferInstance

/-- The bytes of a text literal. -/
def text (s : String) : Bytes := s.toUTF8.data.toList

/-- A computation in two parts succeeds when both do. -/
theorem bind_eq_ok {ε α β : Type} {computation : Except ε α} {next : α → Except ε β} {result : β} :
    (computation >>= next) = .ok result ↔
      ∃ value, computation = .ok value ∧ next value = .ok result := by
  cases computation with
  | error _ => simp [bind, Except.bind]
  | ok value => simp [bind, Except.bind]

/-- A file descriptor. -/
abbrev Fd := Int

/-- The enumeration `MessageType` over its underlying byte. -/
inductive MessageType where
  | ping
  | echo
  | logPush
  | stats
  | pong
  | echoResp
  | errorResp
  | logAck
  | statsResp
  | auth
  | authResp
  | unknown (code : UInt8)
  deriving DecidableEq, Repr

namespace MessageType

/-- The underlying byte of a message type. -/
def code : MessageType → UInt8
  | ping => 1
  | echo => 2
  | logPush => 3
  | stats => 4
  | pong => 5
  | echoResp => 6
  | errorResp => 7
  | logAck => 8
  | statsResp => 9
  | auth => 10
  | authResp => 11
  | unknown code => code

/-- The cast from a byte to a message type. -/
def ofCode (byte : UInt8) : MessageType :=
  if byte = 1 then ping
  else if byte = 2 then echo
  else if byte = 3 then logPush
  else if byte = 4 then stats
  else if byte = 5 then pong
  else if byte = 6 then echoResp
  else if byte = 7 then errorResp
  else if byte = 8 then logAck
  else if byte = 9 then statsResp
  else if byte = 10 then auth
  else if byte = 11 then authResp
  else unknown byte

/-- Picking the value a byte was compared with, or else the byte, is the byte. -/
theorem ite_eq_byte {byte value other : UInt8} (h : other = byte) :
    (if byte = value then value else other) = byte := by
  by_cases heq : byte = value
  · rw [if_pos heq, heq]
  · rw [if_neg heq, h]

/-- Casting a byte to the enumeration and back loses nothing. -/
@[simp] theorem code_ofCode (byte : UInt8) : (ofCode byte).code = byte := by
  unfold ofCode
  repeat rw [apply_ite code]
  repeat apply ite_eq_byte
  rfl

end MessageType

/-- The identity of an accepted connection: its descriptor, which the kernel
reuses, and its number, which is never reused. -/
structure ConnectionKey where
  fd : Fd
  connId : ℕ
  deriving DecidableEq, Repr

/-- What a response repeats of its request. -/
structure Tag where
  key : ConnectionKey
  version : UInt8
  requestId : UInt64
  deriving DecidableEq, Repr

structure Request where
  fd : Fd
  connId : ℕ
  version : UInt8
  type : MessageType
  requestId : UInt64
  payload : Bytes
  deriving DecidableEq, Repr

structure Response where
  fd : Fd
  connId : ℕ
  version : UInt8
  type : MessageType
  requestId : UInt64
  statusCode : ℤ := 0
  payload : Bytes := []
  clientIdToAuthenticate : Option Bytes := none
  closeConnection : Bool := false
  skipWrite : Bool := false
  deriving DecidableEq, Repr

namespace Request

def key (request : Request) : ConnectionKey := ⟨request.fd, request.connId⟩

def tag (request : Request) : Tag := ⟨request.key, request.version, request.requestId⟩

/-- The response with the fields of its request filled in and the rest at
their initial values. -/
def respond (request : Request) (type : MessageType) : Response where
  fd := request.fd
  connId := request.connId
  version := request.version
  type := type
  requestId := request.requestId

end Request

namespace Response

def key (response : Response) : ConnectionKey := ⟨response.fd, response.connId⟩

def tag (response : Response) : Tag := ⟨response.key, response.version, response.requestId⟩

end Response

@[simp] theorem Request.tag_key (request : Request) : request.tag.key = request.key := rfl

@[simp] theorem Response.tag_key (response : Response) : response.tag.key = response.key := rfl

@[simp] theorem Request.respond_tag (request : Request) (type : MessageType) :
    (request.respond type).tag = request.tag := rfl

end GatewaySystem
