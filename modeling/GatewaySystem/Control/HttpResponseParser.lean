import GatewaySystem.Lib.Decimal
import GatewaySystem.Lib.Search
import GatewaySystem.Protocol.Message
import Mathlib.Data.List.DropRight

/-!
# Parsing the replies of the control plane

`HttpResponseParser` is fed the bytes of one HTTP reply as they arrive. It waits
for the blank line, reads the status line and the header fields once, and then
waits for exactly as many body bytes as `Content-Length` says.

The parser computes positions in `size_t`. A sum, difference or product that
leaves the 64-bit range is not wrapped here but ends the computation with
`Exit.overflow`, so that its absence can be stated. The other exit is a call of
`fail`; the members that a failed parse leaves behind are never read again.
-/

namespace GatewaySystem

inductive HttpError where
  | none
  | resolveFailed
  | deadlineExceeded
  | connectFailed
  | sendFailed
  | receiveFailed
  | headerTooLarge
  | bodyTooLarge
  | malformedResponse
  | missingContentLength
  | duplicateContentLength
  | unsupportedTransferEncoding
  | prematureEof
  | httpStatusError
  | invalidJson
  deriving DecidableEq, Repr

structure HttpResult where
  error : HttpError := .none
  statusCode : ℕ := 0
  body : Bytes := []
  deriving DecidableEq, Repr

def HttpResult.ok (result : HttpResult) : Bool :=
  result.error = .none ∧ 200 ≤ result.statusCode ∧ result.statusCode < 300

namespace HttpResponseParser

def maxHeaderBytes : ℕ := 16 * 1024

def maxBodyBytes : ℕ := 1024 * 1024

def crlf : Bytes := [13, 10]

/-- How a function of the parser is left before its end. -/
inductive Exit where
  /-- An operation on `size_t` left its range. -/
  | overflow
  /-- `fail`. -/
  | fail (error : HttpError) (statusCode : ℕ)
  deriving DecidableEq

def addSize (a b : ℕ) : Except Exit ℕ :=
  if a + b < 2 ^ 64 then .ok (a + b) else .error .overflow

def subSize (a b : ℕ) : Except Exit ℕ :=
  if b ≤ a then .ok (a - b) else .error .overflow

def mulSize (a b : ℕ) : Except Exit ℕ :=
  if a * b < 2 ^ 64 then .ok (a * b) else .error .overflow

/-! ### Header fields -/

def isBlank (byte : UInt8) : Bool := byte = 32 ∨ byte = 9

/-- The first loop of `trimAsciiWhitespace`. -/
def skipBlanks (value : Bytes) : ℕ → ℕ → Except Exit ℕ
  | 0, first => .ok first
  | fuel + 1, first =>
      if first < value.length ∧ isBlank (value.getD first 0) then do
        let next ← addSize first 1
        skipBlanks value fuel next
      else .ok first

/-- The second loop of `trimAsciiWhitespace`. -/
def dropBlanks (value : Bytes) (first : ℕ) : ℕ → ℕ
  | 0 => 0
  | last + 1 =>
      if first < last + 1 ∧ isBlank (value.getD last 0) then dropBlanks value first last
      else last + 1

def trimAsciiWhitespace (value : Bytes) : Except Exit Bytes := do
  let first ← skipBlanks value value.length 0
  let count ← subSize (dropBlanks value first value.length) first
  return (value.drop first).take count

def lowerAscii (value : Bytes) : Bytes :=
  value.map fun byte => if 65 ≤ byte ∧ byte ≤ 90 then byte + 32 else byte

/-- The loop of `parseContentLength` over the characters; `none` is its answer
`false`. The first digit that takes the number above the limit ends it. -/
def readLength : ℕ → Bytes → Except Exit (Option ℕ)
  | parsed, [] => .ok (some parsed)
  | parsed, character :: characters =>
      if character < 48 ∨ 57 < character then .ok none
      else do
        let digit := character.toNat - 48
        let room ← subSize maxBodyBytes digit
        if room / 10 < parsed then return some (maxBodyBytes + 1)
        else
          let tens ← mulSize parsed 10
          let next ← addSize tens digit
          readLength next characters

def parseContentLength (rawValue : Bytes) : Except Exit (Option ℕ) := do
  let trimmed ← trimAsciiWhitespace rawValue
  if trimmed = [] then return none else readLength 0 trimmed

/-- What the loop over the header lines keeps. -/
structure Fields where
  contentLength : Option ℕ := none
  hasTransferEncoding : Bool := false
  deriving DecidableEq

/-- What the loop over the header lines does with a name and a value. -/
def readNamed (statusCode : ℕ) (fields : Fields) (name value : Bytes) : Except Exit Fields :=
  if name = text "content-length" then
    if fields.contentLength.isSome then .error (.fail .duplicateContentLength statusCode)
    else do
      match ← parseContentLength value with
      | none => .error (.fail .malformedResponse statusCode)
      | some parsed =>
          if maxBodyBytes < parsed then .error (.fail .bodyTooLarge statusCode)
          else return { fields with contentLength := some parsed }
  else if name = text "transfer-encoding" then
    .ok { fields with hasTransferEncoding := true }
  else if name = text "upgrade" ∨ name = text "content-encoding" then
    .error (.fail .malformedResponse statusCode)
  else .ok fields

/-- The body of the loop over the header lines, for one line. -/
def readField (statusCode : ℕ) (fields : Fields) (line : Bytes) : Except Exit Fields :=
  match Search.find (text ":") line with
  | none => .error (.fail .malformedResponse statusCode)
  | some 0 => .error (.fail .malformedResponse statusCode)
  | some separator => do
      let start ← addSize separator 1
      readNamed statusCode fields (lowerAscii (line.take separator)) (line.drop start)

/-- The loop over the header lines from a position. -/
def readFields (received : Bytes) (headerEnd statusCode : ℕ) :
    ℕ → ℕ → Fields → Except Exit Fields
  | 0, _, fields => .ok fields
  | fuel + 1, cursor, fields =>
      if cursor < headerEnd then do
        let lineEnd :=
          match Search.findFrom crlf received cursor with
          | none => headerEnd
          | some lineEnd => if headerEnd < lineEnd then headerEnd else lineEnd
        if lineEnd = cursor then .error (.fail .malformedResponse statusCode)
        else
          let count ← subSize lineEnd cursor
          let fields ← readField statusCode fields ((received.drop cursor).take count)
          let next ← addSize lineEnd 2
          readFields received headerEnd statusCode fuel next fields
      else .ok fields

/-- The tests on the status line and the code it carries. A `char` above 127 is
negative and fails the first comparison of its pair instead of the second. -/
def readStatusLine (line : Bytes) : Option ℕ :=
  if line.length < 12 ∨
      (line.take 8 ≠ text "HTTP/1.0" ∧ line.take 8 ≠ text "HTTP/1.1") ∨
      line.getD 8 0 ≠ 32 ∨
      line.getD 9 0 < 49 ∨ 53 < line.getD 9 0 ∨
      line.getD 10 0 < 48 ∨ 57 < line.getD 10 0 ∨
      line.getD 11 0 < 48 ∨ 57 < line.getD 11 0 ∨
      (12 < line.length ∧ line.getD 12 0 ≠ 32) then none
  else some (((line.getD 9 0).toNat - 48) * 100 + ((line.getD 10 0).toNat - 48) * 10 +
    ((line.getD 11 0).toNat - 48))

/-- The tests behind the loop over the header lines. -/
def concludeFields (statusCode : ℕ) (fields : Fields) : Except Exit (ℕ × ℕ) :=
  match fields.hasTransferEncoding, fields.contentLength with
  | true, some _ => .error (.fail .malformedResponse statusCode)
  | true, none => .error (.fail .unsupportedTransferEncoding statusCode)
  | false, none => .error (.fail .missingContentLength statusCode)
  | false, some length => .ok (statusCode, length)

end HttpResponseParser

structure HttpResponseParser where
  received : Bytes := []
  contentLength : Option ℕ := none
  bodyOffset : ℕ := 0
  statusCode : ℕ := 0
  headersParsed : Bool := false
  done : Bool := false
  result : HttpResult := {}
  deriving DecidableEq

namespace HttpResponseParser

/-- `parseHeaders`: the status code and the body length, unless it fails. -/
def parseHeaders (parser : HttpResponseParser) (headerEnd : ℕ) : Except Exit (ℕ × ℕ) :=
  match Search.find crlf parser.received with
  | none => .error (.fail .malformedResponse 0)
  | some statusEnd =>
      if headerEnd ≤ statusEnd then .error (.fail .malformedResponse 0)
      else
        match readStatusLine (parser.received.take statusEnd) with
        | none => .error (.fail .malformedResponse 0)
        | some statusCode => do
            let cursor ← addSize statusEnd 2
            let fields ← readFields parser.received headerEnd statusCode (headerEnd + 1) cursor
              ⟨parser.contentLength, false⟩
            concludeFields statusCode fields

def fail (parser : HttpResponseParser) (error : HttpError) (statusCode : ℕ := 0) :
    HttpResponseParser :=
  { parser with result := ⟨error, statusCode, []⟩, done := true }

/-- `finishBodyIfComplete`; `none` is an overflow. -/
def finishBodyIfComplete (parser : HttpResponseParser) : Option HttpResponseParser :=
  match subSize parser.received.length parser.bodyOffset with
  | .error _ => none
  | .ok bodyBytes =>
      let length := parser.contentLength.getD 0
      if length < bodyBytes then some (parser.fail .malformedResponse parser.statusCode)
      else if bodyBytes < length then some parser
      else some { parser with
        result := ⟨if parser.statusCode < 200 ∨ 300 ≤ parser.statusCode then .httpStatusError
          else parser.result.error, parser.statusCode,
          (parser.received.drop parser.bodyOffset).take length⟩
        done := true }

/-- `consume`; `none` is an overflow. -/
def consume (parser : HttpResponseParser) (chunk : Bytes) : Option HttpResponseParser :=
  if parser.done then some parser
  else
    let parser := { parser with received := parser.received ++ chunk }
    if parser.headersParsed then parser.finishBodyIfComplete
    else
      match Search.find (crlf ++ crlf) parser.received with
      | none =>
          if maxHeaderBytes < parser.received.length then some (parser.fail .headerTooLarge)
          else some parser
      | some headerEnd =>
          match addSize headerEnd 4 with
          | .error _ => none
          | .ok bodyOffset =>
              if maxHeaderBytes < bodyOffset then some (parser.fail .headerTooLarge)
              else
                match parser.parseHeaders headerEnd with
                | .error .overflow => none
                | .error (.fail error statusCode) => some (parser.fail error statusCode)
                | .ok (statusCode, length) =>
                    finishBodyIfComplete { parser with
                      statusCode := statusCode
                      contentLength := some length
                      bodyOffset := bodyOffset
                      headersParsed := true }

def finishOnTransportError (parser : HttpResponseParser) (error : HttpError) :
    HttpResponseParser :=
  if parser.done then parser else parser.fail error parser.statusCode

def finishOnEof (parser : HttpResponseParser) : HttpResponseParser :=
  if parser.done then parser
  else parser.fail (if parser.headersParsed then .prematureEof else .malformedResponse)
    parser.statusCode

/-- One reply that arrived at once and was followed by the end of the stream. -/
def parse (reply : Bytes) : Option HttpResult :=
  (consume {} reply).map fun parser => parser.finishOnEof.result

end HttpResponseParser

end GatewaySystem
