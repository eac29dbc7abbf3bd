import Mathlib.Data.Nat.Notation
import Mathlib.Data.Int.Notation

/-!
# JSON documents

The value type a JSON library hands to its caller. Numbers are split the way a
reader sees them: a non-negative integer of the unsigned type, a negative one of
the signed type, or a floating value, which only its literal identifies here.
An object lists its members in order; the last member of a name wins.

A library is its two functions between texts and values. A reader either
returns a value or fails, and a text that is no JSON at all is told apart from
one whose numbers leave the range of every number type.
-/

/-- A JSON value over byte strings. -/
inductive Json where
  | null
  | bool (value : Bool)
  | unsigned (value : ℕ)
  | integer (value : ℤ)
  | float (literal : List UInt8)
  | string (value : List UInt8)
  | array (items : List Json)
  | object (members : List (List UInt8 × Json))

namespace Json

inductive Error where
  | parse
  | outOfRange
  deriving DecidableEq, Repr

/-- A reader and a writer of JSON texts. -/
structure Library where
  parse : List UInt8 → Except Error Json
  dump : Json → List UInt8

/-- The member of an object with the given name; `none` for a value that is no
object and for a name that does not occur. -/
def member? (name : List UInt8) : Json → Option Json
  | object members => (members.reverse.find? fun entry => entry.1 = name).map Prod.snd
  | _ => none

/-- The contents of a string value. -/
def string? : Json → Option (List UInt8)
  | string value => some value
  | _ => none

/-- An integer as a reader sees it. -/
def ofInt (n : ℤ) : Json := if 0 ≤ n then unsigned n.toNat else integer n

/-- The value of a boolean. -/
def bool? : Json → Option Bool
  | bool value => some value
  | _ => none

end Json
