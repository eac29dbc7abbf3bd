import GatewaySystem.Lib.Decimal
import Mathlib.Logic.Function.Basic

/-!
# A key-value server with typed values

The commands of a Redis server on strings, hashes and sets. A key holds a value
of one type, and a command for another type fails without changing anything. A
key may carry a time from which on it counts as missing. A script is a
computation on the keyspace at one reading of the clock: nothing else happens
while it runs, and an error ends it where it is, with what it has written.

Times are in nanoseconds, `pexpire` takes milliseconds.
-/

namespace Redis

/-- The fields of a hash. -/
abbrev Hash := List UInt8 → Option (List UInt8)

inductive Value where
  | string (text : List UInt8)
  | hash (fields : Hash)
  | set (members : List (List UInt8))

structure Entry where
  value : Value
  expiresAt : Option ℤ := none

inductive Error where
  | wrongType
  | notInteger
  | overflow
  | script
  deriving DecidableEq, Repr

/-- Whether an entry still counts. -/
def Entry.live (now : ℤ) (entry : Entry) : Bool :=
  match entry.expiresAt with
  | none => true
  | some expiresAt => now < expiresAt

structure Keyspace where
  entry : List UInt8 → Option Entry

namespace Keyspace

def empty : Keyspace := ⟨fun _ => none⟩

/-- The entry under a key, unless its time is over. -/
def find? (k : Keyspace) (now : ℤ) (key : List UInt8) : Option Entry :=
  (k.entry key).filter (Entry.live now)

def set (k : Keyspace) (key : List UInt8) (entry : Option Entry) : Keyspace :=
  ⟨Function.update k.entry key entry⟩

/-- A new value under a key, which keeps its time. -/
def write (k : Keyspace) (now : ℤ) (key : List UInt8) (value : Value) : Keyspace :=
  k.set key (some ⟨value, (k.find? now key).bind Entry.expiresAt⟩)

@[simp] theorem entry_set_self (k : Keyspace) (key : List UInt8) (entry : Option Entry) :
    (k.set key entry).entry key = entry :=
  Function.update_self ..

theorem entry_set_of_ne (k : Keyspace) {key key' : List UInt8} (entry : Option Entry)
    (h : key' ≠ key) : (k.set key entry).entry key' = k.entry key' :=
  Function.update_of_ne h ..

variable {key : List UInt8} {k : Keyspace} {now : ℤ}

theorem find?_eq_some {entry : Entry} :
    k.find? now key = some entry ↔ k.entry key = some entry ∧ entry.live now = true :=
  Option.filter_eq_some_iff

/-- A key without a time is found whenever it is there. -/
theorem find?_of_permanent {value : Value} (h : k.entry key = some ⟨value, none⟩) :
    k.find? now key = some ⟨value, none⟩ :=
  find?_eq_some.mpr ⟨h, rfl⟩

theorem find?_of_missing (h : k.entry key = none) : k.find? now key = none := by
  rw [find?, h]
  rfl

theorem write_missing (h : k.find? now key = none) (value : Value) :
    k.write now key value = k.set key (some ⟨value, none⟩) := by
  rw [write, h]
  rfl

theorem write_found {entry : Entry} (h : k.find? now key = some entry) (value : Value) :
    k.write now key value = k.set key (some ⟨value, entry.expiresAt⟩) := by
  rw [write, h]
  rfl

end Keyspace

/-- What a script does at a reading of the clock. -/
def Script (α : Type) := ℤ → Keyspace → Except Error α × Keyspace

namespace Script

instance : Monad Script where
  pure a := fun _ k => (.ok a, k)
  bind script next := fun now k =>
    match script now k with
    | (.ok a, k') => next a now k'
    | (.error error, k') => (.error error, k')

variable {α β : Type} {script : Script α} {next : α → Script β} {now : ℤ} {k k' : Keyspace}

@[simp] theorem pure_apply (a : α) : (pure a : Script α) now k = (.ok a, k) := rfl

theorem bind_ok {a : α} (h : script now k = (.ok a, k')) :
    (script >>= next) now k = next a now k' := by
  simp only [bind, h]

theorem bind_error {error : Error} (h : script now k = (.error error, k')) :
    (script >>= next) now k = (.error error, k') := by
  simp only [bind, h]

end Script

/-- An error of the script. -/
def fail {α : Type} (error : Error) : Script α := fun _ k => (.error error, k)

/-- A new value under a key. -/
def put (key : List UInt8) (value : Value) : Script Unit := fun now k =>
  (.ok (), k.write now key value)

def existsKey (key : List UInt8) : Script Bool := fun now k => (.ok (k.find? now key).isSome, k)

def del (key : List UInt8) : Script Unit := fun _ k => (.ok (), k.set key none)

/-- The string under a key. -/
def get (key : List UInt8) : Script (Option (List UInt8)) := fun now k =>
  match k.find? now key with
  | none => (.ok none, k)
  | some ⟨.string text, _⟩ => (.ok (some text), k)
  | some _ => (.error .wrongType, k)

/-- The hash under a key. -/
def hgetall (key : List UInt8) : Script (Option Hash) := fun now k =>
  match k.find? now key with
  | none => (.ok none, k)
  | some ⟨.hash fields, _⟩ => (.ok (some fields), k)
  | some _ => (.error .wrongType, k)

/-- The members of the set under a key. -/
def smembers (key : List UInt8) : Script (List (List UInt8)) := fun now k =>
  match k.find? now key with
  | none => (.ok [], k)
  | some ⟨.set members, _⟩ => (.ok members, k)
  | some _ => (.error .wrongType, k)

def hget (key field : List UInt8) : Script (Option (List UInt8)) := do
  let fields? ← hgetall key
  return fields?.bind fun fields => fields field

def hmget (key : List UInt8) (names : List (List UInt8)) :
    Script (List (Option (List UInt8))) := do
  let fields? ← hgetall key
  return names.map fun name => fields?.bind fun fields => fields name

/-- A hash with some fields set. -/
def Hash.assign (fields : Hash) (values : List (List UInt8 × List UInt8)) : Hash :=
  values.foldl (fun fields value => Function.update fields value.1 (some value.2)) fields

def hset (key : List UInt8) (values : List (List UInt8 × List UInt8)) : Script Unit := do
  let fields? ← hgetall key
  put key (.hash (Hash.assign (fields?.getD fun _ => none) values))

def hsetnx (key field value : List UInt8) : Script Unit := do
  let fields? ← hgetall key
  if ((fields?.getD fun _ => none) field).isSome then return ()
  else put key (.hash (Hash.assign (fields?.getD fun _ => none) [(field, value)]))

def sadd (key member : List UInt8) : Script Unit := do
  let members ← smembers key
  put key (.set (members.insert member))

/-- The largest integer of a counter. -/
def int64Max : ℤ := 9223372036854775807

def incr (key : List UInt8) : Script ℤ := do
  match ← get key with
  | none => do
      put key (.string (Decimal.format 1))
      return 1
  | some text =>
      match Decimal.parse text with
      | none => fail .notInteger
      | some count =>
          if int64Max ≤ count then fail .overflow
          else do
            put key (.string (Decimal.format (count + 1)))
            return count + 1

/-- The time of a key; a key whose time is over counts as missing at once. -/
def pexpire (key : List UInt8) (milliseconds : ℤ) : Script Unit := fun now k =>
  match k.find? now key with
  | none => (.ok (), k)
  | some entry =>
      (.ok (), k.set key (some { entry with expiresAt := some (now + milliseconds * 1000000) }))

section Commands

variable {key : List UInt8} {now : ℤ} {k : Keyspace} {expiresAt : Option ℤ}
  {members : List (List UInt8)} {fields? : Option Hash} {values : List (List UInt8 × List UInt8)}

theorem existsKey_eq (key : List UInt8) (now : ℤ) (k : Keyspace) :
    existsKey key now k = (.ok (k.find? now key).isSome, k) := rfl

theorem hgetall_missing (h : k.find? now key = none) : hgetall key now k = (.ok none, k) := by
  simp only [hgetall, h]

theorem hgetall_hash {fields : Hash} (h : k.find? now key = some ⟨.hash fields, expiresAt⟩) :
    hgetall key now k = (.ok (some fields), k) := by
  simp only [hgetall, h]

theorem hgetall_set (h : k.find? now key = some ⟨.set members, expiresAt⟩) :
    hgetall key now k = (.error .wrongType, k) := by
  simp only [hgetall, h]

theorem hget_of_hgetall (h : hgetall key now k = (.ok fields?, k)) (field : List UInt8) :
    hget key field now k = (.ok (fields?.bind fun fields => fields field), k) :=
  Script.bind_ok h

theorem hmget_of_hgetall (h : hgetall key now k = (.ok fields?, k)) (names : List (List UInt8)) :
    hmget key names now k =
      (.ok (names.map fun name => fields?.bind fun fields => fields name), k) :=
  Script.bind_ok h

/-- What is assigned does not depend on the fields it sets. -/
theorem Hash.assign_congr {fields fields' : Hash}
    (h : ∀ name, name ∉ values.map Prod.fst → fields name = fields' name) :
    Hash.assign fields values = Hash.assign fields' values := by
  induction values generalizing fields fields' with
  | nil => exact funext fun name => h name List.not_mem_nil
  | cons value values ih =>
      refine ih fun name hname => ?_
      by_cases heq : name = value.1
      · simp only [heq, Function.update_self]
      · simp only [Function.update_of_ne heq]
        exact h name (by simpa [heq] using hname)

theorem Hash.assign_of_notMem {name : List UInt8} (h : name ∉ values.map Prod.fst) (fields : Hash) :
    Hash.assign fields values name = fields name := by
  induction values generalizing fields with
  | nil => rfl
  | cons value values ih =>
      rw [List.map_cons, List.mem_cons, not_or] at h
      exact (ih h.2 _).trans (Function.update_of_ne h.1 ..)

/-- Fields that are all set again leave no trace. -/
theorem Hash.assign_assign {old new : List (List UInt8 × List UInt8)}
    (h : old.map Prod.fst ⊆ new.map Prod.fst) (fields : Hash) :
    Hash.assign (Hash.assign fields old) new = Hash.assign fields new :=
  Hash.assign_congr fun _ hname => Hash.assign_of_notMem (fun hold => hname (h hold)) fields

theorem hset_of_hgetall (h : hgetall key now k = (.ok fields?, k))
    (values : List (List UInt8 × List UInt8)) :
    hset key values now k =
      (.ok (), k.write now key (.hash (Hash.assign (fields?.getD fun _ => none) values))) :=
  Script.bind_ok h

theorem hsetnx_present {fields : Hash} {field : List UInt8}
    (h : hgetall key now k = (.ok (some fields), k)) (hfield : (fields field).isSome = true)
    (value : List UInt8) : hsetnx key field value now k = (.ok (), k) := by
  rw [hsetnx, Script.bind_ok h]
  simp [hfield]

/-- A set without a time. An empty set is a missing key. -/
def Keyspace.HoldsSet (k : Keyspace) (key : List UInt8) (members : List (List UInt8)) : Prop :=
  k.entry key = if members = [] then none else some ⟨.set members, none⟩

theorem smembers_of_holdsSet (h : k.HoldsSet key members) :
    smembers key now k = (.ok members, k) := by
  unfold Keyspace.HoldsSet at h
  split at h
  · next hempty => simp only [smembers, Keyspace.find?_of_missing h, hempty]
  · simp only [smembers, Keyspace.find?_of_permanent h]

theorem sadd_of_holdsSet (h : k.HoldsSet key members) (member : List UInt8) :
    sadd key member now k =
      (.ok (), k.set key (some ⟨.set (members.insert member), none⟩)) := by
  rw [sadd, Script.bind_ok (smembers_of_holdsSet h)]
  show (Except.ok (), k.write now key _) = _
  unfold Keyspace.HoldsSet at h
  split at h
  · rw [Keyspace.write_missing (Keyspace.find?_of_missing h)]
  · rw [Keyspace.write_found (Keyspace.find?_of_permanent h)]

theorem get_missing (h : k.find? now key = none) : get key now k = (.ok none, k) := by
  simp only [get, h]

theorem get_string {text : List UInt8} (h : k.find? now key = some ⟨.string text, expiresAt⟩) :
    get key now k = (.ok (some text), k) := by
  simp only [get, h]

theorem incr_missing (h : k.find? now key = none) :
    incr key now k = (.ok 1, k.set key (some ⟨.string (Decimal.format 1), none⟩)) := by
  rw [incr, Script.bind_ok (get_missing h), ← Keyspace.write_missing h]
  rfl

theorem incr_counter {count : ℤ}
    (h : k.find? now key = some ⟨.string (Decimal.format count), expiresAt⟩)
    (hcount : count < int64Max) :
    incr key now k =
      (.ok (count + 1), k.set key (some ⟨.string (Decimal.format (count + 1)), expiresAt⟩)) := by
  rw [incr, Script.bind_ok (get_string h)]
  simp only [Decimal.parse_format, if_neg (not_le.mpr hcount)]
  show (Except.ok (count + 1), k.write now key _) = _
  rw [Keyspace.write_found h]

theorem incr_full {count : ℤ}
    (h : k.find? now key = some ⟨.string (Decimal.format count), expiresAt⟩)
    (hcount : int64Max ≤ count) : incr key now k = (.error .overflow, k) := by
  rw [incr, Script.bind_ok (get_string h)]
  simp only [Decimal.parse_format, if_pos hcount]
  rfl

theorem pexpire_found {entry : Entry} (h : k.find? now key = some entry) (milliseconds : ℤ) :
    pexpire key milliseconds now k =
      (.ok (), k.set key
        (some { entry with expiresAt := some (now + milliseconds * 1000000) })) := by
  simp only [pexpire, h]

end Commands

end Redis
