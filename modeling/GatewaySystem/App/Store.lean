import GatewaySystem.App.Types
import GatewaySystem.Lib.Program

/-!
# The store of the control plane

`Store` is the interface the handlers use. An operation that is one access to
the store is a function of the clock and of the state (`Access`): a method of
the memory store runs under its lock, and a command or a script of the Redis
store is executed by the server as a whole. `listTokens` and `getConfig` may
take several accesses.

A handler runs in a `World`: the store, the last reading of the clock, and a
history of the accesses, newest first, that nothing reads. An access of a
remote store may end in an error, with or without having taken place.
-/

namespace GatewaySystem

namespace App

inductive StoreError where
  | tokenExists
  | tokenNotFound
  | tokenConflict
  | configConflict
  | deadlineExceeded
  | canceled
  | network
  | other
  deriving DecidableEq, Repr

/-- One access to a store at a reading of the clock. -/
abbrev Access (σ α : Type) := ℤ → σ → Except StoreError α × σ

/-- What an access did, with what it returned. -/
inductive Event where
  | ping
  | verifyDigest (clientId digest : Bytes) (result : Except StoreError TokenAuthDecision)
  | authFailureLimited (clientId : Bytes) (result : Except StoreError Bool)
  | recordAuthFailure (clientId : Bytes) (result : Except StoreError ℤ)
  | clearAuthFailures (clientId : Bytes) (result : Except StoreError Unit)
  | createToken (record : TokenRecord) (result : Except StoreError Unit)
  | rotateToken (clientId : Bytes) (expected : ℤ) (result : Except StoreError TokenRecord)
  | disableToken (clientId : Bytes) (result : Except StoreError Unit)
  | tokenIndex
  | listTokens (result : Except StoreError (List TokenEntry))
  | initConfig
  | getConfig (result : Except StoreError RuntimeConfig)
  | updateConfig (expected : ℤ) (req : ConfigUpdateRequest)
      (result : Except StoreError RuntimeConfig)
  deriving DecidableEq

/-- An access that took place: the store it met, when, and what it did. -/
structure Past (σ : Type) where
  store : σ
  now : ℤ
  event : Event

structure World (σ : Type) where
  store : σ
  now : ℤ
  history : List (Past σ) := []

inductive Fault where
  | none
  /-- The caller sees an error; the access may have taken place. -/
  | failed (error : StoreError) (executed : Bool)
  deriving DecidableEq

/-- What the surroundings supply at an access. -/
structure Choice where
  now : ℤ
  fault : Fault := .none
  /-- The token `generate` makes of random bytes, if there are any. -/
  entropy : Option Bytes := some []

/-- A request on the way through the control plane. -/
abbrev Task (σ α : Type) := Program (World σ) Choice α

namespace World

variable {σ α : Type}

/-- The world after an access. -/
def commit (w : World σ) (now : ℤ) (access : Access σ α)
    (event : Except StoreError α → Event) : World σ where
  store := (access now w.store).2
  now := now
  history := ⟨w.store, now, event (access now w.store).1⟩ :: w.history

/-- The result of an access and the world after it. -/
def perform (remote : Bool) (access : Access σ α) (event : Except StoreError α → Event)
    (choice : Choice) (w : World σ) : Except StoreError α × World σ :=
  match remote, choice.fault with
  | true, .failed error true => (.error error, w.commit choice.now access event)
  | true, .failed error false => (.error error, { w with now := choice.now })
  | _, _ => ((access choice.now w.store).1, w.commit choice.now access event)

theorem perform_none {remote : Bool} {access : Access σ α}
    {event : Except StoreError α → Event} {choice : Choice} (h : choice.fault = .none)
    (w : World σ) : perform remote access event choice w =
      ((access choice.now w.store).1, w.commit choice.now access event) := by
  unfold perform
  rw [h]
  cases remote <;> rfl

end World

/-- An access as a step of a task. -/
def perform {σ α : Type} (remote : Bool) (access : Access σ α)
    (event : Except StoreError α → Event) : Task σ (Except StoreError α) :=
  Program.atomic (World.perform remote access event)

/-- What the surroundings supply now. -/
def ask {σ : Type} : Task σ Choice :=
  Program.atomic fun choice w => (choice, { w with now := choice.now })

/-- `Store`. -/
structure Store (σ : Type) where
  /-- Whether an access can fail on the way. -/
  remote : Bool
  /-- `Ping`, where the store has one. -/
  ping : Option (Access σ Unit)
  verifyDigest : Bytes → Bytes → Access σ TokenAuthDecision
  authFailureLimited : Bytes → ℤ → Access σ Bool
  recordAuthFailure : Bytes → ℤ → Access σ ℤ
  clearAuthFailures : Bytes → Access σ Unit
  createToken : TokenRecord → Access σ Unit
  rotateToken : Bytes → ℤ → Bytes → Bytes → Access σ TokenRecord
  disableToken : Bytes → Bytes → Access σ Unit
  listTokens : Task σ (Except StoreError (List TokenEntry))
  getConfig : Task σ (Except StoreError RuntimeConfig)
  updateConfig : ℤ → ConfigUpdateRequest → Access σ RuntimeConfig

end App

end GatewaySystem
