import GatewaySystem.App.Store
import Mathlib.Data.List.AList
import Mathlib.Data.List.Lex
import Mathlib.Data.List.Sort
import Mathlib.Data.UInt

/-!
# The memory store

The maps of `memoryStore` and its methods. Each method runs under the lock.
-/

namespace GatewaySystem

namespace App

structure MemoryAuthFailure where
  count : ℤ
  expiresAt : ℤ
  deriving DecidableEq, Repr

structure MemoryStore where
  tokens : AList fun _ : Bytes => TokenRecord
  authFailures : Bytes → Option MemoryAuthFailure
  config : RuntimeConfig

/-- `newMemoryStore`. -/
def newMemoryStore : MemoryStore where
  tokens := ∅
  authFailures := fun _ => none
  config := defaultRuntimeConfig

namespace MemoryStore

def verifyDigest (clientId digest : Bytes) : Access MemoryStore TokenAuthDecision := fun _ s =>
  match s.tokens.lookup clientId with
  | none => (.ok .invalid, s)
  | some record =>
      if record.disabled then (.ok .disabled, s)
      else if !digestEqual record.digest digest then (.ok .invalid, s)
      else (.ok .allowed, s)

def authFailureLimited (clientId : Bytes) (limit : ℤ) : Access MemoryStore Bool := fun now s =>
  match s.authFailures clientId with
  | none => (.ok false, s)
  | some counter =>
      if now < counter.expiresAt then (.ok (decide (limit ≤ counter.count)), s)
      else (.ok false, { s with authFailures := Function.update s.authFailures clientId none })

/-- The counter that a failure adds to. -/
def failureBase (s : MemoryStore) (clientId : Bytes) (window now : ℤ) : MemoryAuthFailure :=
  match s.authFailures clientId with
  | none => { count := 0, expiresAt := now + window }
  | some counter =>
      if now < counter.expiresAt then counter else { count := 0, expiresAt := now + window }

def recordAuthFailure (clientId : Bytes) (window : ℤ) : Access MemoryStore ℤ := fun now s =>
  let counter := s.failureBase clientId window now
  let counter := { counter with count := wrapInt64 (counter.count + 1) }
  (.ok counter.count,
    { s with authFailures := Function.update s.authFailures clientId (some counter) })

def clearAuthFailures (clientId : Bytes) : Access MemoryStore Unit := fun _ s =>
  (.ok (), { s with authFailures := Function.update s.authFailures clientId none })

def createToken (record : TokenRecord) : Access MemoryStore Unit := fun _ s =>
  match s.tokens.lookup record.clientId with
  | some _ => (.error .tokenExists, s)
  | none => (.ok (), { s with tokens := s.tokens.insert record.clientId record })

def rotateToken (clientId : Bytes) (expected : ℤ) (digest updatedAt : Bytes) :
    Access MemoryStore TokenRecord := fun _ s =>
  match s.tokens.lookup clientId with
  | none => (.error .tokenNotFound, s)
  | some record =>
      if record.generation ≠ expected then (.error .tokenConflict, s)
      else
        let record :=
          { record with
            generation := wrapInt64 (record.generation + 1)
            digest := digest
            updatedAt := updatedAt
            disabled := false }
        (.ok record, { s with tokens := s.tokens.insert clientId record })

def disableToken (clientId updatedAt : Bytes) : Access MemoryStore Unit := fun _ s =>
  match s.tokens.lookup clientId with
  | none => (.error .tokenNotFound, s)
  | some record =>
      (.ok (), { s with
        tokens := s.tokens.insert clientId
          { record with disabled := true, updatedAt := updatedAt } })

/-- The entries in the order of their names. -/
def entries (s : MemoryStore) : List TokenEntry :=
  (s.tokens.entries.map fun entry => entry.2.toTokenEntry).insertionSort
    fun left right => left.clientId ≤ right.clientId

def listTokens : Access MemoryStore (List TokenEntry) := fun _ s => (.ok s.entries, s)

def getConfig : Access MemoryStore RuntimeConfig := fun _ s => (.ok s.config, s)

def updateConfig (platform : Platform) (expected : ℤ) (req : ConfigUpdateRequest) :
    Access MemoryStore RuntimeConfig := fun _ s =>
  if s.config.version ≠ expected then (.error .configConflict, s)
  else
    let config := s.config.updated platform req
    (.ok config, { s with config := config })

end MemoryStore

def memoryStore (platform : Platform) : Store MemoryStore where
  remote := false
  ping := none
  verifyDigest := MemoryStore.verifyDigest
  authFailureLimited := MemoryStore.authFailureLimited
  recordAuthFailure := MemoryStore.recordAuthFailure
  clearAuthFailures := MemoryStore.clearAuthFailures
  createToken := MemoryStore.createToken
  rotateToken := MemoryStore.rotateToken
  disableToken := MemoryStore.disableToken
  listTokens := perform false MemoryStore.listTokens .listTokens
  getConfig := perform false MemoryStore.getConfig .getConfig
  updateConfig := MemoryStore.updateConfig platform

end App

end GatewaySystem
