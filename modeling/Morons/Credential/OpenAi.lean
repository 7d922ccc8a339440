import Morons.Credential.Format
import Morons.Credential.Records
import Morons.Library.Effect
import Morons.Provider.Bytes

/-!
# The OpenAI credential

The tokens of the OpenAI credential are kept in one file that is replaced as a
whole.  An access token that runs out is refreshed once for each revision: the
phase `dispatched` is saved before the refresh token is handed out, and it is
left for the tokens that came back or for a new login.
-/

namespace Morons.OpenAiCredential

open Attempt Effect Provider
open CredentialFormat (MutationMarker)

def maxSecret : Nat := 16 * 1024
def maxAccount : Nat := 128
def maxFile : Nat := 64 * 1024
def minLifetimeSeconds : Nat := 300
def digestBytes : Nat := 32

def invalid : PersistenceError :=
  .invalidState "OpenAI credential state is invalid or inconsistent"

/-- The code of other packages. -/
structure Packages where
  /-- `URL_SAFE_NO_PAD.decode_slice`. -/
  decodeBase64 : List Char → Option (List UInt8)
  parseStrictValue : List UInt8 → Option Json
  sha256 : List UInt8 → List UInt8
  sha256_length : ∀ bytes, (sha256 bytes).length = digestBytes

/-! ## Tokens -/

def validSecret (text : String) : Bool :=
  !text.isEmpty && decide (text.utf8ByteSize ≤ maxSecret) &&
    (bytesOf text).all fun b => decide (0x21 ≤ b) && decide (b ≤ 0x7e)

def isNameCharacter (c : Char) : Bool := c.isAlphanum || c = '-' || c = '_'

/-- The account and the expiry that an access token claims. -/
def accountClaims (x : Packages) (token : String) : Option (String × Nat) :=
  match token.toList.splitOn '.' with
  | [header, payload, signature] =>
    if [header, payload, signature].any fun part => part.isEmpty || !part.all isNameCharacter then
      none
    else do
      let decoded ← x.decodeBase64 payload
      let claims ← x.parseStrictValue decoded
      let expires ← (claims.get "exp").bind Json.asU64
      let auth ← claims.get "https://api.openai.com/auth"
      let account ← (auth.get "chatgpt_account_id").bind Json.asString
      if 0 < expires ∧ expires ≤ maxInteger ∧ account ≠ "" ∧ account.utf8ByteSize ≤ maxAccount ∧
          account.toList.all isNameCharacter then
        some (account, expires)
      else none
  | _ => none

/-- Tokens that have been checked. -/
structure OAuthTokens (x : Packages) where
  access : String
  refresh : String
  account : String
  expiresAtSeconds : Nat
  accessValid : validSecret access = true
  refreshValid : validSecret refresh = true
  claimed : ∃ tokenExpiry, accountClaims x access = some (account, tokenExpiry) ∧
    expiresAtSeconds ≠ 0 ∧ expiresAtSeconds ≤ tokenExpiry
  deriving DecidableEq

structure OAuthRefreshGrant where
  refresh : String
  deriving DecidableEq

structure OpenAiAuthorization where
  access : String
  account : String
  deriving DecidableEq

namespace OAuthTokens

variable {x : Packages}

def storedParts (t : OAuthTokens x) : String × String × String × Nat :=
  (t.access, t.refresh, t.account, t.expiresAtSeconds)

def fromStored (access refresh account : String) (expires : Nat) : Option (OAuthTokens x) :=
  if hsecrets : validSecret access = true ∧ validSecret refresh = true then
    match hclaims : accountClaims x access with
    | none => none
    | some (claimed, tokenExpiry) =>
      if h : account = claimed ∧ expires ≠ 0 ∧ expires ≤ tokenExpiry then
        some ⟨access, refresh, claimed, expires, hsecrets.1, hsecrets.2,
          tokenExpiry, hclaims, h.2.1, h.2.2⟩
      else none
  else none

def sameAccount (t other : OAuthTokens x) : Bool := t.account = other.account

def refreshGrant (t : OAuthTokens x) : OAuthRefreshGrant := ⟨t.refresh⟩

def authorization (t : OAuthTokens x) : OpenAiAuthorization := ⟨t.access, t.account⟩

end OAuthTokens

/-! ## The format -/

def filePrefix : List UInt8 := bytesOf "morons.dev/openai-chatgpt-credential/v1\x00"

inductive Phase
  | removed | active | dispatched | reauthentication
  deriving DecidableEq

def Phase.toByte : Phase → UInt8
  | removed => 0
  | active => 1
  | dispatched => 2
  | reauthentication => 3

def Phase.fromByte : UInt8 → Option Phase
  | 0 => some removed
  | 1 => some active
  | 2 => some dispatched
  | 3 => some reauthentication
  | _ => none

def noMarker : MutationMarker := ⟨List.replicate 16 0, rfl⟩

structure State (x : Packages) where
  generation : Nat
  revision : Nat
  mutation : MutationMarker
  refresh : MutationMarker
  phase : Phase
  tokens : Option (OAuthTokens x)
  deriving DecidableEq

namespace State

variable {x : Packages}

def absent : State x := ⟨0, 0, noMarker, noMarker, .removed, none⟩

/-- What the phase says of the other fields. -/
def phaseValid (s : State x) : Bool :=
  match s.phase with
  | .removed => s.tokens.isNone && s.revision = 0 && s.refresh = noMarker
  | .active => s.tokens.isSome && ((s.revision = 1 && s.refresh = noMarker) ||
      (decide (1 < s.revision) && s.refresh ≠ noMarker))
  | .dispatched | .reauthentication =>
    s.tokens.isSome && decide (0 < s.revision) && s.refresh ≠ noMarker

def validate (s : State x) : Except PersistenceError Unit := do
  require (s.generation ≠ 0 ∧ s.generation ≤ maxInteger ∧ s.mutation ≠ noMarker ∧
    s.revision ≤ maxInteger) invalid
  require (s.phaseValid = true) invalid

/-- The texts and the expiry that are stored. -/
def parts (s : State x) : String × String × String × Nat :=
  (s.tokens.map OAuthTokens.storedParts).getD ("", "", "", 0)

end State

/-- A text with its length. -/
def encodeText (text : String) : List UInt8 :=
  BigEndian.bytes 4 text.utf8ByteSize ++ bytesOf text

variable {x : Packages}

def encodeBody (s : State x) : List UInt8 :=
  let (access, refresh, account, expires) := s.parts
  filePrefix ++ [s.phase.toByte] ++ BigEndian.bytes 8 s.generation ++
    BigEndian.bytes 8 s.revision ++ s.mutation.bytes ++ s.refresh.bytes ++
    BigEndian.bytes 8 expires ++ encodeText access ++ encodeText refresh ++ encodeText account

def encode (s : State x) : Except PersistenceError (List UInt8) := do
  s.validate
  let bytes := encodeBody s
  let bytes := bytes ++ x.sha256 bytes
  require (bytes.length ≤ maxFile) invalid
  return bytes

namespace Reader

def take (length : Nat) (bytes : List UInt8) :
    Except PersistenceError ({part : List UInt8 // part.length = length} × List UInt8) :=
  if h : bytes.length < length then .error invalid
  else .ok (⟨bytes.take length, by rw [List.length_take]; omega⟩, bytes.drop length)

def text (maximum : Nat) (bytes : List UInt8) : Except PersistenceError (String × List UInt8) := do
  let (length, bytes) ← take 4 bytes
  let length := BigEndian.value length.val
  require (length ≤ maximum) invalid
  let (part, bytes) ← take length bytes
  let text ← demand invalid (decodeUtf8 part.val)
  return (text, bytes)

end Reader

def minFile : Nat := filePrefix.length + 1 + 8 + 8 + 16 + 16 + 8 + 12 + digestBytes

/-- The tokens of a phase. -/
def decodeTokens (phase : Phase) (access refresh account : String) (expires : Nat) :
    Except PersistenceError (Option (OAuthTokens x)) :=
  if phase = .removed then do
    require (access = "" ∧ refresh = "" ∧ account = "" ∧ expires = 0) invalid
    return none
  else do
    let tokens ← demand invalid (OAuthTokens.fromStored access refresh account expires)
    return some tokens

/-- The fields after the context. -/
def decodeFields (bytes : List UInt8) : Except PersistenceError (State x) := do
  let (tag, bytes) ← Reader.take 1 bytes
  let phase ← demand invalid (tag.val.head?.bind Phase.fromByte)
  let (generation, bytes) ← Reader.take 8 bytes
  let (revision, bytes) ← Reader.take 8 bytes
  let (mutation, bytes) ← Reader.take 16 bytes
  let (refresh, bytes) ← Reader.take 16 bytes
  let (expires, bytes) ← Reader.take 8 bytes
  let (access, bytes) ← Reader.text maxSecret bytes
  let (refreshToken, bytes) ← Reader.text maxSecret bytes
  let (account, bytes) ← Reader.text maxAccount bytes
  require (bytes = []) invalid
  let tokens ← decodeTokens phase access refreshToken account (BigEndian.value expires.val)
  let state : State x :=
    { generation := BigEndian.value generation.val
      revision := BigEndian.value revision.val
      mutation := ⟨mutation.val, mutation.property⟩
      refresh := ⟨refresh.val, refresh.property⟩
      phase
      tokens }
  state.validate
  return state

def decode (bytes : List UInt8) : Except PersistenceError (State x) := do
  require (bytes.length ≤ maxFile ∧ minFile ≤ bytes.length) invalid
  let body := bytes.take (bytes.length - digestBytes)
  let digest := bytes.drop (bytes.length - digestBytes)
  require (x.sha256 body = digest) invalid
  require (filePrefix.isPrefixOf body = true) invalid
  decodeFields (body.drop filePrefix.length)

/-! ## The store -/

/-- The store with the file it keeps. -/
structure OpenAiCredentialStore (x : Packages) where
  file : Option (List UInt8) := none
  state : State x := .absent
  consistent : Bool := true

/-- How far a replacement of the file comes. -/
inductive SaveOutcome
  | completed | failedBefore | failedAfter
  deriving DecidableEq

inductive OpenAiAccess
  | fresh (authorization : OpenAiAuthorization)
  | refresh (marker : MutationMarker) (grant : OAuthRefreshGrant)
  deriving DecidableEq

def increment (value : Nat) : Except PersistenceError Nat :=
  if value + 1 ≤ maxInteger then .ok (value + 1)
  else .error (.resourceLimit .credentialGeneration)

namespace OpenAiCredentialStore

/-- `open`, which reads the file. -/
def opened (file : Option (List UInt8)) : Except PersistenceError (OpenAiCredentialStore x) := do
  let state ← match file with
    | some bytes => decode bytes
    | none => pure .absent
  return { file, state, consistent := true }

def ensureConsistent (s : OpenAiCredentialStore x) : Except PersistenceError Unit := do
  require (s.consistent = true) invalid
  if s.state.generation = 0 then require (s.file = none) invalid
  else do
    let bytes ← demand .io s.file
    let expected ← encode s.state
    require (bytes = expected) invalid

def identity (s : OpenAiCredentialStore x) : CredentialIdentityStatus where
  configured := s.state.phase ≠ .removed
  generation := s.state.generation

abbrev Action (x : Packages) (α : Type) := EStateM PersistenceError (OpenAiCredentialStore x) α

def save (outcome : SaveOutcome) : Action x Unit := do
  modify fun s => { s with consistent := false }
  let payload ← ofExcept (encode (← get).state)
  match outcome with
  | .failedBefore => throw .io
  | .failedAfter =>
    modify fun s => { s with file := some payload }
    throw .io
  | .completed => modify fun s => { s with file := some payload, consistent := true }

def requireGeneration (s : OpenAiCredentialStore x) (expected : Nat) : Except PersistenceError Unit :=
  require (s.state.generation = expected) .credentialGenerationConflict

/-- The part of `apply` before the state changes. -/
def nextGeneration (s : OpenAiCredentialStore x) (expected : Nat) (marker : MutationMarker)
    (tokens : Option (OAuthTokens x)) (now : Nat) : Except PersistenceError Nat := do
  s.ensureConsistent
  s.requireGeneration expected
  require (marker ≠ noMarker) invalid
  require (tokens.all fun t => minLifetimeSeconds < t.expiresAtSeconds - now)
    .credentialReauthenticationRequired
  increment expected

def apply (outcome : SaveOutcome) (expected : Nat) (marker : MutationMarker)
    (tokens : Option (OAuthTokens x)) (now : Nat) : Action x CredentialIdentityStatus := do
  let generation ← ofExcept ((← get).nextGeneration expected marker tokens now)
  modify fun s => { s with state :=
    { generation
      revision := if tokens.isSome then 1 else 0
      mutation := marker
      refresh := noMarker
      phase := if tokens.isSome then .active else .removed
      tokens } }
  save outcome
  return (← get).identity

def recoverRefresh (outcome : SaveOutcome) : Action x Unit := do
  ofExcept (← get).ensureConsistent
  if (← get).state.phase = .dispatched then do
    modify fun s => { s with state := { s.state with phase := .reauthentication } }
    save outcome

/-- The tokens of an active state. -/
def activeTokens (s : OpenAiCredentialStore x) : Except PersistenceError (OAuthTokens x) :=
  match s.state.phase with
  | .removed => throw .credentialNotConfigured
  | .reauthentication => throw .credentialReauthenticationRequired
  | .dispatched => throw invalid
  | .active => demand invalid s.state.tokens

def beginAccess (outcome : SaveOutcome) (expected : Nat) (marker : MutationMarker) (now : Nat) :
    Action x OpenAiAccess := do
  ofExcept (← get).ensureConsistent
  ofExcept ((← get).requireGeneration expected)
  recoverRefresh outcome
  let tokens ← ofExcept (← get).activeTokens
  if minLifetimeSeconds < tokens.expiresAtSeconds - now then
    return .fresh tokens.authorization
  else do
    let state := (← get).state
    let _ ← ofExcept (increment state.revision)
    ofExcept (require (marker ≠ noMarker ∧ marker ≠ state.refresh) invalid)
    modify fun s => { s with state := { s.state with phase := .dispatched, refresh := marker } }
    save outcome
    return .refresh marker tokens.refreshGrant

/-- The tokens that a refresh may bring. -/
def refreshed (s : OpenAiCredentialStore x) (result : Option (OAuthTokens x)) (now : Nat) :
    Option (OAuthTokens x) :=
  result.filter fun next => (s.state.tokens.any fun old => old.sameAccount next) &&
    decide (minLifetimeSeconds < next.expiresAtSeconds - now)

def finishRefresh (outcome : SaveOutcome) (expected : Nat) (marker : MutationMarker)
    (result : Option (OAuthTokens x)) (now : Nat) : Action x OpenAiAuthorization := do
  ofExcept (← get).ensureConsistent
  ofExcept ((← get).requireGeneration expected)
  let state := (← get).state
  ofExcept (require (state.phase = .dispatched ∧ marker = state.refresh) invalid)
  match (← get).refreshed result now with
  | none => do
    modify fun s => { s with state := { s.state with phase := .reauthentication } }
    save outcome
    throw .credentialReauthenticationRequired
  | some next => do
    let revision ← ofExcept (increment state.revision)
    modify fun s => { s with state := { s.state with revision, phase := .active, tokens := some next } }
    save outcome
    return next.authorization

end OpenAiCredentialStore

inductive Operation (x : Packages)
  | apply (expected : Nat) (marker : MutationMarker) (tokens : Option (OAuthTokens x)) (now : Nat)
  | beginAccess (expected : Nat) (marker : MutationMarker) (now : Nat)
  | finishRefresh (expected : Nat) (marker : MutationMarker) (result : Option (OAuthTokens x))
      (now : Nat)
  | recoverRefresh

inductive Answer
  | identity (status : CredentialIdentityStatus)
  | access (access : OpenAiAccess)
  | authorization (authorization : OpenAiAuthorization)
  | recovered
  deriving DecidableEq

namespace OpenAiCredentialStore

def perform (outcome : SaveOutcome) : Operation x → Action x Answer
  | .apply expected marker tokens now => do
    return .identity (← apply outcome expected marker tokens now)
  | .beginAccess expected marker now => do
    return .access (← beginAccess outcome expected marker now)
  | .finishRefresh expected marker result now => do
    return .authorization (← finishRefresh outcome expected marker result now)
  | .recoverRefresh => do
    recoverRefresh outcome
    return .recovered

end OpenAiCredentialStore

end Morons.OpenAiCredential
