import Morons.Library.BigEndian
import Morons.Library.Attempt
import Morons.Provider.Outcome
import Morons.Types

/-!
# The credential file

The bytes of an OpenCode credential file: a context that names the version, a
tag, the generation, the marker of the last change, and the key with its length.
`credentialFormat_exact` says that the two directions are inverse to each other.
-/

namespace Morons.CredentialFormat

open Attempt

def credentialContext : List UInt8 := Provider.bytesOf "morons.dev/opencode-credential/v1\x00"

def identifierBytes : Nat := 16
def stateRemoved : UInt8 := 0
def stateConfigured : UInt8 := 1
def maxApiKeyBytes : Nat := 4096
def maxCredentialGeneration : Nat := 2 ^ 63 - 1

def validApiKey (bytes : List UInt8) : Bool :=
  !bytes.isEmpty && decide (bytes.length ≤ maxApiKeyBytes) &&
    bytes.all fun byte => decide (0x21 ≤ byte) && decide (byte ≤ 0x7e)

/-- A key that has been checked. -/
structure StoredOpenCodeApiKey where
  bytes : List UInt8
  valid : validApiKey bytes = true
  deriving DecidableEq

/-- The 16 bytes that mark a change. -/
structure MutationMarker where
  bytes : List UInt8
  length : bytes.length = identifierBytes
  deriving DecidableEq

structure CredentialState where
  generation : Nat
  mutationMarker : MutationMarker
  apiKey : Option StoredOpenCodeApiKey
  deriving DecidableEq

/-- The bytes of the key, if there is one. -/
def CredentialState.keyBytes (state : CredentialState) : List UInt8 :=
  (state.apiKey.map (·.bytes)).getD []

def MutationMarker.isZero (marker : MutationMarker) : Bool := marker.bytes.all (· = 0)

def encodeState (state : CredentialState) : Except PersistenceError (List UInt8) := do
  require (state.generation ≠ 0 ∧ state.generation ≤ maxCredentialGeneration)
    (.invalidState "the credential generation is invalid")
  require (¬ state.mutationMarker.isZero)
    (.invalidState "the credential mutation marker is invalid")
  require (state.keyBytes.length < 2 ^ 32) (.invalidState "the OpenCode API key length is invalid")
  return credentialContext ++
    [if state.apiKey.isSome then stateConfigured else stateRemoved] ++
    BigEndian.bytes 8 state.generation ++ state.mutationMarker.bytes ++
    BigEndian.bytes 4 state.keyBytes.length ++ state.keyBytes

/-- `StoredOpenCodeApiKey::from_persisted`. -/
def fromPersisted (bytes : List UInt8) : Except PersistenceError StoredOpenCodeApiKey :=
  if valid : validApiKey bytes = true then .ok ⟨bytes, valid⟩
  else .error (.invalidState "the persisted OpenCode API key is invalid")

/-- The key that the tag and the bytes after the length tell of. -/
def decodeKey (tag : UInt8) (keyBytes : List UInt8) :
    Except PersistenceError (Option StoredOpenCodeApiKey) :=
  if tag = stateRemoved ∧ keyBytes = [] then .ok none
  else if tag = stateConfigured ∧ keyBytes ≠ [] then do
    let key ← fromPersisted keyBytes
    return some key
  else if tag = stateRemoved ∨ tag = stateConfigured then
    throw (.invalidState "the credential state payload is inconsistent")
  else throw (.invalidState "the credential state tag is unsupported")

/-- The bytes after the context. -/
def decodeRest (rest : List UInt8) : Except PersistenceError CredentialState :=
  match rest with
  | [] => .error (.invalidState "the credential state is truncated")
  | tag :: fields =>
    if truncated : fields.length < 8 + identifierBytes + 4 then
      .error (.invalidState "the credential state is truncated")
    else do
      let generation := BigEndian.value (fields.take 8)
      require (generation ≠ 0 ∧ generation ≤ maxCredentialGeneration)
        (.invalidState "the credential generation is invalid")
      let marker : MutationMarker :=
        ⟨(fields.drop 8).take identifierBytes, by
          rw [List.length_take, List.length_drop]
          omega⟩
      require (¬ marker.isZero) (.invalidState "the credential mutation marker is invalid")
      let keyLength := BigEndian.value ((fields.drop (8 + identifierBytes)).take 4)
      let keyBytes := fields.drop (8 + identifierBytes + 4)
      require (keyBytes.length = keyLength)
        (.invalidState "the credential state has an inconsistent length")
      let apiKey ← decodeKey tag keyBytes
      return ⟨generation, marker, apiKey⟩

def decodeState (payload : List UInt8) : Except PersistenceError CredentialState :=
  if credentialContext.isPrefixOf payload then decodeRest (payload.drop credentialContext.length)
  else .error (.invalidState "the credential state has an unsupported version")

/-! ## The two directions -/

/-- A state that a file may hold. -/
def Encodable (state : CredentialState) : Prop :=
  1 ≤ state.generation ∧ state.generation ≤ maxCredentialGeneration ∧
    ¬ state.mutationMarker.isZero = true

theorem keyBytes_length (state : CredentialState) : state.keyBytes.length ≤ maxApiKeyBytes := by
  cases hkey : state.apiKey with
  | none => simp [CredentialState.keyBytes, hkey]
  | some key =>
    have hvalid := key.valid
    simp only [validApiKey, Bool.and_eq_true, decide_eq_true_eq] at hvalid
    simpa [CredentialState.keyBytes, hkey] using hvalid.1.2

/-- The tag of a state. -/
def CredentialState.tag (state : CredentialState) : UInt8 :=
  if state.apiKey.isSome then stateConfigured else stateRemoved

theorem encodeState_ok {state : CredentialState} {payload : List UInt8} :
    encodeState state = .ok payload ↔ Encodable state ∧
      payload = credentialContext ++ (state.tag :: (BigEndian.bytes 8 state.generation ++
        (state.mutationMarker.bytes ++
          (BigEndian.bytes 4 state.keyBytes.length ++ state.keyBytes)))) := by
  have hlength : state.keyBytes.length < 2 ^ 32 :=
    Nat.lt_of_le_of_lt (keyBytes_length state) (by decide)
  simp only [encodeState, bind_ok, require_ok, pure_ok, exists_const, Encodable,
    CredentialState.tag, List.append_assoc, List.singleton_append, Nat.one_le_iff_ne_zero]
  constructor
  · rintro ⟨⟨hsome, hbound⟩, hmarker, -, rfl⟩
    exact ⟨⟨hsome, hbound, hmarker⟩, rfl⟩
  · rintro ⟨⟨hsome, hbound, hmarker⟩, rfl⟩
    exact ⟨⟨hsome, hbound⟩, hmarker, hlength, rfl⟩

theorem fromPersisted_ok {bytes : List UInt8} {key : StoredOpenCodeApiKey} :
    fromPersisted bytes = .ok key ↔ key.bytes = bytes := by
  unfold fromPersisted
  constructor
  · intro h
    split at h
    · cases h
      rfl
    · cases h
  · rintro rfl
    rw [dif_pos key.valid]

/-- The tag and the bytes of a key determine each other. -/
theorem decodeKey_ok {tag : UInt8} {keyBytes : List UInt8} {apiKey : Option StoredOpenCodeApiKey} :
    decodeKey tag keyBytes = .ok apiKey ↔
      tag = (if apiKey.isSome then stateConfigured else stateRemoved) ∧
        keyBytes = (apiKey.map (·.bytes)).getD [] := by
  unfold decodeKey
  constructor
  · intro h
    split at h
    case isTrue hremoved =>
      cases h
      exact hremoved
    case isFalse =>
    split at h
    case isTrue hconfigured =>
      obtain ⟨key, hkey, hsome⟩ := (bind_ok _ _ _).mp h
      obtain rfl := (pure_ok _ _).mp hsome
      exact ⟨hconfigured.1, (fromPersisted_ok.mp hkey).symm⟩
    case isFalse => split at h <;> cases h
  · rintro ⟨rfl, rfl⟩
    cases apiKey with
    | none => rfl
    | some key =>
      have htags : stateConfigured ≠ stateRemoved := by decide
      have hsome : key.bytes ≠ [] := by
        intro hnil
        have hvalid := key.valid
        rw [hnil] at hvalid
        cases hvalid
      rw [if_neg fun h => htags h.1, if_pos ⟨rfl, hsome⟩]
      exact (bind_ok _ _ _).mpr ⟨key, fromPersisted_ok.mpr rfl, rfl⟩

theorem take_append_drop_drop (l : List UInt8) (start count : Nat) :
    (l.drop start).take count ++ l.drop (start + count) = l.drop start := by
  rw [← List.drop_drop, List.take_append_drop]

/-- The fields after the tag, cut at their places. -/
theorem exists_fields {fields : List UInt8} (h : 28 ≤ fields.length) :
    ∃ generation marker keyLength keyBytes, generation.length = 8 ∧ marker.length = 16 ∧
      keyLength.length = 4 ∧ fields = generation ++ (marker ++ (keyLength ++ keyBytes)) := by
  refine ⟨fields.take 8, (fields.drop 8).take 16, (fields.drop 24).take 4, fields.drop 28, ?_, ?_, ?_,
    ?_⟩
  · rw [List.length_take]
    omega
  · rw [List.length_take, List.length_drop]
    omega
  · rw [List.length_take, List.length_drop]
    omega
  · rw [take_append_drop_drop fields 24 4, take_append_drop_drop fields 8 16,
      List.take_append_drop]

/-- Decoding fields that are cut already. -/
theorem decodeRest_fields {tag : UInt8} {generation marker keyLength keyBytes : List UInt8}
    {state : CredentialState} (hgeneration : generation.length = 8)
    (hmarker : marker.length = identifierBytes) (hlength : keyLength.length = 4) :
    decodeRest (tag :: (generation ++ (marker ++ (keyLength ++ keyBytes)))) = .ok state ↔
      Encodable state ∧ tag = state.tag ∧ state.generation = BigEndian.value generation ∧
        state.mutationMarker.bytes = marker ∧ keyBytes = state.keyBytes ∧
        keyBytes.length = BigEndian.value keyLength := by
  have hfirst : (generation ++ (marker ++ (keyLength ++ keyBytes))).take 8 = generation :=
    List.take_left' hgeneration
  have hsecond : (generation ++ (marker ++ (keyLength ++ keyBytes))).drop 8 =
      marker ++ (keyLength ++ keyBytes) := List.drop_left' hgeneration
  have hthird : (generation ++ (marker ++ (keyLength ++ keyBytes))).drop (8 + identifierBytes) =
      keyLength ++ keyBytes := by
    rw [← List.drop_drop, hsecond, List.drop_left' hmarker]
  have hlast : (generation ++ (marker ++ (keyLength ++ keyBytes))).drop (8 + identifierBytes + 4) =
      keyBytes := by
    rw [← List.drop_drop, hthird, List.drop_left' hlength]
  have hlong : ¬ (generation ++ (marker ++ (keyLength ++ keyBytes))).length <
      8 + identifierBytes + 4 := by
    simp only [List.length_append, hgeneration, hmarker, hlength]
    omega
  unfold decodeRest
  simp only [dif_neg hlong, hfirst, hsecond, hthird, hlast, List.take_left' hmarker,
    List.take_left' hlength, bind_ok, require_ok, pure_ok, decodeKey_ok, exists_const]
  constructor
  · rintro ⟨⟨hsome, hbound⟩, hzero, hcount, apiKey, ⟨htag, hkey⟩, rfl⟩
    exact ⟨⟨Nat.one_le_iff_ne_zero.mpr hsome, hbound, hzero⟩, htag, rfl, rfl, hkey, hcount⟩
  · rintro ⟨⟨hsome, hbound, hzero⟩, htag, hvalue, rfl, hkey, hcount⟩
    rw [hvalue] at hsome hbound
    refine ⟨⟨Nat.one_le_iff_ne_zero.mp hsome, hbound⟩, hzero, hcount, state.apiKey, ⟨htag, hkey⟩, ?_⟩
    rw [← hvalue]

/-- The bytes after the context, field by field. -/
theorem decodeRest_ok {rest : List UInt8} {state : CredentialState} :
    decodeRest rest = .ok state ↔ Encodable state ∧
      rest = state.tag :: (BigEndian.bytes 8 state.generation ++ (state.mutationMarker.bytes ++
        (BigEndian.bytes 4 state.keyBytes.length ++ state.keyBytes))) := by
  constructor
  · intro h
    cases rest with
    | nil => cases h
    | cons tag fields =>
      have hlong : 28 ≤ fields.length := by
        by_contra hshort
        rw [decodeRest, dif_pos (by rw [identifierBytes]; omega)] at h
        cases h
      obtain ⟨generation, marker, keyLength, keyBytes, hgeneration, hmarker, hlength, rfl⟩ :=
        exists_fields hlong
      obtain ⟨hencodable, rfl, hvalue, rfl, rfl, hcount⟩ :=
        (decodeRest_fields hgeneration hmarker hlength).mp h
      refine ⟨hencodable, ?_⟩
      rw [hvalue, hcount, ← hgeneration, ← hlength, BigEndian.bytes_value, BigEndian.bytes_value]
  · rintro ⟨hencodable, rfl⟩
    have hkey : state.keyBytes.length < 256 ^ 4 :=
      Nat.lt_of_le_of_lt (keyBytes_length state) (by decide)
    have hgeneration : state.generation < 256 ^ 8 :=
      Nat.lt_of_le_of_lt hencodable.2.1 (by decide)
    refine (decodeRest_fields (BigEndian.length_bytes ..) state.mutationMarker.length
      (BigEndian.length_bytes ..)).mpr ⟨hencodable, rfl, ?_, rfl, rfl, ?_⟩
    · rw [BigEndian.value_bytes hgeneration]
    · rw [BigEndian.value_bytes hkey]

theorem decodeState_ok {payload : List UInt8} {state : CredentialState} :
    decodeState payload = .ok state ↔ encodeState state = .ok payload := by
  rw [encodeState_ok]
  constructor
  · intro h
    unfold decodeState at h
    split at h
    case isTrue hprefix =>
      obtain ⟨rest, rfl⟩ := List.isPrefixOf_iff_prefix.mp hprefix
      rw [List.drop_left] at h
      obtain ⟨hencodable, rfl⟩ := decodeRest_ok.mp h
      exact ⟨hencodable, rfl⟩
    case isFalse => cases h
  · rintro ⟨hencodable, rfl⟩
    rw [decodeState, if_pos (List.isPrefixOf_iff_prefix.mpr (List.prefix_append _ _)),
      List.drop_left]
    exact decodeRest_ok.mpr ⟨hencodable, rfl⟩

/-- **The format is exact.**  A state that a file may hold is read back, and a file that is
accepted is the one file of what it holds. -/
theorem credentialFormat_exact :
    (∀ state, Encodable state → ∃ payload, encodeState state = .ok payload ∧
      decodeState payload = .ok state) ∧
    (∀ payload state, decodeState payload = .ok state →
      Encodable state ∧ encodeState state = .ok payload) ∧
    ∀ payload other state, decodeState payload = .ok state → decodeState other = .ok state →
      payload = other := by
  refine ⟨fun state hencodable => ?_, fun payload state h => ?_, fun payload other state h k => ?_⟩
  · obtain ⟨payload, hpayload⟩ : ∃ payload, encodeState state = .ok payload :=
      ⟨_, encodeState_ok.mpr ⟨hencodable, rfl⟩⟩
    exact ⟨payload, hpayload, decodeState_ok.mpr hpayload⟩
  · have hencode := decodeState_ok.mp h
    exact ⟨(encodeState_ok.mp hencode).1, hencode⟩
  · exact Except.ok.inj ((decodeState_ok.mp h).symm.trans (decodeState_ok.mp k))

/-- The state of a first key. -/
def firstKey : CredentialState where
  generation := 1
  mutationMarker := ⟨7 :: List.replicate 15 0, by decide⟩
  apiKey := some ⟨[0x6b, 0x65, 0x79], by decide⟩

theorem firstKey_exact : ∃ payload, encodeState firstKey = .ok payload ∧
    decodeState payload = .ok firstKey :=
  credentialFormat_exact.1 firstKey ⟨by decide, by decide, by decide⟩

end Morons.CredentialFormat
