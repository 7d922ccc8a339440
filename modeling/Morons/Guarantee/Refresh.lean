import Morons.Credential.OpenAi

/-!
# Single-use refresh tokens

The credential file is always one that is read back as it was written.  What a
run of the store does to it goes forward only, so that a refresh token is handed
out once for each revision, whatever is lost between the memory and the file.
-/

namespace Morons.OpenAiCredential

open Attempt Effect Provider
open CredentialFormat (MutationMarker)

variable {x : Packages} {s t : State x} {bytes rest : List UInt8}

/-! ## The format -/

theorem Reader.take_append {part : List UInt8} {length : Nat} (h : part.length = length) :
    Reader.take length (part ++ rest) = .ok (⟨part, h⟩, rest) := by
  subst h
  rw [Reader.take, dif_neg (by simp)]
  simp

theorem Reader.text_encodeText {text : String} {maximum : Nat} (hfits : text.utf8ByteSize ≤ maximum)
    (hmaximum : maximum < 2 ^ 32) : Reader.text maximum (encodeText text ++ rest) = .ok (text, rest) := by
  have hvalue : BigEndian.value (BigEndian.bytes 4 text.utf8ByteSize) = text.utf8ByteSize :=
    BigEndian.value_bytes (by omega)
  have hpart : (bytesOf text).length = BigEndian.value (BigEndian.bytes 4 text.utf8ByteSize) := by
    rw [hvalue, bytesOf_length]
  rw [Reader.text, encodeText, List.append_assoc, Reader.take_append (BigEndian.length_bytes 4 _)]
  simp only [bind, Except.bind]
  rw [(require_ok _ invalid ()).mpr (hvalue.trans_le hfits), Reader.take_append hpart]
  simp only [decodeUtf8_bytesOf, demand]
  rfl

theorem validSecret_size {text : String} (h : validSecret text = true) :
    text.utf8ByteSize ≤ maxSecret := by
  simp only [validSecret, Bool.and_eq_true, decide_eq_true_eq] at h
  exact h.1.2

theorem accountClaims_ok {token account : String} {expires : Nat}
    (h : accountClaims x token = some (account, expires)) :
    expires ≤ maxInteger ∧ account.utf8ByteSize ≤ maxAccount := by
  unfold accountClaims at h
  split at h
  case h_1 header payload signature _ =>
    split at h
    case isTrue => cases h
    case isFalse =>
      simp only [Option.bind_eq_bind, Option.bind_eq_some_iff] at h
      obtain ⟨decoded, -, claims, -, exp, -, auth, -, id, -, h⟩ := h
      split at h
      case isTrue hvalid =>
        obtain ⟨rfl, rfl⟩ := Prod.mk.inj (Option.some.inj h)
        exact ⟨hvalid.2.1, hvalid.2.2.2.1⟩
      case isFalse => cases h
  case h_2 => cases h

namespace OAuthTokens

theorem expires_le (tokens : OAuthTokens x) : tokens.expiresAtSeconds ≤ maxInteger := by
  obtain ⟨tokenExpiry, hclaims, -, hbound⟩ := tokens.claimed
  exact hbound.trans (accountClaims_ok hclaims).1

theorem account_size (tokens : OAuthTokens x) : tokens.account.utf8ByteSize ≤ maxAccount := by
  obtain ⟨tokenExpiry, hclaims, -⟩ := tokens.claimed
  exact (accountClaims_ok hclaims).2

/-- Tokens that were stored are read back. -/
theorem fromStored_parts (tokens : OAuthTokens x) :
    fromStored tokens.access tokens.refresh tokens.account tokens.expiresAtSeconds =
      some tokens := by
  obtain ⟨tokenExpiry, hclaims, hbounds⟩ := tokens.claimed
  unfold fromStored
  rw [dif_pos ⟨tokens.accessValid, tokens.refreshValid⟩]
  split
  case h_1 hnone => rw [hclaims] at hnone; cases hnone
  case h_2 claimed expiry hsome =>
    obtain ⟨rfl, rfl⟩ := Prod.mk.inj (Option.some.inj (hclaims.symm.trans hsome))
    rw [dif_pos ⟨rfl, hbounds⟩]

end OAuthTokens

theorem validate_ok : s.validate = .ok () ↔ (s.generation ≠ 0 ∧ s.generation ≤ maxInteger ∧
    s.mutation ≠ noMarker ∧ s.revision ≤ maxInteger) ∧ s.phaseValid = true := by
  simp only [State.validate, bind_ok, require_ok, exists_const]

/-- The stored parts fit the file. -/
theorem parts_sizes (s : State x) : s.parts.1.utf8ByteSize ≤ maxSecret ∧
    s.parts.2.1.utf8ByteSize ≤ maxSecret ∧ s.parts.2.2.1.utf8ByteSize ≤ maxAccount ∧
    s.parts.2.2.2 ≤ maxInteger := by
  cases htokens : s.tokens with
  | none => simp [State.parts, htokens]
  | some tokens =>
    simp only [State.parts, htokens, Option.map_some, Option.getD_some, OAuthTokens.storedParts]
    exact ⟨validSecret_size tokens.accessValid, validSecret_size tokens.refreshValid,
      tokens.account_size, tokens.expires_le⟩

theorem decodeTokens_parts (h : s.phaseValid = true) :
    decodeTokens s.phase s.parts.1 s.parts.2.1 s.parts.2.2.1 s.parts.2.2.2 = .ok s.tokens := by
  unfold decodeTokens
  unfold State.phaseValid at h
  split
  case isTrue hremoved =>
    rw [hremoved] at h
    simp only [Bool.and_eq_true, Option.isNone_iff_eq_none] at h
    simp only [State.parts, h.1.1]
    rfl
  case isFalse hpresent =>
    have hsome : s.tokens.isSome = true := by
      cases hphase : s.phase with
      | removed => exact absurd hphase hpresent
      | active => simp only [hphase, Bool.and_eq_true] at h; exact h.1
      | dispatched => simp only [hphase, Bool.and_eq_true] at h; exact h.1.1
      | reauthentication => simp only [hphase, Bool.and_eq_true] at h; exact h.1.1
    obtain ⟨tokens, htokens⟩ := Option.isSome_iff_exists.mp hsome
    simp only [State.parts, htokens, Option.map_some, Option.getD_some, OAuthTokens.storedParts,
      tokens.fromStored_parts, demand]
    rfl

theorem fromByte_toByte (phase : Phase) : Phase.fromByte phase.toByte = some phase := by
  cases phase <;> rfl

/-- The body without its context. -/
def fields (s : State x) : List UInt8 :=
  [s.phase.toByte] ++ (BigEndian.bytes 8 s.generation ++ (BigEndian.bytes 8 s.revision ++
    (s.mutation.bytes ++ (s.refresh.bytes ++ (BigEndian.bytes 8 s.parts.2.2.2 ++
      (encodeText s.parts.1 ++ (encodeText s.parts.2.1 ++ (encodeText s.parts.2.2.1 ++ []))))))))

theorem encodeBody_eq (s : State x) : encodeBody s = filePrefix ++ fields s := by
  simp only [encodeBody, fields, List.append_assoc, List.append_nil]

theorem decodeFields_fields (h : s.validate = .ok ()) : decodeFields (fields s) = .ok s := by
  obtain ⟨⟨-, hgeneration, -, hrevision⟩, hphase⟩ := validate_ok.mp h
  obtain ⟨haccess, hrefresh, haccount, hexpires⟩ := parts_sizes s
  have hvalue : ∀ n, n ≤ maxInteger → BigEndian.value (BigEndian.bytes 8 n) = n := by
    intro n hn
    exact BigEndian.value_bytes (Nat.lt_of_le_of_lt hn (by decide))
  rw [decodeFields, fields]
  refine (bind_ok _ _ _).mpr
    ⟨_, Reader.take_append (show [s.phase.toByte].length = 1 from rfl), ?_⟩
  refine (bind_ok _ _ _).mpr ⟨s.phase, (demand_ok _ _ _).mpr (fromByte_toByte _), ?_⟩
  refine (bind_ok _ _ _).mpr ⟨_, Reader.take_append (BigEndian.length_bytes 8 _), ?_⟩
  refine (bind_ok _ _ _).mpr ⟨_, Reader.take_append (BigEndian.length_bytes 8 _), ?_⟩
  refine (bind_ok _ _ _).mpr ⟨_, Reader.take_append s.mutation.length, ?_⟩
  refine (bind_ok _ _ _).mpr ⟨_, Reader.take_append s.refresh.length, ?_⟩
  refine (bind_ok _ _ _).mpr ⟨_, Reader.take_append (BigEndian.length_bytes 8 _), ?_⟩
  refine (bind_ok _ _ _).mpr ⟨_, Reader.text_encodeText haccess (by decide), ?_⟩
  refine (bind_ok _ _ _).mpr ⟨_, Reader.text_encodeText hrefresh (by decide), ?_⟩
  refine (bind_ok _ _ _).mpr ⟨_, Reader.text_encodeText haccount (by decide), ?_⟩
  refine (bind_ok _ _ _).mpr ⟨(), (require_ok _ _ _).mpr rfl, ?_⟩
  dsimp only
  rw [hvalue _ hexpires, hvalue _ hgeneration, hvalue _ hrevision]
  refine (bind_ok _ _ _).mpr ⟨_, decodeTokens_parts hphase, ?_⟩
  exact (bind_ok _ _ _).mpr ⟨(), h, rfl⟩

theorem encodeText_length (text : String) : (encodeText text).length = 4 + text.utf8ByteSize := by
  rw [encodeText, List.length_append, BigEndian.length_bytes, bytesOf_length]

theorem encodeBody_length (s : State x) : (encodeBody s).length + digestBytes = minFile +
    (s.parts.1.utf8ByteSize + s.parts.2.1.utf8ByteSize + s.parts.2.2.1.utf8ByteSize) := by
  have hmutation := s.mutation.length
  have hrefresh := s.refresh.length
  simp only [CredentialFormat.identifierBytes] at hmutation hrefresh
  rw [encodeBody_eq, fields]
  simp only [List.length_append, List.length_cons, List.length_nil, BigEndian.length_bytes,
    encodeText_length, hmutation, hrefresh, minFile]
  omega

/-- The bytes of every state fit a file. -/
theorem encoded_length (s : State x) :
    (encodeBody s ++ x.sha256 (encodeBody s)).length ≤ maxFile ∧
      minFile ≤ (encodeBody s ++ x.sha256 (encodeBody s)).length := by
  obtain ⟨haccess, hrefresh, haccount, -⟩ := parts_sizes s
  have hmin : minFile + (maxSecret + maxSecret + maxAccount) ≤ maxFile := by decide +kernel
  rw [List.length_append, x.sha256_length, encodeBody_length]
  omega

theorem encode_ok : encode s = .ok bytes ↔
    s.validate = .ok () ∧ bytes = encodeBody s ++ x.sha256 (encodeBody s) := by
  simp only [encode, bind_ok, require_ok, pure_ok, exists_const]
  constructor
  · rintro ⟨⟨⟩, hvalid, -, rfl⟩
    exact ⟨hvalid, rfl⟩
  · rintro ⟨hvalid, rfl⟩
    exact ⟨(), hvalid, (encoded_length s).1, rfl⟩

/-- Every file that was written is read back as it was. -/
theorem decode_encode (h : encode s = .ok bytes) : decode bytes = .ok s := by
  obtain ⟨hvalid, rfl⟩ := encode_ok.mp h
  have hlength : (encodeBody s ++ x.sha256 (encodeBody s)).length - digestBytes =
      (encodeBody s).length := by
    rw [List.length_append, x.sha256_length, Nat.add_sub_cancel]
  unfold decode
  refine (bind_ok _ _ _).mpr ⟨(), (require_ok _ _ _).mpr (encoded_length s), ?_⟩
  dsimp only
  rw [hlength, List.take_left, List.drop_left]
  refine (bind_ok _ _ _).mpr ⟨(), (require_ok _ _ _).mpr rfl, ?_⟩
  rw [encodeBody_eq, List.drop_left]
  refine (bind_ok _ _ _).mpr ⟨(), (require_ok _ _ _).mpr ?_, decodeFields_fields hvalid⟩
  exact List.isPrefixOf_iff_prefix.mpr (List.prefix_append _ _)

/-! ## What one operation does -/

/-- The file is absent or holds the state. -/
def Stored (file : Option (List UInt8)) (s : State x) : Prop :=
  (file = none ∧ s = .absent) ∨ ∃ bytes, file = some bytes ∧ encode s = .ok bytes

/-- What an operation may make of a state. -/
inductive Follows (before : State x) : Operation x → State x → Prop
  | applied (expected : Nat) (marker : MutationMarker) (tokens : Option (OAuthTokens x))
      (now : Nat) (after : State x) (h : after.generation = before.generation + 1) :
      Follows before (.apply expected marker tokens now) after
  | abandoned (op : Operation x) (h : before.phase = .dispatched) :
      Follows before op { before with phase := .reauthentication }
  | dispatched (expected : Nat) (marker : MutationMarker) (now : Nat)
      (h : before.phase = .active) :
      Follows before (.beginAccess expected marker now)
        { before with phase := .dispatched, refresh := marker }
  | finished (expected : Nat) (next : OAuthTokens x) (now : Nat) (h : before.phase = .dispatched)
      (account : ∃ old, before.tokens = some old ∧ old.sameAccount next = true) :
      Follows before (.finishRefresh expected before.refresh (some next) now)
        { before with revision := before.revision + 1, phase := .active, tokens := some next }

variable {v w : OpenAiCredentialStore x} {op : Operation x} {answer : Answer}
  {outcome : SaveOutcome} {expected now : Nat} {marker : MutationMarker}
  {tokens result : Option (OAuthTokens x)}

/-- The memory has a new state, and the file has it too or the store is not consistent. -/
def Wrote (v : OpenAiCredentialStore x) (t : State x) (w : OpenAiCredentialStore x) : Prop :=
  w.state = t ∧ ((w.file = v.file ∧ w.consistent = false) ∨
    ∃ payload, encode t = .ok payload ∧ w.file = some payload)

/-- Nothing happened, or a consistent store wrote a state that may follow. -/
def Changed (op : Operation x) (v w : OpenAiCredentialStore x) : Prop :=
  w = v ∨ (v.consistent = true ∧ ∃ t, Follows v.state op t ∧ Wrote v t w)

/-- Why an answer was given. -/
def Justified (op : Operation x) (v w : OpenAiCredentialStore x) : Answer → Prop
  | .access (.fresh authorization) => ∃ expected marker now tokens,
      op = .beginAccess expected marker now ∧ v.state.tokens = some tokens ∧
      authorization = tokens.authorization ∧
      minLifetimeSeconds < tokens.expiresAtSeconds - now
  | .access (.refresh marker grant) => v.consistent = true ∧ v.state.phase = .active ∧
      (∃ tokens, v.state.tokens = some tokens ∧ grant = tokens.refreshGrant) ∧
      w.state = { v.state with phase := .dispatched, refresh := marker } ∧
      ∃ payload, encode w.state = .ok payload ∧ w.file = some payload
  | .authorization authorization => ∃ expected marker next now,
      op = .finishRefresh expected marker (some next) now ∧
      authorization = next.authorization ∧ minLifetimeSeconds < next.expiresAtSeconds - now
  | _ => True

open OpenAiCredentialStore

theorem save_ends : Ends (save outcome) v
    (fun _ w => ∃ payload, encode v.state = .ok payload ∧
      w = { v with file := some payload, consistent := true })
    (fun _ w => Wrote v v.state w) := by
  simp only [save, ends_bind, ends_modify, ends_get, ends_ofExcept]
  refine ⟨?_, fun e _ => ⟨rfl, .inl ⟨rfl, rfl⟩⟩⟩
  intro payload hpayload
  cases outcome with
  | completed => exact ⟨payload, hpayload, rfl⟩
  | failedBefore => exact ⟨rfl, .inl ⟨rfl, rfl⟩⟩
  | failedAfter => exact ⟨rfl, .inr ⟨payload, hpayload, rfl⟩⟩

theorem ensureConsistent_ok (h : v.ensureConsistent = .ok ()) : v.consistent = true := by
  simp only [ensureConsistent, bind_ok, require_ok, exists_const] at h
  exact h.1

theorem increment_ok {n m : Nat} (h : increment n = .ok m) : m = n + 1 := by
  unfold increment at h
  split at h
  case isTrue => exact (Except.ok.inj h).symm
  case isFalse => cases h

theorem apply_ends : Ends (apply outcome expected marker tokens now) v
    (fun _ w => Changed (.apply expected marker tokens now) v w)
    (fun _ w => Changed (.apply expected marker tokens now) v w) := by
  simp only [apply, ends_bind, ends_get, ends_ofExcept, ends_modify, ends_pure]
  refine ⟨?_, fun e _ => .inl rfl⟩
  intro generation hnext
  simp only [nextGeneration, requireGeneration, bind_ok, require_ok, exists_const] at hnext
  obtain ⟨⟨⟩, hconsistent, hexpected, -, -, hgeneration⟩ := hnext
  have hconsistent := ensureConsistent_ok hconsistent
  have hgeneration : generation = v.state.generation + 1 := by
    rw [increment_ok hgeneration, hexpected]
  refine save_ends.mono ?_ ?_
  · rintro - w ⟨payload, hpayload, rfl⟩
    exact .inr ⟨hconsistent, _, .applied expected marker tokens now _ hgeneration,
      rfl, .inr ⟨payload, hpayload, rfl⟩⟩
  · intro e w hwrote
    exact .inr ⟨hconsistent, _, .applied expected marker tokens now _ hgeneration, hwrote⟩

/-- What `recover_refresh` does for an operation that calls it. -/
theorem recoverRefresh_ends (op : Operation x) : Ends (recoverRefresh outcome) v
    (fun _ w => Changed op v w ∧ (w.state.phase ≠ .reauthentication → w = v ∧ v.consistent = true))
    (fun _ w => Changed op v w) := by
  simp only [recoverRefresh, ends_bind, ends_get, ends_ofExcept]
  refine ⟨?_, fun e _ => .inl rfl⟩
  intro _ hconsistent
  have hconsistent := ensureConsistent_ok hconsistent
  split
  case isTrue hdispatched =>
    simp only [ends_bind, ends_modify]
    refine save_ends.mono ?_ ?_
    · rintro - w ⟨payload, hpayload, rfl⟩
      exact ⟨.inr ⟨hconsistent, _, .abandoned op hdispatched, rfl, .inr ⟨payload, hpayload, rfl⟩⟩,
        fun h => absurd rfl h⟩
    · intro e w hwrote
      exact .inr ⟨hconsistent, _, .abandoned op hdispatched, hwrote⟩
  case isFalse => exact ⟨.inl rfl, fun _ => ⟨rfl, hconsistent⟩⟩

theorem activeTokens_ok {tokens : OAuthTokens x} (h : v.activeTokens = .ok tokens) :
    v.state.phase = .active ∧ v.state.tokens = some tokens := by
  unfold activeTokens at h
  split at h
  case h_1 => cases h
  case h_2 => cases h
  case h_3 => cases h
  case h_4 hactive => exact ⟨hactive, (demand_ok _ _ _).mp h⟩

theorem beginAccess_ends : Ends (beginAccess outcome expected marker now) v
    (fun access w => Changed (.beginAccess expected marker now) v w ∧
      Justified (.beginAccess expected marker now) v w (.access access))
    (fun _ w => Changed (.beginAccess expected marker now) v w) := by
  simp only [beginAccess, ends_bind, ends_get, ends_ofExcept]
  refine ⟨?_, fun e _ => .inl rfl⟩
  rintro - -
  refine ⟨?_, fun e _ => .inl rfl⟩
  rintro - -
  refine (recoverRefresh_ends (.beginAccess expected marker now)).mono ?_ fun e w h => h
  rintro - w ⟨hchanged, hsame⟩
  refine ⟨?_, fun e _ => hchanged⟩
  intro tokens htokens
  obtain ⟨hactive, htokens⟩ := activeTokens_ok htokens
  obtain ⟨rfl, hconsistent⟩ := hsame (by rw [hactive]; decide)
  split
  case isTrue hlong => exact ⟨hchanged, _, _, _, tokens, rfl, htokens, rfl, hlong⟩
  case isFalse =>
    simp only [ends_bind, ends_get, ends_ofExcept, ends_modify, ends_pure]
    refine ⟨?_, fun e _ => hchanged⟩
    rintro - -
    refine ⟨?_, fun e _ => hchanged⟩
    rintro - -
    have hfollows := Follows.dispatched expected marker now hactive
    refine save_ends.mono ?_ ?_
    · rintro - u ⟨payload, hpayload, rfl⟩
      exact ⟨.inr ⟨hconsistent, _, hfollows, rfl, .inr ⟨payload, hpayload, rfl⟩⟩, hconsistent,
        hactive, ⟨tokens, htokens, rfl⟩, rfl, payload, hpayload, rfl⟩
    · intro e u hwrote
      exact .inr ⟨hconsistent, _, hfollows, hwrote⟩

theorem finishRefresh_ends : Ends (finishRefresh outcome expected marker result now) v
    (fun authorization w => Changed (.finishRefresh expected marker result now) v w ∧
      Justified (.finishRefresh expected marker result now) v w (.authorization authorization))
    (fun _ w => Changed (.finishRefresh expected marker result now) v w) := by
  simp only [finishRefresh, ends_bind, ends_get, ends_ofExcept]
  refine ⟨?_, fun e _ => .inl rfl⟩
  intro _ hconsistent
  have hconsistent := ensureConsistent_ok hconsistent
  refine ⟨?_, fun e _ => .inl rfl⟩
  rintro - -
  refine ⟨?_, fun e _ => .inl rfl⟩
  intro _ hrequired
  obtain ⟨hdispatched, rfl⟩ := (require_ok _ _ _).mp hrequired
  cases hrefreshed : v.refreshed result now with
  | none =>
    simp only [ends_bind, ends_modify, ends_throw]
    have hfollows := Follows.abandoned
      (.finishRefresh expected v.state.refresh result now) hdispatched
    refine save_ends.mono ?_ ?_
    · rintro - w ⟨payload, hpayload, rfl⟩
      exact .inr ⟨hconsistent, _, hfollows, rfl, .inr ⟨payload, hpayload, rfl⟩⟩
    · intro e w hwrote
      exact .inr ⟨hconsistent, _, hfollows, hwrote⟩
  | some next =>
    obtain ⟨rfl, hvalid⟩ := Option.filter_eq_some_iff.mp hrefreshed
    simp only [Bool.and_eq_true, decide_eq_true_eq, Option.any_eq_true] at hvalid
    obtain ⟨haccount, hlong⟩ := hvalid
    simp only [ends_bind, ends_ofExcept, ends_modify, ends_pure]
    refine ⟨?_, fun e _ => .inl rfl⟩
    intro revision hrevision
    obtain rfl := increment_ok hrevision
    have hfollows := Follows.finished expected next now hdispatched haccount
    refine save_ends.mono ?_ ?_
    · rintro - w ⟨payload, hpayload, rfl⟩
      exact ⟨.inr ⟨hconsistent, _, hfollows, rfl, .inr ⟨payload, hpayload, rfl⟩⟩,
        _, _, next, _, rfl, rfl, hlong⟩
    · intro e w hwrote
      exact .inr ⟨hconsistent, _, hfollows, hwrote⟩

theorem perform_ends : Ends (perform outcome op) v
    (fun answer w => Changed op v w ∧ Justified op v w answer) (fun _ w => Changed op v w) := by
  cases op with
  | apply expected marker tokens now =>
    simp only [perform, ends_bind, ends_pure]
    exact apply_ends.mono (fun _ w h => ⟨h, trivial⟩) fun _ w h => h
  | beginAccess expected marker now =>
    simp only [perform, ends_bind, ends_pure]
    exact beginAccess_ends
  | finishRefresh expected marker result now =>
    simp only [perform, ends_bind, ends_pure]
    exact finishRefresh_ends
  | recoverRefresh =>
    simp only [perform, ends_bind, ends_pure]
    exact (recoverRefresh_ends .recoverRefresh).mono (fun _ w h => ⟨h.1, trivial⟩) fun _ w h => h

/-! ## Runs -/

/-- The generation and the revision of a refresh token that is handed out. -/
def granted (answer : Answer) (w : OpenAiCredentialStore x) : List (Nat × Nat) :=
  match answer with
  | .access (.refresh _ _) => [(w.state.generation, w.state.revision)]
  | _ => []

/-- The runs of a store from an empty directory on, with what was handed out. -/
inductive Runs : List (Nat × Nat) → OpenAiCredentialStore x → Prop
  | start : Runs [] {}
  | returned {log : List (Nat × Nat)} {v w : OpenAiCredentialStore x} {answer : Answer}
      (before : Runs log v) (outcome : SaveOutcome) (op : Operation x)
      (h : (perform outcome op).run v = .ok answer w) : Runs (log ++ granted answer w) w
  | failed {log : List (Nat × Nat)} {v w : OpenAiCredentialStore x} {e : PersistenceError}
      (before : Runs log v) (outcome : SaveOutcome) (op : Operation x)
      (h : (perform outcome op).run v = .error e w) : Runs log w
  | reopened {log : List (Nat × Nat)} {v w : OpenAiCredentialStore x} (before : Runs log v)
      (h : opened v.file = .ok w) : Runs log w

/-- The refresh token of a revision is not handed out from this state on. -/
def Spent (s : State x) (used : Nat × Nat) : Prop :=
  used.1 < s.generation ∨ (used.1 = s.generation ∧ (used.2 < s.revision ∨
    (used.2 = s.revision ∧ (s.phase = .dispatched ∨ s.phase = .reauthentication))))

/-- How a state is left: for a dispatched refresh there are three ways, after a
refresh that failed there is one. -/
structure Progress (s : State x) (op : Operation x) (t : State x) : Prop where
  dispatched : s.phase = .dispatched → t = s ∨ t = { s with phase := .reauthentication } ∨
    (∃ expected next now old, op = .finishRefresh expected s.refresh (some next) now ∧
      s.tokens = some old ∧ old.sameAccount next = true ∧
      t = { s with revision := s.revision + 1, phase := .active, tokens := some next }) ∨
    ((∃ expected marker tokens now, op = .apply expected marker tokens now) ∧
      t.generation = s.generation + 1)
  reauthentication : s.phase = .reauthentication → t = s ∨
    ((∃ expected marker tokens now, op = .apply expected marker tokens now) ∧
      t.generation = s.generation + 1)

theorem Follows.progress (h : Follows s op t) : Progress s op t := by
  cases h with
  | applied expected marker tokens now _ hnext =>
    exact ⟨fun _ => .inr (.inr (.inr ⟨⟨_, _, _, _, rfl⟩, hnext⟩)),
      fun _ => .inr ⟨⟨_, _, _, _, rfl⟩, hnext⟩⟩
  | abandoned _ hphase =>
    refine ⟨fun _ => .inr (.inl rfl), ?_⟩
    intro hfailed
    rw [hphase] at hfailed
    cases hfailed
  | dispatched expected marker now hphase =>
    refine ⟨?_, ?_⟩
    · intro hdispatched
      rw [hphase] at hdispatched
      cases hdispatched
    · intro hfailed
      rw [hphase] at hfailed
      cases hfailed
  | finished expected next now hphase haccount =>
    obtain ⟨old, hold, hsame⟩ := haccount
    refine ⟨fun _ => .inr (.inr (.inl ⟨_, next, _, old, rfl, hold, hsame, rfl⟩)), ?_⟩
    intro hfailed
    rw [hphase] at hfailed
    cases hfailed

theorem Follows.spent {used : Nat × Nat} (h : Follows s op t) (hused : Spent s used) :
    Spent t used := by
  cases h with
  | applied expected marker tokens now _ hnext =>
    left
    rw [hnext]
    rcases hused with hlower | ⟨hequal, -⟩
    · omega
    · omega
  | abandoned _ hphase =>
    rcases hused with hlower | ⟨hequal, hlower | ⟨hrevision, -⟩⟩
    · exact .inl hlower
    · exact .inr ⟨hequal, .inl hlower⟩
    · exact .inr ⟨hequal, .inr ⟨hrevision, .inr rfl⟩⟩
  | dispatched expected marker now hphase =>
    rcases hused with hlower | ⟨hequal, hlower | ⟨hrevision, -⟩⟩
    · exact .inl hlower
    · exact .inr ⟨hequal, .inl hlower⟩
    · exact .inr ⟨hequal, .inr ⟨hrevision, .inl rfl⟩⟩
  | finished expected next now hphase haccount =>
    rcases hused with hlower | ⟨hequal, hlower | ⟨hrevision, -⟩⟩
    · exact .inl hlower
    · exact .inr ⟨hequal, .inl (Nat.lt_succ_of_lt hlower)⟩
    · exact .inr ⟨hequal, .inl (Nat.lt_succ_of_le hrevision.le)⟩

theorem Stored.opened_ok {file : Option (List UInt8)} (h : Stored file s) :
    opened file = .ok { file, state := s, consistent := true } := by
  obtain ⟨rfl, rfl⟩ | ⟨bytes, rfl, hencoded⟩ := h
  · rfl
  · simp only [opened, decode_encode hencoded, bind, Except.bind, pure, Except.pure]

/-- What the file of a run holds. -/
structure Kept (log : List (Nat × Nat)) (v : OpenAiCredentialStore x) (s : State x) : Prop where
  stored : Stored v.file s
  memory : v.consistent = true → v.state = s
  spent : ∀ used ∈ log, Spent s used

/-- A step of a store takes its file to a state that may follow. -/
theorem Kept.changed {log : List (Nat × Nat)} (hv : Kept log v s) (h : Changed op v w) :
    ∃ t, Kept log w t ∧ (t = s ∨ Follows s op t) := by
  obtain rfl | ⟨hconsistent, t, hfollows, hstate, ⟨hfile, hlost⟩ | ⟨payload, hpayload, hfile⟩⟩ := h
  · exact ⟨s, hv, .inl rfl⟩
  · refine ⟨s, ⟨hfile ▸ hv.stored, ?_, hv.spent⟩, .inl rfl⟩
    intro hcontra
    rw [hlost] at hcontra
    cases hcontra
  · rw [hv.memory hconsistent] at hfollows
    exact ⟨t, ⟨.inr ⟨payload, hfile, hpayload⟩, fun _ => hstate,
      fun used hused => hfollows.spent (hv.spent used hused)⟩, .inr hfollows⟩

/-- A refresh token is handed out for a revision that was not spent, and spends it. -/
theorem Kept.granted {log : List (Nat × Nat)} (hv : Kept log v s) (hnodup : log.Nodup)
    (hchanged : Changed op v w) (h : Justified op v w answer) :
    (log ++ granted answer w).Nodup ∧ ∃ t, Kept (log ++ granted answer w) w t := by
  obtain ⟨t, hw, -⟩ := hv.changed hchanged
  unfold OpenAiCredential.granted
  split
  case h_1 marker grant =>
    obtain ⟨hconsistent, hactive, -, hstate, payload, hpayload, hfile⟩ := h
    have hmemory := hv.memory hconsistent
    have hw : Kept log w w.state := by
      refine ⟨.inr ⟨payload, hfile, hpayload⟩, fun _ => rfl, ?_⟩
      intro used hused
      have hspent := (Follows.dispatched 0 marker 0 (hmemory ▸ hactive)).spent (hv.spent used hused)
      rwa [hstate, hmemory]
    have hnew : (w.state.generation, w.state.revision) ∉ log := by
      intro hused
      have hspent := hv.spent _ hused
      rw [hstate, hmemory] at hspent
      rw [hmemory] at hactive
      simp [Spent, hactive] at hspent
    refine ⟨List.nodup_append.mpr ⟨hnodup, List.nodup_singleton _, ?_⟩, w.state, hw.stored,
      hw.memory, ?_⟩
    · intro used hused other hother hequal
      obtain rfl := List.mem_singleton.mp hother
      exact hnew (hequal ▸ hused)
    · intro used hused
      rcases List.mem_append.mp hused with hused | hused
      · exact hw.spent used hused
      · obtain rfl := List.mem_singleton.mp hused
        exact .inr ⟨rfl, .inr ⟨rfl, .inl (by rw [hstate])⟩⟩
  case h_2 =>
    rw [List.append_nil]
    exact ⟨hnodup, t, hw⟩

theorem Runs.kept {log : List (Nat × Nat)} (h : Runs log v) : log.Nodup ∧ ∃ s, Kept log v s := by
  induction h with
  | start => exact ⟨.nil, .absent, .inl ⟨rfl, rfl⟩, fun _ => rfl, by simp⟩
  | returned before outcome op h ih =>
    obtain ⟨hnodup, s, hv⟩ := ih
    obtain ⟨hchanged, hjustified⟩ := perform_ends.of_ok h
    exact hv.granted hnodup hchanged hjustified
  | failed before outcome op h ih =>
    obtain ⟨hnodup, s, hv⟩ := ih
    obtain ⟨t, hw, -⟩ := hv.changed (perform_ends.of_error h)
    exact ⟨hnodup, t, hw⟩
  | reopened before h ih =>
    obtain ⟨hnodup, s, hv⟩ := ih
    obtain rfl := Except.ok.inj (hv.stored.opened_ok.symm.trans h)
    exact ⟨hnodup, s, hv.stored, fun _ => rfl, hv.spent⟩

/-- Whatever a store does and wherever a save fails, its file is one that is read
back as it was written, no revision hands its refresh token out twice, and a
dispatched or failed refresh is left as `Progress` says. -/
theorem refresh_once {log : List (Nat × Nat)} (h : Runs log v) :
    log.Nodup ∧
    (∀ bytes, v.file = some bytes → ∃ s : State x,
      s.validate = .ok () ∧ encode s = .ok bytes ∧ decode bytes = .ok s) ∧
    ∃ s, Stored v.file s ∧ opened v.file = .ok { file := v.file, state := s, consistent := true } ∧
      (v.consistent = true → v.state = s) ∧
      ∀ outcome op, Ends (perform outcome op) v
        (fun answer w => Justified op v w answer ∧ ∃ t, Stored w.file t ∧ Progress s op t)
        (fun _ w => ∃ t, Stored w.file t ∧ Progress s op t) := by
  obtain ⟨hnodup, s, hv⟩ := h.kept
  have hstep : ∀ op w, Changed op v w → ∃ t, Stored w.file t ∧ Progress s op t := by
    intro op w hchanged
    obtain ⟨t, hw, rfl | hfollows⟩ := hv.changed hchanged
    · exact ⟨t, hw.stored, fun _ => .inl rfl, fun _ => .inl rfl⟩
    · exact ⟨t, hw.stored, hfollows.progress⟩
  refine ⟨hnodup, ?_, s, hv.stored, hv.stored.opened_ok, hv.memory, ?_⟩
  · intro bytes hfile
    obtain ⟨hnone, -⟩ | ⟨payload, hsome, hencoded⟩ := hv.stored
    · rw [hfile] at hnone
      cases hnone
    · obtain rfl := Option.some.inj (hfile.symm.trans hsome)
      exact ⟨s, (encode_ok.mp hencoded).1, hencoded, decode_encode hencoded⟩
  · intro outcome op
    exact perform_ends.mono (fun answer w h => ⟨h.2, hstep op w h.1⟩) fun _ w h => hstep op w h

/-! ## One refresh -/

/-- The claims of the token in the next run, and their encoding. -/
def oneClaims : String :=
  "\x7b\"exp\":4000,\"https://api.openai.com/auth\":\x7b\"chatgpt_account_id\":\"a\"\x7d\x7d"

def onePayload : String :=
  "eyJleHAiOjQwMDAsImh0dHBzOi8vYXBpLm9wZW5haS5jb20vYXV0aCI6eyJjaGF0Z3B0X2FjY291bnRfaWQiOiJhIn19"

def oneMarker (last : UInt8) : MutationMarker := ⟨List.replicate 15 0 ++ [last], rfl⟩

/-- The bytes that are hashed in the next run. -/
def oneBody (tag last : UInt8) : List UInt8 :=
  filePrefix ++ [tag] ++ BigEndian.bytes 8 1 ++ BigEndian.bytes 8 1 ++ (oneMarker 1).bytes ++
    (oneMarker last).bytes ++ BigEndian.bytes 8 4000 ++ encodeText ("h." ++ onePayload ++ ".s") ++
    encodeText "r" ++ encodeText "a"

/-- The other packages on the inputs of the next run. -/
def onePackages : Packages where
  decodeBase64 part := if part = onePayload.toList then some (bytesOf oneClaims) else none
  parseStrictValue bytes :=
    if bytes = bytesOf oneClaims then
      some (.object [("exp", .natural 4000), ("https://api.openai.com/auth",
        .object [("chatgpt_account_id", .string "a")])])
    else none
  sha256 bytes :=
    if bytes = oneBody 1 0 then
      [118, 184, 77, 90, 90, 222, 237, 153, 210, 207, 111, 90, 81, 34, 129, 114, 247, 8, 70, 17, 5,
        215, 122, 226, 113, 180, 243, 126, 25, 8, 64, 118]
    else if bytes = oneBody 2 2 then
      [197, 85, 117, 188, 77, 133, 35, 254, 218, 154, 179, 74, 236, 92, 1, 183, 138, 24, 85, 27,
        253, 193, 91, 206, 24, 240, 88, 26, 249, 215, 131, 108]
    else List.replicate 32 0
  sha256_length bytes := by
    split
    · rfl
    · split
      · rfl
      · rfl

def oneTokens : OAuthTokens onePackages where
  access := "h." ++ onePayload ++ ".s"
  refresh := "r"
  account := "a"
  expiresAtSeconds := 4000
  accessValid := by decide +kernel
  refreshValid := by decide +kernel
  claimed := ⟨4000, by decide +kernel, by decide, by decide⟩

/-- The state after a login, and after the refresh token was handed out. -/
def oneActive : State onePackages := ⟨1, 1, oneMarker 1, noMarker, .active, some oneTokens⟩

def oneDispatched : State onePackages :=
  ⟨1, 1, oneMarker 1, oneMarker 2, .dispatched, some oneTokens⟩

def oneStore (s : State onePackages) : OpenAiCredentialStore onePackages :=
  { file := some (encodeBody s ++ onePackages.sha256 (encodeBody s)), state := s }

theorem oneActive_encoded : encode oneActive =
    .ok (encodeBody oneActive ++ onePackages.sha256 (encodeBody oneActive)) :=
  encode_ok.mpr ⟨rfl, rfl⟩

theorem oneDispatched_encoded : encode oneDispatched =
    .ok (encodeBody oneDispatched ++ onePackages.sha256 (encodeBody oneDispatched)) :=
  encode_ok.mpr ⟨rfl, rfl⟩

theorem oneStore_login : (perform .completed (.apply 0 (oneMarker 1) (some oneTokens) 0)).run {} =
    .ok (.identity ⟨true, 1⟩) (oneStore oneActive) := by
  have hnext : nextGeneration ({} : OpenAiCredentialStore onePackages) 0 (oneMarker 1)
      (some oneTokens) 0 = .ok 1 := rfl
  have hencoded := oneActive_encoded
  unfold oneActive at hencoded
  simp only [perform, apply, save, EStateM.run_bind, EStateM.run_get, EStateM.run_modify,
    EStateM.run_pure, hnext, ofExcept, Option.isSome_some, if_true, hencoded]
  rfl

theorem oneStore_consistent : (oneStore oneActive).ensureConsistent = .ok () := by
  simp only [ensureConsistent, oneStore, oneActive_encoded, bind, Except.bind, demand]
  rfl

theorem oneStore_grant :
    (perform .completed (.beginAccess 1 (oneMarker 2) 3800)).run (oneStore oneActive) =
      .ok (.access (.refresh (oneMarker 2) ⟨"r"⟩)) (oneStore oneDispatched) := by
  have hgeneration : (oneStore oneActive).requireGeneration 1 = .ok () := rfl
  have hrecovered : (recoverRefresh .completed).run (oneStore oneActive) =
      .ok () (oneStore oneActive) := by
    simp only [recoverRefresh, EStateM.run_bind, EStateM.run_get, oneStore_consistent, ofExcept]
    rfl
  have htokens : (oneStore oneActive).activeTokens = .ok oneTokens := rfl
  have hshort : ¬ minLifetimeSeconds < oneTokens.expiresAtSeconds - 3800 := by decide
  have hincrement : increment (oneStore oneActive).state.revision = .ok 2 := rfl
  have hmarker : require (oneMarker 2 ≠ noMarker ∧ oneMarker 2 ≠ (oneStore oneActive).state.refresh)
      invalid = .ok () := rfl
  have hencoded := oneDispatched_encoded
  unfold oneDispatched at hencoded
  simp only [perform, beginAccess, save, EStateM.run_bind, EStateM.run_get, EStateM.run_modify,
    EStateM.run_pure, oneStore_consistent, hgeneration, hrecovered, htokens, if_neg hshort,
    hincrement, hmarker, ofExcept]
  simp only [oneStore, oneActive, hencoded, EStateM.run_pure]
  rfl

/-- A login, and the refresh token handed out when the access token runs out. -/
theorem refresh_once_oneTokens : Runs [(1, 1)] (oneStore oneDispatched) ∧
    ∃ s : State onePackages, Stored (oneStore oneDispatched).file s ∧ s = oneDispatched := by
  have hruns := (Runs.start.returned _ _ oneStore_login).returned _ _ oneStore_grant
  obtain ⟨-, -, s, hstored, -, hmemory, -⟩ := refresh_once hruns
  exact ⟨hruns, s, hstored, (hmemory rfl).symm⟩

end Morons.OpenAiCredential
