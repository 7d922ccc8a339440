import Mathlib.Data.Int.NatAbs
import Mathlib.Data.List.Basic
import Mathlib.Tactic.Common

/-!
# Text as bytes

The bytes of a text, and the byte positions at which one of its characters
starts.  A byte of a text says whether it starts a character, so a text that
stands inside another one as bytes stands there as characters.
-/

namespace Utf8

/-- The bytes of some characters. -/
def encode (cs : List Char) : List UInt8 := cs.flatMap String.utf8EncodeChar

/-- A byte that goes on with a character. -/
def continues (b : UInt8) : Bool := decide (128 ≤ b.toNat) && decide (b.toNat < 192)

/-- `is_char_boundary`: the start of a character, or the end of the text. -/
def isBoundary (bytes : List UInt8) (p : Nat) : Bool :=
  decide (p = 0) ||
    match bytes[p]? with
    | some b => !continues b
    | none => decide (p = bytes.length)

/-- The bytes between two positions, which have to be character boundaries. -/
def sliceBytes (bytes : List UInt8) (start stop : Nat) : Option (List UInt8) :=
  if start ≤ stop ∧ isBoundary bytes start ∧ isBoundary bytes stop then
    some ((bytes.take stop).drop start)
  else none

variable {cs old before after : List Char} {c d : Char} {p : Nat}

@[simp] theorem encode_nil : encode [] = [] := rfl

@[simp] theorem encode_cons (c : Char) (cs : List Char) :
    encode (c :: cs) = String.utf8EncodeChar c ++ encode cs := rfl

@[simp] theorem encode_append (a b : List Char) : encode (a ++ b) = encode a ++ encode b := by
  simp [encode]

/-- A character is one byte that starts it and some that go on with it. -/
theorem encodeChar_shape (c : Char) :
    ∃ b rest, String.utf8EncodeChar c = b :: rest ∧ continues b = false ∧
      ∀ r ∈ rest, continues r = true := by
  unfold String.utf8EncodeChar
  simp only [continues]
  split
  · refine ⟨_, _, rfl, ?_, by simp⟩
    simp only [UInt8.toNat_ofNat', Bool.and_eq_false_iff, decide_eq_false_iff_not]
    omega
  · split
    · refine ⟨_, _, rfl, ?_, ?_⟩
      · simp only [UInt8.toNat_ofNat', Bool.and_eq_false_iff, decide_eq_false_iff_not]
        omega
      · simp only [List.mem_singleton, forall_eq, UInt8.toNat_ofNat', Bool.and_eq_true,
          decide_eq_true_eq]
        omega
    · split
      · refine ⟨_, _, rfl, ?_, ?_⟩
        · simp only [UInt8.toNat_ofNat', Bool.and_eq_false_iff, decide_eq_false_iff_not]
          omega
        · simp only [List.mem_cons, List.not_mem_nil, or_false, forall_eq_or_imp, forall_eq,
            UInt8.toNat_ofNat', Bool.and_eq_true, decide_eq_true_eq]
          omega
      · refine ⟨_, _, rfl, ?_, ?_⟩
        · simp only [UInt8.toNat_ofNat', Bool.and_eq_false_iff, decide_eq_false_iff_not]
          omega
        · simp only [List.mem_cons, List.not_mem_nil, or_false, forall_eq_or_imp, forall_eq,
            UInt8.toNat_ofNat', Bool.and_eq_true, decide_eq_true_eq]
          omega

/-- The first character can be read off the bytes. -/
theorem encodeChar_prefix_inj {x y : List UInt8}
    (h : String.utf8EncodeChar c ++ x = String.utf8EncodeChar d ++ y) : c = d := by
  have hc := ByteArray.utf8DecodeChar?_utf8EncodeChar_append (b := x.toByteArray) (c := c)
  have hd := ByteArray.utf8DecodeChar?_utf8EncodeChar_append (b := y.toByteArray) (c := d)
  rw [← List.toByteArray_append, h, List.toByteArray_append, hd] at hc
  exact (Option.some.inj hc).symm

theorem prefix_of_encode_prefix (h : encode old <+: encode cs) : old <+: cs := by
  induction old generalizing cs with
  | nil => exact List.nil_prefix
  | cons c old ih =>
    obtain ⟨tail, htail⟩ := h
    cases cs with
    | nil =>
      obtain ⟨b, rest, hbytes, -, -⟩ := encodeChar_shape c
      simp [hbytes] at htail
    | cons d cs =>
      rw [encode_cons, encode_cons, List.append_assoc] at htail
      obtain rfl := encodeChar_prefix_inj htail
      have hrest : encode old <+: encode cs := ⟨tail, List.append_cancel_left htail⟩
      exact (List.prefix_cons_inj c).mpr (ih hrest)

theorem isBoundary_length_append (a b : List Char) :
    isBoundary (encode (a ++ b)) (encode a).length = true := by
  rw [encode_append]
  cases b with
  | nil => simp [isBoundary]
  | cons c b =>
    obtain ⟨first, rest, hbytes, hfirst, -⟩ := encodeChar_shape c
    simp [isBoundary, hbytes, hfirst]

/-- A byte that starts a character is behind whole characters. -/
theorem split_of_starts {b : UInt8} (hb : (encode cs)[p]? = some b) (hstarts : continues b = false) :
    ∃ before after, cs = before ++ after ∧ (encode before).length = p := by
  induction cs generalizing p with
  | nil => simp at hb
  | cons c cs ih =>
    obtain ⟨first, rest, hbytes, -, hrest⟩ := encodeChar_shape c
    rw [encode_cons] at hb
    by_cases hzero : p = 0
    · exact ⟨[], c :: cs, rfl, by simp [hzero]⟩
    · by_cases hinside : p < (String.utf8EncodeChar c).length
      · rw [List.getElem?_append_left hinside, hbytes] at hb
        obtain ⟨q, rfl⟩ := Nat.exists_eq_succ_of_ne_zero hzero
        have hmem : b ∈ rest := List.mem_of_getElem? (by simpa using hb)
        rw [hrest b hmem] at hstarts
        cases hstarts
      · rw [List.getElem?_append_right (Nat.le_of_not_lt hinside)] at hb
        obtain ⟨before, after, rfl, hlength⟩ := ih hb
        refine ⟨c :: before, after, rfl, ?_⟩
        rw [encode_cons, List.length_append, hlength]
        omega

/-- The boundaries of a text are the lengths of its beginnings. -/
theorem isBoundary_encode :
    isBoundary (encode cs) p = true ↔
      ∃ before after, cs = before ++ after ∧ (encode before).length = p := by
  constructor
  · intro h
    simp only [isBoundary, Bool.or_eq_true, decide_eq_true_eq] at h
    obtain rfl | h := h
    · exact ⟨[], cs, rfl, rfl⟩
    · split at h
      case h_1 b hb => exact split_of_starts hb (by simpa using h)
      case h_2 => exact ⟨cs, [], by simp, by simpa using Eq.symm (by simpa using h)⟩
  · rintro ⟨before, after, rfl, rfl⟩
    exact isBoundary_length_append before after

/-- What stands inside a text as bytes stands there as characters. -/
theorem split_of_occurs (hold : old ≠ []) (h : encode old <+: (encode cs).drop p) :
    ∃ before after, cs = before ++ (old ++ after) ∧ (encode before).length = p := by
  cases old with
  | nil => exact absurd rfl hold
  | cons c old =>
    obtain ⟨first, rest, hbytes, hfirst, -⟩ := encodeChar_shape c
    obtain ⟨tail, htail⟩ := h
    have hbyte : (encode cs)[p]? = some first := by
      have hhead : ((encode cs).drop p)[0]? = some first := by
        rw [← htail, encode_cons, hbytes]
        rfl
      simpa using hhead
    obtain ⟨before, after, rfl, hlength⟩ := split_of_starts hbyte hfirst
    have hprefix : encode (c :: old) <+: encode after := by
      refine ⟨tail, ?_⟩
      rw [htail, encode_append, ← hlength, List.drop_left]
    obtain ⟨after, rfl⟩ := prefix_of_encode_prefix hprefix
    exact ⟨before, after, by simp, hlength⟩

/-- Some bytes are a text. -/
def IsText (bytes : List UInt8) : Prop := ∃ cs, bytes = encode cs

theorem IsText.append {a b : List UInt8} (ha : IsText a) (hb : IsText b) : IsText (a ++ b) := by
  obtain ⟨cs, rfl⟩ := ha
  obtain ⟨ds, rfl⟩ := hb
  exact ⟨cs ++ ds, (encode_append cs ds).symm⟩

theorem encode_eq_nil (h : (encode cs).length = 0) : cs = [] := by
  cases cs with
  | nil => rfl
  | cons c cs =>
    have hpos := c.utf8Size_pos
    rw [encode_cons, List.length_append, String.length_utf8EncodeChar] at h
    omega

/-- A slice of a text is a text. -/
theorem IsText.slice {bytes s : List UInt8} {start stop : Nat} (hbytes : IsText bytes)
    (h : sliceBytes bytes start stop = some s) : IsText s := by
  obtain ⟨cs, rfl⟩ := hbytes
  unfold sliceBytes at h
  split at h
  case isFalse => cases h
  case isTrue hslice =>
    obtain ⟨hle, hstart, hstop⟩ := hslice
    obtain rfl := Option.some.inj h
    obtain ⟨before, after, rfl, rfl⟩ := isBoundary_encode.mp hstop
    obtain ⟨front, back, hsplit, rfl⟩ := isBoundary_encode.mp hstart
    rw [encode_append, List.take_left]
    obtain ⟨middle, rfl, -⟩ | ⟨middle, rfl, -⟩ := List.append_eq_append_iff.mp hsplit
    · rw [encode_append, List.length_append] at hle
      obtain rfl := encode_eq_nil (show (encode middle).length = 0 by omega)
      exact ⟨[], by simp⟩
    · exact ⟨middle, by rw [encode_append, List.drop_left]⟩

end Utf8
