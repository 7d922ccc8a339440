import Morons.Tool.Direct

/-!
# Paged reading

A file is read page by page, each page from the line the last one ended with.
The pages are the file, nothing twice and nothing left out, and only a line
that does not fit a page stops the reader.
-/

namespace Morons

open Attempt Provider

variable {x : DirectToolExecutor} {disk : Disk} {path : String} {text : String}
  {line output out : List Char} {lines rest : List (List Char)} {offset limit returned n : Nat}

/-- A text has no more characters than bytes. -/
theorem length_le_encode (cs : List Char) : cs.length ≤ (Utf8.encode cs).length := by
  induction cs with
  | nil => simp
  | cons c cs ih =>
    have hpos := c.utf8Size_pos
    rw [Utf8.encode_cons, List.length_append, String.length_utf8EncodeChar, List.length_cons]
    omega

/-! ## Lines -/

theorem splitInclusive_flatten (cs : List Char) : (splitInclusive cs).flatten = cs := by
  induction cs with
  | nil => rfl
  | cons c cs ih =>
    rw [splitInclusive]
    split
    · rw [List.flatten_cons, ih]
      rfl
    · split
      case h_1 hnone =>
        rw [hnone] at ih
        simp [← ih]
      case h_2 line lines hlines =>
        rw [hlines] at ih
        simp [← ih]

theorem splitInclusive_ne_nil (cs : List Char) : ∀ line ∈ splitInclusive cs, line ≠ [] := by
  induction cs with
  | nil => simp [splitInclusive]
  | cons c cs ih =>
    rw [splitInclusive]
    split
    · intro line hline
      rcases List.mem_cons.mp hline with rfl | hline
      · simp
      · exact ih line hline
    · split
      case h_1 => simp
      case h_2 first lines hlines =>
        intro line hline
        rcases List.mem_cons.mp hline with rfl | hline
        · simp
        · exact ih line (by rw [hlines]; exact List.mem_cons_of_mem _ hline)

theorem length_le_flatten (hlines : ∀ line ∈ lines, line ≠ []) :
    lines.length ≤ lines.flatten.length := by
  induction lines with
  | nil => simp
  | cons line lines ih =>
    obtain ⟨hline, hlines⟩ := List.forall_mem_cons.mp hlines
    have hpos := List.length_pos_iff.mpr hline
    have hrest := ih hlines
    rw [List.flatten_cons, List.length_append, List.length_cons]
    omega

/-- A file that can be read has a number of lines that an offset can hold. -/
theorem lines_lt (hsize : (bytesOf text).length ≤ maxInputImageBytes) :
    (splitInclusive text.toList).length + 1 < 2 ^ 32 := by
  have hlines := length_le_flatten (splitInclusive_ne_nil text.toList)
  have hchars := length_le_encode text.toList
  rw [splitInclusive_flatten] at hlines
  rw [bytesOf_eq_encode] at hsize
  unfold maxInputImageBytes at hsize
  omega

/-! ## One page -/

/-- The lines of a page: those in front, and none only when nothing is left. -/
theorem takeLines_ok {cancelled : Nat → Bool} (hlines : ∀ line ∈ rest, line ≠ [])
    (hfits : (Utf8.encode output).length ≤ maxReadOutputBytes)
    (h : takeLines cancelled output returned rest = .ok (out, n)) :
    ∃ k ≤ rest.length, out = output ++ (rest.take k).flatten ∧ n = returned + k ∧
      (Utf8.encode out).length ≤ maxReadOutputBytes ∧ (rest ≠ [] → output = [] → 0 < k) := by
  induction rest generalizing output returned with
  | nil =>
    simp only [takeLines, Except.ok.injEq, Prod.mk.injEq] at h
    obtain ⟨rfl, rfl⟩ := h
    exact ⟨0, Nat.le_refl 0, by simp, rfl, hfits, by simp⟩
  | cons line rest ih =>
    obtain ⟨hline, hrest⟩ := List.forall_mem_cons.mp hlines
    -- A page that stops in front of a line has another one already.
    have hstop (h : (if output.isEmpty then Except.error .resourceLimit
        else Except.ok (output, returned) : Except ToolErrorKind _) = .ok (out, n)) :
        ∃ k ≤ (line :: rest).length, out = output ++ ((line :: rest).take k).flatten ∧
          n = returned + k ∧ (Utf8.encode out).length ≤ maxReadOutputBytes ∧
          (line :: rest ≠ [] → output = [] → 0 < k) := by
      split at h
      case isTrue => cases h
      case isFalse hempty =>
        simp only [Except.ok.injEq, Prod.mk.injEq] at h
        obtain ⟨rfl, rfl⟩ := h
        refine ⟨0, Nat.zero_le _, by simp, rfl, hfits, ?_⟩
        intro _ hnil
        exact absurd (by simp [hnil]) hempty
    simp only [takeLines, bind_ok, require_ok, exists_const] at h
    obtain ⟨-, h⟩ := h
    split at h
    case h_1 bytes hbytes =>
      obtain ⟨-, rfl⟩ : _ ∧ _ = bytes := by simpa [checkedAdd] using hbytes
      split at h
      case isTrue hroom =>
        simp only [bind_ok, demand_ok] at h
        obtain ⟨next, hnext, h⟩ := h
        obtain ⟨-, rfl⟩ : _ ∧ returned + 1 = next := by simpa [checkedAddU32] using hnext
        have hfits' : (Utf8.encode (output ++ line)).length ≤ maxReadOutputBytes := by
          rw [Utf8.encode_append, List.length_append]
          exact hroom
        obtain ⟨k, hk, rfl, rfl, hout, -⟩ := ih hrest hfits' h
        exact ⟨k + 1, by simpa using hk, by simp, by omega, hout, by simp⟩
      case isFalse => exact hstop h
    case h_2 => exact hstop h

/-- Nothing but a line that does not fit an empty page stops the loop. -/
theorem takeLines_error {cancelled : Nat → Bool} {error : ToolErrorKind}
    (hlines : ∀ line ∈ rest, line ≠ []) (hgoes : ∀ n, cancelled n = false)
    (hcount : returned + rest.length < 2 ^ 32)
    (h : takeLines cancelled output returned rest = .error error) :
    error = .resourceLimit ∧ output = [] ∧
      ∃ line, rest[0]? = some line ∧ maxReadOutputBytes < (Utf8.encode line).length := by
  induction rest generalizing output returned with
  | nil => cases h
  | cons line rest ih =>
    obtain ⟨hline, hrest⟩ := List.forall_mem_cons.mp hlines
    have hstop (hlarge : maxReadOutputBytes < (Utf8.encode output).length + (Utf8.encode line).length)
        (hend : (if output.isEmpty then Except.error .resourceLimit
          else Except.ok (output, returned) : Except ToolErrorKind _) = .error error) :
        error = .resourceLimit ∧ output = [] ∧
          ∃ line', (line :: rest)[0]? = some line' ∧
            maxReadOutputBytes < (Utf8.encode line').length := by
      split at hend
      case isTrue hempty =>
        have hnil := List.isEmpty_iff.mp hempty
        rw [hnil] at hlarge
        cases hend
        exact ⟨rfl, hnil, line, rfl, by simpa using hlarge⟩
      case isFalse => cases hend
    have hask : require (¬ cancelled (2 + returned)) ToolErrorKind.cancelled = .ok () :=
      (require_ok ..).mpr (by simp [hgoes])
    rw [takeLines, hask] at h
    simp only [bind, Except.bind] at h
    split at h
    case h_1 bytes hbytes =>
      obtain ⟨-, rfl⟩ : _ ∧ _ = bytes := by simpa [checkedAdd] using hbytes
      split at h
      case isTrue hroom =>
        have hnext : checkedAddU32 returned 1 = some (returned + 1) := by
          rw [List.length_cons] at hcount
          rw [checkedAddU32, if_pos (by omega)]
        simp only [hnext, demand] at h
        obtain ⟨-, hnil, -⟩ := ih hrest (by rw [List.length_cons] at hcount; omega) h
        exact absurd (List.append_eq_nil_iff.mp hnil).2 hline
      case isFalse hroom => exact hstop (by omega) h
    case h_2 hbytes =>
      have hlarge : ¬ (Utf8.encode output).length + (Utf8.encode line).length < 2 ^ 64 := by
        simpa [checkedAdd] using hbytes
      exact hstop (by unfold maxReadOutputBytes; omega) h

/-- The next page goes on where the offset stands, or its first line is too long. -/
theorem readPage_cases (path : String)
    (hsize : (bytesOf text).length ≤ maxInputImageBytes)
    (hgoes : ∀ n, x.cancelled n = false) (hoffset : 1 ≤ offset)
    (hlines : offset ≤ (splitInclusive text.toList).length + 1)
    (hlimit : 1 ≤ limit ∧ limit ≤ maxReadLines) :
    (∃ k page, readPage x.cancelled path text offset limit = .ok (.read path offset (offset + k)
        (decide ((splitInclusive text.toList).length + 1 ≤ offset + k)) page) ∧
      offset + k ≤ (splitInclusive text.toList).length + 1 ∧
      page.toList = (((splitInclusive text.toList).drop (offset - 1)).take k).flatten ∧
      (bytesOf page).length ≤ maxReadOutputBytes ∧
      (offset ≤ (splitInclusive text.toList).length → 0 < k)) ∨
    (readPage x.cancelled path text offset limit = .error .resourceLimit ∧
      ∃ line, (splitInclusive text.toList)[offset - 1]? = some line ∧
        maxReadOutputBytes < (Utf8.encode line).length) := by
  have hnonempty : ∀ line ∈ ((splitInclusive text.toList).drop (offset - 1)).take limit,
      line ≠ [] := by
    intro line hline
    exact splitInclusive_ne_nil _ line (List.mem_of_mem_drop (List.mem_of_mem_take hline))
  have htotal := lines_lt hsize
  have htaken : (((splitInclusive text.toList).drop (offset - 1)).take limit).length =
      min limit ((splitInclusive text.toList).length - (offset - 1)) := by
    rw [List.length_take, List.length_drop]
  cases htake : takeLines x.cancelled [] 0
      (((splitInclusive text.toList).drop (offset - 1)).take limit) with
  | error error =>
    right
    obtain ⟨rfl, -, line, hline, hlarge⟩ :=
      takeLines_error hnonempty hgoes (by omega) htake
    refine ⟨?_, line, ?_, hlarge⟩
    · rw [readPage, htake]
      rfl
    · rw [List.getElem?_take_of_lt (by omega), List.getElem?_drop] at hline
      simpa using hline
  | ok result =>
    left
    obtain ⟨out, n⟩ := result
    obtain ⟨k, hk, rfl, rfl, hout, hmoves⟩ :=
      takeLines_ok hnonempty (by simp [maxReadOutputBytes]) htake
    have hnext : checkedAddU32 offset (0 + k) = some (offset + k) := by
      rw [checkedAddU32, if_pos (by omega), Nat.zero_add]
    refine ⟨k, String.ofList ([] ++ ((((splitInclusive text.toList).drop (offset - 1)).take
      limit).take k).flatten), ?_, by omega, ?_, ?_, ?_⟩
    · rw [readPage, htake]
      simp only [bind, Except.bind, hnext, demand, pure, Except.pure]
      congr 2
      rw [decide_eq_decide]
      omega
    · rw [String.toList_ofList, List.nil_append, List.take_take, Nat.min_eq_left (by omega)]
    · rw [bytesOf_eq_encode, String.toList_ofList]
      exact hout
    · intro hmore
      refine hmoves ?_ rfl
      rw [← List.length_pos_iff]
      omega

/-! ## A whole reading -/

/-- Calls of `read` from line 1 on, each from the offset the last one returned:
their number, the next offset, what was read, and whether the end was reported. -/
inductive Reading (x : DirectToolExecutor) (disk : Disk) (path : String) :
    Nat → Nat → List Char → Bool → Prop
  | start : Reading x disk path 0 1 [] false
  | call {calls offset limit nextOffset : Nat} {read : List Char} {endOfFile : Bool}
      {page : String} (before : Reading x disk path calls offset read false)
      (hlimit : 1 ≤ limit ∧ limit ≤ maxReadLines)
      (hpage : (x.execute disk (.read path offset limit) none).1 =
        .ok (.read path offset nextOffset endOfFile page)) :
      Reading x disk path (calls + 1) nextOffset (read ++ page.toList) endOfFile

section Reading

variable (hfile : disk (x.resolve path) = .file (bytesOf text)) (hnul : '\x00' ∉ text.toList)
  (hsize : (bytesOf text).length ≤ maxInputImageBytes) (hgoes : ∀ n, x.cancelled n = false)

include hfile hnul hsize hgoes

/-- A call in a text file reads a page of the text. -/
theorem execute_read (hoffset : 1 ≤ offset) (hlimit : 1 ≤ limit ∧ limit ≤ maxReadLines) :
    (x.execute disk (.read path offset limit) none).1 =
      (readPage x.cancelled path text offset limit).mapError .error := by
  have hargs : offset ≠ 0 ∧ limit ≠ 0 ∧ limit ≤ maxReadLines := ⟨by omega, by omega, hlimit.2⟩
  have hcancelled : ¬ x.cancelled 1 = true := by simp [hgoes]
  have hbytes : x.readBoundedWithLimit disk (x.resolve path) maxInputImageBytes =
      .ok (bytesOf text) := by
    simp [DirectToolExecutor.readBoundedWithLimit, hfile, require, hsize, hcancelled, bind,
      Except.bind, pure, Except.pure]
  simp only [DirectToolExecutor.execute, hgoes, Bool.false_eq_true, if_false,
    DirectToolExecutor.read, require, if_pos hargs, hbytes, bind, Except.bind, decodeUtf8_bytesOf,
    if_neg hnul]

/-- What is kept through a reading: it stands between two lines of the file. -/
theorem Reading.invariant {calls : Nat} {read : List Char} {ended : Bool}
    (h : Reading x disk path calls offset read ended) :
    1 ≤ offset ∧ offset ≤ (splitInclusive text.toList).length + 1 ∧
      read = ((splitInclusive text.toList).take (offset - 1)).flatten ∧
      (ended = true → offset = (splitInclusive text.toList).length + 1) ∧
      (ended = false → calls + 1 ≤ offset) ∧
      (ended = true → calls ≤ (splitInclusive text.toList).length + 1) := by
  induction h with
  | start => simp
  | @call calls offset limit nextOffset read endOfFile page before hlimit hpage ih =>
    obtain ⟨hoffset, hlines, rfl, -, hcalls, -⟩ := ih
    have hcalls := hcalls rfl
    rw [execute_read hfile hnul hsize hgoes hoffset hlimit] at hpage
    obtain ⟨k, text', hok, hend, hpageText, -, hmoves⟩ | ⟨herror, -⟩ :=
      readPage_cases path hsize hgoes hoffset hlines hlimit
    · rw [hok] at hpage
      simp only [Except.mapError, Except.ok.injEq, DirectOutput.read.injEq, true_and] at hpage
      obtain ⟨rfl, hended, rfl⟩ := hpage
      refine ⟨by omega, hend, ?_, ?_, ?_, ?_⟩
      · rw [hpageText, ← List.flatten_append, show offset + k - 1 = offset - 1 + k by omega,
          List.take_add]
      · rintro rfl
        have := of_decide_eq_true hended
        omega
      · rintro rfl
        have := of_decide_eq_false hended
        have := hmoves (by omega)
        omega
      · intro _
        omega
    · rw [herror] at hpage
      cases hpage

end Reading

/-- However a text file is read from its first line on, the calls move through it
and give it back, and only a line that does not fit a page stops them. -/
theorem reading_covers (hfile : disk (x.resolve path) = .file (bytesOf text))
    (hnul : '\x00' ∉ text.toList) (hsize : (bytesOf text).length ≤ maxInputImageBytes)
    (hgoes : ∀ n, x.cancelled n = false) {calls : Nat} {read : List Char} {ended : Bool}
    (h : Reading x disk path calls offset read ended) :
    (ended = true → String.ofList read = text) ∧
    (∃ more, String.ofList read ++ more = text) ∧
    calls ≤ (splitInclusive text.toList).length + 1 ∧
    (ended = false → ∀ limit, 1 ≤ limit → limit ≤ maxReadLines →
      (∃ nextOffset endOfFile page, (x.execute disk (.read path offset limit) none).1 =
          .ok (.read path offset nextOffset endOfFile page) ∧
        (bytesOf page).length ≤ maxReadOutputBytes ∧ (endOfFile = false → offset < nextOffset)) ∨
      ((x.execute disk (.read path offset limit) none).1 = .error (.error .resourceLimit) ∧
        ∃ line, (splitInclusive text.toList)[offset - 1]? = some line ∧
          maxReadOutputBytes < (bytesOf (String.ofList line)).length)) := by
  obtain ⟨hoffset, hlines, hread, hended, hgoing, hdone⟩ := h.invariant hfile hnul hsize hgoes
  refine ⟨?_, ?_, ?_, ?_⟩
  · intro hend
    rw [hread, hended hend, Nat.add_sub_cancel, List.take_length, splitInclusive_flatten,
      String.ofList_toList]
  · refine ⟨String.ofList ((splitInclusive text.toList).drop (offset - 1)).flatten, ?_⟩
    rw [hread, ← String.ofList_append, ← List.flatten_append, List.take_append_drop,
      splitInclusive_flatten, String.ofList_toList]
  · cases ended with
    | true => exact hdone rfl
    | false =>
      have := hgoing rfl
      omega
  · intro _ limit hlow hhigh
    rw [execute_read hfile hnul hsize hgoes hoffset ⟨hlow, hhigh⟩]
    obtain ⟨k, page, hok, hend, -, hbytes, hmoves⟩ | ⟨herror, line, hline, hlarge⟩ :=
      readPage_cases path hsize hgoes hoffset hlines ⟨hlow, hhigh⟩
    · left
      refine ⟨offset + k, _, page, by rw [hok]; rfl, hbytes, ?_⟩
      intro hmore
      have := of_decide_eq_false hmore
      have := hmoves (by omega)
      omega
    · right
      refine ⟨by rw [herror]; rfl, line, hline, ?_⟩
      rwa [bytesOf_eq_encode, String.toList_ofList]

/-- Reading a file with a carriage return and no line feed at its end, one line a call. -/
theorem reading_covers_two_lines :
    let x : DirectToolExecutor := ⟨id, fun _ => some "/", fun _ _ => none, fun _ => false⟩
    let disk : Disk := fun _ => .file (bytesOf "a\r\né")
    Reading x disk "file" 2 3 "a\r\né".toList true ∧ String.ofList "a\r\né".toList = "a\r\né" := by
  intro x disk
  have hnul : '\x00' ∉ "a\r\né".toList := by decide
  have hsize : (bytesOf "a\r\né").length ≤ maxInputImageBytes := by decide +kernel
  have hfirst : (x.execute disk (.read "file" 1 1) none).1 = .ok (.read "file" 1 2 false "a\r\n") :=
    (execute_read rfl hnul hsize (fun _ => rfl) (by decide) (by decide)).trans (by decide +kernel)
  have hsecond : (x.execute disk (.read "file" 2 1) none).1 = .ok (.read "file" 2 3 true "é") :=
    (execute_read rfl hnul hsize (fun _ => rfl) (by decide) (by decide)).trans (by decide +kernel)
  have hreading : Reading x disk "file" 2 3 "a\r\né".toList true :=
    .call (.call .start (by decide) hfirst) (by decide) hsecond
  exact ⟨hreading, (reading_covers rfl hnul hsize (fun _ => rfl) hreading).1 rfl⟩

end Morons
