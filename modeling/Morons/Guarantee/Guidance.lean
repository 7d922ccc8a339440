import Morons.Run.Guidance

/-!
# Guidance within its snapshot

Whatever a discovery finds, its context is one that a run may store: the room
that is kept for warnings when a file is accepted is enough for all of them.
-/

namespace Morons.Guidance

open UnixPath (Path join components ancestors)
open Utf8 (size size_append size_cons size_nil utf8ByteSize_ofList)

variable {host : Host} {late : Nat → Bool} {d : Discovery} {path directory : Path}
  {warnings : List String} {files : List ProjectFile} {reason warning text content : String}
  {global : Bool} {done rest : List (Path × Bool)} {checks limit : Nat}

/-! ## Warnings -/

/-- A warning that may be stored. -/
structure WarningSound (warning : String) : Prop where
  nonempty : warning ≠ ""
  sized : warning.utf8ByteSize ≤ maxProjectWarningBytes
  plain : ∀ c ∈ warning.toList, isControl c = false

/-- A reason that fits behind a path. -/
def Reason (reason : String) : Prop :=
  reason.utf8ByteSize ≤ 100 ∧ reason.toList.any isControl = false

instance : Decidable (Reason reason) := inferInstanceAs (Decidable (_ ∧ _))

theorem floorCharBoundary_size (limit : Nat) (cs : List Char) :
    size (floorCharBoundary limit cs) ≤ limit := by
  induction cs generalizing limit with
  | nil => simp [floorCharBoundary]
  | cons c cs ih =>
    unfold floorCharBoundary
    split
    case isTrue hfits =>
      have hrest := ih (limit - c.utf8Size)
      rw [size_cons]
      omega
    case isFalse => simp

theorem mem_floorCharBoundary {c : Char} {cs : List Char} (h : c ∈ floorCharBoundary limit cs) :
    c ∈ cs := by
  induction cs generalizing limit with
  | nil => simp [floorCharBoundary] at h
  | cons d cs ih =>
    unfold floorCharBoundary at h
    split at h
    case isTrue =>
      rcases List.mem_cons.mp h with rfl | h
      · exact List.mem_cons_self ..
      · exact List.mem_cons_of_mem _ (ih h)
    case isFalse => cases h

/-- The control characters of a path are shown as question marks. -/
theorem shown_plain (cs : List Char) :
    ∀ c ∈ cs.map (fun c => if isControl c then '?' else c), isControl c = false := by
  intro c hc
  obtain ⟨b, -, rfl⟩ := List.mem_map.mp hc
  split
  case isTrue => decide
  case isFalse h => exact Bool.eq_false_iff.mpr h

theorem omittedWarnings_plain : omittedWarnings.toList.any isControl = false := by decide +kernel

theorem omittedWarnings_sound : WarningSound omittedWarnings :=
  ⟨by decide, by decide +kernel, fun c hc =>
    Bool.eq_false_iff.mpr (List.any_eq_false.mp omittedWarnings_plain c hc)⟩

theorem warningText_sound (h : Reason reason) :
    WarningSound (String.ofList (floorCharBoundary maxWarningPathBytes
      ((host.toStringLossy path).map fun c => if isControl c then '?' else c)) ++ ": " ++ reason) := by
  have hsize := floorCharBoundary_size maxWarningPathBytes
    ((host.toStringLossy path).map fun c => if isControl c then '?' else c)
  refine ⟨?_, ?_, ?_⟩
  · intro hempty
    have hlength := congrArg String.utf8ByteSize hempty
    have hcolon : (": " : String).utf8ByteSize = 2 := by decide +kernel
    rw [String.utf8ByteSize_append, String.utf8ByteSize_append, hcolon] at hlength
    simp only [String.utf8ByteSize_empty] at hlength
    omega
  · have hcolon : (": " : String).utf8ByteSize = 2 := by decide +kernel
    have hreason := h.1
    rw [String.utf8ByteSize_append, String.utf8ByteSize_append, hcolon, utf8ByteSize_ofList]
    simp only [maxWarningPathBytes] at hsize
    simp only [maxProjectWarningBytes, maxWarningPathBytes]
    omega
  · intro c hc
    rw [String.toList_append, String.toList_append, String.toList_ofList] at hc
    rcases List.mem_append.mp hc with hc | hc
    · rcases List.mem_append.mp hc with hc | hc
      · exact shown_plain _ c (mem_floorCharBoundary hc)
      · have hcolon : (": " : String).toList.any isControl = false := by decide
        exact Bool.eq_false_iff.mpr (List.any_eq_false.mp hcolon c hc)
    · exact Bool.eq_false_iff.mpr (List.any_eq_false.mp h.2 c hc)

/-- All warnings of a context. -/
structure WarningsSound (warnings : List String) : Prop where
  count : warnings.length ≤ maxProjectWarnings
  sound : ∀ warning ∈ warnings, WarningSound warning

theorem WarningsSound.nil : WarningsSound [] := ⟨by decide, by simp⟩

/-- One warning more, or the last one replaced. -/
theorem WarningsSound.warn (h : WarningsSound warnings) (hreason : Reason reason) :
    WarningsSound (warn host warnings path reason) := by
  unfold Guidance.warn
  split
  case isTrue hfull =>
    refine ⟨?_, ?_⟩
    · rw [List.length_append, List.length_dropLast, hfull]
      decide
    · intro warning hwarning
      rcases List.mem_append.mp hwarning with hold | hlast
      · exact h.sound warning ((List.dropLast_sublist warnings).mem hold)
      · obtain rfl := List.mem_singleton.mp hlast
        exact omittedWarnings_sound
  case isFalse hroom =>
    have hcount := h.count
    refine ⟨?_, ?_⟩
    · rw [List.length_append, List.length_singleton]
      omega
    · intro warning hwarning
      rcases List.mem_append.mp hwarning with hold | hlast
      · exact h.sound warning hold
      · obtain rfl := List.mem_singleton.mp hlast
        exact warningText_sound hreason

/-! ## The size of a snapshot -/

/-- The warnings add their own text to a snapshot and nothing else. -/
theorem contextJson_size (enabled : Bool) (files : List ProjectFile) (warnings : List String) :
    size (contextJson enabled files warnings) = size (contextJson enabled files []) +
      size (JsonText.separated (warnings.map fun warning => JsonText.quoted warning.toList)) := by
  simp only [contextJson, JsonText.object, JsonText.array, JsonText.separated, List.map_cons,
    List.map_nil, size_append, size_cons, size_nil]
  omega

theorem warnings_size (h : WarningsSound warnings) :
    size (JsonText.separated (warnings.map fun warning => JsonText.quoted warning.toList)) ≤
      maxProjectWarnings * (maxProjectWarningBytes * 2 + 3) := by
  have heach : ∀ element ∈ warnings.map fun warning => JsonText.quoted warning.toList,
      size element + 1 ≤ maxProjectWarningBytes * 2 + 3 := by
    intro element helement
    obtain ⟨warning, hwarning, rfl⟩ := List.mem_map.mp helement
    have hsound := h.sound warning hwarning
    have hplain : ∀ c ∈ warning.toList, 32 ≤ c.toNat := by
      intro c hc
      have hcontrol := hsound.plain c hc
      simp only [isControl, Bool.or_eq_false_iff, decide_eq_false_iff_not] at hcontrol
      omega
    have hquoted := JsonText.size_quoted hplain
    have hbytes : size warning.toList = warning.utf8ByteSize := by
      rw [← utf8ByteSize_ofList, String.ofList_toList]
    have hsized := hsound.sized
    omega
  have hsum := JsonText.size_separated heach
  rw [List.length_map] at hsum
  exact hsum.trans (Nat.mul_le_mul_right _ h.count)

/-- With the room kept for warnings a snapshot is never too large. -/
theorem snapshot_size (hroom : size (contextJson true files []) ≤ maxAcceptedBytes)
    (h : WarningsSound warnings) : size (contextJson true files warnings) ≤ maxSnapshotBytes := by
  have hwarnings := warnings_size h
  have hsplit : maxAcceptedBytes + maxProjectWarnings * (maxProjectWarningBytes * 2 + 3) =
      maxSnapshotBytes := by decide
  rw [contextJson_size]
  omega

/-! ## Files -/

theorem readChunks_ok {readFails : Bool} {bytes out : List UInt8} {chunks : List (List UInt8)}
    (hbytes : bytes.length ≤ limit)
    (h : (readChunks late limit readFails checks bytes chunks).1 = .ok out) : out.length ≤ limit := by
  induction chunks generalizing checks bytes with
  | nil =>
    unfold readChunks at h
    split at h
    case isTrue => cases h
    case isFalse =>
      split at h
      case isTrue => cases h
      case isFalse =>
        obtain rfl := Except.ok.inj h
        exact hbytes
  | cons chunk rest ih =>
    unfold readChunks at h
    split at h
    case isTrue => cases h
    case isFalse =>
      split at h
      case isTrue =>
        obtain rfl := Except.ok.inj h
        exact hbytes
      case isFalse =>
        split at h
        case isTrue => cases h
        case isFalse hfits =>
          refine ih ?_ h
          rw [List.length_append]
          exact Nat.le_of_not_lt hfits

theorem readChunks_error {readFails : Bool} {bytes : List UInt8} {chunks : List (List UInt8)}
    (h : (readChunks late limit readFails checks bytes chunks).1 = .error reason) :
    Reason reason := by
  induction chunks generalizing checks bytes with
  | nil =>
    unfold readChunks at h
    split at h
    case isTrue =>
      obtain rfl := Except.error.inj h
      decide +kernel
    case isFalse =>
      split at h
      case isTrue =>
        obtain rfl := Except.error.inj h
        decide +kernel
      case isFalse => cases h
  | cons chunk rest ih =>
    unfold readChunks at h
    split at h
    case isTrue =>
      obtain rfl := Except.error.inj h
      decide +kernel
    case isFalse =>
      split at h
      case isTrue => cases h
      case isFalse =>
        split at h
        case isTrue =>
          obtain rfl := Except.error.inj h
          decide +kernel
        case isFalse => exact ih h

theorem fileText_ok {bytes : List UInt8} (h : fileText bytes = .ok text) :
    text.utf8ByteSize = bytes.length ∧ text.toList.any (fun c => c = '\x00') = false := by
  unfold fileText at h
  split at h
  case h_1 => cases h
  case h_2 decoded hdecoded =>
    split at h
    case isTrue => cases h
    case isFalse hplain =>
      obtain rfl := Except.ok.inj h
      exact ⟨by rw [decodeUtf8_some hdecoded, bytesOf_length], Bool.eq_false_iff.mpr hplain⟩

theorem fileText_error {bytes : List UInt8} (h : fileText bytes = .error reason) :
    Reason reason := by
  unfold fileText at h
  split at h
  case h_1 =>
    obtain rfl := Except.error.inj h
    decide +kernel
  case h_2 =>
    split at h
    case isTrue =>
      obtain rfl := Except.error.inj h
      decide +kernel
    case isFalse => cases h

theorem readFile_ok (h : (readFile host late checks path limit).1 = .ok content) :
    content.utf8ByteSize ≤ limit ∧ content.toList.any (fun c => c = '\x00') = false := by
  unfold readFile at h
  split at h
  case h_1 => cases h
  case h_2 file _ =>
    split at h
    case h_1 => cases h
    case h_2 regular bytes _ =>
      split at h
      case isTrue => cases h
      case isFalse =>
        split at h
        case isTrue => cases h
        case isFalse =>
          simp only [Attempt.bind_ok] at h
          obtain ⟨bytes, hbytes, htext⟩ := h
          obtain ⟨hsize, hplain⟩ := fileText_ok htext
          exact ⟨hsize ▸ readChunks_ok (Nat.zero_le _) hbytes, hplain⟩

theorem readFile_error (h : (readFile host late checks path limit).1 = .error reason) :
    Reason reason := by
  unfold readFile at h
  split at h
  case h_1 =>
    obtain rfl := Except.error.inj h
    decide +kernel
  case h_2 file _ =>
    split at h
    case h_1 =>
      obtain rfl := Except.error.inj h
      decide +kernel
    case h_2 regular bytes _ =>
      split at h
      case isTrue =>
        obtain rfl := Except.error.inj h
        decide +kernel
      case isFalse =>
        split at h
        case isTrue =>
          obtain rfl := Except.error.inj h
          decide +kernel
        case isFalse =>
          rcases (Attempt.bind_error _ _ _).mp h with hbytes | ⟨bytes, -, htext⟩
          · exact readChunks_error hbytes
          · exact fileText_error htext

/-! ## One directory -/

/-- What is checked of a stored file by itself. -/
structure FileSound (file : ProjectFile) : Prop where
  path : file.path.toList.head? = some '/' ∧ file.path.utf8ByteSize ≤ maxProjectPathBytes ∧
    file.path.toList.any isControl = false
  content : file.content.utf8ByteSize ≤ maxProjectFileBytes ∧
    file.content.toList.any (fun c => c = '\x00') = false

/-- A file is the first candidate of a directory, under its path there. -/
def FoundIn (host : Host) (origin : Path × Bool) (file : ProjectFile) : Prop :=
  ∃ name, firstCandidate host origin.1 = some name ∧
    host.symlinkMetadata (join origin.1 (Provider.bytesOf name)) = .regular ∧
    textPath (join origin.1 (Provider.bytesOf name)) = some file.path ∧ file.global = origin.2

/-- What holds of a discovery after some directories. -/
structure Sound (host : Host) (done : List (Path × Bool)) (d : Discovery) : Prop where
  warnings : WarningsSound d.warnings
  files : ∀ file ∈ d.files, FileSound file
  count : d.files.length ≤ maxProjectFiles
  content : contentBytes d.files ≤ maxProjectContentBytes
  room : size (contextJson true d.files []) ≤ maxAcceptedBytes
  origins : ∃ origins, origins.Sublist done ∧ List.Forall₂ (FoundIn host) origins d.files ∧
    (origins.map fun origin => directoryKey host origin.1).Nodup ∧
    ∀ origin ∈ origins, directoryKey host origin.1 ∈ d.seen

theorem Sound.start : Sound host [] {} :=
  ⟨.nil, by simp, by decide, by decide, by decide +kernel, [], by simp, .nil, by simp, by simp⟩

/-- A clock that was read and a directory that was looked at change nothing else. -/
theorem Sound.later {seen : List UnixPath.Components} (h : Sound host done d) (checks : Nat)
    (hseen : ∀ key ∈ d.seen, key ∈ seen) (more : List (Path × Bool)) :
    Sound host (done ++ more) { d with seen, checks } := by
  obtain ⟨origins, hsublist, hfound, hnodup, hkeys⟩ := h.origins
  exact ⟨h.warnings, h.files, h.count, h.content, h.room, origins,
    hsublist.trans (List.sublist_append_left done more), hfound, hnodup,
    fun origin horigin => hseen _ (hkeys origin horigin)⟩

theorem Sound.warned (h : Sound host done d) (path : Path) (hreason : Reason reason) :
    Sound host done (d.warned host path reason) :=
  ⟨h.warnings.warn hreason, h.files, h.count, h.content, h.room, h.origins⟩

theorem textPath_some (h : textPath path = some text) : path = Provider.bytesOf text ∧
    text.toList.head? = some '/' ∧ text.utf8ByteSize ≤ maxProjectPathBytes ∧
    text.toList.any isControl = false := by
  obtain ⟨hdecoded, hvalid⟩ := Option.filter_eq_some_iff.mp h
  simp only [Bool.and_eq_true, decide_eq_true_eq, Bool.not_eq_true'] at hvalid
  exact ⟨decodeUtf8_some hdecoded, hvalid.1.1, hvalid.1.2, hvalid.2⟩

theorem contextJson_warnings_le (files : List ProjectFile) (warnings : List String) :
    size (contextJson true files []) ≤ size (contextJson true files warnings) := by
  rw [contextJson_size true files warnings]
  exact Nat.le_add_right _ _

theorem contentBytes_append (files : List ProjectFile) (file : ProjectFile) :
    contentBytes (files ++ [file]) = contentBytes files + file.content.utf8ByteSize := by
  simp [contentBytes]

/-- A regular candidate of a new directory is accepted, or it leaves a warning. -/
theorem Sound.admitFile (h : Sound host done d) (hnew : directoryKey host directory ∉ d.seen)
    (hroom : d.files.length ≠ maxProjectFiles) {name : String}
    (hname : firstCandidate host directory = some name)
    (hregular : host.symlinkMetadata (join directory (Provider.bytesOf name)) = .regular)
    (htext : textPath (join directory (Provider.bytesOf name)) = some text) :
    Sound host (done ++ [(directory, global)])
      (Guidance.admitFile host late { d with seen := directoryKey host directory :: d.seen }
        (join directory (Provider.bytesOf name)) text global) := by
  have hlater := fun checks => h.later checks
    (fun key hkey => List.mem_cons_of_mem (directoryKey host directory) hkey) [(directory, global)]
  unfold Guidance.admitFile
  dsimp only
  generalize hresult : readFile host late d.checks (join directory (Provider.bytesOf name))
    (min maxProjectFileBytes (maxProjectContentBytes - contentBytes d.files)) = result
  obtain ⟨read, checks⟩ := result
  have hread := congrArg Prod.fst hresult
  cases read with
  | error reason => exact (hlater checks).warned _ (readFile_error hread)
  | ok content =>
    obtain ⟨hsize, hplain⟩ := readFile_ok hread
    dsimp only
    split
    case isTrue =>
      exact (hlater checks).warned _
        (show Reason "serialized context limit reached" by decide +kernel)
    case isFalse hfits =>
      have hcontent := h.content
      obtain ⟨origins, hsublist, hfound, hnodup, hkeys⟩ := h.origins
      refine ⟨h.warnings, ?_, ?_, ?_, ?_, origins ++ [(directory, global)],
        hsublist.append (List.Sublist.refl _), ?_, ?_, ?_⟩
      · intro file hfile
        rcases List.mem_append.mp hfile with hold | hlast
        · exact h.files file hold
        · obtain rfl := List.mem_singleton.mp hlast
          exact ⟨(textPath_some htext).2, hsize.trans (Nat.min_le_left ..), hplain⟩
      · have hcount := h.count
        rw [List.length_append, List.length_singleton]
        omega
      · have hleft : content.utf8ByteSize ≤ maxProjectContentBytes - contentBytes d.files :=
          hsize.trans (Nat.min_le_right ..)
        rw [contentBytes_append]
        dsimp only
        omega
      · exact (contextJson_warnings_le _ d.warnings).trans (Nat.le_of_not_lt hfits)
      · exact List.rel_append hfound (.cons ⟨name, hname, hregular, htext, rfl⟩ .nil)
      · rw [List.map_append, List.map_singleton, List.nodup_append]
        refine ⟨hnodup, List.nodup_singleton _, ?_⟩
        intro key hkey last hlast hequal
        obtain ⟨origin, horigin, rfl⟩ := List.mem_map.mp hkey
        obtain rfl := List.mem_singleton.mp hlast
        exact hnew (hequal ▸ hkeys origin horigin)
      · intro origin horigin
        rcases List.mem_append.mp horigin with hold | hlast
        · exact List.mem_cons_of_mem _ (hkeys origin hold)
        · obtain rfl := List.mem_singleton.mp hlast
          exact List.mem_cons_self ..

theorem Sound.loadCandidate (h : Sound host done d) (hnew : directoryKey host directory ∉ d.seen)
    {name : String} (hname : firstCandidate host directory = some name) :
    Sound host (done ++ [(directory, global)])
      (Guidance.loadCandidate host late { d with seen := directoryKey host directory :: d.seen }
        (join directory (Provider.bytesOf name)) global) := by
  have hlater := h.later d.checks
    (fun key hkey => List.mem_cons_of_mem (directoryKey host directory) hkey) [(directory, global)]
  unfold Guidance.loadCandidate
  split
  case isTrue => exact hlater.warned _ (by decide +kernel)
  case isFalse =>
    split
    case h_1 => exact hlater.warned _ (by decide +kernel)
    case h_2 text htext =>
      split
      case isTrue => exact hlater.warned _ (by decide +kernel)
      case isFalse hroom =>
        split
        case isTrue => exact hlater.warned _ (by decide +kernel)
        case isFalse hregular =>
          exact h.admitFile hnew hroom hname (Decidable.not_not.mp hregular) htext

theorem Sound.visitDirectory (h : Sound host done d) (late : Nat → Bool) (directory : Path)
    (global : Bool) :
    Sound host (done ++ [(directory, global)])
      (Guidance.visitDirectory host late d directory global) := by
  unfold Guidance.visitDirectory
  split
  case isTrue => exact h.later d.checks (fun _ hkey => hkey) _
  case isFalse hnew =>
    dsimp only
    split
    case h_1 =>
      exact h.later d.checks (fun key hkey => List.mem_cons_of_mem _ hkey) _
    case h_2 name hname => exact h.loadCandidate hnew hname

theorem Sound.discoverFrom (h : Sound host done d) (late : Nat → Bool)
    (rest : List (Path × Bool)) :
    Sound host (done ++ rest) (Guidance.discoverFrom host late rest d) := by
  induction rest generalizing done d with
  | nil =>
    rw [List.append_nil]
    exact h
  | cons next rest ih =>
    obtain ⟨directory, global⟩ := next
    have hchecked := h.later (d.checks + 1) (fun _ hkey => hkey) []
    rw [List.append_nil] at hchecked
    unfold Guidance.discoverFrom
    dsimp only
    split
    case isTrue =>
      have hstopped := (h.later (d.checks + 1) (fun _ hkey => hkey)
        ((directory, global) :: rest)).warned directory
          (show Reason "discovery deadline reached" by decide +kernel)
      exact hstopped
    case isFalse =>
      have hvisited := ih (hchecked.visitDirectory late directory global)
      rwa [List.append_assoc] at hvisited

/-! ## Distinct paths -/

theorem candidate_plain {name : String} (h : firstCandidate host directory = some name) :
    UnixPath.separator ∉ Provider.bytesOf name ∧ UnixPath.isAbsolute (Provider.bytesOf name) = false ∧
      join directory (Provider.bytesOf name) = UnixPath.stem directory ++ Provider.bytesOf name := by
  have hmem : name ∈ candidates := List.mem_of_find?_eq_some h
  have hplain : ∀ name ∈ candidates, UnixPath.separator ∉ Provider.bytesOf name ∧
      UnixPath.isAbsolute (Provider.bytesOf name) = false := by decide +kernel
  obtain ⟨hseparator, hrelative⟩ := hplain name hmem
  exact ⟨hseparator, hrelative, by rw [join, hrelative]; rfl⟩

/-- Two directories that are the same up to a separator at the end are remembered alike. -/
theorem directoryKey_append (hnonempty : directory ≠ [])
    (hlast : directory.getLast? ≠ some UnixPath.separator) {name : Path}
    (hrelative : UnixPath.isAbsolute name = false)
    (hregular : host.symlinkMetadata (join directory name) = .regular) :
    directoryKey host (directory ++ [UnixPath.separator]) = directoryKey host directory := by
  unfold directoryKey
  rw [host.canonicalize_append directory name hnonempty hlast hrelative hregular]
  cases host.canonicalize directory with
  | none => exact UnixPath.components_append hnonempty
  | some canonical => rfl

/-- Files of one path are of one directory. -/
theorem directoryKey_of_path {origin other : Path × Bool} {file next : ProjectFile}
    (h : FoundIn host origin file) (hother : FoundIn host other next)
    (hpath : file.path = next.path) : directoryKey host origin.1 = directoryKey host other.1 := by
  obtain ⟨name, hname, hregular, htext, -⟩ := h
  obtain ⟨nextName, hnextName, hnextRegular, hnextText, -⟩ := hother
  obtain ⟨hplain, hrelative, hjoin⟩ := candidate_plain hname
  obtain ⟨hnextPlain, hnextRelative, hnextJoin⟩ := candidate_plain hnextName
  have hbytes : join origin.1 (Provider.bytesOf name) = join other.1 (Provider.bytesOf nextName) := by
    rw [(textPath_some htext).1, (textPath_some hnextText).1, hpath]
  rw [hjoin, hnextJoin] at hbytes
  have hstem := UnixPath.stem_inj hplain hnextPlain hbytes
  obtain hequal | ⟨hnonempty, hlast, hequal⟩ | ⟨hnonempty, hlast, hequal⟩ :=
    UnixPath.eq_of_stem hstem
  · rw [hequal]
  · rw [hequal, directoryKey_append hnonempty hlast hrelative hregular]
  · rw [hequal, directoryKey_append hnonempty hlast hnextRelative hnextRegular]

theorem exists_origin {origins : List (Path × Bool)} {file : ProjectFile}
    (h : List.Forall₂ (FoundIn host) origins files) (hfile : file ∈ files) :
    ∃ origin ∈ origins, FoundIn host origin file := by
  induction h with
  | nil => cases hfile
  | @cons origin first origins files hfirst hrest ih =>
    rcases List.mem_cons.mp hfile with rfl | hfile
    · exact ⟨origin, List.mem_cons_self .., hfirst⟩
    · obtain ⟨other, hother, hfound⟩ := ih hfile
      exact ⟨other, List.mem_cons_of_mem _ hother, hfound⟩

theorem paths_nodup {origins : List (Path × Bool)}
    (hfound : List.Forall₂ (FoundIn host) origins files)
    (hnodup : (origins.map fun origin => directoryKey host origin.1).Nodup) :
    (files.map (·.path)).Nodup := by
  induction hfound with
  | nil => exact List.nodup_nil
  | @cons origin file origins files hfirst hrest ih =>
    rw [List.map_cons, List.nodup_cons] at hnodup ⊢
    refine ⟨?_, ih hnodup.2⟩
    intro hpath
    obtain ⟨next, hnext, hequal⟩ := List.mem_map.mp hpath
    obtain ⟨other, hother, hotherFound⟩ := exists_origin hrest hnext
    exact hnodup.1 (List.mem_map.mpr ⟨other, hother,
      directoryKey_of_path hotherFound hfirst hequal⟩)

/-! ## Every discovery -/

theorem contextOf_valid (hwarnings : WarningsSound warnings)
    (hfiles : ∀ file ∈ files, FileSound file) (hcount : files.length ≤ maxProjectFiles)
    (hcontent : contentBytes files ≤ maxProjectContentBytes)
    (hpaths : (files.map (·.path)).Nodup)
    (hroom : size (contextJson true files []) ≤ maxAcceptedBytes) :
    (contextOf true files warnings).isValid = true := by
  have hsnapshot : (String.ofList (contextJson true files warnings)).utf8ByteSize ≤
      maxSnapshotBytes := by
    rw [utf8ByteSize_ofList]
    exact snapshot_size hroom hwarnings
  simp only [RunProjectContext.isValid, contextOf, Bool.and_eq_true, List.all_eq_true,
    Bool.true_or, and_true]
  refine ⟨⟨⟨⟨⟨⟨decide_eq_true hcount, decide_eq_true hwarnings.count⟩, ?_⟩, decide_eq_true hpaths⟩,
    decide_eq_true hcontent⟩, ?_⟩, decide_eq_true hsnapshot⟩
  · intro file hfile
    obtain ⟨⟨habsolute, hpath, hplain⟩, hsize, htext⟩ := hfiles file hfile
    exact ⟨⟨⟨⟨decide_eq_true hpath, decide_eq_true habsolute⟩, by rw [hplain]; rfl⟩,
      decide_eq_true hsize⟩, by rw [htext]; rfl⟩
  · intro warning hwarning
    obtain ⟨hnonempty, hsized, hplain⟩ := hwarnings.sound warning hwarning
    refine ⟨⟨by simpa using hnonempty, decide_eq_true hsized⟩, ?_⟩
    rw [Bool.not_eq_true', List.any_eq_false]
    intro c hc
    rw [hplain c hc]
    exact Bool.false_ne_true

/-- The files are those of directories in the order they were looked at, each
the first candidate there. -/
def InOrder (host : Host) (global : Option Path) (directory : Path) (files : List ProjectFile) :
    Prop :=
  ∃ origins, origins.Sublist (visitOrder global (ancestors (maxAncestors + 1) directory)) ∧
    List.Forall₂ (FoundIn host) origins files ∧
    (origins.map fun origin => directoryKey host origin.1).Nodup

theorem InOrder.nil {global : Option Path} : InOrder host global directory [] :=
  ⟨[], List.nil_sublist _, .nil, List.nodup_nil⟩

theorem warned_valid (hreason : Reason reason) :
    (contextOf true [] (warn host [] path reason)).isValid = true :=
  contextOf_valid (WarningsSound.nil.warn hreason) (by simp) (by decide) (by decide)
    List.nodup_nil (by decide +kernel)

theorem discover_valid (host : Host) (late : Nat → Bool) (global : Option Path) (directory : Path) :
    (discover host late global directory).isValid = true ∧
      InOrder host global directory (discover host late global directory).files := by
  unfold discover
  dsimp only
  split
  case isTrue => exact ⟨warned_valid (by decide +kernel), .nil⟩
  case isFalse =>
    have hstart : Sound host [] {} := .start
    have hsound := hstart.discoverFrom late
      (visitOrder global (ancestors (maxAncestors + 1) directory))
    obtain ⟨origins, hsublist, hfound, hnodup, -⟩ := hsound.origins
    exact ⟨contextOf_valid hsound.warnings hsound.files hsound.count hsound.content
      (paths_nodup hfound hnodup) hsound.room, origins, hsublist, hfound, hnodup⟩

/-- Every context that a discovery gives is one that a run may store, with at
most one file of each directory, from the global and the outermost one on. -/
theorem guidance_valid {global : Option Path} {enabled permitted : Bool} {outcome : JobOutcome}
    {context : RunProjectContext}
    (h : discoverBounded host late enabled permitted outcome global directory = .ok context) :
    context.isValid = true ∧ InOrder host global directory context.files := by
  unfold discoverBounded at h
  split at h
  case isTrue =>
    obtain rfl := Except.ok.inj h
    exact ⟨by decide +kernel, .nil⟩
  case isFalse =>
    split at h
    case isTrue => cases h
    case isFalse =>
      cases outcome with
      | completed =>
        obtain rfl := Except.ok.inj h
        exact discover_valid host late global directory
      | failed => cases h
      | timedOut =>
        obtain rfl := Except.ok.inj h
        exact ⟨warned_valid (by decide +kernel), .nil⟩

/-- The guidance files of a small file system. -/
def smallTree : List (String × String) :=
  [("/conf/AGENTS.md", "Be brief."), ("/AGENTS.md", "Use tabs."),
    ("/work/AGENTS.override.md", "Run the tests."), ("/work/AGENTS.md", "Not read.")]

/-- The file system with these files and one link, in `/work/app`. -/
def smallHost : Host where
  canonicalize path :=
    some (if path ≠ [UnixPath.separator] ∧ path.getLast? = some UnixPath.separator then path.dropLast
      else path)
  symlinkMetadata path :=
    if path = Provider.bytesOf "/work/app/CLAUDE.md" then .other
    else if smallTree.any fun file => Provider.bytesOf file.1 = path then .regular
    else .notFound
  openFile path :=
    (smallTree.find? fun file => Provider.bytesOf file.1 = path).map fun file =>
      ⟨some (true, file.2.utf8ByteSize), [Provider.bytesOf file.2], false⟩
  toStringLossy path := (decodeUtf8 path).elim [] String.toList
  canonicalize_append path _ hne hlast _ _ := by
    have hlonger : path ++ [UnixPath.separator] ≠ [UnixPath.separator] := by simpa using hne
    rw [if_pos ⟨hlonger, List.getLast?_concat⟩, List.dropLast_concat, if_neg fun h => hlast h.2]

/-- Three files, one of them global and one in place of another, and a link
that leaves a warning. -/
theorem guidance_valid_smallHost :
    ∃ context, discoverBounded smallHost (fun _ => false) true true .completed
        (some (Provider.bytesOf "/conf")) (Provider.bytesOf "/work/app") = .ok context ∧
      context.files = [⟨"/conf/AGENTS.md", true, "Be brief."⟩, ⟨"/AGENTS.md", false, "Use tabs."⟩,
        ⟨"/work/AGENTS.override.md", false, "Run the tests."⟩] ∧
      context.warnings = ["/work/app/CLAUDE.md: not a regular file; links are not followed"] ∧
      context.isValid = true ∧
      InOrder smallHost (some (Provider.bytesOf "/conf")) (Provider.bytesOf "/work/app")
        context.files := by
  have hok : discoverBounded smallHost (fun _ => false) true true .completed
      (some (Provider.bytesOf "/conf")) (Provider.bytesOf "/work/app") =
        .ok (discover smallHost (fun _ => false) (some (Provider.bytesOf "/conf"))
          (Provider.bytesOf "/work/app")) := rfl
  exact ⟨_, hok, by decide +kernel, by decide +kernel, guidance_valid hok⟩

end Morons.Guidance
