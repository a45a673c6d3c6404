import DllGraph.Proofs.Text.Lines
import DllGraph.SearchPath.File
import Mathlib.Data.List.Forall2

/-!
# Reading a Search Path File

A search path file is read line by line, and nothing else about its text matters. Each line that
counts is translated by itself: into one entry, into none, or into as many as the PATH has folders.
The search path consists of these translations in the order of the lines, so the only way to fail is
a line without a translation, and the first such line is the one that is reported.

## Main definitions

* `SearchPath.IsKey`, the lines that are understood, and `SearchPath.Translates`, what they stand
  for;
* `SearchPath.FirstUnknown`, the line that is reported.

## Main results

* `SearchPath.translates_iff` — a line is translated as stated, and `SearchPath.ofKey_eq_error_iff`
  — a line that is no key is an error;
* `SearchPath.ofText_of_isCutInto` — the search path of a text in terms of its lines, and that a
  change of layout does not affect it.
-/

namespace DllGraph.SearchPath

open Text

variable {q : Query} {line : String}

/-! ### The translation of a line -/

/-- The keys that stand alone on a line. -/
def plainKeys : List String :=
  ["SxS", "KnownDLLs", "AppDir", "32BitSysDir", "16BitSysDir", "OSDir", "AppPath", "SysPath"]

/-- The keys whose entries are taken from the installation. -/
def installationKeys : List String :=
  ["32BitSysDir", "16BitSysDir", "OSDir", "SysPath"]

/-- The lines that are understood. -/
def IsKey (line : String) : Prop :=
  line ∈ plainKeys ∨ ∃ folder, line = "UserDir " ++ folder

/-- What a line stands for. -/
inductive Translates (q : Query) : String → List SearchEntry → Prop
  | sideBySide : Translates q "SxS" [.sideBySide]
  | knownDlls : Translates q "KnownDLLs" [.knownDlls]
  | executableDir : Translates q "AppDir" [.executableDir]
  | systemDir {i : Installation} (h : q.installation = some i) :
      Translates q "32BitSysDir" [.systemDir i.systemDir]
  | system16Dir {i : Installation} (h : q.installation = some i) :
      Translates q "16BitSysDir" [.system16Dir i.system16Dir]
  | windowsDir {i : Installation} (h : q.installation = some i) :
      Translates q "OSDir" [.windowsDir i.windowsDir]
  | systemPath {i : Installation} (h : q.installation = some i) :
      Translates q "SysPath" ((i.systemPath.getD []).map .systemPath)
  /-- Without an installation, its keys stand for nothing. -/
  | noInstallation {key : String} (h : q.installation = none) (hkey : key ∈ installationKeys) :
      Translates q key []
  | appPath : Translates q "AppPath" []
  | userPath (folder : String) : Translates q ("UserDir " ++ folder) [.userPath ⟨trim folder⟩]

/-- A line names a user folder if and only if it begins with the key, and the rest is the folder. -/
theorem userFolder?_eq_some_iff {folder : Path} :
    userFolder? line = some folder ↔ ∃ rest, line = "UserDir " ++ rest ∧ folder = ⟨trim rest⟩ := by
  simp only [userFolder?, Option.ite_none_right_eq_some, List.isPrefixOf_iff_prefix,
    Option.some.injEq]
  constructor
  · rintro ⟨⟨rest, hrest⟩, hfolder⟩
    refine ⟨String.ofList rest, ?_, ?_⟩
    · rw [← String.toList_inj, String.toList_append, ← hrest]
      exact congrArg _ String.toList_ofList.symm
    · rw [← hfolder, ← hrest, List.drop_left]
  · rintro ⟨rest, hline, hfolder⟩
    have hchars : line.toList = "UserDir ".toList ++ rest.toList := by
      rw [hline, String.toList_append]
    refine ⟨⟨rest.toList, hchars.symm⟩, ?_⟩
    rw [hchars, List.drop_left, String.ofList_toList, hfolder]

/-- No line that names a folder is a key that stands alone. -/
theorem userDir_not_mem_plainKeys (folder : String) : "UserDir " ++ folder ∉ plainKeys := by
  simp only [plainKeys, List.mem_cons, List.not_mem_nil, or_false, ← String.toList_inj]
  simp

/-- A line that is none of the plain keys names a user folder, or is reported. -/
theorem ofKey_of_not_mem_plainKeys (h : line ∉ plainKeys) : ofKey q line =
    match userFolder? line with
    | some folder => .ok [.userPath folder]
    | none => .error (.unknownKey line) := by
  simp only [plainKeys, List.mem_cons, List.not_mem_nil, or_false, not_or] at h
  unfold ofKey
  split
  case h_9 => rfl
  all_goals simp_all

/-- A key of the installation stands for nothing without one. -/
theorem translates_ofInstallation {key : String} {entries : Installation → List SearchEntry}
    (hkey : key ∈ installationKeys)
    (h : ∀ i, q.installation = some i → Translates q key (entries i)) :
    Translates q key ((q.installation.map entries).getD []) := by
  cases hq : q.installation with
  | none => exact .noInstallation hq hkey
  | some i => exact h i hq

/-- A line is translated as stated. -/
theorem translates_iff {entries : List SearchEntry} :
    Translates q line entries ↔ ofKey q line = .ok entries := by
  constructor
  · intro h
    cases h with
    | sideBySide | knownDlls | executableDir | appPath => rfl
    | systemDir h | system16Dir h | windowsDir h | systemPath h =>
      simp [ofKey, h, systemPathEntries]
    | noInstallation h hkey =>
      simp only [installationKeys, List.mem_cons, List.not_mem_nil, or_false] at hkey
      rcases hkey with rfl | rfl | rfl | rfl <;> simp [ofKey, h]
    | userPath folder =>
      rw [ofKey_of_not_mem_plainKeys (userDir_not_mem_plainKeys folder),
        userFolder?_eq_some_iff.2 ⟨folder, rfl, rfl⟩]
  · intro h
    -- One case for each line of the definition, in its order.
    unfold ofKey at h
    split at h
    · cases h; exact .sideBySide
    · cases h; exact .knownDlls
    · cases h; exact .executableDir
    · cases h; exact translates_ofInstallation (by decide) fun i hi => .systemDir hi
    · cases h; exact translates_ofInstallation (by decide) fun i hi => .system16Dir hi
    · cases h; exact translates_ofInstallation (by decide) fun i hi => .windowsDir hi
    · cases h; exact .appPath
    · cases h; exact translates_ofInstallation (by decide) fun i hi => .systemPath hi
    · split at h
      · next folder hfolder =>
        obtain ⟨rest, rfl, rfl⟩ := userFolder?_eq_some_iff.1 hfolder
        cases h
        exact .userPath rest
      · cases h

/-- The lines that are no keys are errors, and there are no other errors. -/
theorem ofKey_eq_error_iff {e : Failure} :
    ofKey q line = .error e ↔ ¬ IsKey line ∧ e = .unknownKey line := by
  by_cases hplain : line ∈ plainKeys
  · have hok : ∃ entries, ofKey q line = .ok entries := by
      simp only [plainKeys, List.mem_cons, List.not_mem_nil, or_false] at hplain
      rcases hplain with rfl | rfl | rfl | rfl | rfl | rfl | rfl | rfl <;> exact ⟨_, rfl⟩
    obtain ⟨entries, hentries⟩ := hok
    simp [hentries, IsKey, hplain]
  · have hkey : IsKey line ↔ ∃ folder, userFolder? line = some folder := by
      simp [IsKey, hplain, userFolder?_eq_some_iff]
    rw [ofKey_of_not_mem_plainKeys hplain, hkey]
    cases userFolder? line with
    | none => simp [eq_comm]
    | some folder => simp

/-- The keys are the lines that have a translation. -/
theorem isKey_iff : IsKey line ↔ ∃ entries, ofKey q line = .ok entries := by
  cases h : ofKey q line with
  | error e => simp [(ofKey_eq_error_iff.1 h).1]
  | ok entries =>
    have hkey : IsKey line := by
      by_contra hunknown
      rw [ofKey_eq_error_iff.2 ⟨hunknown, rfl⟩] at h
      cases h
    simp [hkey]

/-! ### The translations of all lines -/

/-- The first of the lines that is no key. -/
def FirstUnknown (lines : List String) (line : String) : Prop :=
  ∃ before after, lines = before ++ line :: after ∧ (∀ key ∈ before, IsKey key) ∧ ¬ IsKey line

variable {lines : List String}

/-- Lines are understood if the first one is and the others are, and give the entries of both in
order. -/
theorem ofKeys_cons_eq_ok_iff {entries : List SearchEntry} :
    ofKeys q (line :: lines) = .ok entries ↔ ∃ first others,
      ofKey q line = .ok first ∧ ofKeys q lines = .ok others ∧ entries = first ++ others := by
  rw [ofKeys]
  cases ofKey q line with
  | error e => simp
  | ok first => cases ofKeys q lines <;> simp [eq_comm]

/-- Lines fail at the first one, or at one of the others if the first one is understood. -/
theorem ofKeys_cons_eq_error_iff {e : Failure} : ofKeys q (line :: lines) = .error e ↔
    ofKey q line = .error e ∨ (∃ first, ofKey q line = .ok first) ∧ ofKeys q lines = .error e := by
  rw [ofKeys]
  cases ofKey q line with
  | error e => simp
  | ok first => cases ofKeys q lines <;> simp

/-- Lines are understood if and only if each of them is a key. -/
theorem exists_ofKeys_eq_ok_iff :
    (∃ entries, ofKeys q lines = .ok entries) ↔ ∀ line ∈ lines, IsKey line := by
  induction lines with
  | nil => simp [ofKeys]
  | cons line rest ih =>
    rw [List.forall_mem_cons, ← ih, isKey_iff (q := q)]
    simp [ofKeys_cons_eq_ok_iff]

/-- The entries are the translations of the lines, in the order of the lines. -/
theorem ofKeys_eq_ok_iff {entries : List SearchEntry} : ofKeys q lines = .ok entries ↔
    ∃ parts, List.Forall₂ (Translates q) lines parts ∧ entries = parts.flatten := by
  induction lines generalizing entries with
  | nil => simp [ofKeys, eq_comm]
  | cons line rest ih =>
    rw [ofKeys_cons_eq_ok_iff]
    constructor
    · rintro ⟨first, others, hfirst, hothers, rfl⟩
      obtain ⟨parts, hparts, rfl⟩ := ih.1 hothers
      exact ⟨first :: parts, .cons (translates_iff.2 hfirst) hparts, rfl⟩
    · rintro ⟨parts, hparts, rfl⟩
      cases hparts with
      | @cons _ first _ others hfirst hothers =>
        exact ⟨first, others.flatten, translates_iff.1 hfirst, ih.2 ⟨others, hothers, rfl⟩, rfl⟩

/-- The error is about the first line that is no key. -/
theorem ofKeys_eq_error_iff {e : Failure} : ofKeys q lines = .error e ↔
    ∃ line, FirstUnknown lines line ∧ e = .unknownKey line := by
  induction lines with
  | nil => simp [ofKeys, FirstUnknown]
  | cons line rest ih =>
    rw [ofKeys_cons_eq_error_iff]
    constructor
    · rintro (hline | ⟨hfirst, hrest⟩)
      · obtain ⟨hunknown, rfl⟩ := ofKey_eq_error_iff.1 hline
        exact ⟨line, ⟨[], rest, rfl, by simp, hunknown⟩, rfl⟩
      · obtain ⟨unknown, ⟨before, after, rfl, hbefore, hunknown⟩, rfl⟩ := ih.1 hrest
        have hkeys := List.forall_mem_cons.2 ⟨isKey_iff.2 hfirst, hbefore⟩
        exact ⟨unknown, ⟨line :: before, after, rfl, hkeys, hunknown⟩, rfl⟩
    · rintro ⟨unknown, ⟨before, after, hlines, hbefore, hunknown⟩, rfl⟩
      cases before with
      | nil =>
        obtain ⟨rfl, rfl⟩ := List.cons.inj hlines
        exact .inl (ofKey_eq_error_iff.2 ⟨hunknown, rfl⟩)
      | cons key before =>
        obtain ⟨rfl, rfl⟩ := List.cons.inj hlines
        obtain ⟨hkey, hbefore⟩ := List.forall_mem_cons.1 hbefore
        exact .inr ⟨isKey_iff.1 hkey, ih.2 ⟨unknown, ⟨before, after, rfl, hbefore, hunknown⟩, rfl⟩⟩

/-! ### The search path of a text -/

/-- The pieces of a text that count, without the white space around them. -/
def effectivePieces (pieces : List String) : List String :=
  (pieces.map trim).filter isEffective

variable {text lineEnd : String} {pieces : List String}

/-- The lines that count are the pieces that count, with either line end. -/
theorem effectiveLines_intercalate (hend : IsLineEnd lineEnd)
    (hpieces : ∀ piece ∈ pieces, '\n' ∉ piece.toList) :
    effectiveLines (lineEnd.intercalate pieces) = effectivePieces pieces :=
  filter_trim_lines hend hpieces rfl

/-- A text is a search path if and only if all lines that count are understood. -/
theorem ofText_eq_ok_iff {s : SearchPath} : ofText q text = .ok s ↔
    ∃ entries, ofKeys q (effectiveLines text) = .ok entries ∧ s = ⟨entries, q.knownDlls?⟩ := by
  rw [ofText]
  cases ofKeys q (effectiveLines text) <;> simp [eq_comm]

/-- A text is no search path if and only if one of the lines that count is not understood, which is
reported. -/
theorem ofText_eq_error_iff {e : Failure} :
    ofText q text = .error e ↔ ofKeys q (effectiveLines text) = .error e := by
  rw [ofText]
  cases ofKeys q (effectiveLines text) <;> simp

/-- A search path file is read line by line. It is understood if and only if every line that counts
is a key; the search path then consists of the translations of these lines, in order, and otherwise
the error is about the first other line. A change of layout does not affect the outcome, and neither
does a change of line ends. -/
theorem ofText_of_isCutInto (q : Query) (text : String) :
    (∃ pieces, IsCutInto text pieces) ∧
    ∀ pieces, IsCutInto text pieces →
      ((∃ s, ofText q text = .ok s) ↔ ∀ line ∈ effectivePieces pieces, IsKey line) ∧
      (∀ s, ofText q text = .ok s ↔ ∃ parts,
        List.Forall₂ (Translates q) (effectivePieces pieces) parts ∧
          s = ⟨parts.flatten, q.knownDlls?⟩) ∧
      (∀ e, ofText q text = .error e ↔ ∃ line,
        FirstUnknown (effectivePieces pieces) line ∧ e = .unknownKey line) ∧
      ∀ lineEnd pieces', IsLineEnd lineEnd → Reformats isEffective pieces pieces' →
        ofText q (lineEnd.intercalate pieces') = ofText q text := by
  refine ⟨exists_isCutInto text, fun pieces hpieces => ?_⟩
  have hlines : effectiveLines text = effectivePieces pieces := by
    rw [hpieces.text_eq]
    exact effectiveLines_intercalate (.inl rfl) hpieces.noFeed
  refine ⟨?_, fun s => ?_, fun e => ?_, fun lineEnd pieces' hend hformat => ?_⟩
  · rw [← hlines, ← exists_ofKeys_eq_ok_iff (q := q)]
    simp [ofText_eq_ok_iff]
  · rw [ofText_eq_ok_iff, hlines]
    simp only [ofKeys_eq_ok_iff]
    constructor
    · rintro ⟨entries, ⟨parts, hparts, rfl⟩, rfl⟩
      exact ⟨parts, hparts, rfl⟩
    · rintro ⟨parts, hparts, rfl⟩
      exact ⟨parts.flatten, ⟨parts, hparts, rfl⟩, rfl⟩
  · rw [ofText_eq_error_iff, hlines, ofKeys_eq_error_iff]
  · have hlines' : effectiveLines (lineEnd.intercalate pieces') = effectivePieces pieces' :=
      effectiveLines_intercalate hend (hformat.noFeed hpieces.noFeed)
    have heffective : effectivePieces pieces' = effectivePieces pieces := hformat.filter_trim
    rw [ofText, ofText, hlines', heffective, hlines]

/-- An installation with two folders in its PATH. -/
def toolsQuery : Query where
  installation := some {
    safeSearch := none
    knownDlls := none
    windowsDir := ⟨"/Windows"⟩
    systemDir := ⟨"/Windows/System32"⟩
    system16Dir := ⟨"/Windows/System"⟩
    systemPath := some [⟨"/Windows"⟩, ⟨"/Tools"⟩] }
  roots := [⟨"/App/app.exe"⟩]
  workingDir := ⟨"/App"⟩
  userPath := []

/-- The lines of a file with a comment, a key for several folders and a folder of the user. -/
def toolsLines : List String :=
  ["; tools", "SxS", "SysPath", "UserDir  /My Tools"]

/-- The same lines with white space around one of them, and with further comments. -/
def spacedToolsLines : List String :=
  ["; tools", "", "\t SxS ", "SysPath", "# mine", "UserDir  /My Tools"]

/-- A search path with spaces, comments and the other line end is the same search path. -/
theorem ofText_of_isCutInto_tools :
    IsCutInto ("\n".intercalate toolsLines) toolsLines ∧
      Reformats isEffective toolsLines spacedToolsLines ∧
      ofText toolsQuery ("\r\n".intercalate spacedToolsLines) = .ok
        ⟨[.sideBySide, .systemPath ⟨"/Windows"⟩, .systemPath ⟨"/Tools"⟩, .userPath ⟨"/My Tools"⟩],
          none⟩ := by
  have hcut : IsCutInto ("\n".intercalate toolsLines) toolsLines := ⟨rfl, by decide⟩
  have hspaced : Reformats isEffective toolsLines spacedToolsLines := by
    refine .keep _ (.insert (by decide) rfl ?_)
    refine @Reformats.pad _ "SxS" "\t " " " _ _ ?_ (by decide) ?_ (by decide) ?_
    · simp [IsBlank, isBlank]
    · simp [IsBlank, isBlank]
    · exact .keep _ (.insert (by decide) rfl (.keep _ .nil))
  obtain ⟨-, hok, -, hlayout⟩ := (ofText_of_isCutInto toolsQuery _).2 toolsLines hcut
  have heffective : effectivePieces toolsLines = ["SxS", "SysPath", "UserDir  /My Tools"] := by
    decide
  refine ⟨hcut, hspaced, ?_⟩
  rw [hlayout "\r\n" _ (.inr rfl) hspaced, hok, heffective]
  have hfolders : Translates toolsQuery "UserDir  /My Tools" [.userPath ⟨"/My Tools"⟩] :=
    .userPath " /My Tools"
  exact ⟨_, .cons .sideBySide (.cons (.systemPath rfl) (.cons hfolders .nil)), rfl⟩

end DllGraph.SearchPath
