import DllGraph.Proofs.Search.KnownDlls
import DllGraph.Proofs.Text.Lines
import Mathlib.Data.List.Sort

/-!
# What a List of Known DLLs Answers

A list of known DLLs is a set of names without regard to ASCII case. It can be built from names in
any order and spelling, and then answers for exactly these names; two sources with the same names
make the same list. Its names are put into one form, lowercase ASCII in ascending order, and a list
in that form can be built from its own names again, one by one or as the lines of a text.

Both ways of building check the same form, `ofNames` on what it is given and `ofUnsorted` on what it
has put in order. So the only thing left for the second to fail on is a name that is not ASCII.

## Main definitions

* `KnownDlls.IsLowercaseName`, the form of a name on a list;
* `KnownDlls.Answers`, what a list that is built from some names answers;
* `KnownDlls.SameNames`, when two sources have the same names up to ASCII case.

## Main results

* `KnownDlls.ofNames_eq_ok_iff` and `KnownDlls.ofUnsorted_eq_ok_iff` — when a list can be built, and
  the list that is built;
* `KnownDlls.Built.ofNames_names` — every list can be built from its own names;
* `KnownDlls.answers_of_names` — all of this for names in any order, in order, and in a text.
-/

namespace DllGraph

namespace Text

/-! ### Lowercasing -/

/-- A letter in lower case is a lower-case letter, and all other characters stay as they are. -/
theorem toLower_eq_self_or_isLower (c : Char) : c.toLower = c ∨ c.toLower.isLower = true := by
  by_cases hc : c.toNat < 0x80
  · exact forall_ascii (P := fun c => c.toLower = c ∨ c.toLower.isLower = true) (by decide) hc
  · exact .inl (toLower_of_not_isUpper (isUpper_of_not_ascii hc))

/-- Lowercasing makes no character other than a letter. -/
theorem eq_of_toLower_eq {c d : Char} (h : c.toLower = d) (hd : d.isLower = false) : c = d := by
  rcases toLower_eq_self_or_isLower c with hself | hlower
  · exact hself.symm.trans h
  · rw [h, hd] at hlower
    cases hlower

/-- A lowercase character is not an uppercase one. -/
theorem isUpper_toLower (c : Char) : c.toLower.isUpper = false := by
  by_cases hc : c.toNat < 0x80
  · exact forall_ascii (P := fun c => c.toLower.isUpper = false) (by decide) hc
  · have hupper := isUpper_of_not_ascii hc
    rwa [toLower_of_not_isUpper hupper]

/-- A text is lowercased character by character. -/
@[simp]
theorem toList_asciiLowercase (s : String) :
    (asciiLowercase s).toList = s.toList.map Char.toLower :=
  String.toList_ofList

instance : DecidablePred IsAscii := fun s =>
  decidable_of_iff (s.toList.all fun c => decide (c.toNat < 0x80)) (by simp [IsAscii])

/-- A text is ASCII if and only if its lowercase form is. -/
theorem isAscii_asciiLowercase_iff {s : String} : IsAscii (asciiLowercase s) ↔ IsAscii s := by
  refine ⟨fun h c hc => ?_, isAscii_asciiLowercase⟩
  by_contra hascii
  have hmem : c.toLower ∈ (asciiLowercase s).toList := by
    rw [toList_asciiLowercase]
    exact List.mem_map_of_mem hc
  rw [toLower_of_not_isUpper (isUpper_of_not_ascii hascii)] at hmem
  exact hascii (h c hmem)

/-- A text without uppercase characters stays as it is. -/
theorem asciiLowercase_eq_self {s : String} (h : ∀ c ∈ s.toList, c.isUpper = false) :
    asciiLowercase s = s := by
  rw [← String.toList_inj, toList_asciiLowercase]
  exact (List.map_congr_left fun c hc => toLower_of_not_isUpper (h c hc)).trans (List.map_id _)

/-- Lowercasing leaves nothing if and only if there was nothing. -/
theorem asciiLowercase_eq_empty_iff {s : String} : asciiLowercase s = "" ↔ s = "" := by
  rw [← String.toList_inj, toList_asciiLowercase]
  simp

end Text

namespace KnownDlls

open Text

variable {names : List String} {name : String} {directory : Path} {k : KnownDlls}

/-! ### Lists in order -/

/-- The form of a name on a list. -/
structure IsLowercaseName (name : String) : Prop where
  ne_empty : name ≠ ""
  isAscii : IsAscii name
  noUpper : ∀ c ∈ name.toList, c.isUpper = false

/-- A name is accepted for the list if and only if it is a lowercase one. -/
theorem isListable_iff : isListable name = true ↔ IsLowercaseName name := by
  simp only [isListable, Bool.and_eq_true, bne_iff_ne, List.all_eq_true, decide_eq_true_eq,
    Bool.not_eq_true']
  constructor
  · rintro ⟨hne, hall⟩
    exact ⟨hne, fun c hc => (hall c hc).1, fun c hc => (hall c hc).2⟩
  · rintro ⟨hne, hascii, hupper⟩
    exact ⟨hne, fun c hc => ⟨hascii c hc, hupper c hc⟩⟩

/-- A list has no descent if and only if it ascends as a whole. -/
theorem firstDescent?_eq_none_iff : firstDescent? names = none ↔ names.Pairwise (· < ·) := by
  refine ⟨pairwise_of_firstDescent?_eq_none, fun h => ?_⟩
  induction names with
  | nil => rfl
  | cons first rest ih =>
    cases rest with
    | nil => rfl
    | cons second rest =>
      obtain ⟨hfirst, hrest⟩ := List.pairwise_cons.1 h
      rw [firstDescent?, if_pos (hfirst second (List.mem_cons_self ..)), ih hrest]

/-- A list is accepted as it stands if its names are in lower case and in order. -/
theorem ofNames_eq_ok_iff : ofNames names directory = .ok k ↔
    k = ⟨names.toArray, directory⟩ ∧ (∀ name ∈ names, IsLowercaseName name) ∧
      names.Pairwise (· < ·) := by
  have hlistable : names.find? (!isListable ·) = none ↔ ∀ name ∈ names, IsLowercaseName name := by
    simp [List.find?_eq_none, isListable_iff]
  rw [← hlistable, ← firstDescent?_eq_none_iff, ofNames]
  cases names.find? (!isListable ·) with
  | some bad => simp
  | none =>
    cases firstDescent? names with
    | some pair => simp
    | none => simp [eq_comm]

/-! ### Names in any order -/

/-- A name can be lowercased before it is trimmed. -/
theorem listed_eq_trim (name : String) : listed name = trim (asciiLowercase name) :=
  (trim_asciiLowercase name).symm

/-- A listed name has no white space around it. -/
theorem trim_listed (name : String) : trim (listed name) = listed name := by
  rw [listed_eq_trim, trim_trim]

/-- A name is listed as a lowercase one if and only if it is ASCII and not blank. -/
theorem isLowercaseName_listed_iff :
    IsLowercaseName (listed name) ↔ listed name ≠ "" ∧ IsAscii (trim name) := by
  refine ⟨fun h => ⟨h.ne_empty, isAscii_asciiLowercase_iff.1 h.isAscii⟩, fun ⟨hne, hascii⟩ => ?_⟩
  refine ⟨hne, isAscii_asciiLowercase hascii, fun c hc => ?_⟩
  rw [listed, toList_asciiLowercase] at hc
  obtain ⟨d, -, rfl⟩ := List.mem_map.1 hc
  exact isUpper_toLower d

/-- The names of a list that is built from names in any order. -/
def inOrder (names : List String) : List String :=
  Sorted.ofList ((names.map listed).filter (· != ""))

/-- Names in any order are those in their order. -/
theorem ofUnsorted_eq_ofNames : ofUnsorted names directory = ofNames (inOrder names) directory :=
  rfl

/-- The names in order are the given ones as they are listed, without the blank ones. -/
theorem mem_inOrder_iff : name ∈ inOrder names ↔ name ≠ "" ∧ ∃ n ∈ names, listed n = name := by
  simp [inOrder, Sorted.mem_ofList, and_comm]

/-- The names in order ascend. -/
theorem pairwise_inOrder (names : List String) : (inOrder names).Pairwise (· < ·) :=
  Sorted.pairwise_ofList _

/-- A list in order is determined by the names on it. -/
theorem inOrder_eq {names' : List String} (hordered : names'.Pairwise (· < ·))
    (h : ∀ name, name ∈ names' ↔ name ≠ "" ∧ ∃ n ∈ names, listed n = name) :
    inOrder names = names' :=
  (pairwise_inOrder names).eq_of_mem_iff hordered fun name => by rw [mem_inOrder_iff, h]

/-- The names in order are all accepted if and only if all that is given is ASCII, white space
apart. -/
theorem forall_isLowercaseName_inOrder_iff :
    (∀ name ∈ inOrder names, IsLowercaseName name) ↔ ∀ name ∈ names, IsAscii (trim name) := by
  constructor
  · intro h name hname
    by_cases hblank : listed name = ""
    · rw [asciiLowercase_eq_empty_iff.1 hblank]
      simp [IsAscii]
    · exact (isLowercaseName_listed_iff.1
        (h _ (mem_inOrder_iff.2 ⟨hblank, name, hname, rfl⟩))).2
  · intro h name hname
    obtain ⟨hne, n, hn, rfl⟩ := mem_inOrder_iff.1 hname
    exact isLowercaseName_listed_iff.2 ⟨hne, h n hn⟩

/-- A list can be built from names in any order if they are ASCII, up to the white space around
them. -/
theorem ofUnsorted_eq_ok_iff : ofUnsorted names directory = .ok k ↔
    (∀ name ∈ names, IsAscii (trim name)) ∧ k = ⟨(inOrder names).toArray, directory⟩ := by
  rw [ofUnsorted_eq_ofNames, ofNames_eq_ok_iff, forall_isLowercaseName_inOrder_iff]
  constructor
  · rintro ⟨hk, hascii, -⟩
    exact ⟨hascii, hk⟩
  · rintro ⟨hascii, hk⟩
    exact ⟨hk, hascii, pairwise_inOrder names⟩

/-- What a list answers that is built from some names. -/
structure Answers (k : KnownDlls) (names : List String) (directory : Path) : Prop where
  isLowercaseName : ∀ name ∈ k.names.toList, IsLowercaseName name
  ascends : k.names.toList.Pairwise (· < ·)
  contains_iff : ∀ dll, k.contains dll = true ↔
    dll ≠ "" ∧ ∃ name ∈ names, asciiLowercase (trim name) = asciiLowercase dll
  lookup?_eq : ∀ dll, k.lookup? dll =
    if k.contains dll then some (directory.child (asciiLowercase dll)) else none

/-- Known DLLs that have been made of some names answer to these names. -/
theorem answers_of_ofUnsorted (h : ofUnsorted names directory = .ok k) :
    k.Answers names directory := by
  have hbuilt : k.Built := .ofUnsorted h
  obtain ⟨hascii, rfl⟩ := ofUnsorted_eq_ok_iff.1 h
  refine ⟨forall_isLowercaseName_inOrder_iff.2 hascii, pairwise_inOrder names, fun dll => ?_,
    fun dll => ?_⟩
  · rw [hbuilt.contains_iff, List.mem_toArray, mem_inOrder_iff, Ne, asciiLowercase_eq_empty_iff]
    rfl
  · simp only [hbuilt.lookup?_eq, hbuilt.contains_iff]

/-- Two sources have the same names, up to ASCII case, in any order and number of times. -/
def SameNames (names names' : List String) : Prop :=
  (∀ name ∈ names, ∃ name' ∈ names', asciiLowercase name = asciiLowercase name') ∧
    ∀ name' ∈ names', ∃ name ∈ names, asciiLowercase name = asciiLowercase name'

/-- Sources with the same names make the same list, or fail alike. -/
theorem SameNames.ofUnsorted_eq {names' : List String} (h : SameNames names names')
    (directory : Path) : ofUnsorted names directory = ofUnsorted names' directory := by
  have hlisted : ∀ {n n'}, asciiLowercase n = asciiLowercase n' → listed n = listed n' :=
    fun hsame => by rw [listed_eq_trim, hsame, listed_eq_trim]
  have horder : inOrder names = inOrder names' := by
    refine inOrder_eq (pairwise_inOrder names') fun name => ?_
    rw [mem_inOrder_iff]
    refine and_congr_right fun _ => ⟨?_, ?_⟩
    · rintro ⟨n', hn', rfl⟩
      obtain ⟨n, hn, hsame⟩ := h.2 n' hn'
      exact ⟨n, hn, hlisted hsame⟩
    · rintro ⟨n, hn, rfl⟩
      obtain ⟨n', hn', hsame⟩ := h.1 n hn
      exact ⟨n', hn', (hlisted hsame).symm⟩
  rw [ofUnsorted_eq_ofNames, horder, ofUnsorted_eq_ofNames]

/-! ### A list and its own names -/

/-- However known DLLs have been made, their names are lowercase ones. -/
theorem Built.isLowercaseName (h : k.Built) : ∀ name ∈ k.names.toList, IsLowercaseName name := by
  have hof : ∀ {names directory k}, KnownDlls.ofNames names directory = .ok k →
      ∀ name ∈ k.names.toList, IsLowercaseName name := fun h => by
    obtain ⟨rfl, hnames, -⟩ := ofNames_eq_ok_iff.1 h
    exact hnames
  induction h with
  | ofNames h | ofUnsorted h | ofText h => exact hof h
  | ofFile h =>
    rw [KnownDlls.ofFile] at h
    split at h
    · cases h
    · exact hof h
  | windowsDefault directory =>
    have hstock : (KnownDlls.windowsDefault default).names.toList.all isListable = true := by
      decide +kernel
    exact fun name hname => isListable_iff.1 (List.all_eq_true.1 hstock name hname)
  | withDirectory _ _ ih => exact ih

/-- Every list can be built from its own names. -/
theorem Built.ofNames_names (h : k.Built) : KnownDlls.ofNames k.names.toList k.directory = .ok k :=
  ofNames_eq_ok_iff.2 ⟨rfl, h.isLowercaseName, h.ascends⟩

/-- Its own names stay as they are when they are put in order, except for white space. -/
theorem Built.ofUnsorted_names (h : k.Built) (htrim : ∀ name ∈ k.names.toList, trim name = name) :
    KnownDlls.ofUnsorted k.names.toList k.directory = .ok k := by
  have hlisted : ∀ name ∈ k.names.toList, listed name = name := fun name hname => by
    rw [listed, htrim name hname, asciiLowercase_eq_self (h.isLowercaseName name hname).noUpper]
  have horder : inOrder k.names.toList = k.names.toList := by
    refine inOrder_eq h.ascends fun name => ⟨fun hname => ?_, ?_⟩
    · exact ⟨(h.isLowercaseName name hname).ne_empty, name, hname, hlisted name hname⟩
    · rintro ⟨-, n, hn, rfl⟩
      rwa [hlisted n hn]
  rw [ofUnsorted_eq_ofNames, horder, h.ofNames_names]

/-! ### The lines of a text -/

variable {text : String} {pieces : List String}

/-- A list is read from a text line by line. -/
theorem ofText_eq_ofUnsorted (h : IsCutInto text pieces) (directory : Path) :
    ofText text directory = ofUnsorted ((pieces.map trim).filter isNameLine) directory := by
  rw [ofText, h.text_eq, filter_trim_lines (.inl rfl) h.noFeed rfl]

/-- A line counts if and only if it is neither blank nor a comment. -/
theorem isNameLine_iff : isNameLine name = true ↔ name ≠ "" ∧ name.toList.head? ≠ some '#' := by
  simp [isNameLine]

/-- Names that are read back as they are when each is written on a line of its own. -/
structure IsOwnLine (name : String) : Prop where
  trim_eq : trim name = name
  isNameLine : isNameLine name = true
  noFeed : '\n' ∉ name.toList

/-- What comes from a line of a text can be written on a line again: lowercasing makes neither a
line feed nor the mark of a comment, and white space inside a name stays. -/
theorem isOwnLine_listed {piece : String} (hfeed : '\n' ∉ piece.toList)
    (hline : KnownDlls.isNameLine (trim piece) = true) : IsOwnLine (listed (trim piece)) := by
  obtain ⟨hne, hmark⟩ := isNameLine_iff.1 hline
  have hlisted : listed (trim piece) = asciiLowercase (trim piece) := by rw [listed, trim_trim]
  refine ⟨trim_listed _, isNameLine_iff.2 ⟨?_, fun hhead => ?_⟩, fun hmem => ?_⟩
  · rw [hlisted]
    exact fun hempty => hne (asciiLowercase_eq_empty_iff.1 hempty)
  · rw [hlisted, toList_asciiLowercase, List.head?_map] at hhead
    obtain ⟨c, hc, hlower⟩ := Option.map_eq_some_iff.1 hhead
    exact hmark (eq_of_toLower_eq hlower rfl ▸ hc)
  · rw [hlisted, toList_asciiLowercase, toList_trim] at hmem
    obtain ⟨c, hc, hlower⟩ := List.mem_map.1 hmem
    exact hfeed (eq_of_toLower_eq hlower rfl ▸ mem_of_mem_trimChars hc)

/-- The names that are read from a text can be written as lines of their own. -/
theorem isOwnLine_of_ofText (h : KnownDlls.ofText text directory = .ok k) :
    ∀ name ∈ k.names.toList, IsOwnLine name := by
  obtain ⟨pieces, hpieces⟩ := exists_isCutInto text
  rw [ofText_eq_ofUnsorted hpieces] at h
  obtain ⟨-, rfl⟩ := ofUnsorted_eq_ok_iff.1 h
  intro name hname
  obtain ⟨-, n, hn, rfl⟩ := mem_inOrder_iff.1 hname
  obtain ⟨hn, hline⟩ := List.mem_filter.1 hn
  obtain ⟨piece, hpiece, rfl⟩ := List.mem_map.1 hn
  exact isOwnLine_listed (hpieces.noFeed piece hpiece) hline

/-- A list that is read from a text is read again from its own names, one per line. -/
theorem ofText_names (h : KnownDlls.ofText text directory = .ok k) :
    KnownDlls.ofText ("\n".intercalate k.names.toList) directory = .ok k := by
  -- Cutting, trimming and filtering leave the names as they are, and so does putting them in order.
  have hown := isOwnLine_of_ofText h
  have hcut : IsCutInto ("\n".intercalate k.names.toList) k.names.toList :=
    ⟨rfl, fun name hname => (hown name hname).noFeed⟩
  have htrim : k.names.toList.map trim = k.names.toList :=
    (List.map_congr_left fun name hname => (hown name hname).trim_eq).trans (List.map_id _)
  have hlines : (k.names.toList.map trim).filter isNameLine = k.names.toList := by
    rw [htrim, List.filter_eq_self]
    exact fun name hname => (hown name hname).isNameLine
  have hdirectory : k.directory = directory := by
    obtain ⟨rfl, -⟩ := ofNames_eq_ok_iff.1 h
    rfl
  rw [ofText_eq_ofUnsorted hcut, hlines, ← hdirectory]
  exact Built.ofUnsorted_names (.ofText h) fun name hname => (hown name hname).trim_eq

/-! ### All ways to build a list -/

/-- A list of known DLLs is the set of its names, without regard to ASCII case. Names in any order
make a list if they are ASCII, and the list answers for them and no others; in the right form and
order they are accepted as they stand, and every list has its names in that form. A text makes the
list of its lines, and the names of that list, one per line, make it again. -/
theorem answers_of_names (directory : Path) :
    (∀ names,
      ((∃ k, ofUnsorted names directory = .ok k) ↔ ∀ name ∈ names, IsAscii (trim name)) ∧
      (∀ k, ofUnsorted names directory = .ok k → k.Answers names directory) ∧
      ∀ names', SameNames names names' →
        ofUnsorted names directory = ofUnsorted names' directory) ∧
    (∀ names k, ofNames names directory = .ok k ↔
      k = ⟨names.toArray, directory⟩ ∧ (∀ name ∈ names, IsLowercaseName name) ∧
        names.Pairwise (· < ·)) ∧
    (∀ k : KnownDlls, k.Built → ofNames k.names.toList k.directory = .ok k) ∧
    ∀ text,
      (∃ pieces, IsCutInto text pieces) ∧
      (∀ pieces, IsCutInto text pieces →
        ofText text directory = ofUnsorted ((pieces.map trim).filter isNameLine) directory) ∧
      ∀ k, ofText text directory = .ok k →
        ofText ("\n".intercalate k.names.toList) directory = .ok k := by
  refine ⟨fun names => ⟨?_, fun k hk => answers_of_ofUnsorted hk,
    fun names' hsame => hsame.ofUnsorted_eq directory⟩, fun names k => ofNames_eq_ok_iff,
    fun k hk => hk.ofNames_names, fun text => ⟨exists_isCutInto text,
      fun pieces hpieces => ofText_eq_ofUnsorted hpieces directory, fun k hk => ofText_names hk⟩⟩
  simp [ofUnsorted_eq_ok_iff]

/-- The lines of a text with a comment, white space, capitals and a name that stands there twice. -/
def messyLines : List String :=
  ["# mapped early", " NTDLL.dll", "Kernel32.DLL\r", "kernel32.dll", ""]

/-- A list in any order, with other casings, comments and repetitions, makes known DLLs that can be
written down and read back. -/
theorem answers_of_names_messy :
    ∃ k, ofText ("\n".intercalate messyLines) ⟨"/System32"⟩ = .ok k ∧
      k.lookup? "KERNEL32.dll" = some ⟨"/System32/kernel32.dll"⟩ ∧
      ofNames k.names.toList k.directory = .ok k ∧
      ofText ("\n".intercalate k.names.toList) ⟨"/System32"⟩ = .ok k := by
  obtain ⟨hnames, -, hbuilt, htext⟩ := answers_of_names ⟨"/System32"⟩
  obtain ⟨-, hlines, hagain⟩ := htext ("\n".intercalate messyLines)
  have hof := hlines messyLines ⟨rfl, by decide⟩
  have hkept : (messyLines.map trim).filter isNameLine =
      ["NTDLL.dll", "Kernel32.DLL", "kernel32.dll"] := by
    decide
  rw [hkept] at hof
  obtain ⟨hexists, hanswers, -⟩ := hnames ["NTDLL.dll", "Kernel32.DLL", "kernel32.dll"]
  obtain ⟨k, hk⟩ := hexists.2 (by decide)
  have hk' := hof.trans hk
  have hcontains : k.contains "KERNEL32.dll" = true :=
    ((hanswers k hk).contains_iff _).2 ⟨by decide, "Kernel32.DLL", by decide, by decide⟩
  refine ⟨k, hk', ?_, hbuilt k (.ofText hk'), hagain k hk'⟩
  rw [(hanswers k hk).lookup?_eq, if_pos hcontains]
  decide

end KnownDlls

end DllGraph
