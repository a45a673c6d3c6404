import DllGraph.Proofs.Image.Layout
import DllGraph.Proofs.Image.Writing

/-!
# Well-Formed Headers

Which files the header decoder accepts, and what it reports of the others. What is asked of a file
is a list of requirements, in the order in which the headers stand in the file, each with the fault
that a file is reported for if it does not meet it. The decoder reports the first requirement that
is not met (`FirstFault`), and accepts a file that meets them all. No other check stands in its way,
and every read that it makes is covered by a requirement before it.

## Main definitions

* `Layout.WellFormed`, the files that are accepted;
* `Layout.requirements`, what is asked of a file in order, and `FirstFault`, the first fault;
* `Answers`, that a sequence of checks asks for a list of requirements.

## Main results

* `Answers.bind` and its like — sequences of checks ask for the requirements of their parts;
* `Image.answers_parse` — the header decoder asks for what is required of a file;
* `Image.parse_eq_iff_wellFormed` — what it answers for any file.
-/

namespace DllGraph

/-! ### Requirements -/

/-- Something that is asked of a file, and what a file is reported for otherwise. -/
structure Requirement where
  holds : Prop
  fault : Fault

/-- The fault of the first of some requirements that does not hold. -/
inductive FirstFault : List Requirement → Fault → Prop
  | here {r : Requirement} {rest : List Requirement} : ¬ r.holds → FirstFault (r :: rest) r.fault
  | later {r : Requirement} {rest : List Requirement} {fault : Fault} :
      r.holds → FirstFault rest fault → FirstFault (r :: rest) fault

/-- A result is a success if all requirements hold, and the fault of the first one that does not
hold otherwise. -/
def Answers {α : Type} (x : Except Fault α) : List Requirement → Prop
  | [] => ∃ a, x = .ok a
  | r :: rest => (r.holds → Answers x rest) ∧ (¬ r.holds → x = .error r.fault)

namespace Answers

variable {α β : Type} {holds : Prop} {fault : Fault} {rest : List Requirement}

/-- There is an answer if and only if all requirements hold. -/
theorem exists_ok_iff {x : Except Fault α} {rs : List Requirement} (h : Answers x rs) :
    (∃ a, x = .ok a) ↔ ∀ r ∈ rs, r.holds := by
  induction rs with
  | nil => exact ⟨fun _ => nofun, fun _ => h⟩
  | cons r rest ih =>
    rw [List.forall_mem_cons]
    by_cases hr : r.holds
    · rw [ih (h.1 hr)]
      exact ⟨fun hrest => ⟨hr, hrest⟩, fun hall => hall.2⟩
    · rw [h.2 hr]
      exact ⟨nofun, fun hall => absurd hall.1 hr⟩

/-- The fault is that of the first requirement that does not hold. -/
theorem eq_error_iff {x : Except Fault α} {rs : List Requirement} (h : Answers x rs) :
    x = .error fault ↔ FirstFault rs fault := by
  induction rs with
  | nil =>
    obtain ⟨a, rfl⟩ := h
    exact ⟨nofun, nofun⟩
  | cons r rest ih =>
    by_cases hr : r.holds
    · rw [ih (h.1 hr)]
      refine ⟨.later hr, fun hfault => ?_⟩
      cases hfault with
      | here hnot => exact absurd hr hnot
      | later _ hrest => exact hrest
    · rw [h.2 hr]
      constructor
      · intro heq
        cases heq
        exact .here hr
      · intro hfault
        cases hfault with
        | here => rfl
        | later hholds => exact absurd hholds hr

/-- An answer that asks for nothing is given. -/
theorem pure (a : α) : Answers (Pure.pure a : Except Fault α) [] :=
  ⟨a, rfl⟩

/-- A check asks for what it refuses the opposite of. -/
theorem check {c : Prop} [Decidable c] {next : Unit → Except Fault α} (hc : c ↔ ¬ holds)
    (hnext : holds → Answers (next ()) rest) :
    Answers (if c then throw fault >>= next else next ()) (⟨holds, fault⟩ :: rest) where
  left hholds := by
    rw [if_neg fun h => hc.1 h hholds]
    exact hnext hholds
  right hnot := by
    rw [if_pos (hc.2 hnot)]
    rfl

/-- A read asks for what it needs to succeed. -/
theorem expect {x : Option α} {next : α → Except Fault β} (hx : x.isSome ↔ holds)
    (hnext : ∀ a, x = some a → Answers (next a) rest) :
    Answers (Fault.expect fault x >>= next) (⟨holds, fault⟩ :: rest) where
  left hholds := by
    obtain ⟨a, ha⟩ := Option.isSome_iff_exists.1 (hx.2 hholds)
    rw [ha]
    exact hnext a ha
  right hnot := by
    have hnone : x = none := Option.not_isSome_iff_eq_none.1 (mt hx.1 hnot)
    rw [hnone]
    rfl

/-- A read that is known to succeed asks for nothing. -/
theorem read {x : Option α} {next : α → Except Fault β} (hx : x.isSome)
    (hnext : ∀ a, x = some a → Answers (next a) rest) :
    Answers (Fault.expect fault x >>= next) rest := by
  obtain ⟨a, rfl⟩ := Option.isSome_iff_exists.1 hx
  exact hnext a rfl

/-- The same checks after either of two reads that are known to succeed. -/
theorem readEither {c : Prop} [Decidable c] {x x' : Option α} {next : α → Except Fault β}
    (hx : x.isSome) (hx' : x'.isSome) (hnext : ∀ a, Answers (next a) rest) :
    Answers (if c then Fault.expect fault x >>= next else Fault.expect fault x' >>= next)
      rest := by
  split
  · exact .read hx fun a _ => hnext a
  · exact .read hx' fun a _ => hnext a

/-- One sequence of checks after the other asks for the requirements of both. -/
theorem bind {x : Except Fault α} {next : α → Except Fault β} {rs : List Requirement}
    (hx : Answers x rs) (hnext : ∀ a, x = .ok a → Answers (next a) rest) :
    Answers (x >>= next) (rs ++ rest) := by
  induction rs with
  | nil =>
    obtain ⟨a, rfl⟩ := hx
    exact hnext a rfl
  | cons r rs ih =>
    refine ⟨fun hr => ih (hx.1 hr), fun hr => ?_⟩
    rw [hx.2 hr]
    rfl

end Answers

/-! ### What is required of headers -/

namespace Layout

/-- The headers of a file are well formed. -/
structure WellFormed (b : Bytes) : Prop where
  dosHeader : 64 ≤ b.size
  dosMagic : b[0]? = some 0x4D ∧ b[1]? = some 0x5A
  signature : b.Stores (start b) [0x50, 0x45, 0, 0]
  knownMagic : magic b = 0x10B ∨ magic b = 0x20B
  fixed_le : fixed b ≤ declared b
  declared_le : optional b + declared b ≤ b.size
  directories_le : 8 * directoryCount b ≤ declared b - fixed b
  tableEnd_le : tableEnd b ≤ b.size

/-- What is required of the headers of a file, in the order in which it is asked for. -/
def requirements (b : Bytes) : List Requirement := [
  ⟨2 ≤ b.size, .fileTooShort 2 b.size⟩,
  ⟨b[0]? = some 0x4D ∧ b[1]? = some 0x5A, .invalidDosMagic⟩,
  ⟨64 ≤ b.size, .fileTooShort 64 b.size⟩,
  ⟨start b + 4 ≤ b.size, .invalidNewHeaderOffset (start b)⟩,
  ⟨b.Stores (start b) [0x50, 0x45, 0, 0], .invalidPeMagic (UInt32.ofNat (b.word (start b) 4))⟩,
  ⟨optional b ≤ b.size, .fileTooShort (optional b) b.size⟩,
  ⟨optional b + 2 ≤ b.size, .fileTooShort (optional b + 2) b.size⟩,
  ⟨magic b = 0x10B ∨ magic b = 0x20B, .invalidOptionalMagic (UInt16.ofNat (magic b))⟩,
  ⟨fixed b ≤ declared b, .invalidOptionalSize (UInt16.ofNat (declared b))⟩,
  ⟨optional b + declared b ≤ b.size, .fileTooShort (optional b + declared b) b.size⟩,
  ⟨8 * directoryCount b ≤ declared b - fixed b,
    .invalidDirectoryCount (UInt32.ofNat (directoryCount b))⟩,
  ⟨tableEnd b ≤ b.size, .invalidSectionTable (UInt16.ofNat (sectionCount b))⟩]

/-- A file meets all requirements exactly when its headers are well formed. -/
theorem forall_requirements_iff (b : Bytes) :
    (∀ r ∈ requirements b, r.holds) ↔ WellFormed b := by
  simp only [requirements, List.forall_mem_cons, List.not_mem_nil, false_implies, implies_true,
    and_true]
  constructor
  · rintro ⟨-, hmagic, hsize, -, hsignature, -, -, hlayout, hfixed, hdeclared, hroom, htable⟩
    exact ⟨hsize, hmagic, hsignature, hlayout, hfixed, hdeclared, hroom, htable⟩
  · rintro ⟨hsize, hmagic, hsignature, hlayout, hfixed, hdeclared, hroom, htable⟩
    have hpos : 96 ≤ fixed b := le_fixed b
    have hoptional : optional b = start b + 24 := rfl
    exact ⟨by omega, hmagic, hsize, by omega, hsignature, by omega, by omega, hlayout, hfixed,
      hdeclared, hroom, htable⟩

end Layout

/-! ### What the decoder asks for -/

namespace Image

open Layout

variable {b : Bytes}

/-- The bytes of the signature make up its word. -/
theorem stores_signature_iff {w : UInt32} {offset : Nat} (h : b.u32? offset = some w) :
    b.Stores offset [0x50, 0x45, 0, 0] ↔ w = signature := by
  have hbytes : [0x50, 0x45, 0, 0] = Bytes.ofWord 4 signature.toNat := by decide
  rw [hbytes]
  constructor
  · intro hstores
    exact Option.some.inj (h.symm.trans (Bytes.u32?_of_stores hstores))
  · rintro rfl
    obtain ⟨n, hn, hw⟩ := Option.map_eq_some_iff.1 h
    rw [← hw, UInt32.toNat_ofNat_of_lt' (Bytes.word?_lt hn)]
    exact Bytes.stores_of_word? hn

/-- The new header is found if the first five requirements hold, and they are checked in this
order. -/
theorem answers_newHeader (b : Bytes) : Answers (newHeader b) ((requirements b).take 5) := by
  rw [newHeader]
  refine .check (by omega) fun _ => .check not_and_or.symm fun _ =>
    .check (by simp [dosHeaderSize]) fun hsize => ?_
  refine .read (Bytes.fixedWidth_u16?.isSome (Nat.le_trans (by decide) hsize)) fun w hw => ?_
  have hstart : w.toNat = start b := Bytes.toNat_of_u16? hw
  rw [hstart]
  refine .expect (Bytes.fixedWidth_u32?.isSome_iff_le (by decide)) fun found hfound => ?_
  have hword : UInt32.ofNat (b.word (start b) 4) = found := by
    rw [← Bytes.toNat_of_u32? hfound, UInt32.ofNat_toNat]
  rw [hword]
  refine .check ?_ fun _ => ?_
  · rw [stores_signature_iff hfound]
  · exact .pure (start b)

/-- The data directories that there is room for lie in the optional header, and so in the file. -/
theorem answers_readDirectories {offset declared : Nat} {count : UInt32}
    (h : offset + declared ≤ b.size) :
    Answers (readDirectories b offset (declared / DataDirectory.width) count)
      [⟨8 * count.toNat ≤ declared, .invalidDirectoryCount count⟩] := by
  rw [readDirectories]
  refine .check (by rw [DataDirectory.width]; omega) fun hroom => ?_
  have hfits : offset + DataDirectory.width * count.toNat ≤ b.size := by
    rw [DataDirectory.width]
    omega
  have hread := DataDirectory.fixedWidth_read?.records? (by decide) count.toNat
  obtain ⟨directories, hdirectories⟩ := Option.isSome_iff_exists.1 (hread.isSome hfits)
  rw [hdirectories]
  exact .pure directories

/-- The sections are read if the section table ends within the file. -/
theorem answers_readSections {offset : Nat} {count : UInt16} (h : offset ≤ b.size) :
    Answers (readSections b offset count)
      [⟨offset + 40 * count.toNat ≤ b.size, .invalidSectionTable count⟩] := by
  rw [readSections]
  have hread := SectionRecord.fixedWidth_read?.records? (by decide) count.toNat
  refine .expect ?_ fun table _ => .pure _
  rw [hread.isSome_iff, SectionRecord.size]
  omega

/-- There are two magic numbers of optional headers. -/
theorem layout?_isSome_iff {word : UInt16} :
    (layout? word).isSome ↔ word.toNat = 0x10B ∨ word.toNat = 0x20B := by
  rw [Option.isSome_iff_exists]
  constructor
  · rintro ⟨layout, hlayout⟩
    exact (layout?_eq_some_iff.1 hlayout).1
  · intro hword
    exact ⟨_, layout?_eq_some_iff.2 ⟨hword, decide_eq_true_iff, rfl⟩⟩

/-- The decoder asks for what is required of the headers, in the same order. -/
theorem answers_parse (b : Bytes) : Answers (parse b) (requirements b) := by
  rw [parse, ← List.take_append_drop 5 (requirements b)]
  refine .bind (answers_newHeader b) fun offset hoffset => ?_
  obtain rfl : offset = start b := by
    obtain ⟨-, -, hword, -⟩ := newHeader_eq_ok_iff.1 hoffset
    obtain ⟨w, hw, rfl⟩ := Option.map_eq_some_iff.1 hword
    exact Bytes.toNat_of_u16? hw
  have hoptional : start b + signatureSize + CoffHeader.size = optional b := rfl
  refine .expect (CoffHeader.fixedWidth_read?.isSome_iff_le (by decide)) fun coff hcoff => ?_
  obtain ⟨-, hsections, -, hdeclared, -⟩ := CoffHeader.toNat_of_read? hcoff
  have hsections : coff.sectionCount.toNat = sectionCount b := hsections
  have hdeclared : coff.optionalHeaderSize.toNat = declared b := hdeclared
  rw [hoptional]
  refine .expect (Bytes.fixedWidth_u16?.isSome_iff_le (by decide)) fun word hword => ?_
  have hmagic : word.toNat = magic b := Bytes.toNat_of_u16? hword
  rw [← hmagic, UInt16.ofNat_toNat]
  refine .expect layout?_isSome_iff fun layout hlayout => ?_
  obtain ⟨-, -, hfixed⟩ := layout?_eq_some_iff.1 hlayout
  rw [hmagic] at hfixed
  have hfixed : layout.2 = fixed b := hfixed
  rw [← hdeclared, ← hfixed, UInt16.ofNat_toNat]
  refine .check Nat.not_le.symm fun hroom => .check Nat.not_le.symm fun hinside => ?_
  -- The fixed fields are in the declared part of the file now, so that none of their reads fails.
  have hlarge : 96 ≤ layout.2 := hfixed ▸ le_fixed b
  refine .readEither (Bytes.fixedWidth_u64?.isSome (by omega)) ?_ fun imageBase => ?_
  · rw [Option.isSome_map]
    exact Bytes.fixedWidth_u32?.isSome (by omega)
  refine .read (Bytes.fixedWidth_u16?.isSome (by omega)) fun subsystem _ => ?_
  refine .read (Bytes.fixedWidth_u32?.isSome (by omega)) fun count hcount => ?_
  have hcount : count.toNat = directoryCount b := by
    rw [Bytes.toNat_of_u32? hcount, hfixed, directoryCount]
  have htable : tableEnd b =
      Layout.optional b + coff.optionalHeaderSize.toNat + 40 * coff.sectionCount.toNat := by
    rw [hsections, hdeclared, tableEnd, table]
  rw [htable, ← hcount, ← hsections, UInt32.ofNat_toNat, UInt16.ofNat_toNat]
  refine (answers_readDirectories (by omega)).bind fun directories _ => ?_
  exact (answers_readSections hinside).bind fun sections _ => .pure _

/-- The decoder accepts the files with well-formed headers and answers their fields. Any other file
is reported for the first thing that is required of it and that it does not meet. -/
theorem parse_eq_iff_wellFormed (b : Bytes) :
    (∀ image, parse b = .ok image ↔ WellFormed b ∧ image.IsDecodedFrom b) ∧
      ((∃ image, parse b = .ok image) ↔ WellFormed b) ∧
      ∀ fault, parse b = .error fault ↔ FirstFault (requirements b) fault := by
  have haccepts : (∃ image, parse b = .ok image) ↔ WellFormed b :=
    (answers_parse b).exists_ok_iff.trans (forall_requirements_iff b)
  have hdecoded : ∀ image, parse b = .ok image → image.IsDecodedFrom b := by
    intro image himage
    obtain ⟨h, hin, rfl⟩ := parse_eq_ok_iff.1 himage
    exact hin.isDecodedFrom
  refine ⟨fun image => ⟨fun himage => ?_, ?_⟩, haccepts, fun _ => (answers_parse b).eq_error_iff⟩
  · exact ⟨haccepts.1 ⟨image, himage⟩, hdecoded image himage⟩
  · rintro ⟨hwell, himage⟩
    obtain ⟨found, hfound⟩ := haccepts.2 hwell
    rw [hfound, (hdecoded found hfound).unique himage]

end Image

end DllGraph
