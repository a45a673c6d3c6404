import DllGraph.Proofs.Image.Checked
import DllGraph.Proofs.Image.Truncation

/-!
# The Window of a Text

Three limits bound the reading of a text: the raw data of its section, the end of the file, and a
longest length. All that they decide is whether the zero byte that ends the text comes in time. Once
it does, neither the bytes after it nor the limits have a part in the answer.

This module states the grammar of texts on the bytes of the file and on the UTF-8 form of the text
(`IsTextAt`). It proves that reading accepts exactly this grammar, at every offset, and that no
decoding of the accepted bytes can fail.

## Main definitions

* `IsTextAt`, the texts that stand at an offset, within the limits.

## Main results

* `toUTF8_asciiText` — the text of printable bytes has these bytes as its UTF-8 form;
* `readAsciiAt_congr` — only the bytes up to the first zero byte matter;
* `readAsciiAt_accepts_textAt` — reading accepts exactly the texts that stand at an offset.
-/

namespace DllGraph

open Bytes

/-! ### Printable bytes are UTF-8 -/

/-- The text of printable bytes has these bytes as its UTF-8 form. -/
theorem toUTF8_asciiText {bytes : List UInt8} (h : bytes.all isPrintableAscii = true) :
    (asciiText bytes).toUTF8 = bytes.toByteArray := by
  rw [String.toUTF8_eq_toByteArray, asciiText, String.toByteArray_ofList]
  induction bytes with
  | nil => rfl
  | cons c rest ih =>
    rw [List.all_cons, Bool.and_eq_true] at h
    have hlow : (Char.ofNat c.toNat).toNat ≤ 127 := by
      have hprintable := h.1
      rw [isPrintableAscii, Bool.and_eq_true, decide_eq_true_eq, decide_eq_true_eq,
        UInt8.le_iff_toNat_le, UInt8.le_iff_toNat_le] at hprintable
      rw [toNat_ofNat_byte]
      exact Nat.le_trans hprintable.2 (by decide)
    have hone : (Char.ofNat c.toNat).utf8Size = 1 := Char.utf8Size_eq_one_iff.2 hlow
    have hbyte : (Char.ofNat c.toNat).val.toUInt8 = c := by
      refine UInt8.toNat_inj.1 ?_
      rw [UInt32.toNat_toUInt8]
      exact (congrArg (· % 256) (toNat_ofNat_byte c)).trans (Nat.mod_eq_of_lt c.toNat_lt_size)
    rw [List.map_cons, List.utf8Encode_cons, List.utf8Encode_singleton,
      String.utf8EncodeChar_eq_singleton hone, hbyte, ih h.2, ← List.toByteArray_append,
      List.singleton_append]

/-- Printable bytes are decoded as UTF-8, and to the text that is made of them one by one. -/
theorem fromUTF8?_of_isPrintableAscii {bytes : List UInt8}
    (h : bytes.all isPrintableAscii = true) :
    String.fromUTF8? bytes.toByteArray = some (asciiText bytes) := by
  rw [← toUTF8_asciiText h, String.toUTF8_eq_toByteArray, String.fromUTF8?,
    dif_pos (asciiText bytes).isValidUTF8]
  rfl

/-- The UTF-8 form of a printable text is its bytes. -/
theorem toUTF8_of_isPrintable {text : String} (h : IsPrintable text) :
    text.toUTF8 = (textBytes text).toByteArray := by
  rw [← toUTF8_asciiText (isPrintableAscii_of_mem_textBytes h), asciiText_textBytes h]

/-- A text is printable if its UTF-8 form has printable bytes only. -/
theorem isPrintable_of_toUTF8 {text : String} (h : ∀ c ∈ text.toUTF8.data, 32 ≤ c ∧ c ≤ 126) :
    IsPrintable text := by
  have hall : text.toUTF8.data.toList.all isPrintableAscii = true := by
    rw [List.all_eq_true]
    intro c hc
    simpa [isPrintableAscii] using h c (Array.mem_toList_iff.1 hc)
  have htext : asciiText text.toUTF8.data.toList = text := by
    refine String.toByteArray_inj.1 (ByteArray.ext ?_)
    rw [← String.toUTF8_eq_toByteArray, toUTF8_asciiText hall, List.data_toByteArray,
      Array.toArray_toList, String.toUTF8_eq_toByteArray]
  rw [← htext]
  exact isPrintable_asciiText hall

/-! ### Texts at an offset -/

/-- A text stands at an offset: its UTF-8 form is a run of printable ASCII bytes, with a zero byte
right after it that is within the longest length, the raw data of the section and the file. -/
structure IsTextAt (b : Bytes) (s : Section) (offset maxLength : Nat) (text : String) : Prop where
  nonempty : 1 ≤ text.toUTF8.size
  short : text.toUTF8.size < maxLength
  within : offset + text.toUTF8.size < min s.rawEnd b.size
  stored : ∀ i < text.toUTF8.size, b[offset + i]? = text.toUTF8[i]?
  printable : ∀ c ∈ text.toUTF8.data, 32 ≤ c ∧ c ≤ 126
  terminated : b[offset + text.toUTF8.size]? = some 0

variable {b b' : Bytes} {s s' : Section} {offset maxLength maxLength' n : Nat} {rva : UInt32}
  {text : String}

/-- An array of bytes has the bytes that it was made of. -/
theorem getElem?_toByteArray (bytes : List UInt8) (i : Nat) :
    bytes.toByteArray[i]? = bytes[i]? := by
  rw [← Bytes.getElem?_toList, List.data_toByteArray, List.toList_toArray]

/-- The UTF-8 form of a printable text has a byte for each character. -/
theorem size_toUTF8_of_isPrintable (h : IsPrintable text) : text.toUTF8.size = text.length := by
  rw [toUTF8_of_isPrintable h, List.size_toByteArray, length_textBytes]

/-- A text stands at an offset if and only if it is stored there with its zero byte, one byte for
each character. -/
theorem isTextAt_iff :
    IsTextAt b s offset maxLength text ↔
      IsPrintable text ∧ text ≠ "" ∧ b.Stores offset (textBytes text ++ [0]) ∧
        text.length < maxLength ∧ offset + text.length < s.rawEnd := by
  rw [stores_append, length_textBytes, stores_cons]
  constructor
  · intro h
    have hprintable := isPrintable_of_toUTF8 h.printable
    have hsize := size_toUTF8_of_isPrintable hprintable
    obtain ⟨hnonempty, hshort, hwithin, hstored, -, hterminated⟩ := h
    rw [hsize] at hnonempty hshort hwithin hstored hterminated
    refine ⟨hprintable, ?_, ⟨fun i hi => ?_, hterminated, stores_nil⟩, hshort, by omega⟩
    · rintro rfl
      exact absurd hnonempty (by decide)
    · rw [length_textBytes] at hi
      rw [hstored i hi, toUTF8_of_isPrintable hprintable, getElem?_toByteArray]
  · rintro ⟨hprintable, hne, ⟨hstores, hzero, -⟩, hshort, hend⟩
    have hutf8 := toUTF8_of_isPrintable hprintable
    have hsize := size_toUTF8_of_isPrintable hprintable
    obtain ⟨hfile, -⟩ := getElem_of_getElem? hzero
    constructor
    · have hlength : text.length ≠ 0 := fun h => hne (String.length_eq_zero_iff.1 h)
      omega
    · omega
    · omega
    · intro i hi
      rw [hutf8, getElem?_toByteArray]
      exact hstores i (by rwa [length_textBytes, ← hsize])
    · intro c hc
      rw [hutf8, List.data_toByteArray, List.mem_toArray] at hc
      have hall := List.all_eq_true.1 (isPrintableAscii_of_mem_textBytes hprintable) c hc
      simpa [isPrintableAscii] using hall
    · rwa [hsize]

/-- Reading accepts exactly the texts that stand at the offset. -/
theorem readAsciiAt_eq_ok_iff_isTextAt :
    readAsciiAt b s offset rva maxLength = .ok text ↔ IsTextAt b s offset maxLength text :=
  readAsciiAt_eq_ok_iff.trans isTextAt_iff.symm

/-! ### What the answer depends on -/

/-- A scan that meets a zero byte depends on the bytes up to it, and not on where its window
ends. -/
theorem untilZero?_congr {window window' : Nat} (hzero : b[offset + n]? = some 0)
    (hn : n < window) (hn' : n < window') (h : ∀ i ≤ n, b'[offset + i]? = b[offset + i]?) :
    untilZero? b' offset window' = untilZero? b offset window := by
  induction n generalizing offset window window' with
  | zero =>
    obtain ⟨window, rfl⟩ := Nat.exists_eq_succ_of_ne_zero (Nat.ne_zero_of_lt hn)
    obtain ⟨window', rfl⟩ := Nat.exists_eq_succ_of_ne_zero (Nat.ne_zero_of_lt hn')
    have hfirst : b'[offset]? = b[offset]? := h 0 (Nat.le_refl 0)
    rw [Nat.add_zero] at hzero
    rw [untilZero?, untilZero?, hfirst, hzero]
    rfl
  | succ n ih =>
    obtain ⟨window, rfl⟩ := Nat.exists_eq_succ_of_ne_zero (Nat.ne_zero_of_lt hn)
    obtain ⟨window', rfl⟩ := Nat.exists_eq_succ_of_ne_zero (Nat.ne_zero_of_lt hn')
    have hfirst : b'[offset]? = b[offset]? := h 0 (Nat.zero_le _)
    have hrest : untilZero? b' (offset + 1) window' = untilZero? b (offset + 1) window := by
      refine ih ?_ (Nat.lt_of_succ_lt_succ hn) (Nat.lt_of_succ_lt_succ hn') fun i hi => ?_
      · rwa [Nat.add_assoc, Nat.add_comm 1 n]
      · rw [Nat.add_assoc, Nat.add_comm 1 i]
        exact h (i + 1) (Nat.succ_le_succ hi)
    rw [untilZero?, untilZero?, hfirst, hrest]

/-- A zero byte within all limits decides the answer together with the bytes before it, whatever
comes after it and however far the limits reach. -/
theorem readAsciiAt_congr (hzero : b[offset + n]? = some 0) (hn : n < maxLength)
    (hend : offset + n < s.rawEnd) (h : ∀ i ≤ n, b'[offset + i]? = b[offset + i]?)
    (hn' : n < maxLength') (hend' : offset + n < s'.rawEnd) :
    readAsciiAt b' s' offset rva maxLength' = readAsciiAt b s offset rva maxLength := by
  obtain ⟨hfile, -⟩ := getElem_of_getElem? hzero
  obtain ⟨hfile', -⟩ := getElem_of_getElem? ((h n (Nat.le_refl n)).trans hzero)
  simp only [readAsciiAt]
  rw [if_neg (by omega), if_neg (by omega),
    untilZero?_congr hzero (by omega : n < min (min s.rawEnd b.size - offset) maxLength)
      (by omega : n < min (min s'.rawEnd b'.size - offset) maxLength') h]

/-- A text that has been read is still read when the file is continued, when the section ends later,
and when a longer text is allowed. -/
theorem readAsciiAt_mono (h : readAsciiAt b s offset rva maxLength = .ok text)
    (hfile : b.Begins b') (hend : s.rawEnd ≤ s'.rawEnd) (hmax : maxLength ≤ maxLength') :
    readAsciiAt b' s' offset rva maxLength' = .ok text := by
  obtain ⟨-, hshort, hwithin, -, -, hzero⟩ := readAsciiAt_eq_ok_iff_isTextAt.1 h
  rw [← h]
  refine readAsciiAt_congr hzero hshort (by omega) (fun i hi => ?_) (by omega) (by omega)
  exact hfile.getElem? (by omega)

/-- Reading accepts exactly the texts that stand at an offset, and decodes them. Its answer does not
depend on what comes after the first zero byte, so that no text is lost when a limit is raised. No
decoding of printable bytes fails, and no offset that fits a word makes a reader with checked
arithmetic stop. -/
theorem readAsciiAt_accepts_textAt (b : Bytes) (s : Section) (offset : Nat) (rva : UInt32)
    (maxLength : Nat) :
    (∀ text, readAsciiAt b s offset rva maxLength = .ok text ↔
      IsTextAt b s offset maxLength text) ∧
    -- With a zero byte in time, the answer, a fault or not, is that of the bytes up to it.
    (∀ n, b[offset + n]? = some 0 → n < maxLength → offset + n < s.rawEnd →
      ∀ (b' : Bytes) (s' : Section) (maxLength' : Nat),
        (∀ i ≤ n, b'[offset + i]? = b[offset + i]?) → n < maxLength' → offset + n < s'.rawEnd →
          readAsciiAt b' s' offset rva maxLength' = readAsciiAt b s offset rva maxLength) ∧
    (∀ text, readAsciiAt b s offset rva maxLength = .ok text →
      ∀ (b' : Bytes) (s' : Section) (maxLength' : Nat),
        b.Begins b' → s.rawEnd ≤ s'.rawEnd → maxLength ≤ maxLength' →
          readAsciiAt b' s' offset rva maxLength' = .ok text) ∧
    -- What has passed the check of its bytes is decoded.
    (∀ bytes : List UInt8, bytes.all isPrintableAscii = true →
      String.fromUTF8? bytes.toByteArray = some (asciiText bytes)) ∧
    (offset < 2 ^ 64 → Checked.readAsciiAt b s offset rva maxLength =
      Guarded.ofResult (readAsciiAt b s offset rva maxLength)) := by
  refine ⟨fun text => readAsciiAt_eq_ok_iff_isTextAt, ?_, ?_,
    fun bytes => fromUTF8?_of_isPrintableAscii, Checked.readAsciiAt_eq⟩
  · intro n hzero hn hend b' s' maxLength' h hn' hend'
    exact readAsciiAt_congr hzero hn hend h hn' hend'
  · intro text htext b' s' maxLength' hfile hend hmax
    exact readAsciiAt_mono htext hfile hend hmax

/-- Eight bytes. The second one starts a text, whose zero byte is the last but one. -/
def fencedFile : Bytes :=
  [0x78, 0x41, 0x2E, 0x64, 0x6C, 0x6C, 0, 0x80].toByteArray

/-- A section whose raw data is the first bytes of a file. -/
def frontSection (rawSize : UInt32) : Section :=
  ⟨"", 4096, rawSize, 0, rawSize, 0⟩

/-- The text of that file is read where there is just room for its zero byte, and wherever there is
more of it, but not where the longest length is one less. -/
theorem readAsciiAt_accepts_textAt_fencedFile :
    readAsciiAt fencedFile (frontSection 7) 1 4097 6 = .ok "A.dll" ∧
      readAsciiAt fencedFile (frontSection 7) 1 4097 5 ≠ .ok "A.dll" ∧
      readAsciiAt [0, 0x41, 0x2E, 0x64, 0x6C, 0x6C, 0].toByteArray (frontSection 7) 1 4097 6 =
        readAsciiAt fencedFile (frontSection 7) 1 4097 6 ∧
      readAsciiAt (fencedFile ++ fencedFile) (frontSection 16) 1 4097 256 = .ok "A.dll" ∧
      String.fromUTF8? [0x41, 0x7E].toByteArray = some (asciiText [0x41, 0x7E]) ∧
      Checked.readAsciiAt fencedFile (frontSection 7) (2 ^ 64 - 1) 4097 6 =
        Guarded.ofResult (readAsciiAt fencedFile (frontSection 7) (2 ^ 64 - 1) 4097 6) := by
  obtain ⟨haccepts, hsame, hmore, hdecodes, -⟩ :=
    readAsciiAt_accepts_textAt fencedFile (frontSection 7) 1 4097 6
  have htext : readAsciiAt fencedFile (frontSection 7) 1 4097 6 = .ok "A.dll" :=
    (haccepts "A.dll").2 ⟨by decide +kernel, by decide +kernel, by decide +kernel,
      by decide +kernel, by decide +kernel, by decide +kernel⟩
  refine ⟨htext, fun hshort => ?_, ?_, ?_, hdecodes _ (by decide), ?_⟩
  · have hgrammar := (readAsciiAt_accepts_textAt fencedFile (frontSection 7) 1 4097 5).1 "A.dll"
    exact absurd (hgrammar.1 hshort).short (by decide +kernel)
  · exact hsame 5 (by decide +kernel) (by decide) (by decide) _ _ _ (by decide +kernel) (by decide)
      (by decide)
  · exact hmore "A.dll" htext _ _ _ ⟨fencedFile, rfl⟩ (by decide) (by decide)
  · obtain ⟨-, -, -, -, hchecked⟩ :=
      readAsciiAt_accepts_textAt fencedFile (frontSection 7) (2 ^ 64 - 1) 4097 6
    exact hchecked (by decide)

end DllGraph
