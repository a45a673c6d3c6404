import DllGraph.Proofs.Image.Writing

/-!
# Bounded Texts

A text in an image is a run of printable ASCII characters with a zero byte after it. This module
says exactly which texts are read: those that are stored with their zero byte, within the raw data
of the section and within the longest length. What comes after the zero byte does not matter.

## Main definitions

* `IsPrintable`, the texts that can be read, and `textBytes`, the bytes of such a text.

## Main results

* `untilZero?_eq_some_iff` — what a scan for a zero byte finds;
* `readAsciiAt_eq_ok_iff` — a text is read exactly when it is stored;
* `readAscii_eq_ok_iff` — and a text at an address where the address leads to.
-/

namespace DllGraph

/-! ### Printable texts -/

/-- A text of printable ASCII characters. -/
def IsPrintable (text : String) : Prop :=
  ∀ c ∈ text.toList, 32 ≤ c.toNat ∧ c.toNat ≤ 126

instance (text : String) : Decidable (IsPrintable text) :=
  List.decidableBAll (fun c : Char => 32 ≤ c.toNat ∧ c.toNat ≤ 126) text.toList

/-- The bytes of a text in an image. -/
def textBytes (text : String) : List UInt8 :=
  text.toList.map fun c => UInt8.ofNat c.toNat

/-- A text has one byte for each character. -/
@[simp] theorem length_textBytes (text : String) : (textBytes text).length = text.length := by
  rw [textBytes, List.length_map, String.length_toList]

/-- The value of a printable character fits a byte. -/
theorem toNat_of_isPrintable {c : Char} (h : 32 ≤ c.toNat ∧ c.toNat ≤ 126) :
    (UInt8.ofNat c.toNat).toNat = c.toNat :=
  UInt8.toNat_ofNat_of_lt' (Nat.lt_of_le_of_lt h.2 (by decide))

/-- A printable text is the text of its bytes. -/
theorem asciiText_textBytes {text : String} (h : IsPrintable text) :
    asciiText (textBytes text) = text := by
  have hchars : (textBytes text).map (fun c => Char.ofNat c.toNat) = text.toList := by
    rw [textBytes, List.map_map]
    refine (List.map_congr_left fun c hc => ?_).trans (List.map_id _)
    rw [Function.comp_apply, toNat_of_isPrintable (h c hc), Char.ofNat_toNat, id]
  rw [asciiText, hchars, String.ofList_toList]

/-- The bytes of a printable text are printable. -/
theorem isPrintableAscii_of_mem_textBytes {text : String} (h : IsPrintable text) :
    (textBytes text).all isPrintableAscii = true := by
  rw [List.all_eq_true]
  intro byte hbyte
  obtain ⟨c, hc, rfl⟩ := List.mem_map.1 hbyte
  have hnat := toNat_of_isPrintable (h c hc)
  simp only [isPrintableAscii, Bool.and_eq_true, decide_eq_true_eq, UInt8.le_iff_toNat_le, hnat]
  exact h c hc

/-- The character of a byte has the value of the byte. -/
theorem toNat_ofNat_byte (byte : UInt8) : (Char.ofNat byte.toNat).toNat = byte.toNat := by
  have hall : ∀ n < 256, (Char.ofNat n).toNat = n := by decide +kernel
  exact hall byte.toNat byte.toNat_lt_size

/-- The text of printable bytes is printable. -/
theorem isPrintable_asciiText {bytes : List UInt8} (h : bytes.all isPrintableAscii = true) :
    IsPrintable (asciiText bytes) := by
  intro c hc
  rw [asciiText, String.toList_ofList] at hc
  obtain ⟨byte, hbyte, rfl⟩ := List.mem_map.1 hc
  rw [toNat_ofNat_byte]
  simpa [isPrintableAscii, UInt8.le_iff_toNat_le] using List.all_eq_true.1 h byte hbyte

/-- Bytes are those of their text. -/
theorem textBytes_asciiText (bytes : List UInt8) : textBytes (asciiText bytes) = bytes := by
  rw [textBytes, asciiText, String.toList_ofList, List.map_map]
  refine (List.map_congr_left fun byte _ => ?_).trans (List.map_id _)
  rw [Function.comp_apply, toNat_ofNat_byte, UInt8.ofNat_toNat, id]

/-- A printable byte does not end a text. -/
theorem ne_zero_of_isPrintableAscii {c : UInt8} (h : isPrintableAscii c = true) : c ≠ 0 := by
  rintro rfl
  exact absurd h (by decide)

/-! ### Scans for a zero byte -/

/-- A scan finds the bytes before the first zero byte, which must come within its window. -/
theorem untilZero?_eq_some_iff {b : Bytes} {offset window : Nat} {bytes : List UInt8} :
    untilZero? b offset window = some bytes ↔
      b.Stores offset (bytes ++ [0]) ∧ (∀ c ∈ bytes, c ≠ 0) ∧ bytes.length < window := by
  induction window generalizing offset bytes with
  | zero => simp [untilZero?]
  | succ window ih =>
    rw [untilZero?]
    cases hfirst : b[offset]? with
    | none =>
      constructor
      · intro h
        cases h
      · rintro ⟨hstores, -⟩
        have hhead := hstores 0 (by simp)
        rw [Nat.add_zero, hfirst] at hhead
        cases bytes <;> cases hhead
    | some c =>
      dsimp only
      by_cases hc : c = 0
      · rw [if_pos hc]
        subst hc
        cases bytes with
        | nil => simp [Bytes.stores_cons, Bytes.stores_nil, hfirst]
        | cons d rest =>
          rw [List.cons_append, Bytes.stores_cons, hfirst]
          simp only [Option.some.injEq, List.mem_cons, forall_eq_or_imp]
          constructor
          · intro h
            cases h
          · rintro ⟨⟨rfl, -⟩, ⟨hne, -⟩, -⟩
            exact absurd rfl hne
      · rw [if_neg hc]
        cases bytes with
        | nil =>
          simp [Bytes.stores_cons, hfirst, hc]
        | cons d rest =>
          have hrest := @ih (offset + 1) rest
          rw [List.cons_append, Bytes.stores_cons, hfirst]
          simp only [Option.map_eq_some_iff, List.cons.injEq, Option.some.injEq, List.mem_cons,
            forall_eq_or_imp, List.length_cons, Nat.add_lt_add_iff_right]
          constructor
          · rintro ⟨rest, h, rfl, rfl⟩
            obtain ⟨hstores, hne, hlt⟩ := hrest.1 h
            exact ⟨⟨rfl, hstores⟩, ⟨hc, hne⟩, hlt⟩
          · rintro ⟨⟨rfl, hstores⟩, ⟨-, hne⟩, hlt⟩
            exact ⟨rest, hrest.2 ⟨hstores, hne, hlt⟩, rfl, rfl⟩

/-! ### Reading a text -/

/-- A text is read exactly when it is stored with its zero byte, in the raw data of the section and
within the longest length. -/
theorem readAsciiAt_eq_ok_iff {b : Bytes} {s : Section} {offset maxLength : Nat} {rva : UInt32}
    {text : String} :
    readAsciiAt b s offset rva maxLength = .ok text ↔
      IsPrintable text ∧ text ≠ "" ∧ b.Stores offset (textBytes text ++ [0]) ∧
        text.length < maxLength ∧ offset + text.length < s.rawEnd := by
  simp only [readAsciiAt]
  constructor
  · intro h
    split at h
    · cases h
    · split at h
      · cases h
      · next bytes hscan =>
        obtain ⟨hstores, -, hlt⟩ := untilZero?_eq_some_iff.1 hscan
        split at h
        · cases h
        · next hempty =>
          split at h
          · next hall =>
            cases h
            have hlength : (asciiText bytes).length = bytes.length := by
              rw [← length_textBytes, textBytes_asciiText]
            refine ⟨isPrintable_asciiText hall, ?_, ?_, by omega, by omega⟩
            · intro heq
              rw [← textBytes_asciiText bytes, heq] at hempty
              exact hempty rfl
            · rwa [textBytes_asciiText]
          · cases h
  · rintro ⟨hprintable, hne, hstores, hmax, hend⟩
    have hall := isPrintableAscii_of_mem_textBytes hprintable
    have hsize := hstores.le_size (by simp)
    rw [List.length_append, length_textBytes, List.length_singleton] at hsize
    rw [if_neg (by omega), untilZero?_eq_some_iff.2 ⟨hstores, ?_, ?_⟩]
    · have hempty : ¬ (textBytes text).isEmpty = true := by
        rw [List.isEmpty_iff, ← List.length_eq_zero_iff, length_textBytes,
          String.length_eq_zero_iff]
        exact hne
      dsimp only
      rw [if_neg hempty, if_pos hall, asciiText_textBytes hprintable]
    · exact fun c hc => ne_zero_of_isPrintableAscii (List.all_eq_true.1 hall c hc)
    · rw [length_textBytes]
      omega

/-- A text at an address is read where the address leads to. -/
theorem readAscii_eq_ok_iff {b : Bytes} {image : Image} {rva : UInt32} {maxLength : Nat}
    {text : String} :
    readAscii b image rva maxLength = .ok text ↔
      rva ≠ 0 ∧ ∃ place, image.locate rva 1 = .ok place ∧
        readAsciiAt b place.host place.offset rva maxLength = .ok text := by
  rw [readAscii]
  constructor
  · intro h
    split at h
    · cases h
    · next hrva =>
      split at h
      · cases h
      · next place hplace => exact ⟨hrva, place, hplace, h⟩
  · rintro ⟨hrva, place, hplace, h⟩
    rw [if_neg hrva, hplace]
    exact h

end DllGraph
