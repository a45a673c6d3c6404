import DllGraph.Text.Utf8

/-!
# Raw Texts

The system takes almost any bytes for the name of a file. As a rule they are the UTF-8 form of a
text, and a text can be given wherever a raw one is expected; but a raw text need not be a text, and
what asks for a text has to say what becomes of the others.

## Main definitions

* `RawText`, bytes that are usually a text;
* `RawText.ofString`, the raw form of a text, and `RawText.text?`, the text of a raw form;
* `RawText.shown`, the text that is shown for any bytes.
-/

namespace DllGraph

/-- Bytes that are usually the UTF-8 form of a text. -/
@[ext] structure RawText where
  bytes : List UInt8
deriving DecidableEq, Inhabited

namespace RawText

/-- The UTF-8 form of a text. -/
@[coe] def ofString (text : String) : RawText :=
  ⟨text.toByteArray.data.toList⟩

instance : Coe String RawText := ⟨ofString⟩

/-- One raw text after the other. -/
def append (r s : RawText) : RawText :=
  ⟨r.bytes ++ s.bytes⟩

instance : Append RawText := ⟨append⟩

/-- The text that the bytes are the UTF-8 form of, if there is one. -/
def text? (r : RawText) : Option String :=
  String.fromUTF8? ⟨⟨r.bytes⟩⟩

/-- The text, or what comes nearest to one, with a mark in the place of what is not UTF-8. -/
def shown (r : RawText) : String :=
  r.text?.getD (Text.Utf8.decodeLossy r.bytes)

variable {r s : RawText} {text : String}

@[simp] theorem bytes_append : (r ++ s).bytes = r.bytes ++ s.bytes := rfl

/-- One text after the other has one raw form after the other. -/
theorem ofString_append (text text' : String) :
    ofString (text ++ text') = ofString text ++ ofString text' := by
  ext1
  simp [ofString, String.toByteArray_append, ByteArray.data_append]

/-- The bytes are the UTF-8 form of at most one text. -/
theorem text?_eq_some_iff : r.text? = some text ↔ r = ofString text := by
  obtain ⟨bytes⟩ := r
  obtain ⟨array, hvalid⟩ := text
  simp only [text?, ofString, mk.injEq, String.fromUTF8?]
  constructor
  · split
    · intro h
      cases Option.some.inj h
      rfl
    · intro h
      cases h
  · rintro rfl
    rw [dif_pos hvalid]
    rfl

/-- The raw form of a text is that of this text. -/
@[simp] theorem text?_ofString : (ofString text).text? = some text :=
  text?_eq_some_iff.2 rfl

/-- Different texts have different raw forms. -/
@[simp] theorem ofString_inj {text' : String} : ofString text = ofString text' ↔ text = text' := by
  rw [← text?_eq_some_iff, text?_ofString, Option.some.injEq]

/-- A text is shown as it is. -/
@[simp] theorem shown_ofString : (ofString text).shown = text := by
  rw [shown, text?_ofString, Option.getD_some]

end RawText

end DllGraph
