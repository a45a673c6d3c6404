import DllGraph.Proofs.Image.Truncation

/-!
# Cutting Files

The headers of a file are all that the header decoder looks at. Cutting off what follows the section
table, or writing something else there, therefore changes the image in one way only: the raw data of
each section is cut at the new end of the file. Cutting off more than that leaves no image.

The raw data is cut at the end of the file by the same rule whether or not it has been cut before
(`Section.cutAt_cutAt`), so that only the shortest of several cuts counts.

## Main results

* `Image.cutAt_cutAt` — cutting twice is cutting at the shorter length;
* `Image.parse_of_agreeBelow` — what follows the section table is not looked at;
* `Image.parse_cut` — which beginnings of a file are accepted, and what their images are.
-/

namespace DllGraph

namespace Section

/-- Cutting twice is cutting at the shorter length, also where the first cut has moved the start of
the raw data. -/
theorem cutAt_cutAt (n m : Nat) (s : Section) : (s.cutAt n).cutAt m = s.cutAt (min n m) := by
  rw [cutAt, toNat_rawPointer_cutAt, toNat_rawSize_cutAt]
  simp only [cutAt, Section.mk.injEq, true_and, and_true]
  exact ⟨congrArg _ (by omega), congrArg _ (by omega)⟩

end Section

/-- A cut file begins the whole one. -/
theorem Bytes.begins_extract {b : Bytes} {n : Nat} (h : n ≤ b.size) :
    Bytes.Begins (b.extract 0 n) b := by
  refine ⟨b.extract n b.size, ?_⟩
  rw [ByteArray.extract_append_extract, Nat.min_eq_left (Nat.zero_le n), Nat.max_eq_right h,
    ByteArray.extract_zero_size]

/-- A file that is cut at an offset ends there. -/
theorem Bytes.size_extract_of_le {b : Bytes} {n : Nat} (h : n ≤ b.size) :
    (b.extract 0 n).size = n := by
  rw [ByteArray.size_extract, Nat.min_eq_left h, Nat.sub_zero]

namespace Image

open Layout

variable {b b' : Bytes} {image : Image} {n m : Nat}

/-- Cutting an image twice is cutting it at the lower one of the offsets. -/
theorem cutAt_cutAt (n m : Nat) (image : Image) :
    (image.cutAt n).cutAt m = image.cutAt (min n m) := by
  have hsections : (image.sections.map (Section.cutAt n)).map (Section.cutAt m) =
      image.sections.map (Section.cutAt (min n m)) := by
    rw [List.map_map]
    exact List.map_congr_left fun s _ => s.cutAt_cutAt n m
  simp only [cutAt, hsections]

/-- The raw data of the sections is in the file already. -/
theorem cutAt_size_of_parse (h : parse b = .ok image) : image.cutAt b.size = image := by
  obtain ⟨headers, -, rfl⟩ := parse_eq_ok_iff.1 h
  exact headers.cutAt_toImage (Nat.le_refl _)

/-- What follows the section table is not looked at. -/
theorem parse_of_agreeBelow (h : parse b = .ok image) (hb : b.AgreeBelow b' (tableEnd b))
    (hsize : b'.size ≤ b.size) : parse b' = .ok (image.cutAt b'.size) := by
  obtain ⟨headers, hin, rfl⟩ := parse_eq_ok_iff.1 h
  exact parse_eq_ok_iff.2 ⟨headers, hin.of_agreeBelow hb, (headers.cutAt_toImage hsize).symm⟩

/-- A beginning of a file with all of the section table has the image of the file, cut. -/
theorem parse_extract (h : parse b = .ok image) (hn : n ≤ b.size) (hend : tableEnd b ≤ n) :
    parse (b.extract 0 n) = .ok (image.cutAt n) := by
  have hsize : (b.extract 0 n).size = n := Bytes.size_extract_of_le hn
  have hagree : b.AgreeBelow (b.extract 0 n) (tableEnd b) := fun i hi =>
    (Bytes.begins_extract hn).getElem? (by omega)
  rw [parse_of_agreeBelow h hagree (by omega), hsize]

/-- A beginning of a file that is accepted has all of the section table of the file. -/
theorem tableEnd_le_of_begins {front : Bytes} {cut : Image} (hb : front.Begins b)
    (h : parse front = .ok cut) : tableEnd b ≤ front.size := by
  obtain ⟨headers, hin, -⟩ := parse_eq_ok_iff.1 h
  rw [← (hin.of_begins hb).tableEnd_eq, hin.tableEnd_eq]
  exact hin.tableEnd_le

/-- Cutting a file changes its image in the raw data of the sections only, down to the end of the
section table. Cutting it further leaves no image, and changing what follows the section table
changes nothing. -/
theorem parse_cut (h : parse b = .ok image) :
    (∀ n ≤ b.size, ((∃ cut, parse (b.extract 0 n) = .ok cut) ↔ tableEnd b ≤ n) ∧
      ∀ cut, parse (b.extract 0 n) = .ok cut → cut = image.cutAt n) ∧
    (∀ n m, parse ((b.extract 0 n).extract 0 m) = parse (b.extract 0 (min n m)) ∧
      (image.cutAt n).cutAt m = image.cutAt (min n m)) ∧
    ∀ b' : Bytes, b'.size = b.size → b.AgreeBelow b' (tableEnd b) → parse b' = .ok image := by
  refine ⟨fun n hn => ?_, fun n m => ⟨?_, cutAt_cutAt n m image⟩, fun b' hsize hb => ?_⟩
  · have haccepts : (∃ cut, parse (b.extract 0 n) = .ok cut) → tableEnd b ≤ n := by
      rintro ⟨cut, hcut⟩
      have hle := tableEnd_le_of_begins (Bytes.begins_extract hn) hcut
      rwa [Bytes.size_extract_of_le hn] at hle
    refine ⟨⟨haccepts, fun hend => ⟨_, parse_extract h hn hend⟩⟩, fun cut hcut => ?_⟩
    exact Except.ok.inj (hcut.symm.trans (parse_extract h hn (haccepts ⟨cut, hcut⟩)))
  · rw [ByteArray.extract_extract, Nat.zero_add, Nat.zero_add, Nat.min_comm]
  · rw [parse_of_agreeBelow h hb (Nat.le_of_eq hsize), hsize, cutAt_size_of_parse h]

/-- Without its last six bytes, the file has six bytes of raw data less. It has no image if not even
its section table is left. -/
theorem parse_cut_wholeFile :
    parse wholeFile = .ok (imageLeft 114) ∧ tableEnd wholeFile = 240 ∧
      parse (wholeFile.extract 0 348) = .ok (imageLeft 108) ∧
      ¬ ∃ cut, parse (wholeFile.extract 0 239) = .ok cut := by
  have hwhole : parse wholeFile = .ok (imageLeft 114) := Fault.eq_ok_of_toOption (by decide +kernel)
  have hend : tableEnd wholeFile = 240 := by decide +kernel
  have hsize : wholeFile.size = 354 := by decide +kernel
  have hcut : (imageLeft 114).cutAt 348 = imageLeft 108 := by decide +kernel
  obtain ⟨hbeginnings, -, -⟩ := parse_cut hwhole
  obtain ⟨hlong, himage⟩ := hbeginnings 348 (by omega)
  obtain ⟨hshort, -⟩ := hbeginnings 239 (by omega)
  obtain ⟨left, hleft⟩ := hlong.2 (by omega)
  refine ⟨hwhole, hend, ?_, fun haccepted => ?_⟩
  · rw [hleft, himage left hleft, hcut]
  · have hle := hshort.1 haccepted
    omega

end Image

end DllGraph
