import DllGraph.Proofs.Image.Truncation
import Mathlib.Logic.Equiv.Fin.Rotate

/-!
# Sections in Any Order

An address is translated by the first section whose raw data covers it. If sections do not overlap,
there is at most one such section, and then neither the order of the section table nor the choice
between the two ways to translate an address matters: `Image.locateIn`, which asks a given section,
finds nothing that `Image.locate` does not find as well, although the one looks at the size of the
loaded section and the other at that of its raw data.

## Main definitions

* `Image.reorder`, an image with its section table in another order;
* `Location.beforeReorder`, the place in the image that a place in the reordered image was.

## Main results

* `Image.sectionsDisjoint_iff` — sections overlap by their addresses as they do by their ranges;
* `Image.locate_reorder` — the order of the section table does not matter;
* `Image.locate_of_sectionsDisjoint` — nor does the way in which an object is asked for.
-/

namespace DllGraph

namespace Image

variable {image : Image} {rva size : UInt32} {index : Nat} {place : Location} {s : Section}

/-! ### The section that decides -/

/-- Sections do not overlap if and only if, of any two, one has no raw data or ends before the other
one starts. A section may end above the last address, but no two can overlap there only. -/
theorem sectionsDisjoint_iff : image.SectionsDisjoint ↔
    image.sections.Pairwise fun s t => s.rawSize = 0 ∨ t.rawSize = 0 ∨
      s.address.toNat + s.rawSize.toNat ≤ t.address.toNat ∨
      t.address.toNat + t.rawSize.toNat ≤ s.address.toNat := by
  refine List.Pairwise.iff fun s t => ?_
  simp only [Section.covers, Bool.and_eq_true, decide_eq_true_eq, ← UInt32.toNat_inj,
    UInt32.toNat_zero]
  constructor
  · intro h
    -- The later one of the two starts is in both sections if any address is.
    have hs := h s.address
    have ht := h t.address
    omega
  · intro h rva
    omega

/-- An address has one host. -/
theorem Hosts.unique {i j : Nat} {t : Section} (h : image.Hosts rva i s)
    (h' : image.Hosts rva j t) : s = t ∧ i = j := by
  have hsame := (find?_covers_eq_some_iff.2 h).symm.trans (find?_covers_eq_some_iff.2 h')
  exact Prod.mk.inj (Option.some.inj hsame)

/-- An object is looked for in the host of its address only. -/
theorem locate_of_hosts (h : image.Hosts rva index s) : image.locate rva size =
    if s.rawEnd < s.offsetOf rva + size.toNat then .error (.outOfBounds rva size)
    else .ok ⟨s.offsetOf rva, index, s⟩ := by
  rw [locate, find?_covers_eq_some_iff.2 h]

/-- An address that no raw data covers is not found. -/
theorem locate_of_not_covers (h : ∀ s ∈ image.sections, s.covers rva = false) :
    image.locate rva size = .error (.notFound rva) := by
  have hnone : image.sections.zipIdx.find? (·.1.covers rva) = none :=
    List.find?_eq_none.2 fun entry hentry => by
      rw [h entry.1 (List.fst_mem_of_mem_zipIdx hentry)]
      exact Bool.false_ne_true
  rw [locate, hnone]

/-! ### The order of the section table -/

/-- The image with its sections in another order: `σ` says where the section at an index was. -/
def reorder (image : Image) (σ : Equiv.Perm (Fin image.sections.length)) : Image :=
  { image with sections := List.ofFn fun i => image.sections[σ i] }

variable {σ : Equiv.Perm (Fin image.sections.length)}

/-- A section stands where the permutation has put it. -/
theorem getElem?_reorder (i : Fin image.sections.length) :
    (image.reorder σ).sections[i.1]? = some image.sections[σ i] := by
  simp [reorder]

/-- Every section of the permuted list is one of the image. -/
theorem exists_of_getElem?_reorder (h : (image.reorder σ).sections[index]? = some s) :
    ∃ i : Fin image.sections.length, i.1 = index ∧ image.sections[σ i] = s := by
  simp only [reorder, List.getElem?_ofFn, Option.dite_none_right_eq_some, Option.some.injEq] at h
  obtain ⟨hindex, hs⟩ := h
  exact ⟨⟨index, hindex⟩, rfl, hs⟩

/-- If no two sections overlap, then a section that covers an address is its host, wherever it
stands. -/
theorem SectionsDisjoint.hosts_getElem (hd : image.SectionsDisjoint)
    {i : Fin image.sections.length} (h : image.sections[i].covers rva = true) :
    image.Hosts rva i image.sections[i] :=
  hd.hosts (List.getElem?_eq_getElem i.2) h

/-- Permuting the sections does not make them overlap. -/
theorem SectionsDisjoint.reorder (hd : image.SectionsDisjoint) :
    (image.reorder σ).SectionsDisjoint := by
  refine List.pairwise_iff_getElem.2 fun i j hi hj hij rva ⟨hcovers, hcovers'⟩ => ?_
  obtain ⟨i, rfl, hs⟩ := exists_of_getElem?_reorder (List.getElem?_eq_getElem hi)
  obtain ⟨j, rfl, ht⟩ := exists_of_getElem?_reorder (List.getElem?_eq_getElem hj)
  rw [← hs] at hcovers
  rw [← ht] at hcovers'
  obtain ⟨-, hsame⟩ := (hd.hosts_getElem hcovers).unique (hd.hosts_getElem hcovers')
  exact absurd (congrArg Fin.val (σ.injective (Fin.ext hsame))) (Nat.ne_of_lt hij)

end Image

/-- The place in an image that has become a place in the reordered image. -/
def Location.beforeReorder {n : Nat} (σ : Equiv.Perm (Fin n)) (place : Location) : Location :=
  if h : place.index < n then { place with index := σ ⟨place.index, h⟩ } else place

namespace Image

variable {image : Image} {rva size k : UInt32} {index : Nat} {place : Location}
  {σ : Equiv.Perm (Fin image.sections.length)}

/-- Without overlaps the order of the section table does not matter. -/
theorem locate_reorder (hd : image.SectionsDisjoint) :
    ((image.reorder σ).locate rva size).map (Location.beforeReorder σ) =
      image.locate rva size := by
  by_cases h : ∃ i, image.sections[σ i].covers rva = true
  · obtain ⟨i, hcovers⟩ := h
    rw [locate_of_hosts (hd.reorder.hosts (getElem?_reorder i) hcovers),
      locate_of_hosts (hd.hosts_getElem hcovers)]
    split
    · rfl
    · simp [Except.map, Location.beforeReorder]
  · simp only [not_exists, Bool.not_eq_true] at h
    rw [locate_of_not_covers fun s hs => ?_, locate_of_not_covers fun s hs => ?_]
    · rfl
    · obtain ⟨j, hj, rfl⟩ := List.getElem_of_mem hs
      simpa using h (σ.symm ⟨j, hj⟩)
    · obtain ⟨j, hj⟩ := List.mem_iff_getElem?.1 hs
      obtain ⟨i, -, rfl⟩ := exists_of_getElem?_reorder hj
      exact h i

/-- Without overlaps the rest of an object is found where it lies in the object. -/
theorem locate_add (hd : image.SectionsDisjoint) (h : image.locate rva size = .ok place)
    (hk : k < size) (hrva : rva.toNat + k.toNat < UInt32.size) :
    image.locate (rva + k) (size - k) = .ok { place with offset := place.offset + k.toNat } := by
  obtain ⟨hhosts, hoffset, hend⟩ := locate_eq_ok_iff.1 h
  have hadd : (rva + k).toNat = rva.toNat + k.toNat := by
    rw [UInt32.toNat_add, Nat.mod_eq_of_lt hrva]
  have hsub : (size - k).toNat = size.toNat - k.toNat :=
    UInt32.toNat_sub_of_le _ _ (UInt32.le_of_lt hk)
  have hlt : k.toNat < size.toNat := UInt32.lt_iff_toNat_lt.1 hk
  have hcovers := hhosts.covers
  simp only [Section.covers, Section.offsetOf, Section.rawEnd, Bool.and_eq_true,
    decide_eq_true_eq] at hcovers hoffset hend
  refine locate_eq_ok_iff.2 ⟨hd.hosts hhosts.getElem? ?_, ?_, ?_⟩
  · simp only [Section.covers, Bool.and_eq_true, decide_eq_true_eq]
    omega
  · simp only [Section.offsetOf]
    omega
  · simp only [Section.rawEnd]
    omega

/-- Without overlaps an address that is found in a given section is found in it anyway. -/
theorem locate_of_locateIn (hd : image.SectionsDisjoint)
    (h : image.locateIn index rva = .ok place) : image.locate rva 1 = .ok place := by
  obtain ⟨hhost, rfl, hspans, hoffset, hend⟩ := locateIn_eq_ok_iff.1 h
  refine locate_eq_ok_iff.2 ⟨hd.hosts hhost ?_, hoffset, hend⟩
  simp only [Section.covers, Section.spans, Section.offsetOf, Section.rawEnd, Bool.and_eq_true,
    decide_eq_true_eq] at hspans hoffset hend ⊢
  omega

/-- In an image whose sections do not overlap, an object is found at the same offset in the same
section, or not found for the same reason, whatever the order of the section table. The rest of an
object that is found is found where it lies in the object, as far as there are addresses. What is
found in a given section is found there without the section being given. -/
theorem locate_of_sectionsDisjoint (hd : image.SectionsDisjoint) :
    (∀ (σ : Equiv.Perm (Fin image.sections.length)) rva size,
      ((image.reorder σ).locate rva size).map (Location.beforeReorder σ) =
        image.locate rva size) ∧
    (∀ rva size place, image.locate rva size = .ok place →
      ∀ k < size, rva.toNat + k.toNat < UInt32.size →
        image.locate (rva + k) (size - k) =
          .ok { place with offset := place.offset + k.toNat }) ∧
    ∀ index rva place, image.locateIn index rva = .ok place → image.locate rva 1 = .ok place :=
  ⟨fun _ _ _ => locate_reorder hd, fun _ _ _ h _ hk hrva => locate_add hd h hk hrva,
    fun _ _ _ h => locate_of_locateIn hd h⟩

/-- An image with two sections that touch each other, and one without raw data among them. -/
def adjacentImage : Image :=
  { imageOf false [] 0 0 with
    sections := [⟨".text", 4096, 16, 512, 16, 0⟩, ⟨".bss", 4100, 16, 0, 0, 0⟩,
      ⟨".data", 4112, 4, 528, 32, 0⟩] }

/-- The order in which the first section becomes the last one. -/
def rotation : Equiv.Perm (Fin adjacentImage.sections.length) :=
  finRotate 3

/-- The sections of the sample image do not overlap. -/
theorem sectionsDisjoint_adjacentImage : adjacentImage.SectionsDisjoint :=
  sectionsDisjoint_iff.2 (by decide +kernel)

/-- The end of the first section stays where it is when that section comes last. -/
theorem locate_of_sectionsDisjoint_adjacent :
    adjacentImage.SectionsDisjoint ∧
      adjacentImage.locate 4108 4 = .ok ⟨524, 0, ⟨".text", 4096, 16, 512, 16, 0⟩⟩ ∧
      ((adjacentImage.reorder rotation).locate 4108 4).toOption.map (·.index) = some 2 ∧
      ((adjacentImage.reorder rotation).locate 4108 4).map (Location.beforeReorder rotation) =
        .ok ⟨524, 0, ⟨".text", 4096, 16, 512, 16, 0⟩⟩ ∧
      adjacentImage.locate 4111 1 = .ok ⟨527, 0, ⟨".text", 4096, 16, 512, 16, 0⟩⟩ ∧
      adjacentImage.locate 4112 1 = .ok ⟨528, 2, ⟨".data", 4112, 4, 528, 32, 0⟩⟩ := by
  have hplace : adjacentImage.locate 4108 4 =
      .ok ⟨524, 0, ⟨".text", 4096, 16, 512, 16, 0⟩⟩ :=
    Fault.eq_ok_of_toOption (by decide +kernel)
  have hgiven : adjacentImage.locateIn 2 4112 =
      .ok ⟨528, 2, ⟨".data", 4112, 4, 528, 32, 0⟩⟩ :=
    Fault.eq_ok_of_toOption (by decide +kernel)
  obtain ⟨hreorder, hadd, hanyway⟩ := locate_of_sectionsDisjoint sectionsDisjoint_adjacentImage
  refine ⟨sectionsDisjoint_adjacentImage, hplace, by decide +kernel, ?_, ?_, ?_⟩
  · rw [hreorder, hplace]
  · exact hadd 4108 4 _ hplace 3 (by decide) (by decide)
  · exact hanyway 2 4112 _ hgiven

end Image

end DllGraph
