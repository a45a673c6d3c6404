import DllGraph.Image.Exports
import Mathlib.Data.String.Basic

/-!
# Finding an Export

A name is looked up among the names of an export table by binary search if they ascend, and from
front to back otherwise. A search that halves a range always answers something, but whether it is
an answer to the question depends on the order. This module proves that the name is found, in
either way, whenever it is there.

The invariant of the halving is on what has been left behind: all elements after the range are
greater than what is searched for, and the first element of the range is not
(`narrow_invariant`).

## Main results

* `binarySearch_isSome_iff` — in an ascending sequence, an equal element is found if there is one;
* `readExports_eq` and `exists_of_readExports` — what the table of an image is read from;
* `isOrdered_of_readExports` — a table that says that its names ascend is right;
* `ExportTable.exists_findByName?` and `ExportTable.name_of_findByName?` — a name that is there is
  found, and what is found has the name;
* `ExportTable.findByOrdinal?_eq_some_iff` — an ordinal is the position of its slot.
-/

namespace DllGraph

/-! ### Binary search -/

/-- A comparison with the elements of an ascending sequence of some size: what comes before a
smaller element is smaller, and what comes after a greater element is greater. -/
structure Ascends (compareAt : Nat → Ordering) (size : Nat) : Prop where
  lt : ∀ {i j}, i ≤ j → j < size → compareAt j = .lt → compareAt i = .lt
  gt : ∀ {i j}, i ≤ j → j < size → compareAt i = .gt → compareAt j = .gt

/-- The range is narrowed to the last element that is not greater. -/
theorem narrow_invariant {compareAt : Nat → Ordering} {base size total : Nat}
    (h : Ascends compareAt total) (hsize : 0 < size) (htotal : base + size ≤ total)
    (hbase : compareAt base ≠ .gt)
    (hafter : ∀ i, base + size ≤ i → i < total → compareAt i = .gt) :
    compareAt (narrow compareAt base size) ≠ .gt ∧
      ∀ i, narrow compareAt base size < i → i < total → compareAt i = .gt := by
  fun_induction narrow compareAt base size with
  | case1 base size hone =>
    refine ⟨hbase, fun i hi hlt => hafter i ?_ hlt⟩
    omega
  | case2 base size hmore middle ih =>
    by_cases hgt : compareAt middle = .gt
    · -- The upper half is greater altogether, so the lower half is left.
      rw [dif_pos hgt] at ih
      rw [if_pos hgt]
      refine ih (by omega) (by omega) hbase fun i hi hlt => h.gt ?_ hlt hgt
      omega
    · rw [dif_neg hgt] at ih
      rw [if_neg hgt]
      refine ih (by omega) (by omega) hgt fun i hi hlt => hafter i ?_ hlt
      omega

/-- In an ascending sequence, an equal element is found if and only if there is one. -/
theorem binarySearch_isSome_iff {compareAt : Nat → Ordering} {size : Nat}
    (h : Ascends compareAt size) :
    (binarySearch compareAt size).isSome ↔ ∃ i < size, compareAt i = .eq := by
  constructor
  · intro hfound
    obtain ⟨i, hi⟩ := Option.isSome_iff_exists.1 hfound
    exact ⟨i, lt_of_binarySearch hi, compareAt_of_binarySearch hi⟩
  · rintro ⟨i, hi, heq⟩
    have hsize : 0 < size := Nat.zero_lt_of_lt hi
    have hfirst : compareAt 0 ≠ .gt := by
      intro hgt
      have habove : compareAt i = .gt := h.gt (Nat.zero_le i) hi hgt
      rw [heq] at habove
      cases habove
    obtain ⟨hnot, hafter⟩ := narrow_invariant h hsize (Nat.le_of_eq (Nat.zero_add size)) hfirst
      fun j hj hlt => absurd hlt (by omega)
    have hlt : narrow compareAt 0 size < 0 + size := narrow_lt hsize
    rw [Nat.zero_add] at hlt
    -- The equal element is not above what was found, so what was found is not below it.
    have hle : i ≤ narrow compareAt 0 size := by
      by_contra hgt
      have habove : compareAt i = .gt := hafter i (Nat.lt_of_not_le hgt) hi
      rw [heq] at habove
      cases habove
    have hfound : compareAt (narrow compareAt 0 size) = .eq := by
      cases hcompare : compareAt (narrow compareAt 0 size) with
      | eq => rfl
      | gt => exact absurd hcompare hnot
      | lt =>
        have hbelow : compareAt i = .lt := h.lt hle hlt hcompare
        rw [heq] at hbelow
        cases hbelow
    simp [binarySearch, Nat.ne_of_gt hsize, hfound]

/-- Elements that ascend by some key ascend in comparison with any text. -/
theorem ascends_of_pairwise {α : Type} {as : Array α} {text : String}
    {compareAt : Nat → Ordering} (key : α → String) (h : as.toList.Pairwise (key · ≤ key ·))
    (hcompare : ∀ {i a}, as[i]? = some a → compareAt i = compare (key a) text) :
    Ascends compareAt as.size := by
  have hle : ∀ {i j : Nat} {first second : α}, i ≤ j → as[i]? = some first →
      as[j]? = some second → key first ≤ key second := by
    intro i j first second hij hi hj
    rcases Nat.lt_or_eq_of_le hij with hlt | rfl
    · rw [← Array.getElem?_toList] at hi hj
      obtain ⟨hilt, rfl⟩ := List.getElem?_eq_some_iff.1 hi
      obtain ⟨hjlt, rfl⟩ := List.getElem?_eq_some_iff.1 hj
      exact List.pairwise_iff_getElem.1 h i j hilt hjlt hlt
    · rw [hi] at hj
      cases hj
      exact le_refl _
  constructor
  · intro i j hij hj hlt
    have hi := Array.getElem?_eq_getElem (Nat.lt_of_le_of_lt hij hj)
    have hj := Array.getElem?_eq_getElem hj
    rw [hcompare hj] at hlt
    rw [hcompare hi]
    exact compare_lt_iff_lt.2 (lt_of_le_of_lt (hle hij hi hj) (compare_lt_iff_lt.1 hlt))
  · intro i j hij hj hgt
    have hi := Array.getElem?_eq_getElem (Nat.lt_of_le_of_lt hij hj)
    have hj := Array.getElem?_eq_getElem hj
    rw [hcompare hi] at hgt
    rw [hcompare hj]
    exact compare_gt_iff_gt.2 (lt_of_lt_of_le (compare_gt_iff_gt.1 hgt) (hle hij hi hj))

/-! ### The names of a table -/

/-- Names that ascend from each to the next ascend as a whole. -/
theorem pairwise_of_namesAscend {names : List ExportName} (h : namesAscend names = true) :
    names.Pairwise (·.name ≤ ·.name) := by
  induction names with
  | nil => exact .nil
  | cons first rest ih =>
    cases rest with
    | nil => exact List.pairwise_singleton ..
    | cons second rest =>
      simp only [namesAscend, Bool.and_eq_true, decide_eq_true_eq] at h
      have hrest := ih h.2
      refine List.pairwise_cons.2 ⟨fun e he => ?_, hrest⟩
      rcases List.mem_cons.1 he with rfl | he
      · exact h.1
      · exact le_trans h.1 ((List.pairwise_cons.1 hrest).1 e he)

/-- Names that ascend as a whole pass the check that compares neighbours. -/
theorem namesAscend_of_pairwise {names : List ExportName}
    (h : names.Pairwise (·.name ≤ ·.name)) : namesAscend names = true := by
  induction names with
  | nil => rfl
  | cons first rest ih =>
    obtain ⟨hfirst, hrest⟩ := List.pairwise_cons.1 h
    cases rest with
    | nil => rfl
    | cons second rest =>
      rw [namesAscend, ih hrest, decide_eq_true (hfirst second List.mem_cons_self)]
      rfl

namespace ExportTable

variable {t : ExportTable} {name : String}

/-- The names of a table ascend if the table says so. -/
def IsOrdered (t : ExportTable) : Prop :=
  t.namesSorted = true → t.names.toList.Pairwise (·.name ≤ ·.name)

/-- A slot that holds something. -/
def Exports (t : ExportTable) (slot : Nat) : Prop :=
  ∃ target, t.target? slot = some target ∧ target ≠ .empty

/-- A slot that a table exports is one of its slots. -/
theorem Exports.lt_size {slot : Nat} (h : t.Exports slot) : slot < t.addresses.size := by
  obtain ⟨target, htarget, -⟩ := h
  exact (Array.getElem?_eq_some_iff.1 htarget).1

/-- Names that ascend can be searched by comparing them with the wanted one. -/
theorem ascends_compareNameAt (h : t.names.toList.Pairwise (·.name ≤ ·.name)) :
    Ascends (t.compareNameAt name) t.names.size :=
  ascends_of_pairwise ExportName.name h fun he => by rw [compareNameAt, he]

/-- A comparison finds a name at a position if and only if that name is there. -/
theorem compareNameAt_eq_iff {i : Nat} :
    t.compareNameAt name i = .eq ↔ ∃ e, t.names[i]? = some e ∧ e.name = name := by
  rw [compareNameAt]
  cases t.names[i]? with
  | none => simp
  | some e => simp

/-- The position that is found for a name is that of an entry of this name. -/
theorem name_of_position? {i : Nat} (h : t.position? name = some i) :
    ∃ e, t.names[i]? = some e ∧ e.name = name := by
  rw [position?] at h
  split at h
  · exact compareNameAt_eq_iff.1 (compareAt_of_binarySearch h)
  · obtain ⟨hlt, heq, -⟩ := Array.findIdx?_eq_some_iff_getElem.1 h
    exact ⟨t.names[i], Array.getElem?_eq_getElem hlt, beq_iff_eq.1 heq⟩

/-- A position is found for every name of the table, in whichever way it is searched. -/
theorem isSome_position? (h : t.IsOrdered) {e : ExportName} (he : e ∈ t.names) :
    (t.position? e.name).isSome := by
  rw [position?]
  split
  · next hsorted =>
    obtain ⟨i, hi⟩ := Array.mem_iff_getElem?.1 he
    rw [binarySearch_isSome_iff (ascends_compareNameAt (h hsorted))]
    exact ⟨i, (Array.getElem?_eq_some_iff.1 hi).1, compareNameAt_eq_iff.2 ⟨e, hi, rfl⟩⟩
  · rw [Array.findIdx?_isSome, Array.any_eq_true']
    exact ⟨e, he, beq_self_eq_true _⟩

/-- What is found for a name is the slot of an entry of this name. -/
theorem name_of_findByName? {slot : Nat} (h : t.findByName? name = some slot) :
    ∃ e ∈ t.names, e.name = name ∧ e.slot.toNat = slot := by
  simp only [findByName?, Option.bind_eq_bind, Option.bind_eq_some_iff] at h
  obtain ⟨i, hi, e, he, hslot⟩ := h
  obtain ⟨e', he', hname⟩ := name_of_position? hi
  obtain rfl : e' = e := Option.some.inj (he'.symm.trans he)
  split at hslot
  · cases hslot
    exact ⟨e', Array.mem_of_getElem? he, hname, rfl⟩
  · cases hslot

/-- A slot is found for a name of the table, unless some entry of the name leads nowhere. -/
theorem exists_findByName? (h : t.IsOrdered) {e : ExportName} (he : e ∈ t.names)
    (hslots : ∀ e' ∈ t.names, e'.name = e.name → e'.slot.toNat < t.addresses.size) :
    ∃ slot, t.findByName? e.name = some slot := by
  obtain ⟨i, hi⟩ := Option.isSome_iff_exists.1 (isSome_position? h he)
  obtain ⟨e', he', hname⟩ := name_of_position? hi
  refine ⟨e'.slot.toNat, ?_⟩
  simp [findByName?, hi, he', hslots e' (Array.mem_of_getElem? he') hname]

/-- The slot of an ordinal is at the distance of the ordinal from the first one, and holds
something. -/
theorem findByOrdinal?_eq_some_iff {ordinal : UInt16} {slot : Nat} :
    t.findByOrdinal? ordinal = some slot ↔
      t.ordinalBase.toNat ≤ ordinal.toNat ∧ slot = ordinal.toNat - t.ordinalBase.toNat ∧
        t.Exports slot := by
  rw [findByOrdinal?]
  constructor
  · intro h
    split at h
    · next hbase =>
      dsimp only at h
      split at h
      · cases h
      · next target htarget =>
        split at h
        · cases h
        · next hempty =>
          cases h
          exact ⟨hbase, rfl, target, htarget, fun heq => hempty (by rw [heq]; rfl)⟩
    · cases h
  · rintro ⟨hbase, rfl, target, htarget, hempty⟩
    rw [target?] at htarget
    rw [if_pos hbase]
    dsimp only
    rw [htarget]
    cases target with
    | empty => exact absurd rfl hempty
    | code | forwarder => rfl

end ExportTable

/-! ### The table of an image -/

variable {b : Bytes} {image : Image}

/-- What is read of an export directory, once the addresses of its slots are known. -/
theorem readExports_eq {d : DataDirectory} {r : ExportRecord} {words : List UInt32}
    (hd : image.directory? 0 = some d) (hr : readExportRecord b image d = .ok r)
    (hwords : readWords b image r.addressTable r.addressCount = .ok words) :
    readExports b image =
      ⟨some {
          dllName := (r.dllName b image).value
          ordinalBase := r.ordinalBase
          addresses := ((words.map (readTarget b image d)).map (·.value)).toArray
          names := (r.readNames b image words.length).value.toArray
          namesSorted := namesAscend (r.readNames b image words.length).value },
        (r.dllName b image).faults ++ (words.map (readTarget b image d)).flatMap (·.faults) ++
          (r.readNames b image words.length).faults⟩ := by
  rw [readExports, hd]
  dsimp only
  rw [hr]
  dsimp only
  rw [hwords]
  dsimp only
  rw [List.length_map]

/-- An export table has been read from a directory, and from the addresses of its slots. -/
theorem exists_of_readExports {table : ExportTable} (h : (readExports b image).value = some table) :
    ∃ d r words, image.directory? 0 = some d ∧ readExportRecord b image d = .ok r ∧
      readWords b image r.addressTable r.addressCount = .ok words := by
  rw [readExports] at h
  split at h
  · cases h
  · next d hd =>
    split at h
    · cases h
    · next r hr =>
      dsimp only at h
      split at h
      · cases h
      · next words hwords => exact ⟨d, r, words, hd, hr, hwords⟩

/-- The table that is read from an image knows whether its names ascend. -/
theorem isOrdered_of_readExports {t : ExportTable} (h : (readExports b image).value = some t) :
    t.IsOrdered := by
  obtain ⟨d, r, words, hd, hr, hwords⟩ := exists_of_readExports h
  rw [readExports_eq hd hr hwords] at h
  obtain rfl := Option.some.inj h
  intro hsorted
  simpa using pairwise_of_namesAscend hsorted

end DllGraph
