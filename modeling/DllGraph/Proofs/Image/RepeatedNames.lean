import DllGraph.Proofs.Exports
import DllGraph.Proofs.Image.Fault
import DllGraph.Proofs.Image.Text

/-!
# Repeated Names

Names that ascend need not differ, so the two ways to look up a name need not agree. The search from
front to back answers the first entry of the name, and the binary search answers the last one. Both
are entries of the name, but they may refer to different slots.

What the binary search leaves above the answer is greater than the name (`narrow_invariant`), so no
later entry has it.

## Main definitions

* `ExportTable.slotsOf`, the slots of all entries of a name;
* `ExportTable.searchedFromFront`, the same table without its claim that the names ascend.

## Main results

* `ExportTable.findByName?_of_sorted` and `ExportTable.findByName?_of_unsorted` — which of the slots
  of a name is found;
* `findByName?_of_readExports` — when the two ways agree about a table that has been read.
-/

namespace DllGraph

/-- What comes after the answer of a binary search in an ascending sequence is greater. -/
theorem gt_of_binarySearch {compareAt : Nat → Ordering} {size i j : Nat}
    (h : Ascends compareAt size) (hfound : binarySearch compareAt size = some i) (hij : i < j)
    (hj : j < size) : compareAt j = .gt := by
  have hsize : 0 < size := Nat.zero_lt_of_lt hj
  have heq : compareAt i = .eq := compareAt_of_binarySearch hfound
  have hfirst : compareAt 0 ≠ .gt := by
    intro hgt
    rw [h.gt (Nat.zero_le i) (Nat.lt_trans hij hj) hgt] at heq
    cases heq
  obtain ⟨-, hafter⟩ := narrow_invariant h hsize (Nat.le_of_eq (Nat.zero_add size)) hfirst
    fun k hk hlt => absurd hlt (by omega)
  have hnarrow : narrow compareAt 0 size = i := by
    rw [binarySearch, if_neg (Nat.ne_of_gt hsize)] at hfound
    dsimp only at hfound
    split at hfound
    · exact Option.some.inj hfound
    · cases hfound
  rw [hnarrow] at hafter
  exact hafter j hij hj

namespace ExportTable

variable {t : ExportTable} {name : String}

/-- The slots that the entries of a name refer to, in the order of the names. -/
def slotsOf (t : ExportTable) (name : String) : List Nat :=
  (t.names.toList.filter (·.name == name)).map (·.slot.toNat)

/-- The same table, to be searched from front to back. -/
def searchedFromFront (t : ExportTable) : ExportTable :=
  { t with namesSorted := false }

/-- Every name refers to a slot that the table has. -/
def SlotsExist (t : ExportTable) : Prop :=
  ∀ e ∈ t.names, e.slot.toNat < t.addresses.size

/-- The entry at the position of a name is the one whose slot is found. -/
theorem findByName?_eq_map (h : t.SlotsExist) :
    t.findByName? name = ((t.position? name).bind (t.names[·]?)).map (·.slot.toNat) := by
  rw [findByName?]
  cases hposition : t.position? name with
  | none => rfl
  | some i =>
    obtain ⟨e, he, -⟩ := name_of_position? hposition
    simp [he, h e (Array.mem_of_getElem? he)]

/-- The search from front to back finds the slot of the first entry of a name. -/
theorem findByName?_of_unsorted (h : t.SlotsExist) (hsorted : t.namesSorted = false) :
    t.findByName? name = (t.slotsOf name).head? := by
  have hposition : t.position? name = t.names.toList.findIdx? (·.name == name) := by
    rw [position?, hsorted, ← List.findIdx?_toArray, Array.toArray_toList]
    exact if_neg Bool.false_ne_true
  have hfirst : (t.position? name).bind (t.names[·]?) = t.names.toList.find? (·.name == name) := by
    rw [hposition, List.find?_eq_bind_findIdx?_getElem?]
    simp only [Array.getElem?_toList]
  rw [findByName?_eq_map h, hfirst, slotsOf, List.head?_map, List.head?_filter]

/-- The last element that satisfies a predicate is one after which none does. -/
theorem getLast?_filter_of_drop {α : Type} {p : α → Bool} {l : List α} {i : Nat} {a : α}
    (hi : l[i]? = some a) (ha : p a = true) (hafter : ∀ b ∈ l.drop (i + 1), ¬p b = true) :
    (l.filter p).getLast? = some a := by
  obtain ⟨hlt, rfl⟩ := List.getElem?_eq_some_iff.1 hi
  have hsplit : l = l.take i ++ l[i] :: l.drop (i + 1) := by
    rw [← List.drop_eq_getElem_cons hlt, List.take_append_drop]
  have hfilter : l.filter p = (l.take i).filter p ++ [l[i]] := by
    conv_lhs => rw [hsplit]
    rw [List.filter_append, List.filter_cons_of_pos ha, List.filter_eq_nil_iff.2 hafter]
  rw [hfilter, List.getLast?_concat]

/-- The binary search finds the slot of the last entry of a name. -/
theorem findByName?_of_sorted (h : t.SlotsExist) (hordered : t.IsOrdered)
    (hsorted : t.namesSorted = true) : t.findByName? name = (t.slotsOf name).getLast? := by
  have hlast : (t.position? name).bind (t.names[·]?) =
      (t.names.toList.filter (·.name == name)).getLast? := by
    cases hposition : t.position? name with
    | none =>
      have hnone : t.names.toList.filter (·.name == name) = [] := by
        refine List.filter_eq_nil_iff.2 fun e he hname => ?_
        have hfound := isSome_position? hordered (Array.mem_toList_iff.1 he)
        rw [beq_iff_eq.1 hname, hposition] at hfound
        cases hfound
      rw [hnone]
      rfl
    | some i =>
      obtain ⟨e, he, hname⟩ := name_of_position? hposition
      rw [position?, if_pos hsorted] at hposition
      rw [Option.bind_some, he]
      rw [← Array.getElem?_toList] at he
      refine Eq.symm (getLast?_filter_of_drop he (beq_iff_eq.2 hname) ?_)
      intro e' he' hname'
      obtain ⟨k, hk⟩ := List.mem_iff_getElem?.1 he'
      rw [List.getElem?_drop, Array.getElem?_toList] at hk
      have hgt := gt_of_binarySearch (ascends_compareNameAt (hordered hsorted)) hposition
        (by omega : i < i + 1 + k) (Array.getElem?_eq_some_iff.1 hk).1
      rw [compareNameAt_eq_iff.2 ⟨e', hk, beq_iff_eq.1 hname'⟩] at hgt
      cases hgt
  rw [findByName?_eq_map h, hlast, slotsOf, List.getLast?_map]

end ExportTable

/-- A name that is read refers to one of the slots. -/
theorem slot_lt_of_readName {b : Bytes} {image : Image} {slots : Nat} {rva : UInt32} {slot : UInt16}
    {e : ExportName} (h : (readName b image slots rva slot).value = some e) :
    e.slot.toNat < slots := by
  rw [readName] at h
  split at h
  · cases h
  · next hslot =>
    split at h
    · cases h
      exact Nat.lt_of_not_le hslot
    · cases h

/-- All names that are read refer to slots of the table. -/
theorem slot_lt_of_readNames {r : ExportRecord} {b : Bytes} {image : Image} {slots : Nat}
    {e : ExportName} (he : e ∈ (r.readNames b image slots).value) : e.slot.toNat < slots := by
  rw [ExportRecord.readNames] at he
  split at he
  · cases he
  · split at he
    · cases he
    · obtain ⟨result, hresult, hvalue⟩ := List.mem_filterMap.1 he
      obtain ⟨entry, -, rfl⟩ := List.mem_map.1 hresult
      exact slot_lt_of_readName hvalue

/-- The names of a table that is read from an image refer to slots that it has. -/
theorem slotsExist_of_readExports {b : Bytes} {image : Image} {t : ExportTable}
    (h : (readExports b image).value = some t) : t.SlotsExist := by
  obtain ⟨d, r, words, hd, hr, hwords⟩ := exists_of_readExports h
  rw [readExports_eq hd hr hwords] at h
  obtain rfl := Option.some.inj h
  intro e he
  simpa using slot_lt_of_readNames (List.mem_toArray.1 he)

/-- A name of a table that has been read leads to the slot of its last entry if the names ascend,
and of its first entry otherwise. So it makes a difference whether the table is known to ascend if
and only if these two entries refer to different slots. -/
theorem findByName?_of_readExports {b : Bytes} {image : Image} {t : ExportTable}
    (h : (readExports b image).value = some t) (name : String) :
    t.findByName? name =
        (if t.namesSorted then (t.slotsOf name).getLast? else (t.slotsOf name).head?) ∧
      (t.searchedFromFront.findByName? name = t.findByName? name ↔
        (t.namesSorted = true → (t.slotsOf name).head? = (t.slotsOf name).getLast?)) := by
  have hslots : t.SlotsExist := slotsExist_of_readExports h
  have hfront : t.searchedFromFront.findByName? name = (t.slotsOf name).head? :=
    ExportTable.findByName?_of_unsorted (t := t.searchedFromFront) hslots rfl
  rw [hfront]
  cases hsorted : t.namesSorted with
  | false => simp [ExportTable.findByName?_of_unsorted hslots hsorted]
  | true =>
    simp [ExportTable.findByName?_of_sorted hslots (isOrdered_of_readExports h) hsorted]

/-- A file that exports two symbols under the name `a`. -/
def repeatedFile : Bytes :=
  fileOf false [⟨4096, 40⟩] 64
    ((⟨0, 0, 0, 0, 0, 1, 2, 2, 4136, 4144, 4152⟩ : ExportRecord).bytes ++
      wordBytes [4136, 4140] ++ wordBytes [4156, 4158] ++ Bytes.ofWord 2 0 ++ Bytes.ofWord 2 1 ++
      textBytes "a" ++ [0] ++ textBytes "a" ++ [0])

/-- The image of that file. -/
def repeatedImage : Image :=
  imageOf false [⟨4096, 40⟩] 64 64

/-- The exports of that file, whose names ascend. -/
def repeatedTable : ExportTable where
  dllName := none
  ordinalBase := 1
  addresses := #[.code 4136, .code 4140]
  names := #[⟨"a", 0⟩, ⟨"a", 1⟩]
  namesSorted := true

/-- The second symbol of the name is found, and the first one if the table is searched from front to
back. -/
theorem findByName?_repeatedTable :
    (readExports repeatedFile repeatedImage).value = some repeatedTable ∧
      repeatedTable.findByName? "a" = some 1 ∧
      repeatedTable.searchedFromFront.findByName? "a" ≠ repeatedTable.findByName? "a" := by
  have h : (readExports repeatedFile repeatedImage).value = some repeatedTable := by decide +kernel
  obtain ⟨hfound, hsame⟩ := findByName?_of_readExports h "a"
  refine ⟨h, hfound, fun heq => ?_⟩
  have hends := hsame.1 heq rfl
  revert hends
  decide

/-- So it is not true of every accepted file that the slot of the first entry is found. -/
theorem exists_findByName?_ne_head? :
    ¬∀ (b : Bytes) (image : Image) (t : ExportTable), Image.parse b = .ok image →
      (readExports b image).value = some t →
      ∀ name, t.findByName? name = (t.slotsOf name).head? ∧
        t.searchedFromFront.findByName? name = t.findByName? name := by
  intro hall
  have hparse : Image.parse repeatedFile = .ok repeatedImage :=
    Fault.eq_ok_of_toOption (by decide +kernel)
  have h : (readExports repeatedFile repeatedImage).value = some repeatedTable := by decide +kernel
  have hfound := (hall _ _ _ hparse h "a").1
  revert hfound
  decide +kernel

end DllGraph
