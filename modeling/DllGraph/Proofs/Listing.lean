import DllGraph.Proofs.Exports

/-!
# The Listing of Exports

A listing shows each slot of an export table that holds something, under its ordinal and under the
first name that refers to it. The first names of all slots are collected in one pass over the names,
which leaves alone what a slot has already got (`ExportTable.getElem?_foldl_noteName`).

## Main definitions

* `ExportTable.IsFirstName`, the first name that refers to a slot, by its position.

## Main results

* `ExportTable.firstNames_eq_some_iff` — what is collected for a slot is its first name;
* `ExportTable.mem_listing_iff` — what is listed;
* `ExportTable.exists_isFirstName_of_mem_listing` — the hint of a listed symbol is the position of
  its name among the names of the table.
-/

namespace DllGraph.ExportTable

variable {t : ExportTable} {slot : Nat} {e : Export}

/-! ### First names -/

/-- The first name that refers to a slot stands at a position. -/
structure IsFirstName (t : ExportTable) (slot i : Nat) (entry : ExportName) : Prop where
  getElem? : t.names[i]? = some entry
  slot_eq : entry.slot.toNat = slot
  first : ∀ j < i, ∀ other, t.names[j]? = some other → other.slot.toNat ≠ slot

/-- A name is noted at its own slot only, and only if nothing has been noted there. -/
theorem getElem?_noteName (named : Array (Option (UInt16 × String))) (entry : ExportName)
    (hint : Nat) :
    (noteName named entry hint)[slot]? = if entry.slot.toNat = slot then
      named[slot]?.map fun noted => noted.or (some (UInt16.ofNat hint, entry.name))
    else named[slot]? := by
  rw [noteName, Array.getElem?_modify]
  split
  · refine congrArg (fun f => named[slot]?.map f) (funext fun noted => ?_)
    cases noted <;> rfl
  · rfl

/-- The names of a list that refers to a slot are noted if nothing has been noted there before. -/
theorem getElem?_foldl_noteName (entries : List (ExportName × Nat))
    (named : Array (Option (UInt16 × String))) :
    (entries.foldl (fun named e => noteName named e.1 e.2) named)[slot]? =
      named[slot]?.map fun noted => noted.or
        ((entries.find? (·.1.slot.toNat == slot)).map fun e => (UInt16.ofNat e.2, e.1.name)) := by
  induction entries generalizing named with
  | nil => simp
  | cons entry entries ih =>
    rw [List.foldl_cons, ih, getElem?_noteName]
    by_cases hslot : entry.1.slot.toNat = slot
    · simp [hslot, Function.comp_def]
    · simp [hslot]

/-- The first position in a list at which a predicate holds. -/
theorem find?_zipIdx_eq_some_iff {α : Type} {p : α → Bool} {l : List α} {a : α} {i : Nat} :
    l.zipIdx.find? (p ·.1) = some (a, i) ↔
      l[i]? = some a ∧ p a = true ∧ ∀ j < i, ∀ a', l[j]? = some a' → p a' = false := by
  rw [List.find?_eq_some_iff_getElem]
  constructor
  · rintro ⟨ha, k, hk, heq, hfirst⟩
    rw [List.length_zipIdx] at hk
    rw [List.getElem_zipIdx, Nat.zero_add, Prod.mk.injEq] at heq
    obtain ⟨rfl, rfl⟩ := heq
    refine ⟨List.getElem?_eq_getElem hk, ha, fun j hj a' ha' => ?_⟩
    obtain ⟨hlt, rfl⟩ := List.getElem?_eq_some_iff.1 ha'
    simpa using hfirst j hj
  · rintro ⟨hi, ha, hfirst⟩
    obtain ⟨hlt, rfl⟩ := List.getElem?_eq_some_iff.1 hi
    refine ⟨ha, i, by rwa [List.length_zipIdx], by simp, fun j hj => ?_⟩
    have hjlt : j < l.length := Nat.lt_trans hj hlt
    simpa using hfirst j hj _ (List.getElem?_eq_getElem hjlt)

/-- What is collected for a slot is the first name that refers to it. -/
theorem firstNames_eq_some_iff {hint : UInt16} {name : String} :
    t.firstNames[slot]? = some (some (hint, name)) ↔ slot < t.addresses.size ∧
      ∃ i entry, t.IsFirstName slot i entry ∧ UInt16.ofNat i = hint ∧ entry.name = name := by
  have hfind : ∀ i entry, t.names.toList.zipIdx.find? (·.1.slot.toNat == slot) = some (entry, i) ↔
      t.IsFirstName slot i entry := fun i entry => by
    rw [find?_zipIdx_eq_some_iff (p := fun entry : ExportName => entry.slot.toNat == slot)]
    simp only [Array.getElem?_toList, beq_iff_eq, beq_eq_false_iff_ne]
    exact ⟨fun h => ⟨h.1, h.2.1, h.2.2⟩, fun h => ⟨h.getElem?, h.slot_eq, h.first⟩⟩
  rw [firstNames, getElem?_foldl_noteName, Array.getElem?_replicate]
  split
  · next hslot =>
    simp only [Option.map_some, Option.none_or, Option.some.injEq, Option.map_eq_some_iff,
      Prod.exists, hfind, Prod.mk.injEq, hslot, true_and]
    exact ⟨fun ⟨entry, i, h⟩ => ⟨i, entry, h⟩, fun ⟨i, entry, h⟩ => ⟨entry, i, h⟩⟩
  · next hslot => simp [hslot]

/-! ### Listed symbols -/

/-- What is listed. -/
theorem mem_listing_iff : e ∈ t.listing ↔ ∃ slot target named, t.target? slot = some target ∧
    t.firstNames[slot]? = some named ∧ t.exportAt? slot target named = some e := by
  simp only [listing, List.mem_filterMap, Prod.exists, List.mem_zipIdx_iff_getElem?,
    List.getElem?_zip_eq_some, Array.getElem?_toList, target?]
  constructor
  · rintro ⟨target, named, slot, ⟨htarget, hnamed⟩, he⟩
    exact ⟨slot, target, named, htarget, hnamed, he⟩
  · rintro ⟨slot, target, named, htarget, hnamed, he⟩
    exact ⟨target, named, slot, ⟨htarget, hnamed⟩, he⟩

/-- A slot that holds something is listed under its ordinal, which has to fit 32 bits. -/
theorem exportAt?_eq_some_iff {target : ExportTarget} {named : Option (UInt16 × String)} :
    t.exportAt? slot target named = some e ↔ target ≠ .empty ∧
      e.ordinal.toNat = t.ordinalBase.toNat + slot ∧ e.hint = named.map (·.1) ∧
        e.name = named.map (·.2) ∧ e.target = target := by
  have hempty : target.isEmpty = true ↔ target = .empty := by
    cases target <;> simp [ExportTarget.isEmpty]
  rw [exportAt?]
  split
  · next h => simp [hempty.1 h]
  · next h =>
    split
    · next hlt =>
      have hordinal := UInt32.toNat_ofNat_of_lt' hlt
      rw [Option.some.injEq]
      constructor
      · rintro rfl
        exact ⟨mt hempty.2 h, hordinal, rfl, rfl, rfl⟩
      · rintro ⟨-, heq, hhint, hname, htarget⟩
        cases e
        rw [Export.mk.injEq]
        exact ⟨UInt32.toNat_inj.1 (hordinal.trans heq.symm), hhint.symm, hname.symm, htarget.symm⟩
    · next hlt =>
      have hfits := e.ordinal.toNat_lt_size
      exact ⟨nofun, fun h => absurd (h.2.1 ▸ hfits) hlt⟩

/-- A listed symbol that has a hint has the first name of its slot, and the hint is the position of
that name. -/
theorem exists_isFirstName_of_mem_listing (he : e ∈ t.listing) {hint : UInt16}
    (hhint : e.hint = some hint) : ∃ slot i entry, e.ordinal.toNat = t.ordinalBase.toNat + slot ∧
      t.IsFirstName slot i entry ∧ UInt16.ofNat i = hint ∧ e.name = some entry.name := by
  obtain ⟨slot, target, named, -, hnamed, he⟩ := mem_listing_iff.1 he
  obtain ⟨-, hordinal, hhint', hname, -⟩ := exportAt?_eq_some_iff.1 he
  obtain ⟨⟨first, name⟩, rfl, rfl⟩ := Option.map_eq_some_iff.1 (hhint'.symm.trans hhint)
  obtain ⟨-, i, entry, hfirst, hi, rfl⟩ := firstNames_eq_some_iff.1 hnamed
  exact ⟨slot, i, entry, hordinal, hfirst, hi, hname⟩

end DllGraph.ExportTable
