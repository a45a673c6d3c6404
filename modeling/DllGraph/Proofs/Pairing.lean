import DllGraph.Proofs.Exports
import DllGraph.Proofs.Scan.Termination

/-!
# Imports Meet Exports

In a finished analysis every imported symbol has been matched with what its module exports, in
whichever order the two modules were read. This module states what a match has to be
(`Pairing.Fits`), without mention of how an export is searched for, and proves it of every symbol.

An export table may be broken in many ways: slots may be empty, a name may stand in it twice, with
different slots, and names may be out of order. If a name occurs several times, any of its slots may
be the one that is matched.

## Main definitions

* `Pairing.IsUnresolved` and `Pairing.IsResolvedTo`, what a symbol may have been matched with;
* `Pairing.Fits`, the matches that the exports of a module allow.

## Main results

* `Pairing.fits_ofExports` — a symbol is matched with what a module exports;
* `Analysis.fits_of_mem_imports` — so it is for all symbols of an analysis.
-/

namespace DllGraph

/-! ### What a match has to be -/

namespace Pairing

/-- The symbol has been matched with nothing. -/
def IsUnresolved (q : Pairing) : Prop :=
  q.status = .unresolved ∧ q.slot = none

/-- The symbol has been matched with a slot of an export table. Its status is what the slot holds,
code or a forwarder. -/
def IsResolvedTo (q : Pairing) (t : ExportTable) (slot : Nat) : Prop :=
  q.slot = some slot ∧
    ((q.status = .resolved ∧ ∃ rva, t.target? slot = some (.code rva)) ∨
      (q.status = .forwarded ∧ ∃ symbol, t.target? slot = some (.forwarder symbol)))

/-- The match is one that the exports of a module allow for the symbol. -/
structure Fits (q : Pairing) (exports : Option ExportTable) : Prop where
  noExports : exports = none → q.IsUnresolved
  invalid : ∀ value, q.symbol = .invalid value → q.IsUnresolved
  /-- There is nothing between no match and a match with a slot. -/
  resolved : q.IsUnresolved ∨ ∃ t slot, exports = some t ∧ q.IsResolvedTo t slot
  /-- An ordinal is matched with its own slot, provided that this slot holds something. -/
  byOrdinal : ∀ {t ordinal slot}, exports = some t → q.symbol = .byOrdinal ordinal →
    (q.IsResolvedTo t slot ↔ t.ordinalBase.toNat ≤ ordinal.toNat ∧
      slot = ordinal.toNat - t.ordinalBase.toNat ∧ t.Exports slot)
  /-- A name is matched with a slot of this name. -/
  byName : ∀ {t hint name slot}, exports = some t → q.symbol = .byName hint name →
    q.IsResolvedTo t slot → ∃ e ∈ t.names, e.name = name ∧ e.slot.toNat = slot
  /-- A name is not matched if it does not occur, or with empty slots only. -/
  noName : ∀ {t hint name}, exports = some t → q.symbol = .byName hint name →
    (∀ e ∈ t.names, e.name = name → ¬ t.Exports e.slot.toNat) → q.IsUnresolved
  /-- A name is matched if it occurs, and with no empty slot. -/
  someName : ∀ {t hint name}, exports = some t → q.symbol = .byName hint name →
    (∃ e ∈ t.names, e.name = name) →
    (∀ e ∈ t.names, e.name = name → t.Exports e.slot.toNat) → ∃ slot, q.IsResolvedTo t slot

/-- A symbol that has not been matched is unresolved. -/
theorem isUnresolved_unmatched (symbol : ImportedSymbol) : (unmatched symbol).IsUnresolved :=
  ⟨rfl, rfl⟩

/-- What is unresolved is not resolved to any slot. -/
theorem IsUnresolved.not_isResolvedTo {q : Pairing} {t : ExportTable} {slot : Nat}
    (h : q.IsUnresolved) : ¬ q.IsResolvedTo t slot := by
  rintro ⟨hslot, -⟩
  rw [h.2] at hslot
  cases hslot

/-- What a symbol is resolved to is exported. -/
theorem IsResolvedTo.exports {q : Pairing} {t : ExportTable} {slot : Nat}
    (h : q.IsResolvedTo t slot) : t.Exports slot := by
  rcases h.2 with ⟨-, rva, htarget⟩ | ⟨-, symbol, htarget⟩
  · exact ⟨_, htarget, ExportTarget.noConfusion⟩
  · exact ⟨_, htarget, ExportTarget.noConfusion⟩

/-- A slot that a symbol has been matched with is one that the module exports. -/
theorem Fits.exports_of_slot {q : Pairing} {exports : Option ExportTable} {slot : Nat}
    (h : q.Fits exports) (hslot : q.slot = some slot) :
    ∃ t, exports = some t ∧ t.Exports slot := by
  rcases h.resolved with hnone | ⟨t, found, ht, hresolved⟩
  · rw [hnone.2] at hslot
    cases hslot
  · obtain rfl : found = slot := Option.some.inj (hresolved.1.symm.trans hslot)
    exact ⟨t, ht, hresolved.exports⟩

end Pairing

/-! ### Single symbols -/

namespace ExportTable

variable {t : ExportTable} {symbol : ImportedSymbol} {slot : Nat}

/-- A symbol is matched with the slot that it asks for, if this slot holds something. -/
theorem isResolvedTo_pair_iff :
    (t.pair symbol).IsResolvedTo t slot ↔ t.slotOf? symbol = some slot ∧ t.Exports slot := by
  rw [pair]
  cases hslot : t.slotOf? symbol with
  | none => simp [Pairing.IsResolvedTo, Pairing.unmatched]
  | some found =>
    dsimp only
    constructor
    · intro h
      have hexports := h.exports
      split at h
      · exact ⟨h.1, hexports⟩
      · exact ⟨h.1, hexports⟩
      · exact absurd h (Pairing.isUnresolved_unmatched symbol).not_isResolvedTo
    · rintro ⟨heq, target, htarget, hempty⟩
      cases heq
      rw [htarget]
      cases target with
      | empty => exact absurd rfl hempty
      | code rva => exact ⟨rfl, .inl ⟨rfl, rva, htarget⟩⟩
      | forwarder text => exact ⟨rfl, .inr ⟨rfl, text, htarget⟩⟩

/-- A symbol is not matched if it asks for no slot, or for one that holds nothing. -/
theorem isUnresolved_pair (h : ∀ slot, t.slotOf? symbol = some slot → ¬ t.Exports slot) :
    (t.pair symbol).IsUnresolved := by
  rw [pair]
  cases hslot : t.slotOf? symbol with
  | none => exact Pairing.isUnresolved_unmatched symbol
  | some slot =>
    dsimp only
    have hexports := h slot hslot
    split
    · next rva htarget => exact absurd ⟨_, htarget, ExportTarget.noConfusion⟩ hexports
    · next text htarget => exact absurd ⟨_, htarget, ExportTarget.noConfusion⟩ hexports
    · exact Pairing.isUnresolved_unmatched symbol

/-- Pairing keeps the symbol. -/
@[simp] theorem symbol_pair : (t.pair symbol).symbol = symbol := by
  rw [pair]
  repeat' split
  all_goals rfl

end ExportTable

/-- Pairing keeps the symbol, whether there is an export table or not. -/
@[simp] theorem Pairing.symbol_ofExports {exports : Option ExportTable} {symbol : ImportedSymbol} :
    (ofExports exports symbol).symbol = symbol := by
  cases exports with
  | none => rfl
  | some t => exact ExportTable.symbol_pair

/-- A symbol is matched with what a module exports. -/
theorem Pairing.fits_ofExports {exports : Option ExportTable} {symbol : ImportedSymbol}
    (h : ∀ t, exports = some t → t.IsOrdered) : (ofExports exports symbol).Fits exports := by
  constructor
  · rintro rfl
    exact isUnresolved_unmatched symbol
  · intro value hsymbol
    rw [symbol_ofExports] at hsymbol
    subst hsymbol
    cases exports with
    | none => exact isUnresolved_unmatched _
    | some t => exact ExportTable.isUnresolved_pair fun slot hslot => by cases hslot
  · cases exports with
    | none => exact .inl (isUnresolved_unmatched symbol)
    | some t =>
      by_cases hslot : ∃ slot, t.slotOf? symbol = some slot ∧ t.Exports slot
      · obtain ⟨slot, hslot⟩ := hslot
        exact .inr ⟨t, slot, rfl, ExportTable.isResolvedTo_pair_iff.2 hslot⟩
      · exact .inl (ExportTable.isUnresolved_pair fun slot hfound hexports =>
          hslot ⟨slot, hfound, hexports⟩)
  · rintro t ordinal slot rfl hsymbol
    rw [symbol_ofExports] at hsymbol
    subst hsymbol
    have hfound : t.slotOf? (.byOrdinal ordinal) = some slot ↔ _ :=
      ExportTable.findByOrdinal?_eq_some_iff
    rw [ofExports, ExportTable.isResolvedTo_pair_iff, hfound]
    tauto
  · rintro t hint name slot rfl hsymbol hresolved
    rw [symbol_ofExports] at hsymbol
    subst hsymbol
    exact ExportTable.name_of_findByName? (ExportTable.isResolvedTo_pair_iff.1 hresolved).1
  · rintro t hint name rfl hsymbol hempty
    rw [symbol_ofExports] at hsymbol
    subst hsymbol
    refine ExportTable.isUnresolved_pair fun slot hfound hexports => ?_
    obtain ⟨e, he, hname, rfl⟩ := ExportTable.name_of_findByName? hfound
    exact hempty e he hname hexports
  · rintro t hint name rfl hsymbol ⟨e, he, rfl⟩ hfull
    rw [symbol_ofExports] at hsymbol
    subst hsymbol
    obtain ⟨slot, hfound⟩ := ExportTable.exists_findByName? (h t rfl) he
      fun e' he' hname => (hfull e' he' hname).lt_size
    obtain ⟨e', he', hname, rfl⟩ := ExportTable.name_of_findByName? hfound
    exact ⟨_, ExportTable.isResolvedTo_pair_iff.2 ⟨hfound, hfull e' he' hname⟩⟩

/-! ### Whole analyses -/

/-- Whatever a file says, its export table knows whether its names ascend. -/
theorem Node.isOrdered_of_exports_read {tree : FileTree} {n : Node} {t : ExportTable}
    (hn : n.exports = none) (h : (n.read tree).exports = some t) : t.IsOrdered := by
  rw [read] at h
  split at h
  · rw [hn] at h
    cases h
  · split at h
    · rw [hn] at h
      cases h
    · rw [withContent] at h
      split at h
      · rw [hn] at h
        cases h
      · exact isOrdered_of_readExports h

namespace Scan

variable {p : SearchPath} {t : FileTree} {cache : SearchCache} {given : List Path}
  {taken : List Nat} {s : Scan}

/-- The export table of any module of a scan has been read from an image, so it is ordered. -/
theorem Reached.isOrdered_of_mem (h : Reached p t cache given taken s) {n : Node} (hn : n ∈ s.nodes)
    {table : ExportTable} (htable : n.exports = some table) : table.IsOrdered := by
  obtain ⟨id, hid⟩ := Array.mem_iff_getElem?.1 hn
  by_cases htaken : id ∈ taken
  · rw [(h.filled.read hid htaken).eq] at htable
    exact Node.isOrdered_of_exports_read rfl htable
  · rw [h.filled.unread hid htaken] at htable
    cases htable

end Scan

namespace Analysis

/-- In an analysis, every imported symbol has been matched with what its module exports. The slots
of a module that are in use are those that some symbol has been matched with, and they hold
something. -/
theorem fits_of_mem_imports {p : SearchPath} {t : FileTree} {cache c : SearchCache}
    {roots : List Path} {a : Analysis} (h : ofRoots p t cache roots = .ok (a, c)) :
    (∀ n ∈ a.nodes, ∀ d ∈ n.dependencies, ∃ m, a.nodes[d.target]? = some m ∧
      ∀ q ∈ d.imports, q.Fits m.exports) ∧
    ∀ id slot,
      (slot ∈ a.usedSlots id ↔ ∃ n ∈ a.nodes, ∃ d ∈ n.dependencies,
        d.target = id ∧ ∃ q ∈ d.imports, q.slot = some slot) ∧
      (slot ∈ a.usedSlots id → ∃ m table, a.nodes[id]? = some m ∧ m.exports = some table ∧
        table.Exports slot) := by
  obtain ⟨taken, s, hs, -, rfl, -⟩ := Scan.exists_finished_of_ofRoots h
  have hfits : ∀ n ∈ s.toAnalysis.nodes, ∀ d ∈ n.dependencies,
      ∃ m, s.toAnalysis.nodes[d.target]? = some m ∧ ∀ q ∈ d.imports, q.Fits m.exports := by
    intro n hn d hd
    obtain ⟨n, hold, rfl⟩ := Array.mem_map.1 hn
    obtain ⟨d, hdold, rfl⟩ := List.mem_map.1 hd
    obtain ⟨m, hm, -⟩ := hs.exists_target hold hdold
    refine ⟨m.paired s.nodes, ?_, fun q hq => ?_⟩
    · rw [Scan.getElem?_toAnalysis]
      exact congrArg (Option.map (Node.paired s.nodes)) hm
    · obtain ⟨q, hq, rfl⟩ := List.mem_map.1 hq
      have hexports : exportsAt s.nodes d.target = m.exports := by rw [exportsAt, hm]; rfl
      rw [hexports]
      exact Pairing.fits_ofExports fun table htable =>
        hs.isOrdered_of_mem (Array.mem_of_getElem? hm) htable
  have hused : ∀ id slot, slot ∈ s.toAnalysis.usedSlots id ↔ ∃ n ∈ s.toAnalysis.nodes,
      ∃ d ∈ n.dependencies, d.target = id ∧ ∃ q ∈ d.imports, q.slot = some slot := by
    intro id slot
    simp [usedSlots, Sorted.mem_ofList, and_assoc]
  refine ⟨hfits, fun id slot => ⟨hused id slot, fun hslot => ?_⟩⟩
  obtain ⟨n, hn, d, hd, rfl, q, hq, hslot⟩ := (hused id slot).1 hslot
  obtain ⟨m, hm, hall⟩ := hfits n hn d hd
  obtain ⟨table, htable, hexports⟩ := (hall q hq).exports_of_slot hslot
  exact ⟨m, table, hm, htable, hexports⟩

/-- In the sample, the program imports an ordinal and a name from its DLL, and the DLL imports them
back from the program. Both find their slot. -/
theorem fits_of_mem_imports_sample :
    ∃ a c, ofRoots Scan.samplePath Scan.sampleTree .empty [⟨"app.exe"⟩] = .ok (a, c) ∧
      ∃ n d q m, n ∈ a.nodes ∧ d ∈ n.dependencies ∧ q ∈ d.imports ∧ q.slot = some 0 ∧
        a.nodes[d.target]? = some m ∧ q.Fits m.exports := by
  obtain ⟨⟨a, c⟩, h, htest⟩ : ∃ x : Analysis × SearchCache,
      ofRoots Scan.samplePath Scan.sampleTree .empty [⟨"app.exe"⟩] = .ok x ∧
        (x.1.nodes.toList.any fun n =>
          n.dependencies.any fun d => d.imports.any fun q => q.slot == some 0) = true :=
    Scan.exists_ok_of_any (by decide +kernel)
  simp only [List.any_eq_true, beq_iff_eq, Array.mem_toList_iff] at htest
  obtain ⟨n, hn, d, hd, q, hq, hslot⟩ := htest
  obtain ⟨m, hm, hfits⟩ := (fits_of_mem_imports h).1 n hn d hd
  exact ⟨a, c, h, n, d, q, m, hn, hd, hq, hslot, hm, hfits q hq⟩

end Analysis

end DllGraph
