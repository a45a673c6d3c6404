import DllGraph.Graph.Check
import DllGraph.Proofs.Scan.Termination

/-!
# What a Report Lists

A report on what is missing is filled finding by finding. Several modules may have the same name in
it, a module may import from one DLL more than once, and a symbol may be missing for several
reasons. All of this is merged into one entry. This module says which entries there are: those that
some dependency of some module gives rise to, and no others. No entry is empty.

The report of a whole analysis is made up of those of its single dependencies
(`Analysis.withOnly`), so it makes sense to say that a dependency contributes to it.

## Main definitions

* `Sorted.IsFilled` and `Sorted.IsTable`, sets and tables in order;
* `CheckReport.dllsOf` and `CheckReport.symbolsOf`, what a report lists under some names;
* `CheckReport.IsTidy`, a report without empty entries;
* `Analysis.withOnly`, an analysis that has kept one dependency.

## Main results

* `Sorted.lookup_update` — what a table says after one of its values has been changed;
* `Analysis.mem_dllsOf_check_iff` and `Analysis.mem_symbolsOf_check_iff` — what a report lists;
* `Analysis.check_lists_missing` — the report of an analysis is exact.
-/

namespace DllGraph

/-! ### Sets and tables -/

namespace Sorted

/-- A set in ascending order that has some element. -/
structure IsFilled {κ : Type} [LT κ] (as : List κ) : Prop where
  ne_nil : as ≠ []
  ascends : as.Pairwise (· < ·)

/-- A table in ascending order of its keys whose values are valid. -/
structure IsTable {κ α : Type} [LT κ] [BEq κ] (Valid : α → Prop) (table : List (κ × α)) :
    Prop where
  keys : (table.map Prod.fst).Pairwise (· < ·)
  values : ∀ key value, table.lookup key = some value → Valid value

variable {κ α : Type} [LT κ] [DecidableLT κ] [DecidableEq κ] {Valid : α → Prop} {key other : κ}
  {a b : κ} {change : Option α → α}

/-- The table with an element added to the set of a key. -/
def addUnder (key a : κ) (table : List (κ × List κ)) : List (κ × List κ) :=
  update key (fun as => insert a (as.getD [])) table

/-- A table in which something has been noted is not empty. -/
theorem update_ne_nil {table : List (κ × α)} : update key change table ≠ [] := by
  cases table with
  | nil => simp [update]
  | cons entry rest =>
    rw [update]
    split
    · simp
    · split <;> simp

omit [LT κ] [DecidableLT κ] in
/-- A table that is not empty has a value for some key. -/
theorem exists_lookup_of_ne_nil {table : List (κ × α)} (h : table ≠ []) :
    ∃ key value, table.lookup key = some value := by
  obtain ⟨⟨key, value⟩, rest, rfl⟩ := List.exists_cons_of_ne_nil h
  exact ⟨key, value, List.lookup_cons_self⟩

omit [DecidableLT κ] in
/-- An empty list is a table. -/
theorem isTable_nil : IsTable Valid ([] : List (κ × α)) :=
  ⟨.nil, nofun⟩

variable [LE κ] [Std.LawfulOrderLT κ] [Std.IsLinearOrder κ]

/-- What a table says after one of its values has been changed. -/
theorem lookup_update {table : List (κ × α)} (h : IsTable Valid table) :
    (update key change table).lookup other =
      if other = key then some (change (table.lookup key)) else table.lookup other := by
  split
  · next heq => rw [heq, lookup_update_self h.keys]
  · next hne => exact lookup_update_of_ne hne

/-- A table stays valid if a value is changed into a valid one. -/
theorem IsTable.update {table : List (κ × α)} (h : IsTable Valid table)
    (hchange : Valid (change (table.lookup key))) :
    IsTable Valid (Sorted.update key change table) where
  keys := pairwise_update h.keys
  values := by
    intro other value hvalue
    rw [lookup_update h] at hvalue
    split at hvalue
    · cases hvalue
      exact hchange
    · exact h.values other value hvalue

/-- A sorted list into which something has been inserted is sorted and not empty. -/
theorem isFilled_insert {as : List κ} (h : as.Pairwise (· < ·)) : IsFilled (insert a as) where
  ne_nil := List.ne_nil_of_mem (mem_insert.2 (.inl rfl))
  ascends := pairwise_insert h

omit [DecidableLT κ] [LE κ] [Std.LawfulOrderLT κ] [Std.IsLinearOrder κ] in
/-- A table of filled sets is empty if there is nothing in it. -/
theorem IsTable.eq_nil_iff {table : List (κ × List κ)} (h : IsTable IsFilled table) :
    table = [] ↔ ∀ key a, a ∉ (table.lookup key).getD [] := by
  constructor
  · rintro rfl key a
    exact List.not_mem_nil
  · intro hnone
    by_contra hne
    obtain ⟨key, as, has⟩ := exists_lookup_of_ne_nil hne
    obtain ⟨a, ha⟩ := List.exists_mem_of_ne_nil as (h.values key as has).ne_nil
    refine hnone key a ?_
    rwa [has]

omit [DecidableLT κ] [LE κ] [Std.LawfulOrderLT κ] [Std.IsLinearOrder κ] in
/-- The set of a key ascends, also if the table does not have the key. -/
theorem IsTable.ascends_getD {table : List (κ × List κ)} (h : IsTable IsFilled table) (key : κ) :
    ((table.lookup key).getD []).Pairwise (· < ·) := by
  cases hvalue : table.lookup key with
  | none => exact .nil
  | some as => exact (h.values key as hvalue).ascends

/-- Adding something under a key keeps a table of sorted lists one. -/
theorem IsTable.addUnder {table : List (κ × List κ)} (h : IsTable IsFilled table) (key a : κ) :
    IsTable IsFilled (Sorted.addUnder key a table) :=
  h.update (isFilled_insert (h.ascends_getD key))

/-- Adding an element to the set of a key adds it there and nowhere else. -/
theorem mem_addUnder {table : List (κ × List κ)} (h : IsTable IsFilled table) :
    b ∈ ((addUnder key a table).lookup other).getD [] ↔
      other = key ∧ b = a ∨ b ∈ (table.lookup other).getD [] := by
  rw [addUnder, lookup_update h]
  split
  · next heq => simp [heq, mem_insert]
  · next hne => simp [hne]

end Sorted

/-! ### Reports -/

open Sorted

/-- A table of missing symbols in order. No DLL and no importing module is without symbols. -/
abbrev IsSymbolTable (table : List (String × List (String × List String))) : Prop :=
  IsTable (fun dlls => dlls ≠ [] ∧ IsTable IsFilled dlls) table

namespace CheckReport

/-- The DLLs that were not found for the importing modules of a name. -/
def dllsOf (r : CheckReport) (importer : String) : List String :=
  (r.dlls.lookup importer).getD []

/-- The symbols that were not found for the importing modules of a name in the DLLs of a name. -/
def symbolsOf (r : CheckReport) (importer dll : String) : List String :=
  (((r.symbols.lookup importer).getD []).lookup dll).getD []

/-- Everything in a report is in order, and there is something under every name. -/
structure IsTidy (r : CheckReport) : Prop where
  dlls : IsTable IsFilled r.dlls
  symbols : IsSymbolTable r.symbols

variable {r : CheckReport}

/-- A tidy report has no symbols if and only if no symbol is missing anywhere. -/
theorem IsTidy.symbols_eq_nil_iff (h : r.IsTidy) :
    r.symbols = [] ↔ ∀ importer dll symbol, symbol ∉ r.symbolsOf importer dll := by
  constructor
  · intro hnil importer dll symbol
    rw [symbolsOf, hnil]
    exact List.not_mem_nil
  · intro hnone
    by_contra hne
    obtain ⟨importer, dlls, hdlls⟩ := exists_lookup_of_ne_nil hne
    obtain ⟨hfilled, htable⟩ := h.symbols.values importer dlls hdlls
    refine hfilled (htable.eq_nil_iff.2 fun dll symbol => ?_)
    have hsymbol := hnone importer dll symbol
    rwa [symbolsOf, hdlls] at hsymbol

/-- Nothing is missing if nothing is listed. -/
theorem IsTidy.isEmpty_iff (h : r.IsTidy) :
    r.isEmpty = true ↔ (∀ importer dll, dll ∉ r.dllsOf importer) ∧
      ∀ importer dll symbol, symbol ∉ r.symbolsOf importer dll := by
  rw [isEmpty, Bool.and_eq_true, List.isEmpty_iff, List.isEmpty_iff, h.symbols_eq_nil_iff,
    h.dlls.eq_nil_iff]
  rfl

end CheckReport

/-! ### Findings in a table -/

variable {importer dll symbol : String}

/-- A table that is filled with missing DLLs lists these and no others. -/
theorem isTable_foldr_missingDlls (ms : List MissingDll) :
    IsTable IsFilled (ms.foldr MissingDll.addTo []) ∧ ∀ importer dll,
      dll ∈ ((ms.foldr MissingDll.addTo []).lookup importer).getD [] ↔ ⟨importer, dll⟩ ∈ ms := by
  induction ms with
  | nil => exact ⟨isTable_nil, by simp⟩
  | cons m rest ih =>
    obtain ⟨htable, hmem⟩ := ih
    have heq : (m :: rest).foldr MissingDll.addTo [] =
        addUnder m.importer m.dll (rest.foldr MissingDll.addTo []) := rfl
    rw [heq]
    refine ⟨htable.addUnder m.importer m.dll, fun importer dll => ?_⟩
    rw [mem_addUnder htable, hmem, List.mem_cons]
    cases m
    rw [MissingDll.mk.injEq]

/-- What a table of symbols has for an importer is a table, be it an empty one. -/
theorem IsSymbolTable.getD {table : List (String × List (String × List String))}
    (h : IsSymbolTable table) (importer : String) :
    IsTable IsFilled ((table.lookup importer).getD []) := by
  cases hvalue : table.lookup importer with
  | none => exact isTable_nil
  | some dlls => exact (h.values importer dlls hvalue).2

/-- A table that is filled with missing symbols lists these and no others. -/
theorem isTable_foldr_missingSymbols (ms : List MissingSymbol) :
    IsSymbolTable (ms.foldr MissingSymbol.addTo []) ∧ ∀ importer dll symbol,
      symbol ∈ ((((ms.foldr MissingSymbol.addTo []).lookup importer).getD []).lookup dll).getD [] ↔
        ⟨importer, dll, symbol⟩ ∈ ms := by
  induction ms with
  | nil => exact ⟨isTable_nil, by simp⟩
  | cons m rest ih =>
    obtain ⟨htable, hmem⟩ := ih
    have heq : (m :: rest).foldr MissingSymbol.addTo [] =
        update m.importer (fun dlls => addUnder m.dll m.symbol (dlls.getD []))
          (rest.foldr MissingSymbol.addTo []) := rfl
    rw [heq]
    have hinner := htable.getD m.importer
    refine ⟨htable.update ⟨update_ne_nil, hinner.addUnder m.dll m.symbol⟩,
      fun importer dll symbol => ?_⟩
    rw [lookup_update htable, List.mem_cons, ← hmem]
    cases m with
    | mk importer' dll' symbol' =>
      rw [MissingSymbol.mk.injEq]
      split
      · next heq =>
        subst heq
        rw [Option.getD_some, mem_addUnder hinner]
        simp
      · next hne => simp [hne]

/-! ### Findings of an analysis -/

/-- A dependency is unresolved if and only if one of its imports is. -/
theorem Dependency.status_eq_unresolved_iff {d : Dependency} :
    d.status = .unresolved ↔ ∃ q ∈ d.imports, q.status = .unresolved := by
  have hany : d.imports.any (·.status = .unresolved) = true ↔
      ∃ q ∈ d.imports, q.status = .unresolved := by simp
  rw [← hany, status]
  split
  · next h => simp [h]
  · next h => split <;> simp [h]

namespace Analysis

variable {a : Analysis} {n : Node} {d : Dependency} {id : Nat}

/-- The report on an analysis is tidy. -/
theorem isTidy_check (a : Analysis) : a.check.IsTidy where
  dlls := (isTable_foldr_missingDlls _).1
  symbols := (isTable_foldr_missingSymbols _).1

/-- A DLL is listed if a module of the name depends on it and it was not found. -/
theorem mem_dllsOf_check_iff :
    dll ∈ a.check.dllsOf importer ↔ ∃ n ∈ a.nodes, n.displayName = importer ∧
      ∃ d ∈ n.dependencies, d.dllName = dll ∧ isFoundAt a.nodes d.target = false := by
  have hmem : dll ∈ a.check.dllsOf importer ↔ _ :=
    (isTable_foldr_missingDlls _).2 importer dll
  rw [hmem]
  simp only [Node.missingDlls, List.mem_flatMap, List.mem_map, List.mem_filter,
    Array.mem_toList_iff, MissingDll.mk.injEq, Bool.not_eq_true']
  constructor
  · rintro ⟨n, hn, d, ⟨hd, hfound⟩, hname, hdll⟩
    exact ⟨n, hn, hname, d, hd, hdll, hfound⟩
  · rintro ⟨n, hn, hname, d, hd, hdll, hfound⟩
    exact ⟨n, hn, d, ⟨hd, hfound⟩, hname, hdll⟩

/-- A symbol is listed if a module of the name depends on a DLL of the name that was found, and has
not been matched there with a symbol that it imports. -/
theorem mem_symbolsOf_check_iff :
    symbol ∈ a.check.symbolsOf importer dll ↔ ∃ n ∈ a.nodes, n.displayName = importer ∧
      ∃ d ∈ n.dependencies, d.dllName = dll ∧ isFoundAt a.nodes d.target = true ∧
        ∃ q ∈ d.imports, q.status = .unresolved ∧ q.symbol.label = symbol := by
  have hmem : symbol ∈ a.check.symbolsOf importer dll ↔ _ :=
    (isTable_foldr_missingSymbols _).2 importer dll symbol
  rw [hmem]
  simp only [Node.missingSymbols, List.mem_flatMap, List.mem_map, List.mem_filter,
    Array.mem_toList_iff, MissingSymbol.mk.injEq, decide_eq_true_eq]
  constructor
  · rintro ⟨n, hn, d, ⟨hd, hfound⟩, q, ⟨hq, hstatus⟩, hname, hdll, hlabel⟩
    exact ⟨n, hn, hname, d, hd, hdll, hfound, q, hq, hstatus, hlabel⟩
  · rintro ⟨n, hn, hname, d, hd, hdll, hfound, q, hq, hstatus, hlabel⟩
    exact ⟨n, hn, d, ⟨hd, hfound⟩, q, ⟨hq, hstatus⟩, hname, hdll, hlabel⟩

/-- A report is empty if every dependency was found and all of its symbols have been matched. -/
theorem isEmpty_check_iff :
    a.check.isEmpty = true ↔ ∀ n ∈ a.nodes, ∀ d ∈ n.dependencies,
      isFoundAt a.nodes d.target = true ∧ d.status ≠ .unresolved := by
  rw [a.isTidy_check.isEmpty_iff]
  constructor
  · rintro ⟨hdlls, hsymbols⟩ n hn d hd
    have hfound : isFoundAt a.nodes d.target = true := by
      by_contra hfound
      exact hdlls _ _ (mem_dllsOf_check_iff.2
        ⟨n, hn, rfl, d, hd, rfl, Bool.eq_false_iff.2 hfound⟩)
    refine ⟨hfound, fun hstatus => ?_⟩
    obtain ⟨q, hq, hunresolved⟩ := Dependency.status_eq_unresolved_iff.1 hstatus
    exact hsymbols _ _ _ (mem_symbolsOf_check_iff.2
      ⟨n, hn, rfl, d, hd, rfl, hfound, q, hq, hunresolved, rfl⟩)
  · intro hall
    constructor
    · intro importer dll hdll
      obtain ⟨n, hn, -, d, hd, -, hfound⟩ := mem_dllsOf_check_iff.1 hdll
      rw [(hall n hn d hd).1] at hfound
      cases hfound
    · intro importer dll symbol hsymbol
      obtain ⟨n, hn, -, d, hd, -, -, q, hq, hunresolved, -⟩ := mem_symbolsOf_check_iff.1 hsymbol
      exact (hall n hn d hd).2 (Dependency.status_eq_unresolved_iff.2 ⟨q, hq, hunresolved⟩)

/-! ### Single dependencies -/

/-- The analysis whose only dependency is a given one of the module at a position. -/
def withOnly (a : Analysis) (id : Nat) (d : Dependency) : Analysis :=
  { a with nodes := a.nodes.mapIdx fun i n =>
      { n with dependencies := if i = id then [d] else [] } }

/-- Leaving out all other dependencies does not change which modules are found. -/
theorem isFoundAt_withOnly (a : Analysis) (id : Nat) (d : Dependency) (target : Nat) :
    isFoundAt (a.withOnly id d).nodes target = isFoundAt a.nodes target := by
  rw [isFoundAt, isFoundAt, withOnly, Array.getElem?_mapIdx]
  cases a.nodes[target]? <;> rfl

/-- What is listed because of a single dependency. -/
theorem mem_symbolsOf_withOnly_iff (hn : a.nodes[id]? = some n) :
    symbol ∈ (a.withOnly id d).check.symbolsOf importer dll ↔
      n.displayName = importer ∧ d.dllName = dll ∧ isFoundAt a.nodes d.target = true ∧
        ∃ q ∈ d.imports, q.status = .unresolved ∧ q.symbol.label = symbol := by
  rw [mem_symbolsOf_check_iff]
  simp only [isFoundAt_withOnly]
  constructor
  · rintro ⟨m, hm, hname, d', hd', hdll, hrest⟩
    obtain ⟨i, hi⟩ := Array.mem_iff_getElem?.1 hm
    rw [withOnly, Array.getElem?_mapIdx] at hi
    obtain ⟨m, hmi, rfl⟩ := Option.map_eq_some_iff.1 hi
    dsimp only at hd'
    split at hd'
    · next heq =>
      subst heq
      obtain rfl : m = n := Option.some.inj (hmi.symm.trans hn)
      obtain rfl := List.mem_singleton.1 hd'
      exact ⟨hname, hdll, hrest⟩
    · cases hd'
  · rintro ⟨hname, hdll, hrest⟩
    refine ⟨{ n with dependencies := [d] }, ?_, hname, d, List.mem_singleton_self d, hdll, hrest⟩
    refine Array.mem_iff_getElem?.2 ⟨id, ?_⟩
    rw [withOnly, Array.getElem?_mapIdx, hn, Option.map_some, if_pos rfl]

/-- The symbols that a report lists are those that it lists because of single dependencies. -/
theorem mem_symbolsOf_check_iff_exists_withOnly :
    symbol ∈ a.check.symbolsOf importer dll ↔ ∃ id n d, a.nodes[id]? = some n ∧
      d ∈ n.dependencies ∧ symbol ∈ (a.withOnly id d).check.symbolsOf importer dll := by
  rw [mem_symbolsOf_check_iff]
  constructor
  · rintro ⟨n, hn, hname, d, hd, hrest⟩
    obtain ⟨id, hid⟩ := Array.mem_iff_getElem?.1 hn
    exact ⟨id, n, d, hid, hd, (mem_symbolsOf_withOnly_iff hid).2 ⟨hname, hrest⟩⟩
  · rintro ⟨id, n, d, hid, hd, hsymbol⟩
    obtain ⟨hname, hrest⟩ := (mem_symbolsOf_withOnly_iff hid).1 hsymbol
    exact ⟨n, Array.mem_of_getElem? hid, hname, d, hd, hrest⟩

/-- A dependency on a module that was found contributes to the symbols of a report if and only if
one of its own symbols has not been matched. -/
theorem symbols_withOnly_ne_nil_iff (hn : a.nodes[id]? = some n)
    (hfound : isFoundAt a.nodes d.target = true) :
    (a.withOnly id d).check.symbols ≠ [] ↔ d.status = .unresolved := by
  rw [Ne, (isTidy_check _).symbols_eq_nil_iff, Dependency.status_eq_unresolved_iff]
  simp only [mem_symbolsOf_withOnly_iff hn, not_forall, not_not]
  constructor
  · rintro ⟨-, -, -, -, -, -, q, hq, hunresolved, -⟩
    exact ⟨q, hq, hunresolved⟩
  · rintro ⟨q, hq, hunresolved⟩
    exact ⟨_, _, _, rfl, rfl, hfound, q, hq, hunresolved, rfl⟩

/-! ### Whole analyses -/

/-- A module is found at a position if and only if there is one that has a path. -/
theorem isFoundAt_eq_true_iff {nodes : Array Node} :
    isFoundAt nodes id = true ↔ ∃ m, nodes[id]? = some m ∧ m.path ≠ none := by
  rw [isFoundAt, Option.any_eq_true]
  simp only [Node.isFound, Option.isSome_iff_ne_none]

/-- A module at a position is not found if and only if it has no path. -/
theorem isFoundAt_eq_false_iff {nodes : Array Node} {m : Node} (hm : nodes[id]? = some m) :
    isFoundAt nodes id = false ↔ m.path = none := by
  rw [isFoundAt, hm, Option.any_some, Node.isFound, Option.isSome_eq_false_iff,
    Option.isNone_iff_eq_none]

variable {p : SearchPath} {t : FileTree} {cache c : SearchCache} {roots : List Path}

/-- Every dependency of an analysis leads to a module of it. -/
theorem exists_target_of_ofRoots (h : ofRoots p t cache roots = .ok (a, c)) (hn : n ∈ a.nodes)
    (hd : d ∈ n.dependencies) : ∃ m, a.nodes[d.target]? = some m := by
  obtain ⟨taken, s, hs, -, rfl, -⟩ := Scan.exists_finished_of_ofRoots h
  obtain ⟨n, hold, rfl⟩ := Array.mem_map.1 hn
  obtain ⟨d, hdold, rfl⟩ := List.mem_map.1 hd
  obtain ⟨m, hm, -⟩ := hs.exists_target hold hdold
  refine ⟨m.paired s.nodes, ?_⟩
  rw [Scan.getElem?_toAnalysis]
  exact congrArg (Option.map (Node.paired s.nodes)) hm

/-- The report of an analysis is exact. Under the names of modules and DLLs, it lists the DLLs that
were not found and the symbols that were not matched in a DLL that was found, and no others; and
there is something under every name in it. A dependency on a module that was found contributes to
the listed symbols if and only if its status is that it is unresolved. So the report is empty if and
only if everything was found and no status is unresolved. -/
theorem check_lists_missing (h : ofRoots p t cache roots = .ok (a, c)) :
    (∀ importer dll, dll ∈ a.check.dllsOf importer ↔
      ∃ n ∈ a.nodes, n.displayName = importer ∧ ∃ d ∈ n.dependencies, d.dllName = dll ∧
        ∃ m, a.nodes[d.target]? = some m ∧ m.path = none) ∧
    (∀ importer dll symbol, symbol ∈ a.check.symbolsOf importer dll ↔
      ∃ n ∈ a.nodes, n.displayName = importer ∧ ∃ d ∈ n.dependencies, d.dllName = dll ∧
        (∃ m, a.nodes[d.target]? = some m ∧ m.path ≠ none) ∧
        ∃ q ∈ d.imports, q.status = .unresolved ∧ q.symbol.label = symbol) ∧
    a.check.IsTidy ∧
    (∀ importer dll symbol, symbol ∈ a.check.symbolsOf importer dll ↔
      ∃ id n d, a.nodes[id]? = some n ∧ d ∈ n.dependencies ∧
        symbol ∈ (a.withOnly id d).check.symbolsOf importer dll) ∧
    (∀ id n d m, a.nodes[id]? = some n → d ∈ n.dependencies → a.nodes[d.target]? = some m →
      m.path ≠ none → ((a.withOnly id d).check.symbols ≠ [] ↔ d.status = .unresolved)) ∧
    (a.check.isEmpty = true ↔ ∀ n ∈ a.nodes, ∀ d ∈ n.dependencies,
      (∃ m, a.nodes[d.target]? = some m ∧ m.path ≠ none) ∧ d.status ≠ .unresolved) := by
  refine ⟨fun importer dll => ?_, fun importer dll symbol => ?_, a.isTidy_check,
    fun importer dll symbol => mem_symbolsOf_check_iff_exists_withOnly, ?_, ?_⟩
  · rw [mem_dllsOf_check_iff]
    constructor
    · rintro ⟨n, hn, hname, d, hd, hdll, hfound⟩
      obtain ⟨m, hm⟩ := exists_target_of_ofRoots h hn hd
      exact ⟨n, hn, hname, d, hd, hdll, m, hm, (isFoundAt_eq_false_iff hm).1 hfound⟩
    · rintro ⟨n, hn, hname, d, hd, hdll, m, hm, hpath⟩
      exact ⟨n, hn, hname, d, hd, hdll, (isFoundAt_eq_false_iff hm).2 hpath⟩
  · simp only [mem_symbolsOf_check_iff, isFoundAt_eq_true_iff]
  · intro id n d m hn _ hm hpath
    exact symbols_withOnly_ne_nil_iff hn (isFoundAt_eq_true_iff.2 ⟨m, hm, hpath⟩)
  · simp only [isEmpty_check_iff, isFoundAt_eq_true_iff]

/-- A program that imports from a DLL of no bytes, and another one whose DLL is not there. -/
def incompleteTree : FileTree where
  entries := [(["app.exe"], .file (Scan.sampleImage "B.DLL")), (["b.dll"], .file .empty),
    (["tool.exe"], .file (Scan.sampleImage "C.DLL"))]
  workingDir := []

/-- A symbol of the first program is listed, and so is the DLL of the second one. -/
theorem check_lists_missing_incomplete :
    ∃ a c, ofRoots Scan.samplePath incompleteTree .empty [⟨"app.exe"⟩, ⟨"tool.exe"⟩] = .ok (a, c) ∧
      "f" ∈ a.check.symbolsOf "app.exe" "B.DLL" ∧ "C.DLL" ∈ a.check.dllsOf "tool.exe" ∧
      a.check.isEmpty ≠ true := by
  obtain ⟨⟨a, c⟩, h, htest⟩ : ∃ x : Analysis × SearchCache,
      ofRoots Scan.samplePath incompleteTree .empty [⟨"app.exe"⟩, ⟨"tool.exe"⟩] = .ok x ∧
        ((x.1.nodes.toList.any fun n => n.displayName == "app.exe" && n.dependencies.any fun d =>
          d.dllName == "B.DLL" && x.1.nodes[d.target]?.any (·.path.isSome) &&
            d.imports.any fun q => q.status == .unresolved && q.symbol.label == "f") &&
        (x.1.nodes.toList.any fun n => n.displayName == "tool.exe" && n.dependencies.any fun d =>
          d.dllName == "C.DLL" && x.1.nodes[d.target]?.any (·.path.isNone))) = true :=
    Scan.exists_ok_of_any (by decide +kernel)
  simp only [List.any_eq_true, Bool.and_eq_true, beq_iff_eq, Array.mem_toList_iff,
    Option.any_eq_true, Option.isNone_iff_eq_none, Option.isSome_iff_ne_none] at htest
  obtain ⟨⟨n, hn, hname, d, hd, ⟨hdll, hfound⟩, q, hq, hunresolved, hlabel⟩,
    n', hn', hname', d', hd', hdll', hmissing⟩ := htest
  obtain ⟨hdlls, hsymbols, -, -, -, hempty⟩ := check_lists_missing h
  refine ⟨a, c, h, ?_, ?_, fun hisEmpty => ?_⟩
  · exact (hsymbols _ _ _).2 ⟨n, hn, hname, d, hd, hdll, hfound, q, hq, hunresolved, hlabel⟩
  · exact (hdlls _ _).2 ⟨n', hn', hname', d', hd', hdll', hmissing⟩
  · refine (hempty.1 hisEmpty n hn d hd).2 ?_
    exact Dependency.status_eq_unresolved_iff.2 ⟨q, hq, hunresolved⟩

end Analysis

end DllGraph
