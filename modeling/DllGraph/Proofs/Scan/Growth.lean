import DllGraph.Graph.Check
import Mathlib.Data.List.Forall2

/-!
# How a Scan Grows

A scan only ever adds modules, and of a module that it has, only what its file says changes later
on. `Node.asMet` is the rest of a module: its name, its file, where it was found and at which
depth. This module says once what each operation of a scan does, so that an invariant of scans is
proved for `Scan.push` and for the writing of one module, and for nothing else.

## Main definitions

* `Node.asMet`, the module as it was when it was met, and `Scan.met`, all modules in that form;
* `Scan.Grows`, the relation of a scan to one with more modules.

## Main statements

* `Scan.connect_preserves` — what adding a module preserves, connecting a module preserves;
* `Scan.forall₂_connect` — the dependencies of a module are its imports, one by one, each with the
  position of the module of that name;
* `Scan.exists_target_connect` — every module that is added is the target of one of them;
* `Scan.step_cases` — what one step does.
-/

namespace DllGraph

/-! ### Modules as they are met -/

namespace Node

/-- The lowercase name of a module, which tells it from all others. -/
def key (n : Node) : String := Text.lowercase n.name

/-- The module as it was when it was met, before its file was read. -/
def asMet (n : Node) : Node := .unread n.name n.path n.location n.depth n.isRoot

variable {n : Node}

@[simp] theorem name_asMet : n.asMet.name = n.name := rfl

@[simp] theorem key_asMet : n.asMet.key = n.key := rfl

@[simp] theorem path_asMet : n.asMet.path = n.path := rfl

@[simp] theorem isFound_asMet : n.asMet.isFound = n.isFound := rfl

@[simp] theorem location_asMet : n.asMet.location = n.location := rfl

@[simp] theorem depth_asMet : n.asMet.depth = n.depth := rfl

@[simp] theorem isRoot_asMet : n.asMet.isRoot = n.isRoot := rfl

@[simp] theorem asMet_asMet : n.asMet.asMet = n.asMet := rfl

/-- Two modules are the same as they were met if and only if they agree on what is known before
reading. -/
theorem asMet_eq_iff {m : Node} :
    m.asMet = n.asMet ↔ m.name = n.name ∧ m.path = n.path ∧ m.isRoot = n.isRoot ∧
      m.location = n.location ∧ m.depth = n.depth := by
  simp [asMet, unread]

@[simp] theorem asMet_ofRoot {name : String} {path : Path} :
    (ofRoot name path).asMet = ofRoot name path := rfl

@[simp] theorem asMet_ofHit {name : String} {depth : Nat} {hit : Option Hit} :
    (ofHit name depth hit).asMet = ofHit name depth hit := by
  cases hit <;> rfl

@[simp] theorem name_ofHit {name : String} {depth : Nat} {hit : Option Hit} :
    (ofHit name depth hit).name = name := by
  cases hit <;> rfl

@[simp] theorem path_ofHit {name : String} {depth : Nat} {hit : Option Hit} :
    (ofHit name depth hit).path = hit.map (·.path) := by
  cases hit <;> rfl

@[simp] theorem location_ofHit {name : String} {depth : Nat} {hit : Option Hit} :
    (ofHit name depth hit).location = hit.map (·.location) := by
  cases hit <;> rfl

@[simp] theorem depth_ofHit {name : String} {depth : Nat} {hit : Option Hit} :
    (ofHit name depth hit).depth = depth := by
  cases hit <;> rfl

@[simp] theorem isRoot_ofHit {name : String} {depth : Nat} {hit : Option Hit} :
    (ofHit name depth hit).isRoot = false := by
  cases hit <;> rfl

/-- The module with its file read and its dependencies written down. -/
def connected (n : Node) (t : FileTree) (dependencies : List Dependency) : Node :=
  { n.read t with dependencies }

/-- Reading the file of a module does not touch what the module was met with. -/
@[simp] theorem asMet_read {t : FileTree} : (n.read t).asMet = n.asMet := by
  rw [read]
  split
  · rfl
  · split
    · rfl
    · rw [withContent]
      split <;> rfl

@[simp] theorem depth_read {t : FileTree} : (n.read t).depth = n.depth := by
  rw [← depth_asMet, asMet_read, depth_asMet]

@[simp] theorem key_paired {nodes : Array Node} : (n.paired nodes).key = n.key := rfl

@[simp] theorem asMet_paired {nodes : Array Node} : (n.paired nodes).asMet = n.asMet := rfl

@[simp] theorem asMet_connected {t : FileTree} {dependencies : List Dependency} :
    (n.connected t dependencies).asMet = n.asMet :=
  asMet_read

end Node

/-- Every element of a list has one in the list that it corresponds to. -/
theorem exists_right_of_forall₂ {α β : Type} {r : α → β → Prop} {as : List α} {bs : List β}
    (h : List.Forall₂ r as bs) {a : α} (ha : a ∈ as) : ∃ b ∈ bs, r a b := by
  induction h with
  | nil => cases ha
  | cons hab _ ih =>
    rcases List.mem_cons.1 ha with rfl | ha
    · exact ⟨_, List.mem_cons_self .., hab⟩
    · obtain ⟨b, hb, hr⟩ := ih ha
      exact ⟨b, List.mem_cons_of_mem _ hb, hr⟩

/-- Each element of the second of two related lists is related to one of the first. -/
theorem exists_left_of_forall₂ {α β : Type} {r : α → β → Prop} {as : List α} {bs : List β}
    (h : List.Forall₂ r as bs) {b : β} (hb : b ∈ bs) : ∃ a ∈ as, r a b :=
  exists_right_of_forall₂ (r := flip r) h.flip hb

/-- Two lists that are related by giving the same value give the same list of values. -/
theorem map_eq_of_forall₂ {α β γ : Type} {f : α → γ} {g : β → γ} {as : List α} {bs : List β}
    (h : List.Forall₂ (fun a b => f a = g b) as bs) : as.map f = bs.map g := by
  have heq : List.Forall₂ Eq (as.map f) (bs.map g) :=
    List.forall₂_map_left_iff.2 (List.forall₂_map_right_iff.2 h)
  rwa [List.forall₂_eq_eq_eq] at heq

/-- The modules of a kind, by their positions. -/
def positions (select : Node → Bool) (nodes : List Node) : List Nat :=
  (nodes.zipIdx.filter (select ·.1)).map (·.2)

/-- The positions of some kind are those at which there is a module of the kind. -/
theorem mem_positions {select : Node → Bool} {nodes : List Node} {id : Nat} :
    id ∈ positions select nodes ↔ ∃ n, nodes[id]? = some n ∧ select n = true := by
  simp only [positions, List.mem_map, List.mem_filter, Prod.exists, List.mem_zipIdx_iff_getElem?]
  constructor
  · rintro ⟨n, i, ⟨hn, hs⟩, rfl⟩
    exact ⟨n, hn, hs⟩
  · rintro ⟨n, hn, hs⟩
    exact ⟨n, id, ⟨hn, hs⟩, rfl⟩

/-- Positions are listed in ascending order, hence each of them once. -/
theorem pairwise_positions (select : Node → Bool) (nodes : List Node) :
    (positions select nodes).Pairwise (· < ·) := by
  have hsub : (positions select nodes).Sublist (nodes.zipIdx.map (·.2)) :=
    List.filter_sublist.map _
  rw [List.zipIdx_map_snd] at hsub
  exact List.Pairwise.sublist hsub (List.pairwise_lt_range' 1)

/-- One more module adds its position if it is of the kind. -/
theorem positions_append_singleton (select : Node → Bool) (nodes : List Node) (n : Node) :
    positions select (nodes ++ [n]) =
      positions select nodes ++ if select n then [nodes.length] else [] := by
  cases h : select n <;> simp [positions, List.zipIdx_append, h]

/-! ### Operations of a scan -/

namespace Scan

/-- The modules of a scan as they were met. -/
def met (s : Scan) : List Node := s.nodes.toList.map Node.asMet

/-- As many modules have been met as there are. -/
theorem length_met (s : Scan) : s.met.length = s.nodes.size := by
  simp [met]

/-- A module is met at its own position. -/
theorem getElem?_met (s : Scan) (id : Nat) : s.met[id]? = s.nodes[id]?.map Node.asMet := by
  simp [met]

/-- A module that is there has been met. -/
theorem getElem?_met_of_nodes {s : Scan} {id : Nat} {n : Node} (h : s.nodes[id]? = some n) :
    s.met[id]? = some n.asMet := by
  rw [getElem?_met, h]
  rfl

/-- Every module has been met. -/
theorem asMet_mem_met {s : Scan} {n : Node} (h : n ∈ s.nodes) : n.asMet ∈ s.met :=
  List.mem_map_of_mem (Array.mem_toList_iff.2 h)

/-- A scan with more modules, in which the modules of the first one keep their positions. -/
structure Grows (s s' : Scan) : Prop where
  nodes : s.nodes.toList <+: s'.nodes.toList
  idOf : ∀ {name id}, s.idOf? name = some id → s'.idOf? name = some id

namespace Grows

variable {s s' s'' : Scan}

/-- A scan grows into itself. -/
theorem refl (s : Scan) : s.Grows s :=
  ⟨List.prefix_refl _, id⟩

/-- Growing can be chained. -/
theorem trans (h : s.Grows s') (h' : s'.Grows s'') : s.Grows s'' :=
  ⟨h.nodes.trans h'.nodes, fun hid => h'.idOf (h.idOf hid)⟩

/-- A module stays as it is while a scan grows. -/
theorem getElem? (h : s.Grows s') {id : Nat} {n : Node} (hn : s.nodes[id]? = some n) :
    s'.nodes[id]? = some n := by
  obtain ⟨fresh, heq⟩ := h.nodes
  rw [← Array.getElem?_toList] at hn ⊢
  rw [← heq, List.getElem?_append_left (List.getElem?_eq_some_iff.1 hn).1]
  exact hn

end Grows

/-! ### Adding a module -/

/-- The second scan is the first one with a module added under a new name. -/
structure Adds (s : Scan) (n : Node) (s' : Scan) : Prop where
  fresh : s.idOf? n.name = none
  nodes : s'.nodes = s.nodes.push n
  index : s'.index = (n.key, s.nodes.size) :: s.index
  queue : s'.queue = if n.isFound then s.queue ++ [s.nodes.size] else s.queue
  roots : s'.roots = if n.isRoot then s.roots ++ [s.nodes.size] else s.roots

variable {s s' : Scan} {n : Node} {id : Nat} {name : String} {p : SearchPath} {t : FileTree}
  {importer path : Path} {depth : Nat} {dlls : List ImportedDll}

namespace Adds

/-- What is added has been met last. -/
theorem met (h : s.Adds n s') : s'.met = s.met ++ [n.asMet] := by
  simp [Scan.met, h.nodes]

theorem getElem? (h : s.Adds n s') :
    s'.nodes[id]? = if id = s.nodes.size then some n else s.nodes[id]? := by
  rw [h.nodes, Array.getElem?_push]

/-- What has been met stays so, and what is added comes after it. -/
theorem getElem?_met (h : s.Adds n s') :
    s'.met[id]? = if id = s.nodes.size then some n.asMet else s.met[id]? := by
  rw [Scan.getElem?_met, Scan.getElem?_met, h.getElem?]
  split <;> rfl

/-- A module that is added is known by its name. -/
theorem idOf?_self (h : s.Adds n s') : s'.idOf? n.name = some s.nodes.size := by
  rw [Scan.idOf?, h.index, Node.key, List.lookup_cons_self]

/-- Adding a module is growing. -/
theorem grows (h : s.Adds n s') : s.Grows s' where
  nodes := by simp [h.nodes]
  idOf := by
    intro name id hid
    have hne : Text.lowercase name ≠ n.key := by
      intro heq
      have : s.idOf? name = s.idOf? n.name := by simp only [idOf?, heq, Node.key]
      rw [this, h.fresh] at hid
      cases hid
    rw [idOf?, h.index, List.lookup_cons, beq_eq_false_iff_ne.2 hne]
    exact hid

end Adds

/-- Of the modules, only the one at the position is changed, and only in that it is a root now. -/
theorem getElem?_markRoot (s : Scan) (id i : Nat) : (s.markRoot id).nodes[i]? =
    s.nodes[i]?.map fun n => { n with isRoot := n.isRoot || decide (i = id) } := by
  rw [markRoot, Array.getElem?_modify]
  split
  · next h => cases s.nodes[i]? <;> simp [h]
  · next h =>
    have hi : decide (i = id) = false := decide_eq_false (Ne.symm h)
    simp [hi]

/-- To note of a root that it is one changes nothing. -/
theorem markRoot_eq_self (h : ∀ n ∈ s.nodes, n.isRoot = true) : s.markRoot id = s := by
  have hnodes : (s.markRoot id).nodes = s.nodes := by
    refine Array.ext_getElem? fun i => ?_
    rw [getElem?_markRoot]
    cases hn : s.nodes[i]? with
    | none => rfl
    | some n =>
      have hroot : n.isRoot = true := h n (Array.mem_of_getElem? hn)
      rw [Option.map_some, hroot, Bool.true_or, ← hroot]
  exact congrArg (fun nodes => { s with nodes }) hnodes

/-- A root is added, or there is a module of its name, which is a root from now on. -/
theorem addRoot_cases (h : s.addRoot path = .ok s') :
    ∃ name, path.moduleName? = some name ∧
      ((∃ id, s.idOf? name = some id ∧ s' = s.markRoot id) ∨ s.Adds (.ofRoot name path) s') := by
  simp only [addRoot] at h
  split at h
  · cases h
  · next name hname =>
    refine ⟨name, hname, ?_⟩
    split at h
    · next id hid =>
      cases h
      exact .inl ⟨id, hid, rfl⟩
    · next hnew =>
      cases h
      exact .inr ⟨hnew, rfl, rfl, rfl, rfl⟩

/-- Adding a root looks nothing up. -/
theorem cache_addRoot (h : s.addRoot path = .ok s') : s'.cache = s.cache := by
  simp only [addRoot] at h
  split at h
  · cases h
  · split at h
    · cases h
      rfl
    · cases h
      rfl

/-! ### Looking up a name -/

/-- A name that is known is not looked up again. -/
theorem resolve_of_known (h : s.idOf? name = some id) :
    s.resolve p t importer depth name = (id, s) := by
  simp only [resolve, h]

/-- A name that is not known yet adds one module, the one that the search path finds. -/
theorem adds_resolve (h : s.idOf? name = none) :
    s.Adds (.ofHit name depth (p.search t name importer s.cache).1)
      (s.resolve p t importer depth name).2 := by
  simp only [resolve, h]
  exact ⟨by rw [Node.name_ofHit, h], rfl, rfl, rfl, by rw [Node.isRoot_ofHit]; rfl⟩

/-- A name that is not known yet gets the next position. -/
theorem resolve_fst_of_new (h : s.idOf? name = none) :
    (s.resolve p t importer depth name).1 = s.nodes.size := by
  simp only [resolve, h]

/-- A name that is not known yet is looked up once. -/
theorem cache_resolve (h : s.idOf? name = none) :
    (s.resolve p t importer depth name).2.cache = (p.search t name importer s.cache).2 := by
  simp only [resolve, h]
  rfl

/-- Resolving a name makes a scan grow. -/
theorem grows_resolve (s : Scan) (name : String) :
    s.Grows (s.resolve p t importer depth name).2 := by
  cases h : s.idOf? name with
  | some id =>
    rw [resolve_of_known h]
    exact .refl s
  | none => exact (adds_resolve h).grows

/-- A name that has been looked up is known, under the position that the lookup gave. -/
theorem idOf?_resolve (s : Scan) (name : String) :
    (s.resolve p t importer depth name).2.idOf? name =
      some (s.resolve p t importer depth name).1 := by
  cases h : s.idOf? name with
  | some id => rw [resolve_of_known h, h]
  | none =>
    rw [resolve_fst_of_new h]
    have hadds : s.Adds (.ofHit name depth (p.search t name importer s.cache).1)
        (s.resolve p t importer depth name).2 := adds_resolve h
    have hself := hadds.idOf?_self
    rwa [Node.name_ofHit] at hself

/-! ### Connecting a module -/

/-- A dependency that stands for an imported DLL and leads to the module of that name. -/
structure Connects (s : Scan) (dll : ImportedDll) (d : Dependency) : Prop where
  dllName : d.dllName = dll.name
  delayLoad : d.delayLoad = dll.delayLoad
  imports : d.imports = dll.symbols.map .unmatched
  target : s.idOf? dll.name = some d.target

/-- A dependency stays connected while names stay known. -/
theorem Connects.mono {s' : Scan} {dll : ImportedDll} {d : Dependency} (h : s.Connects dll d)
    (hs : ∀ {name id}, s.idOf? name = some id → s'.idOf? name = some id) : s'.Connects dll d :=
  { h with target := hs h.target }

/-- What adding the module that the search path finds preserves, connecting preserves. -/
theorem connect_preserves {P : Scan → Prop}
    (hadd : ∀ s s', ∀ dll ∈ dlls,
      s.Adds (.ofHit dll.name depth (p.search t dll.name importer s.cache).1) s' →
      s'.cache = (p.search t dll.name importer s.cache).2 → P s → P s')
    (hs : P s) : P (s.connect p t importer depth dlls).2 := by
  induction dlls generalizing s with
  | nil => exact hs
  | cons dll rest ih =>
    have hresolve : P (s.resolve p t importer depth dll.name).2 := by
      cases h : s.idOf? dll.name with
      | some id =>
        rw [resolve_of_known h]
        exact hs
      | none => exact hadd _ _ dll (List.mem_cons_self ..) (adds_resolve h) (cache_resolve h) hs
    exact ih (fun s s' dll hdll => hadd s s' dll (List.mem_cons_of_mem _ hdll)) hresolve

/-- Connecting to some DLLs makes a scan grow. -/
theorem grows_connect (s : Scan) (dlls : List ImportedDll) :
    s.Grows (s.connect p t importer depth dlls).2 := by
  induction dlls generalizing s with
  | nil => exact .refl s
  | cons dll rest ih => exact (grows_resolve s dll.name).trans (ih _)

/-- The dependencies of a module are its imports, one by one. -/
theorem forall₂_connect (s : Scan) (dlls : List ImportedDll) :
    List.Forall₂ (s.connect p t importer depth dlls).2.Connects dlls
      (s.connect p t importer depth dlls).1 := by
  induction dlls generalizing s with
  | nil => exact .nil
  | cons dll rest ih =>
    refine .cons ⟨rfl, rfl, rfl, ?_⟩ (ih _)
    exact (grows_connect _ rest).idOf (idOf?_resolve s dll.name)

/-- Connecting a module adds modules of one depth that are not roots, behind the others. -/
theorem exists_nodes_connect (s : Scan) (dlls : List ImportedDll) :
    ∃ fresh, (s.connect p t importer depth dlls).2.nodes.toList = s.nodes.toList ++ fresh ∧
      ∀ n ∈ fresh, ∃ name hit, n = .ofHit name depth hit := by
  refine connect_preserves (P := fun s' => ∃ fresh, s'.nodes.toList = s.nodes.toList ++ fresh ∧
    ∀ n ∈ fresh, ∃ name hit, n = .ofHit name depth hit) ?_ ⟨[], by simp⟩
  rintro s₁ s₂ dll - ha - ⟨fresh, heq, hfresh⟩
  refine ⟨fresh ++ [.ofHit dll.name depth (p.search t dll.name importer s₁.cache).1], ?_, ?_⟩
  · rw [ha.nodes, Array.toList_push, heq, List.append_assoc]
  · intro n hn
    rcases List.mem_append.1 hn with hn | hn
    · exact hfresh n hn
    · exact ⟨_, _, List.mem_singleton.1 hn⟩

/-- Every module that is added while a module is connected is the target of a dependency. -/
theorem exists_target_connect (s : Scan) (dlls : List ImportedDll)
    (hold : s.nodes.size ≤ id)
    (hid : id < (s.connect p t importer depth dlls).2.nodes.size) :
    ∃ d ∈ (s.connect p t importer depth dlls).1, d.target = id := by
  induction dlls generalizing s with
  | nil => exact absurd hid (Nat.not_lt.2 hold)
  | cons dll rest ih =>
    by_cases hrest : (s.resolve p t importer depth dll.name).2.nodes.size ≤ id
    · obtain ⟨d, hd, htarget⟩ := ih _ hrest hid
      exact ⟨d, List.mem_cons_of_mem _ hd, htarget⟩
    · refine ⟨_, List.mem_cons_self .., ?_⟩
      -- Only one module has been added by then, for the first of the imports.
      show (s.resolve p t importer depth dll.name).1 = id
      cases h : s.idOf? dll.name with
      | some known =>
        rw [resolve_of_known h] at hrest
        exact absurd hold hrest
      | none =>
        rw [(adds_resolve h).nodes, Array.size_push] at hrest
        rw [resolve_fst_of_new h]
        omega

/-! ### Steps -/

/-- Write the module that has been read at its position. -/
def settle (s : Scan) (id : Nat) (n : Node) : Scan :=
  { s with nodes := s.nodes.setIfInBounds id n }

/-- Settling a module changes that module only. -/
theorem getElem?_settle {i : Nat} {m : Node} (hn : s.nodes[id]? = some n) :
    (s.settle id m).nodes[i]? = if i = id then some m else s.nodes[i]? := by
  have hid : id < s.nodes.size := (Array.getElem?_eq_some_iff.1 hn).1
  by_cases h : i = id
  · subst h
    simp [settle, hid]
  · simp [settle, h, Ne.symm h]

/-- Writing a module that was met as the one at its position changes nothing of what was met. -/
theorem met_settle {m : Node} (hn : s.nodes[id]? = some n)
    (hm : m.asMet = n.asMet) : (s.settle id m).met = s.met := by
  apply List.ext_getElem?
  intro i
  rw [getElem?_met, getElem?_met, getElem?_settle hn]
  split
  · next h => rw [h, hn, Option.map_some, Option.map_some, hm]
  · rfl

/-- The scan that connects the module at the head of a queue, and the dependencies of that module:
what a step computes before it writes them down. -/
def connectAt (s : Scan) (p : SearchPath) (t : FileTree) (queue : List Nat) (path : Path)
    (n : Node) : List Dependency × Scan :=
  { s with queue }.connect p t path (n.depth + 1) (n.read t).importedDlls

/-- A step reads the first module of the queue, if it has a file, and connects it. -/
theorem step_cases (h : s.step p t = some s') :
    ∃ id queue, s.queue = id :: queue ∧
      ((∃ n path, s.nodes[id]? = some n ∧ n.path = some path ∧
          s' = (s.connectAt p t queue path n).2.settle id
            (n.connected t (s.connectAt p t queue path n).1)) ∨
        ((∀ n, s.nodes[id]? = some n → n.path = none) ∧ s' = { s with queue })) := by
  cases hq : s.queue with
  | nil => simp [step, hq] at h
  | cons id queue =>
    refine ⟨id, queue, rfl, ?_⟩
    simp only [step, hq, Option.some.injEq] at h
    cases hn : s.nodes[id]? with
    | none =>
      refine .inr ⟨by simp, ?_⟩
      simpa only [process, hn] using h.symm
    | some n =>
      cases hpath : n.path with
      | none =>
        refine .inr ⟨by simp [hpath], ?_⟩
        simpa only [process, hn, hpath] using h.symm
      | some path =>
        refine .inl ⟨n, path, rfl, hpath, ?_⟩
        simp only [process, hn, hpath, Node.depth_read] at h
        simp only [connectAt, settle, Node.connected, Node.depth_read]
        exact h.symm

/-- What a step does to the modules: it replaces the one that it reads, and adds those that this one
is the first to import, one layer below it. -/
structure Reads (t : FileTree) (s : Scan) (id : Nat) (n : Node) (dependencies : List Dependency)
    (fresh : List Node) (s' : Scan) : Prop where
  old : s.nodes[id]? = some n
  nodes : s'.nodes.toList = s.nodes.toList.set id (n.connected t dependencies) ++ fresh
  fresh : ∀ m ∈ fresh, ∃ name hit, m = .ofHit name (n.depth + 1) hit
  targets : ∀ i, s.nodes.size ≤ i → i < s'.nodes.size → ∃ d ∈ dependencies, d.target = i

/-- Taking a module reads it, and adds those among its dependencies that were not known. -/
theorem reads_connectAt (p : SearchPath) (queue : List Nat) (path : Path)
    (hn : s.nodes[id]? = some n) :
    ∃ fresh, s.Reads t id n (s.connectAt p t queue path n).1 fresh
      ((s.connectAt p t queue path n).2.settle id
        (n.connected t (s.connectAt p t queue path n).1)) := by
  obtain ⟨fresh, hnodes, hfresh⟩ : ∃ fresh,
      (s.connectAt p t queue path n).2.nodes.toList = s.nodes.toList ++ fresh ∧
        ∀ m ∈ fresh, ∃ name hit, m = .ofHit name (n.depth + 1) hit := exists_nodes_connect _ _
  refine ⟨fresh, hn, ?_, hfresh, fun i hi hlt => ?_⟩
  · have hid : id < s.nodes.toList.length := by
      rw [Array.length_toList]
      exact (Array.getElem?_eq_some_iff.1 hn).1
    simp only [settle, Array.toList_setIfInBounds, hnodes]
    exact List.set_append_left _ _ hid
  · simp only [settle, Array.size_setIfInBounds] at hlt
    exact exists_target_connect _ _ hi hlt

namespace Reads

variable {i : Nat} {m : Node} {dependencies : List Dependency} {fresh : List Node}

theorem met (h : s.Reads t id n dependencies fresh s') :
    s'.met = s.met ++ fresh.map Node.asMet := by
  rw [Scan.met, h.nodes, List.map_append, List.map_set, Node.asMet_connected]
  congr 1
  obtain ⟨hlt, rfl⟩ := Array.getElem?_eq_some_iff.1 h.old
  rw [← Array.getElem_toList, ← List.map_set, List.set_getElem_self]
  rfl

/-- The module that is read gets its dependencies. -/
theorem getElem?_self (h : s.Reads t id n dependencies fresh s') :
    s'.nodes[id]? = some (n.connected t dependencies) := by
  have hlt : id < s.nodes.toList.length := by
    rw [Array.length_toList]
    exact (Array.getElem?_eq_some_iff.1 h.old).1
  rw [← Array.getElem?_toList, h.nodes, List.getElem?_append_left (by simpa using hlt),
    List.getElem?_set_self hlt]

/-- Any other module stays as it is. -/
theorem getElem?_of_ne (h : s.Reads t id n dependencies fresh s') (hi : i ≠ id)
    (hm : s.nodes[i]? = some m) : s'.nodes[i]? = some m := by
  have hlt : i < s.nodes.toList.length := by
    rw [Array.length_toList]
    exact (Array.getElem?_eq_some_iff.1 hm).1
  rw [← Array.getElem?_toList, h.nodes, List.getElem?_append_left (by simpa using hlt),
    List.getElem?_set_ne hi.symm, Array.getElem?_toList, hm]

/-- After a step, a module is the one that was read, one that was there before, or a new one. -/
theorem cases (h : s.Reads t id n dependencies fresh s') (hm : s'.nodes[i]? = some m) :
    (i = id ∧ m = n.connected t dependencies) ∨ (i ≠ id ∧ s.nodes[i]? = some m) ∨ m ∈ fresh := by
  by_cases hi : i = id
  · subst hi
    rw [h.getElem?_self] at hm
    exact .inl ⟨rfl, (Option.some.inj hm).symm⟩
  · rw [← Array.getElem?_toList, h.nodes, List.getElem?_append] at hm
    split at hm
    · rw [List.getElem?_set_ne (Ne.symm hi), Array.getElem?_toList] at hm
      exact .inr (.inl ⟨hi, hm⟩)
    · exact .inr (.inr (List.mem_of_getElem? hm))

end Reads

/-! ### The analysis of a scan -/

/-- The modules of the result are those of the scan, with their imports paired. -/
theorem getElem?_toAnalysis (s : Scan) (id : Nat) :
    s.toAnalysis.nodes[id]? = s.nodes[id]?.map (Node.paired s.nodes) := by
  simp [toAnalysis]

end Scan

end DllGraph
