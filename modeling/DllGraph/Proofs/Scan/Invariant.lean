import DllGraph.Proofs.Scan.Growth

/-!
# The Invariant of a Scan

A scan keeps four records of its modules: the modules themselves, the index of their names, the
queue of those that wait to be read, and the list of roots. They are written by different
operations. This module states what the records have to do with each other, and proves it of every
state that a scan passes through.

The queue is tied to the modules by the positions that have been taken from it: those, and then
those that are still in it, are the positions of all modules with a file, in ascending order
(`Scan.Registered.queue`). So a position occurs once, is never taken twice, and is never lost.

## Main definitions

* `Scan.Reached`, the states that a scan passes through, with the files that have been added and
  the positions that have been taken from the queue;
* `Scan.Registered`, how the four records agree;
* `Scan.Filled`, what has been written into the modules that were read, and into no others.

## Main results

* `Scan.Reached.registered` and `Scan.Reached.filled` — both hold in every such state;
* `Scan.Reached.exists_target` — every dependency leads to the module of the name it mentions;
* `Scan.reached_of_addRoots` and `Scan.exists_addRoots_of_ofRoots` — an analysis is what a run
  leaves that starts in such a state.
-/

namespace DllGraph.Scan

/-- The states that a scan passes through, with the files to start from that have been added by
then, and the positions that have been taken from the queue. -/
inductive Reached (p : SearchPath) (t : FileTree) (cache : SearchCache) :
    List Path → List Nat → Scan → Prop
  | empty : Reached p t cache [] [] (.empty cache)
  | addRoot {given : List Path} {s s' : Scan} {path : Path} :
      Reached p t cache given [] s → s.addRoot path = .ok s' →
      Reached p t cache (given ++ [path]) [] s'
  | step {given : List Path} {taken queue : List Nat} {id : Nat} {s s' : Scan} :
      Reached p t cache given taken s → s.queue = id :: queue → s.step p t = some s' →
      Reached p t cache given (taken ++ [id]) s'

variable {p : SearchPath} {t : FileTree} {cache : SearchCache} {given : List Path}
  {taken queue : List Nat} {id : Nat} {n : Node} {path : Path} {s s' : Scan}

/-! ### The records of a scan -/

/-- How the records of a scan agree, once some positions have been taken from the queue. -/
structure Registered (s : Scan) (taken : List Nat) : Prop where
  /-- The index leads from the names of the modules, and from no others, to their positions. -/
  index : ∀ {key i}, s.index.lookup key = some i ↔ ∃ n, s.met[i]? = some n ∧ n.key = key
  /-- All modules with a file have been queued, in order. -/
  queue : taken ++ s.queue = positions Node.isFound s.met
  roots : s.roots = positions Node.isRoot s.met
  rootMet : ∀ n ∈ s.met, n.isRoot → n.depth = 0 ∧ n.location = none
  /-- All roots are added before the first step. -/
  rootsFirst : taken = [] → ∀ n ∈ s.met, n.isRoot

namespace Registered

/-- A name is known at a position if and only if the module there has it, but for case. -/
theorem idOf?_eq_some_iff (h : s.Registered taken) {name : String} {i : Nat} :
    s.idOf? name = some i ↔ ∃ n, s.nodes[i]? = some n ∧ n.key = Text.lowercase name := by
  rw [Scan.idOf?, h.index]
  simp [getElem?_met]

/-- Modules of one name are one module. -/
theorem eq_of_key (h : s.Registered taken) {i j : Nat} {n m : Node} (hn : s.nodes[i]? = some n)
    (hm : s.nodes[j]? = some m) (hkey : n.key = m.key) : i = j := by
  have hi : s.idOf? m.name = some i := h.idOf?_eq_some_iff.2 ⟨n, hn, hkey⟩
  have hj : s.idOf? m.name = some j := h.idOf?_eq_some_iff.2 ⟨m, hm, rfl⟩
  rw [hi] at hj
  exact Option.some.inj hj

/-- A position that is taken from the queue, or waits in it, is that of a module with a file. -/
theorem mem_queued_iff (h : s.Registered taken) {i : Nat} :
    i ∈ taken ++ s.queue ↔ ∃ n, s.nodes[i]? = some n ∧ n.isFound = true := by
  rw [h.queue, mem_positions]
  simp [getElem?_met]

/-- No module is taken or queued twice. -/
theorem nodup_queued (h : s.Registered taken) : (taken ++ s.queue).Nodup := by
  rw [h.queue]
  exact (pairwise_positions _ _).imp Nat.ne_of_lt

/-- Nothing that waits in the queue has been taken from it before. -/
theorem not_mem_taken (h : s.Registered taken) {i : Nat} (hi : i ∈ s.queue) : i ∉ taken :=
  fun htaken => (List.nodup_append.1 h.nodup_queued).2.2 i htaken i hi rfl

/-- Positions are taken from the queue in ascending order. -/
theorem lt_of_mem (h : s.Registered taken) {i j : Nat} (hi : i ∈ taken) (hj : j ∈ s.queue) :
    i < j := by
  have hpositions := pairwise_positions Node.isFound s.met
  rw [← h.queue, List.pairwise_append] at hpositions
  exact hpositions.2.2 i hi j hj

/-- The roots are the modules that are marked so. -/
theorem mem_roots_iff (h : s.Registered taken) {i : Nat} :
    i ∈ s.roots ↔ ∃ n, s.nodes[i]? = some n ∧ n.isRoot = true := by
  rw [h.roots, mem_positions]
  simp [getElem?_met]

/-- Nothing is registered yet. -/
theorem empty : (Scan.empty cache).Registered [] where
  index := by simp [Scan.empty, Scan.met]
  queue := rfl
  roots := rfl
  rootMet := by simp [Scan.empty, Scan.met]
  rootsFirst := by simp [Scan.empty, Scan.met]

/-- A module that is added is entered into all records that concern it. -/
theorem add (h : s.Registered taken) (ha : s.Adds n s')
    (hmet : n.isRoot → n.depth = 0 ∧ n.location = none) (hfirst : taken = [] → n.isRoot) :
    s'.Registered taken where
  index := by
    intro key i
    -- The name is new, so no other module has it.
    have hnew : ¬ ∃ m, s.met[i]? = some m ∧ m.key = n.key := by
      rw [← h.index]
      exact fun hi => Option.some_ne_none i (hi.symm.trans ha.fresh)
    rw [ha.index, List.lookup_cons, ha.getElem?_met]
    by_cases hkey : key = n.key
    · subst hkey
      rw [beq_self_eq_true]
      constructor
      · intro hi
        cases hi
        exact ⟨n.asMet, if_pos rfl, rfl⟩
      · rintro ⟨m, hm, hmkey⟩
        split at hm
        · next hi => rw [hi]
        · exact absurd ⟨m, hm, hmkey⟩ hnew
    · rw [beq_eq_false_iff_ne.2 hkey]
      constructor
      · intro hi
        obtain ⟨m, hm, hmkey⟩ := h.index.1 hi
        have hlt : i < s.met.length := (List.getElem?_eq_some_iff.1 hm).1
        rw [length_met] at hlt
        exact ⟨m, by rw [if_neg (Nat.ne_of_lt hlt), hm], hmkey⟩
      · rintro ⟨m, hm, hmkey⟩
        split at hm
        · cases hm
          exact absurd hmkey.symm hkey
        · exact h.index.2 ⟨m, hm, hmkey⟩
  queue := by
    rw [ha.queue, ha.met, positions_append_singleton, ← h.queue, length_met, Node.isFound_asMet]
    split <;> simp
  roots := by
    rw [ha.roots, ha.met, positions_append_singleton, ← h.roots, length_met, Node.isRoot_asMet]
    split <;> simp
  rootMet := by
    intro m hm
    rw [ha.met, List.mem_append, List.mem_singleton] at hm
    rcases hm with hm | rfl
    · exact h.rootMet m hm
    · exact hmet
  rootsFirst := by
    intro htaken m hm
    rw [ha.met, List.mem_append, List.mem_singleton] at hm
    rcases hm with hm | rfl
    · exact h.rootsFirst htaken m hm
    · exact hfirst htaken

/-- A position moves from the queue to those that have been taken. -/
theorem take (h : s.Registered taken) (hq : s.queue = id :: queue) :
    { s with queue }.Registered (taken ++ [id]) where
  index := h.index
  queue := by
    rw [List.append_assoc, List.singleton_append, ← hq]
    exact h.queue
  roots := h.roots
  rootMet := h.rootMet
  rootsFirst := by simp

/-- Connecting to some DLLs keeps the order of the books. -/
theorem connect (h : s.Registered taken) (htaken : taken ≠ []) {importer : Path} {depth : Nat}
    {dlls : List ImportedDll} : (s.connect p t importer depth dlls).2.Registered taken :=
  connect_preserves (P := (Registered · taken))
    (fun _ _ _ _ ha _ hs => hs.add ha (by simp) fun hnil => absurd hnil htaken) h

/-- Settling a module that was met keeps the order of the books. -/
theorem settle (h : s.Registered taken) (hn : s.nodes[id]? = some n) {m : Node}
    (hm : m.asMet = n.asMet) : (s.settle id m).Registered taken := by
  have hmet := met_settle hn hm
  exact {
    index := by rw [hmet]; exact h.index
    queue := by rw [hmet]; exact h.queue
    roots := by rw [hmet]; exact h.roots
    rootMet := by rw [hmet]; exact h.rootMet
    rootsFirst := by rw [hmet]; exact h.rootsFirst }

/-- The module at the head of the queue has a file, and a step reads that file. -/
theorem step_cases (h : s.Registered taken) (hq : s.queue = id :: queue)
    (hs : s.step p t = some s') :
    ∃ n path, s.nodes[id]? = some n ∧ n.path = some path ∧
      s' = (s.connectAt p t queue path n).2.settle id
        (n.connected t (s.connectAt p t queue path n).1) := by
  obtain ⟨i, rest, hq', hcases⟩ := Scan.step_cases hs
  rw [hq, List.cons.injEq] at hq'
  obtain ⟨rfl, rfl⟩ := hq'
  rcases hcases with hread | ⟨hnone, -⟩
  · exact hread
  · obtain ⟨n, hn, hfound⟩ := h.mem_queued_iff.1 (by simp [hq] : id ∈ taken ++ s.queue)
    simp [Node.isFound, hnone n hn] at hfound

/-- A step takes the first module of the queue, and keeps the order of the books. -/
theorem step (h : s.Registered taken) (hq : s.queue = id :: queue)
    (hs : s.step p t = some s') : s'.Registered (taken ++ [id]) := by
  obtain ⟨n, path, hn, -, rfl⟩ := h.step_cases hq hs
  have hconnect : (s.connectAt p t queue path n).2.Registered (taken ++ [id]) :=
    (h.take hq).connect (by simp)
  have hgrows : { s with queue }.Grows (s.connectAt p t queue path n).2 := grows_connect _ _
  exact hconnect.settle (hgrows.getElem? hn) (by simp)

/-- A step reads the first module of the queue. -/
theorem reads_step (h : s.Registered taken) (hq : s.queue = id :: queue)
    (hs : s.step p t = some s') :
    ∃ n dependencies fresh, s.Reads t id n dependencies fresh s' := by
  obtain ⟨n, path, hn, -, rfl⟩ := h.step_cases hq hs
  obtain ⟨fresh, hreads⟩ := reads_connectAt p queue path hn
  exact ⟨n, _, fresh, hreads⟩

/-- Before the first step, all modules are roots, so a root is added, or its name is known and
nothing changes. -/
theorem addRoot_cases (h : s.Registered []) (ha : s.addRoot path = .ok s') :
    ∃ name, path.moduleName? = some name ∧
      ((∃ id, s.idOf? name = some id) ∧ s' = s ∨ s.Adds (.ofRoot name path) s') := by
  obtain ⟨name, hname, ⟨id, hid, rfl⟩ | hadds⟩ := Scan.addRoot_cases ha
  · have hroots : ∀ n ∈ s.nodes, n.isRoot = true := fun n hn =>
      h.rootsFirst rfl n.asMet (asMet_mem_met hn)
    exact ⟨name, hname, .inl ⟨⟨id, hid⟩, markRoot_eq_self hroots⟩⟩
  · exact ⟨name, hname, .inr hadds⟩

/-- Adding a root keeps the order of the books. -/
theorem addRoot (h : s.Registered []) (ha : s.addRoot path = .ok s') : s'.Registered [] := by
  obtain ⟨name, -, ⟨-, rfl⟩ | hadds⟩ := h.addRoot_cases ha
  · exact h
  · exact h.add hadds (fun _ => ⟨rfl, rfl⟩) fun _ => rfl

end Registered

/-- The records agree in every state that a scan passes through. -/
theorem Reached.registered (h : Reached p t cache given taken s) : s.Registered taken := by
  induction h with
  | empty => exact .empty
  | addRoot _ ha ih => exact ih.addRoot ha
  | step _ hq hs ih => exact ih.step hq hs

/-! ### What has been read -/

/-- A module that has been read: it is what its file says, and its dependencies are its imports. -/
structure Settled (t : FileTree) (s : Scan) (n : Node) : Prop where
  eq : n = n.asMet.connected t n.dependencies
  dependencies : List.Forall₂ s.Connects n.importedDlls n.dependencies

/-- What is settled stays so while names stay known. -/
theorem Settled.mono (h : s.Settled t n)
    (hs : ∀ {name id}, s.idOf? name = some id → s'.idOf? name = some id) : s'.Settled t n where
  eq := h.eq
  dependencies := h.dependencies.imp fun _ _ hd => hd.mono hs

/-- The modules that have been taken from the queue have been read, and the others have not. -/
structure Filled (t : FileTree) (s : Scan) (taken : List Nat) : Prop where
  unread : ∀ {id n}, s.nodes[id]? = some n → id ∉ taken → n = n.asMet
  read : ∀ {id n}, s.nodes[id]? = some n → id ∈ taken → s.Settled t n

namespace Filled

/-- A module that depends on something has been taken from the queue. -/
theorem mem_taken (h : s.Filled t taken) (hn : s.nodes[id]? = some n) {d : Dependency}
    (hd : d ∈ n.dependencies) : id ∈ taken := by
  by_contra hid
  rw [h.unread hn hid] at hd
  cases hd

/-- A module that is added has not been read. -/
theorem add (h : s.Filled t taken) (ha : s.Adds n s') (hn : n = n.asMet)
    (htaken : s.nodes.size ∉ taken) : s'.Filled t taken where
  unread := by
    intro id m hm hid
    rw [ha.getElem?] at hm
    split at hm
    · cases hm
      exact hn
    · exact h.unread hm hid
  read := by
    intro id m hm hid
    rw [ha.getElem?] at hm
    split at hm
    · next heq => exact absurd (heq ▸ hid) htaken
    · exact (h.read hm hid).mono ha.grows.idOf

/-- Connecting a module reads no other one. -/
theorem connect (h : s.Filled t taken) (hsize : ∀ id ∈ taken, id < s.nodes.size)
    {importer : Path} {depth : Nat} {dlls : List ImportedDll} :
    (s.connect p t importer depth dlls).2.Filled t taken := by
  refine (connect_preserves (P := fun s => (∀ id ∈ taken, id < s.nodes.size) ∧ s.Filled t taken)
    ?_ ⟨hsize, h⟩).2
  intro s s' dll _ ha _ hs
  constructor
  · intro id hid
    rw [ha.nodes, Array.size_push]
    exact Nat.lt_succ_of_lt (hs.1 id hid)
  · exact hs.2.add ha (by simp) fun hmem => Nat.lt_irrefl _ (hs.1 _ hmem)

/-- A step fills the module that it takes, and no other one. -/
theorem step (h : s.Filled t taken) (hr : s.Registered taken) (hq : s.queue = id :: queue)
    (hs : s.step p t = some s') : s'.Filled t (taken ++ [id]) := by
  obtain ⟨n, path, hn, hpath, rfl⟩ := hr.step_cases hq hs
  have hgrows : { s with queue }.Grows (s.connectAt p t queue path n).2 := grows_connect _ _
  have hn' : (s.connectAt p t queue path n).2.nodes[id]? = some n := hgrows.getElem? hn
  have hsize : ∀ i ∈ taken, i < s.nodes.size := by
    intro i hi
    obtain ⟨m, hm, -⟩ := hr.mem_queued_iff.1 (List.mem_append_left _ hi)
    exact (Array.getElem?_eq_some_iff.1 hm).1
  have hconnect : (s.connectAt p t queue path n).2.Filled t taken :=
    connect (s := { s with queue })
      ⟨h.unread, fun hm hi => (h.read hm hi).mono fun hidOf => hidOf⟩ hsize
  have hid : id ∉ taken := hr.not_mem_taken (by rw [hq]; exact List.mem_cons_self ..)
  have hsettled : (s.connectAt p t queue path n).2.Settled t
      (n.connected t (s.connectAt p t queue path n).1) := by
    refine ⟨?_, forall₂_connect _ _⟩
    rw [Node.asMet_connected, ← h.unread hn hid]
    rfl
  constructor
  · intro i m hm hi
    rw [List.mem_append, List.mem_singleton, not_or] at hi
    rw [getElem?_settle hn', if_neg hi.2] at hm
    exact hconnect.unread hm hi.1
  · intro i m hm hi
    rw [getElem?_settle hn'] at hm
    split at hm
    · cases hm
      exact hsettled.mono fun hidOf => hidOf
    · next hne =>
      rw [List.mem_append, List.mem_singleton, or_iff_left hne] at hi
      exact (hconnect.read hm hi).mono fun hidOf => hidOf

/-- Adding a root fills nothing. -/
theorem addRoot (h : s.Filled t []) (hr : s.Registered []) (ha : s.addRoot path = .ok s') :
    s'.Filled t [] := by
  obtain ⟨name, -, ⟨-, rfl⟩ | hadds⟩ := hr.addRoot_cases ha
  · exact h
  · exact h.add hadds rfl List.not_mem_nil

end Filled

/-- In every state that a scan passes through, the modules that were taken from the queue have been
read, and no others. -/
theorem Reached.filled (h : Reached p t cache given taken s) : s.Filled t taken := by
  induction h with
  | empty => exact ⟨by simp [Scan.empty], by simp⟩
  | addRoot h ha ih => exact ih.addRoot h.registered ha
  | step h hq hs ih => exact ih.step h.registered hq hs

/-- Every dependency of a module leads to the module of the name that it imports. -/
theorem Reached.exists_target (h : Reached p t cache given taken s) {m : Node}
    (hm : m ∈ s.nodes) {d : Dependency} (hd : d ∈ m.dependencies) :
    ∃ n, s.nodes[d.target]? = some n ∧ n.key = Text.lowercase d.dllName := by
  obtain ⟨i, hi⟩ := Array.mem_iff_getElem?.1 hm
  have hsettled : s.Settled t m := h.filled.read hi (h.filled.mem_taken hi hd)
  obtain ⟨dll, -, hdll⟩ := exists_left_of_forall₂ hsettled.dependencies hd
  rw [hdll.dllName]
  exact h.registered.idOf?_eq_some_iff.1 hdll.target

/-! ### Whole runs -/

/-- A state after some roots is one after more of them. -/
theorem Reached.addRoots {roots : List Path} (h : Reached p t cache given [] s)
    (hs : s.addRoots roots = .ok s') : Reached p t cache (given ++ roots) [] s' := by
  induction roots generalizing given s with
  | nil =>
    cases hs
    rwa [List.append_nil]
  | cons path rest ih =>
    simp only [Scan.addRoots] at hs
    split at hs
    · cases hs
    · next hpath =>
      rw [List.append_cons]
      exact ih (h.addRoot hpath) hs

/-- The state in which a scan starts is one of its states. -/
theorem reached_of_addRoots {roots : List Path} (hs : (Scan.empty cache).addRoots roots = .ok s) :
    Reached p t cache roots [] s := by
  simpa using Reached.empty.addRoots hs

/-- An analysis is what a run leaves, from the state in which all roots have been added. -/
theorem exists_addRoots_of_ofRoots {roots : List Path} {a : Analysis} {c : SearchCache}
    (h : Analysis.ofRoots p t cache roots = .ok (a, c)) :
    ∃ s, (Scan.empty cache).addRoots roots = .ok s ∧ a = (s.run p t).toAnalysis ∧
      c = (s.run p t).cache := by
  simp only [Analysis.ofRoots] at h
  split at h
  · cases h
  · split at h
    · cases h
    · next s hs =>
      cases h
      exact ⟨s, hs, rfl, rfl⟩

/-! ### A sample -/

/-- The bytes of a number, the lowest first. -/
def littleEndian : (width n : Nat) → List UInt8
  | 0, _ => []
  | width + 1, n => UInt8.ofNat n :: littleEndian width (n / 256)

/-- The one section of a sample image: the import directory, its lookup table, the export directory
with its three tables, and the names. -/
def sampleSection (dll : String) : List UInt8 :=
  littleEndian 4 4136 ++ List.replicate 8 0 ++ littleEndian 4 4202 ++ littleEndian 4 4136 ++
    List.replicate 20 0 ++
  littleEndian 4 0x80000001 ++ littleEndian 4 4198 ++ List.replicate 4 0 ++
  List.replicate 16 0 ++ littleEndian 4 1 ++ littleEndian 4 1 ++ littleEndian 4 1 ++
    littleEndian 4 4188 ++ littleEndian 4 4192 ++ littleEndian 4 4196 ++
  littleEndian 4 0x2000 ++ littleEndian 4 4200 ++ List.replicate 4 0 ++
  [0x66, 0] ++ dll.toList.map (fun c => UInt8.ofNat c.toNat) ++ [0]

/-- A small image. It imports the ordinal 1 and the name `f` from a DLL, and exports the ordinal 1
under the name `f` itself. -/
def sampleImage (dll : String) : ByteArray :=
  let size := littleEndian 4 (sampleSection dll).length
  ⟨([0x4D, 0x5A] ++ List.replicate 58 0 ++ littleEndian 4 64 ++
    [0x50, 0x45, 0, 0] ++ littleEndian 2 0x14C ++ littleEndian 2 1 ++ List.replicate 12 0 ++
      littleEndian 2 112 ++ littleEndian 2 0x2102 ++
    littleEndian 2 0x10B ++ List.replicate 90 0 ++ littleEndian 4 2 ++
      littleEndian 4 4148 ++ littleEndian 4 40 ++ littleEndian 4 4096 ++ littleEndian 4 40 ++
    List.replicate 8 0 ++ size ++ littleEndian 4 4096 ++ size ++ littleEndian 4 240 ++
      List.replicate 16 0 ++
    sampleSection dll).toArray⟩

/-- A program and a DLL that import from each other, under other casings than those of the files. -/
def sampleTree : FileTree where
  entries := [(["app.exe"], .file (sampleImage "B.DLL")),
    (["b.dll"], .file (sampleImage "APP.exe"))]
  workingDir := []

/-- The search path that has the directory of the sample program only. -/
def samplePath : SearchPath := ⟨[.workingDir ⟨"."⟩], none⟩

/-- A result that passes a test is no failure. -/
theorem exists_ok_of_any {ε α : Type} {x : Except ε α} {test : α → Bool}
    (h : x.toOption.any test = true) : ∃ a, x = .ok a ∧ test a = true := by
  cases x with
  | error e => cases h
  | ok a => exact ⟨a, rfl, h⟩

/-- The sample program and its DLL are both found. -/
theorem exists_sample :
    ∃ a c r n, Analysis.ofRoots samplePath sampleTree .empty [⟨"app.exe"⟩] = .ok (a, c) ∧
      a.nodes = #[r, n] ∧ (r.name = "app.exe" ∧ r.isRoot = true ∧ r.isFound = true) ∧
      n.name = "B.DLL" ∧ n.isRoot = false ∧ n.isFound = true := by
  obtain ⟨⟨a, c⟩, h, htest⟩ : ∃ x : Analysis × SearchCache,
      Analysis.ofRoots samplePath sampleTree .empty [⟨"app.exe"⟩] = .ok x ∧
        (x.1.nodes.toList.map fun n => (n.name, n.isRoot, n.isFound)) ==
          [("app.exe", true, true), ("B.DLL", false, true)] :=
    exists_ok_of_any (by decide +kernel)
  simp only [beq_iff_eq, List.map_eq_cons_iff, List.map_eq_nil_iff, Prod.mk.injEq] at htest
  obtain ⟨r, -, hnodes, hr, n, -, rfl, hn, rfl⟩ := htest
  exact ⟨a, c, r, n, h, Array.toList_inj.1 hnodes, hr, hn⟩

end DllGraph.Scan
