import DllGraph.Proofs.FileTree
import DllGraph.Proofs.Imports
import DllGraph.Proofs.Scan.Invariant

/-!
# Every Scan Ends

The queue of a scan grows while it is worked off, by modules that files of unknown content mention.
It becomes empty nevertheless. A module is either there at the start or named by a file of the tree,
no two modules have one name, and none is read twice; so there are no more steps than names
(`Scan.Registered.size_le`). The names that files mention are fewer than the bytes of the files,
which is why the bound that `Scan.run` goes by is never met.

## Main definitions

* `FileTree.Mentions`, that a file of a tree imports from a DLL;
* `FileTree.mentioned`, the lowercase names of all such DLLs.

## Main results

* `Scan.Reached.run_preserves` — what holds before a run and is preserved whenever a module is added
  holds after it;
* `Scan.Reached.run` — a run goes on until the queue is empty;
* `Scan.exists_finished_of_ofRoots` — an analysis is made of a state with an empty queue.
-/

namespace DllGraph

/-! ### Names in a tree -/

namespace FileTree

variable {t : FileTree} {dll : ImportedDll}

/-- Some file of the tree imports from the DLL. -/
def Mentions (t : FileTree) (dll : ImportedDll) : Prop :=
  ∃ path b, t.load path = .ok b ∧ dll ∈ Node.dllsOf b

/-- The lowercase names of the DLLs that the file of an entry imports from. -/
def mentionedBy : Entry → List String
  | .directory => []
  | .file b => (Node.dllsOf b).map fun dll => Text.lowercase dll.name

/-- The lowercase names of the DLLs that files of the tree import from. -/
def mentioned (t : FileTree) : List String :=
  t.entries.flatMap fun entry => mentionedBy entry.2

/-- The names that files mention are ASCII. -/
theorem Mentions.isAscii (h : t.Mentions dll) : Text.IsAscii dll.name := by
  obtain ⟨-, b, -, hdll⟩ := h
  exact isAscii_of_mem_dllsOf dll hdll

/-- The lowercase form of a name that a file mentions is one of those that are counted. -/
theorem Mentions.mem_mentioned (h : t.Mentions dll) : Text.lowercase dll.name ∈ t.mentioned := by
  obtain ⟨path, b, hload, hdll⟩ := h
  obtain ⟨place, -, hplace⟩ := exists_find_of_load hload
  exact List.mem_flatMap.2 ⟨_, mem_entries_of_at? hplace, List.mem_map_of_mem hdll⟩

/-- A file mentions no more names than it has bytes. -/
theorem length_mentionedBy_le (entry : Entry) : (mentionedBy entry).length ≤ Entry.size entry := by
  cases entry with
  | directory => exact Nat.zero_le _
  | file b =>
    rw [mentionedBy, List.length_map]
    exact length_dllsOf_le

/-- A tree has more bytes than its files mention names. -/
theorem length_mentioned_le (t : FileTree) : t.mentioned.length ≤ t.size := by
  rw [mentioned, size]
  induction t.entries with
  | nil => exact Nat.zero_le _
  | cons entry rest ih =>
    rw [List.flatMap_cons, List.length_append, List.foldr_cons]
    exact Nat.add_le_add (length_mentionedBy_le entry.2) ih

end FileTree

/-- What a module imports is mentioned in the tree. -/
theorem Node.mentions_of_mem_importedDlls {t : FileTree} {n : Node} {path : Path}
    (hpath : n.path = some path) (hn : n = n.asMet) {dll : ImportedDll}
    (hdll : dll ∈ (n.read t).importedDlls) : t.Mentions dll := by
  rw [importedDlls_read hpath (by rw [hn]; rfl)] at hdll
  cases hload : t.load path with
  | error e =>
    rw [hload] at hdll
    cases hdll
  | ok b =>
    rw [hload] at hdll
    exact ⟨path, b, hload, hdll⟩

namespace Scan

variable {p : SearchPath} {t : FileTree} {cache : SearchCache} {given : List Path}
  {taken queue : List Nat} {id : Nat} {s s' : Scan} {P : List Node → SearchCache → Prop}

/-! ### What a run preserves -/

/-- A property of the modules as they were met, and of what has been read of the tree, is preserved
whenever a module is added for a DLL that some file mentions. -/
def PreservedByAdding (p : SearchPath) (t : FileTree) (P : List Node → SearchCache → Prop) : Prop :=
  ∀ met c importer depth, ∀ dll, t.Mentions dll → P met c →
    P (met ++ [.ofHit dll.name depth (p.search t dll.name importer c).1])
      (p.search t dll.name importer c).2

/-- What is preserved whenever a module is added is preserved by a step. -/
theorem Reached.step_preserves (hadd : PreservedByAdding p t P)
    (h : Reached p t cache given taken s) (hq : s.queue = id :: queue)
    (hs : s.step p t = some s') (hP : P s.met s.cache) : P s'.met s'.cache := by
  obtain ⟨n, path, hn, hpath, rfl⟩ := h.registered.step_cases hq hs
  have hunread : n = n.asMet :=
    h.filled.unread hn (h.registered.not_mem_taken (by rw [hq]; exact List.mem_cons_self ..))
  have hconnect : P (s.connectAt p t queue path n).2.met
      (s.connectAt p t queue path n).2.cache := by
    refine connect_preserves (P := fun s => P s.met s.cache) ?_ hP
    intro s₁ s₂ dll hdll ha hcache hs₁
    rw [ha.met, hcache, Node.asMet_ofHit]
    exact hadd _ _ _ _ dll (Node.mentions_of_mem_importedDlls hpath hunread hdll) hs₁
  have hgrows : { s with queue }.Grows (s.connectAt p t queue path n).2 := grows_connect _ _
  rw [met_settle (hgrows.getElem? hn) (by simp)]
  exact hconnect

/-- What is preserved whenever a module is added is preserved by a run of any length. A run that
stops before it has made all of its steps leaves an empty queue. -/
theorem Reached.runFor_preserves (hadd : PreservedByAdding p t P) (fuel : Nat)
    (h : Reached p t cache given taken s) (hP : P s.met s.cache) :
    ∃ taken', Reached p t cache given taken' (Scan.runFor p t fuel s) ∧
      P (Scan.runFor p t fuel s).met (Scan.runFor p t fuel s).cache ∧
      ((Scan.runFor p t fuel s).queue = [] ∨ taken'.length = taken.length + fuel) := by
  induction fuel generalizing taken s with
  | zero => exact ⟨taken, h, hP, .inr rfl⟩
  | succ fuel ih =>
    cases hq : s.queue with
    | nil =>
      have hstop : Scan.runFor p t (fuel + 1) s = s := by simp only [Scan.runFor, Scan.step, hq]
      rw [hstop]
      exact ⟨taken, h, hP, .inl hq⟩
    | cons id queue =>
      obtain ⟨s', hs⟩ : ∃ s', s.step p t = some s' := by simp only [Scan.step, hq]; exact ⟨_, rfl⟩
      have hgo : Scan.runFor p t (fuel + 1) s = Scan.runFor p t fuel s' := by
        simp only [Scan.runFor, hs]
      rw [hgo]
      obtain ⟨taken', hr, hP', hend⟩ := ih (h.step hq hs) (h.step_preserves hadd hq hs hP)
      refine ⟨taken', hr, hP', hend.imp_right fun hlength => ?_⟩
      rw [hlength, List.length_append, List.length_singleton]
      omega

/-! ### The number of modules -/

/-- No two modules have one name. -/
theorem Registered.nodup_keys (h : s.Registered taken) : (s.met.map Node.key).Nodup := by
  rw [List.Nodup, List.pairwise_iff_getElem]
  intro i j hi hj hij hkey
  rw [List.length_map, length_met] at hi hj
  have hn := Array.getElem?_eq_getElem hi
  have hm := Array.getElem?_eq_getElem hj
  refine absurd (h.eq_of_key hn hm ?_) (Nat.ne_of_lt hij)
  simpa [met] using hkey

/-- The modules that were queued are no more than there are modules. -/
theorem Registered.length_queued_le (h : s.Registered taken) :
    taken.length + s.queue.length ≤ s.nodes.size := by
  rw [← List.length_append, h.queue, ← length_met]
  simpa [positions] using List.length_filter_le (fun e : Node × Nat => e.1.isFound) s.met.zipIdx

/-- The modules that a run adds to those at its start have names that the tree mentions. -/
def Extends (t : FileTree) (start : List Node) (met : List Node) (_ : SearchCache) : Prop :=
  ∃ fresh, met = start ++ fresh ∧ ∀ n ∈ fresh, n.key ∈ t.mentioned

/-- The modules that were there at the start stay there. -/
theorem preservedByAdding_extends (start : List Node) :
    PreservedByAdding p t (Extends t start) := by
  rintro met c importer depth dll hdll ⟨fresh, rfl, hfresh⟩
  refine ⟨fresh ++ [.ofHit dll.name depth (p.search t dll.name importer c).1],
    List.append_assoc .., ?_⟩
  intro n hn
  rcases List.mem_append.1 hn with hn | hn
  · exact hfresh n hn
  · rw [List.mem_singleton.1 hn, Node.key, Node.name_ofHit]
    exact hdll.mem_mentioned

/-- A run adds fewer modules than the tree has bytes. -/
theorem Registered.size_le (h : s.Registered taken) {start : List Node}
    (hstart : Extends t start s.met s.cache) : s.nodes.size ≤ start.length + t.size := by
  obtain ⟨fresh, hmet, hfresh⟩ := hstart
  have hnodup : (fresh.map Node.key).Nodup := by
    have hkeys := h.nodup_keys
    rw [hmet, List.map_append] at hkeys
    exact (List.nodup_append.1 hkeys).2.1
  have hsubset : fresh.map Node.key ⊆ t.mentioned := by
    intro key hkey
    obtain ⟨n, hn, rfl⟩ := List.mem_map.1 hkey
    exact hfresh n hn
  have hlength : fresh.length ≤ t.mentioned.length := by
    simpa using hnodup.length_le_of_subset hsubset
  have htree := t.length_mentioned_le
  have hsize : s.nodes.size = start.length + fresh.length := by
    rw [← length_met, hmet, List.length_append]
  omega

/-! ### Whole runs -/

/-- A run leaves an empty queue. What is preserved whenever a module is added is preserved by it. -/
theorem Reached.run_preserves (hadd : PreservedByAdding p t P) (h : Reached p t cache given [] s)
    (hP : P s.met s.cache) :
    ∃ taken, Reached p t cache given taken (s.run p t) ∧ (s.run p t).queue = [] ∧
      P (s.run p t).met (s.run p t).cache := by
  have hboth : PreservedByAdding p t fun met c => P met c ∧ Extends t s.met met c :=
    fun met c importer depth dll hdll h =>
      ⟨hadd met c importer depth dll hdll h.1, preservedByAdding_extends _ _ _ _ _ dll hdll h.2⟩
  obtain ⟨taken, hr, ⟨hP', hextends⟩, hend⟩ :=
    h.runFor_preserves hboth (s.nodes.size + t.size) ⟨hP, [], by simp, by simp⟩
  refine ⟨taken, hr, ?_, hP'⟩
  rcases hend with hempty | hlength
  · exact hempty
  · -- As many modules have been taken as there can be, so none is left.
    have hqueued := hr.registered.length_queued_le
    have hsize := hr.registered.size_le hextends
    rw [length_met] at hsize
    rw [List.length_nil] at hlength
    exact List.eq_nil_of_length_eq_zero (by rw [Scan.run]; omega)

/-- A run goes on until the queue is empty. -/
theorem Reached.run (h : Reached p t cache given [] s) :
    ∃ taken, Reached p t cache given taken (s.run p t) ∧ (s.run p t).queue = [] := by
  obtain ⟨taken, hrun, hempty, -⟩ :=
    h.run_preserves (P := fun _ _ => True) (fun _ _ _ _ _ _ _ => trivial) trivial
  exact ⟨taken, hrun, hempty⟩

/-- An analysis is made of a state in which nothing is left to read. -/
theorem exists_finished_of_ofRoots {roots : List Path} {a : Analysis} {c : SearchCache}
    (h : Analysis.ofRoots p t cache roots = .ok (a, c)) :
    ∃ taken s, Reached p t cache roots taken s ∧ s.queue = [] ∧ a = s.toAnalysis ∧ c = s.cache := by
  obtain ⟨s, hs, rfl, rfl⟩ := exists_addRoots_of_ofRoots h
  obtain ⟨taken, hrun, hempty⟩ := (reached_of_addRoots hs).run
  exact ⟨taken, _, hrun, hempty, rfl, rfl⟩

end Scan

end DllGraph
