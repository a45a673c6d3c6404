import DllGraph.Proofs.Scan.Roots
import DllGraph.Proofs.Scan.Termination
import Mathlib.Data.Set.Card

/-!
# The Loop of a Scan

A scan is a loop that takes a position from the queue and reads the module there, until the queue is
empty. `Scan.Takes` is that loop, without any bound on the number of its rounds: it relates two
states by the positions that are taken on the way from the one to the other.

From the state in which all roots have been added, the loop comes to an end, in which every module
with a file has been taken once and no other module ever. There are no more modules than names for
them: each has the name of a root, or one that the import table of some file in the tree mentions.

## Main definitions

* `Scan.Takes`, rounds of the loop, by the positions that are taken in them;
* `Scan.nameable`, the lowercase names that a scan can come across.

## Main results

* `Scan.Takes.isPrefix` — the loop has one course only;
* `Scan.Reached.size_le_ncard` — there are no more modules than names;
* `Scan.exists_takes_run` — the loop ends, and takes every module with a file once.
-/

namespace DllGraph.Scan

variable {p : SearchPath} {t : FileTree} {cache : SearchCache} {given roots : List Path}
  {taken ids : List Nat} {s s' : Scan} {n : Node}

/-! ### Rounds of the loop -/

/-- Rounds of the loop lead from one state to another, and take these positions from the queue. -/
inductive Takes (p : SearchPath) (t : FileTree) : Scan → List Nat → Scan → Prop
  | nil {s : Scan} : Takes p t s [] s
  | cons {s s' s'' : Scan} {id : Nat} {queue ids : List Nat} :
      s.queue = id :: queue → s.step p t = some s' → Takes p t s' ids s'' →
      Takes p t s (id :: ids) s''

/-- A scan stops if and only if nothing is queued. -/
theorem step_eq_none_iff : s.step p t = none ↔ s.queue = [] := by
  cases hq : s.queue <;> simp [step, hq]

/-- What a run does in a number of steps, the loop does in rounds. -/
theorem exists_takes_runFor (fuel : Nat) (s : Scan) :
    ∃ ids, Takes p t s ids (runFor p t fuel s) := by
  induction fuel generalizing s with
  | zero => exact ⟨[], .nil⟩
  | succ fuel ih =>
    rw [runFor]
    cases hs : s.step p t with
    | none => exact ⟨[], .nil⟩
    | some s' =>
      obtain ⟨id, queue, hq, -⟩ := step_cases hs
      obtain ⟨ids, hids⟩ := ih s'
      exact ⟨id :: ids, .cons hq hs hids⟩

namespace Takes

/-- Rounds lead from one state that a scan passes through to another. -/
theorem reached (hs : Takes p t s ids s') (h : Reached p t cache given taken s) :
    Reached p t cache given (taken ++ ids) s' := by
  induction hs generalizing taken with
  | nil => rwa [List.append_nil]
  | cons hq hs _ ih =>
    rw [List.append_cons]
    exact ih (h.step hq hs)

/-- The loop has one course only: any number of rounds are the first ones of those that lead to its
end. -/
theorem isPrefix {ids' : List Nat} {s'' : Scan} (h : Takes p t s ids s') (hend : s'.step p t = none)
    (h' : Takes p t s ids' s'') : ids' <+: ids := by
  induction h' generalizing ids with
  | nil => exact List.nil_prefix
  | cons hq hs _ ih =>
    cases h with
    | nil =>
      rw [hs] at hend
      cases hend
    | cons hq' hs' h =>
      rw [hq, List.cons.injEq] at hq'
      obtain ⟨rfl, -⟩ := hq'
      obtain rfl := Option.some.inj (hs.symm.trans hs')
      exact (List.prefix_cons_inj _).2 (ih h)

end Takes

/-! ### The names of modules -/

/-- The lowercase names that a scan can come across: those of the given files, and those of the DLLs
that the files of the tree import from. -/
def nameable (t : FileTree) (given : List Path) : Set String :=
  {key | (∃ path ∈ given, rootKey? path = some key) ∨
    ∃ place b, t.at? place = some (.file b) ∧ ∃ dll ∈ Node.dllsOf b, Text.lowercase dll.name = key}

/-- Only finitely many names can be given to modules. -/
theorem finite_nameable (t : FileTree) (given : List Path) : (nameable t given).Finite := by
  refine (given.filterMap rootKey? ++ t.mentioned).finite_toSet.subset ?_
  rintro key (⟨path, hpath, hkey⟩ | ⟨place, b, hplace, dll, hdll, rfl⟩)
  · exact List.mem_append_left _ (List.mem_filterMap.2 ⟨path, hpath, hkey⟩)
  · refine List.mem_append_right _ (List.mem_flatMap.2 ⟨_, FileTree.mem_entries_of_at? hplace, ?_⟩)
    exact List.mem_map_of_mem hdll

/-- More roots do not make fewer names. -/
theorem nameable_mono {given' : List Path} (h : given ⊆ given') :
    nameable t given ⊆ nameable t given' :=
  fun _ hkey => hkey.imp_left fun ⟨path, hpath, heq⟩ => ⟨path, h hpath, heq⟩

/-- A module that is added has a name that some file mentions. -/
theorem preservedByAdding_nameable :
    PreservedByAdding p t fun met _ => ∀ n ∈ met, n.key ∈ nameable t given := by
  rintro met c importer depth dll ⟨path, b, hload, hdll⟩ h n hn
  rcases List.mem_append.1 hn with hn | hn
  · exact h n hn
  · obtain ⟨place, -, hplace⟩ := FileTree.exists_find_of_load hload
    refine .inr ⟨place, b, hplace, dll, hdll, ?_⟩
    rw [List.mem_singleton.1 hn, Node.key, Node.name_ofHit]

/-- Whatever a scan has met has a name that it can come across. -/
theorem Reached.key_mem_nameable (h : Reached p t cache given taken s) :
    ∀ n ∈ s.met, n.key ∈ nameable t given := by
  induction h with
  | empty => simp [Scan.empty, Scan.met]
  | @addRoot given _ _ path h ha ih =>
    have hold : nameable t given ⊆ nameable t (given ++ [path]) :=
      nameable_mono (List.subset_append_left _ _)
    obtain ⟨name, hname, ⟨-, rfl⟩ | hadds⟩ := h.registered.addRoot_cases ha
    · exact fun n hn => hold (ih n hn)
    · intro n hn
      rw [hadds.met, List.mem_append, List.mem_singleton] at hn
      rcases hn with hn | rfl
      · exact hold (ih n hn)
      · exact .inl ⟨path, by simp, by rw [rootKey?, hname]; rfl⟩
  | step h hq hs ih => exact h.step_preserves preservedByAdding_nameable hq hs ih

/-- There are no more modules than names for them. -/
theorem Reached.size_le_ncard (h : Reached p t cache given taken s) :
    s.nodes.size ≤ (nameable t given).ncard := by
  have hsubset : {key | key ∈ s.met.map Node.key} ⊆ nameable t given := by
    intro key hkey
    obtain ⟨n, hn, rfl⟩ := List.mem_map.1 hkey
    exact h.key_mem_nameable n hn
  have hcard : {key | key ∈ s.met.map Node.key}.ncard = s.nodes.size := by
    rw [← List.coe_toFinset, Set.ncard_coe_finset,
      List.toFinset_card_of_nodup h.registered.nodup_keys, List.length_map, length_met]
  rw [← hcard]
  exact Set.ncard_le_ncard hsubset (finite_nameable t given)

/-! ### The end of the loop -/

/-- The loop that reads modules until the queue is empty comes to an end, whatever the files of the
tree say, and a run goes through with it. The loop takes the modules with a file, each of them once.
The modules have different names, of which there are finitely many. -/
theorem exists_takes_run (h : (Scan.empty cache).addRoots roots = .ok s) :
    ∃ ids, Takes p t s ids (s.run p t) ∧ (s.run p t).step p t = none ∧
      (∀ ids' s', Takes p t s ids' s' → ids' <+: ids) ∧ ids.Nodup ∧
      (∀ id, id ∈ ids ↔ ∃ n, (s.run p t).nodes[id]? = some n ∧ n.path.isSome) ∧
      (nameable t roots).Finite ∧ (s.run p t).nodes.size ≤ (nameable t roots).ncard := by
  have hstart : Reached p t cache roots [] s := reached_of_addRoots h
  obtain ⟨ids, hids⟩ : ∃ ids, Takes p t s ids (s.run p t) := exists_takes_runFor _ s
  have hrun : Reached p t cache roots ids (s.run p t) := by simpa using hids.reached hstart
  obtain ⟨-, -, hempty⟩ := hstart.run
  have hend : (s.run p t).step p t = none := step_eq_none_iff.2 hempty
  refine ⟨ids, hids, hend, fun ids' s' h' => hids.isPrefix hend h', ?_, fun id => ?_,
    finite_nameable t roots, hrun.size_le_ncard⟩
  · exact (List.nodup_append.1 hrun.registered.nodup_queued).1
  · have hqueued := hrun.registered.mem_queued_iff (i := id)
    rwa [hempty, List.append_nil] at hqueued

/-- The sample program and its DLL import from each other. Each of them is taken once. -/
theorem exists_takes_run_sample :
    ∃ s, (Scan.empty .empty).addRoots [⟨"app.exe"⟩] = .ok s ∧
      ∃ ids, Takes samplePath sampleTree s ids (s.run samplePath sampleTree) ∧ ids.Nodup ∧
        0 ∈ ids ∧ 1 ∈ ids := by
  obtain ⟨a, c, r, n, hrun, hnodes, ⟨-, -, hr⟩, -, -, hn⟩ := exists_sample
  obtain ⟨s, h, rfl, -⟩ := exists_addRoots_of_ofRoots hrun
  obtain ⟨ids, hids, -, -, hnodup, hmem, -⟩ :=
    exists_takes_run (p := samplePath) (t := sampleTree) h
  have hfound : ∀ id m, (s.run samplePath sampleTree).toAnalysis.nodes[id]? = some m →
      m.isFound = true → id ∈ ids := by
    intro id m hm hfound
    rw [getElem?_toAnalysis, Option.map_eq_some_iff] at hm
    obtain ⟨m, hm, rfl⟩ := hm
    exact (hmem id).2 ⟨m, hm, hfound⟩
  exact ⟨s, h, ids, hids, hnodup, hfound 0 r (by rw [hnodes]; rfl) hr,
    hfound 1 n (by rw [hnodes]; rfl) hn⟩

end DllGraph.Scan
