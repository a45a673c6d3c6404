import DllGraph.Proofs.Scan.Termination

/-!
# One Module for Each Name

However often and under whatever casing a DLL is imported, a scan has one module for it. The index
of a scan is a bijection between the lowercase names of its modules and their positions, at every
moment, and so it is in the analysis that the scan ends in.

## Main results

* `Scan.deduplicated_of_reached` — what holds of the records of a scan at every moment;
* `Scan.keeps_step` — a step does not change what a module was met with.
-/

namespace DllGraph.Scan

/-- What holds of the records of a scan at every moment, when some positions have been taken from
the queue. -/
structure Deduplicated (s : Scan) (taken : List Nat) : Prop where
  /-- The index is a bijection between the lowercase names of the modules and their positions. -/
  index : ∀ key id, s.index.lookup key = some id ↔
    ∃ n : Node, s.nodes[id]? = some n ∧ Text.lowercase n.name = key
  /-- What waits in the queue is a module with a file that has not been taken before. -/
  queue : ∀ id ∈ s.queue, id ∉ taken ∧ ∃ n, s.nodes[id]? = some n ∧ n.path.isSome = true
  queueNodup : s.queue.Nodup
  targets : ∀ n ∈ s.nodes, ∀ d ∈ n.dependencies, d.target < s.nodes.size
  roots : ∀ id, id ∈ s.roots ↔ ∃ n, s.nodes[id]? = some n ∧ n.isRoot = true
  rootMet : ∀ n ∈ s.nodes, n.isRoot = true → n.depth = 0 ∧ n.location = none

/-- The second scan has the modules of the first one at their positions, as they were met. -/
def Keeps (s s' : Scan) : Prop :=
  ∀ (id : Nat) (n : Node), s.nodes[id]? = some n → ∃ n' : Node, s'.nodes[id]? = some n' ∧
    n'.name = n.name ∧ n'.path = n.path ∧ n'.location = n.location ∧ n'.depth = n.depth

variable {p : SearchPath} {t : FileTree} {cache : SearchCache} {given : List Path}
  {taken : List Nat} {path : Path} {s s' : Scan}

/-- A scan that grows keeps its modules where they are. -/
theorem Grows.keeps (h : s.Grows s') : s.Keeps s' :=
  fun _ n hn => ⟨n, h.getElem? hn, rfl, rfl, rfl, rfl⟩

/-- Adding a root keeps the modules where they are. -/
theorem keeps_addRoot (h : s.addRoot path = .ok s') : s.Keeps s' := by
  obtain ⟨name, -, ⟨id, -, rfl⟩ | hadds⟩ := addRoot_cases h
  · intro i n hn
    rw [getElem?_markRoot, hn]
    exact ⟨_, rfl, rfl, rfl, rfl, rfl⟩
  · exact hadds.grows.keeps

/-- A step writes down what the file of one module says, and adds others. -/
theorem keeps_step (h : s.step p t = some s') : s.Keeps s' := by
  obtain ⟨id, queue, -, ⟨n, path, hn, -, rfl⟩ | ⟨-, rfl⟩⟩ := step_cases h
  · intro i m hm
    have hgrows : { s with queue }.Grows (s.connectAt p t queue path n).2 := grows_connect _ _
    rw [getElem?_settle (hgrows.getElem? hn)]
    by_cases hi : i = id
    · subst hi
      rw [if_pos rfl]
      obtain rfl : n = m := Option.some.inj (hn.symm.trans hm)
      have hmet : (n.connected t (s.connectAt p t queue path n).1).asMet = n.asMet :=
        Node.asMet_connected
      obtain ⟨hname, hpath, -, hlocation, hdepth⟩ := Node.asMet_eq_iff.1 hmet
      exact ⟨_, rfl, hname, hpath, hlocation, hdepth⟩
    · rw [if_neg hi]
      exact hgrows.keeps i m hm
  · exact fun i m hm => (Grows.refl s).keeps i m hm

/-- No two modules of a scan have the same name, and each is taken once at most. -/
theorem Reached.deduplicated (h : Reached p t cache given taken s) : s.Deduplicated taken where
  index := by
    intro key id
    rw [h.registered.index]
    simp [getElem?_met, Node.key]
  queue := by
    intro id hid
    exact ⟨h.registered.not_mem_taken hid,
      h.registered.mem_queued_iff.1 (List.mem_append_right _ hid)⟩
  queueNodup := (List.nodup_append.1 h.registered.nodup_queued).2.1
  targets := by
    intro n hn d hd
    obtain ⟨m, hm, -⟩ := h.exists_target hn hd
    exact (Array.getElem?_eq_some_iff.1 hm).1
  roots := fun id => h.registered.mem_roots_iff
  rootMet := by
    intro n hn
    exact h.registered.rootMet n.asMet (asMet_mem_met hn)

/-- The module of a name is found under this name, without regard to case, and under no other. -/
theorem Registered.idOf?_toAnalysis (h : s.Registered taken) {name : String} {id : Nat} :
    s.toAnalysis.idOf? name = some id ↔
      ∃ n, s.toAnalysis.nodes[id]? = some n ∧ n.key = Text.lowercase name := by
  have heq : s.toAnalysis.idOf? name = s.idOf? name := rfl
  rw [heq, h.idOf?_eq_some_iff, getElem?_toAnalysis]
  cases s.nodes[id]? <;> simp [← Node.key_asMet]

/-- At every moment of a scan, no module is lost and none is there twice, and nothing that is done
next changes what a module was met with. So the finished analysis has one module for each name
without regard to case, and finds it under that name. -/
theorem deduplicated_of_reached (p : SearchPath) (t : FileTree) (cache : SearchCache) :
    (∀ given taken s, Reached p t cache given taken s →
      s.Deduplicated taken ∧ (∀ s', s.step p t = some s' → s.Keeps s') ∧
        ∀ path s', s.addRoot path = .ok s' → s.Keeps s') ∧
    ∀ roots a c, Analysis.ofRoots p t cache roots = .ok (a, c) →
      (∀ name id, a.idOf? name = some id ↔
        ∃ n : Node, a.nodes[id]? = some n ∧ Text.lowercase n.name = Text.lowercase name) ∧
      ∀ (i j : Nat) (n m : Node), a.nodes[i]? = some n → a.nodes[j]? = some m →
        Text.lowercase n.name = Text.lowercase m.name → i = j := by
  refine ⟨fun given taken s h => ⟨h.deduplicated, fun _ => keeps_step, fun _ _ => keeps_addRoot⟩,
    ?_⟩
  intro roots a c h
  obtain ⟨taken, s, hs, -, rfl, -⟩ := exists_finished_of_ofRoots h
  refine ⟨fun name id => hs.registered.idOf?_toAnalysis, ?_⟩
  intro i j n m hn hm hkey
  have hi := hs.registered.idOf?_toAnalysis.2 ⟨n, hn, hkey⟩
  have hj := hs.registered.idOf?_toAnalysis.2 ⟨m, hm, rfl⟩
  exact Option.some.inj (hi.symm.trans hj)

/-- After one step, the sample program has been read and its DLL waits. In the end, the program is
found under any casing of its name. -/
theorem deduplicated_sample :
    (∃ s, Reached samplePath sampleTree .empty [⟨"app.exe"⟩] [0] s ∧ s.queue = [1] ∧
      s.Deduplicated [0]) ∧
    ∃ a c, Analysis.ofRoots samplePath sampleTree .empty [⟨"app.exe"⟩] = .ok (a, c) ∧
      a.idOf? "APP.EXE" = some 0 := by
  obtain ⟨hreached, hfinished⟩ := deduplicated_of_reached samplePath sampleTree .empty
  constructor
  · obtain ⟨s₁, h₁, htest⟩ : ∃ s₁, (Scan.empty .empty).addRoot ⟨"app.exe"⟩ = .ok s₁ ∧
        (s₁.queue == [0] && (s₁.step samplePath sampleTree).any (·.queue == [1])) = true :=
      exists_ok_of_any (by decide +kernel)
    rw [Bool.and_eq_true, beq_iff_eq, Option.any_eq_true] at htest
    obtain ⟨hq₁, s₂, h₂, hq₂⟩ := htest
    have hstep := Reached.step (Reached.addRoot Reached.empty h₁) hq₁ h₂
    exact ⟨s₂, hstep, beq_iff_eq.1 hq₂, (hreached _ _ _ hstep).1⟩
  · obtain ⟨⟨a, c⟩, h, htest⟩ : ∃ x : Analysis × SearchCache,
        Analysis.ofRoots samplePath sampleTree .empty [⟨"app.exe"⟩] = .ok x ∧
          x.1.nodes[0]?.any (·.name == "app.exe") = true :=
      exists_ok_of_any (by decide +kernel)
    obtain ⟨n, hn, hname⟩ := (Option.any_eq_true _ _).1 htest
    refine ⟨a, c, h, ((hfinished _ a c h).1 "APP.EXE" 0).2 ⟨n, hn, ?_⟩⟩
    rw [beq_iff_eq.1 hname]
    decide +kernel

end DllGraph.Scan
