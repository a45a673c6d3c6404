import DllGraph.Graph.Check
import Mathlib.Data.List.Nodup

/-!
# Reports in Any Order

A report on what is missing is filled finding by finding, module by module. Sets and tables are kept
in order of names, so it does not matter in which order the findings come: the reports of two
analyses are the same if their modules have the same findings, wherever these modules stand.

## Main results

* `Sorted.insert_comm` and `Sorted.update_comm` — elements and values are added in any order;
* `perm_flatMap_of_key` — lists that go together by a key have the same elements altogether;
* `Analysis.check_congr` — a report does not depend on the order of the findings.
-/

namespace DllGraph

namespace Sorted

variable {κ : Type} [LT κ] [DecidableLT κ] [DecidableEq κ] [LE κ] [Std.LawfulOrderLT κ]
  [Std.IsLinearOrder κ]

/-- Two elements are inserted in any order. -/
theorem insert_comm (a b : κ) (as : List κ) :
    insert a (insert b as) = insert b (insert a as) := by
  induction as with
  | nil => grind [insert]
  | cons c rest ih => grind [insert]

/-- Two values are changed in any order, provided that changes of one value are. -/
theorem update_comm {α : Type} {key other : κ} {change change' : Option α → α}
    (h : key = other → ∀ value, change (some (change' value)) = change' (some (change value)))
    (table : List (κ × α)) : update key change (update other change' table) =
      update other change' (update key change table) := by
  induction table with
  | nil => grind [update]
  | cons entry rest ih => grind [update]

end Sorted

/-- In which order two missing DLLs are noted does not matter. -/
theorem MissingDll.addTo_comm (m m' : MissingDll) (table : List (String × List String)) :
    m.addTo (m'.addTo table) = m'.addTo (m.addTo table) :=
  Sorted.update_comm (fun _ dlls => Sorted.insert_comm m.dll m'.dll (dlls.getD [])) table

/-- In which order two missing symbols are noted does not matter. -/
theorem MissingSymbol.addTo_comm (m m' : MissingSymbol)
    (table : List (String × List (String × List String))) :
    m.addTo (m'.addTo table) = m'.addTo (m.addTo table) :=
  Sorted.update_comm (fun _ dlls => Sorted.update_comm
    (fun _ symbols => Sorted.insert_comm m.symbol m'.symbol (symbols.getD [])) (dlls.getD [])) table

/-- A report does not depend on the order of the findings. -/
theorem Analysis.check_congr {a b : Analysis}
    (hdlls : (a.nodes.toList.flatMap (Node.missingDlls a.nodes)).Perm
      (b.nodes.toList.flatMap (Node.missingDlls b.nodes)))
    (hsymbols : (a.nodes.toList.flatMap (Node.missingSymbols a.nodes)).Perm
      (b.nodes.toList.flatMap (Node.missingSymbols b.nodes))) : a.check = b.check := by
  have hleft := hdlls.foldr_eq' (fun m _ m' _ table => MissingDll.addTo_comm m' m table) []
  have hright := hsymbols.foldr_eq' (fun m _ m' _ table => MissingSymbol.addTo_comm m' m table) []
  simp only [check, hleft, hright]

/-- Lists that go together by a key, element by element, make up the same lists altogether. -/
theorem perm_flatMap_of_key {α β κ : Type} {key : α → κ} {as bs : List α} {f g : α → List β}
    (has : (as.map key).Nodup) (hbs : (bs.map key).Nodup)
    (hleft : ∀ a ∈ as, ∃ b ∈ bs, key b = key a) (hright : ∀ b ∈ bs, ∃ a ∈ as, key a = key b)
    (hsame : ∀ a ∈ as, ∀ b ∈ bs, key a = key b → f a = g b) :
    (as.flatMap f).Perm (bs.flatMap g) := by
  have hnodup : ∀ {cs : List α} {h : α → List β}, (cs.map key).Nodup →
      (cs.map fun c => (key c, h c)).Nodup := by
    intro cs h hcs
    refine List.Nodup.of_map Prod.fst ?_
    rwa [List.map_map]
  have hperm : (as.map fun a => (key a, f a)).Perm (bs.map fun b => (key b, g b)) := by
    refine (List.perm_ext_iff_of_nodup (hnodup has) (hnodup hbs)).2 fun e => ?_
    rw [List.mem_map, List.mem_map]
    constructor
    · rintro ⟨a, ha, rfl⟩
      obtain ⟨b, hb, hkey⟩ := hleft a ha
      exact ⟨b, hb, by rw [hkey, hsame a ha b hb hkey.symm]⟩
    · rintro ⟨b, hb, rfl⟩
      obtain ⟨a, ha, hkey⟩ := hright b hb
      exact ⟨a, ha, by rw [hkey, hsame a ha b hb hkey]⟩
  have hall := hperm.flatMap_right Prod.snd
  rwa [List.flatMap_map, List.flatMap_map] at hall

end DllGraph
