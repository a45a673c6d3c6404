/-!
# Sorted Sets and Tables

Sets and tables as lists in strictly ascending order. Names, which are most of what stands in them
here, are ordered by their code points, and that is also the order of their UTF-8 bytes.

## Main statements

* `Sorted.mem_insert` — inserting an element adds that element and nothing else;
* `Sorted.pairwise_insert` — and keeps the list strictly ascending;
* `Sorted.mem_ofList` and `Sorted.pairwise_ofList` — the set of a list has the elements of the list,
  in strictly ascending order;
* `Sorted.lookup_update_self` and `Sorted.lookup_update_of_ne` — updating a key changes the value
  of that key and of no other;
* `Sorted.pairwise_update` — and keeps the keys strictly ascending.
-/

namespace DllGraph.Sorted

variable {κ : Type} [LT κ] [DecidableLT κ] [DecidableEq κ]

/-- The set with an element added. -/
def insert (a : κ) : List κ → List κ
  | [] => [a]
  | b :: rest =>
    if a < b then a :: b :: rest
    else if a = b then b :: rest
    else b :: insert a rest

/-- The set of the elements of a list. -/
def ofList (as : List κ) : List κ :=
  as.foldr insert []

/-- The table with the value of a key changed, from nothing if the key is not there yet. -/
def update {α : Type} (key : κ) (change : Option α → α) : List (κ × α) → List (κ × α)
  | [] => [(key, change none)]
  | (other, value) :: rest =>
    if key < other then (key, change none) :: (other, value) :: rest
    else if key = other then (other, change (some value)) :: rest
    else (other, value) :: update key change rest

/-! ### Sets -/

/-- Inserting an element adds that element and nothing else. -/
theorem mem_insert {a b : κ} {as : List κ} : b ∈ insert a as ↔ b = a ∨ b ∈ as := by
  induction as with
  | nil => simp [insert]
  | cons c rest ih =>
    simp only [insert]
    split
    · simp
    · split
      · next h => subst h; simp
      · simp only [List.mem_cons, ih]
        exact or_left_comm

/-- The set of a list has the elements of the list. -/
theorem mem_ofList {a : κ} {as : List κ} : a ∈ ofList as ↔ a ∈ as := by
  induction as with
  | nil => simp [ofList]
  | cons b rest ih =>
    have h : ofList (b :: rest) = insert b (ofList rest) := rfl
    rw [h, mem_insert, ih, List.mem_cons]

/-- Inserting an element keeps a set strictly ascending. -/
theorem pairwise_insert [LE κ] [Std.LawfulOrderLT κ] [Std.IsLinearOrder κ] {a : κ} {as : List κ}
    (h : as.Pairwise (· < ·)) : (insert a as).Pairwise (· < ·) := by
  induction as with
  | nil => simp [insert]
  | cons b rest ih =>
    obtain ⟨hb, hrest⟩ := List.pairwise_cons.1 h
    simp only [insert]
    split
    · next hlt =>
      refine List.pairwise_cons.2 ⟨fun c hc => ?_, h⟩
      rcases List.mem_cons.1 hc with rfl | hc
      · exact hlt
      · exact Std.lt_trans hlt (hb c hc)
    · split
      · exact h
      · next hlt hne =>
        refine List.pairwise_cons.2 ⟨fun c hc => ?_, ih hrest⟩
        rcases mem_insert.1 hc with rfl | hc
        · exact Std.not_le.1 fun hle => hlt (Std.lt_of_le_of_ne hle hne)
        · exact hb c hc

/-- The set of a list is strictly ascending. -/
theorem pairwise_ofList [LE κ] [Std.LawfulOrderLT κ] [Std.IsLinearOrder κ] (as : List κ) :
    (ofList as).Pairwise (· < ·) := by
  induction as with
  | nil => exact .nil
  | cons a rest ih => exact pairwise_insert ih

/-! ### Tables -/

/-- Updating a key leaves the values of other keys as they are. -/
theorem lookup_update_of_ne {α : Type} {key other : κ} {change : Option α → α}
    {table : List (κ × α)} (h : other ≠ key) :
    (update key change table).lookup other = table.lookup other := by
  have hne : (other == key) = false := beq_eq_false_iff_ne.2 h
  induction table with
  | nil => simp [update, List.lookup_cons, hne]
  | cons entry rest ih =>
    obtain ⟨first, value⟩ := entry
    simp only [update]
    split
    · simp [List.lookup_cons, hne]
    · split
      · next heq => subst heq; simp [List.lookup_cons, hne]
      · simp [List.lookup_cons, ih]

/-- A key of an updated table is the updated one or was there before. -/
theorem mem_keys_update {α : Type} {key other : κ} {change : Option α → α}
    {table : List (κ × α)} (h : other ∈ (update key change table).map Prod.fst) :
    other = key ∨ other ∈ table.map Prod.fst := by
  induction table with
  | nil => simpa [update] using h
  | cons entry rest ih =>
    obtain ⟨first, value⟩ := entry
    simp only [update] at h
    split at h
    · simpa using h
    · split at h
      · exact .inr (by simpa using h)
      · rcases List.mem_cons.1 h with rfl | h
        · exact .inr (by simp)
        · exact (ih h).imp_right (by simp_all)

omit [DecidableLT κ] in
/-- A key below all keys of a table has no value in it. -/
theorem lookup_eq_none_of_lt [LE κ] [Std.LawfulOrderLT κ] [Std.IsLinearOrder κ] {α : Type}
    {key : κ} {table : List (κ × α)} (h : ∀ other ∈ table.map Prod.fst, key < other) :
    table.lookup key = none := by
  induction table with
  | nil => rfl
  | cons entry rest ih =>
    have hlt : key < entry.1 := h entry.1 (by simp)
    have hne : (key == entry.1) = false := beq_eq_false_iff_ne.2 (Std.ne_of_lt hlt)
    rw [List.lookup_cons, hne]
    exact ih fun other hother => h other (List.mem_cons_of_mem _ hother)

/-- Updating a key gives it the changed value. -/
theorem lookup_update_self [LE κ] [Std.LawfulOrderLT κ] [Std.IsLinearOrder κ] {α : Type}
    {key : κ} {change : Option α → α} {table : List (κ × α)}
    (h : (table.map Prod.fst).Pairwise (· < ·)) :
    (update key change table).lookup key = some (change (table.lookup key)) := by
  induction table with
  | nil => simp [update]
  | cons entry rest ih =>
    obtain ⟨first, value⟩ := entry
    obtain ⟨hfirst, hrest⟩ := List.pairwise_cons.1 h
    simp only [update]
    split
    · next hlt =>
      have hnone : ((first, value) :: rest).lookup key = none :=
        lookup_eq_none_of_lt fun other hother => by
          rcases List.mem_cons.1 hother with rfl | hother
          · exact hlt
          · exact Std.lt_trans hlt (hfirst other hother)
      simp [hnone]
    · split
      · next heq => subst heq; simp
      · next hne =>
        have hbeq : (key == first) = false := beq_eq_false_iff_ne.2 hne
        simp [List.lookup_cons, hbeq, ih hrest]

/-- Updating a key keeps the keys strictly ascending. -/
theorem pairwise_update [LE κ] [Std.LawfulOrderLT κ] [Std.IsLinearOrder κ] {α : Type}
    {key : κ} {change : Option α → α} {table : List (κ × α)}
    (h : (table.map Prod.fst).Pairwise (· < ·)) :
    ((update key change table).map Prod.fst).Pairwise (· < ·) := by
  induction table with
  | nil => simp [update]
  | cons entry rest ih =>
    obtain ⟨first, value⟩ := entry
    obtain ⟨hfirst, hrest⟩ := List.pairwise_cons.1 h
    simp only [update]
    split
    · next hlt =>
      refine List.pairwise_cons.2 ⟨fun other hother => ?_, h⟩
      rcases List.mem_cons.1 hother with rfl | hother
      · exact hlt
      · exact Std.lt_trans hlt (hfirst other hother)
    · split
      · exact h
      · next hlt hne =>
        refine List.pairwise_cons.2 ⟨fun other hother => ?_, ih hrest⟩
        rcases mem_keys_update hother with rfl | hother
        · exact Std.not_le.1 fun hle => hlt (Std.lt_of_le_of_ne hle hne)
        · exact hfirst other hother

end DllGraph.Sorted
