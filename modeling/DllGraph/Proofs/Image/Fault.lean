import DllGraph.Image.Fault

/-!
# Faults That Are Passed On

The readers of an image are sequences of reads and checks, and the first fault ends the sequence.
The equivalences of this module take such a sequence apart: they say what each of its steps must
have answered, when the whole of it succeeds and when it fails.
-/

namespace DllGraph.Fault

variable {α β : Type} {fault : Fault}

/-- Two steps give a result if the first one does and the second one does from there. -/
theorem bind_eq_ok_iff {x : Except Fault α} {f : α → Except Fault β} {y : β} :
    (x >>= f) = .ok y ↔ ∃ a, x = .ok a ∧ f a = .ok y := by
  cases x <;> simp [bind, Except.bind]

/-- Two steps fail if the first one does, or the second one does from where the first one got. -/
theorem bind_eq_error_iff {x : Except Fault α} {f : α → Except Fault β} :
    (x >>= f) = .error fault ↔ x = .error fault ∨ ∃ a, x = .ok a ∧ f a = .error fault := by
  cases x <;> simp [bind, Except.bind]

/-- A result that is changed comes from a result. -/
theorem map_eq_ok_iff {x : Except Fault α} {f : α → β} {y : β} :
    x.map f = .ok y ↔ ∃ a, x = .ok a ∧ f a = y := by
  cases x <;> simp [Except.map]

/-- Changing results leaves faults as they are. -/
theorem map_eq_error_iff {x : Except Fault α} {f : α → β} :
    x.map f = .error fault ↔ x = .error fault := by
  cases x <;> simp [Except.map]

theorem pure_eq_ok_iff {a y : α} : (pure a : Except Fault α) = .ok y ↔ a = y := by
  simp [pure, Except.pure]

/-- A result that is not lost with the faults is a result. -/
theorem eq_ok_of_toOption {x : Except Fault α} {a : α} (h : x.toOption = some a) : x = .ok a := by
  cases x with
  | error fault' => cases h
  | ok a' =>
    cases h
    rfl

/-- What is expected is a result if it is there. -/
theorem expect_eq_ok_iff {x : Option α} {a : α} : expect fault x = .ok a ↔ x = some a := by
  cases x <;> simp [expect]

/-- What is expected and not there is the given fault. -/
theorem expect_eq_error_iff {fault' : Fault} {x : Option α} :
    expect fault x = .error fault' ↔ x = none ∧ fault = fault' := by
  cases x <;> simp [expect]

/-- A check lets through what does not meet its condition. -/
theorem ite_throw_eq_ok_iff {c : Prop} [Decidable c] {rest : Unit → Except Fault α} {y : α} :
    (if c then throw fault >>= rest else rest ()) = .ok y ↔ ¬ c ∧ rest () = .ok y := by
  by_cases hc : c
  · simp [hc, throw, throwThe, MonadExceptOf.throw, bind, Except.bind]
  · simp [hc]

/-- The same continuation after either of two reads. -/
theorem ite_expect_bind_eq_ok_iff {c : Prop} [Decidable c] {x x' : Option α}
    {rest : α → Except Fault β} {y : β} :
    (if c then expect fault x >>= rest else expect fault x' >>= rest) = .ok y ↔
      ∃ a, (if c then x else x') = some a ∧ rest a = .ok y := by
  split <;> simp only [bind_eq_ok_iff, expect_eq_ok_iff]

end DllGraph.Fault
