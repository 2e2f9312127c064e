import Mathlib.Tactic.Lemma

/-!
# Computations that may fail

What a computation in several steps gives, step by step.  That it succeeds means that each of its
steps does (`bind_eq_ok`), which is how readers, decoders and operations on files are taken apart.
-/

namespace Pipework

variable {ε α β : Type}

@[simp]
lemma ok_bind (x : α) (f : α → Except ε β) : (Except.ok x >>= f) = f x := rfl

@[simp]
lemma error_bind (e : ε) (f : α → Except ε β) : (Except.error e >>= f) = .error e := by
  simp only [bind, Except.bind]

@[simp]
lemma pure_eq_ok (x : α) : (pure x : Except ε α) = .ok x := rfl

@[simp]
lemma map_ok (f : α → β) (x : α) : (Except.ok x : Except ε α).map f = .ok (f x) := rfl

lemma bind_eq_ok {x : Except ε α} {f : α → Except ε β} {b : β} :
    (x >>= f) = .ok b ↔ ∃ a, x = .ok a ∧ f a = .ok b := by
  cases x <;> simp

lemma map_eq_ok {x : Except ε α} {f : α → β} {b : β} :
    x.map f = .ok b ↔ ∃ a, x = .ok a ∧ f a = b := by
  cases x <;> simp [Except.map]

end Pipework
