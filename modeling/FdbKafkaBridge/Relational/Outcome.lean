import Mathlib.Data.List.Forall2
import Mathlib.Tactic

/-!
# Two runs that come out alike

Two computations that may fail come out alike when both return, with related results, or both raise
the same error. What they are composed of may be compared part by part.
-/

namespace Relational

variable {ε : Type*} {α β α' β' : Type} {R : α → β → Prop} {S : α' → β' → Prop} {x : Except ε α}
  {y : Except ε β}

/-- Both return, with related results, or both raise the same error. -/
inductive Alike (R : α → β → Prop) : Except ε α → Except ε β → Prop
  | ok {a : α} {b : β} (h : R a b) : Alike R (.ok a) (.ok b)
  | error (e : ε) : Alike R (.error e) (.error e)

theorem Alike.refl {R : α → α → Prop} (hR : ∀ a, R a a) (x : Except ε α) : Alike R x x := by
  cases x with
  | ok a => exact .ok (hR a)
  | error e => exact .error e

theorem Alike.mono {R' : α → β → Prop} (h : Alike R x y) (hR : ∀ a b, R a b → R' a b) :
    Alike R' x y := by
  cases h with
  | ok h => exact .ok (hR _ _ h)
  | error e => exact .error e

theorem Alike.bind {f : α → Except ε α'} {g : β → Except ε β'} (h : Alike R x y)
    (hfg : ∀ a b, R a b → Alike S (f a) (g b)) : Alike S (x >>= f) (y >>= g) := by
  cases h with
  | ok h => exact hfg _ _ h
  | error e => exact .error e

theorem Alike.ite {c : Prop} [Decidable c] {x' : Except ε α} {y' : Except ε β} (h : Alike R x y)
    (h' : Alike R x' y') : Alike R (if c then x else x') (if c then y else y') := by
  split
  · exact h
  · exact h'

end Relational
