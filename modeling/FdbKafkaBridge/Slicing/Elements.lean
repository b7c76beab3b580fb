import Mathlib.Tactic

/-!
# Elements at their positions

A property of the elements of a list that may depend on the position: it holds of every element, or
there is a first element of which it does not.
-/

namespace Slicing

variable {α β : Type} {P : ℕ → α → Prop}

/-- `P` holds of every element at its position. -/
def EveryElement (P : ℕ → α → Prop) (xs : List α) : Prop := ∀ i x, xs[i]? = some x → P i x

/-- `i` is the first position whose element `x` does not satisfy `P`. -/
structure FirstFailing (P : ℕ → α → Prop) (xs : List α) (i : ℕ) (x : α) : Prop where
  element : xs[i]? = some x
  fails : ¬ P i x
  before : ∀ j < i, ∀ y, xs[j]? = some y → P j y

theorem everyElement_nil : EveryElement P [] := fun _ _ h => nomatch h

theorem everyElement_cons {x : α} {xs : List α} :
    EveryElement P (x :: xs) ↔ P 0 x ∧ EveryElement (fun i => P (i + 1)) xs := by
  constructor
  · exact fun h => ⟨h 0 x rfl, fun i y hy => h (i + 1) y hy⟩
  · rintro ⟨h0, h⟩ i y hy
    cases i with
    | zero =>
      cases hy
      exact h0
    | succ i => exact h i y hy

theorem FirstFailing.head {x : α} {xs : List α} (h : ¬ P 0 x) : FirstFailing P (x :: xs) 0 x :=
  ⟨rfl, h, fun j hj => absurd hj (Nat.not_lt_zero j)⟩

theorem FirstFailing.cons {x y : α} {xs : List α} {i : ℕ} (hy : P 0 y)
    (h : FirstFailing (fun i => P (i + 1)) xs i x) : FirstFailing P (y :: xs) (i + 1) x := by
  refine ⟨h.element, h.fails, ?_⟩
  intro j hj z hz
  cases j with
  | zero =>
    cases hz
    exact hy
  | succ j => exact h.before j (Nat.lt_of_succ_lt_succ hj) z hz

/-- Either every element satisfies `P`, or there is a first one that does not. -/
theorem everyElement_or_firstFailing (P : ℕ → α → Prop) (xs : List α) :
    EveryElement P xs ∨ ∃ i x, FirstFailing P xs i x := by
  induction xs generalizing P with
  | nil => exact .inl everyElement_nil
  | cons y xs ih =>
    by_cases hy : P 0 y
    · rcases ih (fun i => P (i + 1)) with hall | ⟨i, x, hfirst⟩
      · exact .inl (everyElement_cons.2 ⟨hy, hall⟩)
      · exact .inr ⟨i + 1, x, .cons hy hfirst⟩
    · exact .inr ⟨0, y, .head hy⟩

theorem FirstFailing.not_every {xs : List α} {i : ℕ} {x : α} (h : FirstFailing P xs i x) :
    ¬ EveryElement P xs :=
  fun hall => h.fails (hall i x h.element)

theorem getElem?_of_forall₂ {R : α → β → Prop} {xs : List α} {ys : List β}
    (h : List.Forall₂ R xs ys) {i : ℕ} {x : α} (hx : xs[i]? = some x) :
    ∃ y, ys[i]? = some y ∧ R x y := by
  induction h generalizing i with
  | nil => cases hx
  | @cons a b xs ys hab _ ih =>
    cases i with
    | zero =>
      cases hx
      exact ⟨b, rfl, hab⟩
    | succ i => exact ih hx

end Slicing
