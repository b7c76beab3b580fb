import Mathlib.Data.List.Lex
import Mathlib.Data.List.Infix
import Mathlib.Order.Bounds.Basic
import Mathlib.Order.Cover
import Mathlib.Tactic

/-!
# The strings with a given prefix

In the lexicographic order the strings with prefix `p` are an interval. Its least upper end drops the
letters at the end of `p` that have no letter above them, and puts the next letter in place of the
last one that is left.
-/

namespace Keys

variable {α : Type*} [LinearOrder α] {a b top : α} {l p k : List α}

theorem cons_le_cons_iff {c d : α} : c :: p ≤ d :: k ↔ c < d ∨ c = d ∧ p ≤ k := by
  rw [← not_lt, ← not_lt, List.cons_lt_cons_iff]
  rcases lt_trichotomy c d with hlt | rfl | hlt
  · simp [hlt, hlt.not_gt, hlt.ne']
  · simp
  · simp [hlt, hlt.not_gt, hlt.ne']

theorem le_of_prefix (h : p <+: k) : p ≤ k := not_lt.1 h.le

/-- A string from the topmost letters on starts with them. -/
theorem replicate_le_iff (htop : ∀ x, x ≤ top) (n : ℕ) :
    List.replicate n top ≤ k ↔ List.replicate n top <+: k := by
  refine ⟨fun h => ?_, le_of_prefix⟩
  induction n generalizing k with
  | zero => exact List.nil_prefix
  | succ n ih =>
    cases k with
    | nil => exact absurd (List.nil_lt_cons top (List.replicate n top)) (not_lt.2 h)
    | cons d k =>
      rw [List.replicate_succ] at h ⊢
      rcases cons_le_cons_iff.1 h with hlt | ⟨rfl, hle⟩
      · exact absurd hlt (not_lt.2 (htop d))
      · exact List.cons_prefix_cons.2 ⟨rfl, ih hle⟩

/-- The interval of a prefix, where `b` is the letter after `a`. -/
theorem mem_range_iff (htop : ∀ x, x ≤ top) (hab : a ⋖ b) (n : ℕ) :
    (l ++ a :: List.replicate n top ≤ k ∧ k < l ++ [b]) ↔
      l ++ a :: List.replicate n top <+: k := by
  induction l generalizing k with
  | nil =>
    cases k with
    | nil => simp [List.nil_lt_cons]
    | cons d k =>
      have hupper : d :: k < [b] ↔ d < b := by simp [List.cons_lt_cons_iff]
      rw [List.nil_append, List.nil_append, cons_le_cons_iff, hupper, List.cons_prefix_cons]
      constructor
      · rintro ⟨hlt | ⟨rfl, hle⟩, hd⟩
        · exact absurd hd (hab.2 hlt)
        · exact ⟨rfl, (replicate_le_iff htop n).1 hle⟩
      · rintro ⟨rfl, hprefix⟩
        exact ⟨.inr ⟨rfl, le_of_prefix hprefix⟩, hab.1⟩
  | cons c l ih =>
    cases k with
    | nil => simp [List.nil_lt_cons]
    | cons d k =>
      rw [List.cons_append, List.cons_append, cons_le_cons_iff, List.cons_lt_cons_iff,
        List.cons_prefix_cons, ← ih]
      constructor
      · rintro ⟨hlower, hupper⟩
        rcases hlower with hlt | ⟨rfl, hle⟩
        · rcases hupper with hlt' | ⟨rfl, -⟩
          · exact absurd hlt' hlt.not_gt
          · exact absurd hlt (lt_irrefl _)
        · rcases hupper with hlt' | ⟨-, hlt'⟩
          · exact absurd hlt' (lt_irrefl _)
          · exact ⟨rfl, hle, hlt'⟩
      · rintro ⟨rfl, hle, hlt⟩
        exact ⟨.inr ⟨rfl, hle⟩, .inr ⟨rfl, hlt⟩⟩

/-- An upper end of the interval of a prefix is the least string above all with that prefix. -/
theorem isLeast_of_range {q : List α} (h : ∀ k, (p ≤ k ∧ k < q) ↔ p <+: k) :
    IsLeast {s | ∀ k, p <+: k → k < s} q := by
  constructor
  · intro k hk
    exact ((h k).2 hk).2
  · intro s hs
    by_contra hlt
    have hp : p < s := hs p (List.prefix_refl p)
    have hprefix : p <+: s := (h s).1 ⟨hp.le, not_le.1 hlt⟩
    exact lt_irrefl s (hs s hprefix)

end Keys
