import Mathlib.Tactic

/-!
# Slices of a sequence

A partition of the positions `a, …, b - 1` into nonempty slices that follow each other. A partition
is greedy when none of its slices could have been extended by the next position, and no partition
into slices that fit is shorter than a greedy one.
-/

namespace Slicing

/-- Nonempty slices that follow each other from `a` to `b`. -/
def Contiguous : ℕ → List (ℕ × ℕ) → ℕ → Prop
  | a, [], b => a = b
  | a, (x, y) :: slices, b => x = a ∧ x < y ∧ Contiguous y slices b

theorem Contiguous.concat {a b c : ℕ} {slices : List (ℕ × ℕ)} (h : Contiguous a slices b)
    (hlt : b < c) : Contiguous a (slices ++ [(b, c)]) c := by
  induction slices generalizing a with
  | nil =>
    obtain rfl : a = b := h
    exact ⟨rfl, hlt, rfl⟩
  | cons slice slices ih =>
    obtain ⟨hx, hxy, hrest⟩ := h
    exact ⟨hx, hxy, ih hrest⟩

theorem Contiguous.le {a b : ℕ} {slices : List (ℕ × ℕ)} (h : Contiguous a slices b) : a ≤ b := by
  induction slices generalizing a with
  | nil => exact le_of_eq h
  | cons slice slices ih =>
    obtain ⟨hx, hxy, hrest⟩ := h
    have := ih hrest
    omega

theorem Contiguous.mem {a b : ℕ} {slices : List (ℕ × ℕ)} (h : Contiguous a slices b) :
    ∀ slice ∈ slices, slice.1 < slice.2 ∧ slice.2 ≤ b := by
  induction slices generalizing a with
  | nil => exact fun _ hmem => nomatch hmem
  | cons slice slices ih =>
    obtain ⟨-, hxy, hrest⟩ := h
    intro s hs
    rcases List.mem_cons.1 hs with rfl | hs
    · exact ⟨hxy, hrest.le⟩
    · exact ih hrest s hs

/-- The ends of the slices as a sequence of cut points. -/
theorem Contiguous.cutPoints {a b : ℕ} {slices : List (ℕ × ℕ)} (h : Contiguous a slices b) :
    ∃ cut : ℕ → ℕ, cut 0 = a ∧ cut slices.length = b ∧
      ∀ j, (hj : j < slices.length) → cut j < cut (j + 1) ∧ slices[j] = (cut j, cut (j + 1)) := by
  induction slices generalizing a with
  | nil => exact ⟨fun _ => a, rfl, h, fun j hj => nomatch hj⟩
  | cons slice slices ih =>
    obtain ⟨hx, hxy, hrest⟩ := h
    obtain ⟨cut, h0, hlast, hcut⟩ := ih hrest
    refine ⟨fun j => if j = 0 then a else cut (j - 1), rfl, hlast, ?_⟩
    intro j hj
    cases j with
    | zero =>
      have hcut0 : slice = (a, cut 0) := Prod.ext hx h0.symm
      refine ⟨?_, hcut0⟩
      show a < cut 0
      omega
    | succ j => exact hcut j (by simpa using hj)

/-- Concatenating the slices gives the whole range. -/
theorem Contiguous.flatten {α : Type} {a b : ℕ} {slices : List (ℕ × ℕ)} (h : Contiguous a slices b)
    (xs : List α) :
    (slices.map fun slice => (xs.take slice.2).drop slice.1).flatten = (xs.take b).drop a := by
  induction slices generalizing a with
  | nil =>
    obtain rfl : a = b := h
    simp
  | cons slice slices ih =>
    obtain ⟨x, y⟩ := slice
    obtain ⟨rfl, hxy, hrest⟩ := h
    have hsplit := List.take_append_drop (y - x) ((xs.take b).drop x)
    rw [List.map_cons, List.flatten_cons, ih hrest, ← hsplit, List.drop_drop,
      List.take_drop, List.take_take]
    have hmin : min (x + (y - x)) b = y := by
      have := hrest.le
      omega
    rw [hmin, Nat.add_sub_cancel' (Nat.le_of_lt hxy)]

/-! ## Greedy partitions -/

section Greedy

variable {fits : ℕ → ℕ → Prop} {n : ℕ}

/-- No slice but the last could also have held the next position. -/
def Greedy (fits : ℕ → ℕ → Prop) (n : ℕ) (slices : List (ℕ × ℕ)) : Prop :=
  ∀ slice ∈ slices, slice.2 < n → ¬ fits slice.1 (slice.2 + 1)

theorem Greedy.tail {slice : ℕ × ℕ} {slices : List (ℕ × ℕ)} (h : Greedy fits n (slice :: slices)) :
    Greedy fits n slices :=
  fun s hs => h s (List.mem_cons_of_mem slice hs)

/-- A greedy partition that starts no earlier than another one whose slices fit stays ahead of it,
slice by slice, so it is no longer. -/
theorem Greedy.length_le {slices partition : List (ℕ × ℕ)}
    (hgreedy : Greedy fits n slices)
    (hfits_mono : ∀ a a' b b', a ≤ a' → b' ≤ b → fits a b → fits a' b')
    (hfits : ∀ slice ∈ partition, fits slice.1 slice.2) {a a' : ℕ} (hahead : a' ≤ a)
    (h : Contiguous a slices n) (h' : Contiguous a' partition n) :
    slices.length ≤ partition.length := by
  induction partition generalizing slices a a' with
  | nil =>
    have hend : a' = n := h'
    cases slices with
    | nil => exact le_rfl
    | cons slice slices =>
      obtain ⟨hx, hxy, hrest⟩ := h
      have := hrest.le
      omega
  | cons slice' partition ih =>
    obtain ⟨x', y'⟩ := slice'
    obtain ⟨rfl, hxy', hrest'⟩ := h'
    cases slices with
    | nil => exact Nat.zero_le _
    | cons slice slices =>
      obtain ⟨x, y⟩ := slice
      obtain ⟨rfl, hxy, hrest⟩ := h
      have hslice' := hfits (x', y') List.mem_cons_self
      have hrestFits : ∀ slice ∈ partition, fits slice.1 slice.2 :=
        fun s hs => hfits s (List.mem_cons_of_mem _ hs)
      rw [List.length_cons, List.length_cons]
      apply Nat.succ_le_succ
      by_cases hreach : y' ≤ y
      · exact ih hgreedy.tail hrestFits hreach hrest hrest'
      · -- the other slice holds what the greedy one could not have held
        have hlt : y < n := by
          have := hrest'.le
          omega
        have hmore : fits x (y + 1) := hfits_mono x' x y' (y + 1) hahead (by omega) hslice'
        exact absurd hmore (hgreedy (x, y) List.mem_cons_self hlt)

end Greedy

end Slicing
