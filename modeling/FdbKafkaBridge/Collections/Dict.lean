import Mathlib.Data.List.Basic
import Mathlib.Tactic

/-!
# Dictionaries in order of insertion

A dictionary lists its entries in the order in which their keys were first set. Setting a key again
replaces the value where it stands.
-/

namespace Collections

structure Dict (κ ν : Type*) where
  entries : List (κ × ν)
  nodup : (entries.map Prod.fst).Nodup

namespace Dict

variable {κ ν : Type*} [DecidableEq κ]

def lookup (k : κ) : List (κ × ν) → Option ν
  | [] => none
  | entry :: rest => if entry.1 = k then some entry.2 else lookup k rest

def replace (k : κ) (v : ν) : List (κ × ν) → List (κ × ν)
  | [] => [(k, v)]
  | entry :: rest => if entry.1 = k then (k, v) :: rest else entry :: replace k v rest

theorem mem_keys_replace {k k' : κ} {v : ν} {entries : List (κ × ν)} :
    k' ∈ (replace k v entries).map Prod.fst ↔ k' = k ∨ k' ∈ entries.map Prod.fst := by
  induction entries with
  | nil => simp [replace]
  | cons entry rest ih =>
    by_cases hk : entry.1 = k
    · rw [replace, if_pos hk]
      simp only [List.map_cons, List.mem_cons, hk]
      tauto
    · rw [replace, if_neg hk]
      simp only [List.map_cons, List.mem_cons, ih]
      tauto

theorem nodup_replace {k : κ} {v : ν} {entries : List (κ × ν)}
    (h : (entries.map Prod.fst).Nodup) : ((replace k v entries).map Prod.fst).Nodup := by
  induction entries with
  | nil => simp [replace]
  | cons entry rest ih =>
    obtain ⟨hnot, hrest⟩ := List.nodup_cons.1 h
    by_cases hk : entry.1 = k
    · rw [replace, if_pos hk]
      rw [hk] at hnot
      exact List.nodup_cons.2 ⟨hnot, hrest⟩
    · rw [replace, if_neg hk]
      refine List.nodup_cons.2 ⟨?_, ih hrest⟩
      rw [mem_keys_replace]
      rintro (heq | hmem)
      · exact hk heq
      · exact hnot hmem

def empty : Dict κ ν := ⟨[], List.nodup_nil⟩

def keys (d : Dict κ ν) : List κ := d.entries.map Prod.fst

def get? (d : Dict κ ν) (k : κ) : Option ν := lookup k d.entries

def set (d : Dict κ ν) (k : κ) (v : ν) : Dict κ ν := ⟨replace k v d.entries, nodup_replace d.nodup⟩

/-! ## Looking up -/

@[simp] theorem get?_empty (k : κ) : (empty : Dict κ ν).get? k = none := rfl

theorem lookup_replace (k k' : κ) (v : ν) (entries : List (κ × ν)) :
    lookup k' (replace k v entries) = if k' = k then some v else lookup k' entries := by
  induction entries with
  | nil =>
    by_cases hk : k' = k
    · simp [replace, lookup, hk]
    · simp [replace, lookup, hk, Ne.symm hk]
  | cons entry rest ih =>
    by_cases hentry : entry.1 = k
    · by_cases hk : k' = k
      · simp [replace, lookup, hentry, hk]
      · simp [replace, lookup, hentry, hk, Ne.symm hk]
    · by_cases hk : k' = k
      · subst hk
        simp [replace, lookup, hentry, ih]
      · simp [replace, lookup, hentry, hk, ih]

theorem get?_set (d : Dict κ ν) (k k' : κ) (v : ν) :
    (d.set k v).get? k' = if k' = k then some v else d.get? k' :=
  lookup_replace k k' v d.entries

@[simp] theorem get?_set_self (d : Dict κ ν) (k : κ) (v : ν) : (d.set k v).get? k = some v := by
  rw [get?_set, if_pos rfl]

theorem get?_set_of_ne (d : Dict κ ν) {k k' : κ} (v : ν) (h : k' ≠ k) :
    (d.set k v).get? k' = d.get? k' := by
  rw [get?_set, if_neg h]

theorem mem_entries (d : Dict κ ν) {k : κ} {v : ν} : (k, v) ∈ d.entries ↔ d.get? k = some v := by
  obtain ⟨entries, hnodup⟩ := d
  show (k, v) ∈ entries ↔ lookup k entries = some v
  induction entries with
  | nil => simp [lookup]
  | cons entry rest ih =>
    obtain ⟨hnot, hrest⟩ := List.nodup_cons.1 hnodup
    obtain ⟨k', v'⟩ := entry
    rw [List.mem_cons, Prod.mk.injEq, ih hrest]
    by_cases hk : k' = k
    · subst hk
      have hlookup : lookup k' rest ≠ some v := by
        intro h
        have hmem : (k', v) ∈ rest := (ih hrest).2 h
        have hkey : (k', v).1 ∈ rest.map Prod.fst := List.mem_map_of_mem hmem
        exact hnot hkey
      simp [lookup, hlookup, eq_comm]
    · simp [lookup, hk, Ne.symm hk]

/-- A key that is set for the first time comes last. -/
theorem entries_set_of_none (d : Dict κ ν) {k : κ} (v : ν) (h : d.get? k = none) :
    (d.set k v).entries = d.entries ++ [(k, v)] := by
  obtain ⟨entries, hnodup⟩ := d
  show replace k v entries = entries ++ [(k, v)]
  replace h : lookup k entries = none := h
  clear hnodup
  induction entries with
  | nil => rfl
  | cons entry rest ih =>
    by_cases hk : entry.1 = k
    · rw [lookup, if_pos hk] at h
      cases h
    · rw [lookup, if_neg hk] at h
      rw [replace, if_neg hk, ih h]
      rfl

end Dict

end Collections
