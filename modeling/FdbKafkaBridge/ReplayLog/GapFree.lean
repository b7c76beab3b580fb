import Mathlib.Tactic

/-!
# Logs with replays

A stream is a sequence of groups of items, numbered by version. A log of it holds items and closing
marks, and may repeat earlier parts, since whoever writes it may be sent back and start again. It is
gap-free when each entry comes after everything that precedes it in the stream. The first
occurrences in a gap-free log are then a prefix of the stream, whatever was repeated, and every
closing mark is truthful.
-/

namespace ReplayLog

variable {M : Type}

/-- One item of a stream: its value at its position in the group of a version. -/
structure Item (M : Type) where
  version : ℕ
  index : ℕ
  value : M
  deriving DecidableEq, Repr

/-- One entry of a log: an item, or the mark that a version is closed after `total` items. -/
inductive Entry (M : Type)
  | item (a : Item M)
  | closed (version total : ℕ)
  deriving DecidableEq, Repr

/-- The identity of an item. -/
def Item.key (a : Item M) : ℕ × ℕ := (a.version, a.index)

/-- The order of the stream. -/
def Item.Before (a b : Item M) : Prop :=
  a.version < b.version ∨ (a.version = b.version ∧ a.index < b.index)

/-- The items of a group, numbered from `first` on. -/
def itemsFrom (version : ℕ) : ℕ → List M → List (Item M)
  | _, [] => []
  | first, x :: xs => ⟨version, first, x⟩ :: itemsFrom version (first + 1) xs

/-- The items in a list of entries. -/
def items (log : List (Entry M)) : List (Item M) :=
  log.filterMap fun
    | .item a => some a
    | .closed _ _ => none

/-- Adds an item to a list, unless its key is there already. -/
def addFirst (acc : List (Item M)) (a : Item M) : List (Item M) :=
  if a.key ∈ acc.map Item.key then acc else acc ++ [a]

/-- The first occurrence of each key, in order. -/
def keepFirst (xs : List (Item M)) : List (Item M) := xs.foldl addFirst []

@[simp] theorem items_append (log log' : List (Entry M)) :
    items (log ++ log') = items log ++ items log' :=
  List.filterMap_append

theorem mem_items {log : List (Entry M)} {a : Item M} : a ∈ items log ↔ Entry.item a ∈ log := by
  simp only [items, List.mem_filterMap]
  constructor
  · rintro ⟨x, hx, hsome⟩
    cases x with
    | item b =>
      cases hsome
      exact hx
    | closed V n => cases hsome
  · exact fun h => ⟨_, h, rfl⟩

theorem keepFirst_concat (xs : List (Item M)) (a : Item M) :
    keepFirst (xs ++ [a]) = addFirst (keepFirst xs) a := by
  simp [keepFirst]

theorem mem_itemsFrom {version first : ℕ} {xs : List M} {a : Item M} :
    a ∈ itemsFrom version first xs ↔
      a.version = version ∧ first ≤ a.index ∧ xs[a.index - first]? = some a.value := by
  induction xs generalizing first with
  | nil => simp [itemsFrom]
  | cons x xs ih =>
    obtain ⟨v, i, y⟩ := a
    rw [itemsFrom, List.mem_cons, ih]
    constructor
    · rintro (heq | ⟨hv, hi, hget⟩)
      · cases heq
        simp
      · simp only at hv hi hget ⊢
        refine ⟨hv, by omega, ?_⟩
        rw [show i - first = (i - (first + 1)) + 1 by omega, List.getElem?_cons_succ]
        exact hget
    · rintro ⟨hv, hi, hget⟩
      simp only at hv hi hget ⊢
      rcases Nat.eq_or_lt_of_le hi with rfl | hlt
      · left
        rw [Nat.sub_self, List.getElem?_cons_zero, Option.some.injEq] at hget
        rw [hv, hget]
      · right
        refine ⟨hv, by omega, ?_⟩
        rw [show i - first = (i - (first + 1)) + 1 by omega, List.getElem?_cons_succ] at hget
        exact hget

theorem itemsFrom_pairwise (version first : ℕ) (xs : List M) :
    (itemsFrom version first xs).Pairwise Item.Before := by
  induction xs generalizing first with
  | nil => exact List.Pairwise.nil
  | cons x xs ih =>
    refine List.Pairwise.cons ?_ (ih (first + 1))
    intro b hb
    obtain ⟨hv, hi, -⟩ := mem_itemsFrom.1 hb
    exact .inr ⟨hv.symm, Nat.lt_of_succ_le hi⟩

theorem itemsFrom_append (version first : ℕ) (xs ys : List M) :
    itemsFrom version first (xs ++ ys) =
      itemsFrom version first xs ++ itemsFrom version (first + xs.length) ys := by
  induction xs generalizing first with
  | nil => rfl
  | cons x xs ih => simp [itemsFrom, ih, Nat.add_assoc, Nat.add_comm 1]

/-! ## The stream -/

section Stream

variable (stream : ℕ → List M)

/-- The item is in the stream. -/
def Occurs (a : Item M) : Prop := (stream a.version)[a.index]? = some a.value

/-- The items of the stream at versions below `n`, in order. -/
def itemsBelow (n : ℕ) : List (Item M) :=
  (List.range n).flatMap fun version => itemsFrom version 0 (stream version)

variable {stream}

theorem mem_itemsBelow {n : ℕ} {a : Item M} :
    a ∈ itemsBelow stream n ↔ a.version < n ∧ Occurs stream a := by
  simp only [itemsBelow, List.mem_flatMap, List.mem_range, mem_itemsFrom, Nat.sub_zero, Occurs]
  constructor
  · rintro ⟨v, hv, rfl, -, hget⟩
    exact ⟨hv, hget⟩
  · rintro ⟨hv, hget⟩
    exact ⟨a.version, hv, rfl, Nat.zero_le _, hget⟩

theorem itemsBelow_succ (n : ℕ) :
    itemsBelow stream (n + 1) = itemsBelow stream n ++ itemsFrom n 0 (stream n) := by
  simp [itemsBelow, List.range_succ]

theorem itemsBelow_isPrefix {m n : ℕ} (h : m ≤ n) : itemsBelow stream m <+: itemsBelow stream n := by
  induction n, h using Nat.le_induction with
  | base => exact List.prefix_rfl
  | succ n _ ih =>
    rw [itemsBelow_succ]
    exact ih.trans (List.prefix_append _ _)

theorem itemsBelow_pairwise (n : ℕ) : (itemsBelow stream n).Pairwise Item.Before := by
  induction n with
  | zero => exact List.Pairwise.nil
  | succ n ih =>
    rw [itemsBelow_succ, List.pairwise_append]
    refine ⟨ih, itemsFrom_pairwise n 0 _, ?_⟩
    intro a ha b hb
    obtain ⟨hlt, -⟩ := mem_itemsBelow.1 ha
    obtain ⟨hv, -⟩ := mem_itemsFrom.1 hb
    exact .inl (hv ▸ hlt)

theorem Item.Before.irrefl (a : Item M) : ¬ a.Before a := by
  rintro (h | ⟨-, h⟩)
  · exact lt_irrefl _ h
  · exact lt_irrefl _ h

/-- Two items of the stream with the same key are the same. -/
theorem Occurs.eq_of_key {a b : Item M} (ha : Occurs stream a) (hb : Occurs stream b)
    (h : a.key = b.key) : a = b := by
  obtain ⟨v, i, x⟩ := a
  obtain ⟨w, j, y⟩ := b
  obtain ⟨rfl, rfl⟩ : v = w ∧ i = j := by simpa [Item.key] using h
  rw [Occurs] at ha hb
  rw [ha, Option.some.injEq] at hb
  rw [show x = y from hb]

/-! ## Gap-free logs -/

variable (stream) in
/-- The entry may follow the log: all that precedes it in the stream is there. -/
def Fits (log : List (Entry M)) : Entry M → Prop
  | .item b => Occurs stream b ∧ ∀ a, Occurs stream a → a.Before b → .item a ∈ log
  | .closed version total => total = (stream version).length ∧
      ∀ a, Occurs stream a → a.version ≤ version → .item a ∈ log

variable (stream) in
/-- Every entry fits the log before it. -/
inductive GapFree : List (Entry M) → Prop
  | nil : GapFree []
  | concat {log : List (Entry M)} {x : Entry M} (h : GapFree log) (hx : Fits stream log x) :
      GapFree (log ++ [x])

theorem Fits.mono {log log' : List (Entry M)} {x : Entry M} (h : Fits stream log x)
    (hsub : log ⊆ log') : Fits stream log' x := by
  cases x with
  | item b => exact ⟨h.1, fun a ha hab => hsub (h.2 a ha hab)⟩
  | closed version total => exact ⟨h.1, fun a ha hle => hsub (h.2 a ha hle)⟩

theorem GapFree.of_append {log log' : List (Entry M)} (h : GapFree stream (log ++ log')) :
    GapFree stream log := by
  induction log' using List.reverseRecOn with
  | nil => rwa [List.append_nil] at h
  | append_singleton log' x ih =>
    rw [← List.append_assoc] at h
    generalize hl : log ++ log' ++ [x] = l at h
    cases h with
    | nil => simp at hl
    | concat h hx =>
      obtain ⟨rfl, -⟩ := List.append_inj' hl rfl
      exact ih h

/-- Where an entry stands in a gap-free log, it fits what is before it. -/
theorem GapFree.fits {before after : List (Entry M)} {x : Entry M}
    (h : GapFree stream (before ++ x :: after)) : Fits stream before x := by
  have hsplit : before ++ x :: after = (before ++ [x]) ++ after := by simp
  have h' : GapFree stream (before ++ [x]) := by
    rw [hsplit] at h
    exact h.of_append
  generalize hl : before ++ [x] = l at h'
  cases h' with
  | nil => simp at hl
  | concat h' hx =>
    obtain ⟨rfl, hx'⟩ := List.append_inj' hl rfl
    cases hx'
    exact hx

theorem GapFree.occurs {log : List (Entry M)} (h : GapFree stream log) {a : Item M}
    (ha : .item a ∈ log) : Occurs stream a := by
  obtain ⟨before, after, rfl⟩ := List.append_of_mem ha
  exact h.fits.1

/-- The rest of a log is gap-free after another log that contains as much. -/
theorem GapFree.append {log log' : List (Entry M)} {xs : List (Entry M)}
    (h : GapFree stream (log ++ xs)) (h' : GapFree stream log') (hsub : log ⊆ log') :
    GapFree stream (log' ++ xs) := by
  induction xs using List.reverseRecOn with
  | nil => rwa [List.append_nil]
  | append_singleton xs x ih =>
    rw [← List.append_assoc] at h ⊢
    have hfits : Fits stream (log ++ xs) x := h.fits
    refine .concat (ih h.of_append) (hfits.mono ?_)
    exact List.append_subset.2 ⟨fun y hy => List.mem_append_left _ (hsub hy),
      List.subset_append_right _ _⟩

/-! ## First occurrences -/

/-- The next item of a sorted enumeration is the first one that is not there yet. -/
theorem take_succ_of_fits {enum : List (Item M)} (hsorted : enum.Pairwise Item.Before) {k : ℕ}
    {b : Item M} (hb : b ∈ enum) (hnew : b ∉ enum.take k)
    (hbefore : ∀ a ∈ enum, a.Before b → a ∈ enum.take k) :
    enum.take (k + 1) = enum.take k ++ [b] := by
  have hdrop : b ∈ enum.drop k := by
    rw [← List.take_append_drop k enum, List.mem_append] at hb
    exact hb.resolve_left hnew
  cases hrest : enum.drop k with
  | nil =>
    rw [hrest] at hdrop
    cases hdrop
  | cons c rest =>
    have hc : enum[k]? = some c := by
      have := congrArg List.head? hrest
      rwa [List.head?_drop, List.head?_cons] at this
    have hcb : c = b := by
      rw [hrest, List.mem_cons] at hdrop
      rcases hdrop with hbc | hlater
      · exact hbc.symm
      · -- otherwise `c` is before `b`, yet comes only now
        exfalso
        have hpair : (c :: rest).Pairwise Item.Before := hrest ▸ hsorted.sublist (List.drop_sublist k enum)
        have hcbefore := (List.pairwise_cons.1 hpair).1 b hlater
        have hmem : c ∈ enum := List.mem_of_getElem? hc
        have htake := hbefore c hmem hcbefore
        have hsplit := hsorted
        rw [← List.take_append_drop k enum, List.pairwise_append] at hsplit
        have hcc := hsplit.2.2 c htake c (by rw [hrest]; exact List.mem_cons_self)
        exact Item.Before.irrefl c hcc
    rw [List.take_add_one, hc, hcb]
    rfl

/-- The first occurrences in a gap-free log are a prefix of the stream. -/
theorem GapFree.keepFirst_prefix {log : List (Entry M)} (h : GapFree stream log) :
    ∃ n, keepFirst (items log) <+: itemsBelow stream n ∧
      ∀ a, a ∈ keepFirst (items log) ↔ .item a ∈ log := by
  induction h with
  | nil => exact ⟨0, List.nil_prefix, fun a => by simp [items, keepFirst]⟩
  | @concat log x hlog hx ih =>
    obtain ⟨n, hprefix, hmem⟩ := ih
    cases x with
    | closed version total =>
      have hitems : items (log ++ [.closed version total]) = items log := by simp [items]
      rw [hitems]
      refine ⟨n, hprefix, fun a => ?_⟩
      rw [hmem a]
      simp
    | item b =>
      have hitems : items (log ++ [.item b]) = items log ++ [b] := by simp [items]
      rw [hitems, keepFirst_concat, addFirst]
      by_cases hkey : b.key ∈ (keepFirst (items log)).map Item.key
      · -- a replay: the item is there already
        obtain ⟨a, ha, hab⟩ := List.mem_map.1 hkey
        have heq : a = b := (hlog.occurs ((hmem a).1 ha)).eq_of_key hx.1 hab
        rw [if_pos hkey]
        refine ⟨n, hprefix, fun c => ?_⟩
        rw [hmem c, List.mem_append, List.mem_singleton, Entry.item.injEq]
        constructor
        · exact Or.inl
        · rintro (hc | rfl)
          · exact hc
          · exact (hmem c).1 (heq ▸ ha)
      · have hnew : b ∉ keepFirst (items log) := fun hb => hkey (List.mem_map_of_mem hb)
        rw [if_neg hkey]
        refine ⟨max n (b.version + 1), ?_, fun c => ?_⟩
        · have hlong := hprefix.trans (itemsBelow_isPrefix (le_max_left n (b.version + 1)))
          obtain hk := List.prefix_iff_eq_take.1 hlong
          have hb : b ∈ itemsBelow stream (max n (b.version + 1)) :=
            mem_itemsBelow.2 ⟨by omega, hx.1⟩
          rw [List.prefix_iff_eq_take, List.length_append, List.length_singleton]
          rw [take_succ_of_fits (itemsBelow_pairwise _) hb, ← hk]
          · rwa [← hk]
          · intro a ha hab
            rw [← hk, hmem a]
            exact hx.2 a (mem_itemsBelow.1 ha).2 hab
        · rw [List.mem_append, List.mem_singleton, hmem c, List.mem_append, List.mem_singleton,
            Entry.item.injEq]

/-- A closing mark is truthful: all items up to its version are before it, and it counts those at
its version. -/
theorem GapFree.closed_truthful {before after : List (Entry M)} {version total : ℕ}
    (h : GapFree stream (before ++ .closed version total :: after)) :
    (∀ a, Occurs stream a → a.version ≤ version → .item a ∈ before) ∧
      total = (stream version).length :=
  ⟨h.fits.2, h.fits.1⟩

end Stream

end ReplayLog
