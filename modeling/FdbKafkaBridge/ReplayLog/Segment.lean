import FdbKafkaBridge.ReplayLog.GapFree

/-!
# Segments of a stream

A writer that has been sent back to some point of the stream goes on from there with a segment: the
groups after that point, each with its closing mark. A segment may be written after any gap-free log
that covers the stream up to its start, however far the log got in the meantime.
-/

namespace ReplayLog

variable {M : Type} (stream : ℕ → List M)

/-- All items of the stream up to version `p` are in the log. -/
def Covers (log : List (Entry M)) (p : ℤ) : Prop :=
  ∀ a, Occurs stream a → (a.version : ℤ) ≤ p → .item a ∈ log

/-- The entries of the group at one version. -/
def groupEntries (version : ℕ) : List (Entry M) :=
  (itemsFrom version 0 (stream version)).map .item ++ [.closed version (stream version).length]

/-- `Segment p xs w`: the entries `xs` lead from right after version `p` to version `w`. Groups
without items may be left out. -/
inductive Segment : ℤ → List (Entry M) → ℤ → Prop
  | nil (p : ℤ) : Segment p [] p
  | group {p : ℤ} {version : ℕ} {xs : List (Entry M)} {w : ℤ} (hlt : p < version)
      (hempty : ∀ v : ℕ, p < v → v < version → stream v = []) (h : Segment version xs w) :
      Segment p (groupEntries stream version ++ xs) w

variable {stream}

theorem Covers.mono {log log' : List (Entry M)} {p : ℤ} (h : Covers stream log p)
    (hsub : log ⊆ log') : Covers stream log' p :=
  fun a ha hle => hsub (h a ha hle)

theorem Covers.le {log : List (Entry M)} {p q : ℤ} (h : Covers stream log p) (hqp : q ≤ p) :
    Covers stream log q :=
  fun a ha hle => h a ha (hle.trans hqp)

theorem Segment.le {p w : ℤ} {xs : List (Entry M)} (h : Segment stream p xs w) : p ≤ w := by
  induction h with
  | nil p => exact le_rfl
  | group hlt _ _ ih => exact hlt.le.trans ih

theorem Segment.trans {p q w : ℤ} {xs ys : List (Entry M)} (h : Segment stream p xs q)
    (h' : Segment stream q ys w) : Segment stream p (xs ++ ys) w := by
  induction h with
  | nil p => exact h'
  | group hlt hempty _ ih =>
    rw [List.append_assoc]
    exact .group hlt hempty (ih h')

theorem Segment.single {p : ℤ} {version : ℕ} (hlt : p < version)
    (hempty : ∀ v : ℕ, p < v → v < version → stream v = []) :
    Segment stream p (groupEntries stream version) version := by
  have h := Segment.group hlt hempty (Segment.nil (version : ℤ))
  rwa [List.append_nil] at h

/-- What precedes an item of the next group is covered or earlier in that group. -/
theorem Covers.before {log : List (Entry M)} {p : ℤ} {version : ℕ} (hc : Covers stream log p)
    (hempty : ∀ v : ℕ, p < v → v < version → stream v = []) {a : Item M}
    (ha : Occurs stream a) (hlt : a.version < version) : .item a ∈ log := by
  by_cases hp : (a.version : ℤ) ≤ p
  · exact hc a ha hp
  · have hnone := hempty a.version (not_le.1 hp) hlt
    rw [Occurs, hnone] at ha
    simp at ha

/-- The items of the next group, one after the other. -/
theorem GapFree.items {log : List (Entry M)} {p : ℤ} {version : ℕ} (h : GapFree stream log)
    (hc : Covers stream log p) (hempty : ∀ v : ℕ, p < v → v < version → stream v = [])
    (done : List M) : ∀ {rest : List M}, stream version = done ++ rest →
      GapFree stream (log ++ (itemsFrom version 0 done).map .item) := by
  induction done using List.reverseRecOn with
  | nil =>
    intro rest _
    simpa [itemsFrom] using h
  | append_singleton done x ih =>
    intro rest hsplit
    have hprev : GapFree stream (log ++ (itemsFrom version 0 done).map .item) :=
      @ih (x :: rest) (by simpa using hsplit)
    have hlast : itemsFrom version 0 (done ++ [x]) =
        itemsFrom version 0 done ++ [⟨version, done.length, x⟩] := by
      rw [itemsFrom_append, Nat.zero_add]
      rfl
    rw [hlast, List.map_append, ← List.append_assoc]
    refine .concat hprev ⟨?_, ?_⟩
    · show (stream version)[done.length]? = some x
      rw [hsplit]
      simp
    · intro a ha hbefore
      rw [List.mem_append]
      rcases hbefore with hlt | ⟨hv, hi⟩
      · exact .inl (hc.before hempty ha hlt)
      · right
        simp only at hv hi
        refine List.mem_map_of_mem (mem_itemsFrom.2 ⟨hv, Nat.zero_le _, ?_⟩)
        rw [Occurs, hv, hsplit, List.append_assoc, List.getElem?_append_left hi] at ha
        exact ha

/-- The next group with its closing mark. -/
theorem GapFree.group {log : List (Entry M)} {p : ℤ} {version : ℕ} (h : GapFree stream log)
    (hc : Covers stream log p) (hempty : ∀ v : ℕ, p < v → v < version → stream v = []) :
    GapFree stream (log ++ groupEntries stream version) ∧
      Covers stream (log ++ groupEntries stream version) version := by
  have hitems : GapFree stream (log ++ (itemsFrom version 0 (stream version)).map .item) :=
    @GapFree.items _ _ _ _ _ h hc hempty (stream version) [] (by simp)
  have hall : ∀ a, Occurs stream a → a.version ≤ version →
      .item a ∈ log ++ (itemsFrom version 0 (stream version)).map .item := by
    intro a ha hle
    rw [List.mem_append]
    rcases Nat.lt_or_eq_of_le hle with hlt | hv
    · exact .inl (hc.before hempty ha hlt)
    · right
      refine List.mem_map_of_mem (mem_itemsFrom.2 ⟨hv, Nat.zero_le _, ?_⟩)
      rwa [Occurs, hv] at ha
  rw [groupEntries, ← List.append_assoc]
  refine ⟨.concat hitems ⟨rfl, hall⟩, ?_⟩
  intro a ha hle
  exact List.mem_append_left _ (hall a ha (by exact_mod_cast hle))

/-- A segment extends every gap-free log that covers its start. -/
theorem Segment.gapFree {p w : ℤ} {xs : List (Entry M)} (hseg : Segment stream p xs w) :
    ∀ {log : List (Entry M)}, GapFree stream log → Covers stream log p →
      GapFree stream (log ++ xs) ∧ Covers stream (log ++ xs) w := by
  induction hseg with
  | nil p =>
    intro log h hc
    rw [List.append_nil]
    exact ⟨h, hc⟩
  | group hlt hempty _ ih =>
    intro log h hc
    obtain ⟨hgroup, hcgroup⟩ := h.group hc hempty
    rw [← List.append_assoc]
    exact ih hgroup hcgroup

/-- The items of a segment are all that the stream has between its ends. -/
theorem Segment.mem {p w : ℤ} {xs : List (Entry M)} (hseg : Segment stream p xs w) {a : Item M}
    (ha : Occurs stream a) (hp : p < a.version) (hw : (a.version : ℤ) ≤ w) : .item a ∈ xs := by
  induction hseg with
  | nil p => omega
  | @group p version xs w hlt hempty _ ih =>
    rw [List.mem_append]
    rcases lt_trichotomy a.version version with hbefore | hv | hafter
    · have hnone := hempty a.version hp hbefore
      rw [Occurs, hnone] at ha
      simp at ha
    · left
      rw [groupEntries, List.mem_append]
      refine .inl (List.mem_map_of_mem (mem_itemsFrom.2 ⟨hv, Nat.zero_le _, ?_⟩))
      rwa [Occurs, hv] at ha
    · exact .inr (ih (by exact_mod_cast hafter) hw)

end ReplayLog
