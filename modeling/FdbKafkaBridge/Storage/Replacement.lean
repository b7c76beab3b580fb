import FdbKafkaBridge.Storage.Disk

/-!
# Replacing a file by a temporary one

A new content is written to a temporary file, which is synced and then takes the name of the target.
That keeps the target whole in every crash as long as the two names never stand for one file:
`Apart`.
-/

namespace Storage

variable {N A : Type}

namespace Disk

/-- The temporary name never stands for a file that the target may stand for after a crash. -/
structure Apart (tmp target : N) (d : Disk N A) : Prop where
  always : ∀ names ∈ d.directories, ∀ i, names tmp = some i → names target ≠ some i
  now : ∀ i, d.names tmp = some i → d.Unbound target i

/-- The file under the name has this content, and keeps it in a crash. -/
def Complete (n : N) (a : A) (d : Disk N A) : Prop := ∃ i, d.names n = some i ∧ d.remains i = {a}

variable {tmp target : N} {d d' : Disk N A} {i : ℕ}

theorem Apart.write (h : d.Apart tmp target) (i : ℕ) (a : A) : (d.write i a).Apart tmp target :=
  ⟨h.always, h.now⟩

theorem Apart.sync (h : d.Apart tmp target) (i : ℕ) : (d.sync i).Apart tmp target :=
  ⟨h.always, h.now⟩

theorem Apart.syncNames (h : d.Apart tmp target) : d.syncNames.Apart tmp target := by
  refine ⟨fun names hnames => h.always names ?_, fun i hi names hnames => h.now i hi names ?_⟩
  · rw [Set.mem_singleton_iff.1 hnames]
    exact d.names_mem
  · rw [Set.mem_singleton_iff.1 hnames]
    exact d.names_mem

/-- After a crash there is one directory, and in each the two names are apart. -/
theorem Apart.crash (h : d.Apart tmp target) (hcrash : d.Crash d') : d'.Apart tmp target := by
  obtain @⟨content, names, -, hnames⟩ := hcrash
  refine ⟨?_, ?_⟩
  · rintro _ rfl i hi
    exact h.always _ hnames i hi
  · rintro i hi _ rfl
    exact h.always _ hnames i hi

/-- Once the directory is synced as well, it is the new one. -/
theorem Complete.possible_syncNames {a : A} (h : d.Complete target a) :
    d.syncNames.possible target = {some a} := by
  obtain ⟨i, hi, ha⟩ := h
  rw [Disk.possible_syncNames, hi, remainsOf, ha, Set.image_singleton]

variable [DecidableEq N]

/-- The temporary name is given to a file that was not in use. -/
theorem Apart.link (h : d.Apart tmp target) (hne : target ≠ tmp) (hi : d.Unused i) :
    (d.change (·.link tmp i)).Apart tmp target := by
  have hunbound : (d.change (·.link tmp i)).Unbound target i := by
    rintro _ (hnames | ⟨names, hnames, rfl⟩)
    · exact hi target _ hnames
    · show names.link tmp i target ≠ some i
      rw [Directory.link_of_ne hne]
      exact hi target names hnames
  refine ⟨?_, ?_⟩
  · rintro _ (hnames | ⟨names, hnames, rfl⟩) j hj
    · exact h.always _ hnames j hj
    · obtain rfl : i = j := Option.some.inj ((Directory.link_self tmp i names).symm.trans hj)
      exact hunbound _ (.inr ⟨names, hnames, rfl⟩)
  · intro j hj
    obtain rfl : i = j := Option.some.inj ((Directory.link_self tmp i d.names).symm.trans hj)
    exact hunbound

/-- The temporary file takes the name of the target. -/
theorem Apart.move (h : d.Apart tmp target) (i : ℕ) :
    (d.change (·.move tmp target i)).Apart tmp target := by
  refine ⟨?_, ?_⟩
  · rintro _ (hnames | ⟨names, hnames, rfl⟩) j hj
    · exact h.always _ hnames j hj
    · exact absurd ((Directory.move_source tmp target i names).symm.trans hj) (by simp)
  · intro j hj
    exact absurd ((Directory.move_source tmp target i d.names).symm.trans hj) (by simp)

theorem possible_link (hne : target ≠ tmp) (i : ℕ) :
    (d.change (·.link tmp i)).possible target = d.possible target :=
  possible_change fun names => Directory.link_of_ne hne i names

theorem read_link (hne : target ≠ tmp) (i : ℕ) :
    (d.change (·.link tmp i)).read target = d.read target :=
  congrArg (Option.map d.content) (Directory.link_of_ne hne i d.names)

/-- Once the temporary file is complete, the target is the old one or the new one. -/
theorem possible_move {a : A} (hne : target ≠ tmp) (hi : d.remains i = {a}) :
    (d.change (·.move tmp target i)).possible target = insert (some a) (d.possible target) := by
  rw [possible_change_to fun names => Directory.move_target hne i names, hi, Set.image_singleton,
    Set.union_comm, Set.singleton_union]

theorem complete_move {a : A} (hne : target ≠ tmp) (hi : d.remains i = {a}) :
    (d.change (·.move tmp target i)).Complete target a :=
  ⟨i, Directory.move_target hne i d.names, hi⟩

end Disk

end Storage
