import Mathlib.Data.Set.Lattice

/-!
# A disk that keeps less than it shows

Processes see the content of files and the names of a directory. What a crash of the machine leaves
may be older: of a file, anything until it has been synced, and of the directory, any state since it
was last synced. `possible` is what may then be found under a name.
-/

namespace Storage

variable {N A : Type}

/-- The names in use, with the numbers of the files that they stand for. -/
abbrev Directory (N : Type) := N → Option ℕ

namespace Directory

variable [DecidableEq N]

def link (n : N) (i : ℕ) (names : Directory N) : Directory N := Function.update names n (some i)

/-- The file `i` is found under `b` and no longer under `a`, in one step. -/
def move (a b : N) (i : ℕ) (names : Directory N) : Directory N :=
  Function.update (Function.update names b (some i)) a none

theorem link_of_ne {n m : N} (h : m ≠ n) (i : ℕ) (names : Directory N) :
    names.link n i m = names m :=
  Function.update_of_ne h _ _

@[simp] theorem link_self (n : N) (i : ℕ) (names : Directory N) : names.link n i n = some i :=
  Function.update_self _ _ _

theorem move_target {a b : N} (h : b ≠ a) (i : ℕ) (names : Directory N) :
    names.move a b i b = some i := by
  rw [move, Function.update_of_ne h, Function.update_self]

@[simp] theorem move_source (a b : N) (i : ℕ) (names : Directory N) :
    names.move a b i a = none :=
  Function.update_self _ _ _

end Directory

/-- Files are numbered; a number that no name stands for is not in use. -/
structure Disk (N A : Type) where
  content : ℕ → A
  /-- What a crash may leave of each file. -/
  remains : ℕ → Set A
  names : Directory N
  /-- What a crash may leave of the directory. -/
  directories : Set (Directory N)
  content_mem : ∀ i, content i ∈ remains i
  names_mem : names ∈ directories

namespace Disk

/-- The disk on which nothing can be lost. -/
def settled (content : ℕ → A) (names : Directory N) : Disk N A where
  content := content
  remains i := {content i}
  names := names
  directories := {names}
  content_mem _ := Set.mem_singleton _
  names_mem := Set.mem_singleton _

/-- Some of the content has been written; a crash may leave anything of it. -/
def write (d : Disk N A) (i : ℕ) (a : A) : Disk N A where
  content := Function.update d.content i a
  remains := Function.update d.remains i Set.univ
  names := d.names
  directories := d.directories
  content_mem j := by
    by_cases h : j = i
    · subst h
      rw [Function.update_self]
      trivial
    · rw [Function.update_of_ne h, Function.update_of_ne h]
      exact d.content_mem j
  names_mem := d.names_mem

/-- `fsync` of a file. -/
def sync (d : Disk N A) (i : ℕ) : Disk N A where
  content := d.content
  remains := Function.update d.remains i {d.content i}
  names := d.names
  directories := d.directories
  content_mem j := by
    by_cases h : j = i
    · subst h
      rw [Function.update_self]
      exact Set.mem_singleton _
    · rw [Function.update_of_ne h]
      exact d.content_mem j
  names_mem := d.names_mem

/-- The directory is changed. The change may be lost, alone or with others. -/
def change (d : Disk N A) (f : Directory N → Directory N) : Disk N A where
  content := d.content
  remains := d.remains
  names := f d.names
  directories := d.directories ∪ f '' d.directories
  content_mem := d.content_mem
  names_mem := .inr ⟨_, d.names_mem, rfl⟩

/-- `fsync` of the directory. -/
def syncNames (d : Disk N A) : Disk N A where
  content := d.content
  remains := d.remains
  names := d.names
  directories := {d.names}
  content_mem := d.content_mem
  names_mem := Set.mem_singleton _

/-- The machine goes down and comes up with what is left. -/
inductive Crash (d : Disk N A) : Disk N A → Prop
  | left {content : ℕ → A} {names : Directory N} (hcontent : ∀ i, content i ∈ d.remains i)
      (hnames : names ∈ d.directories) : Crash d (settled content names)

/-- What is found under a name. -/
def read (d : Disk N A) (n : N) : Option A := (d.names n).map d.content

/-- What a crash may leave of a file that may not exist. -/
def remainsOf (d : Disk N A) : Option ℕ → Set (Option A)
  | none => {none}
  | some i => some '' d.remains i

/-- What may be found under a name after a crash. -/
def possible (d : Disk N A) (n : N) : Set (Option A) :=
  {found | ∃ names ∈ d.directories, found ∈ d.remainsOf (names n)}

/-- No directory that a crash may leave has the name for the file. -/
def Unbound (d : Disk N A) (n : N) (i : ℕ) : Prop := ∀ names ∈ d.directories, names n ≠ some i

/-- The file has no name, whatever a crash leaves. -/
def Unused (d : Disk N A) (i : ℕ) : Prop := ∀ n, d.Unbound n i

variable {d d' : Disk N A} {n : N} {i : ℕ}

theorem remainsOf_settled (content : ℕ → A) (names : Directory N) (o : Option ℕ) :
    (settled content names).remainsOf o = {o.map content} := by
  cases o with
  | none => rfl
  | some i => exact Set.image_singleton

theorem possible_settled (content : ℕ → A) (names : Directory N) (n : N) :
    (settled content names).possible n = {(names n).map content} := by
  ext found
  constructor
  · rintro ⟨_, rfl, hfound⟩
    rwa [remainsOf_settled] at hfound
  · intro hfound
    refine ⟨names, rfl, ?_⟩
    rwa [remainsOf_settled]

/-- A crash leaves one of the possible contents. -/
theorem Crash.possible_subset (h : Crash d d') (n : N) : d'.possible n ⊆ d.possible n := by
  obtain @⟨content, names, hcontent, hnames⟩ := h
  rw [possible_settled, Set.singleton_subset_iff]
  refine ⟨names, hnames, ?_⟩
  cases names n with
  | none => rfl
  | some i => exact ⟨content i, hcontent i, rfl⟩

/-- Only the names matter and what remains of the files that a name may stand for. -/
theorem possible_congr (hdirectories : d'.directories = d.directories)
    (hremains : ∀ j, j ≠ i → d'.remains j = d.remains j) (hi : d.Unbound n i) :
    d'.possible n = d.possible n := by
  unfold possible
  rw [hdirectories]
  ext found
  refine exists_congr fun names => and_congr_right fun hnames => ?_
  cases h : names n with
  | none => rfl
  | some j =>
    have hj : j ≠ i := by
      rintro rfl
      exact hi names hnames h
    rw [remainsOf.eq_2, remainsOf.eq_2, hremains j hj]

theorem possible_write (a : A) (hi : d.Unbound n i) : (d.write i a).possible n = d.possible n :=
  possible_congr rfl (fun _ hj => Function.update_of_ne hj _ _) hi

theorem possible_sync (hi : d.Unbound n i) : (d.sync i).possible n = d.possible n :=
  possible_congr rfl (fun _ hj => Function.update_of_ne hj _ _) hi

theorem read_write (a : A) (hi : d.Unbound n i) : (d.write i a).read n = d.read n := by
  unfold read write
  cases h : d.names n with
  | none => rfl
  | some j =>
    have hj : j ≠ i := by
      rintro rfl
      exact hi d.names d.names_mem h
    simp only [Option.map_some, Function.update_of_ne hj]

/-- A change that leaves a name alone. -/
theorem possible_change {f : Directory N → Directory N} (h : ∀ names, f names n = names n) :
    (d.change f).possible n = d.possible n := by
  ext found
  constructor
  · rintro ⟨names, hnames | ⟨names, hnames, rfl⟩, hfound⟩
    · exact ⟨names, hnames, hfound⟩
    · rw [h] at hfound
      exact ⟨names, hnames, hfound⟩
  · rintro ⟨names, hnames, hfound⟩
    exact ⟨names, .inl hnames, hfound⟩

/-- A change that gives a name to a file. -/
theorem possible_change_to {f : Directory N → Directory N} (h : ∀ names, f names n = some i) :
    (d.change f).possible n = d.possible n ∪ some '' d.remains i := by
  ext found
  constructor
  · rintro ⟨names, hnames | ⟨names, hnames, rfl⟩, hfound⟩
    · exact .inl ⟨names, hnames, hfound⟩
    · rw [h] at hfound
      exact .inr hfound
  · rintro (⟨names, hnames, hfound⟩ | hfound)
    · exact ⟨names, .inl hnames, hfound⟩
    · refine ⟨f d.names, .inr ⟨d.names, d.names_mem, rfl⟩, ?_⟩
      rw [h]
      exact hfound

theorem possible_syncNames : d.syncNames.possible n = d.remainsOf (d.names n) := by
  ext found
  constructor
  · rintro ⟨_, rfl, hfound⟩
    exact hfound
  · exact fun hfound => ⟨d.names, rfl, hfound⟩

end Disk

end Storage
