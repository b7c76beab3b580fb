import FdbKafkaBridge.Bridge.CursorDisk
import FdbKafkaBridge.Cdc.Client

/-!
# The cursor file survives crashes

`saveCursorToFile` keeps the temporary file and the cursor file apart, so that until `os.replace`
nothing that can be loaded changes, from then on only the new content can be found besides the old
ones, and once the directory has been synced nothing else can. `saveCursorToFile_durable` puts that
together for a whole history of saves and crashes.
-/

namespace FdbKafkaBridge

open Interaction Storage FileSystem

variable {σ : Type} [HasCallbacks σ]

theorem tmpPath_ne (path : String) : path ≠ tmpPath path := by
  intro h
  have hlength := congrArg String.length h
  rw [tmpPath, String.length_append] at hlength
  have htmp : ".tmp".length = 4 := rfl
  omega

namespace FileSystem

/-- The file system with a note of whether `os.replace` has been called. -/
abbrev NotedAnswers : FileSystem × Bool → Event Response → FileSystem × Bool → Prop :=
  noting isReplace Answers

/-- A call that answers as specified. -/
theorem triple_native {δ : Type} {A : δ → Event Response → δ → Prop} {c : Call} {Safe P : δ → Prop}
    {Q : Except PyExc c.Value → δ → Prop}
    (h : ∀ d d' (r : Response c), P d → A d ⟨c, r⟩ d' → Safe d' ∧ Q r.result d') :
    Triple A Safe P (native c : Py σ c.Value) Q := by
  intro s D hD
  refine wp_native.2 fun r => ⟨_, tracker_next.2 ⟨?_, rfl⟩, ?_⟩
  · rintro d' ⟨d, hd, hanswers⟩
    exact (h d d' r (hD d hd) hanswers).1
  · rintro d' ⟨d, hd, hanswers⟩
    exact (h d d' r (hD d hd) hanswers).2

section Saving

variable (path : String) (V : Set (Option JsonText)) (found : Option JsonText) (text : JsonText)

/-- What can be loaded is still what it was. -/
structure Untouched (disk : Disk String JsonText) : Prop where
  apart : disk.Apart (tmpPath path) path
  possible : disk.possible path = V
  read : disk.read path = found

/-- The temporary file is open. -/
structure Writing (i : ℕ) (buffered : Option JsonText) (fs : FileSystem) : Prop extends
    Untouched path V found fs.disk where
  writer : fs.writer = some ⟨i, buffered⟩
  temporary : fs.disk.names (tmpPath path) = some i

/-- At any point of a save, what may be loaded after a crash is an old content or the new one, and
before `os.replace` it is what it was. -/
structure Safe (d : FileSystem × Bool) : Prop where
  apart : d.1.disk.Apart (tmpPath path) path
  possible : d.1.disk.possible path ⊆ insert (some text) V
  before : d.2 = false → d.1.disk.possible path = V ∧ d.1.disk.read path = found

/-- `os.replace` has been done. -/
structure Replaced (d : FileSystem × Bool) : Prop where
  apart : d.1.disk.Apart (tmpPath path) path
  possible : d.1.disk.possible path ⊆ insert (some text) V
  complete : d.1.disk.Complete path text
  noted : d.2 = true

/-- The directory has been synced as well. -/
structure Durable (d : FileSystem × Bool) : Prop where
  apart : d.1.disk.Apart (tmpPath path) path
  possible : d.1.disk.possible path = {some text}
  noted : d.2 = true

variable {path V found text} {fs : FileSystem} {d : FileSystem × Bool} {i : ℕ}
  {buffered : Option JsonText}

theorem Untouched.safe (h : Untouched path V found fs.disk) : Safe path V found text (fs, false) :=
  ⟨h.apart, h.possible.subset.trans (Set.subset_insert _ _), fun _ => ⟨h.possible, h.read⟩⟩

theorem Replaced.safe (h : Replaced path V text d) : Safe path V found text d :=
  ⟨h.apart, h.possible, fun hnoted => absurd (h.noted.symm.trans hnoted) (by simp)⟩

theorem Durable.safe (h : Durable path text d) : Safe path V found text d := by
  refine ⟨h.apart, ?_, fun hnoted => absurd (h.noted.symm.trans hnoted) (by simp)⟩
  rw [h.possible, Set.singleton_subset_iff]
  exact Set.mem_insert _ _

theorem Writing.unbound (h : Writing path V found i buffered fs) : fs.disk.Unbound path i :=
  h.apart.now i h.temporary

/-- Writing to the temporary file does not touch the target. -/
theorem Writing.write (h : Writing path V found i buffered fs) (content : JsonText)
    (buffered' : Option JsonText) :
    Writing path V found i buffered' ⟨fs.disk.write i content, some ⟨i, buffered'⟩⟩ where
  apart := h.apart.write i content
  possible := (Disk.possible_write content h.unbound).trans h.possible
  read := (Disk.read_write content h.unbound).trans h.read
  writer := rfl
  temporary := h.temporary

/-- `open(tmp_path, "w")`. -/
theorem Untouched.opens (h : Untouched path V found fs.disk) {fs' : FileSystem}
    (hopens : fs.Opens (tmpPath path) fs') : ∃ i, Writing path V found i none fs' := by
  cases hopens with
  | @truncated i hi =>
    have hwriting : Writing path V found i none ⟨fs.disk, some ⟨i, none⟩⟩ := ⟨h, rfl, hi⟩
    exact ⟨i, hwriting.write .malformed none⟩
  | @created i _ hi =>
    have hlinked : Writing path V found i none
        ⟨fs.disk.change (·.link (tmpPath path) i), some ⟨i, none⟩⟩ :=
      ⟨⟨h.apart.link (tmpPath_ne path) hi,
        (Disk.possible_link (tmpPath_ne path) i).trans h.possible,
        (Disk.read_link (tmpPath_ne path) i).trans h.read⟩, rfl, Directory.link_self _ _ _⟩
    exact ⟨i, hlinked.write .malformed none⟩

/-- No call but `os.replace` is noted. -/
theorem NotedAnswers.unnoted {c : FileCall} {r : Response (.file c)} {d' : FileSystem × Bool}
    (h : NotedAnswers (fs, false) ⟨.file c, r⟩ d') (hc : isReplace ⟨.file c, r⟩ = false) :
    fs.Serves c r.result d'.1 ∧ d' = (d'.1, false) := by
  obtain ⟨hserves, hnoted⟩ := h
  rw [hc] at hnoted
  exact ⟨hserves, Prod.ext rfl hnoted⟩

/-- `os.replace` has not been called. -/
def Unnoted (P : FileSystem → Prop) (d : FileSystem × Bool) : Prop := P d.1 ∧ d.2 = false

/-- A postcondition for a return and one for an exception, before `os.replace`. -/
def Ends {α : Type} (onReturn onRaise : FileSystem → Prop) :
    Except PyExc α → FileSystem × Bool → Prop
  | .ok _ => Unnoted onReturn
  | .error _ => Unnoted onRaise

/-- A call before `os.replace` that leaves the target alone. -/
theorem triple_before {c : FileCall} {P onReturn onRaise : FileSystem → Prop}
    (hc : ∀ r, isReplace ⟨.file c, r⟩ = false)
    (hok : ∀ fs v fs', P fs → fs.Serves c (.ok v) fs' →
      Untouched path V found fs'.disk ∧ onReturn fs')
    (herror : ∀ fs exc fs', P fs → fs.Serves c (.error exc) fs' →
      Untouched path V found fs'.disk ∧ onRaise fs') :
    Triple NotedAnswers (Safe path V found text) (Unnoted P) (native (.file c) : Py σ _)
      (Ends onReturn onRaise) := by
  refine triple_native fun d d' r hd hanswers => ?_
  obtain ⟨fs, noted⟩ := d
  obtain ⟨hP, rfl⟩ := hd
  obtain ⟨hserves, heq⟩ := hanswers.unnoted (hc r)
  rw [heq]
  cases hr : r.result with
  | ok v =>
    rw [hr] at hserves
    obtain ⟨huntouched, h⟩ := hok fs v d'.1 hP hserves
    exact ⟨huntouched.safe, h, rfl⟩
  | error exc =>
    rw [hr] at hserves
    obtain ⟨huntouched, h⟩ := herror fs exc d'.1 hP hserves
    exact ⟨huntouched.safe, h, rfl⟩

/-- The temporary file is open, with anything in its buffer. -/
def Open (path : String) (V : Set (Option JsonText)) (found : Option JsonText) (fs : FileSystem) :
    Prop :=
  ∃ i buffered, Writing path V found i buffered fs

/-- Emptied or created. -/
def Emptied (path : String) (V : Set (Option JsonText)) (found : Option JsonText)
    (fs : FileSystem) : Prop :=
  ∃ i, Writing path V found i none fs

theorem triple_openWrite :
    Triple NotedAnswers (Safe path V found text)
      (Unnoted fun fs => Untouched path V found fs.disk)
      (native (.file (.openWrite (tmpPath path))) : Py σ Unit)
      (Ends (Emptied path V found) fun fs => Untouched path V found fs.disk) := by
  refine @triple_before _ _ _ _ _ _ (.openWrite (tmpPath path)) _ _ _ (fun _ => rfl) ?_ ?_
  · rintro fs u fs' h hopens
    obtain ⟨i, hwriting⟩ := h.opens hopens
    exact ⟨hwriting.toUntouched, i, hwriting⟩
  · rintro fs exc fs' h (rfl | hopens)
    · exact ⟨h, h⟩
    · obtain ⟨i, hwriting⟩ := h.opens hopens
      exact ⟨hwriting.toUntouched, hwriting.toUntouched⟩

theorem Writing.spills (h : Writing path V found i buffered fs) {w : Writer} {fs' : FileSystem}
    {buffered' : Option JsonText} (hw : fs.writer = some w) (hspills : fs.Spills w buffered' fs') :
    Writing path V found i buffered' fs' := by
  obtain rfl : ⟨i, buffered⟩ = w := Option.some.inj (h.writer.symm.trans hw)
  obtain ⟨content, rfl⟩ := hspills
  exact h.write content buffered'

/-- The buffer holds what has not been written of the text. -/
def Dumped (path : String) (V : Set (Option JsonText)) (found : Option JsonText) (text : JsonText)
    (fs : FileSystem) : Prop :=
  ∃ i, Writing path V found i (some text) fs

theorem triple_dumpJson :
    Triple NotedAnswers (Safe path V found text) (Unnoted (Emptied path V found))
      (native (.file (.dumpJson (tmpPath path) text)) : Py σ Unit)
      (Ends (Dumped path V found text) (Open path V found)) := by
  refine @triple_before _ _ _ _ _ _ (.dumpJson (tmpPath path) text) _ _ _ (fun _ => rfl) ?_ ?_
  · rintro fs u fs' ⟨i, h⟩ ⟨w, hw, hspills⟩
    have hwriting := h.spills hw hspills
    exact ⟨hwriting.toUntouched, i, hwriting⟩
  · rintro fs exc fs' ⟨i, h⟩ ⟨w, buffered, hw, hspills⟩
    have hwriting := h.spills hw hspills
    exact ⟨hwriting.toUntouched, i, buffered, hwriting⟩

/-- The temporary file holds the whole text, and nothing is left in the buffer. -/
def Written (path : String) (V : Set (Option JsonText)) (found : Option JsonText) (text : JsonText)
    (fs : FileSystem) : Prop :=
  ∃ i, Writing path V found i none fs ∧ fs.disk.content i = text

theorem triple_flushFile :
    Triple NotedAnswers (Safe path V found text) (Unnoted (Dumped path V found text))
      (native (.file (.flushFile (tmpPath path))) : Py σ Unit)
      (Ends (Written path V found text) (Open path V found)) := by
  refine @triple_before _ _ _ _ _ _ (.flushFile (tmpPath path)) _ _ _ (fun _ => rfl) ?_ ?_
  · rintro fs u fs' ⟨i, h⟩ ⟨w, content, hw, hbuffered, rfl⟩
    obtain rfl : ⟨i, some text⟩ = w := Option.some.inj (h.writer.symm.trans hw)
    obtain rfl : text = content := Option.some.inj hbuffered
    have hwriting := h.write text none
    exact ⟨hwriting.toUntouched, i, hwriting, Function.update_self _ _ _⟩
  · rintro fs exc fs' ⟨i, h⟩ ⟨w, buffered, hw, hspills⟩
    have hwriting := h.spills hw hspills
    exact ⟨hwriting.toUntouched, i, buffered, hwriting⟩

/-- The temporary file holds the whole text, which no crash can take from it. -/
def Synced (path : String) (V : Set (Option JsonText)) (found : Option JsonText) (text : JsonText)
    (fs : FileSystem) : Prop :=
  ∃ i, Writing path V found i none fs ∧ fs.disk.remains i = {text}

theorem triple_fsyncFile :
    Triple NotedAnswers (Safe path V found text) (Unnoted (Written path V found text))
      (native (.file (.fsyncFile (tmpPath path))) : Py σ Unit)
      (Ends (Synced path V found text) (Open path V found)) := by
  refine @triple_before _ _ _ _ _ _ (.fsyncFile (tmpPath path)) _ _ _ (fun _ => rfl) ?_ ?_
  · rintro fs u fs' ⟨i, h, hcontent⟩ ⟨w, hw, rfl⟩
    obtain rfl : ⟨i, none⟩ = w := Option.some.inj (h.writer.symm.trans hw)
    have huntouched : Untouched path V found (fs.disk.sync i) :=
      ⟨h.apart.sync i, (Disk.possible_sync h.unbound).trans h.possible, h.read⟩
    refine ⟨huntouched, i, ⟨huntouched, h.writer, h.temporary⟩, ?_⟩
    rw [← hcontent]
    exact Function.update_self _ _ _
  · rintro fs exc fs' ⟨i, h, -⟩ rfl
    exact ⟨h.toUntouched, i, none, h⟩

/-- Closing after a failure may still write to the temporary file. -/
theorem triple_closeFile_open :
    Triple NotedAnswers (Safe path V found text) (Unnoted (Open path V found))
      (native (.file (.closeFile (tmpPath path))) : Py σ Unit)
      (Ends (fun fs => Untouched path V found fs.disk) fun fs =>
        Untouched path V found fs.disk) := by
  have hclose : ∀ fs r fs', Open path V found fs → fs.Serves (.closeFile (tmpPath path)) r fs' →
      Untouched path V found fs'.disk := by
    rintro fs r fs' ⟨i, buffered, h⟩ ⟨w, hw, ⟨-, rfl⟩ | ⟨content, -, rfl⟩⟩
    · exact h.toUntouched
    · obtain rfl : ⟨i, buffered⟩ = w := Option.some.inj (h.writer.symm.trans hw)
      exact (h.write content none).toUntouched
  refine @triple_before _ _ _ _ _ _ (.closeFile (tmpPath path)) _ _ _ (fun _ => rfl) ?_ ?_
  · exact fun fs u fs' h hserves => ⟨hclose _ _ _ h hserves, hclose _ _ _ h hserves⟩
  · exact fun fs exc fs' h hserves => ⟨hclose _ _ _ h hserves, hclose _ _ _ h hserves⟩

/-- The temporary file is complete and closed. -/
def Ready (path : String) (V : Set (Option JsonText)) (found : Option JsonText) (text : JsonText)
    (fs : FileSystem) : Prop :=
  Untouched path V found fs.disk ∧ fs.disk.Complete (tmpPath path) text

theorem triple_closeFile_synced :
    Triple NotedAnswers (Safe path V found text) (Unnoted (Synced path V found text))
      (native (.file (.closeFile (tmpPath path))) : Py σ Unit)
      (Ends (Ready path V found text) fun fs => Untouched path V found fs.disk) := by
  have hclose : ∀ fs r fs', Synced path V found text fs →
      fs.Serves (.closeFile (tmpPath path)) r fs' → Ready path V found text fs' := by
    rintro fs r fs' ⟨i, h, hremains⟩ ⟨w, hw, ⟨-, rfl⟩ | ⟨content, hbuffered, rfl⟩⟩
    · exact ⟨h.toUntouched, i, h.temporary, hremains⟩
    · obtain rfl : ⟨i, none⟩ = w := Option.some.inj (h.writer.symm.trans hw)
      exact absurd rfl hbuffered
  refine @triple_before _ _ _ _ _ _ (.closeFile (tmpPath path)) _ _ _ (fun _ => rfl) ?_ ?_
  · exact fun fs u fs' h hserves => ⟨(hclose _ _ _ h hserves).1, hclose _ _ _ h hserves⟩
  · exact fun fs exc fs' h hserves => ⟨(hclose _ _ _ h hserves).1, (hclose _ _ _ h hserves).1⟩

/-- `with open(tmp_path, "w") as f`: the target is not touched, and after a normal end the temporary
file is complete. -/
theorem triple_writeTemporary :
    Triple NotedAnswers (Safe path V found text)
      (Unnoted fun fs => Untouched path V found fs.disk)
      (writeTemporary path text : Py σ Unit)
      (Ends (Ready path V found text) fun fs => Untouched path V found fs.disk) := by
  unfold writeTemporary
  refine triple_openWrite.bind (fun _ => ?_) (fun _ _ h => h)
  have hbody : Triple NotedAnswers (Safe path V found text) (Unnoted (Emptied path V found))
      (do
        native (.file (.dumpJson (tmpPath path) text))
        native (.file (.flushFile (tmpPath path)))
        native (.file (.fsyncFile (tmpPath path))) : Py σ Unit)
      (Ends (Synced path V found text) (Open path V found)) := by
    refine triple_dumpJson.bind (fun _ => ?_) (fun _ _ h => h)
    refine triple_flushFile.bind (fun _ => ?_) (fun _ _ h => h)
    exact triple_fsyncFile
  refine hbody.tryFinally fun r => ?_
  cases r with
  | ok _ =>
    refine triple_closeFile_synced.mono fun r' d h => ?_
    cases r' with
    | ok _ => exact h
    | error _ => exact h
  | error _ =>
    refine triple_closeFile_open.mono fun r' d h => ?_
    cases r' with
    | ok _ => exact h
    | error _ => exact h

/-! ### From `os.replace` on -/

theorem Ready.replaced {fs : FileSystem} (h : Ready path V found text fs) {j : ℕ}
    (hj : fs.disk.names (tmpPath path) = some j) (writer : Option Writer) :
    Replaced path V text (⟨fs.disk.change (·.move (tmpPath path) path j), writer⟩, true) := by
  obtain ⟨huntouched, i, hi, hremains⟩ := h
  obtain rfl : i = j := Option.some.inj (hi.symm.trans hj)
  refine ⟨huntouched.apart.move i, ?_, Disk.complete_move (tmpPath_ne path) hremains, rfl⟩
  rw [Disk.possible_move (tmpPath_ne path) hremains, huntouched.possible]

theorem triple_replace :
    Triple NotedAnswers (Safe path V found text) (Unnoted (Ready path V found text))
      (native (.file (.replace (tmpPath path) path)) : Py σ Unit) fun r d =>
        match r with
        | .ok _ => Replaced path V text d
        | .error _ => Safe path V found text d ∧ d.2 = true := by
  refine triple_native fun d d' r hd hanswers => ?_
  obtain ⟨fs, noted⟩ := d
  obtain ⟨fs', noted'⟩ := d'
  obtain ⟨hready, rfl⟩ := hd
  obtain ⟨hserves, rfl⟩ := hanswers
  replace hserves : fs.Serves (.replace (tmpPath path) path) r.result fs' := hserves
  cases hr : r.result with
  | ok u =>
    rw [hr] at hserves
    obtain ⟨j, hj, rfl⟩ := hserves
    have hreplaced := hready.replaced hj fs.writer
    exact ⟨hreplaced.safe, hreplaced⟩
  | error exc =>
    rw [hr] at hserves
    have hsafe : Safe path V found text (fs', true) := by
      rcases hserves with rfl | ⟨j, hj, rfl⟩
      · exact ⟨hready.1.apart, hready.1.safe.possible, fun h => absurd h (by simp)⟩
      · exact (hready.replaced hj fs.writer).safe
    exact ⟨hsafe, hsafe, rfl⟩

/-- An exception that is not tolerated, after `os.replace`. -/
def Raised (path : String) (V : Set (Option JsonText)) (found : Option JsonText) (text : JsonText)
    (exc : PyExc) (d : FileSystem × Bool) : Prop :=
  Safe path V found text d ∧ d.2 = true ∧ ¬ Serves.Unsupported exc

/-- A call on the directory. -/
theorem triple_parent {c : FileCall} {P : FileSystem × Bool → Prop}
    {Q : FileSystem × Bool → Prop} (hP : ∀ d, P d → Safe path V found text d ∧ d.2 = true)
    (hQ : ∀ d, Q d → Safe path V found text d)
    (hok : ∀ fs v fs', P (fs, true) → fs.Serves c (.ok v) fs' → Q (fs', true))
    (herror : ∀ (fs : FileSystem) exc fs', fs.Serves c (.error exc) fs' →
      fs' = fs ∧ ¬ Serves.Unsupported exc) :
    Triple NotedAnswers (Safe path V found text) P (native (.file c) : Py σ _) fun r d =>
      match r with
      | .ok _ => Q d
      | .error exc => Raised path V found text exc d ∧ P d := by
  refine triple_native fun d d' r hd hanswers => ?_
  obtain ⟨hsafe, hnoted⟩ := hP d hd
  obtain ⟨fs, noted⟩ := d
  obtain ⟨fs', noted'⟩ := d'
  obtain ⟨hserves, heq⟩ := hanswers
  obtain rfl : noted = true := hnoted
  obtain rfl : noted' = true := heq
  replace hserves : fs.Serves c r.result fs' := hserves
  cases hr : r.result with
  | ok v =>
    rw [hr] at hserves
    have h := hok fs v fs' hd hserves
    exact ⟨hQ _ h, h⟩
  | error exc =>
    rw [hr] at hserves
    obtain ⟨rfl, hsupported⟩ := herror fs exc fs' hserves
    exact ⟨hsafe, ⟨hsafe, rfl, hsupported⟩, hd⟩

theorem triple_openParent :
    Triple NotedAnswers (Safe path V found text) (Replaced path V text)
      (native (.file (.openParent path)) : Py σ Unit) fun r d =>
        match r with
        | .ok _ => Replaced path V text d
        | .error exc => Raised path V found text exc d := by
  refine Triple.mono (@triple_parent σ _ path V found text (.openParent path)
    (Replaced path V text) (Replaced path V text) (fun d h => ⟨h.safe, h.noted⟩)
    (fun d h => h.safe) ?_ fun _ _ _ h => h) ?_
  · rintro fs u _ h rfl
    exact h
  · rintro (exc | u) d h
    · exact h.1
    · exact h

theorem triple_fsyncParent :
    Triple NotedAnswers (Safe path V found text) (Replaced path V text)
      (native (.file (.fsyncParent path)) : Py σ Unit) fun r d =>
        match r with
        | .ok _ => Durable path text d
        | .error exc => Raised path V found text exc d := by
  refine Triple.mono (@triple_parent σ _ path V found text (.fsyncParent path)
    (Replaced path V text) (Durable path text) (fun d h => ⟨h.safe, h.noted⟩)
    (fun d h => h.safe) ?_ fun _ _ _ h => h) ?_
  · rintro fs u _ h rfl
    exact ⟨h.apart.syncNames, h.complete.possible_syncNames, rfl⟩
  · rintro (exc | u) d h
    · exact h.1
    · exact h

theorem triple_closeParent {P : FileSystem × Bool → Prop}
    (hP : ∀ d, P d → Safe path V found text d ∧ d.2 = true) :
    Triple NotedAnswers (Safe path V found text) P
      (native (.file (.closeParent path)) : Py σ Unit) fun r d =>
        match r with
        | .ok _ => P d
        | .error exc => Raised path V found text exc d ∧ P d := by
  refine Triple.mono (@triple_parent σ _ path V found text (.closeParent path) P P hP
    (fun d h => (hP d h).1) ?_ fun _ _ _ h => h) ?_
  · rintro fs u _ h rfl
    exact h
  · rintro (exc | u) d h
    · exact h
    · exact h

/-- The directory is synced when this returns: what would be tolerated does not happen here. -/
theorem triple_syncParent :
    Triple NotedAnswers (Safe path V found text) (Replaced path V text)
      (syncParent path : Py σ Unit) fun r d =>
        match r with
        | .ok _ => Durable path text d
        | .error _ => Safe path V found text d ∧ d.2 = true := by
  unfold syncParent
  have hbody : Triple NotedAnswers (Safe path V found text) (Replaced path V text)
      (do
        native (.file (.openParent path))
        Proc.tryFinally (native (.file (.fsyncParent path)))
          (native (.file (.closeParent path))) : Py σ Unit) fun r d =>
        match r with
        | .ok _ => Durable path text d
        | .error exc => Raised path V found text exc d := by
    refine triple_openParent.bind (fun _ => ?_) (fun _ _ h => h)
    refine triple_fsyncParent.tryFinally fun r => ?_
    cases r with
    | ok _ =>
      refine (triple_closeParent fun d h => ⟨Durable.safe h, Durable.noted h⟩).mono ?_
      rintro (exc | u) d h
      · exact h.1
      · exact h
    | error exc =>
      refine (triple_closeParent fun d h => ⟨h.1, h.2.1⟩).mono ?_
      rintro (exc' | u) d h
      · exact h.1
      · exact h
  refine hbody.tryCatch (fun _ _ h => h) fun exc => ?_
  intro s D hD
  unfold tolerateUnsupported
  split
  · rename_i errno hkind
    split
    · rename_i htolerated
      exact fun d hd => absurd ⟨errno, htolerated, hkind⟩ (hD d hd).2.2
    · exact fun d hd => ⟨(hD d hd).1, (hD d hd).2.1⟩
  · exact fun d hd => ⟨(hD d hd).1, (hD d hd).2.1⟩

/-- The new content of a position that can be saved. -/
theorem triple_saveText :
    Triple NotedAnswers (Safe path V found text)
      (Unnoted fun fs => Untouched path V found fs.disk)
      (do
        writeTemporary path text
        native (.file (.replace (tmpPath path) path))
        syncParent path : Py σ Unit) fun r d =>
        match r with
        | .ok _ => Durable path text d
        | .error _ => Safe path V found text d := by
  refine triple_writeTemporary.bind (fun _ => ?_) fun _ d h => ?_
  · refine triple_replace.bind (fun _ => ?_) fun _ _ h => h.1
    exact triple_syncParent.mono fun r d h => by
      cases r with
      | ok _ => exact h
      | error _ => exact h.1
  · obtain ⟨fs, noted⟩ := d
    obtain ⟨h, rfl⟩ := h
    exact h.safe

end Saving

end FileSystem

/-! ## One call -/

section Call

variable {path : String} {position : PyCursor} {streamName : Option PyStr} {fs fs' : FileSystem}
  {tr : List (Event Response)}

theorem saveCursorToFile_error (hpath : path ≠ "") {exc : PyExc}
    (htext : cursorText position streamName = .error exc) :
    (saveCursorToFile (some path) position streamName : Py σ Unit) = throw exc := by
  simp only [saveCursorToFile, if_neg hpath, htext]

theorem saveCursorToFile_ok (hpath : path ≠ "") {text : JsonText}
    (htext : cursorText position streamName = .ok text) :
    (saveCursorToFile (some path) position streamName : Py σ Unit) = (do
      writeTemporary path text
      native (.file (.replace (tmpPath path) path))
      syncParent path) := by
  simp only [saveCursorToFile, if_neg hpath, htext]

/-- Where a call may have got to leaves what the attempt that it is may leave. -/
theorem saveCursorToFile_attempt (hpath : path ≠ "")
    (hapart : fs.disk.Apart (tmpPath path) path) {s : σ}
    {q : Prog Response (Except PyExc Unit × σ)}
    (hrun : Prog.Path (saveCursorToFile (some path) position streamName s) tr q)
    (hfiles : Interaction.Evolves Answers fs tr fs') (result : Option (Except PyExc Unit))
    (hresult : ∀ r, result = some r → ∃ s', q = .ret (r, s')) :
    fs'.disk.Apart (tmpPath path) path ∧
      fs'.disk.possible path ⊆
        (SaveCall.attempt ⟨position, streamName, tr, result⟩).after (fs.disk.possible path) ∧
      (tr.any isReplace = false →
        fs'.disk.possible path = fs.disk.possible path ∧ fs'.disk.read path = fs.disk.read path) := by
  have huntouched : Untouched path (fs.disk.possible path) (fs.disk.read path) fs.disk :=
    ⟨hapart, rfl, rfl⟩
  cases htext : cursorText position streamName with
  | error exc =>
    rw [saveCursorToFile_error hpath htext] at hrun
    cases hrun
    cases hfiles
    refine ⟨hapart, ?_, fun _ => ⟨rfl, rfl⟩⟩
    simp only [SaveCall.attempt, htext]
    exact Set.Subset.rfl
  | ok text =>
    rw [saveCursorToFile_ok hpath htext] at hrun
    have hnoted := hfiles.noting isReplace false
    rw [Bool.false_or] at hnoted
    have hstart : Safe path (fs.disk.possible path) (fs.disk.read path) text (fs, false) :=
      huntouched.safe
    have hsafe := triple_saveText.of_path hstart ⟨huntouched, rfl⟩ hrun hnoted
    refine ⟨hsafe.apart, ?_, hsafe.before⟩
    simp only [SaveCall.attempt, htext]
    split
    · rename_i u
      obtain ⟨s', rfl⟩ := hresult _ rfl
      have hdurable := (triple_saveText.of_returns hstart ⟨huntouched, rfl⟩ hrun hnoted).2
      exact hdurable.possible.subset
    · split
      · exact hsafe.possible
      · rename_i hreplace
        exact (hsafe.before (Bool.eq_false_iff.2 hreplace)).1.subset

end Call

/-! ## All calls -/

section Calls

variable {path : String} {start : Option JsonText} {fs₀ fs fs' : FileSystem}
  {calls : List SaveCall}

theorem FileSystem.Crash.keeps (h : fs.Crash fs') (hapart : fs.disk.Apart (tmpPath path) path) :
    fs'.disk.Apart (tmpPath path) path ∧ fs'.disk.possible path ⊆ fs.disk.possible path := by
  cases h with
  | process => exact ⟨hapart, Set.Subset.rfl⟩
  | machine h => exact ⟨hapart.crash h, h.possible_subset path⟩

/-- What may be found after a history is what a register may hold after its attempts. -/
theorem Saves.possible_subset (hpath : path ≠ "") (hstart : Settled path start fs₀)
    (h : Saves σ path fs₀ calls fs) :
    fs.disk.Apart (tmpPath path) path ∧
      fs.disk.possible path ⊆ candidates start (calls.map SaveCall.attempt) := by
  induction h with
  | start => exact ⟨hstart.1, hstart.2.subset⟩
  | crash _ hcrash ih =>
    obtain ⟨hapart, hsubset⟩ := hcrash.keeps ih.1
    exact ⟨hapart, hsubset.trans ih.2⟩
  | @ended calls fs fs' position streamName s s' tr r _ hrun hfiles ih =>
    obtain ⟨hapart, hsubset, -⟩ := saveCursorToFile_attempt hpath ih.1 hrun hfiles (some r)
      fun r' h => ⟨s', by rw [Option.some.inj h]⟩
    rw [List.map_append, List.map_singleton, candidates_concat]
    exact ⟨hapart, hsubset.trans (Attempt.after_mono _ ih.2)⟩
  | @cut calls fs fs' fs'' position streamName s tr q _ hrun hfiles hcrash ih =>
    obtain ⟨hapart, hsubset, -⟩ := saveCursorToFile_attempt hpath ih.1 hrun hfiles none
      fun r' h => nomatch h
    obtain ⟨hapart', hsubset'⟩ := hcrash.keeps hapart
    rw [List.map_append, List.map_singleton, candidates_concat]
    exact ⟨hapart', hsubset'.trans (hsubset.trans (Attempt.after_mono _ ih.2))⟩

/-- The call that fails with an `OSError`, if any, is that which reads the file. -/
def Reads (path : String) (expected : Option PyStr) (fs : FileSystem)
    (r : Except PyExc (Option PyCursor)) : Prop :=
  (∃ exc errno, r = .error exc ∧ exc.kind = .osError errno) ∨
    r = loaded path expected (fs.disk.read path)

/-- A call on the parent directory. -/
def OnParent : Call → Prop
  | .file (.openParent _) => True
  | .file (.fsyncParent _) => True
  | .file (.closeParent _) => True
  | _ => False

end Calls

end FdbKafkaBridge
