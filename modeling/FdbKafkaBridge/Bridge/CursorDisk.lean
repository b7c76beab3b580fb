import FdbKafkaBridge.Bridge.CursorFile
import FdbKafkaBridge.Interaction.Environment
import FdbKafkaBridge.Storage.Register
import FdbKafkaBridge.Storage.Replacement

/-!
# The cursor file on a disk that may crash

The file calls of the bridge on a disk whose directories can be synced, the runs of
`_save_cursor_to_file` with crashes in and between them, and what `_load_cursor_from_file` may return
after them.
-/

namespace FdbKafkaBridge

open Interaction Storage

/-- A file that is open for writing, with what it will hold once the buffer has been written out.
The buffer is empty when there is nothing to write. -/
structure Writer where
  file : ℕ
  buffered : Option JsonText

structure FileSystem where
  disk : Disk String JsonText
  writer : Option Writer

namespace FileSystem

/-- `open(path, "w")` empties the file that has the name, or gives the name to a new one. -/
inductive Opens (fs : FileSystem) (path : String) : FileSystem → Prop
  | truncated {i : ℕ} (hi : fs.disk.names path = some i) :
      Opens fs path ⟨fs.disk.write i .malformed, some ⟨i, none⟩⟩
  | created {i : ℕ} (hnone : fs.disk.names path = none) (hi : fs.disk.Unused i) :
      Opens fs path ⟨(fs.disk.change (·.link path i)).write i .malformed, some ⟨i, none⟩⟩

/-- The buffer may be written out in part. -/
def Spills (fs : FileSystem) (w : Writer) (buffered : Option JsonText) (fs' : FileSystem) : Prop :=
  ∃ text, fs' = ⟨fs.disk.write w.file text, some ⟨w.file, buffered⟩⟩

/-- What a call returns or raises, and what it leaves. A call that raises may have had its effect, or
a part of it. -/
def Serves (fs : FileSystem) :
    (c : FileCall) → Except PyExc (Call.Value (.file c)) → FileSystem → Prop
  | .pathExists path, .ok present, fs' => fs' = fs ∧ present = (fs.disk.names path).isSome
  | .pathExists _, .error _, _ => False
  | .readJson path, .ok text, fs' => fs' = fs ∧ fs.disk.read path = some text
  | .readJson _, .error exc, fs' => fs' = fs ∧ ∃ errno, exc.kind = .osError errno
  | .openWrite path, .ok _, fs' => fs.Opens path fs'
  | .openWrite path, .error _, fs' => fs' = fs ∨ fs.Opens path fs'
  | .dumpJson _ text, .ok _, fs' => ∃ w, fs.writer = some w ∧ fs.Spills w (some text) fs'
  | .dumpJson _ _, .error _, fs' => ∃ w buffered, fs.writer = some w ∧ fs.Spills w buffered fs'
  | .flushFile _, .ok _, fs' => ∃ w text, fs.writer = some w ∧ w.buffered = some text ∧
      fs' = ⟨fs.disk.write w.file text, some ⟨w.file, none⟩⟩
  | .flushFile _, .error _, fs' => ∃ w buffered, fs.writer = some w ∧ fs.Spills w buffered fs'
  | .fsyncFile _, .ok _, fs' => ∃ w, fs.writer = some w ∧ fs' = ⟨fs.disk.sync w.file, fs.writer⟩
  | .fsyncFile _, .error _, fs' => fs' = fs
  -- closing writes the buffer out
  | .closeFile _, _, fs' => ∃ w, fs.writer = some w ∧
      ((w.buffered = none ∧ fs' = ⟨fs.disk, none⟩) ∨
        ∃ text, w.buffered ≠ none ∧ fs' = ⟨fs.disk.write w.file text, none⟩)
  | .replace source target, .ok _, fs' => ∃ i, fs.disk.names source = some i ∧
      fs' = ⟨fs.disk.change (·.move source target i), fs.writer⟩
  | .replace source target, .error _, fs' => fs' = fs ∨ ∃ i, fs.disk.names source = some i ∧
      fs' = ⟨fs.disk.change (·.move source target i), fs.writer⟩
  | .fsyncParent _, .ok _, fs' => fs' = ⟨fs.disk.syncNames, fs.writer⟩
  | .openParent _, .ok _, fs' => fs' = fs
  | .closeParent _, .ok _, fs' => fs' = fs
  -- a directory can be synced: no error says that this is not supported
  | .openParent _, .error exc, fs' => fs' = fs ∧ ¬ Unsupported exc
  | .fsyncParent _, .error exc, fs' => fs' = fs ∧ ¬ Unsupported exc
  | .closeParent _, .error exc, fs' => fs' = fs ∧ ¬ Unsupported exc
where
  Unsupported (exc : PyExc) : Prop := ∃ errno ∈ dirFsyncUnsupported, exc.kind = .osError (some errno)

/-- The file system answers the file calls. Other calls do not concern it. -/
def Answers (fs : FileSystem) (e : Event Response) (fs' : FileSystem) : Prop :=
  match e with
  | ⟨.file c, r⟩ => fs.Serves c r.result fs'
  | ⟨.fdb _, _⟩ => fs' = fs
  | ⟨.kafka _, _⟩ => fs' = fs
  | ⟨.host _, _⟩ => fs' = fs

/-- The process or the whole machine goes down. -/
inductive Crash (fs : FileSystem) : FileSystem → Prop
  | process : Crash fs ⟨fs.disk, none⟩
  | machine {disk : Disk String JsonText} (h : fs.disk.Crash disk) : Crash fs ⟨disk, none⟩

/-- The cursor file is absent, or durable with the content `start`, and the temporary name is not
another name for it. -/
def Settled (path : String) (start : Option JsonText) (fs : FileSystem) : Prop :=
  fs.disk.Apart (tmpPath path) path ∧ fs.disk.possible path = {start}

end FileSystem

/-- A call of `_save_cursor_to_file`. The result is `none` when a crash has cut the call off. -/
structure SaveCall where
  position : PyCursor
  streamName : Option PyStr
  trace : List (Event Response)
  result : Option (Except PyExc Unit)

/-- `os.replace` is called. -/
def isReplace (e : Event Response) : Bool :=
  match e.call with
  | .file (.replace ..) => true
  | _ => false

namespace SaveCall

/-- The call as an attempt to write. Before `os.replace` nothing can have changed. -/
def attempt (call : SaveCall) : Attempt (Option JsonText) :=
  match cursorText call.position call.streamName with
  | .error _ => .nothing
  | .ok text =>
    match call.result with
    | some (.ok _) => .confirmed (some text)
    | _ => if call.trace.any isReplace then .tried (some text) else .nothing

/-- The integer coordinates of the position. -/
def Saves (call : SaveCall) (streamId version : ℤ) : Prop :=
  plainInt (coordinates call.position).1 = some streamId ∧
    plainInt (coordinates call.position).2 = some version

end SaveCall

/-- Calls of `_save_cursor_to_file` for one path, each of which may raise or be cut off by a crash,
with any number of crashes between them. -/
inductive Saves (σ : Type) [HasCallbacks σ] (path : String) (fs₀ : FileSystem) :
    List SaveCall → FileSystem → Prop
  | start : Saves σ path fs₀ [] fs₀
  | crash {calls : List SaveCall} {fs fs' : FileSystem} (past : Saves σ path fs₀ calls fs)
      (h : fs.Crash fs') : Saves σ path fs₀ calls fs'
  | ended {calls : List SaveCall} {fs fs' : FileSystem} {position : PyCursor}
      {streamName : Option PyStr} {s s' : σ} {tr : List (Event Response)} {r : Except PyExc Unit}
      (past : Saves σ path fs₀ calls fs)
      (run : (saveCursorToFile (some path) position streamName s).Returns tr (r, s'))
      (files : Interaction.Evolves FileSystem.Answers fs tr fs') :
      Saves σ path fs₀ (calls ++ [⟨position, streamName, tr, some r⟩]) fs'
  | cut {calls : List SaveCall} {fs fs' fs'' : FileSystem} {position : PyCursor}
      {streamName : Option PyStr} {s : σ} {tr : List (Event Response)}
      {q : Prog Response (Except PyExc Unit × σ)} (past : Saves σ path fs₀ calls fs)
      (run : Prog.Path (saveCursorToFile (some path) position streamName s) tr q)
      (files : Interaction.Evolves FileSystem.Answers fs tr fs') (h : fs'.Crash fs'') :
      Saves σ path fs₀ (calls ++ [⟨position, streamName, tr, none⟩]) fs''

/-- What a file with this content is loaded as. -/
def loaded (path : String) (expected : Option PyStr) :
    Option JsonText → Except PyExc (Option PyCursor)
  | none => .ok none
  | some text => (cursorOfText path expected text).map some

end FdbKafkaBridge
