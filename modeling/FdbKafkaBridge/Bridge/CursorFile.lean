import FdbKafkaBridge.Native

/-!
# The cursor file

`_save_cursor_to_file` and `_load_cursor_from_file` of `bridge/pipeline.py`. Writing goes to
`path.tmp`, which replaces the file only once it is complete and durable. The position that an error
message would show is left out of it.
-/

namespace FdbKafkaBridge

variable {σ : Type} [HasCallbacks σ]

/-- `_DIR_FSYNC_UNSUPPORTED`: `EINVAL`, and `ENOTSUP`, which is also `EOPNOTSUPP`. -/
def dirFsyncUnsupported : List ℤ := [22, 95]

/-- An `int` that is not a `bool`, as a plain number. -/
def plainInt : PyVal → Option ℤ
  | .int i => some i
  | .intSubclass _ i => some i
  | _ => none

/-- The coordinates of a position, `None` where one is missing. -/
def coordinates : PyCursor → PyVal × PyVal
  | .none => (.none, .none)
  | .object streamId version => (streamId.getD .none, version.getD .none)
  | .dict streamId version => (streamId.getD .none, version.getD .none)

/-- What is written for a position. -/
def cursorText (position : PyCursor) (streamName : Option PyStr) : Except PyExc JsonText :=
  if position = .none then .error (.valueError "Cannot checkpoint cursor: position is None")
  else
    let (streamId, version) := coordinates position
    if streamId = .none ∨ version = .none then
      .error (.valueError ("Cannot checkpoint cursor: position missing stream_id or " ++
        "last_consumed_version"))
    else
      match plainInt streamId, plainInt version with
      | some streamId, some version =>
        .ok (.object (some (.int streamId)) (some (.int version)) (streamName.map .str))
      | _, _ => .error (.valueError "stream_id and last_consumed_version must be integers")

def tmpPath (path : String) : String := path ++ ".tmp"

/-- The temporary file: written, flushed, synced and closed. -/
def writeTemporary (path : String) (text : JsonText) : Py σ Unit := do
  native (.file (.openWrite (tmpPath path)))
  Interaction.Proc.tryFinally
    (do
      native (.file (.dumpJson (tmpPath path) text))
      native (.file (.flushFile (tmpPath path)))
      native (.file (.fsyncFile (tmpPath path))))
    (native (.file (.closeFile (tmpPath path))))

/-- `except OSError as e`: only a file system that cannot sync a directory is tolerated. -/
def tolerateUnsupported (exc : PyExc) : Py σ Unit :=
  match exc.kind with
  | .osError (some errno) => if errno ∈ dirFsyncUnsupported then pure () else throw exc
  | _ => throw exc

/-- Makes the rename durable. -/
def syncParent (path : String) : Py σ Unit :=
  tryCatch
    (do
      native (.file (.openParent path))
      Interaction.Proc.tryFinally (native (.file (.fsyncParent path)))
        (native (.file (.closeParent path))))
    tolerateUnsupported

def saveCursorToFile (path : Option String) (position : PyCursor) (streamName : Option PyStr) :
    Py σ Unit :=
  match path with
  | none => pure ()
  | some path =>
    if path = "" then pure ()
    else
      match cursorText position streamName with
      | .error exc => throw exc
      | .ok text => do
        writeTemporary path text
        native (.file (.replace (tmpPath path) path))
        syncParent path

/-- The cursor in a file's content. -/
def cursorOfText (path : String) (streamName : Option PyStr) (text : JsonText) :
    Except PyExc PyCursor :=
  match text with
  | .malformed => .error (.valueError "Expecting value")
  | .notObject typeName =>
    .error (.valueError ("Corrupt cursor file at " ++ path ++ ": expected JSON object, got " ++
      typeName))
  | .object (some streamId) (some version) name =>
    match plainInt streamId, plainInt version with
    | some streamId, some version =>
      match streamName with
      | none => .ok (.object (some (.int streamId)) (some (.int version)))
      | some expected =>
        -- a file that does not record the stream belongs to another one
        if name = some (.str expected) then
          .ok (.object (some (.int streamId)) (some (.int version)))
        else .error (.valueError ("Cursor file at " ++ path ++ " belongs to another stream"))
    | _, _ =>
      .error (.valueError ("Corrupt cursor file at " ++ path ++ ": coordinates must be integers"))
  | .object _ _ _ =>
    .error (.valueError ("Corrupt cursor file at " ++ path ++
      ": missing stream_id or last_consumed_version"))

def loadCursorFromFile (path : Option String) (streamName : Option PyStr) :
    Py σ (Option PyCursor) :=
  match path with
  | none => pure none
  | some path => do
    if path = "" then return none
    else
      let present : Bool ← native (.file (.pathExists path))
      if present then
        let text : JsonText ← native (.file (.readJson path))
        match cursorOfText path streamName text with
        | .error exc => throw exc
        | .ok cursor => return some cursor
      else return none

end FdbKafkaBridge
