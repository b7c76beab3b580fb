import FdbKafkaBridge.Serialization.Model

/-!
# Input checks for the serialize functions

`serialization/_checks.py`. Each check takes a Python value and returns it at the type it was
checked to have, or raises an input error that names the offending field. Messages about `bytes`
and `str` inputs give their Python type, never their content.
-/

namespace FdbKafkaBridge.Serialization.Checks

open Protobuf (Bytes)

/-- `" at <label> <index>"` for an error message, or `""` when the index is absent. -/
def atIndex (index : Option ℕ) (label : String) : String :=
  match index with
  | none => ""
  | some i => " at " ++ label ++ " " ++ toString i

/-- CPython refuses to print very long integers, which would replace the error being built. -/
def rendered (value : ℤ) : String :=
  if bitLength value > 128 then "an int of " ++ toString (bitLength value) ++ " bits"
  else toString value

/-- `_integer`: the exact type `int`, then the range. -/
def integer (value : PyVal) (field : String) (maximum : Option ℕ) (minimum : ℤ)
    (index : Option ℕ) : Except SerializationError ℤ :=
  match value with
  | .int v =>
    if v < minimum ∨ (maximum.any fun m => decide (v > m)) then
      let domain := match maximum with
        | none => ">= " ++ toString minimum
        | some m => "in " ++ toString minimum ++ ".." ++ toString m
      .error (.inputValue (field ++ atIndex index "position" ++ " must be " ++ domain ++ ", got " ++
        rendered v) field index)
    else .ok v
  | _ =>
    .error (.inputType (field ++ atIndex index "position" ++ " must be int, got " ++
      value.typeName) field index)

/-- Require `0.._MAX_VERSION`. -/
def fdbVersion (value : PyVal) : Except SerializationError ℕ :=
  (integer value "fdb_version" (some maxVersion) 0 none).map Int.toNat

/-- Require `0.._MAX_SEQUENCE_NO`. `field` is the keyword name to report. -/
def sequenceNo (value : PyVal) (field : String) : Except SerializationError ℕ :=
  (integer value field (some maxSequenceNo) 0 none).map Int.toNat

/-- Require a position assigned inside a batch to fit `0.._MAX_SEQUENCE_NO`. -/
def assignedSequenceNo (value : ℕ) (index : ℕ) : Except SerializationError ℕ :=
  (integer (.int value) "sequence_no" (some maxSequenceNo) 0 (some index)).map Int.toNat

/-- Require `0.._MAX_TOTAL_MUTATIONS`. -/
def totalMutations (value : PyVal) : Except SerializationError ℕ :=
  (integer value "total_mutations" (some maxTotalMutations) 0 none).map Int.toNat

/-- Require a budget of at least 1. There is no upper bound. -/
def maxRecordBytes (value : PyVal) : Except SerializationError ℤ :=
  integer value "max_record_bytes" none 1 none

/-- Require a non-empty `str` that encodes as UTF-8. -/
def streamName (value : PyVal) : Except SerializationError (List Char) :=
  match value with
  | .str s =>
    if s.isEmpty then .error (.inputValue "stream_name must not be empty" "stream_name" none)
    else
      match s.chars? with
      | some name => .ok name
      | none =>
        .error (.inputValue ("stream_name (str of length " ++ toString s.length ++
          ") is not UTF-8-encodable") "stream_name" none)
  | _ => .error (.inputType ("stream_name must be str, got " ++ value.typeName) "stream_name" none)

/-- Require `0.._MAX_BRIDGE_TIMESTAMP_NS`. -/
def bridgeTimestampNs (value : PyVal) : Except SerializationError ℕ :=
  (integer value "bridge_timestamp_ns" (some maxBridgeTimestampNs) 0 none).map Int.toNat

/-- Check `stream_name`, then `bridge_timestamp_ns`. -/
def envelope (name timestampNs : PyVal) : Except SerializationError (List Char × ℕ) := do
  let name ← streamName name
  let timestampNs ← bridgeTimestampNs timestampNs
  return (name, timestampNs)

/-- Require an iterable and return its elements. -/
def mutations (value : PyIterable) : Except SerializationError (List PyMutation) :=
  match value with
  | .items ms => .ok ms
  | .notIterable typeName =>
    .error (.inputType ("mutations must be iterable, got " ++ typeName) "mutations" none)

/-- Require `bytes` for `param1` or `param2`. -/
def param (value : PyVal) (field : String) (index : Option ℕ) : Except SerializationError Bytes :=
  match value with
  | .bytes b => .ok b
  | _ =>
    .error (.inputType (field ++ atIndex index "position" ++ " must be bytes, got " ++
      value.typeName) field index)

/-- The range check of `type_code` on a plain `int`. -/
def typeCodeRange (code : ℤ) (index : Option ℕ) : Except SerializationError ℕ :=
  if 0 ≤ code ∧ code ≤ maxTypeCode then .ok code.toNat
  else
    .error (.inputValue ("type" ++ atIndex index "position" ++ " must be in 0.." ++
      toString maxTypeCode ++ ", got " ++ rendered code) "type" index)

/-- Require an `int` in 0..255 that is not a `bool`. Returns it as a plain `int`. -/
def typeCode (value : PyVal) (index : Option ℕ) : Except SerializationError ℕ :=
  match value with
  | .int v => typeCodeRange v index
  | .intSubclass _ v => typeCodeRange v index
  | _ =>
    .error (.inputType ("type" ++ atIndex index "position" ++ " must be int, got " ++
      value.typeName) "type" index)

/-- `_attribute`: `getattr(mutation, field)`. -/
def getAttribute (mutation : PyMutation) (value : Option PyVal) (field : String) (index : Option ℕ) :
    Except SerializationError PyVal :=
  match value with
  | some v => .ok v
  | none =>
    .error (.inputType (mutation.typeName ++ atIndex index "position" ++
      " is not a native mutation: no '" ++ field ++ "' attribute") field index)

/-- Require a native mutation. Returns its checked `(type, param1, param2)`. -/
def native (mutation : PyMutation) (index : Option ℕ) :
    Except SerializationError (ℕ × Bytes × Bytes) := do
  let code ← typeCode (← getAttribute mutation mutation.type "type" index) index
  let param1 ← param (← getAttribute mutation mutation.param1 "param1" index) "param1" index
  let param2 ← param (← getAttribute mutation mutation.param2 "param2" index) "param2" index
  return (code, param1, param2)

/-- The loop of `natives` from position `index` on. The position is checked before the element is
read. -/
def nativesFrom (firstSequenceNo : ℕ) :
    ℕ → List PyMutation → Except SerializationError (List (ℕ × Bytes × Bytes))
  | _, [] => .ok []
  | index, mutation :: rest => do
    let _ ← assignedSequenceNo (firstSequenceNo + index) index
    let checked ← native mutation (some index)
    let others ← nativesFrom firstSequenceNo (index + 1) rest
    return checked :: others

/-- Require every mutation, and the position each is assigned, to be valid. -/
def natives (value : PyIterable) (firstSequenceNo : ℕ) :
    Except SerializationError (List (ℕ × Bytes × Bytes)) := do
  let ms ← mutations value
  nativesFrom firstSequenceNo 0 ms

end FdbKafkaBridge.Serialization.Checks
