import FdbKafkaBridge.Exceptions
import Mathlib.Data.List.DropRight

/-!
# The key range of a subspace

`strinc` and `subspace_to_key_range` of `cdc/listener.py`.
-/

namespace FdbKafkaBridge

open Protobuf (Bytes)

/-- `key.rstrip(b"\xff")`. -/
def rstripFF (key : Bytes) : Bytes := key.rdropWhile (· == 0xff)

/-- The next prefix after `key`. -/
def strinc (key : Bytes) : Except PyExc Bytes :=
  let stripped := rstripFF key
  match stripped.getLast? with
  | none => .error (.valueError "Key must contain at least one byte not equal to 0xFF")
  | some last => .ok (stripped.dropLast ++ [last + 1])

/-- What may be given as a subspace. -/
inductive Subspace
  /-- An object with a method `key`, as the subspaces of the binding have it. -/
  | keyed (key : Bytes)
  | bytes (key : Bytes)
  | other (typeName : String)
  deriving DecidableEq, Repr

/-- The strict range `[begin, end)` covering a subspace. -/
def subspaceToKeyRange (subspace : Subspace) : Except PyExc (Bytes × Bytes) := do
  let keyPrefix ← match subspace with
    | .keyed key => .ok key
    | .bytes key => .ok key
    | .other typeName => .error ⟨.other "TypeError" none,
        "Expected FDB Subspace or bytes prefix, got " ++ typeName⟩
  return (keyPrefix, ← strinc keyPrefix)

end FdbKafkaBridge
