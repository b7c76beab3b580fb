import FdbKafkaBridge.Python

/-!
# Error taxonomy of the serialization package

`serialization/errors.py`. The four classes the package raises are the constructors; the
attributes that a base class stores are read back by `field` and `index`.
-/

namespace FdbKafkaBridge.Serialization

/-- `DecodeFailure`: why bytes are not a decodable record. -/
inductive DecodeFailure
  | malformedWire
  | noRecordArm
  | noMutationArm
  | missingVersionIndex
  | typeCodeOutOfRange
  | versionOutOfRange
  | emptyBatch
  | inconsistentBatch
  deriving DecidableEq, Repr

/-- `SerializationError` and its subclasses. -/
inductive SerializationError
  /-- `InputTypeError`: an argument or native-mutation attribute has the wrong Python type. -/
  | inputType (message field : String) (index : Option ℕ)
  /-- `InputValueError`: an argument or native-mutation attribute is out of range. -/
  | inputValue (message field : String) (index : Option ℕ)
  /-- `RecordTooLargeError`: one mutation, or the version end, cannot fit `max_record_bytes`. -/
  | recordTooLarge (message : String) (index : Option ℕ) (recordBytes : ℕ) (maxRecordBytes : ℤ)
  /-- `RecordDecodeError`: the bytes are an undecodable record. -/
  | recordDecode (message : String) (reason : DecodeFailure) (index : Option ℕ)
  deriving DecidableEq, Repr

namespace SerializationError

/-- The offending position, if the error has one. -/
def index : SerializationError → Option ℕ
  | inputType _ _ index => index
  | inputValue _ _ index => index
  | recordTooLarge _ index _ _ => index
  | recordDecode _ _ index => index

/-- The offending parameter of an input error. `RecordTooLargeError` passes its own to
`InputValueError`. -/
def field : SerializationError → Option String
  | inputType _ field _ => some field
  | inputValue _ field _ => some field
  | recordTooLarge .. => some "max_record_bytes"
  | recordDecode .. => none

def message : SerializationError → String
  | inputType message _ _ => message
  | inputValue message _ _ => message
  | recordTooLarge message _ _ _ => message
  | recordDecode message _ _ => message

/-- An `InputTypeError` or `InputValueError` about position `i`. -/
def IsInputAt (e : SerializationError) (i : ℕ) : Prop :=
  ∃ message field, e = inputType message field (some i) ∨ e = inputValue message field (some i)

/-- A `RecordDecodeError` with this index. -/
def IsDecodeAt (e : SerializationError) (index : Option ℕ) : Prop :=
  ∃ message reason, e = recordDecode message reason index

/-- Whether the class also derives from the builtin `ValueError`. -/
def isValueError : SerializationError → Bool
  | inputType .. => false
  | _ => true

end SerializationError

end FdbKafkaBridge.Serialization
