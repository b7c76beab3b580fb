import FdbKafkaBridge.Bridge.Components
import FdbKafkaBridge.Collections.Dict

/-!
# The configuration of the bridge

`bridge/config.py`: how `from_dict` reads a configuration from a dictionary. The checks run in the
order of the source, so that a dictionary with several faults raises what the source raises.
-/

namespace FdbKafkaBridge.Config

open Protobuf (Bytes)
open Collections

/-! ## Values -/

/-- A Python `float`, for which `0.1` is the number that it writes. -/
inductive PyFloat
  | finite (q : ℚ)
  | inf (negative : Bool)
  | nan
  deriving DecidableEq, Repr

/-- A value in a section, of a built-in type. -/
inductive Value
  | none
  | bool (b : Bool)
  | int (i : ℤ)
  | float (x : PyFloat)
  | str (s : PyStr)
  | bytes (b : Bytes)
  | bytearray (b : Bytes)
  | other (typeName : String)
  deriving DecidableEq, Repr

/-- `type(value).__name__`. -/
def Value.typeName : Value → String
  | .none => "NoneType"
  | .bool _ => "bool"
  | .int _ => "int"
  | .float _ => "float"
  | .str _ => "str"
  | .bytes _ => "bytes"
  | .bytearray _ => "bytearray"
  | .other typeName => typeName

/-- What stands under the name of a section. -/
inductive Section
  | none
  | dict (settings : Dict PyStr Value)
  | other

/-- What `from_dict` is given. -/
inductive Data
  | dict (sections : Dict PyStr Section)
  | other (typeName : String)

/-- A string literal of the source. -/
def text (s : String) : PyStr := PyStr.ofChars s.toList

/-! ## Exceptions -/

inductive ErrorClass
  | typeError
  | valueError
  | overflowError
  deriving DecidableEq, Repr

/-- An exception and its text, at the end of which `repr(rendered)` stands. -/
structure Error where
  cls : ErrorClass
  message : PyStr
  rendered : Option PyStr
  deriving DecidableEq, Repr

def typeError (message : String) : Error := ⟨.typeError, text message, none⟩
def valueError (message : String) : Error := ⟨.valueError, text message, none⟩

/-! ## Parsed configurations -/

structure FDBConfig where
  apiVersion : ℤ
  clusterFile : Option PyStr
  deriving DecidableEq, Repr

structure CDCConfig where
  streamName : PyStr
  beginKey : Bytes
  endKey : Bytes
  maxRecordBytes : ℤ
  cursorFile : Option PyStr
  deriving DecidableEq, Repr

structure KafkaConfig where
  bootstrapServers : PyStr
  topic : PyStr
  transactionalId : Option PyStr
  deriving DecidableEq, Repr

structure PipelineConfig where
  flushTimeoutSeconds : PyFloat
  backoffBaseSeconds : PyFloat
  backoffMaxSeconds : PyFloat
  shutdownTimeoutSeconds : PyFloat
  deriving DecidableEq, Repr

/-- `BridgeConfig` as `from_dict` returns it. -/
structure Parsed where
  fdb : FDBConfig
  cdc : CDCConfig
  kafka : KafkaConfig
  pipeline : PipelineConfig
  deriving DecidableEq, Repr

/-! ## Sections -/

/-- The number of a code point, by which Python orders strings. -/
def ordinal : CodePoint → ℕ
  | .scalar c => c.toNat
  | .surrogate n => 0xd800 + n

/-- `sorted` of strings. -/
def sorted (keys : List PyStr) : List PyStr :=
  keys.mergeSort fun a b => !decide (b.map ordinal < a.map ordinal)

/-- `_require_dict`, of what `get` returns for the section. -/
def requireDict (name : String) : Option Section → Except Error (Dict PyStr Value)
  | none => .ok .empty
  | some .none => .ok .empty
  | some (.dict settings) => .ok settings
  | some .other => .error (typeError ("The '" ++ name ++ "' section must be a dictionary"))

/-- `_reject_unknown_keys`, of the keys of the section and the fields of its class. -/
def rejectUnknownKeys (name : String) (keys : List PyStr) (fields : List String) :
    Except Error Unit :=
  let unknown := keys.filter fun key => !(fields.map text).contains key
  if unknown = [] then .ok ()
  else
    .error ⟨.valueError, text ("Unknown key(s) in '" ++ name ++ "': ") ++
      (text ", ").intercalate (sorted unknown), none⟩

/-- `get` of a section, with the default that stands there in the source. -/
def setting (settings : Dict PyStr Value) (key : String) (default : Value) : Value :=
  (settings.get? (text key)).getD default

/-! ## Settings -/

def hexDigit? : CodePoint → Option ℕ
  | .surrogate _ => none
  | .scalar c =>
    let n := c.toNat
    if 48 ≤ n ∧ n ≤ 57 then some (n - 48)
    else if 97 ≤ n ∧ n ≤ 102 then some (n - 87)
    else if 65 ≤ n ∧ n ≤ 70 then some (n - 55)
    else none

/-- The white space that `bytes.fromhex` skips. -/
def isHexSpace : CodePoint → Bool
  | .surrogate _ => false
  | .scalar c => (9 ≤ c.toNat && c.toNat ≤ 13) || c.toNat == 32

/-- `bytes.fromhex`: white space stands between two bytes, never inside one. -/
def fromHex : PyStr → Option Bytes
  | [] => some []
  | [c] => if isHexSpace c then some [] else none
  | c :: d :: rest =>
    if isHexSpace c then fromHex (d :: rest)
    else do
      let high ← hexDigit? c
      let low ← hexDigit? d
      let bytes ← fromHex rest
      return UInt8.ofNat (16 * high + low) :: bytes

/-- `_parse_key`. -/
def parseKey (key : Value) (name : String) : Except Error Bytes :=
  match key with
  | .str s =>
    match fromHex s with
    | some bytes => .ok bytes
    | none =>
      .error ⟨.valueError, text ("cdc." ++ name ++ " is not a valid hex string: "), some s⟩
  | .bytes b => .ok b
  | .bytearray b => .ok b
  | value =>
    .error (typeError ("cdc." ++ name ++ " must be a hex string or bytes, got " ++ value.typeName))

/-- The check of `fdb.api_version` and `cdc.max_record_bytes`. -/
def positiveInt (path : String) : Value → Except Error ℤ
  | .int i => if i < 1 then .error (valueError (path ++ " must be positive")) else .ok i
  | _ => .error (typeError (path ++ " must be an integer"))

/-- The check of `fdb.cluster_file` and `cdc.cursor_file`. -/
def optionalStr (path : String) : Value → Except Error (Option PyStr)
  | .none => .ok none
  | .str s => .ok (some s)
  | _ => .error (typeError (path ++ " must be a string or None"))

/-- The check of `kafka.bootstrap_servers` and `kafka.topic`. -/
def nonEmptyStr (path : String) (value : Value) : Except Error PyStr :=
  let error := valueError (path ++ " must be a non-empty string")
  match value with
  | .str s => if s.isBlank then .error error else .ok s
  | _ => .error error

/-- The check of `cdc.stream_name`. -/
def requiredStr (path : String) : Value → Except Error PyStr
  | .str s =>
    if s.isBlank then .error (valueError (path ++ " must be a non-empty string")) else .ok s
  | _ => .error (typeError (path ++ " must be a string"))

/-- The check of `kafka.transactional_id`. -/
def optionalNonEmptyStr (path : String) : Value → Except Error (Option PyStr)
  | .none => .ok none
  | .str s =>
    if s.isBlank then .error (valueError (path ++ " must be a non-empty string"))
    else .ok (some s)
  | _ => .error (typeError (path ++ " must be a string or None"))

/-- `x <= 0`, which is false of a NaN. -/
def PyFloat.isNonPositive : PyFloat → Bool
  | .finite q => decide (q ≤ 0)
  | .inf negative => negative
  | .nan => false

/-- An `int` or a `float`. -/
inductive Number
  | int (i : ℤ)
  | float (x : PyFloat)
  deriving DecidableEq, Repr

def Number.isNonPositive : Number → Bool
  | .int i => decide (i ≤ 0)
  | .float x => x.isNonPositive

/-- The check of the settings of the pipeline. -/
def positiveNumber (path : String) (value : Value) : Except Error Number :=
  let error := valueError (path ++ " must be a positive number")
  let check (x : Number) := if x.isNonPositive then .error error else .ok x
  match value with
  | .int i => check (.int i)
  | .float x => check (.float x)
  | _ => .error error

/-- The multiple of a power of two with 53 significant bits that is closest to `n`, and of two the
even one. -/
def roundToDouble (n : ℕ) : ℕ :=
  let unit := 2 ^ (n.size - 53)
  let quotient := n / unit
  let rest := n % unit
  if 2 * rest < unit ∨ (2 * rest = unit ∧ quotient % 2 = 0) then quotient * unit
  else (quotient + 1) * unit

/-- `float(x)`. The exponent of a double is less than 1024. -/
def Number.toFloat : Number → Except Error PyFloat
  | .float x => .ok x
  | .int i =>
    if 1024 < (roundToDouble i.natAbs).size then
      .error ⟨.overflowError, text "int too large to convert to float", none⟩
    else .ok (.finite (i.sign * roundToDouble i.natAbs))

/-! ## `from_dict` -/

def fdbOf (settings : Dict PyStr Value) : Except Error FDBConfig := do
  let apiVersion ← positiveInt "fdb.api_version" (setting settings "api_version" (.int 800))
  let clusterFile ← optionalStr "fdb.cluster_file" (setting settings "cluster_file" .none)
  return ⟨apiVersion, clusterFile⟩

/-- The checks of a key range. -/
def checkKeyRange (beginKey endKey : Bytes) : Except Error Unit :=
  if beginKey.isEmpty ≠ endKey.isEmpty then
    .error (valueError
      "cdc.begin_key and cdc.end_key must either both be specified or both omitted")
  else if beginKey ≠ [] ∧ ¬ beginKey < endKey then
    .error (valueError "cdc.begin_key must be less than cdc.end_key")
  else .ok ()

def cdcOf (settings : Dict PyStr Value) : Except Error CDCConfig := do
  let streamName ← requiredStr "cdc.stream_name" (setting settings "stream_name" (.str []))
  let beginKey ← parseKey (setting settings "begin_key" (.str [])) "begin_key"
  let endKey ← parseKey (setting settings "end_key" (.str [])) "end_key"
  checkKeyRange beginKey endKey
  let maxRecordBytes ←
    positiveInt "cdc.max_record_bytes" (setting settings "max_record_bytes" (.int 1000000))
  let cursorFile ← optionalStr "cdc.cursor_file" (setting settings "cursor_file" .none)
  return ⟨streamName, beginKey, endKey, maxRecordBytes, cursorFile⟩

def kafkaOf (settings : Dict PyStr Value) : Except Error KafkaConfig := do
  let bootstrapServers ← nonEmptyStr "kafka.bootstrap_servers"
    (setting settings "bootstrap_servers" (.str (text "localhost:9092")))
  let topic ← nonEmptyStr "kafka.topic" (setting settings "topic" (.str (text "fdb-cdc")))
  let transactionalId ← optionalNonEmptyStr "kafka.transactional_id"
    (setting settings "transactional_id" .none)
  return ⟨bootstrapServers, topic, transactionalId⟩

/-- One of the settings of the pipeline, which is made a `float` after all have been checked. -/
def interval (settings : Dict PyStr Value) (key : String) (default : ℚ) : Except Error Number :=
  positiveNumber ("pipeline." ++ key) (setting settings key (.float (.finite default)))

def pipelineOf (settings : Dict PyStr Value) : Except Error PipelineConfig := do
  let flushTimeout ← interval settings "flush_timeout_seconds" 10
  let backoffBase ← interval settings "backoff_base_seconds" (1 / 10)
  let backoffMax ← interval settings "backoff_max_seconds" 2
  let shutdownTimeout ← interval settings "shutdown_timeout_seconds" 15
  return ⟨← flushTimeout.toFloat, ← backoffBase.toFloat, ← backoffMax.toFloat,
    ← shutdownTimeout.toFloat⟩

def fromDict : Data → Except Error Parsed
  | .other typeName =>
    .error (typeError ("Configuration must be a dictionary, got " ++ typeName))
  | .dict data => do
    rejectUnknownKeys "<root>" data.keys ["fdb", "cdc", "kafka", "pipeline"]
    let fdb ← requireDict "fdb" (data.get? (text "fdb"))
    let cdc ← requireDict "cdc" (data.get? (text "cdc"))
    let kafka ← requireDict "kafka" (data.get? (text "kafka"))
    let pipeline ← requireDict "pipeline" (data.get? (text "pipeline"))
    rejectUnknownKeys "fdb" fdb.keys ["api_version", "cluster_file"]
    rejectUnknownKeys "cdc" cdc.keys
      ["stream_name", "begin_key", "end_key", "max_record_bytes", "cursor_file"]
    rejectUnknownKeys "kafka" kafka.keys ["bootstrap_servers", "topic", "transactional_id"]
    rejectUnknownKeys "pipeline" pipeline.keys ["flush_timeout_seconds", "backoff_base_seconds",
      "backoff_max_seconds", "shutdown_timeout_seconds"]
    return ⟨← fdbOf fdb, ← cdcOf cdc, ← kafkaOf kafka, ← pipelineOf pipeline⟩

end FdbKafkaBridge.Config
