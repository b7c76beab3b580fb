import FdbKafkaBridge.Serialization.Errors

/-!
# Exceptions of the bridge

A `PyExc` is an `Exception` with the class that the handlers of the bridge can tell apart and its
text. Exceptions that are not an `Exception`, such as an interrupt, end the process and are not
caught anywhere; they are a run that is cut off.
-/

namespace FdbKafkaBridge

open Serialization (SerializationError)

/-- The `KafkaError` that a `KafkaException` or a callback carries. -/
structure KafkaError where
  text : String
  fatal : Bool
  retriable : Bool
  txnRequiresAbort : Bool
  deriving DecidableEq, Repr

/-- `CDCError` and its subclasses. -/
inductive CdcErrorClass
  | base
  | notSupported
  | consumerClosed
  | invalidCursor
  | invalidRange
  | retryable (code : Option ℤ)
  | terminal (code : Option ℤ)
  deriving DecidableEq, Repr

/-- The class of an exception, subclasses included. -/
inductive ExcKind
  /-- `KafkaException`, with the first argument when that is a `KafkaError`. -/
  | kafka (error : Option KafkaError)
  | bufferError
  | timeoutError
  | runtimeError
  | valueError
  | osError (errno : Option ℤ)
  | cdc (cls : CdcErrorClass)
  | serialization (error : SerializationError)
  /-- Any other class, with its `code` attribute when that is an `int`. `FDBError` is one. -/
  | other (typeName : String) (code : Option ℤ)
  deriving DecidableEq, Repr

/-- An exception and `str()` of it. -/
structure PyExc where
  kind : ExcKind
  message : String
  deriving DecidableEq, Repr

namespace PyExc

def kafka (error : KafkaError) : PyExc := ⟨.kafka (some error), error.text⟩
def timeoutError (message : String) : PyExc := ⟨.timeoutError, message⟩
def runtimeError (message : String) : PyExc := ⟨.runtimeError, message⟩
def valueError (message : String) : PyExc := ⟨.valueError, message⟩
def cdc (cls : CdcErrorClass) (message : String) : PyExc := ⟨.cdc cls, message⟩
def serialization (error : SerializationError) : PyExc := ⟨.serialization error, error.message⟩

def isKafkaException (exc : PyExc) : Bool :=
  match exc.kind with
  | .kafka _ => true
  | _ => false

def isBufferError (exc : PyExc) : Bool := exc.kind = .bufferError

def isTimeoutError (exc : PyExc) : Bool := exc.kind = .timeoutError

def isRuntimeError (exc : PyExc) : Bool := exc.kind = .runtimeError

/-- A `ValueError` that is not a `SerializationError`. -/
def isPermanent (exc : PyExc) : Bool := exc.kind = .valueError

def isCdcRetryable (exc : PyExc) : Bool :=
  match exc.kind with
  | .cdc (.retryable _) => true
  | _ => false

def isCdcTerminal (exc : PyExc) : Bool :=
  match exc.kind with
  | .cdc (.terminal _) => true
  | _ => false

/-- `_native_error_code`: the `code` attribute, if it is an `int`. -/
def nativeErrorCode (exc : PyExc) : Option ℤ :=
  match exc.kind with
  | .cdc (.retryable code) => code
  | .cdc (.terminal code) => code
  | .other _ code => code
  | _ => none

end PyExc

/-- `is_fatal_kafka_error`. -/
def isFatalKafkaError (exc : PyExc) : Bool :=
  match exc.kind with
  | .kafka (some error) => error.fatal
  | _ => false

/-- `_kafka_error`: the librdkafka error carried by the exception, if it has one. -/
def kafkaError (exc : PyExc) : Option KafkaError :=
  match exc.kind with
  | .kafka error => error
  | _ => none

/-- What `_commit_with_retry` retries: not fatal, retriable, and no abort required. -/
def isRetriableCommit (exc : PyExc) : Bool :=
  match kafkaError exc with
  | some error => !error.fatal && !error.txnRequiresAbort && error.retriable
  | none => false

end FdbKafkaBridge
