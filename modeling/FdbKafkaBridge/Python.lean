import FdbKafkaBridge.Protobuf.Wire

/-!
# Python values

The bridge is written in Python and checks the types of what it is given at run time. `PyVal` is a
Python value as far as those checks can tell values apart, and `PyStr` is a Python `str`, which
unlike a Lean `String` may contain lone surrogates and then has no UTF-8 encoding.
-/

namespace FdbKafkaBridge

open Protobuf (Bytes)

/-- One element of a Python `str`: a Unicode scalar value or a lone surrogate. -/
inductive CodePoint
  | scalar (c : Char)
  | surrogate (n : Fin 2048)
  deriving DecidableEq, Repr

/-- A Python `str`. -/
abbrev PyStr := List CodePoint

/-- The UTF-8 encoding of a string of scalar values. -/
def encodeUtf8 (s : List Char) : Bytes := s.flatMap String.utf8EncodeChar

/-- Strict UTF-8 decoding. -/
def decodeUtf8 (bs : Bytes) : Option (List Char) := bs.toByteArray.utf8Decode?.map Array.toList

/-- The characters of a `str`, or nothing when a lone surrogate makes it unencodable. -/
def PyStr.chars? : PyStr → Option (List Char)
  | [] => some []
  | .scalar c :: s => (PyStr.chars? s).map (c :: ·)
  | .surrogate _ :: _ => none

/-- `str.encode("utf-8")`, or nothing for a `UnicodeEncodeError`. -/
def PyStr.encode? (s : PyStr) : Option Bytes := s.chars?.map encodeUtf8

/-- The `str` of the given characters. -/
def PyStr.ofChars (s : List Char) : PyStr := s.map .scalar

/-- A Python value, as far as the type checks of the bridge can tell. -/
inductive PyVal
  | none
  | bool (b : Bool)
  | int (i : ℤ)
  /-- An instance of a proper subclass of `int` other than `bool`, such as an `IntEnum` member. -/
  | intSubclass (typeName : String) (i : ℤ)
  | str (s : PyStr)
  | bytes (b : Bytes)
  | other (typeName : String)
  deriving DecidableEq, Repr

/-- `type(value).__name__`. -/
def PyVal.typeName : PyVal → String
  | .none => "NoneType"
  | .bool _ => "bool"
  | .int _ => "int"
  | .intSubclass name _ => name
  | .str _ => "str"
  | .bytes _ => "bytes"
  | .other name => name

/-- `int.bit_length()`. -/
def bitLength (i : ℤ) : ℕ := i.natAbs.size

/-! ## Exceptions -/

/-- A computation returns exactly when its first part returns and so does the rest of it. -/
theorem bind_eq_ok {ε α β : Type} {x : Except ε α} {f : α → Except ε β} {r : β} :
    (x >>= f) = .ok r ↔ ∃ a, x = .ok a ∧ f a = .ok r := by
  constructor
  · intro h
    cases x with
    | error e => cases h
    | ok a => exact ⟨a, rfl, h⟩
  · rintro ⟨a, rfl, h⟩
    exact h

/-- It raises what its first part raises, or what the rest does. -/
theorem bind_eq_error {ε α β : Type} {x : Except ε α} {f : α → Except ε β} {e : ε} :
    (x >>= f) = .error e ↔ x = .error e ∨ ∃ a, x = .ok a ∧ f a = .error e := by
  constructor
  · intro h
    cases x with
    | error e' =>
      cases h
      exact .inl rfl
    | ok a => exact .inr ⟨a, rfl, h⟩
  · rintro (rfl | ⟨a, rfl, h⟩)
    · rfl
    · exact h

theorem map_eq_error {ε α β : Type} {x : Except ε α} {f : α → β} {e : ε} :
    x.map f = .error e ↔ x = .error e := by
  cases x <;> simp [Except.map]

theorem map_eq_ok {ε α β : Type} {x : Except ε α} {f : α → β} {r : β} :
    x.map f = .ok r ↔ ∃ a, x = .ok a ∧ f a = r := by
  cases x <;> simp [Except.map]

/-! ## Text -/

theorem decodeUtf8_encodeUtf8 (s : List Char) : decodeUtf8 (encodeUtf8 s) = some s := by
  have h : (encodeUtf8 s).toByteArray = s.utf8Encode := rfl
  simp [decodeUtf8, h, List.utf8Decode?_utf8Encode]

@[simp] theorem PyStr.chars?_ofChars (s : List Char) : (PyStr.ofChars s).chars? = some s := by
  induction s with
  | nil => rfl
  | cons c s ih =>
    show ((PyStr.ofChars s).chars?).map (c :: ·) = some (c :: s)
    rw [ih]
    rfl

theorem PyStr.eq_ofChars {s : PyStr} {cs : List Char} (h : s.chars? = some cs) :
    s = PyStr.ofChars cs := by
  induction s generalizing cs with
  | nil =>
    cases h
    rfl
  | cons p s ih =>
    cases p with
    | scalar c =>
      obtain ⟨cs', hcs', rfl⟩ := Option.map_eq_some_iff.1 h
      rw [ih hcs']
      rfl
    | surrogate n => cases h

end FdbKafkaBridge
