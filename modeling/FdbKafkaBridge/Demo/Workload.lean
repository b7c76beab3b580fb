import FdbKafkaBridge.Collections.Dict
import FdbKafkaBridge.Exceptions
import FdbKafkaBridge.Serialization.MutationsPb
import Mathlib.Data.Finset.Sort
import Mathlib.Data.Nat.Digits.Defs

/-!
# The demo workload and its verifier

`demo/workload.py`: what the change stream should contain after the demo has written its operations,
and the check of the records that were consumed.
-/

namespace FdbKafkaBridge.Demo

open Collections
open Protobuf (Bytes)
open Serialization

/-! ## Text in keys and values -/

def ascii (text : String) : Bytes := text.toList.map fun c => UInt8.ofNat c.toNat

def digitByte (digit : ℕ) : UInt8 := UInt8.ofNat (48 + digit)

/-- `b"%d"`. -/
def decimal (n : ℕ) : Bytes :=
  if n = 0 then [digitByte 0] else (Nat.digits 10 n).reverse.map digitByte

/-- `f"{index:08d}".encode()`. Eight is the least number of digits. -/
def paddedIndex (index : ℕ) : Bytes :=
  List.replicate (8 - (decimal index).length) (digitByte 0) ++ decimal index

/-- `(index & 0xFFFFFFFF).to_bytes(8, "little")`. -/
def le8 (index : ℕ) : Bytes :=
  (List.range 8).map fun k => UInt8.ofNat (index % 2 ^ 32 / 256 ^ k % 256)

/-! ## `ExpectedMutation` -/

def versionstampLen : ℕ := 10

def setValueCode : ℤ := 0

def clearRangeTypeCode : ℤ := 1

/-- The number of a stamped parameter. -/
inductive StampedParam
  | param1
  | param2
  deriving DecidableEq, Repr

/-- One mutation as native CDC should emit it. The stamp is where the bytes of a versionstamp are
that cannot be predicted: the parameter, and the offset in it. -/
structure ExpectedMutation where
  typeCode : ℤ
  param1 : Bytes
  param2 : Bytes
  stamp : Option (StampedParam × ℕ)
  deriving DecidableEq, Repr

/-- Whether a stamped parameter is as expected outside the stamp. -/
def stampMatches (offset : ℕ) (got want : Bytes) : Bool :=
  got.length = want.length && got.take offset = want.take offset &&
    got.drop (offset + versionstampLen) = want.drop (offset + versionstampLen)

/-- Whether an emitted mutation is as expected outside the stamp. -/
def ExpectedMutation.matches (e : ExpectedMutation) (typeCode : ℤ) (param1 param2 : Bytes) : Bool :=
  if typeCode ≠ e.typeCode then false
  else
    match e.stamp with
    | none => param1 = e.param1 && param2 = e.param2
    | some (.param1, offset) => stampMatches offset param1 e.param1 && param2 = e.param2
    | some (.param2, offset) => stampMatches offset param2 e.param2 && param1 = e.param1

/-- The type, the tag and the operand of the operations that are written as they are. -/
def atomicOperation (index : ℕ) : ℕ → ℤ × Bytes × Bytes
  | 2 => (2, ascii "add_", le8 index)
  | 3 => (19, ascii "and_", [0x0f])
  | 4 => (7, ascii "or_", [0xf0])
  | 5 => (8, ascii "xor_", [0xaa])
  | 6 => (9, ascii "app_", ascii "chunk")
  | 7 => (12, ascii "max_", le8 index)
  | 8 => (18, ascii "min_", le8 index)
  | 11 => (16, ascii "bmin_", [0x10])
  | _ => (17, ascii "bmax_", [0xfe])

/-- The mutation CDC should emit for workload operation `index`. -/
def expectedMutation (keyPrefix : Bytes) (index : ℕ) : ExpectedMutation :=
  let idx := paddedIndex index
  match index % 14 with
  | 0 => ⟨setValueCode, keyPrefix ++ ascii "set_" ++ idx, ascii "val-" ++ decimal index, none⟩
  | 1 =>
    let clr := keyPrefix ++ ascii "clr_" ++ idx
    ⟨clearRangeTypeCode, clr ++ ascii "/a", clr ++ ascii "/z", none⟩
  | 9 =>
    let key := keyPrefix ++ ascii "vsk_" ++ idx
    let placeholder := key ++ List.replicate versionstampLen 0
    ⟨setValueCode, placeholder, ascii "vsk_payload", some (.param1, key.length)⟩
  | 10 =>
    let val := ascii "vsv_" ++ idx
    let placeholder := val ++ List.replicate versionstampLen 0
    ⟨setValueCode, keyPrefix ++ ascii "vsv_" ++ idx, placeholder, some (.param2, val.length)⟩
  | 13 =>
    ⟨setValueCode, keyPrefix ++ ascii "set_b_" ++ idx, ascii "val-b-" ++ decimal index, none⟩
  | mod =>
    let (typeCode, tag, operand) := atomicOperation index mod
    ⟨typeCode, keyPrefix ++ tag ++ idx, operand, none⟩

/-! ## The index in a key -/

def isDigit (b : UInt8) : Bool := 48 ≤ b && b ≤ 57

/-- `[a-z_]`. -/
def isTagByte (b : UInt8) : Bool := (97 ≤ b && b ≤ 122) || b = 95

/-- `int(...)` of decimal digits. -/
def digitsValue (digits : Bytes) : ℕ := digits.foldl (fun n b => 10 * n + (b.toNat - 48)) 0

/-- `(\d{8})` at the start. -/
def eightDigits (key : Bytes) : Option ℕ :=
  let digits := key.take 8
  if digits.length = 8 ∧ digits.all isDigit = true then some (digitsValue digits) else none

/-- `_INDEX_IN_KEY` at the start, `[a-z_]+?(\d{8})`. The tag is as short as it can be. -/
def matchIndex : Bytes → Option ℕ
  | [] => none
  | b :: rest =>
    if isTagByte b then
      match eightDigits rest with
      | some index => some index
      | none => matchIndex rest
    else none

/-- The match of `_INDEX_IN_KEY` after the prefix, if the key has the prefix. -/
def indexInKey (keyPrefix key : Bytes) : Option ℕ :=
  if keyPrefix.isPrefixOf key then matchIndex (key.drop keyPrefix.length) else none

/-! ## `verify_workload` -/

/-- `_native`. -/
def nativeOf (m : FDBMutation) : ℤ × Bytes × Bytes :=
  match m.mutation with
  | some (.clearRange range) => (clearRangeTypeCode, range.beginKey, range.endKey)
  | some (.singleKeyMutation single) => (single.mutationType, single.key, single.value)
  | none =>
    (FDBSingleKeyMutation.empty.mutationType, FDBSingleKeyMutation.empty.key,
      FDBSingleKeyMutation.empty.value)

def versionIndexOf (m : FDBMutation) : FDBVersionIndex := m.versionIndex.getD .empty

/-- `AssertionError`. -/
def assertionError (message : String) : PyExc := ⟨.other "AssertionError" none, message⟩

/-- One byte in `repr` of a byte string that is quoted with `quote`. -/
def reprByte (quote : Char) (b : UInt8) : String :=
  let c := Char.ofNat b.toNat
  if c = quote || b = 92 then "\\" ++ c.toString
  else if b = 9 then "\\t"
  else if b = 10 then "\\n"
  else if b = 13 then "\\r"
  else if 32 ≤ b && b < 127 then c.toString
  else
    let digits := Nat.toDigits 16 b.toNat
    "\\x" ++ String.ofList (List.replicate (2 - digits.length) '0' ++ digits)

/-- `repr` of a byte string. -/
def reprBytes (bs : Bytes) : String :=
  -- a quotation mark only if there are apostrophes and no such marks
  let quote := Char.ofNat (if bs.contains 39 && !bs.contains 34 then 34 else 39)
  "b" ++ quote.toString ++ String.join (bs.map (reprByte quote)) ++ quote.toString

/-- `repr` of a type code and two parameters. -/
def reprNative (native : ℤ × Bytes × Bytes) : String :=
  "(" ++ toString native.1 ++ ", " ++ reprBytes native.2.1 ++ ", " ++ reprBytes native.2.2 ++ ")"

/-- `repr` of a list of integers. -/
def reprInts (ns : List ℕ) : String := "[" ++ String.intercalate ", " (ns.map toString) ++ "]"

/-- The variables of `verify_workload`. -/
structure Verification where
  seqsByVersion : Dict ℕ (Finset ℕ)
  totals : Dict ℕ ℕ
  seen : Finset ℕ
  typeCounts : Dict ℤ ℕ

def Verification.empty : Verification := ⟨.empty, .empty, ∅, .empty⟩

/-- The coordinate of a mutation is new. -/
def checkCoordinate (m : FDBMutation) (s : Verification) : Except PyExc Verification :=
  let vi := versionIndexOf m
  let seqs := (s.seqsByVersion.get? vi.fdbVersion).getD ∅
  if vi.sequenceNo ∈ seqs then
    .error (assertionError ("duplicate coordinate (" ++ toString vi.fdbVersion ++ ", " ++
      toString vi.sequenceNo ++ ")"))
  else
    .ok { s with seqsByVersion := s.seqsByVersion.set vi.fdbVersion (insert vi.sequenceNo seqs) }

/-- The mutation is the one of an operation that was not seen before. -/
def checkOperation (keyPrefix : Bytes) (count : ℤ) (m : FDBMutation) (s : Verification) :
    Except PyExc Verification :=
  let (typeCode, p1, p2) := nativeOf m
  match indexInKey keyPrefix p1 with
  | none =>
    .error (assertionError ("key " ++ reprBytes p1 ++ " is not a workload key under prefix"))
  | some index =>
    let exp := expectedMutation keyPrefix index
    if (index : ℤ) ≥ count ∨ index ∈ s.seen then
      .error (assertionError ("unexpected or repeated mutation for index " ++ toString index))
    else if exp.matches typeCode p1 p2 then
      .ok { s with
        seen := insert index s.seen
        typeCounts := s.typeCounts.set typeCode ((s.typeCounts.get? typeCode).getD 0 + 1) }
    else
      .error (assertionError ("mutation for index " ++ toString index ++ " is " ++
        reprNative (typeCode, p1, p2) ++ ", expected " ++
        reprNative (exp.typeCode, exp.param1, exp.param2)))

/-- `check`. -/
def check (keyPrefix : Bytes) (count : ℤ) (m : FDBMutation) (s : Verification) :
    Except PyExc Verification := do
  checkOperation keyPrefix count m (← checkCoordinate m s)

/-- The version end is the first of its version. -/
def checkVersionEnd (ve : VersionEndMessage) (s : Verification) : Except PyExc Verification :=
  if (s.totals.get? ve.fdbVersion).isSome then
    .error (assertionError ("duplicate VersionEnd for " ++ toString ve.fdbVersion))
  else .ok { s with totals := s.totals.set ve.fdbVersion ve.totalMutations }

/-- `for m in rec.batch.mutations: check(m)`. -/
def checkAll (keyPrefix : Bytes) (count : ℤ) : List FDBMutation → Verification →
    Except PyExc Verification
  | [], s => .ok s
  | m :: ms, s => do checkAll keyPrefix count ms (← check keyPrefix count m s)

def checkRecord (keyPrefix : Bytes) (count : ℤ) (rec : FDBMutationRecord) (s : Verification) :
    Except PyExc Verification :=
  match rec.record with
  | some (.batch batch) => checkAll keyPrefix count batch.mutations s
  | some (.mutation m) => check keyPrefix count m s
  | some (.versionEnd ve) => checkVersionEnd ve s
  | none => .ok s

def checkRecords (keyPrefix : Bytes) (count : ℤ) : List FDBMutationRecord → Verification →
    Except PyExc Verification
  | [], s => .ok s
  | rec :: recs, s => do checkRecords keyPrefix count recs (← checkRecord keyPrefix count rec s)

/-- All indices were seen. -/
def checkSeen (count : ℤ) (s : Verification) : Except PyExc Unit :=
  if (s.seen.card : ℤ) ≠ count then
    let missing := (Finset.range count.toNat \ s.seen).sort (· ≤ ·)
    .error (assertionError (toString missing.length ++ " indices missing, e.g. " ++
      reprInts (missing.take 5)))
  else .ok ()

/-- Every version with a mutation has ended. -/
def checkEnded (totals : Dict ℕ ℕ) : List (ℕ × Finset ℕ) → Except PyExc Unit
  | [] => .ok ()
  | (version, _) :: rest =>
    if (totals.get? version).isNone then
      .error (assertionError ("version " ++ toString version ++ " has no VersionEnd"))
    else checkEnded totals rest

/-- The sequence numbers of every version are those below its total. -/
def checkTotals (seqsByVersion : Dict ℕ (Finset ℕ)) : List (ℕ × ℕ) → Except PyExc Unit
  | [] => .ok ()
  | (version, total) :: rest =>
    if (seqsByVersion.get? version).getD ∅ ≠ Finset.range total then
      .error (assertionError ("version " ++ toString version ++
        ": sequence numbers do not reconcile with declared total " ++ toString total))
    else checkTotals seqsByVersion rest

/-- The totals of the version ends sum to the count. -/
def checkSum (count : ℤ) (s : Verification) : Except PyExc Unit :=
  let sum := (s.totals.entries.map Prod.snd).sum
  if (sum : ℤ) ≠ count then
    .error (assertionError ("VersionEnd totals sum to " ++ toString sum))
  else .ok ()

/-- `verify_workload`: the verified mutation count per wire type code. -/
def verifyWorkload (records : List FDBMutationRecord) (keyPrefix : Bytes) (count : ℤ) :
    Except PyExc (Dict ℤ ℕ) := do
  let s ← checkRecords keyPrefix count records .empty
  checkSeen count s
  checkEnded s.totals s.seqsByVersion.entries
  checkTotals s.seqsByVersion s.totals.entries
  checkSum count s
  return s.typeCounts

end FdbKafkaBridge.Demo
