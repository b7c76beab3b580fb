import FdbKafkaBridge.Protobuf.Varint

/-!
# The protobuf wire format

A serialized message is a sequence of tagged fields. `encodeFields` writes such a sequence and
`parse` reads one back. A message type is given by the fields it writes and by a step that merges
one parsed field into it, as the proto3 rules have it: `merge` runs that step over all fields of a
byte string, so that a repeated scalar field overwrites, a repeated submessage is merged, and a
field the step does not know is skipped.

Length prefixes are read without a bound on their width, since nothing here bounds a payload.
-/

namespace Protobuf

/-- The value of one field on the wire. -/
inductive WireValue
  | varint (n : ℕ)
  | fixed64 (bytes : Bytes)
  | len (payload : Bytes)
  | fixed32 (bytes : Bytes)
  deriving DecidableEq, Repr

/-- One field on the wire. -/
structure Field where
  /-- The field number of the message type. -/
  number : ℕ
  /-- The encoded value. -/
  value : WireValue
  deriving DecidableEq, Repr

def WireValue.wireType : WireValue → ℕ
  | .varint _ => 0
  | .fixed64 _ => 1
  | .len _ => 2
  | .fixed32 _ => 5

/-- The bytes after the tag. -/
def WireValue.encode : WireValue → Bytes
  | .varint n => Protobuf.varint n
  | .fixed64 bytes => bytes
  | .len payload => Protobuf.varint payload.length ++ payload
  | .fixed32 bytes => bytes

/-- The number in front of a field: `field_number << 3 | wire_type`. -/
def tagValue (number wireType : ℕ) : ℕ := 8 * number + wireType

def Field.encode (f : Field) : Bytes :=
  varint (tagValue f.number f.value.wireType) ++ f.value.encode

/-- The serialized message with the given fields. -/
def encodeFields (fs : List Field) : Bytes := fs.flatMap Field.encode

/-- Exactly `n` bytes and the rest, or nothing when the input is shorter. -/
def takeExactly (n : ℕ) (bs : Bytes) : Option (Bytes × Bytes) :=
  if n ≤ bs.length then some (bs.take n, bs.drop n) else none

/-- Reads a tag: the field number and the wire type. -/
def readTag (bs : Bytes) : Option ((ℕ × ℕ) × Bytes) :=
  match readVarint 5 bs with
  | some (t, rest) =>
    if t < 2 ^ 32 ∧ t / 8 ≠ 0 then some ((t / 8, t % 8), rest) else none
  | none => none

/-- Reads the value that follows a tag of the given wire type. -/
def readValue (wireType : ℕ) (bs : Bytes) : Option (WireValue × Bytes) :=
  match wireType with
  | 0 => (readVarint 10 bs).map fun r => (.varint (r.1 % 2 ^ 64), r.2)
  | 1 => (takeExactly 8 bs).map fun r => (.fixed64 r.1, r.2)
  | 2 => (readVarint bs.length bs).bind fun r =>
      (takeExactly r.1 r.2).map fun s => (.len s.1, s.2)
  | 5 => (takeExactly 4 bs).map fun r => (.fixed32 r.1, r.2)
  | _ => none

/-- Reads at most `k` fields. `groups` holds the numbers of the groups that are open; what is
inside a group belongs to no known field and is dropped. -/
def parseAux : ℕ → List ℕ → Bytes → Option (List Field)
  | _, [], [] => some []
  | _, _ :: _, [] => none
  | 0, _, _ :: _ => none
  | k + 1, groups, b :: bs =>
    match readTag (b :: bs) with
    | none => none
    | some ((number, wireType), rest) =>
      if wireType = 3 then parseAux k (number :: groups) rest
      else if wireType = 4 then
        match groups with
        | [] => none
        | g :: gs => if g = number then parseAux k gs rest else none
      else
        match readValue wireType rest with
        | none => none
        | some (value, rest') =>
          (parseAux k groups rest').map fun fs =>
            if groups = [] then ⟨number, value⟩ :: fs else fs

/-- The fields of a serialized message, in wire order, or nothing when it is malformed. -/
def parse (bs : Bytes) : Option (List Field) := parseAux bs.length [] bs

/-- Merges every field of a serialized message into `init`. -/
def merge {μ : Type} (step : μ → Field → Option μ) (init : μ) (bs : Bytes) : Option μ :=
  (parse bs).bind fun fs => fs.foldlM step init

/-- What every step preserves holds of the merged message. -/
theorem merge_induction {μ : Type} {step : μ → Field → Option μ} {P : μ → Prop}
    (hstep : ∀ m f m', P m → step m f = some m' → P m') {init m : μ} {bs : Bytes} (h0 : P init)
    (h : merge step init bs = some m) : P m := by
  obtain ⟨fs, -, hfold⟩ := Option.bind_eq_some_iff.1 h
  clear h
  induction fs generalizing init with
  | nil =>
    cases hfold
    exact h0
  | cons f fs ih =>
    rw [List.foldlM_cons] at hfold
    obtain ⟨m₁, hm₁, hfold⟩ := Option.bind_eq_some_iff.1 hfold
    exact ih (hstep init f m₁ h0 hm₁) hfold

/-! ## Scalar fields

proto3 leaves a scalar field out when it holds its default value. -/

/-- A `uint32` or `uint64` field. -/
def uintField (number n : ℕ) : List Field :=
  if n = 0 then [] else [⟨number, .varint n⟩]

/-- An `int32`, `int64` or enum field: negative numbers are written as 64-bit two's complement. -/
def intField (number : ℕ) (n : ℤ) : List Field := uintField number (n % 2 ^ 64).toNat

/-- A `bytes` or `string` field. -/
def bytesField (number : ℕ) (b : Bytes) : List Field :=
  if b = [] then [] else [⟨number, .len b⟩]

/-- A submessage field that is present. -/
def messageField (number : ℕ) (payload : Bytes) : List Field := [⟨number, .len payload⟩]

/-- A varint read as `uint32`. -/
def toUInt32 (n : ℕ) : ℕ := n % 2 ^ 32

/-- A varint read as `int64`. -/
def toInt64 (n : ℕ) : ℤ := if n < 2 ^ 63 then n else (n : ℤ) - 2 ^ 64

/-- A varint read as `int32` or as an open enum. -/
def toInt32 (n : ℕ) : ℤ :=
  if n % 2 ^ 32 < 2 ^ 31 then ((n % 2 ^ 32 : ℕ) : ℤ) else ((n % 2 ^ 32 : ℕ) : ℤ) - 2 ^ 32

theorem toUInt32_of_lt {n : ℕ} (h : n < 2 ^ 32) : toUInt32 n = n := Nat.mod_eq_of_lt h

theorem toInt64_of_lt {n : ℤ} (h0 : 0 ≤ n) (h : n < 2 ^ 63) : toInt64 (n % 2 ^ 64).toNat = n := by
  have hmod : n % 2 ^ 64 = n := Int.emod_eq_of_lt h0 (by omega)
  rw [hmod, toInt64, if_pos (by omega)]
  omega

theorem toInt32_of_lt {n : ℤ} (h0 : 0 ≤ n) (h : n < 2 ^ 31) : toInt32 (n % 2 ^ 64).toNat = n := by
  have hmod : n % 2 ^ 64 = n := Int.emod_eq_of_lt h0 (by omega)
  have hnat : n.toNat % 2 ^ 32 = n.toNat := Nat.mod_eq_of_lt (by omega)
  rw [hmod, toInt32, hnat, if_pos (by omega)]
  omega

/-! ## Parsing what was written -/

/-- The fields that `encodeFields` can write: a legal field number and a value of the width of its
wire type. -/
def WireValue.Valid : WireValue → Prop
  | .varint n => n < 2 ^ 64
  | .fixed64 bytes => bytes.length = 8
  | .len _ => True
  | .fixed32 bytes => bytes.length = 4

structure Field.Valid (f : Field) : Prop where
  number_pos : 0 < f.number
  number_lt : f.number < 2 ^ 29
  value : f.value.Valid

/-- All fields of a message are legal. -/
def AllValid (fs : List Field) : Prop := ∀ f ∈ fs, f.Valid

theorem allValid_nil : AllValid [] := fun _ h => nomatch h

theorem AllValid.append {fs gs : List Field} (hf : AllValid fs) (hg : AllValid gs) :
    AllValid (fs ++ gs) := by
  intro f hmem
  rcases List.mem_append.1 hmem with h | h
  · exact hf f h
  · exact hg f h

theorem takeExactly_append (p rest : Bytes) : takeExactly p.length (p ++ rest) = some (p, rest) := by
  simp [takeExactly]

theorem WireValue.wireType_lt (v : WireValue) : v.wireType < 8 := by
  cases v <;> simp [wireType]

theorem readTag_tag {number wireType : ℕ} (rest : Bytes) (hpos : 0 < number)
    (hlt : number < 2 ^ 29) (hw : wireType < 8) :
    readTag (varint (tagValue number wireType) ++ rest) = some ((number, wireType), rest) := by
  have hsize : varintSize (tagValue number wireType) ≤ 5 := by
    have hle : tagValue number wireType ≤ 2 ^ 32 - 1 := by simp only [tagValue]; omega
    exact (varintSize_mono hle).trans (by decide)
  have hdiv : tagValue number wireType / 8 = number := by simp only [tagValue]; omega
  have hmod : tagValue number wireType % 8 = wireType := by simp only [tagValue]; omega
  rw [readTag, readVarint_varint _ _ hsize]
  simp only [hdiv, hmod]
  rw [if_pos ⟨by simp only [tagValue]; omega, hpos.ne'⟩]

theorem readValue_encode {v : WireValue} (hv : v.Valid) (rest : Bytes) :
    readValue v.wireType (v.encode ++ rest) = some (v, rest) := by
  cases v with
  | varint n =>
    have hn : n < 2 ^ 64 := hv
    simp only [WireValue.wireType, WireValue.encode, readValue]
    rw [readVarint_varint _ _ (varintSize_le_ten hn), Option.map_some, Nat.mod_eq_of_lt hn]
  | fixed64 bytes =>
    have hlen : bytes.length = 8 := hv
    simp only [WireValue.wireType, WireValue.encode, readValue]
    rw [← hlen, takeExactly_append]
    rfl
  | len payload =>
    have hsize : varintSize payload.length ≤
        (varint payload.length ++ payload ++ rest).length := by
      simp only [List.length_append, length_varint]
      omega
    simp only [WireValue.wireType, WireValue.encode, readValue]
    rw [List.append_assoc] at hsize ⊢
    rw [readVarint_varint _ _ hsize]
    simp [takeExactly_append]
  | fixed32 bytes =>
    have hlen : bytes.length = 4 := hv
    simp only [WireValue.wireType, WireValue.encode, readValue]
    rw [← hlen, takeExactly_append]
    rfl

theorem length_lt_of_readTag {bs rest : Bytes} {t : ℕ × ℕ} (h : readTag bs = some (t, rest)) :
    rest.length < bs.length := by
  unfold readTag at h
  split at h
  · rename_i n r hr
    split at h
    · simp only [Option.some.injEq, Prod.mk.injEq] at h
      obtain ⟨-, rfl⟩ := h
      exact length_lt_of_readVarint hr
    · cases h
  · cases h

theorem length_le_of_takeExactly {n : ℕ} {bs : Bytes} {r : Bytes × Bytes}
    (h : takeExactly n bs = some r) : r.2.length ≤ bs.length := by
  unfold takeExactly at h
  split at h
  · rw [Option.some.injEq] at h
    simp [← h]
  · cases h

theorem length_le_of_readValue {wireType : ℕ} {bs rest : Bytes} {v : WireValue}
    (h : readValue wireType bs = some (v, rest)) : rest.length ≤ bs.length := by
  unfold readValue at h
  split at h
  · obtain ⟨r, hr, he⟩ := Option.map_eq_some_iff.1 h
    have := length_lt_of_readVarint hr
    cases he
    omega
  · obtain ⟨r, hr, he⟩ := Option.map_eq_some_iff.1 h
    have := length_le_of_takeExactly hr
    cases he
    exact this
  · obtain ⟨r, hr, he⟩ := Option.bind_eq_some_iff.1 h
    obtain ⟨s, hs, he⟩ := Option.map_eq_some_iff.1 he
    have h1 := length_lt_of_readVarint hr
    have h2 := length_le_of_takeExactly hs
    cases he
    omega
  · obtain ⟨r, hr, he⟩ := Option.map_eq_some_iff.1 h
    have := length_le_of_takeExactly hr
    cases he
    exact this
  · cases h

/-- Fuel beyond the number of bytes changes nothing: every field takes at least one byte. -/
theorem parseAux_fuel (k : ℕ) : ∀ {groups : List ℕ} {bs : Bytes}, bs.length ≤ k →
    parseAux k groups bs = parseAux bs.length groups bs := by
  induction k using Nat.strong_induction_on with
  | h k ih =>
    intro groups bs hk
    cases bs with
    | nil => cases groups <;> cases k <;> simp [parseAux]
    | cons b bs =>
      obtain ⟨k, rfl⟩ : ∃ j, k = j + 1 := ⟨k - 1, by simp at hk; omega⟩
      -- both sides read the same tag; the rest is short enough for either amount of fuel
      have step : ∀ (gs : List ℕ) (rest : Bytes), rest.length < (b :: bs).length →
          parseAux k gs rest = parseAux bs.length gs rest := by
        intro gs rest hrest
        simp only [List.length_cons] at hk hrest
        rw [ih k (by omega) (show rest.length ≤ k by omega)]
        rcases Nat.lt_or_ge bs.length (k + 1) with hb | hb
        · rw [ih bs.length hb (by omega)]
        · rw [show bs.length = k by omega, ih k (by omega) (show rest.length ≤ k by omega)]
      simp only [List.length_cons, parseAux]
      cases htag : readTag (b :: bs) with
      | none => rfl
      | some t =>
        obtain ⟨⟨number, wireType⟩, rest⟩ := t
        have hrest := length_lt_of_readTag htag
        simp only [step _ rest hrest]
        by_cases h3 : wireType = 3
        · simp only [h3, if_true]
        · by_cases h4 : wireType = 4
          · cases groups <;> simp only [h4, if_true]
          · simp only [h3, h4, if_false]
            cases hval : readValue wireType rest with
            | none => rfl
            | some v =>
              obtain ⟨value, rest'⟩ := v
              have hrest' := length_le_of_readValue hval
              simp only [step groups rest' (by omega)]

@[simp] theorem parse_nil : parse [] = some [] := rfl

/-- A written field is read back, and reading goes on right after it. -/
theorem parse_encode_append {f : Field} (hf : f.Valid) (rest : Bytes) :
    parse (f.encode ++ rest) = (parse rest).map (f :: ·) := by
  obtain ⟨number, value⟩ := f
  have htag : readTag (Field.encode ⟨number, value⟩ ++ rest) =
      some ((number, value.wireType), value.encode ++ rest) := by
    rw [Field.encode, List.append_assoc]
    exact readTag_tag _ hf.number_pos hf.number_lt value.wireType_lt
  have hval := readValue_encode hf.value rest
  have hne : value.wireType ≠ 3 ∧ value.wireType ≠ 4 := by
    cases value <;> simp [WireValue.wireType]
  obtain ⟨b, bs, hb⟩ : ∃ b bs, Field.encode ⟨number, value⟩ ++ rest = b :: bs := by
    cases h : Field.encode ⟨number, value⟩ ++ rest with
    | nil =>
      rw [h] at htag
      simp [readTag, readVarint] at htag
    | cons b bs => exact ⟨b, bs, rfl⟩
  have hlen : rest.length ≤ bs.length := by
    have h1 := length_lt_of_readTag htag
    have h2 : rest.length ≤ (value.encode ++ rest).length := length_le_of_readValue hval
    rw [hb, List.length_cons] at h1
    omega
  rw [hb] at htag ⊢
  simp only at hval
  simp only [parse, List.length_cons, parseAux, htag, hne, if_false, hval]
  rw [parseAux_fuel bs.length hlen]
  simp

/-- `parse` undoes `encodeFields`. -/
theorem parse_encodeFields {fs : List Field} (h : AllValid fs) :
    parse (encodeFields fs) = some fs := by
  induction fs with
  | nil => rfl
  | cons f fs ih =>
    have hfs := ih fun g hg => h g (List.mem_cons_of_mem f hg)
    have hf := h f List.mem_cons_self
    rw [encodeFields, List.flatMap_cons, parse_encode_append hf, ← encodeFields, hfs]
    rfl

/-- Reading a message back is running its merge step over the fields it wrote. -/
theorem merge_encodeFields {μ : Type} (step : μ → Field → Option μ) (init : μ) {fs : List Field}
    (h : AllValid fs) : merge step init (encodeFields fs) = fs.foldlM step init := by
  simp [merge, parse_encodeFields h]

/-! ## Truncated input -/

/-- A prefix of `xs ++ ys` ends within `xs`, or it goes on into `ys`. -/
theorem prefix_append_cases {xs ys p : Bytes} (h : p <+: xs ++ ys) :
    (p <+: xs ∧ p ≠ xs) ∨ ∃ q, p = xs ++ q ∧ q <+: ys := by
  obtain ⟨t, ht⟩ := h
  rcases List.append_eq_append_iff.1 ht with ⟨rest, hxs, -⟩ | ⟨rest, hp, hys⟩
  · rcases eq_or_ne rest [] with rfl | hne
    · rw [List.append_nil] at hxs
      exact .inr ⟨[], by rw [List.append_nil, hxs], List.nil_prefix⟩
    · refine .inl ⟨⟨rest, hxs.symm⟩, fun heq => hne ?_⟩
      rw [heq] at hxs
      exact List.append_right_eq_self.1 hxs.symm
  · exact .inr ⟨rest, hp, ⟨t, hys.symm⟩⟩

theorem takeExactly_truncated {p payload : Bytes} (hp : p <+: payload) (hne : p ≠ payload) :
    takeExactly payload.length p = none := by
  have hlt : p.length < payload.length :=
    lt_of_le_of_ne hp.length_le fun heq => hne (hp.eq_of_length heq)
  rw [takeExactly, if_neg (not_le.2 hlt)]

theorem readValue_truncated {v : WireValue} (hv : v.Valid) {p : Bytes} (hp : p <+: v.encode)
    (hne : p ≠ v.encode) : readValue v.wireType p = none := by
  cases v with
  | varint n =>
    simp only [WireValue.wireType, readValue, readVarint_truncated n 10 hp hne, Option.map_none]
  | fixed64 bytes =>
    have hlen : bytes.length = 8 := hv
    have hshort : takeExactly bytes.length p = none := takeExactly_truncated hp hne
    simp only [WireValue.wireType, readValue]
    rw [← hlen, hshort]
    rfl
  | len payload =>
    simp only [WireValue.wireType, readValue]
    rcases prefix_append_cases hp with ⟨hp, hne⟩ | ⟨q, rfl, hq⟩
    · rw [readVarint_truncated payload.length _ hp hne]
      rfl
    · have hsize : varintSize payload.length ≤ (varint payload.length ++ q).length := by
        rw [List.length_append, length_varint]
        omega
      have hqne : q ≠ payload := fun heq => hne (by rw [heq]; rfl)
      rw [readVarint_varint _ _ hsize]
      simp only [Option.bind_some]
      rw [takeExactly_truncated hq hqne]
      rfl
  | fixed32 bytes =>
    have hlen : bytes.length = 4 := hv
    have hshort : takeExactly bytes.length p = none := takeExactly_truncated hp hne
    simp only [WireValue.wireType, readValue]
    rw [← hlen, hshort]
    rfl

/-- A single field that is cut off after at least one byte cannot be read. -/
theorem parse_truncated_field {f : Field} (hf : f.Valid) {p : Bytes} (hp : p <+: f.encode)
    (hne : p ≠ f.encode) (hnonempty : p ≠ []) : parse p = none := by
  obtain ⟨number, value⟩ := f
  obtain ⟨b, bs, rfl⟩ := List.exists_cons_of_ne_nil hnonempty
  have hwire : value.wireType ≠ 3 ∧ value.wireType ≠ 4 := by
    cases value <;> simp [WireValue.wireType]
  simp only [parse, List.length_cons, parseAux]
  rcases prefix_append_cases hp with ⟨hp, hne⟩ | ⟨q, hq, hqp⟩
  · -- the cut is within the tag
    rw [readTag, readVarint_truncated _ 5 hp hne]
  · have hqne : q ≠ value.encode := fun heq => hne (by rw [hq, heq]; rfl)
    have htag : readTag (b :: bs) = some ((number, value.wireType), q) := by
      rw [hq]
      exact readTag_tag _ hf.number_pos hf.number_lt value.wireType_lt
    simp only [htag, hwire, if_false, readValue_truncated hf.value hqp hqne]

/-- A message that is cut off is not read at all, or as fewer fields when the cut is between two of
them. -/
theorem parse_truncated {fs : List Field} (h : AllValid fs) {p : Bytes}
    (hp : p <+: encodeFields fs) (hne : p ≠ encodeFields fs) :
    parse p = none ∨ ∃ gs, gs <+: fs ∧ gs ≠ fs ∧ parse p = some gs := by
  induction fs generalizing p with
  | nil => exact absurd (List.prefix_nil.1 hp) hne
  | cons f fs ih =>
    have hf := h f List.mem_cons_self
    have hfs : AllValid fs := fun g hg => h g (List.mem_cons_of_mem f hg)
    rw [encodeFields, List.flatMap_cons] at hp hne
    rcases prefix_append_cases hp with ⟨hp, hne⟩ | ⟨q, rfl, hq⟩
    · rcases eq_or_ne p [] with rfl | hnonempty
      · exact .inr ⟨[], List.nil_prefix, by simp, rfl⟩
      · exact .inl (parse_truncated_field hf hp hne hnonempty)
    · have hqne : q ≠ encodeFields fs := fun heq => hne (by rw [heq]; rfl)
      rw [parse_encode_append hf]
      rcases ih hfs hq hqne with hnone | ⟨gs, hgs, hgsne, hsome⟩
      · rw [hnone]
        exact .inl rfl
      · rw [hsome]
        refine .inr ⟨f :: gs, ?_, fun heq => hgsne (List.tail_eq_of_cons_eq heq), rfl⟩
        exact List.cons_prefix_cons.2 ⟨rfl, hgs⟩

/-! ## Fields of the writers -/

theorem allValid_uintField {number n : ℕ} (h0 : 0 < number) (h1 : number < 2 ^ 29)
    (hn : n < 2 ^ 64) : AllValid (uintField number n) := by
  intro f hf
  unfold uintField at hf
  split at hf
  · cases hf
  · rw [List.mem_singleton] at hf
    subst hf
    exact ⟨h0, h1, hn⟩

theorem allValid_intField {number : ℕ} {n : ℤ} (h0 : 0 < number) (h1 : number < 2 ^ 29) :
    AllValid (intField number n) :=
  allValid_uintField h0 h1 (by omega)

theorem allValid_bytesField {number : ℕ} {b : Bytes} (h0 : 0 < number) (h1 : number < 2 ^ 29) :
    AllValid (bytesField number b) := by
  intro f hf
  unfold bytesField at hf
  split at hf
  · cases hf
  · rw [List.mem_singleton] at hf
    subst hf
    exact ⟨h0, h1, trivial⟩

theorem allValid_messageField {number : ℕ} {b : Bytes} (h0 : 0 < number)
    (h1 : number < 2 ^ 29) : AllValid (messageField number b) := by
  intro f hf
  rw [messageField, List.mem_singleton] at hf
  subst hf
  exact ⟨h0, h1, trivial⟩

/-! ## Running a merge step over written fields -/

section Fold

variable {μ : Type} {step : μ → Field → Option μ}

/-- A scalar field sets its value; a default value is not written and must be there already. -/
theorem foldlM_uintField {number n : ℕ} {m q : μ}
    (hset : n ≠ 0 → step m ⟨number, .varint n⟩ = some q) (hdefault : n = 0 → m = q) :
    (uintField number n).foldlM step m = some q := by
  unfold uintField
  by_cases hn : n = 0
  · simp [hn, hdefault hn]
  · simp [hn, hset hn]

theorem foldlM_bytesField {number : ℕ} {b : Bytes} {m q : μ}
    (hset : step m ⟨number, .len b⟩ = some q) (hdefault : b = [] → m = q) :
    (bytesField number b).foldlM step m = some q := by
  unfold bytesField
  by_cases hb : b = []
  · simp [hb, hdefault hb]
  · simp [hb, hset]

theorem foldlM_messageField {number : ℕ} {payload : Bytes} {m q : μ}
    (hset : step m ⟨number, .len payload⟩ = some q) :
    (messageField number payload).foldlM step m = some q := by
  simp [messageField, hset]

theorem foldlM_fields_append {fs gs : List Field} {m q : μ}
    (h : fs.foldlM step m = some q) : (fs ++ gs).foldlM step m = gs.foldlM step q := by
  rw [List.foldlM_append, h]
  rfl

end Fold

/-! ## Sizes -/

/-- Size of a length-delimited field with a tag of `t` bytes and a payload of `n` bytes. -/
def framedSize (t n : ℕ) : ℕ := t + varintSize n + n

theorem framedSize_strictMono (t : ℕ) : StrictMono (framedSize t) := by
  intro m n h
  have := varintSize_mono h.le
  simp only [framedSize]
  omega

theorem length_encodeFields_append (fs gs : List Field) :
    (encodeFields (fs ++ gs)).length = (encodeFields fs).length + (encodeFields gs).length := by
  simp [encodeFields]

@[simp] theorem length_encode_messageField (number : ℕ) (payload : Bytes) :
    (encodeFields (messageField number payload)).length =
      framedSize (varintSize (tagValue number 2)) payload.length := by
  simp [encodeFields, messageField, Field.encode, WireValue.wireType, WireValue.encode, framedSize,
    Nat.add_assoc]

end Protobuf
