import FdbKafkaBridge.Demo.Output
import Mathlib.Data.Nat.Digits.Lemmas

/-!
# The index in a workload key

The key of an operation below 10 ^ 8 has its index in eight digits, and these are what the regular
expression finds, since no byte of a tag is a digit. What it finds is always below 10 ^ 8.
-/

namespace FdbKafkaBridge.Demo

open Protobuf (Bytes)
open Serialization

/-! ## Digits -/

theorem toNat_digitByte {d : ℕ} (h : d < 10) : (digitByte d).toNat = 48 + d := by
  rw [digitByte, UInt8.toNat_ofNat']
  omega

theorem isDigit_digitByte {d : ℕ} (h : d < 10) : isDigit (digitByte d) = true := by
  have hnat := toNat_digitByte h
  simp only [isDigit, Bool.and_eq_true, decide_eq_true_eq, UInt8.le_iff_toNat_le, hnat]
  simp
  omega

theorem digitsValue_concat (digits : Bytes) (b : UInt8) :
    digitsValue (digits ++ [b]) = 10 * digitsValue digits + (b.toNat - 48) := by
  simp [digitsValue]

theorem digitsValue_lt {digits : Bytes} (h : digits.all isDigit = true) :
    digitsValue digits < 10 ^ digits.length := by
  induction digits using List.reverseRecOn with
  | nil => simp [digitsValue]
  | append_singleton digits b ih =>
    rw [List.all_append, Bool.and_eq_true] at h
    have hvalue := ih h.1
    have hdigit : b.toNat ≤ 57 := by
      have hb := h.2
      simp only [List.all_cons, List.all_nil, Bool.and_true, isDigit, Bool.and_eq_true,
        decide_eq_true_eq, UInt8.le_iff_toNat_le] at hb
      simpa using hb.2
    rw [digitsValue_concat, List.length_append, List.length_singleton, pow_succ]
    omega

theorem digitsValue_replicate (n : ℕ) (digits : Bytes) :
    digitsValue (List.replicate n (digitByte 0) ++ digits) = digitsValue digits := by
  induction n with
  | zero => rfl
  | succ n ih =>
    rw [← ih]
    rfl

theorem digitsValue_map_digitByte {ds : List ℕ} (h : ∀ d ∈ ds, d < 10) :
    digitsValue (ds.reverse.map digitByte) = Nat.ofDigits 10 ds := by
  induction ds with
  | nil => rfl
  | cons d ds ih =>
    have hd := toNat_digitByte (h d List.mem_cons_self)
    have hds := ih fun d' hd' => h d' (List.mem_cons_of_mem _ hd')
    rw [List.reverse_cons, List.map_append, List.map_singleton, digitsValue_concat, hds, hd,
      Nat.ofDigits_cons]
    omega

theorem digitsValue_decimal (n : ℕ) : digitsValue (decimal n) = n := by
  unfold decimal
  split
  · rename_i h
    rw [h]
    decide
  · rw [digitsValue_map_digitByte fun d hd => Nat.digits_lt_base (by omega) hd,
      Nat.ofDigits_digits]

theorem all_isDigit_decimal (n : ℕ) : (decimal n).all isDigit = true := by
  unfold decimal
  split
  · decide
  · rw [List.all_eq_true]
    intro b hb
    obtain ⟨d, hd, rfl⟩ := List.mem_map.1 hb
    exact isDigit_digitByte (Nat.digits_lt_base (by omega) (List.mem_reverse.1 hd))

theorem length_decimal_le {n : ℕ} (h : n < 10 ^ 8) : (decimal n).length ≤ 8 := by
  unfold decimal
  split
  · simp
  · rw [List.length_map, List.length_reverse]
    exact (Nat.digits_length_le_iff (by omega) n).2 h

/-! ## The padded index -/

theorem length_paddedIndex {index : ℕ} (h : index < 10 ^ 8) : (paddedIndex index).length = 8 := by
  have hle := length_decimal_le h
  rw [paddedIndex, List.length_append, List.length_replicate]
  omega

theorem all_isDigit_paddedIndex (index : ℕ) : (paddedIndex index).all isDigit = true := by
  rw [paddedIndex, List.all_append, all_isDigit_decimal, Bool.and_true, List.all_eq_true]
  intro b hb
  rw [List.eq_of_mem_replicate hb]
  decide

theorem eightDigits_paddedIndex {index : ℕ} (h : index < 10 ^ 8) (rest : Bytes) :
    eightDigits (paddedIndex index ++ rest) = some index := by
  have htake : (paddedIndex index ++ rest).take 8 = paddedIndex index :=
    List.take_left' (length_paddedIndex h)
  rw [eightDigits, htake, if_pos ⟨length_paddedIndex h, all_isDigit_paddedIndex index⟩, paddedIndex,
    digitsValue_replicate, digitsValue_decimal]

theorem eightDigits_lt {key : Bytes} {index : ℕ} (h : eightDigits key = some index) :
    index < 10 ^ 8 := by
  unfold eightDigits at h
  simp only at h
  split at h
  · rename_i hdigits
    have hlt := digitsValue_lt hdigits.2
    rw [hdigits.1] at hlt
    rwa [← Option.some.inj h]
  · cases h

theorem matchIndex_lt {key : Bytes} {index : ℕ} (h : matchIndex key = some index) :
    index < 10 ^ 8 := by
  induction key with
  | nil => cases h
  | cons b rest ih =>
    unfold matchIndex at h
    split at h
    · split at h
      · rename_i hdigits
        cases h
        exact eightDigits_lt hdigits
      · exact ih h
    · cases h

theorem indexInKey_lt {keyPrefix key : Bytes} {index : ℕ}
    (h : indexInKey keyPrefix key = some index) : index < 10 ^ 8 := by
  unfold indexInKey at h
  split at h
  · exact matchIndex_lt h
  · cases h

/-! ## Workload keys -/

theorem not_isDigit_of_isTagByte {b : UInt8} (h : isTagByte b = true) : isDigit b = false := by
  simp only [isTagByte, Bool.or_eq_true, Bool.and_eq_true, decide_eq_true_eq,
    UInt8.le_iff_toNat_le] at h
  have hlarge : 57 < b.toNat := by
    rcases h with ⟨hlower, -⟩ | rfl
    · simp at hlower
      omega
    · decide
  simp only [isDigit, Bool.and_eq_false_iff, decide_eq_false_iff_not, UInt8.le_iff_toNat_le]
  simp
  omega

/-- A tag of a workload key. -/
def IsTag (tag : Bytes) : Prop := tag ≠ [] ∧ tag.all isTagByte = true

instance (tag : Bytes) : Decidable (IsTag tag) :=
  inferInstanceAs (Decidable (tag ≠ [] ∧ tag.all isTagByte = true))

theorem matchIndex_tag {tag : Bytes} (htag : IsTag tag) {index : ℕ} (h : index < 10 ^ 8)
    (rest : Bytes) : matchIndex (tag ++ paddedIndex index ++ rest) = some index := by
  obtain ⟨hne, hall⟩ := htag
  induction tag with
  | nil => exact absurd rfl hne
  | cons b tag ih =>
    rw [List.all_cons, Bool.and_eq_true] at hall
    rw [List.cons_append, List.cons_append, matchIndex, if_pos hall.1]
    cases tag with
    | nil => rw [List.nil_append, eightDigits_paddedIndex h]
    | cons b' tag =>
      have hdigits : eightDigits (b' :: tag ++ paddedIndex index ++ rest) = none := by
        have hb' : isTagByte b' = true := by
          have htail := hall.2
          rw [List.all_cons, Bool.and_eq_true] at htail
          exact htail.1
        unfold eightDigits
        simp [not_isDigit_of_isTagByte hb']
      rw [hdigits]
      exact ih (List.cons_ne_nil b' tag) hall.2

theorem indexInKey_tag (keyPrefix : Bytes) {tag : Bytes} (htag : IsTag tag) {index : ℕ}
    (h : index < 10 ^ 8) (rest : Bytes) :
    indexInKey keyPrefix (keyPrefix ++ tag ++ paddedIndex index ++ rest) = some index := by
  have hsplit : keyPrefix ++ tag ++ paddedIndex index ++ rest =
      keyPrefix ++ (tag ++ paddedIndex index ++ rest) := by simp
  have hprefix : keyPrefix.isPrefixOf (keyPrefix ++ (tag ++ paddedIndex index ++ rest)) = true :=
    List.isPrefixOf_iff_prefix.2 (List.prefix_append _ _)
  rw [hsplit, indexInKey, if_pos hprefix, List.drop_left, matchIndex_tag htag h]

theorem atomicOperation_isTag (index mod : ℕ) : IsTag (atomicOperation index mod).2.1 := by
  have htags : ∀ tag ∈ ["add_", "and_", "or_", "xor_", "app_", "max_", "min_", "bmin_", "bmax_"],
      IsTag (ascii tag) := by
    decide
  unfold atomicOperation
  split <;> exact htags _ (by simp)

/-- The key of an operation, and the stamp after it if its key is stamped. -/
structure HasKey (keyPrefix : Bytes) (index : ℕ) (tag rest : Bytes) : Prop where
  isTag : IsTag tag
  param1 : (expectedMutation keyPrefix index).param1 =
    keyPrefix ++ tag ++ paddedIndex index ++ rest
  stamp : ∀ offset, (expectedMutation keyPrefix index).stamp = some (.param1, offset) →
    offset = (keyPrefix ++ tag ++ paddedIndex index).length

theorem expectedMutation_hasKey (keyPrefix : Bytes) (index : ℕ) :
    ∃ tag rest, HasKey keyPrefix index tag rest := by
  generalize he : expectedMutation keyPrefix index = e
  have hkey : ∀ tag rest, IsTag tag → e.param1 = keyPrefix ++ tag ++ paddedIndex index ++ rest →
      (∀ offset, e.stamp = some (.param1, offset) →
        offset = (keyPrefix ++ tag ++ paddedIndex index).length) →
      ∃ tag rest, HasKey keyPrefix index tag rest := by
    intro tag rest htag hparam1 hstamp
    rw [← he] at hparam1 hstamp
    exact ⟨tag, rest, htag, hparam1, hstamp⟩
  unfold expectedMutation at he
  simp only at he
  split at he
  · subst he
    exact hkey (ascii "set_") [] (by decide) (by simp) (by simp)
  · subst he
    exact hkey (ascii "clr_") (ascii "/a") (by decide) rfl (by simp)
  · subst he
    exact hkey (ascii "vsk_") (List.replicate versionstampLen 0) (by decide) rfl (by simp)
  · subst he
    exact hkey (ascii "vsv_") [] (by decide) (by simp) (by simp)
  · subst he
    exact hkey (ascii "set_b_") [] (by decide) (by simp) (by simp)
  · subst he
    exact hkey (atomicOperation index (index % 14)).2.1 [] (atomicOperation_isTag index _) (by simp)
      (by simp)

/-- The key of a mutation that is as expected has the key of the operation at its start. -/
theorem indexInKey_of_isExpected {keyPrefix : Bytes} {index : ℕ} {m : FDBMutation}
    (h : IsExpected keyPrefix index m) (hlt : index < 10 ^ 8) :
    indexInKey keyPrefix (nativeOf m).2.1 = some index := by
  obtain ⟨tag, rest, htag, hparam1, hstamp⟩ := expectedMutation_hasKey keyPrefix index
  have hkey : ∃ rest', (nativeOf m).2.1 = keyPrefix ++ tag ++ paddedIndex index ++ rest' := by
    unfold IsExpected ExpectedMutation.matches at h
    split at h
    · cases h
    · cases hs : (expectedMutation keyPrefix index).stamp with
      | none =>
        rw [hs] at h
        simp only [Bool.and_eq_true, decide_eq_true_eq] at h
        exact ⟨rest, h.1.trans hparam1⟩
      | some stamp =>
        obtain ⟨param, offset⟩ := stamp
        rw [hs] at h
        cases param with
        | param1 =>
          -- the bytes before the stamp are those of the key
          simp only [stampMatches, Bool.and_eq_true, decide_eq_true_eq] at h
          have htake := h.1.1.2
          rw [hparam1, hstamp offset hs, List.take_left] at htake
          have hsplit := List.take_append_drop (keyPrefix ++ tag ++ paddedIndex index).length
            (nativeOf m).2.1
          rw [htake] at hsplit
          exact ⟨_, hsplit.symm⟩
        | param2 =>
          simp only [Bool.and_eq_true, decide_eq_true_eq] at h
          exact ⟨rest, h.2.trans hparam1⟩
  obtain ⟨rest', hrest'⟩ := hkey
  rw [hrest']
  exact indexInKey_tag keyPrefix htag hlt rest'

end FdbKafkaBridge.Demo
