import FdbKafkaBridge.Cdc.Client
import FdbKafkaBridge.Cdc.KeyRange
import FdbKafkaBridge.Keys.PrefixRange

/-!
# `strinc` is the end of the prefix range

The bytes that `rstrip` takes away have no byte above them, so no key without the prefix is below
the shorter end.
-/

namespace FdbKafkaBridge

open Protobuf (Bytes)
open Interaction

instance byteLinearOrder : LinearOrder UInt8 where
  le_refl := UInt8.le_refl
  le_trans _ _ _ := UInt8.le_trans
  le_antisymm _ _ := UInt8.le_antisymm
  le_total := UInt8.le_total
  lt_iff_le_not_ge a b := by
    rw [UInt8.lt_iff_toNat_lt, UInt8.le_iff_toNat_le, UInt8.le_iff_toNat_le]
    omega
  toDecidableLE := inferInstance

theorem byte_le_ff (b : UInt8) : b ≤ 0xff := by
  rw [UInt8.le_iff_toNat_le]
  have := b.toNat_lt
  simp
  omega

theorem byte_covBy_succ {b : UInt8} (hb : b ≠ 0xff) : b ⋖ b + 1 := by
  have hlt : b.toNat < 255 := by
    have hle := UInt8.le_iff_toNat_le.1 (byte_le_ff b)
    have hne : b.toNat ≠ 255 := fun h => hb (UInt8.toNat_inj.1 h)
    simp at hle
    omega
  have hsucc : (b + 1).toNat = b.toNat + 1 := by
    rw [UInt8.toNat_add]
    simp
    omega
  constructor
  · rw [UInt8.lt_iff_toNat_lt]
    omega
  · intro c hbc hcb
    rw [UInt8.lt_iff_toNat_lt] at hbc hcb
    omega

theorem bytesLt_iff {left right : Bytes} : bytesLt left right = true ↔ left < right := by
  induction left generalizing right with
  | nil =>
    cases right with
    | nil => simp [bytesLt]
    | cons b right => simp [bytesLt]
  | cons a left ih =>
    cases right with
    | nil => simp [bytesLt]
    | cons b right => simp [bytesLt, List.cons_lt_cons_iff, ih]

/-! ## `strinc` -/

/-- A key is what `rstrip` leaves of it, and bytes that have none above them. -/
theorem rstripFF_append (key : Bytes) : ∃ n, key = rstripFF key ++ List.replicate n 0xff := by
  refine ⟨(key.rtakeWhile (· == 0xff)).length, ?_⟩
  have hall : ∀ b ∈ key.rtakeWhile (· == 0xff), b = 0xff := by
    intro b hb
    simpa using List.mem_rtakeWhile_imp hb
  rw [← List.eq_replicate_of_mem hall]
  exact List.rdropWhile_append_rtakeWhile.symm

theorem rstripFF_eq_nil {key : Bytes} : rstripFF key = [] ↔ ∀ b ∈ key, b = 0xff := by
  simp [rstripFF, List.rdropWhile_eq_nil_iff]

theorem getLast_rstripFF {key : Bytes} (h : rstripFF key ≠ []) :
    (rstripFF key).getLast h ≠ 0xff := by
  have hnot := List.rdropWhile_last_not (· == 0xff) key h
  simp only [beq_iff_eq] at hnot
  exact hnot

theorem strinc_of_nil {key : Bytes} (h : rstripFF key = []) :
    strinc key = .error (.valueError "Key must contain at least one byte not equal to 0xFF") := by
  simp [strinc, h]

/-- The key without the bytes that are stripped, and the range that ends where its last byte is one
more. -/
theorem strinc_of_ne_nil {key : Bytes} (h : rstripFF key ≠ []) :
    ∃ l a n, a ≠ 0xff ∧ key = l ++ a :: List.replicate n 0xff ∧ strinc key = .ok (l ++ [a + 1]) := by
  obtain ⟨n, hkey⟩ := rstripFF_append key
  refine ⟨(rstripFF key).dropLast, (rstripFF key).getLast h, n, getLast_rstripFF h, ?_, ?_⟩
  · have hsplit := List.dropLast_append_getLast h
    rw [List.append_cons, hsplit]
    exact hkey
  · simp [strinc, List.getLast?_eq_some_getLast h]

theorem mem_strinc_range {key upper : Bytes} (h : strinc key = .ok upper) (k : Bytes) :
    (key ≤ k ∧ k < upper) ↔ key <+: k := by
  by_cases hnil : rstripFF key = []
  · rw [strinc_of_nil hnil] at h
    cases h
  · obtain ⟨l, a, n, ha, hkey, hstrinc⟩ := strinc_of_ne_nil hnil
    rw [hstrinc] at h
    cases h
    rw [hkey]
    exact Keys.mem_range_iff byte_le_ff (byte_covBy_succ ha) n

theorem lt_strinc {key upper : Bytes} (h : strinc key = .ok upper) : key < upper :=
  ((mem_strinc_range h key).2 (List.prefix_refl key)).2

theorem strinc_eq_error {key : Bytes} :
    (∃ exc, strinc key = .error exc) ↔ key = [] ∨ ∀ b ∈ key, b = 0xff := by
  have hnil : (∃ exc, strinc key = .error exc) ↔ rstripFF key = [] := by
    constructor
    · rintro ⟨exc, h⟩
      by_contra hne
      obtain ⟨l, a, n, -, -, hstrinc⟩ := strinc_of_ne_nil hne
      rw [hstrinc] at h
      cases h
    · intro h
      exact ⟨_, strinc_of_nil h⟩
  rw [hnil, rstripFF_eq_nil]
  constructor
  · intro h
    exact .inr h
  · rintro (rfl | h)
    · simp
    · exact h

theorem lt_of_subspaceToKeyRange {subspace : Subspace} {lower upper : Bytes}
    (h : subspaceToKeyRange subspace = .ok (lower, upper)) : lower < upper := by
  have hrange : ∀ key, (strinc key >>= fun next => .ok (key, next)) = .ok (lower, upper) →
      lower < upper := by
    intro key hkey
    obtain ⟨next, hnext, hkey⟩ := bind_eq_ok.1 hkey
    cases hkey
    exact lt_strinc hnext
  cases subspace with
  | keyed key => exact hrange key h
  | bytes key => exact hrange key h
  | other typeName => cases h

/-- Nothing is raised before the first native call. -/
theorem registerCdcStream_calls {lower upper : Bytes} (h : lower < upper) (name : Bytes)
    (s : ClientState) : ∃ c k, FDBClient.registerCdcStream name lower upper s = .call c k := by
  rw [← bytesLt_iff] at h
  obtain ⟨⟨db⟩, producer⟩ := s
  unfold FDBClient.registerCdcStream
  rw [h]
  cases db with
  | false => exact ⟨_, _, rfl⟩
  | true => exact ⟨_, _, rfl⟩

/-- Only keys with prefix `key` are in the range up to `strinc key`, and all of them are. There is a
range unless no byte of the key can be raised, and none is refused when a stream is registered. -/
theorem strinc_exact (key : Bytes) :
    ((∃ b ∈ key, b ≠ 0xff) → ∃ upper, strinc key = .ok upper ∧
      (∀ k, (key ≤ k ∧ k < upper) ↔ key <+: k) ∧
      IsLeast {s | ∀ k, key <+: k → k < s} upper ∧ key < upper) ∧
    ((∃ exc, strinc key = .error exc) ↔ key = [] ∨ ∀ b ∈ key, b = 0xff) ∧
    (∀ exc, strinc key = .error exc → exc.kind = .valueError) ∧
    ∀ subspace lower upper, subspaceToKeyRange subspace = .ok (lower, upper) →
      ∀ name s tr exc s',
        (FDBClient.registerCdcStream name lower upper s).Returns tr (.error exc, s') → tr ≠ [] := by
  refine ⟨?_, strinc_eq_error, ?_, ?_⟩
  · rintro ⟨b, hb, hne⟩
    have hnil : rstripFF key ≠ [] := fun h => hne (rstripFF_eq_nil.1 h b hb)
    obtain ⟨l, a, n, -, -, hstrinc⟩ := strinc_of_ne_nil hnil
    have hrange := mem_strinc_range hstrinc
    exact ⟨_, hstrinc, hrange, Keys.isLeast_of_range hrange, lt_strinc hstrinc⟩
  · intro exc h
    by_cases hnil : rstripFF key = []
    · rw [strinc_of_nil hnil] at h
      cases h
      rfl
    · obtain ⟨l, a, n, -, -, hstrinc⟩ := strinc_of_ne_nil hnil
      rw [hstrinc] at h
      cases h
  · intro subspace lower upper h name s tr exc s' hrun htr
    obtain ⟨c, k, hcall⟩ := registerCdcStream_calls (lt_of_subspaceToKeyRange h) name s
    rw [hcall, htr] at hrun
    cases hrun

end FdbKafkaBridge
