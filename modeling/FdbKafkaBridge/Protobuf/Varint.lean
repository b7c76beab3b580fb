import Mathlib.Tactic

/-!
# Base-128 varints

The variable-length integer of the protobuf wire format: seven payload bits per byte, least
significant group first, with the high bit set on every byte but the last. `varint` writes the
canonical (shortest) form, `readVarint` reads any form of at most a given number of bytes.
-/

namespace Protobuf

/-- A byte string. -/
abbrev Bytes := List UInt8

/-- The number of bytes in the varint of `n`: one for each started group of seven bits. -/
def varintSize (n : ℕ) : ℕ := n.log2 / 7 + 1

/-- The first `k` groups of `n`, the last of them without a continuation bit once `n` is spent. -/
def varintGroups : ℕ → ℕ → Bytes
  | 0, _ => []
  | k + 1, n =>
    if n < 128 then [UInt8.ofNat n]
    else UInt8.ofNat (n % 128 + 128) :: varintGroups k (n / 128)

/-- The canonical varint of `n`. -/
def varint (n : ℕ) : Bytes := varintGroups (varintSize n) n

/-- Reads one varint of at most `k` bytes. Returns its value and the unread rest. -/
def readVarint : ℕ → Bytes → Option (ℕ × Bytes)
  | 0, _ => none
  | _ + 1, [] => none
  | k + 1, b :: bs =>
    if b.toNat < 128 then some (b.toNat, bs)
    else (readVarint k bs).map fun r => (b.toNat - 128 + 128 * r.1, r.2)

/-! ## The canonical form -/

theorem varintSize_of_lt {n : ℕ} (h : n < 128) : varintSize n = 1 := by
  have : n.log2 < 7 := by
    rcases Nat.eq_zero_or_pos n with rfl | hn
    · decide
    · exact (Nat.log2_lt hn.ne').2 h
  simp [varintSize, Nat.div_eq_of_lt this]

theorem varintSize_div {n : ℕ} (h : 128 ≤ n) : varintSize n = varintSize (n / 128) + 1 := by
  have hlog : n.log2 = (n / 128).log2 + 7 := by
    have hle : 7 ≤ n.log2 := (Nat.le_log2 (by omega)).2 h
    have hdiv : (n / 128).log2 = n.log2 - 7 := by
      rw [Nat.log2_eq_log_two, Nat.log2_eq_log_two]
      exact Nat.log_div_base_pow 2 n 7
    omega
  simp only [varintSize, hlog]
  omega

theorem varint_of_lt {n : ℕ} (h : n < 128) : varint n = [UInt8.ofNat n] := by
  simp [varint, varintSize_of_lt h, varintGroups, h]

theorem varint_of_ge {n : ℕ} (h : 128 ≤ n) :
    varint n = UInt8.ofNat (n % 128 + 128) :: varint (n / 128) := by
  have hn : ¬ n < 128 := by omega
  simp [varint, varintSize_div h, varintGroups, hn]

/-- Induction along the groups of a varint: from `n / 128` to `n`. -/
theorem varint_induction {P : ℕ → Prop} (last : ∀ n, n < 128 → P n)
    (more : ∀ n, 128 ≤ n → P (n / 128) → P n) (n : ℕ) : P n := by
  induction n using Nat.strong_induction_on with
  | h n ih =>
    by_cases h : n < 128
    · exact last n h
    · exact more n (by omega) (ih (n / 128) (by omega))

@[simp] theorem length_varint (n : ℕ) : (varint n).length = varintSize n := by
  induction n using varint_induction with
  | last n h => simp [varint_of_lt h, varintSize_of_lt h]
  | more n h ih => simp [varint_of_ge h, varintSize_div h, ih]

theorem varintSize_pos (n : ℕ) : 0 < varintSize n := by simp [varintSize]

theorem varint_ne_nil (n : ℕ) : varint n ≠ [] := by
  have := varintSize_pos n
  rw [← length_varint] at this
  exact List.ne_nil_of_length_pos this

/-- Larger numbers never have shorter varints. -/
theorem varintSize_mono {m n : ℕ} (h : m ≤ n) : varintSize m ≤ varintSize n := by
  have hlog : m.log2 ≤ n.log2 := by
    rw [Nat.log2_eq_log_two, Nat.log2_eq_log_two]
    exact Nat.log_mono_right h
  have := Nat.div_le_div_right (c := 7) hlog
  simpa [varintSize] using this

theorem varintSize_le_ten {n : ℕ} (h : n < 2 ^ 64) : varintSize n ≤ 10 := by
  have hlog : n.log2 < 64 := by
    rcases Nat.eq_zero_or_pos n with rfl | hn
    · decide
    · exact (Nat.log2_lt hn.ne').2 h
  simp only [varintSize]
  omega

/-! ## Reading back -/

theorem toNat_ofNat_of_lt {n : ℕ} (h : n < 256) : (UInt8.ofNat n).toNat = n := by
  simpa using h

/-- A reader that allows the canonical length reads the number back and stops right after it. -/
theorem readVarint_varint (n : ℕ) (rest : Bytes) :
    ∀ {k : ℕ}, varintSize n ≤ k → readVarint k (varint n ++ rest) = some (n, rest) := by
  induction n using varint_induction with
  | last n h =>
    intro k hk
    rw [varintSize_of_lt h] at hk
    obtain ⟨k, rfl⟩ : ∃ j, k = j + 1 := ⟨k - 1, by omega⟩
    simp [varint_of_lt h, readVarint, Nat.mod_eq_of_lt (show n < 256 by omega), h]
  | more n h ih =>
    intro k hk
    rw [varintSize_div h] at hk
    obtain ⟨k, rfl⟩ : ∃ j, k = j + 1 := ⟨k - 1, by omega⟩
    have hb : (UInt8.ofNat (n % 128 + 128)).toNat = n % 128 + 128 := toNat_ofNat_of_lt (by omega)
    have hval : n % 128 + 128 * (n / 128) = n := Nat.mod_add_div n 128
    rw [varint_of_ge h, List.cons_append, readVarint, hb, if_neg (by omega), ih (by omega)]
    simp [hval]

/-- A varint that is cut off cannot be read. -/
theorem readVarint_truncated (n : ℕ) :
    ∀ {p : Bytes} (k : ℕ), p <+: varint n → p ≠ varint n → readVarint k p = none := by
  induction n using varint_induction with
  | last n h =>
    intro p k hp hne
    rw [varint_of_lt h] at hp hne
    rcases List.prefix_cons_iff.1 hp with rfl | ⟨q, rfl, hq⟩
    · cases k <;> rfl
    · rw [List.prefix_nil.1 hq] at hne
      exact absurd rfl hne
  | more n h ih =>
    intro p k hp hne
    rw [varint_of_ge h] at hp hne
    rcases List.prefix_cons_iff.1 hp with rfl | ⟨q, rfl, hq⟩
    · cases k <;> rfl
    · have hb : (UInt8.ofNat (n % 128 + 128)).toNat = n % 128 + 128 :=
        toNat_ofNat_of_lt (by omega)
      cases k with
      | zero => rfl
      | succ k =>
        rw [readVarint, hb, if_neg (by omega), ih k hq (fun heq => hne (by rw [heq]))]
        rfl

/-- A reader only looks at the bytes it consumes. -/
theorem readVarint_append {k : ℕ} {bs rest : Bytes} {r : ℕ × Bytes} (h : readVarint k bs = some r) :
    readVarint k (bs ++ rest) = some (r.1, r.2 ++ rest) := by
  induction k generalizing bs r with
  | zero => simp [readVarint] at h
  | succ k ih =>
    cases bs with
    | nil => simp [readVarint] at h
    | cons b bs =>
      simp only [readVarint, List.cons_append] at h ⊢
      split
      · rename_i hb
        rw [if_pos hb, Option.some.injEq] at h
        simp [← h]
      · rename_i hb
        rw [if_neg hb, Option.map_eq_some_iff] at h
        obtain ⟨r', hr', rfl⟩ := h
        simp [ih hr']

/-- Reading consumes at least one byte. -/
theorem length_lt_of_readVarint {k : ℕ} {bs : Bytes} {r : ℕ × Bytes} (h : readVarint k bs = some r) :
    r.2.length < bs.length := by
  induction k generalizing bs r with
  | zero => simp [readVarint] at h
  | succ k ih =>
    cases bs with
    | nil => simp [readVarint] at h
    | cons b bs =>
      simp only [readVarint] at h
      split at h
      · rw [Option.some.injEq] at h
        simp [← h]
      · rw [Option.map_eq_some_iff] at h
        obtain ⟨r', hr', rfl⟩ := h
        have := ih hr'
        simp only [List.length_cons]
        omega

end Protobuf
