import FdbKafkaBridge.Serialization.Checks

/-!
# What the input checks let through

Each check returns the value it was given exactly when that value is in range. `Represents` names
the native mutations that pass.
-/

namespace FdbKafkaBridge.Serialization

open Protobuf (Bytes)

/-- A valid pair of stream name and timestamp, with the characters of the name. -/
structure Envelope where
  streamName : PyStr
  name : List Char
  timestampNs : ℕ
  nonempty : streamName ≠ []
  chars : streamName.chars? = some name
  timestampNs_le : timestampNs ≤ maxBridgeTimestampNs

theorem Envelope.streamName_eq (e : Envelope) : e.streamName = PyStr.ofChars e.name :=
  PyStr.eq_ofChars e.chars

namespace Checks

theorem integer_ok {v : ℤ} {maximum : ℕ} (field : String) (index : Option ℕ) (h0 : 0 ≤ v)
    (h : v ≤ maximum) : integer (.int v) field (some maximum) 0 index = .ok v := by
  have hrange : ¬ (v < 0 ∨ ((some maximum).any fun m => decide (v > (m : ℤ))) = true) := by
    rintro (hneg | hbig)
    · omega
    · have hgt : v > maximum := by simpa [Option.any] using hbig
      omega
  simp only [integer]
  rw [if_neg hrange]

/-- A check that returns was given an `int` in range, and returns it. -/
theorem of_integer_ok {value : PyVal} {field : String} {maximum : ℕ} {index : Option ℕ} {v : ℤ}
    (h : integer value field (some maximum) 0 index = .ok v) :
    value = .int v ∧ 0 ≤ v ∧ v ≤ maximum := by
  cases value with
  | int w =>
    simp only [integer] at h
    split at h
    · cases h
    · rename_i hrange
      cases h
      have hle : ¬ v > maximum := by simpa [Option.any] using (not_or.1 hrange).2
      exact ⟨rfl, by omega, by omega⟩
  | _ => cases h

theorem fdbVersion_ok {v : ℕ} (h : v ≤ maxVersion) : fdbVersion (.int v) = .ok v := by
  rw [fdbVersion, integer_ok _ _ (by omega) (by exact_mod_cast h)]
  rfl

theorem sequenceNo_ok {v : ℕ} (field : String) (h : v ≤ maxSequenceNo) :
    sequenceNo (.int v) field = .ok v := by
  rw [sequenceNo, integer_ok _ _ (by omega) (by exact_mod_cast h)]
  rfl

theorem assignedSequenceNo_ok {v : ℕ} (index : ℕ) (h : v ≤ maxSequenceNo) :
    assignedSequenceNo v index = .ok v := by
  rw [assignedSequenceNo, integer_ok _ _ (by omega) (by exact_mod_cast h)]
  rfl

theorem totalMutations_ok {v : ℕ} (h : v ≤ maxTotalMutations) :
    totalMutations (.int v) = .ok v := by
  rw [totalMutations, integer_ok _ _ (by omega) (by exact_mod_cast h)]
  rfl

theorem bridgeTimestampNs_ok {v : ℕ} (h : v ≤ maxBridgeTimestampNs) :
    bridgeTimestampNs (.int v) = .ok v := by
  rw [bridgeTimestampNs, integer_ok _ _ (by omega) (by exact_mod_cast h)]
  rfl

theorem of_fdbVersion_ok {value : PyVal} {v : ℕ} (h : fdbVersion value = .ok v) :
    value = .int v ∧ v ≤ maxVersion := by
  obtain ⟨w, hw, rfl⟩ := map_eq_ok.1 h
  obtain ⟨rfl, h0, hle⟩ := of_integer_ok hw
  exact ⟨by rw [Int.toNat_of_nonneg h0], by omega⟩

theorem of_assignedSequenceNo_ok {v index r : ℕ} (h : assignedSequenceNo v index = .ok r) :
    v ≤ maxSequenceNo := by
  obtain ⟨w, hw, -⟩ := map_eq_ok.1 h
  obtain ⟨hv, -, hle⟩ := of_integer_ok hw
  cases hv
  exact_mod_cast hle

theorem isInputAt_of_assignedSequenceNo_error {v i : ℕ} {e : SerializationError}
    (h : assignedSequenceNo v i = .error e) : e.IsInputAt i := by
  have hinteger := map_eq_error.1 h
  simp only [integer] at hinteger
  split at hinteger
  · cases hinteger
    exact ⟨_, _, .inr rfl⟩
  · cases hinteger

theorem of_totalMutations_ok {v n : ℕ} (h : totalMutations (.int v) = .ok n) :
    n = v ∧ v ≤ maxTotalMutations := by
  obtain ⟨w, hw, rfl⟩ := map_eq_ok.1 h
  obtain ⟨hv, -, hle⟩ := of_integer_ok hw
  cases hv
  exact ⟨rfl, by exact_mod_cast hle⟩

theorem of_bridgeTimestampNs_ok {value : PyVal} {v : ℕ} (h : bridgeTimestampNs value = .ok v) :
    value = .int v ∧ v ≤ maxBridgeTimestampNs := by
  obtain ⟨w, hw, rfl⟩ := map_eq_ok.1 h
  obtain ⟨rfl, h0, hle⟩ := of_integer_ok hw
  exact ⟨by rw [Int.toNat_of_nonneg h0], by omega⟩

/-- A budget has a lower bound only. -/
theorem of_maxRecordBytes_ok {value : PyVal} {b : ℤ} (h : maxRecordBytes value = .ok b) :
    value = .int b := by
  cases value with
  | int w =>
    simp only [maxRecordBytes, integer] at h
    split at h
    · cases h
    · cases h
      rfl
  | _ => cases h

/-- The names that pass: not empty, and without lone surrogates. -/
theorem streamName_ok {s : PyStr} {name : List Char} (hne : s ≠ []) (h : s.chars? = some name) :
    streamName (.str s) = .ok name := by
  have hempty : s.isEmpty = false := by simpa using hne
  simp [streamName, hempty, h]

theorem of_streamName_ok {value : PyVal} {name : List Char} (h : streamName value = .ok name) :
    ∃ s, value = .str s ∧ s ≠ [] ∧ s.chars? = some name := by
  cases value with
  | str s =>
    cases s with
    | nil => cases h
    | cons c s =>
      cases hchars : PyStr.chars? (c :: s) with
      | none => simp [streamName, hchars] at h
      | some cs =>
        simp only [streamName, List.isEmpty_cons, hchars] at h
        cases h
        exact ⟨c :: s, rfl, List.cons_ne_nil c s, hchars⟩
  | _ => cases h

theorem envelope_ok (e : Envelope) :
    envelope (.str e.streamName) (.int e.timestampNs) = .ok (e.name, e.timestampNs) := by
  rw [envelope, streamName_ok e.nonempty e.chars]
  show (bridgeTimestampNs (.int e.timestampNs)).bind _ = _
  rw [bridgeTimestampNs_ok e.timestampNs_le]
  rfl

theorem of_envelope_ok {streamName timestamp : PyVal} {r : List Char × ℕ}
    (h : envelope streamName timestamp = .ok r) :
    ∃ e : Envelope, streamName = .str e.streamName ∧ timestamp = .int e.timestampNs ∧
      r = (e.name, e.timestampNs) := by
  obtain ⟨name, hname, h⟩ := bind_eq_ok.1 h
  obtain ⟨ts, hts, h⟩ := bind_eq_ok.1 h
  cases h
  obtain ⟨s, hs, hne, hchars⟩ := of_streamName_ok hname
  obtain ⟨htimestamp, hle⟩ := of_bridgeTimestampNs_ok hts
  exact ⟨⟨s, name, ts, hne, hchars, hle⟩, hs, htimestamp, rfl⟩

/-! ## Native mutations -/

theorem native_ok {p : PyMutation} {m : NativeMutation} (h : p.Represents m) (index : Option ℕ) :
    native p index = .ok m.parts := by
  have hrange : (0 : ℤ) ≤ m.type.val ∧ (m.type.val : ℤ) ≤ maxTypeCode := by
    have hlt := m.type.isLt
    simp only [maxTypeCode]
    omega
  have hcode : typeCodeRange m.type.val index = .ok m.type.val := by
    rw [typeCodeRange, if_pos hrange]
    rfl
  simp only [native, getAttribute, h.param1, h.param2]
  obtain hint | ⟨name, hsub⟩ := h.type
  · simp only [hint]
    show (typeCodeRange m.type.val index).bind _ = _
    rw [hcode]
    rfl
  · simp only [hsub]
    show (typeCodeRange m.type.val index).bind _ = _
    rw [hcode]
    rfl

theorem of_typeCodeRange_ok {v : ℤ} {index : Option ℕ} {code : ℕ}
    (h : typeCodeRange v index = .ok code) : ∃ type : Fin 256, v = type.val ∧ code = type.val := by
  unfold typeCodeRange at h
  split at h
  · rename_i hrange
    cases h
    simp only [maxTypeCode] at hrange
    exact ⟨⟨v.toNat, by omega⟩, by simp only; omega, rfl⟩
  · cases h

theorem of_typeCode_ok {value : PyVal} {index : Option ℕ} {code : ℕ}
    (h : typeCode value index = .ok code) : ∃ type : Fin 256, code = type.val ∧
      (value = .int type.val ∨ ∃ name, value = .intSubclass name type.val) := by
  cases value with
  | int v =>
    obtain ⟨type, rfl, rfl⟩ := of_typeCodeRange_ok h
    exact ⟨type, rfl, .inl rfl⟩
  | intSubclass name v =>
    obtain ⟨type, rfl, rfl⟩ := of_typeCodeRange_ok h
    exact ⟨type, rfl, .inr ⟨name, rfl⟩⟩
  | _ => cases h

theorem isInputAt_of_typeCode_error {value : PyVal} {i : ℕ} {e : SerializationError}
    (h : typeCode value (some i) = .error e) : e.IsInputAt i := by
  have hrange : ∀ v : ℤ, typeCodeRange v (some i) = .error e → e.IsInputAt i := by
    intro v h
    unfold typeCodeRange at h
    split at h
    · cases h
    · cases h
      exact ⟨_, _, .inr rfl⟩
  cases value with
  | int v => exact hrange v h
  | intSubclass name v => exact hrange v h
  | _ =>
    cases h
    exact ⟨_, _, .inl rfl⟩

theorem of_param_ok {value : PyVal} {field : String} {index : Option ℕ} {b : Bytes}
    (h : param value field index = .ok b) : value = .bytes b := by
  cases value with
  | bytes c =>
    cases h
    rfl
  | _ => cases h

theorem of_getAttribute_ok {p : PyMutation} {stored : Option PyVal} {field : String}
    {index : Option ℕ} {value : PyVal} (h : getAttribute p stored field index = .ok value) :
    stored = some value := by
  cases stored with
  | none => cases h
  | some v =>
    cases h
    rfl

/-- Only native mutations pass. -/
theorem of_native_ok {p : PyMutation} {index : Option ℕ} {parts : ℕ × Bytes × Bytes}
    (h : native p index = .ok parts) : ∃ m, p.Represents m ∧ parts = m.parts := by
  obtain ⟨typeValue, htype, h⟩ := bind_eq_ok.1 h
  obtain ⟨code, hcode, h⟩ := bind_eq_ok.1 h
  obtain ⟨value1, hvalue1, h⟩ := bind_eq_ok.1 h
  obtain ⟨param1, hparam1, h⟩ := bind_eq_ok.1 h
  obtain ⟨value2, hvalue2, h⟩ := bind_eq_ok.1 h
  obtain ⟨param2, hparam2, h⟩ := bind_eq_ok.1 h
  cases h
  obtain ⟨type, rfl, hvalue⟩ := of_typeCode_ok hcode
  obtain rfl := of_param_ok hparam1
  obtain rfl := of_param_ok hparam2
  refine ⟨⟨type, param1, param2⟩, ⟨?_, ?_, ?_⟩, rfl⟩
  · rw [of_getAttribute_ok htype]
    exact hvalue.imp (fun h => by rw [h]) fun ⟨name, h⟩ => ⟨name, by rw [h]⟩
  · exact of_getAttribute_ok hvalue1
  · exact of_getAttribute_ok hvalue2

/-- Whatever fails in an element is reported at its position. -/
theorem isInputAt_of_native_error {p : PyMutation} {i : ℕ} {e : SerializationError}
    (h : native p (some i) = .error e) : e.IsInputAt i := by
  have hattribute : ∀ {stored : Option PyVal} {field : String} {e : SerializationError},
      getAttribute p stored field (some i) = .error e → e.IsInputAt i := by
    intro stored field e h
    cases stored with
    | none =>
      cases h
      exact ⟨_, _, .inl rfl⟩
    | some v => cases h
  have hparam : ∀ {value : PyVal} {field : String} {e : SerializationError},
      param value field (some i) = .error e → e.IsInputAt i := by
    intro value field e h
    cases value with
    | bytes b => cases h
    | _ =>
      cases h
      exact ⟨_, _, .inl rfl⟩
  rcases bind_eq_error.1 h with h | ⟨typeValue, -, h⟩
  · exact hattribute h
  rcases bind_eq_error.1 h with h | ⟨code, -, h⟩
  · exact isInputAt_of_typeCode_error h
  rcases bind_eq_error.1 h with h | ⟨value1, -, h⟩
  · exact hattribute h
  rcases bind_eq_error.1 h with h | ⟨param1, -, h⟩
  · exact hparam h
  rcases bind_eq_error.1 h with h | ⟨value2, -, h⟩
  · exact hattribute h
  rcases bind_eq_error.1 h with h | ⟨param2, -, h⟩
  · exact hparam h
  cases h

/-- Every native mutation passes as long as the position it is assigned does. -/
theorem nativesFrom_ok {ps : List PyMutation} {ms : List NativeMutation}
    (h : List.Forall₂ PyMutation.Represents ps ms) {first : ℕ} :
    ∀ {index : ℕ}, first + index + ms.length ≤ maxSequenceNo + 1 →
      nativesFrom first index ps = .ok (ms.map NativeMutation.parts) := by
  induction h with
  | nil => exact fun _ => rfl
  | @cons p m ps ms hp _ ih =>
    intro index hlen
    rw [List.length_cons] at hlen
    rw [nativesFrom, assignedSequenceNo_ok index (by omega), native_ok hp, ih (by omega)]
    rfl

theorem natives_ok {ps : List PyMutation} {ms : List NativeMutation}
    (h : List.Forall₂ PyMutation.Represents ps ms) {first : ℕ}
    (hlen : first + ms.length ≤ maxSequenceNo + 1) :
    natives (.items ps) first = .ok (ms.map NativeMutation.parts) :=
  nativesFrom_ok h (by simpa using hlen)

/-- Conversely the positions of an accepted list are all in range. -/
theorem length_le_of_nativesFrom_ok {first : ℕ} {ps : List PyMutation} :
    ∀ {index : ℕ} {ns : List (ℕ × Bytes × Bytes)}, nativesFrom first index ps = .ok ns →
      ps ≠ [] → first + index + ps.length ≤ maxSequenceNo + 1 := by
  induction ps with
  | nil => exact fun _ hne => absurd rfl hne
  | cons p ps ih =>
    intro index ns h _
    obtain ⟨position, hposition, h⟩ := bind_eq_ok.1 h
    obtain ⟨checked, -, h⟩ := bind_eq_ok.1 h
    obtain ⟨others, hothers, -⟩ := bind_eq_ok.1 h
    have hle := of_assignedSequenceNo_ok hposition
    rcases eq_or_ne ps [] with rfl | hne
    · simpa using hle
    · have hlength := ih hothers hne
      rw [List.length_cons]
      omega

/-- An accepted iterable consists of native mutations, and their parts are what is returned. -/
theorem of_nativesFrom_ok {first : ℕ} {ps : List PyMutation} :
    ∀ {index : ℕ} {ns : List (ℕ × Bytes × Bytes)}, nativesFrom first index ps = .ok ns →
      ∃ ms, List.Forall₂ PyMutation.Represents ps ms ∧ ns = ms.map NativeMutation.parts := by
  induction ps with
  | nil =>
    intro index ns h
    cases h
    exact ⟨[], .nil, rfl⟩
  | cons p ps ih =>
    intro index ns h
    obtain ⟨position, -, h⟩ := bind_eq_ok.1 h
    obtain ⟨checked, hchecked, h⟩ := bind_eq_ok.1 h
    obtain ⟨others, hothers, h⟩ := bind_eq_ok.1 h
    cases h
    obtain ⟨m, hm, rfl⟩ := of_native_ok hchecked
    obtain ⟨ms, hms, rfl⟩ := ih hothers
    exact ⟨m :: ms, .cons hm hms, rfl⟩

theorem of_natives_ok {value : PyIterable} {first : ℕ} {ns : List (ℕ × Bytes × Bytes)}
    (h : natives value first = .ok ns) : ∃ ps ms, value = .items ps ∧
      List.Forall₂ PyMutation.Represents ps ms ∧ ns = ms.map NativeMutation.parts := by
  obtain ⟨ps, hps, h⟩ := bind_eq_ok.1 h
  cases value with
  | items elements =>
    cases hps
    obtain ⟨ms, hms, hns⟩ := of_nativesFrom_ok h
    exact ⟨ps, ms, rfl, hms, hns⟩
  | notIterable typeName => cases hps

theorem length_le_of_natives_ok {ps : List PyMutation} {first : ℕ} {ns : List (ℕ × Bytes × Bytes)}
    (h : natives (.items ps) first = .ok ns) (hne : ps ≠ []) :
    first + ps.length ≤ maxSequenceNo + 1 := by
  exact length_le_of_nativesFrom_ok h hne

end Checks

end FdbKafkaBridge.Serialization
