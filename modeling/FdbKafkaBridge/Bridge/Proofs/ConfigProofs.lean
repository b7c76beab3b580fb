import Mathlib.Data.Nat.Size
import FdbKafkaBridge.Bridge.Config

/-!
# What `from_dict` accepts

`from_dict` returns exactly the configurations whose settings pass their checks: it returns no
other, and the dictionary of such a configuration is read as that configuration. The settings that
the bridge reads are then those of an accepted `BridgeConfig`.
-/

namespace FdbKafkaBridge.Config

open Protobuf (Bytes)
open Collections

/-! ## Numbers -/

theorem roundToDouble_pos {n : ℕ} (h : 0 < n) : 0 < roundToDouble n := by
  have hsize : n.size - 53 < n.size := by
    have := Nat.size_pos.2 h
    omega
  have hunit : 0 < 2 ^ (n.size - 53) := by positivity
  have hquotient : 0 < n / 2 ^ (n.size - 53) := Nat.div_pos (Nat.lt_size.1 hsize) hunit
  unfold roundToDouble
  dsimp only
  split
  · exact Nat.mul_pos hquotient hunit
  · exact Nat.mul_pos (Nat.succ_pos _) hunit

/-- A positive number is still positive as a `float`. -/
theorem Number.isNonPositive_toFloat {x : Number} {y : PyFloat} (h : x.toFloat = .ok y) :
    y.isNonPositive = false ↔ x.isNonPositive = false := by
  cases x with
  | float x =>
    cases h
    rfl
  | int i =>
    unfold Number.toFloat at h
    dsimp only at h
    split at h
    · cases h
    · cases h
      have hcast : (i.sign : ℚ) * (roundToDouble i.natAbs : ℚ) =
          ((i.sign * roundToDouble i.natAbs : ℤ) : ℚ) := by push_cast; rfl
      show decide ((i.sign : ℚ) * (roundToDouble i.natAbs : ℚ) ≤ 0) = false ↔ decide (i ≤ 0) = false
      rw [decide_eq_false_iff_not, decide_eq_false_iff_not, not_le, not_le, hcast, Int.cast_pos]
      rcases lt_trichotomy i 0 with hneg | rfl | hpos
      · have hround : 0 < roundToDouble i.natAbs := roundToDouble_pos (by omega)
        rw [Int.sign_eq_neg_one_of_neg hneg]
        omega
      · simp
      · have hround : 0 < roundToDouble i.natAbs := roundToDouble_pos (by omega)
        rw [Int.sign_eq_one_of_pos hpos]
        omega

/-! ## Settings -/

/-- A setting that is a string or `None`. -/
def Value.ofOptional : Option PyStr → Value
  | .none => .none
  | .some s => .str s

def Number.toValue : Number → Value
  | .int i => .int i
  | .float x => .float x

theorem positiveInt_eq_ok {path : String} {v : Value} {i : ℤ} :
    positiveInt path v = .ok i ↔ v = .int i ∧ 1 ≤ i := by
  cases v with
  | int j =>
    by_cases hj : j < 1
    · simp only [positiveInt, if_pos hj, Value.int.injEq, reduceCtorEq, false_iff]
      omega
    · simp only [positiveInt, if_neg hj, Except.ok.injEq, Value.int.injEq]
      omega
  | _ => simp [positiveInt]

theorem optionalStr_eq_ok {path : String} {v : Value} {r : Option PyStr} :
    optionalStr path v = .ok r ↔ v = .ofOptional r := by
  cases r <;> cases v <;> simp [optionalStr, Value.ofOptional]

/-- What passes a check is what was checked. -/
theorem check_eq_ok {α : Type} {fails : α → Bool} {a b : α} {error : Error} :
    (if fails a then Except.error error else .ok a) = .ok b ↔ a = b ∧ fails b = false := by
  by_cases ha : fails a = true
  · simp only [if_pos ha, reduceCtorEq, false_iff]
    rintro ⟨rfl, hb⟩
    exact absurd (ha.symm.trans hb) Bool.noConfusion
  · simp only [if_neg ha, Except.ok.injEq]
    exact ⟨fun h => ⟨h, h ▸ Bool.eq_false_iff.2 ha⟩, fun h => h.1⟩

theorem nonEmptyStr_eq_ok {path : String} {v : Value} {s : PyStr} :
    nonEmptyStr path v = .ok s ↔ v = .str s ∧ s.isBlank = false := by
  cases v with
  | str t => exact check_eq_ok.trans (and_congr_left' (Value.str.injEq t s).to_iff.symm)
  | _ => simp [nonEmptyStr]

theorem requiredStr_eq_ok {path : String} {v : Value} {s : PyStr} :
    requiredStr path v = .ok s ↔ v = .str s ∧ s.isBlank = false := by
  cases v with
  | str t => exact check_eq_ok.trans (and_congr_left' (Value.str.injEq t s).to_iff.symm)
  | _ => simp [requiredStr]

theorem optionalNonEmptyStr_eq_ok {path : String} {v : Value} {r : Option PyStr} :
    optionalNonEmptyStr path v = .ok r ↔
      v = .ofOptional r ∧ ∀ id, r = some id → id.isBlank = false := by
  cases v with
  | str t =>
    by_cases ht : t.isBlank = true
    · simp only [optionalNonEmptyStr, if_pos ht, reduceCtorEq, false_iff]
      rintro ⟨hr, hblank⟩
      cases r with
      | none => cases hr
      | some s =>
        cases hr
        exact absurd (ht.symm.trans (hblank t rfl)) Bool.noConfusion
    · simp only [optionalNonEmptyStr, if_neg ht, Except.ok.injEq]
      constructor
      · rintro rfl
        refine ⟨rfl, ?_⟩
        rintro id ⟨⟩
        exact Bool.eq_false_iff.2 ht
      · rintro ⟨hr, -⟩
        cases r <;> cases hr
        rfl
  | none => cases r <;> simp [optionalNonEmptyStr, Value.ofOptional]
  | _ => cases r <;> simp [optionalNonEmptyStr, Value.ofOptional]

theorem positiveNumber_eq_ok {path : String} {v : Value} {x : Number} :
    positiveNumber path v = .ok x ↔ v = x.toValue ∧ x.isNonPositive = false := by
  cases v with
  | int i => cases x <;> simp [positiveNumber, check_eq_ok, Number.toValue]
  | float y => cases x <;> simp [positiveNumber, check_eq_ok, Number.toValue]
  | _ => cases x <;> simp [positiveNumber, Number.toValue]

theorem checkKeyRange_eq_ok {beginKey endKey : Bytes} :
    checkKeyRange beginKey endKey = .ok () ↔
      (beginKey = [] ↔ endKey = []) ∧ (beginKey ≠ [] → beginKey < endKey) := by
  unfold checkKeyRange
  split
  · next hne =>
    simp only [reduceCtorEq, false_iff]
    rintro ⟨hiff, -⟩
    exact hne (Bool.eq_iff_iff.2 (by simpa using hiff))
  · next heq =>
    have hiff : beginKey = [] ↔ endKey = [] := by
      simpa using Bool.eq_iff_iff.1 (not_not.1 heq)
    split
    · next hnot =>
      simp only [reduceCtorEq, false_iff]
      exact fun h => hnot.2 (h.2 hnot.1)
    · next hlt => exact iff_of_true rfl ⟨hiff, fun hne => not_not.1 fun h => hlt ⟨hne, h⟩⟩

/-! ## Keys in hexadecimal -/

def hexDigit (n : ℕ) : CodePoint := .scalar (Char.ofNat (if n < 10 then 48 + n else 87 + n))

/-- `bytes.hex`. -/
def hex (bytes : Bytes) : PyStr :=
  bytes.flatMap fun b => [hexDigit (b.toNat / 16), hexDigit (b.toNat % 16)]

theorem hexDigit?_hexDigit {n : ℕ} (h : n < 16) :
    hexDigit? (hexDigit n) = some n ∧ isHexSpace (hexDigit n) = false := by
  have hall : ∀ n : Fin 16, hexDigit? (hexDigit n) = some (n : ℕ) ∧
      isHexSpace (hexDigit n) = false := by decide
  exact hall ⟨n, h⟩

theorem fromHex_hex (bytes : Bytes) : fromHex (hex bytes) = some bytes := by
  induction bytes with
  | nil => rfl
  | cons b rest ih =>
    obtain ⟨hhigh, hspace⟩ := hexDigit?_hexDigit (n := b.toNat / 16) (by have := b.toNat_lt; omega)
    obtain ⟨hlow, -⟩ := hexDigit?_hexDigit (n := b.toNat % 16) (by omega)
    have hbyte : UInt8.ofNat (16 * (b.toNat / 16) + b.toNat % 16) = b := by
      rw [Nat.div_add_mod, UInt8.ofNat_toNat]
    show fromHex (hexDigit (b.toNat / 16) :: hexDigit (b.toNat % 16) :: hex rest) = _
    rw [fromHex, hspace, hhigh, hlow, ih]
    exact congrArg (fun b => some (b :: rest)) hbyte

/-- A key is the same in hexadecimal and as bytes. -/
theorem parseKey_hex {bytes : Bytes} {name : String} :
    parseKey (.str (hex bytes)) name = parseKey (.bytes bytes) name := by
  simp only [parseKey, fromHex_hex]

/-! ## Valid configurations -/

/-- The checks of `from_dict` on the settings of a section. -/
structure FDBConfig.Valid (c : FDBConfig) : Prop where
  apiVersion : 1 ≤ c.apiVersion

structure CDCConfig.Valid (c : CDCConfig) : Prop where
  streamName : c.streamName.isBlank = false
  keys : c.beginKey = [] ↔ c.endKey = []
  keyOrder : c.beginKey ≠ [] → c.beginKey < c.endKey
  maxRecordBytes : 1 ≤ c.maxRecordBytes

structure KafkaConfig.Valid (c : KafkaConfig) : Prop where
  bootstrapServers : c.bootstrapServers.isBlank = false
  topic : c.topic.isBlank = false
  transactionalId : ∀ id, c.transactionalId = some id → id.isBlank = false

structure PipelineConfig.Valid (c : PipelineConfig) : Prop where
  flushTimeoutSeconds : c.flushTimeoutSeconds.isNonPositive = false
  backoffBaseSeconds : c.backoffBaseSeconds.isNonPositive = false
  backoffMaxSeconds : c.backoffMaxSeconds.isNonPositive = false
  shutdownTimeoutSeconds : c.shutdownTimeoutSeconds.isNonPositive = false

structure Parsed.Valid (c : Parsed) : Prop where
  fdb : c.fdb.Valid
  cdc : c.cdc.Valid
  kafka : c.kafka.Valid
  pipeline : c.pipeline.Valid

theorem fdbOf_valid {settings : Dict PyStr Value} {c : FDBConfig} (h : fdbOf settings = .ok c) :
    c.Valid := by
  obtain ⟨apiVersion, hversion, h⟩ := bind_eq_ok.1 h
  obtain ⟨clusterFile, -, h⟩ := bind_eq_ok.1 h
  cases h
  exact ⟨(positiveInt_eq_ok.1 hversion).2⟩

theorem cdcOf_valid {settings : Dict PyStr Value} {c : CDCConfig} (h : cdcOf settings = .ok c) :
    c.Valid := by
  obtain ⟨name, hname, h⟩ := bind_eq_ok.1 h
  obtain ⟨beginKey, -, h⟩ := bind_eq_ok.1 h
  obtain ⟨endKey, -, h⟩ := bind_eq_ok.1 h
  obtain ⟨⟨⟩, hrange, h⟩ := bind_eq_ok.1 h
  obtain ⟨maxRecordBytes, hmax, h⟩ := bind_eq_ok.1 h
  obtain ⟨cursorFile, -, h⟩ := bind_eq_ok.1 h
  cases h
  obtain ⟨hkeys, horder⟩ := checkKeyRange_eq_ok.1 hrange
  exact ⟨(requiredStr_eq_ok.1 hname).2, hkeys, horder, (positiveInt_eq_ok.1 hmax).2⟩

theorem kafkaOf_valid {settings : Dict PyStr Value} {c : KafkaConfig}
    (h : kafkaOf settings = .ok c) : c.Valid := by
  obtain ⟨servers, hservers, h⟩ := bind_eq_ok.1 h
  obtain ⟨topic, htopic, h⟩ := bind_eq_ok.1 h
  obtain ⟨id, hid, h⟩ := bind_eq_ok.1 h
  cases h
  exact ⟨(nonEmptyStr_eq_ok.1 hservers).2, (nonEmptyStr_eq_ok.1 htopic).2,
    (optionalNonEmptyStr_eq_ok.1 hid).2⟩

/-- What is checked as a number stays positive when it is made a `float`. -/
theorem interval_positive {settings : Dict PyStr Value} {key : String} {default : ℚ} {x : Number}
    {y : PyFloat} (hx : interval settings key default = .ok x) (hy : x.toFloat = .ok y) :
    y.isNonPositive = false :=
  (Number.isNonPositive_toFloat hy).2 (positiveNumber_eq_ok.1 hx).2

theorem pipelineOf_valid {settings : Dict PyStr Value} {c : PipelineConfig}
    (h : pipelineOf settings = .ok c) : c.Valid := by
  obtain ⟨flush, hflush, h⟩ := bind_eq_ok.1 h
  obtain ⟨base, hbase, h⟩ := bind_eq_ok.1 h
  obtain ⟨max, hmax, h⟩ := bind_eq_ok.1 h
  obtain ⟨shutdown, hshutdown, h⟩ := bind_eq_ok.1 h
  obtain ⟨flush', hflush', h⟩ := bind_eq_ok.1 h
  obtain ⟨base', hbase', h⟩ := bind_eq_ok.1 h
  obtain ⟨max', hmax', h⟩ := bind_eq_ok.1 h
  obtain ⟨shutdown', hshutdown', h⟩ := bind_eq_ok.1 h
  cases h
  exact ⟨interval_positive hflush hflush', interval_positive hbase hbase',
    interval_positive hmax hmax', interval_positive hshutdown hshutdown'⟩

/-- What `from_dict` returns has passed every check. -/
theorem fromDict_valid {data : Data} {c : Parsed} (h : fromDict data = .ok c) : c.Valid := by
  cases data with
  | other typeName => cases h
  | dict data =>
    obtain ⟨⟨⟩, -, h⟩ := bind_eq_ok.1 h
    obtain ⟨fdbDict, -, h⟩ := bind_eq_ok.1 h
    obtain ⟨cdcDict, -, h⟩ := bind_eq_ok.1 h
    obtain ⟨kafkaDict, -, h⟩ := bind_eq_ok.1 h
    obtain ⟨pipelineDict, -, h⟩ := bind_eq_ok.1 h
    obtain ⟨⟨⟩, -, h⟩ := bind_eq_ok.1 h
    obtain ⟨⟨⟩, -, h⟩ := bind_eq_ok.1 h
    obtain ⟨⟨⟩, -, h⟩ := bind_eq_ok.1 h
    obtain ⟨⟨⟩, -, h⟩ := bind_eq_ok.1 h
    obtain ⟨fdb, hfdb, h⟩ := bind_eq_ok.1 h
    obtain ⟨cdc, hcdc, h⟩ := bind_eq_ok.1 h
    obtain ⟨kafka, hkafka, h⟩ := bind_eq_ok.1 h
    obtain ⟨pipeline, hpipeline, h⟩ := bind_eq_ok.1 h
    cases h
    exact ⟨fdbOf_valid hfdb, cdcOf_valid hcdc, kafkaOf_valid hkafka, pipelineOf_valid hpipeline⟩

/-! ## The dictionary of a configuration -/

/-- A dictionary of the given entries, set in this order. -/
def dictOf {ν : Type} (entries : List (String × ν)) : Dict PyStr ν :=
  entries.foldl (fun d entry => d.set (text entry.1) entry.2) .empty

theorem text_inj {a b : String} : text a = text b ↔ a = b := by
  refine ⟨fun h => ?_, fun h => h ▸ rfl⟩
  have hchars : a.toList = b.toList :=
    List.map_injective_iff.2 (fun _ _ heq => CodePoint.scalar.inj heq) h
  exact String.toList_inj.1 hchars

theorem dictOf_append {ν : Type} {entries : List (String × ν)} {key : String} {v : ν} :
    dictOf (entries ++ [(key, v)]) = (dictOf entries).set (text key) v :=
  List.foldl_append

theorem mem_keys_dictOf {ν : Type} {entries : List (String × ν)} {key : PyStr}
    (h : key ∈ (dictOf entries).keys) : key ∈ (entries.map Prod.fst).map text := by
  induction entries using List.reverseRecOn with
  | nil => exact h
  | append_singleton entries entry ih =>
    rw [dictOf_append] at h
    rw [List.map_append, List.map_append, List.mem_append]
    rcases Dict.mem_keys_replace.1 h with rfl | hkey
    · exact .inr List.mem_cons_self
    · exact .inl (ih hkey)

/-- An entry is found under its key, which no other entry has. -/
theorem get?_dictOf {ν : Type} {entries : List (String × ν)} {key : String} {v : ν}
    (hkeys : (entries.map Prod.fst).Nodup) (h : (key, v) ∈ entries) :
    (dictOf entries).get? (text key) = some v := by
  induction entries using List.reverseRecOn with
  | nil => cases h
  | append_singleton entries entry ih =>
    rw [List.map_append] at hkeys
    rw [dictOf_append, Dict.get?_set]
    rcases List.mem_append.1 h with hmem | hlast
    · have hne : text key ≠ text entry.1 := fun heq =>
        List.disjoint_of_nodup_append hkeys (List.mem_map_of_mem hmem)
          (text_inj.1 heq ▸ List.mem_cons_self)
      rw [if_neg hne]
      exact ih hkeys.of_append_left hmem
    · obtain rfl := List.mem_singleton.1 hlast
      exact if_pos rfl

theorem get?_dictOf_eq_none {ν : Type} {entries : List (String × ν)} {key : String}
    (h : key ∉ entries.map Prod.fst) : (dictOf entries).get? (text key) = none := by
  induction entries using List.reverseRecOn with
  | nil => rfl
  | append_singleton entries entry ih =>
    rw [List.map_append, List.mem_append] at h
    have hne : text key ≠ text entry.1 := fun heq =>
      h (.inr (text_inj.1 heq ▸ List.mem_cons_self))
    rw [dictOf_append, Dict.get?_set, if_neg hne]
    exact ih fun hmem => h (.inl hmem)

theorem setting_dictOf {entries : List (String × Value)} {key : String} {default v : Value}
    (hkeys : (entries.map Prod.fst).Nodup) (h : (key, v) ∈ entries) :
    setting (dictOf entries) key default = v := by
  rw [setting, get?_dictOf hkeys h]
  rfl

theorem setting_default {entries : List (String × Value)} {key : String} {default : Value}
    (h : key ∉ entries.map Prod.fst) : setting (dictOf entries) key default = default := by
  rw [setting, get?_dictOf_eq_none h]
  rfl

/-- A dictionary whose keys are among the fields has no unknown one. -/
theorem rejectUnknownKeys_dictOf {ν : Type} {entries : List (String × ν)} {name : String}
    {fields : List String} (h : entries.map Prod.fst ⊆ fields) :
    rejectUnknownKeys name (dictOf entries).keys fields = .ok () := by
  refine if_pos (List.filter_eq_nil_iff.2 fun key hkey => ?_)
  have hmem : key ∈ fields.map text := List.map_subset text h (mem_keys_dictOf hkey)
  simpa using hmem

def FDBConfig.entries (c : FDBConfig) : List (String × Value) :=
  [("api_version", .int c.apiVersion), ("cluster_file", .ofOptional c.clusterFile)]

def CDCConfig.entries (c : CDCConfig) : List (String × Value) :=
  [("stream_name", .str c.streamName), ("begin_key", .bytes c.beginKey),
    ("end_key", .bytes c.endKey), ("max_record_bytes", .int c.maxRecordBytes),
    ("cursor_file", .ofOptional c.cursorFile)]

def KafkaConfig.entries (c : KafkaConfig) : List (String × Value) :=
  [("bootstrap_servers", .str c.bootstrapServers), ("topic", .str c.topic),
    ("transactional_id", .ofOptional c.transactionalId)]

def PipelineConfig.entries (c : PipelineConfig) : List (String × Value) :=
  [("flush_timeout_seconds", .float c.flushTimeoutSeconds),
    ("backoff_base_seconds", .float c.backoffBaseSeconds),
    ("backoff_max_seconds", .float c.backoffMaxSeconds),
    ("shutdown_timeout_seconds", .float c.shutdownTimeoutSeconds)]

def Parsed.entries (c : Parsed) : List (String × Section) :=
  [("fdb", .dict (dictOf c.fdb.entries)), ("cdc", .dict (dictOf c.cdc.entries)),
    ("kafka", .dict (dictOf c.kafka.entries)), ("pipeline", .dict (dictOf c.pipeline.entries))]

/-- `dataclasses.asdict`. -/
def Parsed.asDict (c : Parsed) : Data := .dict (dictOf c.entries)

theorem fdbOf_entries {c : FDBConfig} (h : c.Valid) : fdbOf (dictOf c.entries) = .ok c := by
  have hget : ∀ {key : String} {default v : Value}, (key, v) ∈ c.entries →
      setting (dictOf c.entries) key default = v :=
    setting_dictOf (by simp [FDBConfig.entries])
  refine bind_eq_ok.2 ⟨c.apiVersion, positiveInt_eq_ok.2 ⟨hget ?_, h.apiVersion⟩, ?_⟩
  · simp [FDBConfig.entries]
  refine bind_eq_ok.2 ⟨c.clusterFile, optionalStr_eq_ok.2 (hget ?_), rfl⟩
  simp [FDBConfig.entries]

theorem cdcOf_entries {c : CDCConfig} (h : c.Valid) : cdcOf (dictOf c.entries) = .ok c := by
  have hget : ∀ {key : String} {default v : Value}, (key, v) ∈ c.entries →
      setting (dictOf c.entries) key default = v :=
    setting_dictOf (by simp [CDCConfig.entries])
  refine bind_eq_ok.2 ⟨c.streamName, requiredStr_eq_ok.2 ⟨hget ?_, h.streamName⟩, ?_⟩
  · simp [CDCConfig.entries]
  have hbegin : setting (dictOf c.entries) "begin_key" (.str []) = .bytes c.beginKey :=
    hget (by simp [CDCConfig.entries])
  have hend : setting (dictOf c.entries) "end_key" (.str []) = .bytes c.endKey :=
    hget (by simp [CDCConfig.entries])
  rw [hbegin, hend]
  refine bind_eq_ok.2 ⟨c.beginKey, rfl, bind_eq_ok.2 ⟨c.endKey, rfl, ?_⟩⟩
  refine bind_eq_ok.2 ⟨(), checkKeyRange_eq_ok.2 ⟨h.keys, h.keyOrder⟩, ?_⟩
  refine bind_eq_ok.2 ⟨c.maxRecordBytes, positiveInt_eq_ok.2 ⟨hget ?_, h.maxRecordBytes⟩, ?_⟩
  · simp [CDCConfig.entries]
  refine bind_eq_ok.2 ⟨c.cursorFile, optionalStr_eq_ok.2 (hget ?_), rfl⟩
  simp [CDCConfig.entries]

theorem kafkaOf_entries {c : KafkaConfig} (h : c.Valid) : kafkaOf (dictOf c.entries) = .ok c := by
  have hget : ∀ {key : String} {default v : Value}, (key, v) ∈ c.entries →
      setting (dictOf c.entries) key default = v :=
    setting_dictOf (by simp [KafkaConfig.entries])
  refine bind_eq_ok.2 ⟨c.bootstrapServers, nonEmptyStr_eq_ok.2 ⟨hget ?_, h.bootstrapServers⟩, ?_⟩
  · simp [KafkaConfig.entries]
  refine bind_eq_ok.2 ⟨c.topic, nonEmptyStr_eq_ok.2 ⟨hget ?_, h.topic⟩, ?_⟩
  · simp [KafkaConfig.entries]
  refine bind_eq_ok.2 ⟨c.transactionalId,
    optionalNonEmptyStr_eq_ok.2 ⟨hget ?_, h.transactionalId⟩, rfl⟩
  simp [KafkaConfig.entries]

theorem pipelineOf_entries {c : PipelineConfig} (h : c.Valid) :
    pipelineOf (dictOf c.entries) = .ok c := by
  have hinterval : ∀ {key : String} {default : ℚ} {x : PyFloat}, (key, .float x) ∈ c.entries →
      x.isNonPositive = false → interval (dictOf c.entries) key default = .ok (.float x) :=
    fun hmem hpos => positiveNumber_eq_ok.2
      ⟨setting_dictOf (by simp [PipelineConfig.entries]) hmem, hpos⟩
  refine bind_eq_ok.2 ⟨_, hinterval ?_ h.flushTimeoutSeconds, ?_⟩
  · simp [PipelineConfig.entries]
  refine bind_eq_ok.2 ⟨_, hinterval ?_ h.backoffBaseSeconds, ?_⟩
  · simp [PipelineConfig.entries]
  refine bind_eq_ok.2 ⟨_, hinterval ?_ h.backoffMaxSeconds, ?_⟩
  · simp [PipelineConfig.entries]
  refine bind_eq_ok.2 ⟨_, hinterval ?_ h.shutdownTimeoutSeconds, rfl⟩
  simp [PipelineConfig.entries]

/-- A valid configuration is read from its own dictionary. -/
theorem fromDict_asDict {c : Parsed} (h : c.Valid) : fromDict c.asDict = .ok c := by
  have hsection : ∀ {name : String} {d : Dict PyStr Value}, (name, .dict d) ∈ c.entries →
      requireDict name ((dictOf c.entries).get? (text name)) = .ok d := by
    intro name d hmem
    rw [get?_dictOf (by simp [Parsed.entries]) hmem]
    rfl
  refine bind_eq_ok.2 ⟨(), rejectUnknownKeys_dictOf (List.Subset.refl _), ?_⟩
  refine bind_eq_ok.2 ⟨dictOf c.fdb.entries, hsection (by simp [Parsed.entries]), ?_⟩
  refine bind_eq_ok.2 ⟨dictOf c.cdc.entries, hsection (by simp [Parsed.entries]), ?_⟩
  refine bind_eq_ok.2 ⟨dictOf c.kafka.entries, hsection (by simp [Parsed.entries]), ?_⟩
  refine bind_eq_ok.2 ⟨dictOf c.pipeline.entries, hsection (by simp [Parsed.entries]), ?_⟩
  refine bind_eq_ok.2 ⟨(), rejectUnknownKeys_dictOf (List.Subset.refl _), ?_⟩
  refine bind_eq_ok.2 ⟨(), rejectUnknownKeys_dictOf (List.Subset.refl _), ?_⟩
  refine bind_eq_ok.2 ⟨(), rejectUnknownKeys_dictOf (List.Subset.refl _), ?_⟩
  refine bind_eq_ok.2 ⟨(), rejectUnknownKeys_dictOf (List.Subset.refl _), ?_⟩
  rw [fdbOf_entries h.fdb, cdcOf_entries h.cdc, kafkaOf_entries h.kafka,
    pipelineOf_entries h.pipeline]
  rfl

/-- A configuration is one that `from_dict` returns exactly when it is valid. -/
theorem valid_iff {c : Parsed} : c.Valid ↔ ∃ data, fromDict data = .ok c :=
  ⟨fun h => ⟨c.asDict, fromDict_asDict h⟩, fun ⟨_, h⟩ => fromDict_valid h⟩

/-! ## What the bridge reads -/

/-- The settings of the bridge are those of the configuration, whose numbers are finite. -/
structure Reads (c : Parsed) (config : BridgeConfig) : Prop where
  streamName : c.cdc.streamName = config.streamName
  beginKey : c.cdc.beginKey = config.beginKey
  endKey : c.cdc.endKey = config.endKey
  maxRecordBytes : c.cdc.maxRecordBytes = config.maxRecordBytes
  cursorFile : c.cdc.cursorFile = config.cursorFile.map text
  topic : c.kafka.topic = text config.topic
  transactionalId : c.kafka.transactionalId = config.transactionalId.map text
  flushTimeoutSeconds : c.pipeline.flushTimeoutSeconds = .finite config.flushTimeoutSeconds
  backoffBaseSeconds : c.pipeline.backoffBaseSeconds = .finite config.backoffBaseSeconds
  backoffMaxSeconds : c.pipeline.backoffMaxSeconds = .finite config.backoffMaxSeconds
  shutdownTimeoutSeconds :
    c.pipeline.shutdownTimeoutSeconds = .finite config.shutdownTimeoutSeconds

theorem isBlank_text {s : String} : (text s).isBlank = s.toList.all isSpace :=
  List.all_map

theorem isNonPositive_finite {q : ℚ} : (PyFloat.finite q).isNonPositive = false ↔ 0 < q :=
  decide_eq_false_iff_not.trans not_le

/-- The settings that the bridge reads pass their checks when the configuration is valid. -/
theorem Reads.accepted {c : Parsed} {config : BridgeConfig} (hreads : Reads c config)
    (h : c.Valid) : config.Accepted where
  streamName := hreads.streamName ▸ h.cdc.streamName
  keys := by
    rw [← hreads.beginKey, ← hreads.endKey]
    exact h.cdc.keys
  keyOrder := by
    rw [← hreads.beginKey, ← hreads.endKey]
    exact h.cdc.keyOrder
  maxRecordBytes := hreads.maxRecordBytes ▸ h.cdc.maxRecordBytes
  topic := by
    rw [← isBlank_text, ← hreads.topic]
    exact h.kafka.topic
  transactionalId := by
    intro id hid
    rw [← isBlank_text]
    exact h.kafka.transactionalId _ (by rw [hreads.transactionalId, hid]; rfl)
  flushTimeoutSeconds :=
    isNonPositive_finite.1 (hreads.flushTimeoutSeconds ▸ h.pipeline.flushTimeoutSeconds)
  backoffBaseSeconds :=
    isNonPositive_finite.1 (hreads.backoffBaseSeconds ▸ h.pipeline.backoffBaseSeconds)
  backoffMaxSeconds :=
    isNonPositive_finite.1 (hreads.backoffMaxSeconds ▸ h.pipeline.backoffMaxSeconds)
  shutdownTimeoutSeconds :=
    isNonPositive_finite.1 (hreads.shutdownTimeoutSeconds ▸ h.pipeline.shutdownTimeoutSeconds)

/-- The configuration that has the settings of the bridge and the defaults of all others. -/
def ofSettings (config : BridgeConfig) : Parsed where
  fdb := ⟨800, none⟩
  cdc := ⟨config.streamName, config.beginKey, config.endKey, config.maxRecordBytes,
    config.cursorFile.map text⟩
  kafka := ⟨text "localhost:9092", text config.topic, config.transactionalId.map text⟩
  pipeline := ⟨.finite config.flushTimeoutSeconds, .finite config.backoffBaseSeconds,
    .finite config.backoffMaxSeconds, .finite config.shutdownTimeoutSeconds⟩

theorem reads_ofSettings {config : BridgeConfig} : Reads (ofSettings config) config :=
  ⟨rfl, rfl, rfl, rfl, rfl, rfl, rfl, rfl, rfl, rfl, rfl⟩

theorem valid_ofSettings {config : BridgeConfig} (h : config.Accepted) :
    (ofSettings config).Valid where
  fdb := ⟨by norm_num [ofSettings]⟩
  cdc := ⟨h.streamName, h.keys, h.keyOrder, h.maxRecordBytes⟩
  kafka := by
    refine ⟨?_, isBlank_text.trans h.topic, fun id hid => ?_⟩
    · show (text "localhost:9092").isBlank = false
      decide
    · obtain ⟨s, hs, rfl⟩ := Option.map_eq_some_iff.1 hid
      exact isBlank_text.trans (h.transactionalId s hs)
  pipeline := ⟨isNonPositive_finite.2 h.flushTimeoutSeconds,
    isNonPositive_finite.2 h.backoffBaseSeconds, isNonPositive_finite.2 h.backoffMaxSeconds,
    isNonPositive_finite.2 h.shutdownTimeoutSeconds⟩

/-- The accepted settings are those that `from_dict` returns for some dictionary. -/
theorem accepted_iff {config : BridgeConfig} :
    config.Accepted ↔ ∃ data c, fromDict data = .ok c ∧ Reads c config := by
  constructor
  · intro h
    exact ⟨(ofSettings config).asDict, ofSettings config, fromDict_asDict (valid_ofSettings h),
      reads_ofSettings⟩
  · rintro ⟨data, c, h, hreads⟩
    exact hreads.accepted (fromDict_valid h)

theorem kafkaOf_empty :
    kafkaOf .empty = .ok ⟨text "localhost:9092", text "fdb-cdc", none⟩ := by
  have hservers : (text "localhost:9092").isBlank = false := by decide
  have htopic : (text "fdb-cdc").isBlank = false := by decide
  exact bind_eq_ok.2 ⟨_, nonEmptyStr_eq_ok.2 ⟨rfl, hservers⟩,
    bind_eq_ok.2 ⟨_, nonEmptyStr_eq_ok.2 ⟨rfl, htopic⟩, rfl⟩⟩

theorem pipelineOf_empty : pipelineOf .empty =
    .ok ⟨.finite 10, .finite (1 / 10), .finite 2, .finite 15⟩ := by
  have hinterval : ∀ {key : String} {default : ℚ}, 0 < default →
      interval .empty key default = .ok (.float (.finite default)) :=
    fun hpos => positiveNumber_eq_ok.2 ⟨rfl, isNonPositive_finite.2 hpos⟩
  refine bind_eq_ok.2 ⟨_, hinterval (by norm_num), ?_⟩
  refine bind_eq_ok.2 ⟨_, hinterval (by norm_num), ?_⟩
  refine bind_eq_ok.2 ⟨_, hinterval (by norm_num), ?_⟩
  exact bind_eq_ok.2 ⟨_, hinterval (by norm_num), rfl⟩

/-- A dictionary that has nothing but a stream name is read as the defaults. -/
theorem fromDict_default {streamName : PyStr} (h : streamName.isBlank = false) :
    fromDict (.dict (dictOf [("cdc", .dict (dictOf [("stream_name", .str streamName)]))])) =
      .ok (ofSettings (BridgeConfig.default streamName)) := by
  have hcdc : cdcOf (dictOf [("stream_name", .str streamName)]) =
      .ok ⟨streamName, [], [], 1000000, none⟩ := by
    have hdefault : ∀ (key : String) {default : Value}, key ≠ "stream_name" →
        setting (dictOf [("stream_name", .str streamName)]) key default = default :=
      fun key _ hne => setting_default (by simpa using hne)
    have hname : setting (dictOf [("stream_name", .str streamName)]) "stream_name" (.str []) =
        .str streamName := setting_dictOf (by simp) (by simp)
    refine bind_eq_ok.2 ⟨streamName, requiredStr_eq_ok.2 ⟨hname, h⟩, ?_⟩
    rw [hdefault "begin_key" (by simp), hdefault "end_key" (by simp),
      hdefault "max_record_bytes" (by simp), hdefault "cursor_file" (by simp)]
    rfl
  have hsection : ∀ (name : String) {sections : List (String × Section)},
      name ∉ sections.map Prod.fst →
        requireDict name ((dictOf sections).get? (text name)) = .ok .empty := by
    intro name sections hne
    rw [get?_dictOf_eq_none hne]
    rfl
  refine bind_eq_ok.2 ⟨(), rejectUnknownKeys_dictOf (by simp), ?_⟩
  refine bind_eq_ok.2 ⟨.empty, hsection "fdb" (by simp), ?_⟩
  refine bind_eq_ok.2 ⟨dictOf [("stream_name", .str streamName)], ?_, ?_⟩
  · rw [get?_dictOf (by simp) List.mem_cons_self]
    rfl
  refine bind_eq_ok.2 ⟨.empty, hsection "kafka" (by simp), ?_⟩
  refine bind_eq_ok.2 ⟨.empty, hsection "pipeline" (by simp), ?_⟩
  refine bind_eq_ok.2 ⟨(), rfl, bind_eq_ok.2 ⟨(), rejectUnknownKeys_dictOf (by simp), ?_⟩⟩
  refine bind_eq_ok.2 ⟨(), rfl, bind_eq_ok.2 ⟨(), rfl, ?_⟩⟩
  rw [hcdc, kafkaOf_empty, pipelineOf_empty]
  rfl

/-! ## Exceptions -/

/-- The exception is one of those documented, and its text starts with the name of the setting. -/
structure Error.IsAbout (e : Error) (path : String) : Prop where
  cls : e.cls ≠ .overflowError
  message : ∃ rest, e.message = text path ++ rest

theorem text_append {a b : String} : text (a ++ b) = text a ++ text b := by
  simp [text, PyStr.ofChars]

theorem isAbout_typeError {path rest : String} : (typeError (path ++ rest)).IsAbout path :=
  ⟨ErrorClass.noConfusion, text rest, text_append⟩

theorem isAbout_valueError {path rest : String} : (valueError (path ++ rest)).IsAbout path :=
  ⟨ErrorClass.noConfusion, text rest, text_append⟩

theorem positiveInt_error {path : String} {v : Value} {e : Error}
    (h : positiveInt path v = .error e) : e.IsAbout path := by
  unfold positiveInt at h
  split at h
  · split at h
    · cases h
      exact isAbout_valueError
    · cases h
  · cases h
    exact isAbout_typeError

theorem optionalStr_error {path : String} {v : Value} {e : Error}
    (h : optionalStr path v = .error e) : e.IsAbout path := by
  unfold optionalStr at h
  split at h
  · cases h
  · cases h
  · cases h
    exact isAbout_typeError

theorem nonEmptyStr_error {path : String} {v : Value} {e : Error}
    (h : nonEmptyStr path v = .error e) : e.IsAbout path := by
  unfold nonEmptyStr at h
  dsimp only at h
  split at h
  · split at h
    · cases h
      exact isAbout_valueError
    · cases h
  · cases h
    exact isAbout_valueError

theorem requiredStr_error {path : String} {v : Value} {e : Error}
    (h : requiredStr path v = .error e) : e.IsAbout path := by
  unfold requiredStr at h
  split at h
  · split at h
    · cases h
      exact isAbout_valueError
    · cases h
  · cases h
    exact isAbout_typeError

theorem optionalNonEmptyStr_error {path : String} {v : Value} {e : Error}
    (h : optionalNonEmptyStr path v = .error e) : e.IsAbout path := by
  unfold optionalNonEmptyStr at h
  split at h
  · cases h
  · split at h
    · cases h
      exact isAbout_valueError
    · cases h
  · cases h
    exact isAbout_typeError

theorem positiveNumber_error {path : String} {v : Value} {e : Error}
    (h : positiveNumber path v = .error e) : e.IsAbout path := by
  have hcheck : ∀ {x : Number}, (if x.isNonPositive then
      Except.error (valueError (path ++ " must be a positive number")) else .ok x) = .error e →
        e.IsAbout path := by
    intro x h
    split at h
    · cases h
      exact isAbout_valueError
    · cases h
  cases v with
  | int i => exact hcheck h
  | float x => exact hcheck h
  | _ =>
    cases h
    exact isAbout_valueError

theorem parseKey_error {key : Value} {name : String} {e : Error}
    (h : parseKey key name = .error e) : e.IsAbout ("cdc." ++ name) := by
  unfold parseKey at h
  split at h
  · split at h
    · cases h
    · cases h
      exact ⟨ErrorClass.noConfusion, text " is not a valid hex string: ", text_append⟩
  · cases h
  · cases h
  · cases h
    rw [String.append_assoc]
    exact isAbout_typeError

theorem checkKeyRange_error {beginKey endKey : Bytes} {e : Error}
    (h : checkKeyRange beginKey endKey = .error e) : e.IsAbout "cdc.begin_key" := by
  have habout : ∀ rest : String, (valueError ("cdc.begin_key" ++ rest)).IsAbout "cdc.begin_key" :=
    fun _ => isAbout_valueError
  unfold checkKeyRange at h
  split at h
  · cases h
    simpa using habout " and cdc.end_key must either both be specified or both omitted"
  · split at h
    · cases h
      simpa using habout " must be less than cdc.end_key"
    · cases h

/-- The exception is about one of the settings of the section. -/
def Error.IsAboutSetting (e : Error) (name : String) (fields : List String) : Prop :=
  ∃ key ∈ fields, e.IsAbout (name ++ "." ++ key)

theorem fdbOf_error {settings : Dict PyStr Value} {e : Error} (h : fdbOf settings = .error e) :
    e.IsAboutSetting "fdb" ["api_version", "cluster_file"] := by
  rcases bind_eq_error.1 h with hversion | ⟨apiVersion, -, h⟩
  · exact ⟨"api_version", by simp, positiveInt_error hversion⟩
  rcases bind_eq_error.1 h with hfile | ⟨clusterFile, -, h⟩
  · exact ⟨"cluster_file", by simp, optionalStr_error hfile⟩
  cases h

theorem cdcOf_error {settings : Dict PyStr Value} {e : Error} (h : cdcOf settings = .error e) :
    e.IsAboutSetting "cdc"
      ["stream_name", "begin_key", "end_key", "max_record_bytes", "cursor_file"] := by
  rcases bind_eq_error.1 h with hname | ⟨streamName, -, h⟩
  · exact ⟨"stream_name", by simp, requiredStr_error hname⟩
  rcases bind_eq_error.1 h with hbegin | ⟨beginKey, -, h⟩
  · exact ⟨"begin_key", by simp, parseKey_error hbegin⟩
  rcases bind_eq_error.1 h with hend | ⟨endKey, -, h⟩
  · exact ⟨"end_key", by simp, parseKey_error hend⟩
  rcases bind_eq_error.1 h with hrange | ⟨⟨⟩, -, h⟩
  · exact ⟨"begin_key", by simp, checkKeyRange_error hrange⟩
  rcases bind_eq_error.1 h with hmax | ⟨maxRecordBytes, -, h⟩
  · exact ⟨"max_record_bytes", by simp, positiveInt_error hmax⟩
  rcases bind_eq_error.1 h with hfile | ⟨cursorFile, -, h⟩
  · exact ⟨"cursor_file", by simp, optionalStr_error hfile⟩
  cases h

theorem kafkaOf_error {settings : Dict PyStr Value} {e : Error} (h : kafkaOf settings = .error e) :
    e.IsAboutSetting "kafka" ["bootstrap_servers", "topic", "transactional_id"] := by
  rcases bind_eq_error.1 h with hservers | ⟨servers, -, h⟩
  · exact ⟨"bootstrap_servers", by simp, nonEmptyStr_error hservers⟩
  rcases bind_eq_error.1 h with htopic | ⟨topic, -, h⟩
  · exact ⟨"topic", by simp, nonEmptyStr_error htopic⟩
  rcases bind_eq_error.1 h with hid | ⟨id, -, h⟩
  · exact ⟨"transactional_id", by simp, optionalNonEmptyStr_error hid⟩
  cases h

/-- An integer among the settings that no `float` can stand for. -/
def HasTooLarge (settings : Dict PyStr Value) : Prop :=
  ∃ key i, settings.get? (text key) = some (.int i) ∧ 1024 < (roundToDouble i.natAbs).size

/-- A checked number fails to become a `float` only when it is too large an integer. -/
theorem toFloat_error {settings : Dict PyStr Value} {key : String} {default : ℚ} {x : Number}
    {e : Error} (hx : interval settings key default = .ok x) (h : x.toFloat = .error e) :
    HasTooLarge settings := by
  cases x with
  | float x => cases h
  | int i =>
    unfold Number.toFloat at h
    dsimp only at h
    split at h
    · next hlarge =>
      refine ⟨key, i, ?_, hlarge⟩
      have hset : setting settings key (.float (.finite default)) = .int i :=
        (positiveNumber_eq_ok.1 hx).1
      unfold setting at hset
      cases hget : settings.get? (text key) with
      | none =>
        rw [hget] at hset
        cases hset
      | some v =>
        rw [hget] at hset
        exact congrArg some hset
    · cases h

theorem pipelineOf_error {settings : Dict PyStr Value} {e : Error}
    (h : pipelineOf settings = .error e) :
    e.IsAboutSetting "pipeline" ["flush_timeout_seconds", "backoff_base_seconds",
      "backoff_max_seconds", "shutdown_timeout_seconds"] ∨ HasTooLarge settings := by
  rcases bind_eq_error.1 h with herror | ⟨flush, hflush, h⟩
  · exact .inl ⟨"flush_timeout_seconds", by simp, positiveNumber_error herror⟩
  rcases bind_eq_error.1 h with herror | ⟨base, hbase, h⟩
  · exact .inl ⟨"backoff_base_seconds", by simp, positiveNumber_error herror⟩
  rcases bind_eq_error.1 h with herror | ⟨max, hmax, h⟩
  · exact .inl ⟨"backoff_max_seconds", by simp, positiveNumber_error herror⟩
  rcases bind_eq_error.1 h with herror | ⟨shutdown, hshutdown, h⟩
  · exact .inl ⟨"shutdown_timeout_seconds", by simp, positiveNumber_error herror⟩
  -- All four have been checked: what is left is to make them `float`s.
  rcases bind_eq_error.1 h with herror | ⟨_, -, h⟩
  · exact .inr (toFloat_error hflush herror)
  rcases bind_eq_error.1 h with herror | ⟨_, -, h⟩
  · exact .inr (toFloat_error hbase herror)
  rcases bind_eq_error.1 h with herror | ⟨_, -, h⟩
  · exact .inr (toFloat_error hmax herror)
  rcases bind_eq_error.1 h with herror | ⟨_, -, h⟩
  · exact .inr (toFloat_error hshutdown herror)
  cases h

theorem requireDict_error {name : String} {section? : Option Section} {e : Error}
    (h : requireDict name section? = .error e) : e.cls = .typeError := by
  unfold requireDict at h
  split at h
  · cases h
  · cases h
  · cases h
  · cases h
    rfl

theorem rejectUnknownKeys_error {name : String} {keys : List PyStr} {fields : List String}
    {e : Error} (h : rejectUnknownKeys name keys fields = .error e) : e.cls = .valueError := by
  unfold rejectUnknownKeys at h
  dsimp only at h
  split at h
  · cases h
  · cases h
    rfl

theorem Error.IsAboutSetting.cls {e : Error} {name : String} {fields : List String}
    (h : e.IsAboutSetting name fields) : e.cls ≠ .overflowError := by
  obtain ⟨key, -, hkey⟩ := h
  exact hkey.cls

/-- A section with such an integer is a dictionary of its own. -/
theorem HasTooLarge.of_requireDict {name : String} {section? : Option Section}
    {settings : Dict PyStr Value} (h : HasTooLarge settings)
    (hrequire : requireDict name section? = .ok settings) : section? = some (.dict settings) := by
  have hempty : settings ≠ .empty := by
    rintro rfl
    obtain ⟨key, i, hget, -⟩ := h
    cases hget
  unfold requireDict at hrequire
  split at hrequire
  · exact absurd (Except.ok.inj hrequire).symm hempty
  · exact absurd (Except.ok.inj hrequire).symm hempty
  · rw [Except.ok.inj hrequire]
  · cases hrequire

/-- `from_dict` raises what it documents, a `TypeError` or a `ValueError`, unless the pipeline has
an integer that no `float` can stand for. -/
theorem fromDict_error {data : Data} {e : Error} (h : fromDict data = .error e) :
    e.cls ≠ .overflowError ∨ ∃ sections settings, data = .dict sections ∧
      sections.get? (text "pipeline") = some (.dict settings) ∧ HasTooLarge settings := by
  have hrequired : ∀ {name : String} {section? : Option Section},
      requireDict name section? = .error e → e.cls ≠ .overflowError :=
    fun hrequire hcls => by cases (requireDict_error hrequire).symm.trans hcls
  have hunknown : ∀ {name : String} {keys : List PyStr} {fields : List String},
      rejectUnknownKeys name keys fields = .error e → e.cls ≠ .overflowError :=
    fun hreject hcls => by cases (rejectUnknownKeys_error hreject).symm.trans hcls
  cases data with
  | other typeName =>
    cases h
    exact .inl ErrorClass.noConfusion
  | dict sections =>
    rcases bind_eq_error.1 h with herror | ⟨⟨⟩, -, h⟩
    · exact .inl (hunknown herror)
    rcases bind_eq_error.1 h with herror | ⟨fdb, -, h⟩
    · exact .inl (hrequired herror)
    rcases bind_eq_error.1 h with herror | ⟨cdc, -, h⟩
    · exact .inl (hrequired herror)
    rcases bind_eq_error.1 h with herror | ⟨kafka, -, h⟩
    · exact .inl (hrequired herror)
    rcases bind_eq_error.1 h with herror | ⟨pipeline, hpipeline, h⟩
    · exact .inl (hrequired herror)
    rcases bind_eq_error.1 h with herror | ⟨⟨⟩, -, h⟩
    · exact .inl (hunknown herror)
    rcases bind_eq_error.1 h with herror | ⟨⟨⟩, -, h⟩
    · exact .inl (hunknown herror)
    rcases bind_eq_error.1 h with herror | ⟨⟨⟩, -, h⟩
    · exact .inl (hunknown herror)
    rcases bind_eq_error.1 h with herror | ⟨⟨⟩, -, h⟩
    · exact .inl (hunknown herror)
    rcases bind_eq_error.1 h with herror | ⟨_, -, h⟩
    · exact .inl (fdbOf_error herror).cls
    rcases bind_eq_error.1 h with herror | ⟨_, -, h⟩
    · exact .inl (cdcOf_error herror).cls
    rcases bind_eq_error.1 h with herror | ⟨_, -, h⟩
    · exact .inl (kafkaOf_error herror).cls
    rcases bind_eq_error.1 h with herror | ⟨_, -, h⟩
    · rcases pipelineOf_error herror with habout | hlarge
      · exact .inl habout.cls
      · exact .inr ⟨sections, pipeline, rfl, hlarge.of_requireDict hpipeline, hlarge⟩
    cases h

end FdbKafkaBridge.Config
