import FdbKafkaBridge.Cdc.Entries
import FdbKafkaBridge.Serialization.Proofs.VersionGroupProofs

/-!
# The records of a reply say what the reply delivers

The serialized records of a reply parse to messages that serialize to the same bytes again, they
fit the budget, and their entries are `replyEntries` of what the reply delivers.
-/

namespace FdbKafkaBridge

open Protobuf (Bytes)
open Serialization ReplayLog

/-- The bytes parse to a message that serializes to them. -/
def Reparses (data : Bytes) : Prop :=
  ∃ record, FDBMutationRecord.parseFromString data = some record ∧
    record.serializeToString = data

/-- A reader can decode the record value. -/
def Decodes (data : Bytes) : Prop :=
  ∃ record, deserializeRecord (.bytes data) = .ok record

theorem reparses_record (e : Envelope) {body : RecordArm} (hbody : body.Valid) :
    Reparses (Wire.record e.name e.timestampNs (some body)) :=
  ⟨_, parseFromString_record e.timestampNs_le hbody, rfl⟩

theorem items_taggedFrom (version first : ℕ) (ms : List NativeMutation) :
    (taggedFrom version first ms).map Mutation.item =
      itemsFrom version first (ms.map NativeMutation.parts) := by
  induction ms generalizing first with
  | nil => rfl
  | cons m ms ih =>
    rw [taggedFrom, List.map_cons, ih]
    rfl

/-! ## One group -/

section Group

variable {e : Envelope} {version : ℕ} {ms : List NativeMutation} {budget : ℤ}
  {slices : List (ℕ × ℕ)} {records : List Bytes}

theorem recordEntries_versionEnd {total : ℕ} (hv : version ≤ maxVersion)
    (htotal : total ≤ maxTotalMutations) :
    recordEntries (versionEndRecord e version total) = [.closed version total] := by
  rw [recordEntries, versionEndRecord, deserializeRecord_versionEnd e hv htotal]
  rfl

theorem recordEntries_batch {slice : ℕ × ℕ} (hv : version ≤ maxVersion)
    (hlen : ms.length ≤ maxTotalMutations) (hlt : slice.1 < slice.2)
    (hle : slice.2 ≤ ms.length) :
    recordEntries (batchRecord e version ms slice) =
      (((itemsFrom version 0 (ms.map NativeMutation.parts)).take slice.2).drop slice.1).map
        .item := by
  rw [recordEntries, deserializeRecord_batchRecord e hv hlen hlt hle, ← items_taggedFrom]
  simp only [RecordBody.entries, List.map_drop, List.map_take, List.map_map]
  rfl

/-- The records of a group say its mutations in order, then its version end. -/
theorem Serialization.GroupRecords.entries (h : GroupRecords e version ms budget slices records) :
    logEntries records = groupLog (version, ms) := by
  obtain ⟨hv, hlen, hcontiguous, hrecords, -⟩ := h
  have hbatches : (slices.map (batchRecord e version ms)).flatMap recordEntries =
      (itemsFrom version 0 (ms.map NativeMutation.parts)).map .item := by
    have hslice : ∀ slice ∈ slices, recordEntries (batchRecord e version ms slice) =
        (((itemsFrom version 0 (ms.map NativeMutation.parts)).map Entry.item).take
          slice.2).drop slice.1 := by
      intro slice hslice
      obtain ⟨hlt, hle⟩ := hcontiguous.mem slice hslice
      rw [recordEntries_batch hv hlen hlt hle, List.map_drop, List.map_take]
    have hall : ((itemsFrom version 0 (ms.map NativeMutation.parts)).map Entry.item).length =
        ms.length := by
      rw [← items_taggedFrom]
      simp
    rw [List.flatMap_map, List.flatMap_def, List.map_congr_left hslice, hcontiguous.flatten,
      List.drop_zero, List.take_of_length_le hall.le]
  rw [hrecords, logEntries, List.flatMap_append, hbatches, List.flatMap_singleton,
    recordEntries_versionEnd hv hlen, groupLog, Int.toNat_natCast]

theorem Serialization.GroupRecords.reparses (h : GroupRecords e version ms budget slices records) :
    ∀ data ∈ records, Reparses data := by
  obtain ⟨hv, hlen, hcontiguous, hrecords, -⟩ := h
  intro data hdata
  rw [hrecords, List.mem_append, List.mem_map, List.mem_singleton] at hdata
  rcases hdata with ⟨slice, hslice, rfl⟩ | rfl
  · obtain ⟨hlt, hle⟩ := hcontiguous.mem slice hslice
    have hlength := length_slice hlt hle
    have hmax : maxTotalMutations = maxSequenceNo := rfl
    exact reparses_record e (Wire.mutationMessages_valid hv _ (by omega))
  · exact reparses_record e (versionEnd_valid e hv hlen)

theorem Serialization.GroupRecords.decodes (h : GroupRecords e version ms budget slices records) :
    ∀ data ∈ records, Decodes data := by
  obtain ⟨hv, hlen, hcontiguous, hrecords, -⟩ := h
  intro data hdata
  rw [hrecords, List.mem_append, List.mem_map, List.mem_singleton] at hdata
  rcases hdata with ⟨slice, hslice, rfl⟩ | rfl
  · obtain ⟨hlt, hle⟩ := hcontiguous.mem slice hslice
    exact ⟨_, deserializeRecord_batchRecord e hv hlen hlt hle⟩
  · exact ⟨_, deserializeRecord_versionEnd e hv hlen⟩

end Group

/-! ## A whole reply -/

section Reply

variable {streamName : PyStr} {maxRecordBytes : ℤ} {timestampNs : PyVal}

/-- Serialized records that say `entries`. -/
structure Says (maxRecordBytes : ℤ) (records : List Bytes) (entries : List LogEntry) : Prop where
  entries : logEntries records = entries
  reparses : ∀ data ∈ records, Reparses data
  decodes : ∀ data ∈ records, Decodes data
  fits : ∀ data ∈ records, (data.length : ℤ) ≤ maxRecordBytes

theorem Says.append {records records' : List Bytes} {entries entries' : List LogEntry}
    (h : Says maxRecordBytes records entries) (h' : Says maxRecordBytes records' entries') :
    Says maxRecordBytes (records ++ records') (entries ++ entries') where
  entries := by rw [logEntries_append, h.entries, h'.entries]
  reparses := by
    intro data hdata
    rcases List.mem_append.1 hdata with hd | hd
    · exact h.reparses data hd
    · exact h'.reparses data hd
  decodes := by
    intro data hdata
    rcases List.mem_append.1 hdata with hd | hd
    · exact h.decodes data hd
    · exact h'.decodes data hd
  fits := by
    intro data hdata
    rcases List.mem_append.1 hdata with hd | hd
    · exact h.fits data hd
    · exact h'.fits data hd

theorem serializeVersionGroup_represents {ps : List PyMutation} {ms : List NativeMutation}
    (hps : List.Forall₂ PyMutation.Represents ps ms) {version : ℤ} {records : List Bytes}
    (h : serializeVersionGroup (.items ps) (.int version) (.int maxRecordBytes) (.str streamName)
      timestampNs = .ok records) :
    Says maxRecordBytes records (groupLog (version, ms)) ∧ 0 ≤ version := by
  obtain ⟨e, v, budget, slices, hv, hbudget, -, -, hrecords, -⟩ := serializeVersionGroup_ok hps h
  obtain rfl : version = v := PyVal.int.inj hv
  obtain rfl : maxRecordBytes = budget := PyVal.int.inj hbudget
  exact ⟨⟨hrecords.entries, hrecords.reparses, hrecords.decodes, hrecords.fits⟩,
    Int.natCast_nonneg v⟩

theorem serializeGroups_represents {cdcGroups : List CdcVersionGroup} {groups : List Group}
    (hgroups : List.Forall₂ (fun (g : CdcVersionGroup) (h : Group) => g.version = h.1 ∧
      ∃ ps, g.mutations = .items ps ∧ List.Forall₂ PyMutation.Represents ps h.2)
      cdcGroups groups) :
    ∀ {acc result : List Bytes × ℤ} {entries : List LogEntry},
      Says maxRecordBytes acc.1 entries →
      serializeGroups streamName maxRecordBytes timestampNs cdcGroups acc = .ok result →
      Says maxRecordBytes result.1 (entries ++ groups.flatMap groupLog) ∧
        result.2 = (groups.getLast?.map Prod.fst).getD acc.2 ∧ ∀ g ∈ groups, 0 ≤ g.1 := by
  induction hgroups with
  | nil =>
    intro acc result entries hacc h
    cases h
    rw [List.flatMap_nil, List.append_nil]
    exact ⟨hacc, rfl, fun g hg => nomatch hg⟩
  | @cons g h cdcGroups groups hg _ ih =>
    intro acc result entries hacc hrun
    obtain ⟨hversion, ps, hps, hrepresents⟩ := hg
    obtain ⟨records, hrecords, hrun⟩ := bind_eq_ok.1 hrun
    rw [hversion, hps] at hrecords
    obtain ⟨hrep, hnonneg⟩ := serializeVersionGroup_represents hrepresents hrecords
    obtain ⟨hall, hlast, hrest⟩ := ih (hacc.append hrep) hrun
    refine ⟨?_, ?_, ?_⟩
    · rw [List.flatMap_cons, ← List.append_assoc]
      exact hall
    · rw [hlast, List.getLast?_cons, hversion]
      cases groups.getLast? <;> rfl
    · intro g' hg'
      rcases List.mem_cons.1 hg' with rfl | hg'
      · exact hnonneg
      · exact hrest g' hg'

theorem serializeWatermark_represents {watermark : ℤ} {record : Bytes}
    (h : serializeWatermark streamName maxRecordBytes timestampNs watermark = .ok record) :
    Says maxRecordBytes [record] [.closed watermark.toNat 0] := by
  obtain ⟨data, hdata, h⟩ := bind_eq_ok.1 h
  by_cases hbig : (data.length : ℤ) > maxRecordBytes
  · rw [if_pos hbig] at h
    cases h
  · rw [if_neg hbig] at h
    cases h
    obtain ⟨e, version, total, hv, hle, htotal, -, -, rfl⟩ := of_serializeVersionEnd_ok hdata
    obtain rfl : watermark = version := PyVal.int.inj hv
    obtain ⟨rfl, -⟩ := @Checks.of_totalMutations_ok 0 total htotal
    have hzero : 0 ≤ maxTotalMutations := Nat.zero_le _
    refine ⟨?_, ?_, ?_, ?_⟩
    · rw [logEntries, List.flatMap_singleton, recordEntries_versionEnd hle hzero,
        Int.toNat_natCast]
    · intro data hmem
      rw [List.mem_singleton] at hmem
      rw [hmem]
      exact reparses_record e (versionEnd_valid e hle hzero)
    · intro data hmem
      rw [List.mem_singleton] at hmem
      rw [hmem]
      exact ⟨_, deserializeRecord_versionEnd e hle hzero⟩
    · intro data hmem
      rw [List.mem_singleton] at hmem
      rw [hmem]
      exact not_lt.1 hbig

/-- The serialized records of a reply say what it delivers. -/
theorem serializeReply_represents {reply : CdcReply} {groups : List Group} {watermark : ℤ}
    (hreply : reply.Delivers groups watermark) {serialized : List Bytes}
    (h : serializeReply streamName maxRecordBytes timestampNs reply = .ok serialized) :
    Says maxRecordBytes serialized (replyEntries groups watermark) ∧ ∀ g ∈ groups, 0 ≤ g.1 := by
  obtain ⟨⟨records, last⟩, hgroups, h⟩ := bind_eq_ok.1 h
  have hnil : Says maxRecordBytes [] [] :=
    ⟨rfl, fun _ hd => (nomatch hd), fun _ hd => (nomatch hd), fun _ hd => nomatch hd⟩
  obtain ⟨hrep, hlast, hnonneg⟩ := serializeGroups_represents hreply.groups hnil hgroups
  rw [List.nil_append] at hrep
  refine ⟨?_, hnonneg⟩
  simp only [hreply.watermark] at h
  have hlastEq : last = lastVersion groups := hlast
  by_cases hpast : 0 ≤ watermark ∧ lastVersion groups < watermark
  · rw [if_pos ⟨hpast.1, hlastEq ▸ hpast.2⟩] at h
    obtain ⟨record, hrecord, h⟩ := bind_eq_ok.1 h
    cases h
    rw [replyEntries, watermarkLog, if_pos hpast]
    exact hrep.append (serializeWatermark_represents hrecord)
  · rw [if_neg (fun hc => hpast ⟨hc.1, hlastEq ▸ hc.2⟩)] at h
    cases h
    rw [replyEntries, watermarkLog, if_neg hpast, List.append_nil]
    exact hrep

theorem parseRecords_ok {serialized : List Bytes} {records : List FDBMutationRecord}
    (hreparses : ∀ data ∈ serialized, Reparses data) (h : parseRecords serialized = .ok records) :
    records.map FDBMutationRecord.serializeToString = serialized := by
  induction serialized generalizing records with
  | nil =>
    cases h
    rfl
  | cons data rest ih =>
    obtain ⟨record, hparse, hbytes⟩ := hreparses data List.mem_cons_self
    rw [parseRecords, hparse] at h
    obtain ⟨others, hothers, h⟩ := bind_eq_ok.1 h
    cases h
    rw [List.map_cons, hbytes, ih (fun d hd => hreparses d (List.mem_cons_of_mem _ hd)) hothers]

/-- The payloads of the records that a poll returns are the serialized records of the reply. -/
theorem recordsOfReply_represents {reply : CdcReply} {groups : List Group} {watermark : ℤ}
    (hreply : reply.Delivers groups watermark) {records : List FDBMutationRecord}
    (h : recordsOfReply streamName maxRecordBytes timestampNs reply = .ok records) :
    serializeReply streamName maxRecordBytes timestampNs reply =
        .ok (records.map FDBMutationRecord.serializeToString) ∧
      Says maxRecordBytes (records.map FDBMutationRecord.serializeToString)
        (replyEntries groups watermark) ∧ ∀ g ∈ groups, 0 ≤ g.1 := by
  unfold recordsOfReply at h
  split at h
  · cases h
  · rename_i serialized hserialized
    obtain ⟨hrep, hnonneg⟩ := serializeReply_represents hreply hserialized
    rw [parseRecords_ok hrep.reparses h]
    exact ⟨hserialized, hrep, hnonneg⟩

end Reply

end FdbKafkaBridge
