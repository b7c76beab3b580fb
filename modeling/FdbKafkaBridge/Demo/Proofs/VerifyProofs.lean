import FdbKafkaBridge.Demo.Proofs.KeyProofs
import Mathlib.Data.Fintype.Card

/-!
# The verifier accepts the correct outputs below 10 ^ 8 operations

A pass over the records keeps what it knows of the mutations and version ends before: the
coordinates by version, the indices, and the totals. It goes on as long as no coordinate, index or
end is repeated and every mutation is as expected. From there on, and because there are as many
mutations as operations, the index in the key is a bijection.
-/

namespace FdbKafkaBridge.Demo

open Collections
open Protobuf (Bytes)
open Serialization

variable {keyPrefix : Bytes} {count : ℤ} {ms ms' : List FDBMutation} {ends ends' : List (ℕ × ℕ)}
  {m : FDBMutation} {s s' : Verification}

/-! ## One pass over the records -/

/-- The index that the verifier reads off the key. -/
def indexOf (keyPrefix : Bytes) (m : FDBMutation) : Option ℕ := indexInKey keyPrefix (nativeOf m).2.1

/-- The operation of a mutation. -/
def IsOperation (keyPrefix : Bytes) (count : ℤ) (m : FDBMutation) : Prop :=
  ∃ i, indexOf keyPrefix m = some i ∧ (i : ℤ) < count ∧ IsExpected keyPrefix i m

/-- Nothing in the records makes the pass over them fail. -/
structure Passes (keyPrefix : Bytes) (count : ℤ) (ms : List FDBMutation) (ends : List (ℕ × ℕ)) :
    Prop where
  coordinates : (ms.map coordinate).Nodup
  indices : (ms.map (indexOf keyPrefix)).Nodup
  operations : ∀ m ∈ ms, IsOperation keyPrefix count m
  endedOnce : (ends.map Prod.fst).Nodup

/-- What the verifier knows of the records before. -/
structure Tracks (keyPrefix : Bytes) (ms : List FDBMutation) (ends : List (ℕ × ℕ))
    (s : Verification) : Prop where
  coordinates : ∀ version n, n ∈ (s.seqsByVersion.get? version).getD ∅ ↔
    (version, n) ∈ ms.map coordinate
  versions : ∀ version, (s.seqsByVersion.get? version).isSome = true ↔
    ∃ m ∈ ms, (coordinate m).1 = version
  seen : ∀ i, i ∈ s.seen ↔ some i ∈ ms.map (indexOf keyPrefix)
  totals : s.totals.entries = ends

/-- How a pass over mutations and version ends comes out. -/
def Outcome (keyPrefix : Bytes) (count : ℤ) (ms : List FDBMutation) (ends : List (ℕ × ℕ)) :
    Except PyExc Verification → Prop
  | .ok s => Tracks keyPrefix ms ends s ∧ Passes keyPrefix count ms ends
  | .error _ => ¬ Passes keyPrefix count ms ends

theorem Passes.of_append (h : Passes keyPrefix count (ms ++ ms') (ends ++ ends')) :
    Passes keyPrefix count ms ends where
  coordinates := by
    have hnodup := h.coordinates
    rw [List.map_append] at hnodup
    exact hnodup.of_append_left
  indices := by
    have hnodup := h.indices
    rw [List.map_append] at hnodup
    exact hnodup.of_append_left
  operations m hm := h.operations m (List.mem_append_left _ hm)
  endedOnce := by
    have hnodup := h.endedOnce
    rw [List.map_append] at hnodup
    exact hnodup.of_append_left

theorem passes_concat : Passes keyPrefix count (ms ++ [m]) ends ↔
    Passes keyPrefix count ms ends ∧ coordinate m ∉ ms.map coordinate ∧
      indexOf keyPrefix m ∉ ms.map (indexOf keyPrefix) ∧ IsOperation keyPrefix count m := by
  have hnodup : ∀ {α : Type} (f : FDBMutation → α),
      ((ms ++ [m]).map f).Nodup ↔ (ms.map f).Nodup ∧ f m ∉ ms.map f := by
    intro α f
    rw [List.map_append, List.map_singleton, ← List.concat_eq_append, List.nodup_concat, and_comm]
  constructor
  · intro h
    obtain ⟨-, hcoordinate⟩ := (hnodup coordinate).1 h.coordinates
    obtain ⟨-, hindex⟩ := (hnodup (indexOf keyPrefix)).1 h.indices
    have hoperation := h.operations m (List.mem_append_right _ List.mem_cons_self)
    rw [← List.append_nil ends] at h
    exact ⟨h.of_append, hcoordinate, hindex, hoperation⟩
  · rintro ⟨h, hcoordinate, hindex, hoperation⟩
    refine ⟨(hnodup _).2 ⟨h.coordinates, hcoordinate⟩, (hnodup _).2 ⟨h.indices, hindex⟩, ?_,
      h.endedOnce⟩
    intro m' hm'
    rcases List.mem_append.1 hm' with hm' | hm'
    · exact h.operations m' hm'
    · rw [List.mem_singleton.1 hm']
      exact hoperation

theorem tracks_empty : Tracks keyPrefix [] [] Verification.empty where
  coordinates := by simp [Verification.empty]
  versions := by simp [Verification.empty]
  seen := by simp [Verification.empty]
  totals := rfl

/-- The coordinates after that of a mutation was noted. -/
theorem Tracks.addCoordinate (h : Tracks keyPrefix ms ends s) (version n : ℕ) :
    n ∈ ((s.seqsByVersion.set (coordinate m).1 (insert (coordinate m).2
        ((s.seqsByVersion.get? (coordinate m).1).getD ∅))).get? version).getD ∅ ↔
      (version, n) ∈ (ms ++ [m]).map coordinate := by
  rw [List.map_append, List.mem_append, List.map_singleton, List.mem_singleton, ← h.coordinates,
    Dict.get?_set]
  by_cases hversion : version = (coordinate m).1
  · subst hversion
    rw [if_pos rfl, Option.getD_some, Finset.mem_insert, Prod.ext_iff]
    simp [or_comm]
  · rw [if_neg hversion, Prod.ext_iff]
    simp [hversion]

theorem checkCoordinate_of_mem (h : Tracks keyPrefix ms ends s)
    (hmem : coordinate m ∈ ms.map coordinate) : ∃ exc, checkCoordinate m s = .error exc := by
  have hseq := (h.coordinates (coordinate m).1 (coordinate m).2).2 hmem
  exact ⟨_, if_pos hseq⟩

theorem checkCoordinate_of_notMem (h : Tracks keyPrefix ms ends s)
    (hnot : coordinate m ∉ ms.map coordinate) :
    checkCoordinate m s = .ok { s with
      seqsByVersion := s.seqsByVersion.set (coordinate m).1
        (insert (coordinate m).2 ((s.seqsByVersion.get? (coordinate m).1).getD ∅)) } := by
  have hseq : (coordinate m).2 ∉ (s.seqsByVersion.get? (coordinate m).1).getD ∅ :=
    fun hmem => hnot ((h.coordinates _ _).1 hmem)
  exact if_neg hseq

/-- The state once the coordinate of `m` was noted. -/
def noteCoordinate (m : FDBMutation) (s : Verification) : Verification :=
  { s with
    seqsByVersion := s.seqsByVersion.set (coordinate m).1
      (insert (coordinate m).2 ((s.seqsByVersion.get? (coordinate m).1).getD ∅)) }

theorem Tracks.addOperation (h : Tracks keyPrefix ms ends s) {i : ℕ}
    (hi : indexOf keyPrefix m = some i) (counts : Dict ℤ ℕ) :
    Tracks keyPrefix (ms ++ [m]) ends
      { noteCoordinate m s with seen := insert i s.seen, typeCounts := counts } where
  coordinates := h.addCoordinate
  versions version := by
    show ((s.seqsByVersion.set _ _).get? version).isSome = true ↔ _
    rw [Dict.get?_set]
    by_cases hversion : version = (coordinate m).1
    · rw [if_pos hversion]
      simp [hversion]
    · rw [if_neg hversion, h.versions]
      simp [Ne.symm hversion]
  seen j := by
    show j ∈ insert i s.seen ↔ _
    rw [Finset.mem_insert, h.seen, List.map_append, List.mem_append, List.map_singleton, hi]
    simp [or_comm]
  totals := h.totals

theorem checkOperation_cases (keyPrefix : Bytes) (count : ℤ) (m : FDBMutation) (s : Verification) :
    (∃ i counts, indexOf keyPrefix m = some i ∧ (i : ℤ) < count ∧ i ∉ s.seen ∧
      IsExpected keyPrefix i m ∧ checkOperation keyPrefix count m s =
        .ok { s with seen := insert i s.seen, typeCounts := counts }) ∨
    ∃ exc, checkOperation keyPrefix count m s = .error exc ∧
      ∀ i, indexOf keyPrefix m = some i → (i : ℤ) < count → IsExpected keyPrefix i m → i ∈ s.seen := by
  unfold checkOperation
  simp only
  cases hindex : indexInKey keyPrefix (nativeOf m).2.1 with
  | none =>
    refine .inr ⟨_, rfl, ?_⟩
    intro i hi
    rw [indexOf, hindex] at hi
    cases hi
  | some index =>
    have hsame : ∀ i, indexOf keyPrefix m = some i → i = index := by
      intro i hi
      rw [indexOf, hindex] at hi
      exact (Option.some.inj hi).symm
    simp only
    by_cases hrepeated : (index : ℤ) ≥ count ∨ index ∈ s.seen
    · rw [if_pos hrepeated]
      refine .inr ⟨_, rfl, ?_⟩
      intro i hi hlt _
      rw [hsame i hi] at hlt ⊢
      rcases hrepeated with hge | hseen
      · omega
      · exact hseen
    · rw [if_neg hrepeated]
      rw [not_or, ge_iff_le, not_le] at hrepeated
      by_cases hmatch : (expectedMutation keyPrefix index).matches (nativeOf m).1 (nativeOf m).2.1
        (nativeOf m).2.2 = true
      · rw [if_pos hmatch]
        exact .inl ⟨index, _, hindex, hrepeated.1, hrepeated.2, hmatch, rfl⟩
      · rw [if_neg hmatch]
        refine .inr ⟨_, rfl, ?_⟩
        intro i hi _ hexpected
        rw [hsame i hi] at hexpected
        exact absurd hexpected hmatch

theorem check_outcome (h : Tracks keyPrefix ms ends s) (hpasses : Passes keyPrefix count ms ends)
    (m : FDBMutation) : Outcome keyPrefix count (ms ++ [m]) ends (check keyPrefix count m s) := by
  unfold check
  by_cases hcoordinate : coordinate m ∈ ms.map coordinate
  · obtain ⟨exc, herror⟩ := checkCoordinate_of_mem h hcoordinate
    rw [herror]
    exact fun hall => (passes_concat.1 hall).2.1 hcoordinate
  have hnote : checkCoordinate m s = .ok (noteCoordinate m s) :=
    checkCoordinate_of_notMem h hcoordinate
  rw [hnote]
  show Outcome _ _ _ _ (checkOperation keyPrefix count m (noteCoordinate m s))
  rcases checkOperation_cases keyPrefix count m (noteCoordinate m s) with
    ⟨i, counts, hi, hlt, hseen, hexpected, hok⟩ | ⟨exc, herror, hseen⟩
  · rw [hok]
    have hnew : indexOf keyPrefix m ∉ ms.map (indexOf keyPrefix) := by
      rw [hi]
      exact fun hmem => hseen ((h.seen i).2 hmem)
    exact ⟨h.addOperation hi counts,
      passes_concat.2 ⟨hpasses, hcoordinate, hnew, i, hi, hlt, hexpected⟩⟩
  · rw [herror]
    intro hall
    obtain ⟨-, -, hnew, i, hi, hlt, hexpected⟩ := passes_concat.1 hall
    have hmem := (h.seen i).1 (hseen i hi hlt hexpected)
    rw [← hi] at hmem
    exact hnew hmem

theorem checkVersionEnd_outcome (h : Tracks keyPrefix ms ends s)
    (hpasses : Passes keyPrefix count ms ends) (ve : VersionEndMessage) :
    Outcome keyPrefix count ms (ends ++ [(ve.fdbVersion, ve.totalMutations)])
      (checkVersionEnd ve s) := by
  have hkeys : (s.totals.get? ve.fdbVersion).isSome = true ↔ ve.fdbVersion ∈ ends.map Prod.fst := by
    rw [Option.isSome_iff_exists, ← h.totals]
    constructor
    · rintro ⟨total, htotal⟩
      exact List.mem_map.2 ⟨_, (Dict.mem_entries _).2 htotal, rfl⟩
    · intro hmem
      obtain ⟨⟨version, total⟩, hentry, rfl⟩ := List.mem_map.1 hmem
      exact ⟨total, (Dict.mem_entries _).1 hentry⟩
  have hnodup : ((ends ++ [(ve.fdbVersion, ve.totalMutations)]).map Prod.fst).Nodup ↔
      (ends.map Prod.fst).Nodup ∧ ve.fdbVersion ∉ ends.map Prod.fst := by
    rw [List.map_append, List.map_singleton, ← List.concat_eq_append, List.nodup_concat, and_comm]
  unfold checkVersionEnd
  by_cases hsome : (s.totals.get? ve.fdbVersion).isSome = true
  · rw [if_pos hsome]
    exact fun hall => (hnodup.1 hall.endedOnce).2 (hkeys.1 hsome)
  · rw [if_neg hsome]
    have hnone : s.totals.get? ve.fdbVersion = none := by simpa using hsome
    refine ⟨⟨h.coordinates, h.versions, h.seen, ?_⟩, ⟨hpasses.coordinates, hpasses.indices,
      hpasses.operations, hnodup.2 ⟨hpasses.endedOnce, fun hmem => hsome (hkeys.2 hmem)⟩⟩⟩
    show (s.totals.set _ _).entries = _
    rw [Dict.entries_set_of_none _ _ hnone, h.totals]

/-- A pass that goes on after an outcome. -/
theorem Outcome.bind {r : Except PyExc Verification} (h : Outcome keyPrefix count ms ends r)
    {f : Verification → Except PyExc Verification}
    (hf : ∀ s, Tracks keyPrefix ms ends s → Passes keyPrefix count ms ends →
      Outcome keyPrefix count (ms ++ ms') (ends ++ ends') (f s)) :
    Outcome keyPrefix count (ms ++ ms') (ends ++ ends') (r >>= f) := by
  cases r with
  | ok s => exact hf s h.1 h.2
  | error exc => exact fun hall => h hall.of_append

theorem checkAll_outcome (ms' : List FDBMutation) (h : Tracks keyPrefix ms ends s)
    (hpasses : Passes keyPrefix count ms ends) :
    Outcome keyPrefix count (ms ++ ms') ends (checkAll keyPrefix count ms' s) := by
  induction ms' generalizing ms s with
  | nil =>
    rw [List.append_nil]
    exact ⟨h, hpasses⟩
  | cons m rest ih =>
    have hhead := check_outcome h hpasses m
    rw [List.append_cons, ← List.append_nil ends]
    refine hhead.bind ?_
    intro s' h' hpasses'
    rw [List.append_nil]
    exact ih h' hpasses'

theorem checkRecord_outcome (rec : FDBMutationRecord) (h : Tracks keyPrefix ms ends s)
    (hpasses : Passes keyPrefix count ms ends) :
    Outcome keyPrefix count (ms ++ mutationsOfRecord rec) (ends ++ versionEndsOfRecord rec)
      (checkRecord keyPrefix count rec s) := by
  unfold mutationsOfRecord versionEndsOfRecord checkRecord
  rcases rec.record with _ | m | ve | batch
  · simp only [List.append_nil]
    exact ⟨h, hpasses⟩
  · simp only [List.append_nil]
    exact check_outcome h hpasses m
  · simp only [List.append_nil]
    exact checkVersionEnd_outcome h hpasses ve
  · simp only [List.append_nil]
    exact checkAll_outcome batch.mutations h hpasses

theorem checkRecords_outcome (records : List FDBMutationRecord) (h : Tracks keyPrefix ms ends s)
    (hpasses : Passes keyPrefix count ms ends) :
    Outcome keyPrefix count (ms ++ mutationsOf records) (ends ++ versionEndsOf records)
      (checkRecords keyPrefix count records s) := by
  induction records generalizing ms ends s with
  | nil =>
    rw [mutationsOf, versionEndsOf, List.flatMap_nil, List.flatMap_nil, List.append_nil,
      List.append_nil]
    exact ⟨h, hpasses⟩
  | cons rec records ih =>
    have hhead := checkRecord_outcome rec h hpasses
    rw [mutationsOf, versionEndsOf, List.flatMap_cons, List.flatMap_cons, ← List.append_assoc,
      ← List.append_assoc]
    exact hhead.bind fun s' h' hpasses' => ih h' hpasses'

/-! ## The checks after the pass -/

/-- Different mutations have different indices, so as many were seen as there are mutations. -/
theorem card_seen (h : Tracks keyPrefix ms ends s) (hpasses : Passes keyPrefix count ms ends) :
    s.seen.card = ms.length := by
  have himage : s.seen.map ⟨some, Option.some_injective ℕ⟩ =
      (ms.map (indexOf keyPrefix)).toFinset := by
    ext index
    rw [Finset.mem_map, List.mem_toFinset]
    constructor
    · rintro ⟨i, hi, rfl⟩
      exact (h.seen i).1 hi
    · intro hmem
      obtain ⟨m, hm, rfl⟩ := List.mem_map.1 hmem
      obtain ⟨i, hi, -, -⟩ := hpasses.operations m hm
      rw [hi] at hmem ⊢
      exact ⟨i, (h.seen i).2 hmem, rfl⟩
  rw [← Finset.card_map ⟨some, Option.some_injective ℕ⟩, himage,
    List.toFinset_card_of_nodup hpasses.indices, List.length_map]

theorem checkSeen_ok : checkSeen count s = .ok () ↔ (s.seen.card : ℤ) = count := by
  unfold checkSeen
  by_cases hcard : (s.seen.card : ℤ) = count
  · simp [hcard]
  · simp [hcard]

theorem checkEnded_ok {totals : Dict ℕ ℕ} {entries : List (ℕ × Finset ℕ)} :
    checkEnded totals entries = .ok () ↔
      ∀ entry ∈ entries, (totals.get? entry.1).isSome = true := by
  induction entries with
  | nil => simp [checkEnded]
  | cons entry rest ih =>
    rw [checkEnded]
    by_cases hnone : (totals.get? entry.1).isNone = true
    · simp [Option.isNone_iff_eq_none.1 hnone]
    · rw [if_neg hnone, ih]
      have hsome : (totals.get? entry.1).isSome = true := by
        rw [Option.isSome_iff_ne_none]
        simpa using hnone
      simp [hsome]

theorem checkTotals_ok {seqsByVersion : Dict ℕ (Finset ℕ)} {entries : List (ℕ × ℕ)} :
    checkTotals seqsByVersion entries = .ok () ↔
      ∀ entry ∈ entries, (seqsByVersion.get? entry.1).getD ∅ = Finset.range entry.2 := by
  induction entries with
  | nil => simp [checkTotals]
  | cons entry rest ih =>
    rw [checkTotals]
    by_cases hrange : (seqsByVersion.get? entry.1).getD ∅ = Finset.range entry.2
    · simp [hrange, ih]
    · simp [hrange]

theorem checkSum_ok : checkSum count s = .ok () ↔
    ((s.totals.entries.map Prod.snd).sum : ℤ) = count := by
  simp [checkSum]

/-- What the checks after the pass ask for. -/
theorem checks_ok (h : Tracks keyPrefix ms ends s) (hpasses : Passes keyPrefix count ms ends) :
    (checkSeen count s = .ok () ∧ checkEnded s.totals s.seqsByVersion.entries = .ok () ∧
      checkTotals s.seqsByVersion s.totals.entries = .ok () ∧ checkSum count s = .ok ()) ↔
    (ms.length : ℤ) = count ∧ Reconciles ms ends ∧ ((ends.map Prod.snd).sum : ℤ) = count := by
  rw [checkSeen_ok, checkEnded_ok, checkTotals_ok, checkSum_ok, card_seen h hpasses, h.totals]
  have hended : (∀ entry ∈ s.seqsByVersion.entries, (s.totals.get? entry.1).isSome = true) ↔
      ∀ m ∈ ms, ∃ total, ((coordinate m).1, total) ∈ ends := by
    have htotal : ∀ version, (s.totals.get? version).isSome = true ↔
        ∃ total, (version, total) ∈ ends := by
      intro version
      rw [Option.isSome_iff_exists, ← h.totals]
      exact exists_congr fun total => (Dict.mem_entries _).symm
    constructor
    · intro hall m hm
      obtain ⟨seqs, hseqs⟩ := Option.isSome_iff_exists.1 ((h.versions _).2 ⟨m, hm, rfl⟩)
      exact (htotal _).1 (hall _ ((Dict.mem_entries _).2 hseqs))
    · rintro hall ⟨version, seqs⟩ hentry
      have hsome : (s.seqsByVersion.get? version).isSome = true :=
        Option.isSome_iff_exists.2 ⟨seqs, (Dict.mem_entries _).1 hentry⟩
      obtain ⟨m, hm, rfl⟩ := (h.versions version).1 hsome
      exact (htotal _).2 (hall m hm)
  have hexact : (∀ entry ∈ ends,
      (s.seqsByVersion.get? entry.1).getD ∅ = Finset.range entry.2) ↔
      ∀ version total, (version, total) ∈ ends →
        ∀ n, (version, n) ∈ ms.map coordinate ↔ n < total := by
    constructor
    · intro hall version total hend n
      rw [← h.coordinates, hall _ hend, Finset.mem_range]
    · rintro hall ⟨version, total⟩ hend
      ext n
      rw [h.coordinates, hall version total hend, Finset.mem_range]
  rw [hended, hexact]
  constructor
  · rintro ⟨hlength, hended, hexact, hsum⟩
    exact ⟨hlength, ⟨hpasses.coordinates, hended, hpasses.endedOnce, hexact⟩, hsum⟩
  · rintro ⟨hlength, hreconciles, hsum⟩
    exact ⟨hlength, hreconciles.ended, hreconciles.exact, hsum⟩

/-- The verifier returns when the pass goes through and the checks after it do. -/
theorem accepts_iff {records : List FDBMutationRecord} : Accepts records keyPrefix count ↔
    Passes keyPrefix count (mutationsOf records) (versionEndsOf records) ∧
      ((mutationsOf records).length : ℤ) = count ∧
      Reconciles (mutationsOf records) (versionEndsOf records) ∧
      (((versionEndsOf records).map Prod.snd).sum : ℤ) = count := by
  have hempty : Passes keyPrefix count [] [] :=
    ⟨List.nodup_nil, List.nodup_nil, by simp, List.nodup_nil⟩
  have houtcome := checkRecords_outcome records tracks_empty hempty
  rw [List.nil_append, List.nil_append] at houtcome
  unfold Accepts verifyWorkload
  cases hpass : checkRecords keyPrefix count records Verification.empty with
  | error exc =>
    rw [hpass] at houtcome
    constructor
    · rintro ⟨counts, hcounts⟩
      cases hcounts
    · rintro ⟨hpasses, -⟩
      exact absurd hpasses houtcome
  | ok s =>
    rw [hpass] at houtcome
    obtain ⟨htracks, hpasses⟩ := houtcome
    have hchecks := checks_ok htracks hpasses
    constructor
    · rintro ⟨counts, hcounts⟩
      obtain ⟨_, hs, hcounts⟩ := bind_eq_ok.1 hcounts
      cases hs
      obtain ⟨_, hseen, hcounts⟩ := bind_eq_ok.1 hcounts
      obtain ⟨_, hended, hcounts⟩ := bind_eq_ok.1 hcounts
      obtain ⟨_, htotals, hcounts⟩ := bind_eq_ok.1 hcounts
      obtain ⟨_, hsum, -⟩ := bind_eq_ok.1 hcounts
      exact ⟨hpasses, hchecks.1 ⟨hseen, hended, htotals, hsum⟩⟩
    · rintro ⟨-, hall⟩
      obtain ⟨hseen, hended, htotals, hsum⟩ := hchecks.2 hall
      refine ⟨s.typeCounts, ?_⟩
      show (checkSeen count s >>= fun _ => _) = _
      rw [hseen]
      show (checkEnded s.totals s.seqsByVersion.entries >>= fun _ => _) = _
      rw [hended]
      show (checkTotals s.seqsByVersion s.totals.entries >>= fun _ => _) = _
      rw [htotals]
      show (checkSum count s >>= fun _ => _) = _
      rw [hsum]
      rfl

/-! ## The bijection with the operations -/

/-- The operations of a count that is not negative. -/
def operationsEquiv (n : ℕ) : {i : ℕ // (i : ℤ) < n} ≃ Fin n :=
  (Equiv.subtypeEquivRight fun _ => Int.ofNat_lt).trans Fin.equivSubtype.symm

/-- A pass over as many mutations as operations reads a bijection off the keys. The keys have eight
digits each, so there are at most 10 ^ 8. -/
theorem Passes.bijection (h : Passes keyPrefix count ms ends) (hlength : (ms.length : ℤ) = count) :
    (∃ index : Fin ms.length ≃ {i : ℕ // (i : ℤ) < count}, ∀ j, IsExpected keyPrefix (index j) ms[j]) ∧
      count ≤ 10 ^ 8 := by
  subst hlength
  have hoperation : ∀ j : Fin ms.length, IsOperation keyPrefix ms.length ms[j] :=
    fun j => h.operations _ (List.getElem_mem j.isLt)
  choose index hindex hlt hexpected using hoperation
  have hinjective : Function.Injective index := by
    intro j k hjk
    have hsame : indexOf keyPrefix ms[j] = indexOf keyPrefix ms[k] := by
      rw [hindex, hindex, hjk]
    have hnodup := List.nodup_iff_injective_get.1 h.indices
    have hget : (ms.map (indexOf keyPrefix)).get (j.cast (by simp)) =
        (ms.map (indexOf keyPrefix)).get (k.cast (by simp)) := by
      simpa using hsame
    have heq := hnodup hget
    exact Fin.ext (by simpa using congrArg Fin.val heq)
  constructor
  · let toFin : Fin ms.length → Fin ms.length :=
      fun j => operationsEquiv ms.length ⟨index j, hlt j⟩
    have htoFin : Function.Injective toFin := by
      intro j k hjk
      have hsame := (operationsEquiv ms.length).injective hjk
      exact hinjective (Subtype.mk.inj hsame)
    refine ⟨(Equiv.ofBijective toFin (Finite.injective_iff_bijective.1 htoFin)).trans
      (operationsEquiv ms.length).symm, ?_⟩
    intro j
    have hj : (operationsEquiv ms.length).symm (toFin j) = ⟨index j, hlt j⟩ := by
      simp [toFin]
    rw [Equiv.trans_apply, Equiv.ofBijective_apply, hj]
    exact hexpected j
  · let small : Fin ms.length → Fin (10 ^ 8) := fun j => ⟨index j, indexInKey_lt (hindex j)⟩
    have hsmall : Function.Injective small := fun j k hjk => hinjective (Fin.mk.inj hjk)
    have hcard := Fintype.card_le_of_injective small hsmall
    rw [Fintype.card_fin, Fintype.card_fin] at hcard
    exact_mod_cast hcard

/-- Below 10 ^ 8 operations the index in the key is the one of the bijection. -/
theorem passes_of_bijection {index : Fin ms.length ≃ {i : ℕ // (i : ℤ) < count}}
    (hexpected : ∀ j, IsExpected keyPrefix (index j) ms[j]) (hcount : count ≤ 10 ^ 8)
    (hcoordinates : (ms.map coordinate).Nodup) (hended : (ends.map Prod.fst).Nodup) :
    Passes keyPrefix count ms ends := by
  have hindex : ∀ j : Fin ms.length, indexOf keyPrefix ms[j] = some (index j) := by
    intro j
    have hlt := (index j).2
    exact indexInKey_of_isExpected (hexpected j) (by omega)
  refine ⟨hcoordinates, ?_, ?_, hended⟩
  · rw [List.nodup_iff_injective_get]
    intro j k hjk
    have hj := hindex (j.cast (by simp))
    have hk := hindex (k.cast (by simp))
    have hsame : (index (j.cast (by simp)) : ℕ) = index (k.cast (by simp)) := by
      have hget : indexOf keyPrefix ms[j] = indexOf keyPrefix ms[k] := by simpa using hjk
      exact Option.some.inj ((hj.symm.trans hget).trans hk)
    have heq := index.injective (Subtype.ext hsame)
    exact Fin.ext (by simpa using congrArg Fin.val heq)
  · intro m hm
    obtain ⟨j, hj, rfl⟩ := List.mem_iff_getElem.1 hm
    exact ⟨_, hindex ⟨j, hj⟩, (index ⟨j, hj⟩).2, hexpected ⟨j, hj⟩⟩

theorem length_of_bijection (index : Fin ms.length ≃ {i : ℕ // (i : ℤ) < count})
    (hcount : 0 ≤ count) : (ms.length : ℤ) = count := by
  obtain ⟨n, rfl⟩ := Int.eq_ofNat_of_zero_le hcount
  have hcard := Fintype.card_congr (index.trans (operationsEquiv n))
  rw [Fintype.card_fin, Fintype.card_fin] at hcard
  rw [hcard]

/-- The verifier returns for the correct outputs of at most 10 ^ 8 operations. -/
theorem accepts_iff_isCorrectOutput {records : List FDBMutationRecord} :
    Accepts records keyPrefix count ↔
      IsCorrectOutput records keyPrefix count ∧ count ≤ 10 ^ 8 := by
  rw [accepts_iff]
  constructor
  · rintro ⟨hpasses, hlength, hreconciles, hsum⟩
    obtain ⟨hbijection, hcount⟩ := hpasses.bijection hlength
    exact ⟨⟨hbijection, hreconciles, hsum⟩, hcount⟩
  · rintro ⟨⟨⟨index, hexpected⟩, hreconciles, hsum⟩, hcount⟩
    have hnonneg : 0 ≤ count := by
      rw [← hsum]
      exact Int.natCast_nonneg _
    exact ⟨passes_of_bijection hexpected hcount hreconciles.coordinates hreconciles.endedOnce,
      length_of_bijection index hnonneg, hreconciles, hsum⟩

end FdbKafkaBridge.Demo
