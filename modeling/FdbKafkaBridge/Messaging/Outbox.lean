import Mathlib.Tactic

/-!
# Outboxes

An outbox accepts messages and reports on each of them once, in any order: it was delivered, or
there was an error. When nothing is pending and no error was reported, everything was delivered.
-/

namespace Messaging

variable {ε : Type}

/-- The messages are numbered in the order in which they were accepted. -/
structure Outbox (ε : Type) where
  accepted : ℕ
  /-- The messages that have not been reported on. -/
  pending : Finset ℕ
  /-- The report on a message: `some none` says that it was delivered. -/
  outcome : ℕ → Option (Option ε)

namespace Outbox

def empty : Outbox ε := ⟨0, ∅, fun _ => none⟩

def accept (q : Outbox ε) : Outbox ε :=
  { q with accepted := q.accepted + 1, pending := insert q.accepted q.pending }

def report (q : Outbox ε) (i : ℕ) (error : Option ε) : Outbox ε :=
  { q with pending := q.pending.erase i
           outcome := Function.update q.outcome i (some error) }

/-- The reports on some of the pending messages, in some order. -/
inductive Reports : Outbox ε → List (Option ε) → Outbox ε → Prop
  | none (q : Outbox ε) : Reports q [] q
  | one {q q' : Outbox ε} {i : ℕ} {error : Option ε} {errors : List (Option ε)}
      (h : i ∈ q.pending) (rest : Reports (q.report i error) errors q') :
      Reports q (error :: errors) q'

/-- Every message is pending or was reported on, and the errors in `errors` are all there were. -/
structure Accounted (q : Outbox ε) (errors : List ε) : Prop where
  reported : ∀ i < q.accepted, i ∈ q.pending ∨ ∃ error, q.outcome i = some error
  known : ∀ i error, q.outcome i = some (some error) → error ∈ errors

variable {q q' : Outbox ε} {errors : List ε}

theorem accounted_empty : Accounted (empty : Outbox ε) [] where
  reported i hi := absurd hi (Nat.not_lt_zero i)
  known _ _ h := nomatch h

theorem Accounted.accept (h : q.Accounted errors) : q.accept.Accounted errors where
  reported i hi := by
    rcases Nat.lt_succ_iff_lt_or_eq.1 hi with hlt | rfl
    · exact (h.reported i hlt).imp (Finset.mem_insert_of_mem) id
    · exact .inl (Finset.mem_insert_self _ _)
  known := h.known

theorem Accounted.report (h : q.Accounted errors) (i : ℕ) (error : Option ε) :
    (q.report i error).Accounted (errors ++ error.toList) where
  reported j hj := by
    by_cases hji : j = i
    · subst hji
      exact .inr ⟨error, Function.update_self _ _ _⟩
    · rcases h.reported j hj with hpending | ⟨error', houtcome⟩
      · exact .inl (Finset.mem_erase.2 ⟨hji, hpending⟩)
      · exact .inr ⟨error', (Function.update_of_ne hji _ _).trans houtcome⟩
  known j error' houtcome := by
    by_cases hji : j = i
    · subst hji
      obtain rfl : error = some error' := by simpa [Outbox.report] using houtcome
      exact List.mem_append_right _ (List.mem_singleton_self _)
    · exact List.mem_append_left _
        (h.known j error' ((Function.update_of_ne hji _ _).symm.trans houtcome))

theorem Accounted.reports {reports : List (Option ε)} (h : q.Accounted errors)
    (hreports : Reports q reports q') : q'.Accounted (errors ++ reports.filterMap id) := by
  induction hreports generalizing errors with
  | none q =>
    rw [List.filterMap_nil, List.append_nil]
    exact h
  | @one q q' i error reports _ _ ih =>
    have hrest := ih (h.report i error)
    rw [List.append_assoc] at hrest
    have hcons : (error :: reports).filterMap id = error.toList ++ reports.filterMap id := by
      cases error <;> rfl
    rwa [hcons]

/-- Nothing is pending and nothing failed, so every message was delivered. -/
theorem Accounted.delivered (h : q.Accounted []) (hpending : q.pending = ∅) {i : ℕ}
    (hi : i < q.accepted) : q.outcome i = some none := by
  rcases h.reported i hi with hmem | ⟨error, houtcome⟩
  · rw [hpending] at hmem
    exact absurd hmem (Finset.notMem_empty i)
  · cases error with
    | none => exact houtcome
    | some error => exact absurd (h.known i error houtcome) List.not_mem_nil

end Outbox

end Messaging
