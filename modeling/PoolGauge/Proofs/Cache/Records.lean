import Mathlib.Data.List.Infix
import PoolGauge.Cache.Basic

/-!
# What a cache records

The fields of a cache are functions of the outcomes of the attempts that have ended, the latest
first.
-/
namespace PoolGauge

/-- The outcomes of attempts, as the calls that made them are told. -/
abbrev Outcome : Type :=
  Except Failure Published

namespace Outcome

def failed : Outcome → Bool
  | .ok _ => false
  | .error _ => true

/-- What a call is told that shares the outcome of an attempt. -/
def share : Outcome → Outcome
  | .ok published => .ok published
  | .error _ => .error (.unavailable "concurrent collection failed")

def published (outcomes : List Outcome) : List Published :=
  outcomes.filterMap Except.toOption

@[simp] theorem published_cons_ok (p : Published) (outcomes : List Outcome) :
    published (.ok p :: outcomes) = p :: published outcomes := rfl

end Outcome

theorem Timestamp.seconds_of_neg {t : Timestamp} (h : t.nanoseconds < 0) : t.seconds = 0 := by
  rw [Timestamp.seconds, Int.toNat_of_nonpos (Int.le_of_lt h)]
  decide +kernel

namespace Cache

/-- A cache is in agreement with the attempts that have ended. -/
structure Records (c : Cache) (outcomes : List Outcome) : Prop where
  generation : c.generation = .ofNat outcomes.length
  failures : c.metrics.failures = .ofNat (outcomes.countP Outcome.failed)
  healthy : c.healthy = true ↔ ∃ p, outcomes.head? = some (.ok p)
  up : c.metrics.up = if c.healthy then 1 else 0
  current : c.current = (Outcome.published outcomes).head?
  collectedAt : c.metrics.collectedAt = c.current.elim 0 fun p => p.snapshot.collectedAt.seconds
  duration : c.metrics.duration = c.current.elim 0 fun p => p.snapshot.duration.seconds
  numbered : (Outcome.published outcomes).map Published.id = (List.range c.publications).reverse

variable {c : Cache} {outcomes : List Outcome}

theorem records_empty : Records empty [] where
  generation := rfl
  failures := rfl
  healthy := by simp [empty]
  up := by decide +kernel
  current := rfl
  collectedAt := by decide +kernel
  duration := by decide +kernel
  numbered := rfl

theorem Records.finish (h : c.Records outcomes) (outcome : Except Failure Snapshot) :
    (c.finish outcome).Records (c.tell outcome :: outcomes) := by
  have hgeneration : c.generation + 1 = .ofNat (outcomes.length + 1) := by
    rw [h.generation, UInt64.ofNat_add]
    rfl
  cases outcome with
  | ok snapshot =>
    exact {
      generation := hgeneration
      failures := h.failures
      healthy := by simp [Cache.finish, tell, Except.map]
      up := by
        show Number.nearest 1 1 = 1
        decide +kernel
      current := rfl
      collectedAt := rfl
      duration := rfl
      numbered := by
        simp only [Cache.finish, tell, Except.map, Outcome.published_cons_ok, List.map_cons,
          h.numbered, List.range_succ, List.reverse_append, List.reverse_singleton,
          List.singleton_append] }
  | error failure =>
    exact {
      generation := hgeneration
      failures := by
        have hfailures : c.metrics.failures + 1 =
            .ofNat (outcomes.countP Outcome.failed + 1) := by
          rw [h.failures, UInt64.ofNat_add]
          rfl
        rw [List.countP_cons_of_pos rfl]
        exact hfailures
      healthy := by simp [Cache.finish, tell, Except.map]
      up := by
        show Number.nearest 0 1 = 0
        decide +kernel
      current := h.current
      collectedAt := h.collectedAt
      duration := h.duration
      numbered := h.numbered }

/-- A call that shares is told about the attempt that ended last. -/
theorem Records.shared {outcome : Outcome} (h : c.Records (outcome :: outcomes)) :
    c.shared = outcome.share := by
  have hcurrent := h.current
  have hhealthy := h.healthy
  cases outcome with
  | ok p =>
    rw [Outcome.published_cons_ok, List.head?_cons] at hcurrent
    simp only [List.head?_cons, Option.some.injEq, Except.ok.injEq, exists_eq', iff_true]
      at hhealthy
    rw [Cache.shared, hcurrent, hhealthy]
    rfl
  | error failure =>
    have hsick : c.healthy = false := by simpa using hhealthy
    rw [Cache.shared, hsick]
    rfl

theorem Records.up_eq_one_iff (h : c.Records outcomes) :
    c.metrics.up = 1 ↔ c.healthy = true := by
  rw [h.up]
  cases c.healthy
  · simpa using (by decide +kernel : (0 : Float) ≠ 1)
  · simp

theorem Records.up_eq_zero_iff (h : c.Records outcomes) :
    c.metrics.up = 0 ↔ c.healthy = false := by
  rw [h.up]
  cases c.healthy
  · simp
  · simpa using (by decide +kernel : (1 : Float) ≠ 0)

theorem Records.current_isSome (h : c.Records outcomes) (hhealthy : c.healthy = true) :
    c.current.isSome := by
  obtain ⟨p, hp⟩ := h.healthy.mp hhealthy
  obtain ⟨older, rfl⟩ := List.head?_eq_some_iff.mp hp
  rw [h.current, Outcome.published_cons_ok]
  rfl

theorem Records.ids (h : c.Records outcomes) : (Outcome.published outcomes).map Published.id =
    (List.range (Outcome.published outcomes).length).reverse := by
  have hlength := congrArg List.length h.numbered
  rw [List.length_map, List.length_reverse, List.length_range] at hlength
  rw [hlength, h.numbered]

theorem Records.figures_of_none (h : c.Records outcomes) (hnone : c.current = none) :
    c.metrics.collectedAt = 0 ∧ c.metrics.duration = 0 := by
  rw [h.collectedAt, h.duration, hnone]
  exact ⟨rfl, rfl⟩

theorem Records.figures_of_some (h : c.Records outcomes) {p : Published}
    (hsome : c.current = some p) :
    c.metrics.collectedAt =
      (if p.snapshot.collectedAt.nanoseconds < 0 then 0 else p.snapshot.collectedAt.seconds) ∧
    c.metrics.duration = p.snapshot.duration.seconds := by
  rw [h.collectedAt, h.duration, hsome]
  refine ⟨?_, rfl⟩
  split
  · rename_i hbefore
    exact Timestamp.seconds_of_neg hbefore
  · rfl

theorem Records.pairwise_id (h : c.Records outcomes) :
    (Outcome.published outcomes).Pairwise fun q p => p.id < q.id := by
  rw [← List.pairwise_map (f := Published.id) (R := fun i j => j < i), h.numbered,
    List.pairwise_reverse]
  exact List.pairwise_lt_range

/-- The current snapshot is the one that was current before or carries a higher number. -/
theorem Records.current_eq_or_lt (h : c.Records outcomes) {earlier : List Outcome}
    (hearlier : earlier <:+ outcomes) {p : Published}
    (hp : (Outcome.published earlier).head? = some p) :
    ∃ q, c.current = some q ∧ (q = p ∨ p.id < q.id) := by
  obtain ⟨newer, hnewer⟩ : Outcome.published earlier <:+ Outcome.published outcomes :=
    hearlier.filterMap _
  obtain ⟨older, holder⟩ := List.head?_eq_some_iff.mp hp
  have hids := h.pairwise_id
  have hcurrent := h.current
  rw [holder] at hnewer
  rw [← hnewer] at hids hcurrent
  cases newer with
  | nil => exact ⟨p, hcurrent, .inl rfl⟩
  | cons q newer =>
    refine ⟨q, hcurrent, .inr ?_⟩
    exact List.rel_of_pairwise_cons hids (by simp)

end Cache

end PoolGauge
