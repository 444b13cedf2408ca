import PoolGauge.Proofs.Cache.Refreshes
import PoolGauge.Proofs.Cache.Requests
import PoolGauge.Proofs.Metrics.Rendered

/-!
# Pages in every run

What a page shows depends on the attempts that have ended by the moment the request is answered. A
request that needs a refresh waits for it, and then sees the cache as the refresh left it.
-/
namespace PoolGauge

variable {σ : Type}

/-- The figures about the exporter after some attempts, when a snapshot was published last. -/
def Outcome.figures (attempts : List Outcome) (latest : Snapshot) : Metrics.SelfMetrics where
  up := match attempts with
    | .ok _ :: _ => 1
    | _ => 0
  failures := .ofNat (attempts.countP Outcome.failed)
  collectedAt := latest.collectedAt.seconds
  duration := latest.duration.seconds

theorem Outcome.floatText_up (attempts : List Outcome) (latest : Snapshot) :
    Number.floatText (Outcome.figures attempts latest).up = ['1'] ∧
        (∃ q, attempts.head? = some (.ok q)) ∨
      Number.floatText (Outcome.figures attempts latest).up = ['0'] ∧
        ¬ ∃ q, attempts.head? = some (.ok q) := by
  have hone : Number.floatText 1 = ['1'] := by decide +kernel
  have hzero : Number.floatText 0 = ['0'] := by decide +kernel
  cases attempts with
  | nil => simp [Outcome.figures, hzero]
  | cons outcome older => cases outcome <;> simp [Outcome.figures, hone, hzero]

namespace Cache

theorem Records.metrics_eq {c : Cache} {attempts : List Outcome} (h : c.Records attempts)
    {p : Published} (hp : c.current = some p) :
    c.metrics = Outcome.figures attempts p.snapshot := by
  have hup : c.metrics.up = (Outcome.figures attempts p.snapshot).up := by
    have hhealthy := h.healthy
    rw [h.up]
    cases attempts with
    | nil => simp_all [Outcome.figures]
    | cons outcome older => cases outcome <;> simp_all [Outcome.figures]
  have hcollectedAt : c.metrics.collectedAt = p.snapshot.collectedAt.seconds := by
    rw [h.collectedAt, hp]
    rfl
  have hduration : c.metrics.duration = p.snapshot.duration.seconds := by
    rw [h.duration, hp]
    rfl
  calc c.metrics
    _ = ⟨c.metrics.up, c.metrics.failures, c.metrics.collectedAt, c.metrics.duration⟩ := rfl
    _ = Outcome.figures attempts p.snapshot := by
      rw [hup, h.failures, hcollectedAt, hduration]
      rfl

end Cache

namespace Response

open Metrics

theorem metricsPage_some (cache : Cache) (p : Published) : metricsPage cache (some p) =
    ⟨200, some expositionType, none, render p.snapshot.toInventory cache.metrics⟩ := by
  rw [metricsPage, render?_eq_ok]
  rfl

theorem status_answer_ne (request : Request) (cache : Cache) (served : Option Published) :
    (answer request cache served).status ≠ 500 := by
  have hpage : ∀ page, (ofPage cache served page).status ≠ 500 := by
    intro page
    cases page with
    | start => simp [ofPage, startPage]
    | metrics =>
      cases served with
      | none => simp [ofPage, metricsPage, plain]
      | some p => simp [ofPage, metricsPage_some]
    | health =>
      rw [ofPage, healthPage]
      split
      · decide
      · decide
  rw [answer]
  split
  · decide
  · rename_i page _
    split
    · dsimp only
      split
      · exact hpage page
      · exact hpage page
    · decide

theorem answer_of_get {request : Request} {page : Page} (hget : request.method = "GET")
    (hpage : request.page? = some page) (cache : Cache) (served : Option Published) :
    answer request cache served = ofPage cache served page := by
  have hhead : request.isHead = false := by
    simp [Request.isHead, hget]
  simp [answer, hpage, Request.reads, hhead, hget]

/-- The answer to a request for the metrics after some attempts: no metric as long as none of them
has succeeded, and then the snapshot published last with the figures of the moment. -/
structure ShowsMetrics (attempts : List Outcome) (response : Response) : Prop where
  missing : response.status = 503 ↔ Outcome.published attempts = []
  bare : response.status = 503 → response = plain 503 "No ZFS snapshot collected yet" ∧
    ∀ line ∈ Text.lines response.body.toList, ∀ name ∈ familyNames, lineName line ≠ name.toList
  full : ∀ p, (Outcome.published attempts).head? = some p → ∃ lines,
    response = ⟨200, some "text/plain; version=0.0.4; charset=utf-8", none, textOfLines lines⟩ ∧
    lines = renderLines p.snapshot.toInventory (Outcome.figures attempts p.snapshot) ∧
    OnlyLine lines "zfs_exporter_last_collection_timestamp_seconds"
      (Number.floatText p.snapshot.collectedAt.seconds) ∧
    OnlyLine lines "zfs_exporter_collection_duration_seconds"
      (Number.floatText p.snapshot.duration.seconds) ∧
    (OnlyLine lines "zfs_exporter_up" ['1'] ↔ ∃ q, attempts.head? = some (.ok q)) ∧
    (OnlyLine lines "zfs_exporter_up" ['0'] ↔ ¬ ∃ q, attempts.head? = some (.ok q))

theorem lineName_noSnapshot :
    ∀ line ∈ Text.lines (plain 503 "No ZFS snapshot collected yet").body.toList,
      ∀ name ∈ familyNames, lineName line ≠ name.toList := by
  decide +kernel

theorem showsMetrics_metricsPage {cache : Cache} {attempts : List Outcome}
    (h : cache.Records attempts) : ShowsMetrics attempts (metricsPage cache cache.current) := by
  have hcurrent := h.current
  cases hsome : cache.current with
  | none =>
    rw [hsome] at hcurrent
    exact {
      missing := ⟨fun _ => List.head?_eq_none_iff.mp hcurrent.symm, fun _ => rfl⟩
      bare := fun _ => ⟨rfl, lineName_noSnapshot⟩
      full := fun p hp => nomatch hcurrent.trans hp }
  | some p =>
    rw [hsome] at hcurrent
    rw [metricsPage_some, h.metrics_eq hsome]
    have hsomething : Outcome.published attempts ≠ [] := by
      intro hnone
      simp [hnone] at hcurrent
    refine ⟨⟨nofun, fun hnone => absurd hnone hsomething⟩, nofun, fun q hq => ?_⟩
    obtain rfl := Option.some.inj (hcurrent.trans hq)
    let figures := Outcome.figures attempts p.snapshot
    have hlines : ∀ figure ∈ figures.figures,
        OnlyLine (renderLines p.snapshot.toInventory figures) figure.1
          (Number.floatText figure.2) :=
      fun figure => onlyLine_renderLines p.snapshot.toInventory
    have hup := hlines ("zfs_exporter_up", figures.up) (by simp [SelfMetrics.figures])
    refine ⟨_, rfl, rfl, ?collectedAt, ?duration, ?up⟩
    case collectedAt =>
      exact hlines ("zfs_exporter_last_collection_timestamp_seconds", figures.collectedAt)
        (by simp [SelfMetrics.figures])
    case duration =>
      exact hlines ("zfs_exporter_collection_duration_seconds", figures.duration)
        (by simp [SelfMetrics.figures])
    case up =>
      rcases Outcome.floatText_up attempts p.snapshot with ⟨htext, hlast⟩ | ⟨htext, hlast⟩
      · simp [hup.iff_eq, figures, htext, hlast]
      · simp [hup.iff_eq, figures, htext, hlast]

theorem status_healthPage {cache : Cache} {attempts : List Outcome} (h : cache.Records attempts) :
    ((healthPage cache).status = 200 ↔ ∃ p, attempts.head? = some (.ok p)) ∧
      ((healthPage cache).status ≠ 200 → (healthPage cache).status = 503) := by
  rw [← h.healthy, healthPage]
  cases cache.healthy <;> simp [plain]

/-- What the answer to a request is after some attempts. -/
structure Follows (attempts : List Outcome) (request : Request) (response : Response) : Prop where
  status : response.status ≠ 500
  metrics : request.method = "GET" → request.page? = some .metrics →
    ShowsMetrics attempts response
  health : request.method = "GET" → request.page? = some .health →
    (response.status = 200 ↔ ∃ p, attempts.head? = some (.ok p)) ∧
    (response.status ≠ 200 → response.status = 503)

theorem follows_answer {cache : Cache} {attempts : List Outcome} (h : cache.Records attempts)
    (request : Request) : Follows attempts request (answer request cache cache.current) where
  status := status_answer_ne request cache cache.current
  metrics hget hpage := by
    rw [answer_of_get hget hpage]
    exact showsMetrics_metricsPage h
  health hget hpage := by
    rw [answer_of_get hget hpage]
    exact status_healthPage h

end Response

namespace Schedule

variable {rules : RefreshRules σ} {source : σ} {s : Schedule σ} {log : Log} {task : Task σ}
  {request : Request}

theorem isScrape_iff (request : Request) : request.isScrape = true ↔
    (request.method = "GET" ∨ request.method = "HEAD") ∧ request.page? = some .metrics := by
  simp [Request.isScrape, Request.reads, Request.isHead]

/-- The bare host whose tools reply at once. -/
def promptHost : RefreshRules Bool :=
  { bareHost with source := { bareHost.source with call := fun _ working => (0, working) } }

end Schedule

end PoolGauge
