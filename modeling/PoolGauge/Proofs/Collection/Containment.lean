import PoolGauge.Proofs.Collection.Course
import PoolGauge.Proofs.Pool.Figures
import PoolGauge.Source.Commands

/-!
# What a failed question costs

A failure either ends a collection or costs no more than what was asked about: a pool, the figures
of its vdevs, a batch of datasets, or a dataset. On a host a collection ends only with a failure of
the listing, its reading, or the query mechanism.
-/
namespace PoolGauge

section Visits

theorem PoolVisit.pool?_eq_none_iff (visit : PoolVisit) :
    visit.pool? = none ↔ ¬ ∃ output status,
      visit.status = .ok output ∧ PoolStatus.read visit.listed.name output = .ok status := by
  rw [pool?, Option.map_eq_none_iff, Option.eq_none_iff_forall_ne_some]
  simp only [Ne, status?_eq_some_iff]
  constructor
  · rintro h ⟨output, status, hok⟩
    exact h status ⟨output, hok⟩
  · rintro h status ⟨output, hok⟩
    exact h ⟨output, status, hok⟩

/-- A pool without figures counts nothing but errors. -/
theorem PoolVisit.uncounted_of_error {visit : PoolVisit} {pool : Pool} {failure : Failure}
    (hpool : visit.pool? = some pool) (hfigures : visit.figures = .error failure) {v : Vdev}
    (hv : v ∈ pool.vdevs.toList) : v.stats.Uncounted := by
  rw [pool?, Option.map_eq_some_iff, hfigures] at hpool
  obtain ⟨status, hstatus, rfl⟩ := hpool
  obtain ⟨output, -, hread⟩ := visit.status?_eq_some_iff.mp hstatus
  exact PoolStatus.uncounted_of_read hread hv

theorem DatasetVisit.dataset?_of_error {visit : DatasetVisit} {id : UInt64} {failure : Failure}
    (hid : visit.dataset.objsetId = some id) (hactivity : visit.activity = .error failure) :
    visit.dataset? = none := by
  simp only [dataset?, hid, hactivity]

theorem BatchVisit.visits_of_error {batch : BatchVisit} {failure : Failure}
    (h : batch.properties = .error failure) : batch.visits = [] := by
  have hfound := batch.found
  rw [h] at hfound
  exact List.map_eq_nil_iff.mp hfound

end Visits

section Hosts

/-- The failures with which a collection from a host may end. -/
inductive Failure.EndsCollection : Failure → Prop
  | unavailable (reason : String) : EndsCollection (.unavailable reason)
  | parse (context reason : String) : EndsCollection (.parse context reason)
  | timeout (operation : String) (limit : Duration) : EndsCollection (.timeout operation limit)
  | spawn (line reason : String) : EndsCollection (.spawn line reason)

theorem Failure.endsCollection_of_isTransient {failure : Failure} (h : failure.isTransient = true) :
    failure.EndsCollection := by
  cases failure with
  | timeout operation limit => exact .timeout operation limit
  | spawn line reason => exact .spawn line reason
  | _ => contradiction

theorem Host.endsCollection_of_list {host : Host} {command : CommandLine} {failure : Failure}
    (h : host.list command = .error failure) : failure.EndsCollection := by
  rw [Host.list] at h
  cases hrun : host.run command false with
  | error cause =>
    rw [hrun] at h
    obtain rfl := Except.error.inj h
    exact .unavailable _
  | ok output =>
    rw [hrun] at h
    contradiction

/-- Apart from the lists only the query mechanism ends a collection. -/
theorem Exchange.isTransient_of_fatal? {e : Exchange} {failure : Failure}
    (h : e.fatal? = some failure) (hpools : e.query ≠ .listPools)
    (hdatasets : e.query ≠ .listDatasets) : failure.isTransient = true := by
  unfold fatal? at h
  split at h
  · exact absurd rfl hpools
  · exact absurd rfl hpools
  · exact absurd rfl hdatasets
  · exact (Failure.spreads?_eq_some_iff.mp h).2
  · exact (Failure.spreads?_eq_some_iff.mp h).2
  · exact (Failure.spreads?_eq_some_iff.mp h).2
  · contradiction

theorem Host.endsCollection_of_fatal? {host : Host} {query : Query} {failure : Failure}
    (h : Exchange.fatal? ⟨query, host.reply query⟩ = some failure) : failure.EndsCollection := by
  by_cases hpools : query = .listPools
  · subst hpools
    cases hreply : host.reply .listPools with
    | error cause =>
      rw [hreply] at h
      obtain rfl := Option.some.inj h
      exact host.endsCollection_of_list hreply
    | ok output =>
      rw [hreply, Exchange.fatal?, Option.map_eq_some_iff] at h
      obtain ⟨line, -, rfl⟩ := h
      exact .parse _ _
  · by_cases hdatasets : query = .listDatasets
    · subst hdatasets
      cases hreply : host.reply .listDatasets with
      | error cause =>
        rw [hreply] at h
        obtain rfl := Option.some.inj h
        exact host.endsCollection_of_list hreply
      | ok output =>
        rw [hreply] at h
        contradiction
    · exact Failure.endsCollection_of_isTransient
        (Exchange.isTransient_of_fatal? h hpools hdatasets)

end Hosts

namespace Collection

open Exchange

/-- The failure of a walk is that of one of its exchanges. -/
theorem exists_fatal_mem {exchanges : List Exchange} {failure : Failure}
    (h : exchanges.findSome? fatal? = some failure) :
    ∃ e ∈ untilFatal exchanges, e.fatal? = some failure := by
  induction exchanges with
  | nil => contradiction
  | cons e rest ih =>
    rw [List.findSome?_cons] at h
    rw [untilFatal]
    cases hfatal : e.fatal? with
    | some other =>
      rw [hfatal] at h
      exact ⟨e, by simp, hfatal.trans h⟩
    | none =>
      rw [hfatal] at h
      obtain ⟨found, hmem, hfound⟩ := ih h
      exact ⟨found, by simp [hmem], hfound⟩

/-- A collection without a reply that ends it follows a course to its end. -/
theorem exists_course_of_mild {σ : Type} {source : Source σ} {state : σ}
    (h : ∀ e ∈ inventory.run.exchanges source state, e.fatal? = none) :
    ∃ course : Course, inventory.run.exchanges source state = course.exchanges ∧
      (inventory.run.run source state).result = .ok course.inventory := by
  obtain ⟨course, hlog, hresult⟩ := exists_course (Inquiry.yields_run source inventory.run state)
  cases hfatal : course.exchanges.findSome? fatal? with
  | none => exact ⟨course, hlog.trans (untilFatal_of_none hfatal), by rw [hresult, outcome, hfatal]⟩
  | some failure =>
    obtain ⟨e, hmem, hends⟩ := exists_fatal_mem hfatal
    rw [← hlog] at hmem
    simp [h e hmem] at hends

/-- A collection from a host can fail in four ways only. -/
theorem endsCollection_of_run {host : Host} {failure : Failure}
    (h : (inventory.run.run host.source ()).result = .error failure) : failure.EndsCollection := by
  obtain ⟨course, hlog, hresult⟩ := exists_course (Inquiry.yields_run host.source inventory.run ())
  rw [h] at hresult
  have hfirst := Follows.findSome?_of_error (α := Inventory) ⟨hlog, hresult⟩
  obtain ⟨e, hmem, hfatal⟩ := exists_fatal_mem hfirst
  rw [← hlog] at hmem
  have hreply : e.reply = host.reply e.query :=
    Inquiry.reply_of_mem_exchanges (fun _ _ => rfl) hmem
  obtain ⟨query, reply⟩ := e
  obtain rfl : reply = host.reply query := hreply
  exact host.endsCollection_of_fatal? hfatal

end Collection

end PoolGauge
