import PoolGauge.Proofs.Cache.Runs

/-!
# Refreshes in every run

At most one collection is under way, a call collects or shares depending on what ended while it
waited, and the cache always agrees with the attempts that have ended.
-/
namespace PoolGauge.Schedule

variable {σ : Type} {rules : RefreshRules σ} {source : σ} {s t : Schedule σ} {log : Log}
  {c : Ticket}

theorem attempt?_isSome_iff (r : Refresher σ) (c : Ticket) :
    (r.attempt? c).isSome ↔ r.turns.phase c = .collecting := by
  have hphase : ∀ t : Turns, t.phase c = .collecting ↔ t.collector = some c := by
    intro t
    rw [Turns.phase]
    split
    · simp [*]
    · split <;> simp [*]
  rw [hphase]
  obtain ⟨cache, source, holder, queue⟩ := r
  rcases holder with _ | ⟨d, seen | attempt⟩
  · simp [Refresher.attempt?, Refresher.turns]
  · simp [Refresher.attempt?, Refresher.turns]
  · by_cases hd : d = c <;> simp [Refresher.attempt?, Refresher.turns, hd]

/-- A call acts when its task runs. If it arrives while nobody has the turn, it asks for the pools at
once, and so it does if its turn has come and no attempt has ended since it arrived. If one has, the
call is told its outcome at once. -/
structure ActsInTurn (rules : RefreshRules σ) (s : Schedule σ) (log : Log) (task : Task σ) :
    Prop where
  arriving : task.act? = some .arrive → s.refresher.holder = none →
    ∃ more, s.events rules task = more ++ [.asked task.id .listPools, .arrived task.id]
  granted : ∀ seen, task.act? = some .wake →
    s.refresher.holder = some (task.id, .granted seen) →
    ∃ mid before, Log.Since task.id mid before log ∧
      ((log.attempts = before.attempts ∧
          ∃ more, s.events rules task = more ++ [.asked task.id .listPools]) ∨
        ∃ outcome, log.attempts = outcome :: before.attempts ∧
          s.events rules task = [.told task.id outcome.share])

theorem Sound.actsInTurn (h : s.Sound log) (task : Task σ) : s.ActsInTurn rules log task where
  arriving hact hfree := by
    rw [events, hact]
    exact Refresher.events_arrive_of_free hfree
  granted seen hact hholder := by
    have horderly := h.refresher.orderly
    rw [Refresher.turns_of_granted hholder] at horderly
    obtain ⟨mid, before, hsince⟩ := Log.exists_since horderly.waiting
    have hattempts := hsince.attempts
    refine ⟨mid, before, hsince, ?_⟩
    rw [events, hact]
    by_cases hsame : s.refresher.cache.generation = seen
    · rw [(horderly.line.news_eq_nil_iff (List.mem_cons_self ..)).mpr hsame] at hattempts
      exact .inl ⟨hattempts, Refresher.events_wake_of_granted hholder hsame⟩
    · rcases horderly.allows (.share hsame) with hcollecting | ⟨-, outcome, hnews, hshared⟩
      · cases horderly.waiting.symm.trans hcollecting
      · rw [hnews] at hattempts
        refine .inr ⟨outcome, hattempts, ?_⟩
        rw [← hshared]
        exact Refresher.events_wake_of_differs hholder hsame

/-- In every run calls of refresh take turns. At no time do two of them collect. The first thing
that a call does after its arrival, unless it is given up, is to ask the source if no attempt has
ended since; else one has, whose outcome the call is told. A call does nothing before it arrives or
after it was told or given up. A call whose turn it is acts as soon as its task runs. -/
theorem refreshes_take_turns (h : Reaches rules (initial source) log s) :
    (∀ past : Log, past <:+ log → ∀ c d, past.phase c = .collecting →
      past.phase d = .collecting → c = d) ∧
    (∀ c, (s.refresher.attempt? c).isSome ↔ log.phase c = .collecting) ∧
    (∀ (e : Event) (past : Log), e :: past <:+ log →
      ∀ mid before, Log.Since e.call mid before past → e ≠ .dropped e.call →
      ((∃ query, e = .asked e.call query) ↔ past.attempts = before.attempts) ∧
      ((¬ ∃ query, e = .asked e.call query) → ∃ outcome,
        past.attempts = outcome :: before.attempts ∧ e = .told e.call outcome.share)) ∧
    (∀ (e : Event) (past : Log), e :: past <:+ log → e ≠ .arrived e.call →
      past.phase e.call ≠ .outside) ∧
    ∀ task ∈ s.tasks, s.ActsInTurn rules log task := by
  have hsound := h.sound.refresher
  refine ⟨fun past hpast c d => (hsound.lawful.suffix hpast).exclusive, fun c => ?_,
    fun e past he mid before hsince => hsound.lawful.first_event hsince he rfl,
    fun e past he => hsound.lawful.phase_ne_outside he, fun task _ => h.sound.actsInTurn task⟩
  rw [attempt?_isSome_iff, hsound.orderly.phases]

/-- A host without pools and datasets, or whose tools refuse everything, and whose clock shows a
time before the epoch. -/
def bareHost : RefreshRules Bool where
  source := {
    call := fun _ working => (1, working)
    reply := fun query working =>
      (match query, working with
        | .listPools, true | .listDatasets, true => .ok ""
        | _, _ => .error (.command "zpool list" "refused"), working)
    clock := fun _ => ⟨-1⟩ }
  limit := 5

/-- A call that arrives while another collects is told that the other was refused. -/
theorem refreshes_share_refusal : ∃ (s : Schedule Bool) (before past : Log) (outcome : Outcome),
    Reaches bareHost (initial false) (.told 1 outcome.share :: past) s ∧
    Log.Since 1 [.told 0 outcome] before past ∧ past.attempts = outcome :: before.attempts := by
  have hspawned : Reaches bareHost (initial false) [] _ :=
    (Reaches.refl.next (.spawn 0 .refresh)).next (.spawn 0 .refresh)
  have hasked : Reaches bareHost (initial false) [.asked 0 .listPools, .arrived 0] _ :=
    hspawned.next (.run (List.mem_cons_self ..))
  have harrived : Reaches bareHost (initial false)
      [.arrived 1, .asked 0 .listPools, .arrived 0] _ :=
    hasked.next (.run (List.mem_cons_of_mem _ (List.mem_cons_self ..)))
  have hended : Reaches bareHost (initial false)
      [.told 0 (.error (.command "zpool list" "refused")), .arrived 1, .asked 0 .listPools,
        .arrived 0] _ :=
    (harrived.next (.pass 1 [] [])).next (.run (List.mem_cons_self ..))
  have hshared : Reaches bareHost (initial false)
      [.told 1 (.error (.unavailable "concurrent collection failed")),
        .told 0 (.error (.command "zpool list" "refused")), .arrived 1, .asked 0 .listPools,
        .arrived 0] _ :=
    hended.next (.run (List.mem_cons_self ..))
  have hsince : Log.Since 1 [.told 0 (.error (.command "zpool list" "refused"))]
      [.asked 0 .listPools, .arrived 0]
      [.told 0 (.error (.command "zpool list" "refused")), .arrived 1, .asked 0 .listPools,
        .arrived 0] := ⟨rfl, by simp [Event.call]⟩
  obtain ⟨outcome, hattempts, -⟩ := ((refreshes_take_turns hshared).2.2.1 _ _
    (List.suffix_refl _) _ _ hsince (by rintro ⟨⟩)).2 (by rintro ⟨query, ⟨⟩⟩)
  obtain rfl := (List.cons.inj hattempts).1
  exact ⟨_, _, _, .error (.command "zpool list" "refused"), hshared, hsince, hattempts⟩

/-- In every run the cache agrees with the attempts that have ended: it counts them and the failed
ones, it is healthy if the last one succeeded, it holds the snapshot of the last one that did, and
its figures are those of this snapshot. Later on it holds this snapshot or one published later. -/
theorem cache_agrees_with_attempts (h : Reaches rules (initial source) log s) :
    s.refresher.cache.generation = .ofNat log.attempts.length ∧
    s.refresher.cache.metrics.failures = .ofNat (log.attempts.countP Outcome.failed) ∧
    (s.refresher.cache.healthy = true ↔ ∃ p, log.attempts.head? = some (.ok p)) ∧
    (s.refresher.cache.metrics.up = 1 ↔ s.refresher.cache.healthy = true) ∧
    (s.refresher.cache.metrics.up = 0 ↔ s.refresher.cache.healthy = false) ∧
    s.refresher.cache.current = (Outcome.published log.attempts).head? ∧
    (s.refresher.cache.healthy = true → s.refresher.cache.current.isSome) ∧
    (∀ later t, Reaches rules s later t → ∀ p, s.refresher.cache.current = some p →
      ∃ q, t.refresher.cache.current = some q ∧ (q = p ∨ p.id < q.id)) ∧
    (Outcome.published log.attempts).map Published.id =
      (List.range (Outcome.published log.attempts).length).reverse ∧
    (s.refresher.cache.current = none →
      s.refresher.cache.metrics.collectedAt = 0 ∧ s.refresher.cache.metrics.duration = 0) ∧
    (∀ p, s.refresher.cache.current = some p →
      s.refresher.cache.metrics.collectedAt =
        (if p.snapshot.collectedAt.nanoseconds < 0 then 0 else p.snapshot.collectedAt.seconds) ∧
      s.refresher.cache.metrics.duration = p.snapshot.duration.seconds) := by
  have hrecords := h.sound.refresher.records
  refine ⟨hrecords.generation, hrecords.failures, hrecords.healthy, hrecords.up_eq_one_iff,
    hrecords.up_eq_zero_iff, hrecords.current, hrecords.current_isSome,
    fun later t hlater p hp => ?_, hrecords.ids, hrecords.figures_of_none,
    fun p hp => hrecords.figures_of_some hp⟩
  rw [hrecords.current] at hp
  exact (h.trans hlater).sound.refresher.records.current_eq_or_lt (Log.attempts_append later log) hp

/-- A failure after a success on a host whose clock shows a time before the epoch. -/
theorem cache_agrees_after_failure : ∃ (s : Schedule Bool) (log : Log),
    Reaches bareHost (initial true) log s ∧
    UInt64.ofNat log.attempts.length = 2 ∧
    UInt64.ofNat (log.attempts.countP Outcome.failed) = 1 ∧
    s.refresher.cache.metrics.up = 0 ∧
    (Outcome.published log.attempts).head?.isSome ∧ s.refresher.cache.metrics.collectedAt = 0 := by
  obtain ⟨log, hrun⟩ :=
    reaches_run bareHost (initial true) [(0, .refresh), (3, .set not), (4, .refresh)]
  obtain ⟨hgeneration, hfailures, -, -, hup, hcurrent, -, -, -, -, hfigures⟩ :=
    cache_agrees_with_attempts hrun
  refine ⟨_, log, hrun, ?_, ?_, hup.mpr (by decide +kernel), ?_, ?_⟩
  · rw [← hgeneration]
    decide +kernel
  · rw [← hfailures]
    decide +kernel
  · rw [← hcurrent]
    decide +kernel
  · obtain ⟨p, hp, hbefore⟩ : ∃ p, (run bareHost (initial true)
        [(0, .refresh), (3, .set not), (4, .refresh)]).1.refresher.cache.current = some p ∧
        p.snapshot.collectedAt = ⟨-1⟩ := by
      rw [← Option.map_eq_some_iff]
      decide +kernel
    rw [(hfigures p hp).1, hbefore]
    rfl

end PoolGauge.Schedule
