import PoolGauge.Proofs.Cache.Steps
import PoolGauge.Proofs.Cache.Timeline

/-!
# Turns of the clock

Between two turns exactly those tasks stand in line to run that can, so the clock moves only when
nothing is left to do, and never past a time that some task waits for.
-/
namespace PoolGauge

variable {σ : Type}

@[simp] theorem nextTick_self (period now : Nat) : nextTick now period now = now + period :=
  if_neg (by omega)

/-- The deadline and the period with which a purpose goes on. -/
def Purpose.goal? : Purpose → Option (Nat × Nat)
  | tick next period => some (next, period)
  | _ => none

/-- The deadline with which a background task goes on after its call, and its period. -/
def Activity.goal? (now : Nat) : Activity σ → Option (Nat × Nat)
  | looping 0 => none
  | looping period => some (nextTick now period now, period)
  | ticking deadline period => some (nextTick deadline period now, period)
  | refreshing purpose _ => purpose.goal?
  | _ => none

theorem Activity.goal?_looping {period : Nat} (hperiod : 0 < period) (now : Nat) :
    (looping (σ := σ) period).goal? now = some (nextTick now period now, period) := by
  cases period with
  | zero => contradiction
  | succ period => rfl

/-- Where a background task stands that goes on with a deadline and a period. -/
theorem Activity.of_goal? {activity : Activity σ} {now next period : Nat}
    (h : activity.goal? now = some (next, period)) :
    (activity = .looping period ∧ 0 < period ∧ next = now + period) ∨
    (∃ deadline, activity = .ticking deadline period ∧ next = nextTick deadline period now) ∨
    ∃ since, activity = .refreshing (.tick next period) since := by
  cases activity with
  | looping period =>
    cases period with
    | zero => cases h
    | succ period =>
      cases h
      exact .inl ⟨rfl, Nat.succ_pos period, nextTick_self _ _⟩
  | ticking deadline period =>
    cases h
    exact .inr (.inl ⟨deadline, rfl, rfl⟩)
  | refreshing purpose since =>
    cases purpose with
    | tick =>
      cases h
      exact .inr (.inr ⟨since, rfl⟩)
    | refresh | scrape | page => cases h
  | starting | delayed | sleeping | watching | stopping => cases h

namespace Schedule

variable {rules : RefreshRules σ} {s t : Schedule σ} {id : Ticket} {task : Task σ} {log : Log}

def affected (rules : RefreshRules σ) (s : Schedule σ) (task : Task σ) : Schedule σ :=
  s.adopt (s.acted rules task.id task.act?)

theorem adopt_eq (s : Schedule σ) (r : Refresher σ) : s.adopt r =
    { s with refresher := r, ready := s.ready ++ Refresher.admitted s.refresher r } := rfl

/-- Nobody is let in by a change that leaves the turn where it is. -/
theorem adopt_of_holder {r : Refresher σ} (h : r.holder = s.refresher.holder) :
    s.adopt r = { s with refresher := r } := by
  rw [adopt_eq, Refresher.admitted_of_holder h, List.append_nil]

/-- What comes of letting a task run: it ends, waits for some time, watches a background task that
it has started, has told one to stop, or is in a call of refresh; or it is a background task whose
call has ended, and its next tick is to come or due already. -/
inductive Ran (rules : RefreshRules σ) (s : Schedule σ) (task : Task σ) : Schedule σ → Prop
  | ended (answers : List (Ticket × Answer)) (idle : task.activity.goal? s.now = none)
      (told : task.act? = some .arrive →
        ∃ outcome, (s.refresher.perform rules task.id s.now .arrive).2 = .told outcome) :
      Ran rules s task { s.affected rules task with
        tasks := s.tasks.filter (·.id != task.id)
        answers }
  | asleep {wakeAt : Nat} {activity : Activity σ}
      (was : ∃ wait step, task.activity = .starting wait step ∨ task.activity = .delayed wait step)
      (is : activity = .sleeping wakeAt ∨ ∃ step, activity = .delayed wakeAt step)
      (later : s.now < wakeAt) (quiet : task.act? = none) :
      Ran rules s task (s.rest task.id activity)
  | watching (period : Nat) {wakeAt : Nat}
      (was : ∃ wait step, task.activity = .starting wait step ∨ task.activity = .delayed wait step)
      (later : s.now < wakeAt) (quiet : task.act? = none) :
      Ran rules s task ((s.rest task.id (.watching wakeAt s.started)).spawn (.looping period))
  | warned {wakeAt : Nat} {background : Ticket}
      (was : task.activity = .watching wakeAt background) :
      Ran rules s task ((s.tellStop background).close task.id .nothing)
  | waits {act : Act σ} {purpose : Purpose} (since : Nat) (does : task.act? = some act)
      (call : act = .arrive ∨ act = .wake)
      (waiting : (s.refresher.perform rules task.id s.now act).2 = .waiting)
      (goal : task.activity.goal? s.now = purpose.goal?) :
      Ran rules s task ((s.affected rules task).rest task.id (.refreshing purpose since))
  | ticks {act : Act σ} {next period : Nat} {outcome : Outcome} (does : task.act? = some act)
      (call : act = .arrive ∨ act = .wake)
      (told : (s.refresher.perform rules task.id s.now act).2 = .told outcome)
      (goal : task.activity.goal? s.now = some (next, period)) (later : s.now < next) :
      Ran rules s task ((s.affected rules task).rest task.id (.ticking next period))
  | lags {act : Act σ} {next period : Nat} {outcome : Outcome} (does : task.act? = some act)
      (call : act = .arrive ∨ act = .wake)
      (told : (s.refresher.perform rules task.id s.now act).2 = .told outcome)
      (goal : task.activity.goal? s.now = some (next, period)) (late : next ≤ s.now) :
      Ran rules s task { (s.affected rules task).rest task.id (.ticking next period) with
        ready := task.id :: (s.affected rules task).ready }

section Ran

variable {act : Act σ} {purpose : Purpose}

/-- What comes of a call that a task goes on with. -/
theorem ran_afterRefresh (since : Nat) (does : task.act? = some act)
    (call : act = .arrive ∨ act = .wake) (goal : task.activity.goal? s.now = purpose.goal?) :
    Ran rules s task
      (s.afterRefresh task.id purpose since (s.refresher.perform rules task.id s.now act)) := by
  generalize hresult : s.refresher.perform rules task.id s.now act = result
  obtain ⟨r, progress⟩ := result
  have haffected : s.affected rules task = s.adopt r := by
    rw [affected, does, acted, hresult]
  have hprogress : (s.refresher.perform rules task.id s.now act).2 = progress :=
    congrArg Prod.snd hresult
  cases progress with
  | waiting =>
    have hran := Ran.waits since does call hprogress goal
    rw [haffected] at hran
    exact hran
  | told outcome =>
    have hended : ∀ answer, purpose.goal? = none →
        Ran rules s task ((s.adopt r).close task.id answer) := by
      intro answer hnone
      rw [← haffected]
      refine .ended _ (goal.trans hnone) fun harrive => ⟨outcome, ?_⟩
      rw [← hprogress, Option.some.inj (does.symm.trans harrive)]
    cases purpose with
    | refresh | scrape | page request => exact hended _ rfl
    | tick next period =>
      simp only [afterRefresh, ← haffected]
      split
      · exact .lags does call hprogress goal ‹_›
      · exact .ticks does call hprogress goal (Nat.lt_of_not_le ‹_›)

/-- What a task does that acts in no way. -/
theorem ran_close (answer : Answer) (idle : task.activity.goal? s.now = none)
    (quiet : task.act? = none) : Ran rules s task (s.close task.id answer) := by
  have heq : s.affected rules task = s := by
    rw [affected, quiet, acted, adopt_of_holder rfl]
  have hran : Ran rules s task ((s.affected rules task).close task.id answer) := by
    refine .ended _ idle fun harrive => ?_
    cases quiet.symm.trans harrive
  rwa [heq] at hran

theorem ran_stop (idle : task.activity.goal? s.now = none) (does : task.act? = some .abandon) :
    Ran rules s task (s.stop task.id) := by
  have heq : s.affected rules task = s.adopt (s.refresher.abandon task.id) := by
    rw [affected, does, acted, Refresher.perform]
  have hran : Ran rules s task { s.affected rules task with
      tasks := s.tasks.filter (·.id != task.id) } := by
    refine .ended s.answers idle fun harrive => ?_
    cases does.symm.trans harrive
  rwa [heq] at hran

theorem ran_begin {step : Step σ} (does : task.act? = step.act?)
    (was : ∃ wait other,
      task.activity = .starting wait other ∨ task.activity = .delayed wait other) :
    Ran rules s task (s.begin rules task.id step) := by
  have hidle : task.activity.goal? s.now = none := by
    obtain ⟨wait, other, heq | heq⟩ := was <;> rw [heq] <;> rfl
  cases step with
  | set change =>
    have heq : s.affected rules task =
        { s with refresher := { s.refresher with source := change s.refresher.source } } := by
      rw [affected, does]
      exact adopt_of_holder rfl
    have hran : Ran rules s task ((s.affected rules task).close task.id .nothing) := by
      refine .ended _ hidle fun harrive => ?_
      cases does.symm.trans harrive
    rwa [heq] at hran
  | refresh => exact ran_afterRefresh s.waits does (.inl rfl) hidle
  | current => exact ran_close _ hidle does
  | scrape mode =>
    cases mode with
    | interval => exact ran_close _ hidle does
    | onScrape => exact ran_afterRefresh s.waits does (.inl rfl) hidle
  | sleep duration =>
    rw [begin]
    split
    · exact ran_close _ hidle does
    · exact .asleep was (.inl rfl) (by omega) does
  | interval period duration =>
    rw [begin]
    split
    · exact ran_close _ hidle does
    · exact .watching period was (by omega) does
  | http request mode =>
    rw [Step.act?] at does
    rw [begin]
    split
    · rw [if_pos ‹_›] at does
      exact ran_afterRefresh s.waits does (.inl rfl) hidle
    · rw [if_neg ‹_›] at does
      exact ran_close _ hidle does

theorem ran_runTask (rules : RefreshRules σ) (s : Schedule σ) (task : Task σ) :
    Ran rules s task (s.runTask rules task) := by
  obtain ⟨id, activity, order⟩ := task
  cases activity with
  | starting delay step =>
    cases delay with
    | zero => exact ran_begin rfl ⟨0, step, .inl rfl⟩
    | succ delay => exact .asleep ⟨delay + 1, step, .inl rfl⟩ (.inr ⟨step, rfl⟩) (by omega) rfl
  | delayed wakeAt step => exact ran_begin rfl ⟨wakeAt, step, .inr rfl⟩
  | sleeping wakeAt => exact ran_close _ rfl rfl
  | watching wakeAt background => exact .warned rfl
  | stopping => exact ran_stop rfl rfl
  | looping period =>
    cases period with
    | zero => exact ran_stop rfl rfl
    | succ period => exact ran_afterRefresh s.waits rfl (.inl rfl) rfl
  | ticking deadline period => exact ran_afterRefresh s.waits rfl (.inl rfl) rfl
  | refreshing purpose since => exact ran_afterRefresh _ rfl (.inr rfl) rfl

theorem Ran.now (h : Ran rules s task t) : t.now = s.now := by
  cases h with
  | ended | asleep | watching | waits | ticks | lags => rfl
  | warned => rw [tellStop]; split <;> rfl

end Ran

/-- Whether a task can run: it need not wait, the time is over for which it waits, or its turn to
refresh has come. -/
def Runnable (rules : RefreshRules σ) (s : Schedule σ) (task : Task σ) : Prop :=
  match task.activity with
  | .starting .. | .looping _ | .stopping => True
  | .delayed wakeAt _ | .sleeping wakeAt | .watching wakeAt _ => wakeAt ≤ s.now
  | .ticking deadline _ => deadline ≤ s.now
  | .refreshing .. => s.refresher.granted? = some task.id ∨
      ∃ time, s.refresher.alarm? rules task.id = some time ∧ time ≤ s.now

/-- A task stands in line to run if and only if it can, and only once unless it is to stop. It
watches a task that has started, and its ticks have a period. -/
structure OnTime (rules : RefreshRules σ) (s : Schedule σ) (task : Task σ) : Prop where
  due : task.id ∈ s.ready ↔ s.Runnable rules task
  once : task.activity ≠ .stopping → s.ready.count task.id ≤ 1
  watched : ∀ wakeAt background, task.activity = .watching wakeAt background →
    background < s.started
  period : ∀ now next period, task.activity.goal? now = some (next, period) → 0 < period

/-- Every task is on time but the one that is running. -/
structure Prompt (rules : RefreshRules σ) (s : Schedule σ) (running : Option Ticket) : Prop where
  tasks : ∀ task ∈ s.tasks, running ≠ some task.id → s.OnTime rules task
  known : ∀ id ∈ s.ready, id < s.started
  timely : s.refresher.Timely rules s.now

section Prompt

theorem runnable_congr (hnow : t.now = s.now)
    (hgranted : t.refresher.granted? = some task.id ↔ s.refresher.granted? = some task.id)
    (hattempt : t.refresher.attempt? task.id = s.refresher.attempt? task.id) :
    t.Runnable rules task ↔ s.Runnable rules task := by
  rw [Runnable, Runnable, Refresher.alarm?, Refresher.alarm?, hgranted, hattempt, hnow]

theorem OnTime.congr (h : s.OnTime rules task)
    (hready : t.ready.count task.id = s.ready.count task.id)
    (hrunnable : t.Runnable rules task ↔ s.Runnable rules task)
    (hstarted : s.started ≤ t.started) : t.OnTime rules task where
  due := by rw [hrunnable, ← h.due, ← List.count_pos_iff, ← List.count_pos_iff, hready]
  once hactivity := hready.trans_le (h.once hactivity)
  watched wakeAt background hwatching :=
    (h.watched wakeAt background hwatching).trans_le hstarted
  period := h.period

theorem OnTime.of_eq (h : s.OnTime rules task)
    (hready : t.ready.count task.id = s.ready.count task.id)
    (hrefresher : t.refresher = s.refresher) (hnow : t.now = s.now)
    (hstarted : s.started ≤ t.started) : t.OnTime rules task := by
  refine h.congr hready (runnable_congr hnow ?_ ?_) hstarted
  · rw [hrefresher]
  · rw [hrefresher]

theorem Prompt.onTime (h : s.Prompt rules none) (htask : task ∈ s.tasks) : s.OnTime rules task :=
  h.tasks task htask (Option.some_ne_none task.id).symm

/-- The task that is next leaves the line. -/
theorem Prompt.pop (h : s.Prompt rules none) {rest : List Ticket} (hready : s.ready = id :: rest) :
    { s with ready := rest }.Prompt rules (some id) ∧
    (∀ task ∈ s.tasks, task.id = id → task.activity ≠ .stopping → id ∉ rest) := by
  refine ⟨⟨fun task htask hother => ?_, fun other hmem => ?_, h.timely⟩, ?_⟩
  · refine (h.onTime htask).of_eq ?_ rfl rfl le_rfl
    rw [hready, List.count_cons_of_ne]
    rintro rfl
    exact hother rfl
  · exact h.known other (hready ▸ List.mem_cons_of_mem _ hmem)
  · rintro task htask rfl hactivity hmem
    have honce := (h.onTime htask).once hactivity
    rw [hready, List.count_cons_self] at honce
    have := List.count_pos_iff.mpr hmem
    omega

/-- Everything is on time again when the task that has run is. -/
theorem Prompt.done (h : s.Prompt rules (some id))
    (hown : ∀ task ∈ s.tasks, task.id = id → s.OnTime rules task) : s.Prompt rules none where
  tasks task htask _ := by
    by_cases hid : task.id = id
    · exact hown task htask hid
    · exact h.tasks task htask fun heq => hid (Option.some.inj heq).symm
  known := h.known
  timely := h.timely

theorem Prompt.during (h : s.Prompt rules none) (id : Ticket) : s.Prompt rules (some id) :=
  ⟨fun _ htask _ => h.onTime htask, h.known, h.timely⟩

theorem mem_tasks_rest {activity : Activity σ} (h : task ∈ (s.rest id activity).tasks) :
    (task ∈ s.tasks ∧ task.id ≠ id) ∨ task = ⟨id, activity, s.waits⟩ := by
  obtain ⟨old, hold, rfl⟩ := List.mem_map.mp h
  by_cases hid : old.id = id
  · exact .inr (if_pos hid)
  · rw [if_neg hid]
    exact .inl ⟨hold, hid⟩

theorem Prompt.rest (h : s.Prompt rules (some id)) (activity : Activity σ) :
    (s.rest id activity).Prompt rules (some id) where
  tasks task htask hother := by
    rcases mem_tasks_rest htask with ⟨hold, -⟩ | rfl
    · exact (h.tasks task hold hother).of_eq rfl rfl rfl le_rfl
    · exact absurd rfl hother
  known := h.known
  timely := h.timely

theorem Prompt.filter (h : s.Prompt rules (some id)) (answers : List (Ticket × Answer)) :
    { s with tasks := s.tasks.filter (·.id != id), answers }.Prompt rules none where
  tasks task htask _ := by
    obtain ⟨hold, hother⟩ := List.mem_filter.mp htask
    refine (h.tasks task hold fun heq => ?_).of_eq rfl rfl rfl le_rfl
    simp [Option.some.inj heq] at hother
  known := h.known
  timely := h.timely

theorem Prompt.spawn {running : Option Ticket} (h : s.Prompt rules running) (htidy : s.Tidy)
    {activity : Activity σ} (hactivity : (∃ delay step, activity = .starting delay step) ∨
      ∃ period, activity = .looping period) : (s.spawn activity).Prompt rules running where
  tasks task htask hother := by
    rcases List.mem_append.mp htask with hold | hnew
    · refine (h.tasks task hold hother).of_eq ?_ rfl rfl (Nat.le_succ _)
      have hid : s.started ≠ task.id := Nat.ne_of_gt (htidy.started task hold)
      simp [Schedule.spawn, List.count_append, hid]
    · obtain rfl := List.mem_singleton.mp hnew
      have hfresh : s.started ∉ s.ready := fun hmem => (h.known _ hmem).false
      refine ⟨iff_of_true (List.mem_append_right _ (List.mem_singleton_self _)) ?_, fun _ => ?_,
        fun wakeAt background heq => ?_, fun now next period hgoal => ?_⟩
      · rcases hactivity with ⟨delay, step, rfl⟩ | ⟨period, rfl⟩ <;> trivial
      · simp [Schedule.spawn, List.count_append, List.count_eq_zero.mpr hfresh]
      · rcases hactivity with ⟨delay, step, rfl⟩ | ⟨period, rfl⟩ <;> cases heq
      · rcases hactivity with ⟨delay, step, rfl⟩ | ⟨_ | period, rfl⟩
        · cases hgoal
        · cases hgoal
        · cases hgoal
          exact Nat.succ_pos period
  known other hmem := by
    rcases List.mem_append.mp hmem with hold | hnew
    · exact (h.known other hold).trans (Nat.lt_succ_self _)
    · rw [List.mem_singleton.mp hnew]
      exact Nat.lt_succ_self _
  timely := h.timely

theorem tellStop_eq (s : Schedule σ) (id : Ticket) :
    s.tellStop id = { s.rest id .stopping with
      ready := if id ∈ s.ready then s.ready else s.ready ++ [id] } := by
  rw [tellStop]
  split
  · rw [if_pos (show id ∈ s.ready from ‹_›)]
    rfl
  · rw [if_neg (show id ∉ s.ready from ‹_›)]
    rfl

theorem Prompt.tellStop {running : Option Ticket} (h : s.Prompt rules running) {other : Ticket}
    (hother : other < s.started) : (s.tellStop other).Prompt rules running := by
  rw [tellStop_eq]
  refine ⟨fun task htask hrunning => ?_, fun c hmem => ?_, h.timely⟩
  · rcases mem_tasks_rest htask with ⟨hold, hid⟩ | rfl
    · refine (h.tasks task hold hrunning).of_eq ?_ rfl rfl le_rfl
      dsimp only
      split
      · rfl
      · rw [List.count_append, List.count_singleton, if_neg (by simpa using Ne.symm hid)]
        rfl
    · refine ⟨iff_of_true ?_ trivial, fun hnot => absurd rfl hnot, nofun, nofun⟩
      dsimp only
      split
      · assumption
      · exact List.mem_append_right _ (List.mem_singleton_self _)
  · dsimp only at hmem
    split at hmem
    · exact h.known c hmem
    · rcases List.mem_append.mp hmem with hold | hnew
      · exact h.known c hold
      · rwa [List.mem_singleton.mp hnew]

section Adopt

variable {act : Act σ} (hsound : s.Sound log)
  (hfresh : act = .arrive → id ∉ s.refresher.turns.calls)

include hsound hfresh

/-- A call that is let in was in the line. -/
theorem Sound.mem_calls_of_admitted {c : Ticket} (hc : c ≠ id)
    (hmem : c ∈ Refresher.admitted s.refresher (s.refresher.perform rules id s.now act).1) :
    c ∈ s.refresher.turns.calls := by
  obtain ⟨-, hgranted, -⟩ := Refresher.eq_of_mem_admitted hmem
  obtain ⟨seen, hholder⟩ := Refresher.granted?_eq_some_iff.mp hgranted
  have hcalls := Refresher.mem_calls_of_holder hholder
  exact (hsound.refresher.mem_calls_perform_iff hfresh hc).mp hcalls

/-- A task that is let in could not run before unless it was to stop, and the others can run after
a change of the refresher if they could before. -/
theorem OnTime.adopt (h : s.OnTime rules task) (htask : task ∈ s.tasks) (hid : task.id ≠ id) :
    (s.adopt (s.refresher.perform rules id s.now act).1).OnTime rules task := by
  have hattempt : (s.refresher.perform rules id s.now act).1.attempt? task.id =
      s.refresher.attempt? task.id := Refresher.attempt?_perform act hid
  by_cases hmem : task.id ∈
      Refresher.admitted s.refresher (s.refresher.perform rules id s.now act).1
  · obtain ⟨hadmitted, hgranted, hbefore⟩ := Refresher.eq_of_mem_admitted hmem
    have hinCall := hsound.inCall htask (hsound.mem_calls_of_admitted hfresh hid hmem)
    refine ⟨iff_of_true (List.mem_append_right _ hmem) ?_, fun hactivity => ?_, h.watched, h.period⟩
    · obtain ⟨other, activity, order⟩ := task
      cases activity with
      | refreshing => exact .inl hgranted
      | stopping => trivial
      | starting | delayed | sleeping | watching | looping | ticking => exact hinCall.elim
    · have hnot : task.id ∉ s.ready := by
        rw [h.due]
        obtain ⟨seen, hholder⟩ := Refresher.granted?_eq_some_iff.mp hgranted
        have hnone : s.refresher.attempt? task.id = none := by
          rw [← hattempt, Refresher.attempt?, hholder]
        obtain ⟨other, activity, order⟩ := task
        cases activity with
        | refreshing =>
          rintro (hturn | ⟨time, halarm, -⟩)
          · exact hbefore hturn
          · rw [Refresher.alarm?, hnone] at halarm
            cases halarm
        | stopping => exact absurd rfl hactivity
        | starting | delayed | sleeping | watching | looping | ticking => exact hinCall.elim
      rw [adopt_eq, hadmitted, List.count_append, List.count_eq_zero.mpr hnot]
      simp
  · refine h.congr ?_ (runnable_congr rfl ?_ hattempt) le_rfl
    · rw [adopt_eq, List.count_append, List.count_eq_zero.mpr hmem, Nat.add_zero]
    · exact (Refresher.granted?_perform_iff act hid).trans (or_iff_left hmem)

theorem Prompt.adopt (h : s.Prompt rules (some id)) (hid : id < s.started) :
    (s.adopt (s.refresher.perform rules id s.now act).1).Prompt rules (some id) where
  tasks task htask hother := by
    have hne : task.id ≠ id := fun heq => hother (congrArg some heq.symm)
    exact (h.tasks task htask hother).adopt hsound hfresh htask hne
  known c hmem := by
    rcases List.mem_append.mp hmem with hold | hadmitted
    · exact h.known c hold
    · by_cases hc : c = id
      · exact hc ▸ hid
      · obtain ⟨task, htask, rfl, -⟩ :=
          hsound.serves c (hsound.mem_calls_of_admitted hfresh hc hadmitted)
        exact hsound.tidy.started task htask
  timely := h.timely.perform act

end Adopt

theorem Prompt.affected (h : s.Prompt rules (some task.id)) (hsound : s.Sound log)
    (htask : task ∈ s.tasks) : (s.affected rules task).Prompt rules (some task.id) := by
  rw [Schedule.affected]
  cases hact : task.act? with
  | none =>
    rw [acted, adopt_of_holder rfl]
    exact h
  | some act => exact h.adopt hsound (hsound.fresh htask hact) (hsound.tidy.started task htask)

/-- A task that has gone on with a call does not stand in line any more. -/
theorem notMem_ready_affected (rules : RefreshRules σ) {act : Act σ} (hsound : s.Sound log)
    (htask : task ∈ s.tasks) (does : task.act? = some act) (call : act = .arrive ∨ act = .wake)
    (hout : task.id ∉ s.ready) : task.id ∉ (s.affected rules task).ready := by
  rw [Schedule.affected, does, acted, adopt_eq]
  intro hmem
  rcases List.mem_append.mp hmem with hold | hadmitted
  · exact hout hold
  · obtain ⟨-, hgranted, -⟩ := Refresher.eq_of_mem_admitted hadmitted
    exact hsound.refresher.granted?_perform_ne call (hsound.fresh htask does) hgranted

theorem Prompt.rest_done {activity : Activity σ} (h : s.Prompt rules (some id))
    (hown : (s.rest id activity).OnTime rules ⟨id, activity, s.waits⟩) :
    (s.rest id activity).Prompt rules none := by
  refine (h.rest activity).done fun task htask hid => ?_
  rcases mem_tasks_rest htask with ⟨-, hother⟩ | rfl
  · exact absurd hid hother
  · exact hown

/-- A task that waits and cannot run yet is on time if it does not stand in line. -/
theorem OnTime.of_waiting (hout : task.id ∉ s.ready) (hwaits : ¬ s.Runnable rules task)
    (hwatched : ∀ wakeAt background, task.activity = .watching wakeAt background →
      background < s.started)
    (hperiod : ∀ now next period, task.activity.goal? now = some (next, period) → 0 < period) :
    s.OnTime rules task :=
  ⟨iff_of_false hout hwaits, fun _ => (List.count_eq_zero.mpr hout).trans_le (Nat.zero_le 1),
    hwatched, hperiod⟩

section Rests

variable {activity : Activity σ} {purpose : Purpose} {act : Act σ} {wakeAt next period : Nat}

theorem Prompt.rest_asleep (h : s.Prompt rules (some id)) (hout : id ∉ s.ready)
    (is : activity = .sleeping wakeAt ∨ ∃ step, activity = .delayed wakeAt step)
    (later : s.now < wakeAt) : (s.rest id activity).Prompt rules none := by
  refine h.rest_done (.of_waiting hout ?_ ?_ ?_)
  · rcases is with rfl | ⟨step, rfl⟩ <;> exact Nat.not_le_of_lt later
  · rcases is with rfl | ⟨step, rfl⟩ <;> rintro _ _ ⟨⟩
  · rcases is with rfl | ⟨step, rfl⟩ <;> rintro _ _ _ ⟨⟩

/-- A task that has started a background task watches it. -/
theorem Prompt.rest_watching (h : s.Prompt rules (some task.id)) (hsound : s.Sound log)
    (htask : task ∈ s.tasks) (hout : task.id ∉ s.ready) (later : s.now < wakeAt) (period : Nat) :
    ((s.rest task.id (.watching wakeAt s.started)).spawn (.looping period)).Prompt rules none := by
  have hstarted : task.id ≠ s.started := Nat.ne_of_lt (hsound.tidy.started task htask)
  have htidy := (touches_rest s task.id (.watching wakeAt s.started)).tidy hsound.tidy
  refine ((h.rest _).spawn htidy (.inr ⟨period, rfl⟩)).done fun other hmem hid => ?_
  rcases List.mem_append.mp hmem with hrest | hnew
  · rcases mem_tasks_rest hrest with ⟨-, hother⟩ | rfl
    · exact absurd hid hother
    · refine .of_waiting (fun hready => ?_) (Nat.not_le_of_lt later) ?_ ?_
      · rcases List.mem_append.mp hready with hold | hnew
        · exact hout hold
        · exact hstarted (List.mem_singleton.mp hnew)
      · rintro _ _ ⟨⟩
        exact Nat.lt_succ_self s.started
      · rintro _ _ _ ⟨⟩
  · rw [List.mem_singleton.mp hnew] at hid
    exact absurd hid.symm hstarted

/-- A task whose call is left waiting goes on with it only later. -/
theorem Prompt.rest_refreshing (h : s.Prompt rules (some task.id)) (hsound : s.Sound log)
    (htask : task ∈ s.tasks) (does : task.act? = some act) (call : act = .arrive ∨ act = .wake)
    (waiting : (s.refresher.perform rules task.id s.now act).2 = .waiting)
    (hout : task.id ∉ s.ready) (since : Nat)
    (hperiod : ∀ next period, purpose.goal? = some (next, period) → 0 < period) :
    ((s.affected rules task).rest task.id (.refreshing purpose since)).Prompt rules none := by
  have hfresh := hsound.fresh htask does
  have hout' := notMem_ready_affected rules hsound htask does call hout
  refine (h.affected hsound htask).rest_done (.of_waiting hout' ?_ ?_ fun _ => hperiod)
  · rw [Schedule.affected, does, acted]
    rintro (hturn | ⟨time, halarm, hle⟩)
    · exact hsound.refresher.granted?_perform_ne call hfresh hturn
    · exact absurd hle (Nat.not_le_of_lt
        (Refresher.alarm_later_perform call hfresh waiting halarm))
  · rintro _ _ ⟨⟩

theorem Prompt.rest_ticking (h : s.Prompt rules (some id)) (hout : id ∉ s.ready)
    (hperiod : 0 < period) (later : s.now < next) :
    (s.rest id (.ticking next period)).Prompt rules none := by
  refine h.rest_done (.of_waiting hout (Nat.not_le_of_lt later) ?_ ?_)
  · rintro _ _ ⟨⟩
  · rintro _ _ _ ⟨⟩
    exact hperiod

/-- A background task whose next tick is due already runs again at once. -/
theorem Prompt.rest_lagging (h : s.Prompt rules (some id)) (hstarted : id < s.started)
    (hout : id ∉ s.ready) (hperiod : 0 < period) (late : next ≤ s.now) :
    { s.rest id (.ticking next period) with ready := id :: s.ready }.Prompt rules none where
  tasks other hmem _ := by
    rcases mem_tasks_rest hmem with ⟨hold, hother⟩ | rfl
    · refine (h.tasks other hold fun heq => hother (Option.some.inj heq).symm).of_eq
        ?_ rfl rfl le_rfl
      exact List.count_cons_of_ne hother.symm
    · refine ⟨iff_of_true (List.mem_cons_self ..) late, fun _ => ?_, ?_, ?_⟩
      · rw [List.count_cons_self, List.count_eq_zero.mpr hout]
      · rintro _ _ ⟨⟩
      · rintro _ _ _ ⟨⟩
        exact hperiod
  known c hc := by
    rcases List.mem_cons.mp hc with rfl | hold
    · exact hstarted
    · exact h.known c hold
  timely := h.timely

end Rests

/-- When a task has run, everything is on time. -/
theorem Prompt.ran (h : s.Prompt rules (some task.id)) (hsound : s.Sound log)
    (htask : task ∈ s.tasks)
    (hout : task.activity ≠ .stopping → task.id ∉ s.ready)
    (hwatched : ∀ wakeAt background, task.activity = .watching wakeAt background →
      background < s.started)
    (hperiod : ∀ now next period, task.activity.goal? now = some (next, period) → 0 < period)
    (hran : Ran rules s task t) : t.Prompt rules none := by
  have haffected := h.affected hsound htask
  have hout' : task.act? ≠ some .abandon → task.id ∉ s.ready := by
    intro hact
    refine hout fun hstop => hact ?_
    rw [Task.act?, hstop]
  have hcall : ∀ {act}, task.act? = some act → act = .arrive ∨ act = .wake → task.id ∉ s.ready := by
    intro act does call
    refine hout' ?_
    rcases call with rfl | rfl <;> simp [does]
  cases hran with
  | ended answers => exact haffected.filter answers
  | asleep was is later quiet => exact h.rest_asleep (hout' (by simp [quiet])) is later
  | watching period was later quiet =>
    exact h.rest_watching hsound htask (hout' (by simp [quiet])) later period
  | warned was => exact (h.tellStop (hwatched _ _ was)).filter _
  | waits since does call waiting goal =>
    exact h.rest_refreshing hsound htask does call waiting (hcall does call) since
      fun next period hgoal => hperiod s.now next period (goal.trans hgoal)
  | ticks does call told goal later =>
    have hout := notMem_ready_affected rules hsound htask does call (hcall does call)
    exact haffected.rest_ticking hout (hperiod _ _ _ goal) later
  | lags does call told goal late =>
    have hout := notMem_ready_affected rules hsound htask does call (hcall does call)
    exact haffected.rest_lagging (hsound.tidy.started task htask) hout (hperiod _ _ _ goal) late

end Prompt

section Others

def ToStop (s : Schedule σ) (id : Ticket) : Prop :=
  ∃ task ∈ s.tasks, task.id = id ∧ task.activity = .stopping

theorem mem_rest_of_ne {activity : Activity σ} (htask : task ∈ s.tasks) (hid : task.id ≠ id) :
    task ∈ (s.rest id activity).tasks :=
  List.mem_map.mpr ⟨task, htask, if_neg hid⟩

theorem mem_rest_self {activity : Activity σ} (htask : task ∈ s.tasks) :
    ⟨task.id, activity, s.waits⟩ ∈ (s.rest task.id activity).tasks :=
  List.mem_map.mpr ⟨task, htask, if_pos rfl⟩

/-- A task that does not run stays where it is unless the one that runs tells it to stop. -/
theorem Ran.kept {other : Task σ} (h : Ran rules s task t) (hother : other ∈ s.tasks)
    (hid : other.id ≠ task.id) : other ∈ t.tasks ∨
      (t.ToStop other.id ∧ ∃ wakeAt, task.activity = .watching wakeAt other.id) := by
  cases h with
  | ended => exact .inl (List.mem_filter.mpr ⟨hother, by simpa using hid⟩)
  | watching => exact .inl (List.mem_append_left _ (mem_rest_of_ne hother hid))
  | asleep | waits | ticks | lags => exact .inl (mem_rest_of_ne (s := s) hother hid)
  | @warned wakeAt background was =>
    rw [tellStop_eq]
    by_cases hbackground : other.id = background
    · subst hbackground
      refine .inr ⟨⟨_, List.mem_filter.mpr ⟨mem_rest_self hother, ?_⟩, rfl, rfl⟩, wakeAt, was⟩
      simpa using hid
    · exact .inl (List.mem_filter.mpr ⟨mem_rest_of_ne hother hbackground, by simpa using hid⟩)

theorem Ran.started_le (h : Ran rules s task t) : s.started ≤ t.started := by
  cases h with
  | ended | asleep | waits | ticks | lags => exact le_rfl
  | watching => exact Nat.le_succ _
  | warned =>
    rw [tellStop_eq]
    exact le_rfl

/-- When another task has run, a task stands where it stood or is to stop. -/
theorem Ran.mem_of_mem {other : Task σ} (h : Ran rules s task t) (hother : other ∈ t.tasks)
    (hid : other.id ≠ task.id) (hstarted : other.id < s.started) :
    other ∈ s.tasks ∨ other.activity = .stopping := by
  have hrest : ∀ {activity : Activity σ}, other ∈ (s.rest task.id activity).tasks →
      other ∈ s.tasks ∨ other.activity = .stopping := by
    intro activity hmem
    rcases mem_tasks_rest hmem with ⟨hold, -⟩ | rfl
    · exact .inl hold
    · exact absurd rfl hid
  cases h with
  | ended => exact .inl (List.mem_of_mem_filter hother)
  | asleep | waits | ticks | lags => exact hrest hother
  | watching =>
    rcases List.mem_append.mp hother with hmem | hnew
    · exact hrest hmem
    · rw [List.mem_singleton.mp hnew] at hstarted
      exact absurd hstarted (Nat.lt_irrefl _)
  | warned =>
    rw [tellStop_eq] at hother
    rcases mem_tasks_rest (List.mem_of_mem_filter hother) with ⟨hold, -⟩ | rfl
    · exact .inl hold
    · exact .inr rfl

/-- What comes of letting a background task run: it is in a call of refresh that is left waiting, or
its call has ended and it waits for its next tick. -/
theorem Ran.of_goal {next period : Nat} (h : Ran rules s task t) (htask : task ∈ s.tasks)
    (hgoal : task.activity.goal? s.now = some (next, period)) :
    ∃ act, task.act? = some act ∧ (act = .arrive ∨ act = .wake) ∧
      (((s.refresher.perform rules task.id s.now act).2 = .waiting ∧ ∃ since order,
        ⟨task.id, .refreshing (.tick next period) since, order⟩ ∈ t.tasks) ∨
      ∃ outcome order, (s.refresher.perform rules task.id s.now act).2 = .told outcome ∧
        ⟨task.id, .ticking next period, order⟩ ∈ t.tasks) := by
  cases h with
  | ended answers idle => cases idle.symm.trans hgoal
  | asleep was | watching _ was =>
    obtain ⟨wait, step, heq | heq⟩ := was <;> rw [heq] at hgoal <;> cases hgoal
  | warned was =>
    rw [was] at hgoal
    cases hgoal
  | @waits act purpose since does call waiting goal =>
    refine ⟨act, does, call, .inl ⟨waiting, since, s.waits, ?_⟩⟩
    have hpurpose := goal.symm.trans hgoal
    cases purpose with
    | tick =>
      cases hpurpose
      exact mem_rest_self (s := s) htask
    | refresh | scrape | page => cases hpurpose
  | @ticks act _ _ outcome does call told goal | @lags act _ _ outcome does call told goal =>
    cases goal.symm.trans hgoal
    exact ⟨act, does, call, .inr ⟨outcome, s.waits, told, mem_rest_self (s := s) htask⟩⟩

end Others

end Schedule

end PoolGauge
