import PoolGauge.Proofs.Cache.Clocked

/-!
# The clock moves on

As long as tasks stand in line to run, what is left to do at this time gets less with every turn, so
at last the clock moves. A background task that is late makes up for its lateness by one period with
every tick, which pays for these ticks.
-/
namespace PoolGauge

variable {σ : Type}

/-- What a task may still make others and itself do before the clock moves. -/
def Activity.effort (now : Nat) : Activity σ → Nat
  | starting .. | delayed .. => 5
  | sleeping _ | stopping => 0
  | watching .. => 1
  | looping _ => 3
  | ticking deadline _ => 3 + 4 * (now - deadline)
  | refreshing (.tick next _) _ => 4 * (now + 1 - next)
  | refreshing .. => 0

namespace Refresher

variable {rules : RefreshRules σ} {r : Refresher σ} {c : Ticket} {now : Nat}

/-- The turns that the calls of a refresher and those it lets in may take. -/
theorem length_perform {act : Act σ} (htold : act = .arrive →
      ∃ outcome, (r.perform rules c now act).2 = .told outcome) :
    4 * (admitted r (r.perform rules c now act).1).length +
      6 * (r.perform rules c now act).1.queue.length ≤ 6 * r.queue.length := by
  cases act with
  | arrive =>
    obtain ⟨outcome, htold⟩ := htold rfl
    rcases comes_arrive rules r c now with ⟨-, heq⟩ | ⟨-, hcomes⟩
    · rw [perform, heq] at htold
      cases htold
    · exact hcomes.length
  | wake => exact (comes_wake rules r c now).length
  | abandon => exact length_abandon
  | set change => simp [perform, admitted_of_holder]

end Refresher

namespace Schedule

variable {rules : RefreshRules σ} {s t : Schedule σ} {id : Ticket} {task : Task σ} {log : Log}
  {new : Timeline σ}

def effortOf (now : Nat) (tasks : List (Task σ)) : Nat :=
  (tasks.map fun task => task.activity.effort now).sum

def effort (s : Schedule σ) : Nat :=
  4 * s.ready.length + 6 * s.refresher.queue.length + effortOf s.now s.tasks

@[simp] theorem effortOf_append (now : Nat) (xs ys : List (Task σ)) :
    effortOf now (xs ++ ys) = effortOf now xs + effortOf now ys := by
  simp [effortOf]

@[simp] theorem effortOf_cons (now : Nat) (task : Task σ) (tasks : List (Task σ)) :
    effortOf now (task :: tasks) = task.activity.effort now + effortOf now tasks := by
  simp [effortOf]

@[simp] theorem effortOf_nil (now : Nat) : effortOf now ([] : List (Task σ)) = 0 := rfl

/-- A task has its own place among the tasks. -/
theorem Tidy.split (h : s.Tidy) (htask : task ∈ s.tasks) : ∃ before after,
    s.tasks = before ++ task :: after ∧
    s.tasks.filter (·.id != task.id) = before ++ after ∧
    ∀ activity, (s.rest task.id activity).tasks =
      before ++ ⟨task.id, activity, s.waits⟩ :: after := by
  obtain ⟨before, after, heq⟩ := List.append_of_mem htask
  have hnodup := h.nodup
  rw [heq, List.map_append, List.map_cons, List.nodup_middle, List.nodup_cons,
    ← List.map_append] at hnodup
  have hothers : ∀ other ∈ before ++ after, other.id ≠ task.id := by
    intro other hother hid
    exact hnodup.1 (hid ▸ List.mem_map_of_mem hother)
  have hbefore : ∀ other ∈ before, other.id ≠ task.id :=
    fun other hother => hothers other (List.mem_append_left _ hother)
  have hafter : ∀ other ∈ after, other.id ≠ task.id :=
    fun other hother => hothers other (List.mem_append_right _ hother)
  refine ⟨before, after, heq, ?_, fun activity => ?_⟩
  · rw [heq, List.filter_append, List.filter_cons_of_neg (by simp)]
    rw [List.filter_eq_self.mpr fun other hother => bne_iff_ne.mpr (hbefore other hother),
      List.filter_eq_self.mpr fun other hother => bne_iff_ne.mpr (hafter other hother)]
  · have hsame : ∀ others : List (Task σ), (∀ other ∈ others, other.id ≠ task.id) →
        others.map (fun other =>
          if other.id = task.id then ⟨task.id, activity, s.waits⟩ else other) = others := by
      intro others hne
      exact (List.map_congr_left fun other hother => if_neg (hne other hother)).trans
        (List.map_id _)
    rw [rest, heq, List.map_append, List.map_cons, hsame before hbefore, hsame after hafter,
      if_pos rfl]

/-- A task that is told to stop has nothing else to do. -/
theorem effortOf_rest_stopping_le (s : Schedule σ) (id other : Ticket) (now : Nat) :
    effortOf now ((s.rest other .stopping).tasks.filter (·.id != id)) ≤
      effortOf now (s.tasks.filter (·.id != id)) := by
  rw [rest]
  induction s.tasks with
  | nil => exact le_rfl
  | cons task tasks ih =>
    rw [List.map_cons]
    by_cases hother : task.id = other
    · rw [if_pos hother]
      by_cases hid : task.id = id
      · rw [List.filter_cons_of_neg (by simp [← hother, hid]),
          List.filter_cons_of_neg (by simp [hid])]
        exact ih
      · rw [List.filter_cons_of_pos (by simp [← hother, hid]),
          List.filter_cons_of_pos (by simp [hid]), effortOf_cons, effortOf_cons]
        exact Nat.add_le_add (Nat.zero_le _) ih
    · rw [if_neg hother]
      by_cases hid : task.id = id
      · rw [List.filter_cons_of_neg (by simp [hid]), List.filter_cons_of_neg (by simp [hid])]
        exact ih
      · rw [List.filter_cons_of_pos (by simp [hid]), List.filter_cons_of_pos (by simp [hid]),
          effortOf_cons, effortOf_cons]
        exact Nat.add_le_add_left ih _

section Ran

variable {act : Act σ}

theorem effort_adopt (s : Schedule σ) (r : Refresher σ) :
    (s.adopt r).effort + 6 * s.refresher.queue.length =
      s.effort + (4 * (Refresher.admitted s.refresher r).length + 6 * r.queue.length) := by
  rw [effort, effort, adopt_eq]
  dsimp only
  rw [List.length_append]
  omega

/-- What a change of the refresher brings with it is no more than was there unless a call joins the
line. -/
theorem effort_affected_le (rules : RefreshRules σ) (s : Schedule σ)
    (htold : task.act? = some .arrive →
      ∃ outcome, (s.refresher.perform rules task.id s.now .arrive).2 = .told outcome) :
    (s.affected rules task).effort ≤ s.effort := by
  cases hact : task.act? with
  | none => rw [affected, hact, acted, adopt_of_holder rfl]
  | some act =>
    have htold' : act = .arrive →
        ∃ outcome, (s.refresher.perform rules task.id s.now act).2 = .told outcome := by
      rintro rfl
      exact htold hact
    have hlength := Refresher.length_perform htold'
    have hadopt := s.effort_adopt (s.refresher.perform rules task.id s.now act).1
    rw [affected, hact, acted]
    omega

theorem effort_affected_told (rules : RefreshRules σ) (s : Schedule σ) {outcome : Outcome}
    (does : task.act? = some act)
    (told : (s.refresher.perform rules task.id s.now act).2 = .told outcome) :
    (s.affected rules task).effort ≤ s.effort := by
  refine effort_affected_le rules s fun harrive => ⟨outcome, ?_⟩
  rw [← told, Option.some.inj (does.symm.trans harrive)]

theorem effort_affected_arrive (rules : RefreshRules σ) (s : Schedule σ)
    (does : task.act? = some .arrive) : (s.affected rules task).effort ≤ s.effort + 6 := by
  have hlength : 4 * (Refresher.admitted s.refresher
      (s.refresher.perform rules task.id s.now .arrive).1).length +
      6 * (s.refresher.perform rules task.id s.now .arrive).1.queue.length ≤
        6 * s.refresher.queue.length + 6 := Refresher.length_arrive
  have hadopt := s.effort_adopt (s.refresher.perform rules task.id s.now .arrive).1
  rw [affected, does, acted]
  omega

theorem effort_of_arrive (does : task.act? = some .arrive) : 3 ≤ task.activity.effort s.now := by
  obtain ⟨id, activity, order⟩ := task
  cases activity with
  | starting | delayed => exact Nat.le_of_ble_eq_true rfl
  | looping => exact le_rfl
  | ticking => exact Nat.le_add_right _ _
  | sleeping | watching | stopping | refreshing => cases does

/-- The ticks that a background task will have to make at once were to come before its tick. -/
theorem effort_of_goal {next period : Nat}
    (goal : task.activity.goal? s.now = some (next, period)) (hperiod : 0 < period) :
    4 * (s.now + 1 - next) ≤ task.activity.effort s.now ∧
    (task.act? = some .arrive → 4 * (s.now + 1 - next) + 3 ≤ task.activity.effort s.now) := by
  rcases Activity.of_goal? goal with
    ⟨hactivity, -, rfl⟩ | ⟨deadline, hactivity, rfl⟩ | ⟨since, hactivity⟩
  · rw [hactivity, Activity.effort]
    omega
  · have hnext : s.now + 1 - nextTick deadline period s.now ≤ s.now - deadline := by
      rw [nextTick]
      split <;> omega
    rw [hactivity, Activity.effort]
    omega
  · refine ⟨by rw [hactivity, Activity.effort], fun does => ?_⟩
    rw [Task.act?, hactivity] at does
    cases does

theorem effort_refreshing {purpose : Purpose} (since : Nat)
    (goal : task.activity.goal? s.now = purpose.goal?)
    (hperiod : ∀ next period, task.activity.goal? s.now = some (next, period) → 0 < period) :
    (Activity.refreshing (σ := σ) purpose since).effort s.now ≤ task.activity.effort s.now ∧
    (task.act? = some .arrive →
      (Activity.refreshing (σ := σ) purpose since).effort s.now + 3 ≤
        task.activity.effort s.now) := by
  cases purpose with
  | tick next period => exact effort_of_goal goal (hperiod next period goal)
  | refresh | scrape | page =>
    exact ⟨Nat.zero_le _, fun does => (Nat.zero_add 3).trans_le (effort_of_arrive does)⟩

section Rests

variable (htidy : s.Tidy) (htask : task ∈ s.tasks)

include htidy htask

theorem effort_close (answers : List (Ticket × Answer)) :
    { s with tasks := s.tasks.filter (·.id != task.id), answers }.effort +
      task.activity.effort s.now = s.effort := by
  obtain ⟨before, after, htasks, hfilter, -⟩ := htidy.split htask
  rw [effort, effort, hfilter, htasks]
  simp
  omega

theorem effort_rest (activity : Activity σ) :
    (s.rest task.id activity).effort + task.activity.effort s.now =
      s.effort + activity.effort s.now := by
  obtain ⟨before, after, htasks, -, hrest⟩ := htidy.split htask
  have heffort : (s.rest task.id activity).effort =
      4 * s.ready.length + 6 * s.refresher.queue.length +
        effortOf s.now (before ++ ⟨task.id, activity, s.waits⟩ :: after) := by
    rw [← hrest]
    rfl
  rw [heffort, effort, htasks]
  simp
  omega

/-- The task that is told to stop may have to run for it. -/
theorem effort_tellStop_close (background : Ticket) (answer : Answer) :
    ((s.tellStop background).close task.id answer).effort + task.activity.effort s.now ≤
      s.effort + 4 := by
  have hstopping := effortOf_rest_stopping_le s task.id background s.now
  have hready : (if background ∈ s.ready then s.ready else s.ready ++ [background]).length ≤
      s.ready.length + 1 := by
    split
    · exact Nat.le_succ _
    · rw [List.length_append, List.length_singleton]
  have hclosed : ((s.tellStop background).close task.id answer).effort =
      4 * (if background ∈ s.ready then s.ready else s.ready ++ [background]).length +
      6 * s.refresher.queue.length +
      effortOf s.now ((s.rest background .stopping).tasks.filter (·.id != task.id)) := by
    rw [tellStop_eq]
    rfl
  have hclose := effort_close htidy htask s.answers
  rw [effort] at hclose
  dsimp only at hclose
  omega

end Rests

theorem effort_cons_ready (s : Schedule σ) (id : Ticket) :
    { s with ready := id :: s.ready }.effort = s.effort + 4 := by
  rw [effort, effort, List.length_cons]
  dsimp only
  omega

theorem effort_spawn (s : Schedule σ) (activity : Activity σ) :
    (s.spawn activity).effort = s.effort + 4 + activity.effort s.now := by
  rw [effort, effort, spawn]
  simp
  omega

theorem tidy_affected (rules : RefreshRules σ) (htidy : s.Tidy) (task : Task σ) :
    (s.affected rules task).Tidy :=
  ⟨htidy.nodup, htidy.started⟩

/-- A task that has begun a call or gone on with one, and is left waiting, has less to do. -/
theorem effort_rest_refreshing {purpose : Purpose} (htidy : s.Tidy) (htask : task ∈ s.tasks)
    (does : task.act? = some act) (call : act = .arrive ∨ act = .wake) (since : Nat)
    (goal : task.activity.goal? s.now = purpose.goal?)
    (hperiod : ∀ next period, task.activity.goal? s.now = some (next, period) → 0 < period) :
    ((s.affected rules task).rest task.id (.refreshing purpose since)).effort < s.effort + 4 := by
  obtain ⟨hstill, harrive⟩ := effort_refreshing since goal hperiod
  have hrest : ((s.affected rules task).rest task.id (.refreshing purpose since)).effort +
      task.activity.effort s.now = (s.affected rules task).effort +
        (Activity.refreshing (σ := σ) purpose since).effort s.now :=
    effort_rest (tidy_affected rules htidy task) htask _
  rcases call with rfl | rfl
  · have haffected := effort_affected_arrive rules s does
    have := harrive does
    omega
  · have haffected := effort_affected_le rules s fun harrive => nomatch does.symm.trans harrive
    omega

/-- A background task whose call has ended makes the ticks that are late. -/
theorem effort_rest_ticking {outcome : Outcome} (htidy : s.Tidy) (htask : task ∈ s.tasks)
    (does : task.act? = some act)
    (told : (s.refresher.perform rules task.id s.now act).2 = .told outcome) (next period : Nat) :
    ((s.affected rules task).rest task.id (.ticking next period)).effort +
      task.activity.effort s.now ≤ s.effort + (3 + 4 * (s.now - next)) := by
  have hrest := effort_rest (tidy_affected rules htidy task) htask (.ticking next period)
  exact hrest.le.trans (Nat.add_le_add_right (effort_affected_told rules s does told) _)

/-- When a task has run less is left to do, counting its turn. -/
theorem effort_ran (htidy : s.Tidy) (htask : task ∈ s.tasks)
    (hperiod : ∀ next period, task.activity.goal? s.now = some (next, period) → 0 < period)
    (hran : Ran rules s task t) : t.effort < s.effort + 4 := by
  have hwas : (∃ wait step, task.activity = .starting wait step ∨
      task.activity = .delayed wait step) → task.activity.effort s.now = 5 := by
    rintro ⟨wait, step, heq | heq⟩ <;> rw [heq] <;> rfl
  cases hran with
  | ended answers idle told =>
    have haffected := effort_affected_le rules s told
    have hclose := effort_close (tidy_affected rules htidy task) htask answers
    exact (Nat.le_of_add_right_le (hclose.le.trans haffected)).trans_lt (by omega)
  | @asleep wakeAt activity was is later quiet =>
    have hrest := effort_rest htidy htask activity
    have his : activity.effort s.now ≤ 5 := by
      rcases is with rfl | ⟨step, rfl⟩
      · exact Nat.zero_le 5
      · exact le_rfl
    have := hwas was
    omega
  | @watching period wakeAt was later quiet =>
    have hrest : (s.rest task.id (.watching wakeAt s.started)).effort +
        task.activity.effort s.now = s.effort + 1 := effort_rest htidy htask _
    have hspawn : ((s.rest task.id (.watching wakeAt s.started)).spawn (.looping period)).effort =
        (s.rest task.id (.watching wakeAt s.started)).effort + 4 + 3 := effort_spawn _ _
    have := hwas was
    omega
  | @warned wakeAt background was =>
    have hclose := effort_tellStop_close htidy htask background .nothing
    have hone : task.activity.effort s.now = 1 := was ▸ rfl
    omega
  | waits since does call waiting goal =>
    exact effort_rest_refreshing htidy htask does call since goal hperiod
  | @ticks act next period outcome does call told goal later =>
    have hticking := effort_rest_ticking htidy htask does told next period
    omega
  | @lags act next period outcome does call told goal late =>
    have hticking := effort_rest_ticking htidy htask does told next period
    have hgoal := (effort_of_goal goal (hperiod next period goal)).1
    have hready := effort_cons_ready
      ((s.affected rules task).rest task.id (.ticking next period)) task.id
    refine lt_of_eq_of_lt hready ?_
    omega

end Ran

/-- With every turn of a task, less is left to do before the clock moves; else the clock moves. -/
theorem Turn.lt (h : Turn rules s new t) (hsound : s.Sound log) (hprompt : s.Prompt rules none) :
    (t.now = s.now ∧ t.effort < s.effort) ∨ s.now < t.now := by
  cases h with
  | @run task rest mem first =>
    have hran := ran_runTask rules { s with ready := rest } task
    have htidy : { s with ready := rest }.Tidy := ⟨hsound.tidy.nodup, hsound.tidy.started⟩
    have hlt := effort_ran htidy mem ((hprompt.onTime mem).period s.now) hran
    have hpopped : s.effort = { s with ready := rest }.effort + 4 := by
      rw [effort, effort, first, List.length_cons]
      dsimp only
      omega
    exact .inl ⟨hran.now, hpopped ▸ hlt⟩
  | @skip id rest first gone =>
    refine .inl ⟨rfl, ?_⟩
    rw [effort, effort, first, List.length_cons]
    dsimp only
    omega
  | jump idle jumps => exact .inr (jumps.now_lt hprompt idle)

/-- There is a next turn as long as a task can run or waits for a time. -/
theorem exists_next? (htask : task ∈ s.tasks)
    (h : s.ready ≠ [] ∨ ∃ alarm, s.alarm? rules task = some alarm) :
    ∃ t, s.next? rules = some t := by
  rw [next?]
  split
  · dsimp only
    split
    · exact ⟨_, rfl⟩
    · exact ⟨_, rfl⟩
  · rename_i hidle
    obtain ⟨alarm, halarm⟩ := h.resolve_left fun hready => hready hidle
    have hmem : alarm ∈ s.tasks.filterMap (s.alarm? rules) :=
      List.mem_filterMap.mpr ⟨task, htask, halarm⟩
    cases hmin : (s.tasks.filterMap (s.alarm? rules)).min? with
    | none =>
      rw [List.min?_eq_none_iff.mp hmin] at hmem
      contradiction
    | some time =>
      rw [jump?, hmin]
      exact ⟨_, rfl⟩

/-- If something holds of a schedule until something else does, while there is always a next turn
and the clock does not come past some time, then that comes about in the end. -/
theorem eventually {I P : Schedule σ → Prop} (bound : Nat)
    (hstep : ∀ s, I s → (∃ log, s.Sound log) ∧ s.Prompt rules none ∧ s.now ≤ bound ∧
      ∃ t, s.next? rules = some t ∧ (P t ∨ I t)) {s : Schedule σ} (hs : I s) :
    ∃ timeline t, Unattended rules s timeline t ∧ P t := by
  obtain ⟨⟨log, hsound⟩, hprompt, hnow, t, hturn, hend | hstill⟩ := hstep s hs
  · exact ⟨_, t, .next .refl hturn, hend⟩
  · obtain ⟨timeline, u, hrun, hend⟩ := eventually bound hstep hstill
    exact ⟨_, u, .cons hturn hrun, hend⟩
termination_by (bound - s.now, s.effort)
decreasing_by
  have hnow' := (hstep t hstill).2.2.1
  rcases (turn_of_next? hturn).lt hsound hprompt with ⟨hsame, hless⟩ | hlater
  · rw [hsame]
    exact Prod.Lex.right _ hless
  · exact Prod.Lex.left _ _ (by omega)

end Schedule

end PoolGauge
