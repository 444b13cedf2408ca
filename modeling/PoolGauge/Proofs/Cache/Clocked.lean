import PoolGauge.Proofs.Cache.Clock

/-!
# Runs by the clock

A run by the clock takes turns as the executor does. Tasks may be added, told to stop or stopped in
between. Everything stays on time in it.
-/
namespace PoolGauge.Schedule

variable {σ : Type} {rules : RefreshRules σ} {s t : Schedule σ} {task : Task σ} {log : Log}

/-- What happens when a task runs. -/
def moments (rules : RefreshRules σ) (s : Schedule σ) (task : Task σ) : Timeline σ :=
  match task.act? with
  | none => []
  | some act => (s.refresher.happenings rules task.id s.now act).map (Moment.mk s.now)

def upcoming (rules : RefreshRules σ) (s : Schedule σ) : Timeline σ :=
  match s.ready with
  | [] => []
  | id :: _ =>
    match s.tasks.find? (·.id == id) with
    | some task => s.moments rules task
    | none => []

/-- The clock moves to the first time that some task waits for, and those can run that wait for
it. -/
structure Jumps (rules : RefreshRules σ) (s : Schedule σ) (time : Nat) (ready : List Ticket) :
    Prop where
  first : ∀ task ∈ s.tasks, ∀ alarm, s.alarm? rules task = some alarm → time ≤ alarm
  awaited : ∃ task ∈ s.tasks, s.alarm? rules task = some time
  due : ready.Perm ((s.tasks.filter fun task => s.alarm? rules task = some time).map Task.id)

/-- What a turn is, with what happens in it: the first task in line runs, or it has ended already,
or nobody stands in line and the clock moves. -/
inductive Turn (rules : RefreshRules σ) (s : Schedule σ) : Timeline σ → Schedule σ → Prop
  | run {task : Task σ} {rest : List Ticket} (mem : task ∈ s.tasks)
      (first : s.ready = task.id :: rest) :
      Turn rules s (s.moments rules task) ({ s with ready := rest }.runTask rules task)
  | skip {id : Ticket} {rest : List Ticket} (first : s.ready = id :: rest)
      (gone : ∀ task ∈ s.tasks, task.id ≠ id) : Turn rules s [] { s with ready := rest }
  | jump {time : Nat} {ready : List Ticket} (idle : s.ready = [])
      (jumps : s.Jumps rules time ready) : Turn rules s [] { s with now := time, ready }

variable {time : Nat} {ready : List Ticket} {new : Timeline σ}

theorem jumps_of_jump? (h : s.jump? rules = some t) :
    ∃ time ready, t = { s with now := time, ready } ∧ s.Jumps rules time ready := by
  obtain ⟨time, hmin, rfl⟩ := Option.map_eq_some_iff.mp h
  obtain ⟨hmem, hfirst⟩ := List.min?_eq_some_iff.mp hmin
  obtain ⟨task, htask, halarm⟩ := List.mem_filterMap.mp hmem
  refine ⟨time, _, rfl, fun other hother alarm heq => ?_, ⟨task, htask, halarm⟩,
    (List.mergeSort_perm _ _).map _⟩
  exact hfirst alarm (List.mem_filterMap.mpr ⟨other, hother, heq⟩)

theorem turn_of_next? (h : s.next? rules = some t) : Turn rules s (s.upcoming rules) t := by
  rw [next?] at h
  rw [upcoming]
  split at h
  · rename_i id rest hready
    rw [hready]
    dsimp only at h ⊢
    split at h
    · rename_i task hfind
      obtain rfl := Option.some.inj h
      obtain rfl : task.id = id := by simpa using List.find?_some hfind
      rw [hfind]
      exact .run (List.mem_of_find?_eq_some hfind) hready
    · rename_i hfind
      obtain rfl := Option.some.inj h
      rw [hfind]
      refine .skip hready fun task htask heq => ?_
      simpa [heq] using List.find?_eq_none.mp hfind task htask
  · rename_i hready
    rw [hready]
    obtain ⟨time, ready, rfl, hjumps⟩ := jumps_of_jump? h
    exact .jump hready hjumps

/-- A task that could not run before the clock moved can afterwards if it waits for this time. -/
theorem Jumps.runnable_iff (h : s.Jumps rules time ready) (htask : task ∈ s.tasks)
    (hnot : ¬ s.Runnable rules task) :
    { s with now := time, ready }.Runnable rules task ↔ s.alarm? rules task = some time := by
  have hfirst := h.first task htask
  obtain ⟨id, activity, order⟩ := task
  have htime : ∀ {alarm}, s.alarm? rules ⟨id, activity, order⟩ = some alarm →
      (alarm ≤ time ↔ s.alarm? rules ⟨id, activity, order⟩ = some time) := by
    intro alarm heq
    rw [heq, Option.some_inj]
    exact ⟨fun hle => Nat.le_antisymm hle (hfirst alarm heq), le_of_eq⟩
  cases activity with
  | starting | looping | stopping => exact absurd trivial hnot
  | delayed wakeAt step => exact htime rfl
  | sleeping wakeAt => exact htime rfl
  | watching wakeAt background => exact htime rfl
  | ticking deadline period => exact htime rfl
  | refreshing purpose since =>
    constructor
    · rintro (hturn | ⟨alarm, heq, hle⟩)
      · exact absurd (Or.inl hturn) hnot
      · exact (htime heq).mp hle
    · exact fun heq => .inr ⟨time, heq, le_rfl⟩

theorem Jumps.now_lt (h : s.Jumps rules time ready) (hprompt : s.Prompt rules none)
    (hidle : s.ready = []) : s.now < time := by
  obtain ⟨task, htask, halarm⟩ := h.awaited
  have hnot : ¬ s.Runnable rules task := by
    rw [← (hprompt.onTime htask).due, hidle]
    exact List.not_mem_nil
  refine Nat.lt_of_not_le fun hle => hnot ?_
  obtain ⟨id, activity, order⟩ := task
  cases activity with
  | starting | looping | stopping => trivial
  | delayed | sleeping | watching | ticking =>
    cases halarm
    exact hle
  | refreshing => exact .inr ⟨time, halarm, hle⟩

/-- The tasks that can run after the clock has moved stand in line. -/
theorem Jumps.onTime (h : s.Jumps rules time ready) (htidy : s.Tidy) (htask : task ∈ s.tasks)
    (hontime : s.OnTime rules task) (hidle : s.ready = []) :
    { s with now := time, ready }.OnTime rules task := by
  have hnot : ¬ s.Runnable rules task := by
    rw [← hontime.due, hidle]
    exact List.not_mem_nil
  refine ⟨?_, fun _ => ?_, hontime.watched, hontime.period⟩
  · rw [h.runnable_iff htask hnot, h.due.mem_iff, List.mem_map]
    constructor
    · rintro ⟨other, hmem, hid⟩
      obtain ⟨hother, halarm⟩ := List.mem_filter.mp hmem
      obtain rfl := List.inj_on_of_nodup_map htidy.nodup hother htask hid
      exact of_decide_eq_true halarm
    · exact fun halarm => ⟨task, List.mem_filter.mpr ⟨htask, decide_eq_true halarm⟩, rfl⟩
  · have hnodup := htidy.nodup.sublist
      ((List.filter_sublist (p := fun task => s.alarm? rules task = some time)).map Task.id)
    exact List.nodup_iff_count_le_one.mp (h.due.nodup_iff.mpr hnodup) task.id

/-- A call that has been let in stands in line to run. -/
theorem Prompt.mem_ready_of_granted (h : s.Prompt rules none) (hsound : s.Sound log) {c : Ticket}
    (hgranted : s.refresher.granted? = some c) : c ∈ s.ready := by
  obtain ⟨seen, hholder⟩ := Refresher.granted?_eq_some_iff.mp hgranted
  obtain ⟨task, htask, rfl, hinCall⟩ := hsound.serves c (Refresher.mem_calls_of_holder hholder)
  refine (h.onTime htask).due.mpr ?_
  obtain ⟨id, activity, order⟩ := task
  cases activity with
  | refreshing => exact .inl hgranted
  | stopping => trivial
  | starting | delayed | sleeping | watching | looping | ticking => exact hinCall.elim

/-- A collection that is under way goes on by itself. -/
theorem Sound.alarm?_of_attempt (rules : RefreshRules σ) (h : s.Sound log) {c : Ticket}
    {attempt : Attempt}
    (hattempt : s.refresher.attempt? c = some attempt) : ∃ task ∈ s.tasks, task.id = c ∧
      (task.activity = .stopping ∨ s.alarm? rules task =
        some (min attempt.replyAt (attempt.started + rules.limit))) := by
  have hcalls := Refresher.mem_calls_of_holder (Refresher.attempt?_eq_some_iff.mp hattempt)
  obtain ⟨⟨id, activity, order⟩, htask, rfl, hcall⟩ := h.serves c hcalls
  refine ⟨_, htask, rfl, ?_⟩
  cases activity with
  | stopping => exact .inl rfl
  | refreshing purpose since =>
    refine .inr ?_
    rw [alarm?, Refresher.alarm?, hattempt]
    rfl
  | starting | delayed | sleeping | watching | looping | ticking => exact hcall.elim

theorem Jumps.prompt (h : s.Jumps rules time ready) (hsound : s.Sound log)
    (hprompt : s.Prompt rules none) (hidle : s.ready = []) :
    { s with now := time, ready }.Prompt rules none where
  tasks task htask _ := h.onTime hsound.tidy htask (hprompt.onTime htask) hidle
  known id hmem := by
    obtain ⟨task, htask, rfl⟩ := List.mem_map.mp (h.due.mem_iff.mp hmem)
    exact hsound.tidy.started task (List.mem_of_mem_filter htask)
  timely c attempt hattempt := by
    have hstarted := (hprompt.timely c attempt hattempt).1
    have hlater := h.now_lt hprompt hidle
    obtain ⟨task, htask, rfl, hstop | halarm⟩ := hsound.alarm?_of_attempt rules hattempt
    · have hready := (hprompt.onTime htask).due.mpr (by rw [Runnable, hstop]; trivial)
      rw [hidle] at hready
      contradiction
    · have hle := Nat.le_min.mp (h.first task htask _ halarm)
      exact ⟨hstarted.trans hlater.le, hle⟩

/-- After every turn everything is on time. -/
theorem Prompt.turn (h : s.Prompt rules none) (hsound : s.Sound log) (hturn : Turn rules s new t) :
    t.Prompt rules none := by
  cases hturn with
  | @run task rest mem first =>
    obtain ⟨hpopped, hout⟩ := h.pop first
    have hontime := h.onTime mem
    have hsound' : { s with ready := rest }.Sound log :=
      hsound.of_touches (fun _ => .of_eq rfl rfl) rfl
    exact hpopped.ran hsound' mem (hout task mem rfl) hontime.watched hontime.period
      (ran_runTask rules _ task)
  | skip first gone => exact (h.pop first).1.done fun task htask hid => absurd hid (gone task htask)
  | jump idle jumps => exact jumps.prompt hsound h idle

/-- What may happen next by the clock: the next turn comes, a task is added, one is told to stop or
stopped, or answers are taken away. -/
inductive Advance (rules : RefreshRules σ) (s : Schedule σ) : Timeline σ → Schedule σ → Prop
  | turn {t : Schedule σ} (next : s.next? rules = some t) : Advance rules s (s.upcoming rules) t
  | spawn (delay : Nat) (step : Step σ) : Advance rules s [] (s.spawn (.starting delay step))
  | tellStop {task : Task σ} (mem : task ∈ s.tasks) : Advance rules s [] (s.tellStop task.id)
  | stop {task : Task σ} (mem : task ∈ s.tasks) : Advance rules s
      ((s.refresher.happenings rules task.id s.now .abandon).map (Moment.mk s.now)) (s.stop task.id)
  | forget (answers : List (Ticket × Answer)) : Advance rules s [] { s with answers }

/-- A run by the clock with everything that happens to calls of refresh during it. -/
inductive Clocked (rules : RefreshRules σ) (s : Schedule σ) : Timeline σ → Schedule σ → Prop
  | refl : Clocked rules s [] s
  | next {t u : Schedule σ} {timeline new : Timeline σ} (run : Clocked rules s timeline t)
      (step : Advance rules t new u) : Clocked rules s (new ++ timeline) u

/-- A run in which only turns come. -/
inductive Unattended (rules : RefreshRules σ) (s : Schedule σ) : Timeline σ → Schedule σ → Prop
  | refl : Unattended rules s [] s
  | next {t u : Schedule σ} {timeline : Timeline σ} (run : Unattended rules s timeline t)
      (turn : t.next? rules = some u) : Unattended rules s (t.upcoming rules ++ timeline) u

variable {timeline later : Timeline σ} {source : σ} {u : Schedule σ}

theorem Clocked.trans (h : Clocked rules s timeline t) (h' : Clocked rules t later u) :
    Clocked rules s (later ++ timeline) u := by
  induction h' with
  | refl => exact h
  | next _ step ih =>
    rw [List.append_assoc]
    exact ih.next step

theorem Unattended.clocked (h : Unattended rules s timeline t) : Clocked rules s timeline t := by
  induction h with
  | refl => exact .refl
  | next _ turn ih => exact ih.next (.turn turn)

theorem Unattended.cons (hturn : s.next? rules = some t) (h : Unattended rules t timeline u) :
    Unattended rules s (timeline ++ s.upcoming rules) u := by
  induction h with
  | refl => simpa using Unattended.refl.next hturn
  | next _ turn ih =>
    rw [List.append_assoc]
    exact ih.next turn

theorem Unattended.trans (h : Unattended rules s timeline t) (h' : Unattended rules t later u) :
    Unattended rules s (later ++ timeline) u := by
  induction h' with
  | refl => exact h
  | next _ turn ih =>
    rw [List.append_assoc]
    exact ih.next turn

theorem log_moments (rules : RefreshRules σ) (s : Schedule σ) (task : Task σ) :
    Timeline.log (s.moments rules task) = s.events rules task := by
  rw [moments, events]
  cases task.act? with
  | none => rfl
  | some act => exact (Timeline.log_map_mk ..).trans (Refresher.filterMap_happenings act)

theorem Turn.reaches (h : Turn rules s new t) : Reaches rules s (Timeline.log new) t := by
  cases h with
  | @run task rest mem first =>
    have hpass : Reaches rules s [] { s with ready := rest } :=
      (Transition.pass s.now rest s.answers).reaches
    have hrun := hpass.next (.run mem)
    rw [List.append_nil] at hrun
    rw [log_moments]
    exact hrun
  | @skip id rest first gone => exact (Transition.pass s.now rest s.answers).reaches
  | @jump time ready idle jumps => exact (Transition.pass time ready s.answers).reaches

theorem Advance.reaches (h : Advance rules s new t) : Reaches rules s (Timeline.log new) t := by
  cases h with
  | turn next => exact (turn_of_next? next).reaches
  | spawn delay step => exact (Transition.spawn delay step).reaches
  | tellStop mem => exact (Transition.tellStop _).reaches
  | @stop task mem =>
    rw [Timeline.log_map_mk, Refresher.filterMap_happenings]
    have hstop : Transition rules s _ (s.stop task.id) := .stop task.id
    have hrun := hstop.reaches
    rwa [List.append_nil] at hrun
  | forget answers => exact (Transition.pass s.now s.ready answers).reaches

/-- What happens by the clock may happen. -/
theorem Clocked.reaches (h : Clocked rules s timeline t) :
    Reaches rules s (Timeline.log timeline) t := by
  induction h with
  | refl => exact .refl
  | next _ step ih =>
    rw [Timeline.log_append]
    exact ih.trans step.reaches

theorem Prompt.stop (h : s.Prompt rules none) (hsound : s.Sound log) (htask : task ∈ s.tasks) :
    (s.stop task.id).Prompt rules none := by
  have hfresh : (Act.abandon : Act σ) = .arrive → task.id ∉ s.refresher.turns.calls := nofun
  exact ((h.during task.id).adopt hsound hfresh (hsound.tidy.started task htask)).filter s.answers

theorem Prompt.advance (h : s.Prompt rules none) (hsound : s.Sound log)
    (hadvance : Advance rules s new t) : t.Prompt rules none := by
  cases hadvance with
  | turn next => exact h.turn hsound (turn_of_next? next)
  | spawn delay step => exact h.spawn hsound.tidy (.inl ⟨delay, step, rfl⟩)
  | tellStop mem => exact h.tellStop (hsound.tidy.started _ mem)
  | stop mem => exact h.stop hsound mem
  | forget answers =>
    exact ⟨fun task htask hrunning => (h.tasks task htask hrunning).of_eq rfl rfl rfl le_rfl,
      h.known, h.timely⟩

theorem prompt_initial (rules : RefreshRules σ) (source : σ) :
    (initial source).Prompt rules none where
  tasks := nofun
  known := nofun
  timely := nofun

/-- What holds of every run by the clock. -/
theorem Clocked.sound_prompt (h : Clocked rules (initial source) timeline s) :
    s.Sound (Timeline.log timeline) ∧ s.Prompt rules none := by
  refine ⟨h.reaches.sound, ?_⟩
  induction h with
  | refl => exact prompt_initial rules source
  | next run step ih => exact ih.advance run.reaches.sound step

section Executor

def timelineFor (rules : RefreshRules σ) : Nat → Schedule σ → Timeline σ
  | 0, _ => []
  | turns + 1, s =>
    match s.next? rules with
    | some next => timelineFor rules turns next ++ s.upcoming rules
    | none => []

theorem unattended_runFor (rules : RefreshRules σ) (turns : Nat) (s : Schedule σ) :
    Unattended rules s (s.timelineFor rules turns) (s.runFor rules turns) := by
  induction turns generalizing s with
  | zero => exact .refl
  | succ turns ih =>
    rw [runFor, timelineFor]
    cases hnext : s.next? rules with
    | none => exact .refl
    | some t => exact .cons hnext (ih t)

theorem clocked_spawned (rules : RefreshRules σ) (steps : List (Nat × Step σ)) (s : Schedule σ) :
    Clocked rules s [] (steps.foldl (fun s (delay, step) => s.spawn (.starting delay step)) s) := by
  induction steps generalizing s with
  | nil => exact .refl
  | cons first rest ih => exact (Clocked.refl.next (.spawn first.1 first.2)).trans (ih _)

/-- What the executor makes of some steps is a run by the clock. -/
theorem clocked_run (rules : RefreshRules σ) (s : Schedule σ) (steps : List (Nat × Step σ)) :
    ∃ timeline, Clocked rules s timeline (s.run rules steps).1 := by
  have hrun := unattended_runFor rules (turns rules steps)
    (steps.foldl (fun s (delay, step) => s.spawn (.starting delay step)) s)
  exact ⟨_, ((clocked_spawned rules steps s).trans hrun.clocked).next (.forget [])⟩

end Executor

end PoolGauge.Schedule
