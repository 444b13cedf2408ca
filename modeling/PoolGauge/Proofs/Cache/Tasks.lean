import PoolGauge.Cache.Schedule
import PoolGauge.Proofs.Cache.Acts

/-!
# Tasks and their calls

Letting a task run does one thing to the refresher at most. A task is in one call of refresh at a
time, and only its own run ends that call.
-/
namespace PoolGauge

variable {σ : Type}

def Step.act? : Step σ → Option (Act σ)
  | .set change => some (.set change)
  | .refresh | .scrape .onScrape => some .arrive
  | .http request mode => if request.isScrape ∧ mode = .onScrape then some .arrive else none
  | .current | .scrape .interval | .sleep _ | .interval .. => none

/-- A step that begins neither goes on with a call nor gives one up. -/
theorem Step.act?_eq (step : Step σ) :
    step.act? = none ∨ step.act? = some .arrive ∨ ∃ change, step.act? = some (.set change) := by
  cases step with
  | set change => exact .inr (.inr ⟨change, rfl⟩)
  | refresh => exact .inr (.inl rfl)
  | current | sleep | interval => exact .inl rfl
  | scrape mode =>
    cases mode with
    | interval => exact .inl rfl
    | onScrape => exact .inr (.inl rfl)
  | http request mode =>
    rw [Step.act?]
    split
    · exact .inr (.inl rfl)
    · exact .inl rfl

theorem Step.act?_ne_wake (step : Step σ) : step.act? ≠ some .wake := by
  intro hwake
  rcases step.act?_eq with heq | heq | ⟨change, heq⟩ <;> cases heq.symm.trans hwake

theorem Step.act?_ne_abandon (step : Step σ) : step.act? ≠ some .abandon := by
  intro habandon
  rcases step.act?_eq with heq | heq | ⟨change, heq⟩ <;> cases heq.symm.trans habandon

def Task.act? (task : Task σ) : Option (Act σ) :=
  match task.activity with
  | .starting 0 step | .delayed _ step => step.act?
  | .stopping | .looping 0 => some .abandon
  | .looping _ | .ticking .. => some .arrive
  | .refreshing .. => some .wake
  | .starting .. | .sleeping _ | .watching .. => none

/-- Whether a task that stands there may be in a call of refresh. -/
def Activity.InCall : Activity σ → Prop
  | .refreshing .. | .stopping => True
  | _ => False

namespace Schedule

variable {s t u : Schedule σ} {id : Ticket}

def acted (rules : RefreshRules σ) (s : Schedule σ) (id : Ticket) : Option (Act σ) → Refresher σ
  | none => s.refresher
  | some act => (s.refresher.perform rules id s.now act).1

def events (rules : RefreshRules σ) (s : Schedule σ) (task : Task σ) : Log :=
  match task.act? with
  | none => []
  | some act => s.refresher.events rules task.id s.now act

@[simp] theorem refresher_tellStop (s : Schedule σ) (id : Ticket) :
    (s.tellStop id).refresher = s.refresher := by
  rw [tellStop]
  split <;> rfl

@[simp] theorem refresher_afterRefresh (s : Schedule σ) (id : Ticket) (purpose : Purpose)
    (since : Nat) (result : Refresher σ × Progress) :
    (s.afterRefresh id purpose since result).refresher = result.1 := by
  obtain ⟨r, progress⟩ := result
  cases progress with
  | waiting => rfl
  | told outcome =>
    cases purpose with
    | refresh | scrape | page request => rfl
    | tick next period =>
      simp only [afterRefresh]
      split <;> rfl

/-- Whether a task with an identity may be in a call of refresh. -/
def Serves (s : Schedule σ) (id : Ticket) : Prop :=
  ∃ task ∈ s.tasks, task.id = id ∧ task.activity.InCall

/-- Different tasks have different identities, all of them given out already. -/
structure Tidy (s : Schedule σ) : Prop where
  nodup : (s.tasks.map Task.id).Nodup
  started : ∀ task ∈ s.tasks, task.id < s.started

/-- A schedule stays tidy, and only one task may leave its call of refresh. -/
structure Touches (id : Ticket) (s t : Schedule σ) : Prop where
  tidy : s.Tidy → t.Tidy
  others : ∀ c, c ≠ id → s.Serves c → t.Serves c

theorem Touches.of_eq (htasks : t.tasks = s.tasks) (hstarted : t.started = s.started) :
    Touches id s t where
  tidy h := ⟨by rw [htasks]; exact h.nodup, by rw [htasks, hstarted]; exact h.started⟩
  others c _ h := by
    rw [Serves, htasks]
    exact h

theorem Touches.trans (h : Touches id s t) (h' : Touches id t u) : Touches id s u where
  tidy htidy := h'.tidy (h.tidy htidy)
  others c hc hs := h'.others c hc (h.others c hc hs)

theorem touches_rest (s : Schedule σ) (id : Ticket) (activity : Activity σ) :
    Touches id s (s.rest id activity) where
  tidy h := by
    have hids : (s.rest id activity).tasks.map Task.id = s.tasks.map Task.id := by
      simp only [rest, List.map_map]
      refine List.map_congr_left fun task _ => ?_
      simp only [Function.comp_apply]
      split
      · rename_i heq
        exact heq.symm
      · rfl
    refine ⟨by rw [hids]; exact h.nodup, fun task htask => ?_⟩
    have hmem : task.id ∈ s.tasks.map Task.id := hids ▸ List.mem_map_of_mem htask
    obtain ⟨old, hold, heq⟩ := List.mem_map.mp hmem
    exact heq ▸ h.started old hold
  others c hc h := by
    obtain ⟨task, htask, rfl, hcall⟩ := h
    refine ⟨task, List.mem_map.mpr ⟨task, htask, if_neg hc⟩, rfl, hcall⟩

theorem serves_rest (htask : ∃ task ∈ s.tasks, task.id = id) {activity : Activity σ}
    (hcall : activity.InCall) : (s.rest id activity).Serves id := by
  obtain ⟨task, hmem, hid⟩ := htask
  exact ⟨⟨id, activity, s.waits⟩, List.mem_map.mpr ⟨task, hmem, if_pos hid⟩, rfl, hcall⟩

theorem touches_filter (s : Schedule σ) (id : Ticket) :
    Touches id s { s with tasks := s.tasks.filter (·.id != id) } where
  tidy h :=
    ⟨h.nodup.sublist (List.filter_sublist.map Task.id),
      fun task htask => h.started task (List.mem_of_mem_filter htask)⟩
  others c hc h := by
    obtain ⟨task, htask, rfl, hcall⟩ := h
    exact ⟨task, List.mem_filter.mpr ⟨htask, by simpa using hc⟩, rfl, hcall⟩

theorem touches_close (s : Schedule σ) (id : Ticket) (answer : Answer) :
    Touches id s (s.close id answer) :=
  (touches_filter s id).trans (.of_eq rfl rfl)

theorem touches_spawn (s : Schedule σ) (id : Ticket) (activity : Activity σ) :
    Touches id s (s.spawn activity) where
  tidy h := by
    constructor
    · have hnew : s.started ∉ s.tasks.map Task.id := by
        intro hmem
        obtain ⟨task, htask, heq⟩ := List.mem_map.mp hmem
        exact absurd heq (Nat.ne_of_lt (h.started task htask))
      simp only [spawn, List.map_append, List.map_singleton]
      exact h.nodup.append (List.nodup_singleton _) (by simpa using hnew)
    · intro task htask
      rcases List.mem_append.mp htask with hold | hnew
      · exact Nat.lt_succ_of_lt (h.started task hold)
      · rw [List.mem_singleton.mp hnew]
        exact Nat.lt_succ_self s.started
  others c _ h := by
    obtain ⟨task, htask, heq, hcall⟩ := h
    exact ⟨task, List.mem_append_left _ htask, heq, hcall⟩

theorem touches_adopt (s : Schedule σ) (id : Ticket) (r : Refresher σ) :
    Touches id s (s.adopt r) :=
  .of_eq rfl rfl

theorem touches_tellStop (s : Schedule σ) (id other : Ticket) :
    Touches id s (s.tellStop other) := by
  have hrest : Touches id s (s.rest other .stopping) := by
    refine ⟨(touches_rest s other .stopping).tidy, fun c _ h => ?_⟩
    by_cases hc : c = other
    · obtain ⟨task, htask, heq, -⟩ := h
      exact hc ▸ serves_rest ⟨task, htask, hc ▸ heq⟩ trivial
    · exact (touches_rest s other .stopping).others c hc h
  refine hrest.trans ?_
  rw [tellStop]
  split
  · exact .of_eq rfl rfl
  · exact .of_eq rfl rfl

theorem touches_stop (s : Schedule σ) (id : Ticket) : Touches id s (s.stop id) :=
  (touches_adopt s id _).trans (touches_filter _ id)

theorem touches_afterRefresh (s : Schedule σ) (id : Ticket) (purpose : Purpose) (since : Nat)
    (result : Refresher σ × Progress) : Touches id s (s.afterRefresh id purpose since result) := by
  obtain ⟨r, progress⟩ := result
  cases progress with
  | waiting => exact (touches_adopt s id r).trans (touches_rest ..)
  | told outcome =>
    cases purpose with
    | refresh | scrape | page request => exact (touches_adopt s id r).trans (touches_close ..)
    | tick next period =>
      refine ((touches_adopt s id r).trans (touches_rest _ id (.ticking next period))).trans ?_
      simp only [afterRefresh]
      split
      · exact .of_eq rfl rfl
      · exact .of_eq rfl rfl

theorem serves_afterRefresh (htask : ∃ task ∈ s.tasks, task.id = id) (purpose : Purpose)
    (since : Nat) {result : Refresher σ × Progress} (hwaiting : result.2 = .waiting) :
    (s.afterRefresh id purpose since result).Serves id := by
  obtain ⟨r, progress⟩ := result
  obtain rfl : progress = .waiting := hwaiting
  exact serves_rest (s := s.adopt r) htask trivial

end Schedule

section Acts

variable {s t : Schedule σ} {task : Task σ}

theorem Task.act?_of_inCall (h : task.activity.InCall) :
    task.act? = some .wake ∨ task.act? = some .abandon := by
  obtain ⟨id, activity, order⟩ := task
  cases activity with
  | refreshing => exact .inl rfl
  | stopping => exact .inr rfl
  | starting | delayed | sleeping | watching | looping | ticking => exact h.elim

namespace Schedule

/-- A task does no more than an act to the refresher, and if the act is part of a call, the schedule
goes on as after a call. -/
structure Does (rules : RefreshRules σ) (s : Schedule σ) (id : Ticket) (act? : Option (Act σ))
    (t : Schedule σ) : Prop where
  touches : Touches id s t
  refresher : t.refresher = s.acted rules id act?
  goesOn : ∀ act, act? = some act →
    (∃ change, act = .set change) ∨ act = .abandon ∨ ∃ purpose since,
      t = s.afterRefresh id purpose since (s.refresher.perform rules id s.now act)

theorem does_nothing (rules : RefreshRules σ) {id : Ticket} (htouches : Touches id s t)
    (hrefresher : t.refresher = s.refresher) : Does rules s id none t :=
  ⟨htouches, hrefresher, nofun⟩

theorem does_call (rules : RefreshRules σ) (s : Schedule σ) (id : Ticket) (act : Act σ)
    (purpose : Purpose) (since : Nat) : Does rules s id (some act)
      (s.afterRefresh id purpose since (s.refresher.perform rules id s.now act)) where
  touches := touches_afterRefresh ..
  refresher := refresher_afterRefresh ..
  goesOn := by
    rintro _ ⟨⟩
    exact .inr (.inr ⟨purpose, since, rfl⟩)

theorem does_stop (rules : RefreshRules σ) (s : Schedule σ) (id : Ticket) :
    Does rules s id (some .abandon) (s.stop id) where
  touches := touches_stop s id
  refresher := rfl
  goesOn := by
    rintro _ ⟨⟩
    exact .inr (.inl rfl)

theorem does_set (rules : RefreshRules σ) (s : Schedule σ) (id : Ticket) (change : σ → σ) :
    Does rules s id (some (.set change)) (s.begin rules id (.set change)) where
  touches := by
    have hset : Touches id s
        { s with refresher := { s.refresher with source := change s.refresher.source } } :=
      .of_eq rfl rfl
    exact hset.trans (touches_close _ id .nothing)
  refresher := rfl
  goesOn := by
    rintro _ ⟨⟩
    exact .inl ⟨change, rfl⟩

theorem does_begin (rules : RefreshRules σ) (s : Schedule σ) (id : Ticket) (step : Step σ) :
    Does rules s id step.act? (s.begin rules id step) := by
  cases step with
  | set change => exact does_set rules s id change
  | refresh => exact does_call rules s id .arrive .refresh s.waits
  | current => exact does_nothing rules (touches_close ..) rfl
  | scrape mode =>
    cases mode with
    | interval => exact does_nothing rules (touches_close ..) rfl
    | onScrape => exact does_call rules s id .arrive .scrape s.waits
  | sleep duration =>
    rw [begin]
    split
    · exact does_nothing rules (touches_close ..) rfl
    · exact does_nothing rules (touches_rest ..) rfl
  | interval period duration =>
    rw [begin]
    split
    · exact does_nothing rules (touches_close ..) rfl
    · exact does_nothing rules ((touches_rest s id _).trans (touches_spawn ..)) rfl
  | http request mode =>
    rw [begin, Step.act?]
    split
    · exact does_call rules s id .arrive (.page request) s.waits
    · exact does_nothing rules (touches_close ..) rfl

theorem does_runTask (rules : RefreshRules σ) (s : Schedule σ) (task : Task σ) :
    Does rules s task.id task.act? (s.runTask rules task) := by
  obtain ⟨id, activity, order⟩ := task
  cases activity with
  | starting delay step =>
    cases delay with
    | zero => exact does_begin rules s id step
    | succ delay => exact does_nothing rules (touches_rest ..) rfl
  | delayed wakeAt step => exact does_begin rules s id step
  | sleeping wakeAt => exact does_nothing rules (touches_close ..) rfl
  | watching wakeAt background =>
    exact does_nothing rules ((touches_tellStop s id background).trans (touches_close ..))
      (refresher_tellStop s background)
  | stopping => exact does_stop rules s id
  | looping period =>
    cases period with
    | zero => exact does_stop rules s id
    | succ period => exact does_call rules s id .arrive _ s.waits
  | ticking deadline period => exact does_call rules s id .arrive _ s.waits
  | refreshing purpose since => exact does_call rules s id .wake purpose _

/-- The refresher is sound, and every call in it is that of a task. -/
structure Sound (s : Schedule σ) (log : Log) : Prop where
  refresher : s.refresher.Sound log
  tidy : s.Tidy
  serves : ∀ c ∈ s.refresher.turns.calls, s.Serves c

variable {rules : RefreshRules σ} {log : Log}

/-- A task is in a call only while it waits for it or was told to stop. -/
theorem Sound.inCall (h : s.Sound log) (htask : task ∈ s.tasks)
    (hcalls : task.id ∈ s.refresher.turns.calls) : task.activity.InCall := by
  obtain ⟨other, hother, hid, hcall⟩ := h.serves task.id hcalls
  rwa [List.inj_on_of_nodup_map h.tidy.nodup hother htask hid] at hcall

theorem Sound.notMem_calls (h : s.Sound log) (htask : task ∈ s.tasks)
    (hwake : task.act? ≠ some .wake) (habandon : task.act? ≠ some .abandon) :
    task.id ∉ s.refresher.turns.calls :=
  fun hcalls => (Task.act?_of_inCall (h.inCall htask hcalls)).elim hwake habandon

/-- A task that calls refresh is in no call yet. -/
theorem Sound.fresh (h : s.Sound log) (htask : task ∈ s.tasks) {act : Act σ}
    (hact : task.act? = some act) (harrive : act = .arrive) :
    task.id ∉ s.refresher.turns.calls := by
  subst harrive
  exact h.notMem_calls htask (by simp [hact]) (by simp [hact])

/-- A task that runs leaves the other calls where they are. -/
theorem Sound.mem_calls_acted (h : s.Sound log) (htask : task ∈ s.tasks) {c : Ticket}
    (hc : c ≠ task.id) : c ∈ (s.acted rules task.id task.act?).turns.calls ↔
      c ∈ s.refresher.turns.calls := by
  cases hact : task.act? with
  | none => exact Iff.rfl
  | some act => exact h.refresher.mem_calls_perform_iff (h.fresh htask hact) hc

theorem Sound.runTask (h : s.Sound log) (htask : task ∈ s.tasks) :
    (s.runTask rules task).Sound (s.events rules task ++ log) := by
  obtain ⟨htouches, hrefresher, hgoesOn⟩ := does_runTask rules s task
  have hnotMem := h.notMem_calls htask
  rw [events]
  cases hact : task.act? with
  | none =>
    rw [hact, acted] at hrefresher
    refine ⟨hrefresher ▸ h.refresher, htouches.tidy h.tidy, fun c hc => ?_⟩
    rw [hrefresher] at hc
    refine htouches.others c ?_ (h.serves c hc)
    rintro rfl
    exact hnotMem (by simp [hact]) (by simp [hact]) hc
  | some act =>
    rw [hact, acted] at hrefresher
    have hfresh := h.fresh htask hact
    refine ⟨hrefresher ▸ h.refresher.perform hfresh, htouches.tidy h.tidy, fun c hc => ?_⟩
    rw [hrefresher] at hc
    by_cases hc' : c = task.id
    · subst hc'
      rcases hgoesOn act hact with ⟨change, rfl⟩ | rfl | ⟨purpose, since, heq⟩
      · exact absurd hc (hnotMem (by simp [hact]) (by simp [hact]))
      · exact absurd hc h.refresher.notMem_calls_abandon
      · rw [heq]
        cases hprogress : (s.refresher.perform rules task.id s.now act).2 with
        | waiting => exact serves_afterRefresh ⟨task, htask, rfl⟩ purpose since hprogress
        | told outcome => exact absurd hc (h.refresher.notMem_calls_of_told hfresh hprogress)
    · exact htouches.others c hc'
        (h.serves c ((h.refresher.mem_calls_perform_iff hfresh hc').mp hc))

end Schedule

end Acts

end PoolGauge
