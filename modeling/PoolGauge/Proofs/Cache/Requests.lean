import PoolGauge.Proofs.Cache.Waiting

/-!
# Requests

A task that has a request keeps it until it answers, with the snapshot that is current then. By the
clock it answers in the end.
-/
namespace PoolGauge

variable {σ : Type}

namespace Cache

theorem served_tell (c : Cache) (outcome : Except Failure Snapshot) :
    (c.finish outcome).served (c.tell outcome) = (c.finish outcome).current := by
  cases outcome <;> rfl

theorem served_shared (c : Cache) : c.served c.shared = c.current := by
  obtain ⟨current, healthy, generation, publications, metrics⟩ := c
  cases healthy <;> cases current <;> rfl

end Cache

namespace Refresher

/-- If a call has been told an outcome, the current snapshot is served. -/
def ServesCurrent (result : Refresher σ × Progress) : Prop :=
  ∀ outcome, result.2 = .told outcome →
    result.1.cache.served outcome = result.1.cache.current

variable (rules : RefreshRules σ) (r : Refresher σ) (c : Ticket) (now : Nat)

theorem servesCurrent_waiting : ServesCurrent (r, .waiting) :=
  nofun

theorem servesCurrent_finish (outcome : Except Failure Snapshot) :
    ServesCurrent (r.finish outcome) := by
  rintro _ ⟨⟩
  simp only [finish, cache_release]
  exact r.cache.served_tell outcome

theorem servesCurrent_proceed (started : Nat) (walk : Inquiry (Except Failure Inventory)) :
    ServesCurrent (r.proceed rules c started now walk) := by
  rw [proceed]
  obtain ⟨ended | pending, source⟩ := walk.advance rules.source r.source
  · exact servesCurrent_finish _ _
  · dsimp only
    split
    · exact servesCurrent_finish _ _
    · exact servesCurrent_waiting _

theorem servesCurrent_enter (seen : UInt64) : ServesCurrent (r.enter rules c seen now) := by
  rw [enter]
  split
  · exact servesCurrent_proceed rules r c now now _
  · rintro _ ⟨⟩
    simp only [cache_release]
    exact r.cache.served_shared

theorem servesCurrent_arrive : ServesCurrent (r.arrive rules c now) := by
  rw [arrive]
  split
  · exact servesCurrent_enter rules r c now _
  · exact servesCurrent_waiting _

theorem servesCurrent_wake : ServesCurrent (r.wake rules c now) := by
  by_cases hturn : ∃ hold, r.holder = some (c, hold)
  · obtain ⟨seen | attempt, hholder⟩ := hturn
    · rw [wake_of_granted hholder]
      exact servesCurrent_enter rules r c now seen
    · rw [wake_of_collecting hholder]
      split
      · exact servesCurrent_proceed rules _ c now attempt.started _
      · split
        · exact servesCurrent_finish r _
        · exact servesCurrent_waiting r
  · rw [wake_of_other fun hold heq => hturn ⟨hold, heq⟩]
    exact servesCurrent_waiting r

end Refresher

def Activity.step? : Activity σ → Option (Step σ)
  | .starting _ step | .delayed _ step => some step
  | _ => none

def Activity.request? : Activity σ → Option Request
  | .starting _ (.http request _) | .delayed _ (.http request _)
  | .refreshing (.page request) _ => some request
  | _ => none

namespace Schedule

variable {rules : RefreshRules σ} {s t : Schedule σ} {task : Task σ} {id : Ticket}
  {request : Request}

/-- Nothing is answered, and a task keeps its request. -/
structure KeepsRequest (s t : Schedule σ) (id : Ticket) (request : Request) : Prop where
  answers : t.answers = s.answers
  kept : ∃ task ∈ t.tasks, task.id = id ∧ task.activity.request? = some request

/-- The refresher lets a task wait for what it does to it. -/
def LetsWait (rules : RefreshRules σ) (s : Schedule σ) (id : Ticket) (act? : Option (Act σ)) :
    Prop :=
  ∃ act, act? = some act ∧ (s.refresher.perform rules id s.now act).2 = .waiting

/-- The answer to a request is still to come: its time has not come, or the refresher lets it
wait. -/
structure Pends (rules : RefreshRules σ) (s : Schedule σ) (task : Task σ) (request : Request) : Prop
    extends KeepsRequest s (s.runTask rules task) task.id request where
  held : (∃ delay step, task.activity = .starting (delay + 1) step) ∨
    LetsWait rules s task.id task.act?

def AnswersCurrent (s t : Schedule σ) (id : Ticket) (request : Request) : Prop :=
  t.answers = (id, .response (.answer request t.refresher.cache t.refresher.cache.current)) ::
    s.answers

theorem keepsRequest_rest (htask : ∃ task ∈ s.tasks, task.id = id) {activity : Activity σ}
    (hrequest : activity.request? = some request) :
    KeepsRequest s (s.rest id activity) id request := by
  obtain ⟨task, hmem, hid⟩ := htask
  exact ⟨rfl, ⟨id, activity, s.waits⟩, List.mem_map.mpr ⟨task, hmem, if_pos hid⟩, rfl, hrequest⟩

theorem afterRefresh_page (htask : ∃ task ∈ s.tasks, task.id = id) (request : Request)
    (since : Nat) {result : Refresher σ × Progress} (hserves : Refresher.ServesCurrent result) :
    result.2 = .waiting ∧
        KeepsRequest s (s.afterRefresh id (.page request) since result) id request ∨
      AnswersCurrent s (s.afterRefresh id (.page request) since result) id request := by
  obtain ⟨r, progress⟩ := result
  cases progress with
  | waiting =>
    have hrest : KeepsRequest (s.adopt r)
        ((s.adopt r).rest id (.refreshing (.page request) since)) id request :=
      keepsRequest_rest (s := s.adopt r) htask rfl
    exact .inl ⟨rfl, rfl, hrest.kept⟩
  | told outcome =>
    refine .inr ?_
    have hcurrent : r.cache.served outcome = r.cache.current := hserves outcome rfl
    rw [AnswersCurrent, refresher_afterRefresh, ← hcurrent]
    rfl

theorem begin_http (htask : ∃ task ∈ s.tasks, task.id = id) (request : Request)
    (mode : RefreshMode) :
    LetsWait rules s id (Step.http request mode).act? ∧
        KeepsRequest s (s.begin rules id (.http request mode)) id request ∨
      AnswersCurrent s (s.begin rules id (.http request mode)) id request := by
  rw [begin, Step.act?]
  split
  · refine (afterRefresh_page htask request s.waits ?_).imp_left
      (And.imp_left fun hwaiting => ⟨.arrive, rfl, hwaiting⟩)
    exact Refresher.servesCurrent_arrive _ _ _ _
  · exact .inr rfl

/-- A task that has a request answers it with the current snapshot, or keeps it if its time has not
come or the refresher lets it wait. -/
theorem runTask_request (rules : RefreshRules σ) (htask : task ∈ s.tasks)
    (h : task.activity.request? = some request) :
    Pends rules s task request ∨ AnswersCurrent s (s.runTask rules task) task.id request := by
  have hmem : ∃ other ∈ s.tasks, other.id = task.id := ⟨task, htask, rfl⟩
  obtain ⟨id, activity, order⟩ := task
  cases activity with
  | starting delay step =>
    cases step with
    | http asked mode =>
      obtain rfl := Option.some.inj h
      cases delay with
      | zero =>
        exact (begin_http hmem asked mode).imp_left fun ⟨hwaits, hkept⟩ => ⟨hkept, .inr hwaits⟩
      | succ delay => exact .inl ⟨keepsRequest_rest hmem rfl, .inl ⟨delay, _, rfl⟩⟩
    | set | refresh | current | scrape | sleep | interval => cases h
  | delayed wakeAt step =>
    cases step with
    | http asked mode =>
      obtain rfl := Option.some.inj h
      exact (begin_http hmem asked mode).imp_left fun ⟨hwaits, hkept⟩ => ⟨hkept, .inr hwaits⟩
    | set | refresh | current | scrape | sleep | interval => cases h
  | refreshing purpose since =>
    cases purpose with
    | page asked =>
      obtain rfl := Option.some.inj h
      exact (afterRefresh_page hmem asked _ (Refresher.servesCurrent_wake _ _ _ _)).imp_left
        fun ⟨hwaiting, hkept⟩ => ⟨hkept, .inr ⟨.wake, rfl, hwaiting⟩⟩
    | refresh | scrape | tick => cases h
  | sleeping | watching | looping | ticking | stopping => cases h

theorem step?_rest {activity : Activity σ} {step : Step σ} (hstep : activity.step? = some step) :
    ∀ later ∈ (s.rest id activity).tasks, later.id = id → later.activity.step? = some step := by
  intro later hlater hid
  obtain ⟨task, -, rfl⟩ := List.mem_map.mp hlater
  by_cases heq : task.id = id
  · rw [if_pos heq]
    exact hstep
  · rw [if_neg heq] at hid
    exact absurd hid heq

theorem begin_unrefreshed (rules : RefreshRules σ) (s : Schedule σ) (id : Ticket)
    {mode : RefreshMode} (h : ¬ (request.isScrape ∧ mode = .onScrape)) :
    (s.begin rules id (.http request mode)).refresher = s.refresher ∧
      ∀ later ∈ (s.begin rules id (.http request mode)).tasks, later.id ≠ id := by
  rw [begin, if_neg h]
  refine ⟨rfl, fun later hlater => ?_⟩
  exact bne_iff_ne.mp (List.mem_filter.mp hlater).2

/-- A request that needs no refresh leaves the cache and the source as they are, until it begins and
when it does, which ends it. -/
theorem runTask_unrefreshed {mode : RefreshMode}
    (hstep : task.activity.step? = some (.http request mode))
    (h : ¬ (request.isScrape ∧ mode = .onScrape)) :
    s.events rules task = [] ∧ (s.runTask rules task).refresher = s.refresher ∧
      ∀ later ∈ (s.runTask rules task).tasks, later.id = task.id →
        later.activity.step? = some (.http request mode) := by
  obtain ⟨id, activity, order⟩ := task
  have hact : (Step.http request mode : Step σ).act? = none := if_neg h
  obtain ⟨hrefresher, hended⟩ := begin_unrefreshed rules s id h
  cases activity with
  | starting delay step =>
    obtain rfl := Option.some.inj hstep
    cases delay with
    | zero =>
      refine ⟨?_, hrefresher, fun later hlater hid => absurd hid (hended later hlater)⟩
      simp only [events, Task.act?, hact]
    | succ delay => exact ⟨rfl, rfl, step?_rest rfl⟩
  | delayed wakeAt step =>
    obtain rfl := Option.some.inj hstep
    refine ⟨?_, hrefresher, fun later hlater hid => absurd hid (hended later hlater)⟩
    simp only [events, Task.act?, hact]
  | refreshing | sleeping | watching | looping | ticking | stopping => cases hstep

section Clock

variable {source : σ} {log : Log} {timeline new : Timeline σ} {step : Step σ}

def BeginsNext (s : Schedule σ) (id : Ticket) (step : Step σ) : Prop :=
  ∃ task ∈ s.tasks, task.id = id ∧ s.ready.head? = some id ∧
    (task.activity = .starting 0 step ∨ ∃ wakeAt, task.activity = .delayed wakeAt step)

/-- The time by which a task begins its step. -/
def beginsBy (s : Schedule σ) (task : Task σ) : Nat :=
  match task.activity with
  | .starting delay _ => s.now + delay
  | .delayed wakeAt _ => max wakeAt s.now
  | _ => s.now

theorem now_le_beginsBy (s : Schedule σ) (task : Task σ) : s.now ≤ s.beginsBy task := by
  rw [beginsBy]
  split
  · exact Nat.le_add_right ..
  · exact Nat.le_max_right ..
  · exact le_rfl

theorem exists_next?_of_step (hprompt : s.Prompt rules none) (htask : task ∈ s.tasks)
    (hstep : task.activity.step? = some step) : ∃ t, s.next? rules = some t := by
  have hdue := (hprompt.onTime htask).due
  obtain ⟨id, activity, order⟩ := task
  cases activity with
  | starting => exact exists_next? htask (.inl (List.ne_nil_of_mem (hdue.mpr trivial)))
  | delayed wakeAt => exact exists_next? htask (.inr ⟨wakeAt, rfl⟩)
  | refreshing | sleeping | watching | looping | ticking | stopping => cases hstep

/-- A turn in which a task does not begin its step does not put it off. -/
theorem Passes.beginsBy_le (h : s.Passes rules task t) (hprompt : s.Prompt rules none)
    (htask : task ∈ s.tasks) (hstep : task.activity.step? = some step)
    (hnot : ¬ s.BeginsNext task.id step) :
    t.ToStop task.id ∨ ∃ later ∈ t.tasks, later.id = task.id ∧
      later.activity.step? = some step ∧ t.beginsBy later ≤ s.beginsBy task := by
  have hdue := (hprompt.onTime htask).due
  obtain ⟨id, activity, order⟩ := task
  cases h with
  | stopped toStop => exact .inl toStop
  | @own rest first =>
    refine .inr ?_
    cases activity with
    | starting delay begun =>
      obtain rfl := Option.some.inj hstep
      cases delay with
      | zero => exact absurd ⟨_, htask, rfl, by rw [first]; rfl, .inl rfl⟩ hnot
      | succ delay =>
        refine ⟨_, mem_rest_self (s := { s with ready := rest }) htask, rfl, rfl, ?_⟩
        exact Nat.max_le.mpr ⟨le_rfl, Nat.le_add_right ..⟩
    | delayed wakeAt begun =>
      obtain rfl := Option.some.inj hstep
      exact absurd ⟨_, htask, rfl, by rw [first]; rfl, .inr ⟨wakeAt, rfl⟩⟩ hnot
    | refreshing | sleeping | watching | looping | ticking | stopping => cases hstep
  | left mem calls now =>
    refine .inr ⟨_, mem, rfl, hstep, ?_⟩
    rw [beginsBy, beginsBy]
    rcases now with heq | ⟨hidle, halarm⟩
    · rw [heq]
    · cases activity with
      | starting =>
        have hready := hdue.mpr trivial
        rw [hidle] at hready
        contradiction
      | delayed wakeAt =>
        exact Nat.max_le.mpr ⟨Nat.le_max_left .., (halarm wakeAt rfl).trans (Nat.le_max_left ..)⟩
      | refreshing | sleeping | watching | looping | ticking | stopping => cases hstep

/-- A task begins its step in a finite number of turns, unless it is told to stop. -/
theorem begins_eventually (hsound : s.Sound log) (hprompt : s.Prompt rules none)
    (htask : task ∈ s.tasks) (hstep : task.activity.step? = some step) :
    ∃ later t, Unattended rules s later t ∧ (t.BeginsNext task.id step ∨ t.ToStop task.id) := by
  by_cases hend : s.BeginsNext task.id step ∨ s.ToStop task.id
  · exact ⟨[], s, .refl, hend⟩
  · refine eventually (s.beginsBy task) (I := fun u => (∃ log, u.Sound log) ∧
      u.Prompt rules none ∧ (∃ own ∈ u.tasks, own.id = task.id ∧
        own.activity.step? = some step ∧ u.beginsBy own ≤ s.beginsBy task) ∧
      ¬ (u.BeginsNext task.id step ∨ u.ToStop task.id)) ?_
      ⟨⟨log, hsound⟩, hprompt, ⟨task, htask, rfl, hstep, le_rfl⟩, hend⟩
    rintro u ⟨⟨log, hsound⟩, hprompt, ⟨own, hown, hid, hstep, hsoon⟩, hend⟩
    refine ⟨⟨log, hsound⟩, hprompt, (now_le_beginsBy u own).trans hsoon, ?_⟩
    obtain ⟨t, hnext⟩ := exists_next?_of_step hprompt hown hstep
    have hturn := turn_of_next? hnext
    have hnot : ¬ u.BeginsNext own.id step := hid ▸ (not_or.mp hend).1
    refine ⟨t, hnext, or_iff_not_imp_left.mpr fun hend' => ?_⟩
    rcases (hturn.passes hsound hown).beginsBy_le hprompt hown hstep hnot with
      hstops | ⟨later, hlater, hlaterId, hstill, hle⟩
    · exact absurd (.inr (hid ▸ hstops)) hend'
    · exact ⟨⟨_, (hsound.moves_of_reaches hturn.reaches).2⟩, hprompt.turn hsound hturn,
        ⟨later, hlater, hlaterId.trans hid, hstill, hle.trans hsoon⟩, hend'⟩

/-- The last thing that came about is the answer to a request, with the current snapshot. -/
def Answered (t : Schedule σ) (id : Ticket) (request : Request) : Prop :=
  ∃ older, t.answers =
    (id, .response (.answer request t.refresher.cache t.refresher.cache.current)) :: older

/-- A request is in a call of refresh. -/
structure RefreshesFor (s : Schedule σ) (id : Ticket) (request : Request) : Prop where
  calls : id ∈ s.refresher.turns.calls
  kept : ∃ task ∈ s.tasks, task.id = id ∧ ∃ since, task.activity = .refreshing (.page request) since

theorem refreshesFor_afterRefresh {act : Act σ} (htask : task ∈ s.tasks)
    (hcall : act = .arrive ∨ act = .wake) (hc : act = .wake → task.id ∈ s.refresher.turns.calls)
    (hwaiting : (s.refresher.perform rules task.id s.now act).2 = .waiting) (since : Nat) :
    RefreshesFor (s.afterRefresh task.id (.page request) since
      (s.refresher.perform rules task.id s.now act)) task.id request := by
  have hcalls := Refresher.mem_calls_of_waiting hcall hc hwaiting
  generalize s.refresher.perform rules task.id s.now act = result at hwaiting hcalls
  obtain ⟨r, progress⟩ := result
  obtain rfl : progress = .waiting := hwaiting
  exact ⟨hcalls, _, mem_rest_self (s := s.adopt r) htask, rfl, since, rfl⟩

theorem refreshesFor_begin {act : Act σ} {mode : RefreshMode} (htask : task ∈ s.tasks)
    (hact : (Step.http request mode : Step σ).act? = some act)
    (hwaiting : (s.refresher.perform rules task.id s.now act).2 = .waiting) :
    RefreshesFor (s.begin rules task.id (.http request mode)) task.id request := by
  rw [Step.act?] at hact
  split at hact
  · obtain rfl := Option.some.inj hact
    rw [begin, if_pos ‹_›]
    exact refreshesFor_afterRefresh htask (.inl rfl) (by rintro ⟨⟩) hwaiting s.waits
  · cases hact

/-- A task that has a request and whose time has come answers it or is in a call of refresh. -/
theorem runTask_answers (rules : RefreshRules σ) (htask : task ∈ s.tasks)
    (hrequest : task.activity.request? = some request)
    (hcalls : task.act? = some .wake → task.id ∈ s.refresher.turns.calls)
    (hbegins : ∀ delay step, task.activity ≠ .starting (delay + 1) step) :
    (s.runTask rules task).Answered task.id request ∨
      (s.runTask rules task).RefreshesFor task.id request := by
  rcases runTask_request rules htask hrequest with hpends | hanswers
  · refine .inr ?_
    obtain ⟨delay, step, heq⟩ | ⟨act, hact, hwaiting⟩ := hpends.held
    · exact absurd heq (hbegins delay step)
    · obtain ⟨id, activity, order⟩ := task
      cases activity with
      | starting delay step =>
        cases step with
        | http asked mode =>
          obtain rfl := Option.some.inj hrequest
          cases delay with
          | zero => exact refreshesFor_begin htask hact hwaiting
          | succ delay => cases hact
        | set | refresh | current | scrape | sleep | interval => cases hrequest
      | delayed wakeAt step =>
        cases step with
        | http asked mode =>
          obtain rfl := Option.some.inj hrequest
          exact refreshesFor_begin htask hact hwaiting
        | set | refresh | current | scrape | sleep | interval => cases hrequest
      | refreshing purpose since =>
        cases purpose with
        | page asked =>
          obtain rfl := Option.some.inj hrequest
          obtain rfl := Option.some.inj hact
          exact refreshesFor_afterRefresh htask (.inr rfl) (fun _ => hcalls rfl) hwaiting _
        | refresh | scrape | tick => cases hrequest
      | sleeping | watching | looping | ticking | stopping => cases hrequest
  · exact .inl ⟨s.answers, hanswers⟩

/-- A turn leaves a request in its call of refresh unless it answers it or its task is told to
stop. -/
theorem RefreshesFor.turn (h : s.RefreshesFor id request) (hsound : s.Sound log)
    (hturn : Turn rules s new t) :
    t.ToStop id ∨ t.Answered id request ∨ t.RefreshesFor id request := by
  obtain ⟨hcalls, task, htask, rfl, since, hactivity⟩ := h
  cases hturn.passes hsound htask with
  | stopped toStop => exact .inl toStop
  | @own rest first =>
    refine .inr
      (runTask_answers (s := { s with ready := rest }) rules htask ?_ (fun _ => hcalls) ?_)
    · rw [hactivity]
      rfl
    · rw [hactivity]
      nofun
  | left mem calls now => exact .inr (.inr ⟨calls hcalls, task, mem, rfl, since, hactivity⟩)

/-- A request in a call of refresh is answered in a finite number of turns, unless its task is told
to stop. -/
theorem RefreshesFor.answers_eventually (h : s.RefreshesFor id request) (hsound : s.Sound log)
    (hprompt : s.Prompt rules none) :
    ∃ later t, Unattended rules s later t ∧ (t.ToStop id ∨ t.Answered id request) := by
  refine eventually (s.refresher.latest rules s.now id) (I := fun u => (∃ log, u.Sound log) ∧
    u.Prompt rules none ∧ u.RefreshesFor id request ∧
    u.refresher.latest rules u.now id ≤ s.refresher.latest rules s.now id) ?_
    ⟨⟨log, hsound⟩, hprompt, h, le_rfl⟩
  rintro u ⟨⟨log, hsound⟩, hprompt, hu, hsoon⟩
  refine ⟨⟨log, hsound⟩, hprompt, (Refresher.le_latest hprompt.timely id).trans hsoon, ?_⟩
  obtain ⟨t, hnext⟩ := exists_next?_of_calls hsound hprompt hu.calls
  have hturn := turn_of_next? hnext
  refine ⟨t, hnext, ?_⟩
  rcases hu.turn hsound hturn with hstops | hanswered | hstill
  · exact .inl (.inl hstops)
  · exact .inl (.inr hanswered)
  · exact .inr ⟨⟨_, (hsound.moves_of_reaches hturn.reaches).2⟩, hprompt.turn hsound hturn, hstill,
      (hturn.latest_le hsound hprompt hu.calls hstill.calls).trans hsoon⟩

theorem BeginsNext.turn {mode : RefreshMode} (h : s.BeginsNext id (.http request mode))
    (hsound : s.Sound log) (hturn : Turn rules s new t) :
    t.Answered id request ∨ t.RefreshesFor id request := by
  obtain ⟨task, htask, rfl, hfirst, hactivity⟩ := h
  cases hturn with
  | @run other rest mem first =>
    rw [first] at hfirst
    obtain rfl := List.inj_on_of_nodup_map hsound.tidy.nodup mem htask (Option.some.inj hfirst)
    obtain ⟨id, activity, order⟩ := other
    obtain rfl | ⟨wakeAt, rfl⟩ := hactivity
    · exact runTask_answers (s := { s with ready := rest }) rules mem rfl
        (fun hwake => absurd hwake (Step.http request mode).act?_ne_wake) nofun
    · exact runTask_answers (s := { s with ready := rest }) rules mem rfl
        (fun hwake => absurd hwake (Step.http request mode).act?_ne_wake) nofun
  | skip first gone =>
    rw [first] at hfirst
    exact absurd (Option.some.inj hfirst).symm (gone task htask)
  | jump idle =>
    rw [idle] at hfirst
    cases hfirst

/-- A request that is about to begin is answered in a finite number of turns, unless its task is
told to stop. -/
theorem BeginsNext.answers_eventually {mode : RefreshMode}
    (h : s.BeginsNext id (.http request mode)) (hsound : s.Sound log)
    (hprompt : s.Prompt rules none) :
    ∃ later t, Unattended rules s later t ∧ (t.ToStop id ∨ t.Answered id request) := by
  obtain ⟨t, hnext⟩ : ∃ t, s.next? rules = some t := by
    obtain ⟨task, htask, -, hfirst, -⟩ := h
    exact exists_next? htask (.inl (List.ne_nil_of_mem (List.mem_of_mem_head? hfirst)))
  have hturn := turn_of_next? hnext
  rcases h.turn hsound hturn with hanswered | hrefreshes
  · exact ⟨_, t, .next .refl hnext, .inr hanswered⟩
  · obtain ⟨later, u, hrun, hend⟩ := hrefreshes.answers_eventually
      (hsound.moves_of_reaches hturn.reaches).2 (hprompt.turn hsound hturn)
    exact ⟨_, u, .cons hnext hrun, hend⟩

/-- By the clock a task that has a request answers it in a finite number of turns, unless it is told
to stop. -/
theorem Clocked.answers_eventually (h : Clocked rules (initial source) timeline s)
    (htask : task ∈ s.tasks) (hrequest : task.activity.request? = some request) :
    ∃ later t, Unattended rules s later t ∧ (t.ToStop task.id ∨ t.Answered task.id request) := by
  obtain ⟨hsound, hprompt⟩ := h.sound_prompt
  have hbegins : ∀ mode, task.activity.step? = some (.http request mode) →
      ∃ later t, Unattended rules s later t ∧
        (t.ToStop task.id ∨ t.Answered task.id request) := by
    intro mode hstep
    obtain ⟨before, u, hrun, hbegins | hstops⟩ := begins_eventually hsound hprompt htask hstep
    · obtain ⟨hsound', hprompt'⟩ := (h.trans hrun.clocked).sound_prompt
      obtain ⟨later, t, hrun', hend⟩ := hbegins.answers_eventually hsound' hprompt'
      exact ⟨_, t, hrun.trans hrun', hend⟩
    · exact ⟨before, u, hrun, .inl hstops⟩
  have hcalls := h.placed task htask
  obtain ⟨id, activity, order⟩ := task
  cases activity with
  | starting delay step | delayed wakeAt step =>
    cases step with
    | http asked mode =>
      obtain rfl := Option.some.inj hrequest
      exact hbegins mode rfl
    | set | refresh | current | scrape | sleep | interval => cases hrequest
  | refreshing purpose since =>
    cases purpose with
    | page asked =>
      obtain rfl := Option.some.inj hrequest
      have hrefreshes : s.RefreshesFor id asked := ⟨hcalls rfl, _, htask, rfl, since, rfl⟩
      exact hrefreshes.answers_eventually hsound hprompt
    | refresh | scrape | tick => cases hrequest
  | sleeping | watching | looping | ticking | stopping => cases hrequest

end Clock

end Schedule

end PoolGauge
