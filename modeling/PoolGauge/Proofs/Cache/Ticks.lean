import Mathlib.Order.MinMax
import PoolGauge.Proofs.Cache.Background

/-!
# Ticks of a background task

A background task calls refresh once for every tick: at once first, and then at the deadline of the
tick, or when its call before is over if that is later. A tick that comes too late moves the ticks
after it, so no two calls come closer to each other than a period, but for what a tick may be late
without moving others.
-/
namespace PoolGauge

variable {σ : Type}

/-- The deadline of the tick after calls at some times, the latest first, for a background task that
began at some time. -/
def tickDue (period start : Nat) : List Nat → Nat
  | [] => start
  | time :: earlier => nextTick (tickDue period start earlier) period time

theorem add_period_le_nextTick (deadline period now : Nat) :
    now + period ≤ nextTick deadline period now + tickTolerance := by
  rw [nextTick]
  split <;> omega

namespace Timeline

variable {id : Ticket} {period start now : Nat} {timeline new : Timeline σ}

/-- The time at which a call was told last, or some time before. -/
def freeSince (id : Ticket) (start : Nat) (timeline : Timeline σ) : Nat :=
  (timeline.returns id).head?.getD start

/-- It is time for a background task to call refresh that began at some time. -/
structure OnTick (id : Ticket) (period start : Nat) (timeline : Timeline σ) (now : Nat) : Prop where
  time : now = max (tickDue period start (timeline.arrivals id)) (timeline.freeSince id start)
  first : timeline.arrivals id = [] → now = start

/-- A background task has called refresh only when it was time. -/
def Ticked (id : Ticket) (period start : Nat) (timeline : Timeline σ) : Prop :=
  ∀ time past, ⟨time, .arrived id⟩ :: past <:+ timeline → OnTick id period start past time

theorem ticked_nil : Ticked id period start ([] : Timeline σ) := by
  intro time past hpast
  cases List.suffix_nil.mp hpast

/-- What happens without a call of the background task. -/
theorem Ticked.append (h : Ticked id period start timeline) (hnew : new.arrivals id = []) :
    Ticked id period start (new ++ timeline) := by
  induction new with
  | nil => exact h
  | cons m new ih =>
    have hcons : arrivals id [m] ++ arrivals id new = [] := by
      rw [← arrivals_append]
      exact hnew
    obtain ⟨hfirst, hrest⟩ := List.append_eq_nil_iff.mp hcons
    intro time past hpast
    rcases List.suffix_cons_iff.mp hpast with heq | hbefore
    · obtain ⟨rfl, -⟩ := List.cons.inj heq
      rw [arrivals_arrived_self] at hfirst
      cases hfirst
    · exact ih hrest time past hbefore

theorem Ticked.arrived (h : Ticked id period start timeline)
    (hnow : OnTick id period start timeline now) :
    Ticked id period start (⟨now, .arrived id⟩ :: timeline) := by
  intro time past hpast
  rcases List.suffix_cons_iff.mp hpast with heq | hbefore
  · obtain ⟨hmoment, rfl⟩ := List.cons.inj heq
    obtain ⟨rfl, -⟩ := Moment.mk.inj hmoment
    exact hnow
  · exact h time past hbefore

/-- Calls on ticks are a period apart, but for what a tick may be late without moving others. -/
theorem Ticked.apart (h : Ticked id period start timeline) :
    (timeline.arrivals id).IsChain fun later sooner => sooner + period ≤ later + tickTolerance := by
  induction timeline with
  | nil => exact .nil
  | cons m timeline ih =>
    have hrest := ih fun time past hpast => h time past (hpast.trans (List.suffix_cons _ _))
    cases harrives : m.what.arrives id with
    | false =>
      rw [arrivals, List.filter_cons_of_neg (by simp [harrives])]
      exact hrest
    | true =>
      obtain ⟨time, what⟩ := m
      cases what with
      | called | replied | told | dropped => cases harrives
      | arrived c =>
        obtain rfl : c = id := beq_iff_eq.mp harrives
        have htime := (h time timeline (List.suffix_refl _)).time
        rw [arrivals_arrived_self]
        cases hearlier : arrivals c timeline with
        | nil => exact .singleton time
        | cons sooner earlier =>
          rw [hearlier] at htime hrest
          have hnext := add_period_le_nextTick (tickDue period start earlier) period sooner
          have hlater : tickDue period start (sooner :: earlier) ≤ time :=
            htime ▸ Nat.le_max_left ..
          refine List.isChain_cons_cons.mpr ⟨?_, hrest⟩
          exact hnext.trans (Nat.add_le_add_right hlater _)

end Timeline

namespace Schedule

variable {rules : RefreshRules σ} {s t : Schedule σ} {task : Task σ} {log : Log} {id : Ticket}
  {timeline earlier new : Timeline σ} {period start next : Nat} {source : σ}

/-- Where a background task stands that began at some time, given what has happened since. -/
inductive Stands (period start : Nat) (timeline : Timeline σ) (s : Schedule σ) (task : Task σ) :
    Prop
  | begins (activity : task.activity = .looping period) (now : s.now = start)
      (arrivals : timeline.arrivals task.id = []) (returns : timeline.returns task.id = [])
  | awaits {deadline : Nat} (activity : task.activity = .ticking deadline period)
      (due : deadline = tickDue period start (timeline.arrivals task.id))
      (arrived : timeline.arrivals task.id ≠ []) (free : timeline.freeSince task.id start ≤ s.now)
      (now : s.now ≤ max deadline (timeline.freeSince task.id start))
  | calls {next since : Nat} (activity : task.activity = .refreshing (.tick next period) since)
      (due : next = tickDue period start (timeline.arrivals task.id))
      (arrived : timeline.arrivals task.id ≠ []) (calls : task.id ∈ s.refresher.turns.calls)

/-- A background task goes on with its ticks, or it is over. -/
def Ticks (id : Ticket) (period start : Nat) (timeline : Timeline σ) (s : Schedule σ) : Prop :=
  s.Over id ∨ ∃ task ∈ s.tasks, task.id = id ∧ s.Stands period start timeline task

/-- Whether a background task has ticks to come. -/
def Loops (s : Schedule σ) (id : Ticket) (period : Nat) : Prop :=
  ∃ task ∈ s.tasks, task.id = id ∧ ∃ next, task.activity.goal? s.now = some (next, period)

theorem act?_looping (hperiod : 0 < period) (hactivity : task.activity = .looping period) :
    task.act? = some .arrive := by
  rw [Task.act?, hactivity]
  cases period with
  | zero => contradiction
  | succ period => rfl

theorem Stands.goal (h : s.Stands period start timeline task) (hperiod : 0 < period) :
    ∃ next, task.activity.goal? s.now = some (next, period) := by
  cases h with
  | begins activity => exact ⟨_, activity ▸ Activity.goal?_looping hperiod s.now⟩
  | @awaits deadline activity => exact ⟨nextTick deadline period s.now, by rw [activity]; rfl⟩
  | @calls next since activity => exact ⟨next, by rw [activity]; rfl⟩

/-- A background task that goes on with a call is in one. -/
theorem Stands.mem_calls (h : s.Stands period start timeline task) (hperiod : 0 < period)
    (hwake : task.act? = some .wake) : task.id ∈ s.refresher.turns.calls := by
  cases h with
  | begins activity => cases (act?_looping hperiod activity).symm.trans hwake
  | awaits activity =>
    rw [Task.act?, activity] at hwake
    cases hwake
  | calls activity due arrived calls => exact calls

theorem freeSince_append_of_nil (hreturns : new.returns id = []) :
    Timeline.freeSince id start (new ++ timeline) = timeline.freeSince id start := by
  rw [Timeline.freeSince, Timeline.returns_append, hreturns]
  rfl

/-- A background task stands where it stood if others have had their turns. -/
theorem Stands.spared (h : s.Stands period start timeline task) (hontime : s.OnTime rules task)
    (harrivals : new.arrivals task.id = []) (hreturns : new.returns task.id = [])
    (hcalls : task.id ∈ s.refresher.turns.calls → task.id ∈ t.refresher.turns.calls)
    (hnow : t.now = s.now ∨ s.ready = [] ∧ s.now ≤ t.now ∧
      ∀ alarm, s.alarm? rules task = some alarm → t.now ≤ alarm) :
    t.Stands period start (new ++ timeline) task := by
  have hsame : Timeline.arrivals task.id (new ++ timeline) = timeline.arrivals task.id := by
    rw [Timeline.arrivals_append, harrivals, List.nil_append]
  cases h with
  | begins activity now arrivals returns =>
    refine .begins activity ?_ (hsame.trans arrivals) ?_
    · rcases hnow with heq | ⟨hidle, -⟩
      · exact heq.trans now
      -- Before its first tick the task is ready, so time does not pass.
      · have hready := hontime.due.mpr (by rw [Runnable, activity]; trivial)
        rw [hidle] at hready
        contradiction
    · rw [Timeline.returns_append, hreturns, returns]
      rfl
  | @awaits deadline activity due arrived free now =>
    rw [← hsame] at due arrived
    rw [← freeSince_append_of_nil hreturns] at free now
    rcases hnow with heq | ⟨-, hlater, halarm⟩
    · exact .awaits activity due arrived (heq ▸ free) (heq ▸ now)
    · have hdeadline := halarm deadline (by rw [alarm?, activity])
      exact .awaits activity due arrived (free.trans hlater) (hdeadline.trans (Nat.le_max_left ..))
  | calls activity due arrived calls =>
    rw [← hsame] at due arrived
    exact .calls activity due arrived (hcalls calls)

/-- Where a background task stands when it has run. -/
theorem Ticks.of_came {progress : Progress}
    (hdue : next = tickDue period start (timeline.arrivals id))
    (harrived : timeline.arrivals id ≠ [])
    (hfree : ∀ outcome, progress = .told outcome → timeline.freeSince id start = t.now)
    (hcame : (progress = .waiting ∧ id ∈ t.refresher.turns.calls ∧ ∃ since order,
        ⟨id, .refreshing (.tick next period) since, order⟩ ∈ t.tasks) ∨
      ∃ outcome order, progress = .told outcome ∧ ⟨id, .ticking next period, order⟩ ∈ t.tasks) :
    t.Ticks id period start timeline := by
  rcases hcame with ⟨-, hcalls, since, order, hmem⟩ | ⟨outcome, order, htold, hmem⟩
  · exact .inr ⟨_, hmem, rfl, .calls rfl hdue harrived hcalls⟩
  · have hnow := hfree outcome htold
    exact .inr ⟨_, hmem, rfl, .awaits rfl hdue harrived hnow.le (hnow ▸ Nat.le_max_right ..)⟩

/-- A background task that runs and is not in a call makes a tick in time. -/
theorem Stands.onTick (h : s.Stands period start timeline task) (hperiod : 0 < period)
    (hrunnable : s.Runnable rules task) (does : task.act? = some .arrive)
    (hgoal : task.activity.goal? s.now = some (next, period)) :
    timeline.OnTick task.id period start s.now ∧
    next = tickDue period start (s.now :: timeline.arrivals task.id) := by
  cases h with
  | begins activity now arrivals returns =>
    rw [activity, Activity.goal?_looping hperiod] at hgoal
    cases hgoal
    rw [arrivals, ← now]
    refine ⟨⟨?_, fun _ => rfl⟩, rfl⟩
    rw [arrivals, Timeline.freeSince, returns]
    exact (Nat.max_self _).symm
  | @awaits deadline activity due arrived free now =>
    rw [activity] at hgoal
    cases hgoal
    rw [Runnable, activity] at hrunnable
    subst due
    have htime := now.antisymm (Nat.max_le.mpr ⟨hrunnable, free⟩)
    exact ⟨⟨htime, fun hnone => absurd hnone arrived⟩, rfl⟩
  | calls activity =>
    rw [Task.act?, activity] at does
    cases does

theorem Stands.next_of_wake (h : s.Stands period start timeline task) (hperiod : 0 < period)
    (does : task.act? = some .wake) (hgoal : task.activity.goal? s.now = some (next, period)) :
    next = tickDue period start (timeline.arrivals task.id) ∧ timeline.arrivals task.id ≠ [] := by
  cases h with
  | begins activity => cases (act?_looping hperiod activity).symm.trans does
  | awaits activity =>
    rw [Task.act?, activity] at does
    cases does
  | calls activity due arrived calls =>
    rw [activity] at hgoal
    cases hgoal
    exact ⟨due, arrived⟩

/-- With every turn a background task goes on with its ticks, or it is over. -/
theorem Ticks.turn (h : s.Ticks id period start timeline) (hperiod : 0 < period)
    (hticked : timeline.Ticked id period start) (hsound : s.Sound log)
    (hprompt : s.Prompt rules none)
    (hturn : Turn rules s new t) :
    t.Ticks id period start (new ++ timeline) ∧
    Timeline.Ticked id period start (new ++ timeline) := by
  rcases h with hover | ⟨task, htask, rfl, hstands⟩
  · obtain ⟨hstill, hsilent⟩ := hover.turn hturn
    exact ⟨.inl hstill, hticked.append hsilent⟩
  · obtain ⟨next, hgoal⟩ := hstands.goal hperiod
    have hontime := hprompt.onTime htask
    cases hturn.fares hsound hprompt htask hgoal (hstands.mem_calls hperiod) with
    | spared mem arrivals returns calls now =>
      exact ⟨.inr ⟨task, mem, rfl, hstands.spared hontime arrivals returns calls now⟩,
        hticked.append arrivals⟩
    | dismissed dismissed stops arrivals =>
      have hsound' := (hsound.moves_of_reaches hturn.reaches).2
      exact ⟨.inl (stops.over hsound'.tidy), hticked.append arrivals⟩
    | @goesOn act progress front first does arrived arrivals returns now came =>
      have hfree : ∀ past : Timeline σ, ∀ outcome, progress = .told outcome →
          Timeline.freeSince task.id start (front ++ past) = t.now := by
        rintro past outcome rfl
        rw [Timeline.freeSince, Timeline.returns_append, returns, now]
        rfl
      rcases arrived with ⟨rfl, rfl⟩ | ⟨rfl, rfl⟩
      · obtain ⟨honTick, hnext⟩ := hstands.onTick hperiod (hontime.due.mp first) does hgoal
        have harrivals :
            Timeline.arrivals task.id (front ++ ⟨s.now, .arrived task.id⟩ :: timeline) =
              s.now :: timeline.arrivals task.id := by
          rw [Timeline.arrivals_append, arrivals, Timeline.arrivals_arrived_self]
          rfl
        rw [List.append_assoc, List.singleton_append]
        refine ⟨.of_came ?_ ?_ (hfree _) came, (hticked.arrived honTick).append arrivals⟩
        · rw [harrivals]
          exact hnext
        · rw [harrivals]
          exact List.cons_ne_nil _ _
      · obtain ⟨hnext, harrived⟩ := hstands.next_of_wake hperiod does hgoal
        have harrivals :
            Timeline.arrivals task.id (new ++ timeline) = timeline.arrivals task.id := by
          rw [Timeline.arrivals_append, arrivals]
          rfl
        rw [← harrivals] at hnext harrived
        exact ⟨.of_came hnext harrived (hfree _) came, hticked.append arrivals⟩

theorem Ticks.advance (h : s.Ticks id period start timeline) (hperiod : 0 < period)
    (hticked : timeline.Ticked id period start) (hsound : s.Sound log)
    (hprompt : s.Prompt rules none)
    (hadvance : Advance rules s new t) :
    t.Ticks id period start (new ++ timeline) ∧
    Timeline.Ticked id period start (new ++ timeline) := by
  rcases h with hover | ⟨task, htask, rfl, hstands⟩
  · obtain ⟨hstill, hsilent⟩ := hover.advance hadvance
    exact ⟨.inl hstill, hticked.append hsilent⟩
  · have hontime := hprompt.onTime htask
    have hsound' := (hsound.moves_of_reaches hadvance.reaches).2
    cases hadvance with
    | turn next =>
      have hturn := turn_of_next? next
      exact Ticks.turn (.inr ⟨task, htask, rfl, hstands⟩) hperiod hticked hsound hprompt hturn
    | spawn delay step =>
      exact ⟨.inr ⟨task, List.mem_append_left _ htask, rfl,
        hstands.spared hontime rfl rfl (fun hcalls => hcalls) (.inl rfl)⟩, hticked⟩
    | @tellStop other mem =>
      refine ⟨?_, hticked⟩
      by_cases hid : task.id = other.id
      · rw [hid]
        exact .inl ((toStop_tellStop mem).over hsound'.tidy)
      · rw [tellStop_eq]
        exact .inr ⟨task, mem_rest_of_ne htask hid, rfl,
          hstands.spared hontime rfl rfl (fun hcalls => hcalls) (.inl rfl)⟩
    | @stop other mem =>
      refine ⟨?_, hticked.append (arrivals_abandon ..)⟩
      by_cases hid : task.id = other.id
      · rw [hid]
        exact .inl (over_stop (hsound.tidy.started other mem))
      · have hothers : ∀ m ∈ (s.refresher.happenings rules other.id s.now .abandon).map
            (Moment.mk s.now), m.what.call ≠ task.id := by
          intro m hm heq
          exact hid (heq.symm.trans (Refresher.call_map_happenings m hm))
        have hcalls : task.id ∈ (s.refresher.perform rules other.id s.now .abandon).1.turns.calls ↔
            task.id ∈ s.refresher.turns.calls := hsound.refresher.mem_calls_perform_iff nofun hid
        exact .inr ⟨task, List.mem_filter.mpr ⟨htask, by simpa using hid⟩, rfl,
          hstands.spared hontime (Timeline.arrivals_of_ne hothers) (Timeline.returns_of_ne hothers)
            hcalls.mpr (.inl rfl)⟩
    | forget answers =>
      exact ⟨.inr ⟨task, htask, rfl,
        hstands.spared hontime rfl rfl (fun hcalls => hcalls) (.inl rfl)⟩, hticked⟩

section Calls

def CallsNext (rules : RefreshRules σ) (s : Schedule σ) (id : Ticket) : Prop :=
  Timeline.arrivals id (s.upcoming rules) ≠ []

def callsBy (rules : RefreshRules σ) (s : Schedule σ) (task : Task σ) : Nat :=
  match task.activity with
  | .ticking deadline _ => max deadline s.now
  | .refreshing (.tick next _) _ => max next (s.refresher.latest rules s.now task.id)
  | _ => s.now

/-- A background task that is on the way to its next call, which it makes by some time. -/
structure Approaches (rules : RefreshRules σ) (period bound : Nat) (s : Schedule σ)
    (task : Task σ) : Prop where
  goal : ∃ next, task.activity.goal? s.now = some (next, period)
  calls : task.act? = some .wake → task.id ∈ s.refresher.turns.calls
  soon : s.callsBy rules task ≤ bound

theorem exists_goal? {activity : Activity σ} {now : Nat} (later : Nat)
    (hgoal : activity.goal? now = some (next, period)) :
    ∃ next, activity.goal? later = some (next, period) := by
  rcases Activity.of_goal? hgoal with ⟨rfl, hperiod, -⟩ | ⟨deadline, rfl, -⟩ | ⟨since, rfl⟩
  · exact ⟨_, Activity.goal?_looping hperiod later⟩
  · exact ⟨nextTick deadline period later, rfl⟩
  · exact ⟨next, rfl⟩

theorem now_le_callsBy (htimely : s.refresher.Timely rules s.now) (task : Task σ) :
    s.now ≤ s.callsBy rules task := by
  rw [callsBy]
  split
  · exact Nat.le_max_right ..
  · exact (Refresher.le_latest htimely task.id).trans (Nat.le_max_right ..)
  · exact le_rfl

/-- As long as a background task has ticks to come, there is a next turn. -/
theorem Approaches.exists_next? {bound : Nat} (h : s.Approaches rules period bound task)
    (hsound : s.Sound log) (hprompt : s.Prompt rules none) (htask : task ∈ s.tasks) :
    ∃ t, s.next? rules = some t := by
  obtain ⟨⟨next, hgoal⟩, hcalls, -⟩ := h
  have hontime := hprompt.onTime htask
  rcases Activity.of_goal? hgoal with ⟨hactivity, -⟩ | ⟨deadline, hactivity, -⟩ | ⟨since, hactivity⟩
  · have hready := hontime.due.mpr (by rw [Runnable, hactivity]; trivial)
    exact Schedule.exists_next? htask (.inl (List.ne_nil_of_mem hready))
  · exact Schedule.exists_next? htask (.inr ⟨deadline, by rw [alarm?, hactivity]⟩)
  · exact exists_next?_of_calls hsound hprompt (hcalls (by rw [Task.act?, hactivity]))

/-- The turns of others do not put off the next call of a background task. -/
theorem callsBy_le (hontime : s.OnTime rules task)
    (hgoal : task.activity.goal? s.now = some (next, period))
    (hlatest : task.act? = some .wake →
      t.refresher.latest rules t.now task.id ≤ s.refresher.latest rules s.now task.id)
    (hnow : t.now = s.now ∨ s.ready = [] ∧ s.now ≤ t.now ∧
      ∀ alarm, s.alarm? rules task = some alarm → t.now ≤ alarm) :
    t.callsBy rules task ≤ s.callsBy rules task := by
  rcases Activity.of_goal? hgoal with ⟨hactivity, -⟩ | ⟨deadline, hactivity, -⟩ | ⟨since, hactivity⟩
  · rcases hnow with heq | ⟨hidle, -⟩
    · rw [callsBy, callsBy, hactivity, heq]
    · have hready := hontime.due.mpr (by rw [Runnable, hactivity]; trivial)
      rw [hidle] at hready
      contradiction
  · rcases hnow with heq | ⟨-, -, halarm⟩
    · rw [callsBy, callsBy, hactivity, heq]
    · have hdeadline := halarm deadline (by rw [alarm?, hactivity])
      rw [callsBy, callsBy, hactivity]
      exact Nat.max_le.mpr ⟨Nat.le_max_left .., hdeadline.trans (Nat.le_max_left ..)⟩
  · rw [callsBy, callsBy, hactivity]
    exact max_le_max_left next (hlatest (by rw [Task.act?, hactivity]))

theorem refreshing_of_wake (does : task.act? = some .wake)
    (hgoal : task.activity.goal? s.now = some (next, period)) :
    ∃ since, task.activity = .refreshing (.tick next period) since := by
  rcases Activity.of_goal? hgoal with
    ⟨hactivity, hperiod, -⟩ | ⟨deadline, hactivity, -⟩ | hrefreshing
  · cases (act?_looping hperiod hactivity).symm.trans does
  · rw [Task.act?, hactivity] at does
    cases does
  · exact hrefreshing

/-- With every turn a background task comes closer to its next call, unless it makes it or the time
is over after which it is told to stop. -/
theorem Approaches.turn {bound : Nat} (h : s.Approaches rules period bound task)
    (hsound : s.Sound log)
    (hprompt : s.Prompt rules none) (htask : task ∈ s.tasks) (hturn : Turn rules s new t)
    (hsilent : new.arrivals task.id = []) (hnot : ¬ s.Dismissed task.id) :
    ∃ later ∈ t.tasks, later.id = task.id ∧ t.Approaches rules period bound later := by
  obtain ⟨⟨next, hgoal⟩, hcalls, hsoon⟩ := h
  have hontime := hprompt.onTime htask
  cases hturn.fares hsound hprompt htask hgoal hcalls with
  | spared mem arrivals returns calls now =>
    refine ⟨task, mem, rfl, exists_goal? t.now hgoal, fun hwake => calls (hcalls hwake), ?_⟩
    refine (callsBy_le hontime hgoal (fun hwake => ?_) now).trans hsoon
    exact hturn.latest_le hsound hprompt (hcalls hwake) (calls (hcalls hwake))
  | dismissed dismissed => exact absurd dismissed hnot
  | @goesOn act progress front first does arrived arrivals returns now came =>
    rcases arrived with ⟨rfl, rfl⟩ | ⟨rfl, rfl⟩
    · rw [Timeline.arrivals_append, Timeline.arrivals_arrived_self] at hsilent
      simp at hsilent
    · obtain ⟨since, hactivity⟩ := refreshing_of_wake does hgoal
      have hcallsBy : s.callsBy rules task = max next (s.refresher.latest rules s.now task.id) := by
        rw [callsBy, hactivity]
      have hle := hcallsBy ▸ hsoon
      rcases came with ⟨-, hcall, since, order, hmem⟩ | ⟨outcome, order, -, hmem⟩
      · refine ⟨_, hmem, rfl, ⟨next, rfl⟩, fun _ => hcall, ?_⟩
        exact (max_le_max_left next (hturn.latest_le hsound hprompt (hcalls does) hcall)).trans hle
      · refine ⟨_, hmem, rfl, ⟨_, rfl⟩, nofun, ?_⟩
        refine (max_le_max_left next ?_).trans hle
        exact now.le.trans (Refresher.le_latest hprompt.timely task.id)

/-- A background task that has ticks to come calls refresh again in a finite number of turns, unless
the time is over after which it is told to stop. -/
theorem calls_eventually (hsound : s.Sound log) (hprompt : s.Prompt rules none)
    (htask : task ∈ s.tasks)
    (h : s.Approaches rules period (s.callsBy rules task) task) :
    ∃ later u, Unattended rules s later u ∧ (u.CallsNext rules task.id ∨ u.Dismissed task.id) := by
  by_cases hend : s.CallsNext rules task.id ∨ s.Dismissed task.id
  · exact ⟨[], s, .refl, hend⟩
  -- No turn moves the time of the call away, so the time at the start bounds the whole run.
  · refine eventually (s.callsBy rules task) (I := fun u => (∃ log, u.Sound log) ∧
      u.Prompt rules none ∧ (∃ later ∈ u.tasks, later.id = task.id ∧
        u.Approaches rules period (s.callsBy rules task) later) ∧
      ¬ (u.CallsNext rules task.id ∨ u.Dismissed task.id)) ?_
      ⟨⟨log, hsound⟩, hprompt, ⟨task, htask, rfl, h⟩, hend⟩
    rintro u ⟨⟨log, hsound⟩, hprompt, ⟨later, hlater, hid, happroaches⟩, hend⟩
    have hnow := (now_le_callsBy hprompt.timely later).trans happroaches.soon
    refine ⟨⟨log, hsound⟩, hprompt, hnow, ?_⟩
    obtain ⟨hcalls, hnot⟩ := not_or.mp hend
    obtain ⟨t, hnext⟩ := happroaches.exists_next? hsound hprompt hlater
    have hturn := turn_of_next? hnext
    obtain ⟨last, hlast, hlastId, hstill⟩ := happroaches.turn hsound hprompt hlater hturn
      (hid ▸ not_not.mp hcalls) (hid ▸ hnot)
    have hsound' := (hsound.moves_of_reaches hturn.reaches).2
    refine ⟨t, hnext, or_iff_not_imp_left.mpr fun hend' => ?_⟩
    exact ⟨⟨_, hsound'⟩, hprompt.turn hsound hturn, ⟨last, hlast, hlastId.trans hid, hstill⟩, hend'⟩

end Calls

/-- What holds of a background task all the time. -/
theorem Clocked.ticks (hs : Clocked rules (initial source) earlier s) (htask : task ∈ s.tasks)
    (hloop : task.activity = .looping period) (hperiod : 0 < period)
    (hrun : Clocked rules s timeline t) :
    t.Ticks task.id period s.now timeline ∧ timeline.Ticked task.id period s.now := by
  induction hrun with
  | refl => exact ⟨.inr ⟨task, htask, rfl, .begins hloop rfl rfl rfl⟩, Timeline.ticked_nil⟩
  | next run step ih =>
    obtain ⟨hsound, hprompt⟩ := (hs.trans run).sound_prompt
    exact ih.1.advance hperiod ih.2 hsound hprompt step

theorem loops_iff : s.Loops id period ↔ (s.tasks.any fun task =>
    task.id == id && (task.activity.goal? s.now).any (·.2 == period)) = true := by
  rw [Loops, List.any_eq_true]
  refine exists_congr fun task => and_congr_right fun _ => ?_
  cases task.activity.goal? s.now <;> simp [Prod.ext_iff, and_comm]

instance : Decidable (s.Loops id period) :=
  decidable_of_iff' _ loops_iff

/-- A background task that has ticks to come is on its way to the next call. -/
theorem Ticks.approaches (rules : RefreshRules σ) (h : s.Ticks id period start timeline)
    (hperiod : 0 < period)
    (hloops : s.Loops id period) : ∃ task ∈ s.tasks, task.id = id ∧
      s.Stands period start timeline task ∧
      s.Approaches rules period (s.callsBy rules task) task := by
  rcases h with hover | ⟨task, htask, hid, hstands⟩
  · obtain ⟨task, htask, hid, next, hgoal⟩ := hloops
    rw [hover.2 task htask hid] at hgoal
    cases hgoal
  · exact ⟨task, htask, hid, hstands, hstands.goal hperiod, hstands.mem_calls hperiod, le_rfl⟩

theorem Loops.advance (h : s.Loops id period) (hticks : s.Ticks id period start timeline)
    (hperiod : 0 < period) (hsound : s.Sound log) (hprompt : s.Prompt rules none)
    (hadvance : Advance rules s new t) :
    t.Loops id period ∨ s.Dismissed id ∨ t = s.tellStop id ∨ t = s.stop id := by
  obtain ⟨task, htask, rfl, -, ⟨next, hgoal⟩, hcalls, -⟩ := hticks.approaches rules hperiod h
  cases hadvance with
  | turn hnext =>
    cases (turn_of_next? hnext).fares hsound hprompt htask hgoal hcalls with
    | spared mem => exact .inl ⟨task, mem, rfl, exists_goal? t.now hgoal⟩
    | dismissed dismissed => exact .inr (.inl dismissed)
    | goesOn first does arrived arrivals returns now came =>
      rcases came with ⟨-, -, since, order, hmem⟩ | ⟨outcome, order, -, hmem⟩
      · exact .inl ⟨_, hmem, rfl, next, rfl⟩
      · exact .inl ⟨_, hmem, rfl, _, rfl⟩
  | spawn delay step => exact .inl ⟨task, List.mem_append_left _ htask, rfl, next, hgoal⟩
  | @tellStop other mem =>
    by_cases hid : task.id = other.id
    · exact .inr (.inr (.inl (hid ▸ rfl)))
    · rw [tellStop_eq]
      exact .inl ⟨task, mem_rest_of_ne htask hid, rfl, next, hgoal⟩
  | @stop other mem =>
    by_cases hid : task.id = other.id
    · exact .inr (.inr (.inr (hid ▸ rfl)))
    · exact .inl ⟨task, List.mem_filter.mpr ⟨htask, by simpa using hid⟩, rfl, next, hgoal⟩
  | forget answers => exact .inl ⟨task, htask, rfl, next, hgoal⟩

theorem Stands.now_le (h : s.Stands period start timeline task)
    (hout : task.id ∉ s.refresher.turns.calls) :
    s.now ≤ max (tickDue period start (timeline.arrivals task.id))
      (timeline.freeSince task.id start) := by
  cases h with
  | begins activity now arrivals returns =>
    rw [arrivals, now]
    exact Nat.le_max_left ..
  | awaits activity due arrived free now => exact due ▸ now
  | calls activity due arrived calls => exact absurd calls hout

/-- In every run by the clock, whatever the source does, however long its replies take and whoever
else refreshes, a background task calls refresh when a tick is due and at no other time: at once
first, and then at the deadline of the tick or when its call before is over. It is in no other call
then, and two calls are a period apart but for what a tick may be late without moving others.
Whatever its calls are told, it goes on until it is told to stop or is stopped: the clock does not
pass the time of its next call, and it makes this call in a finite number of turns. -/
theorem background_calls_on_ticks (hs : Clocked rules (initial source) earlier s)
    (htask : task ∈ s.tasks) (hloop : task.activity = .looping period) (hperiod : 0 < period)
    (hrun : Clocked rules s timeline t) :
    (∀ time (past : Timeline σ), ⟨time, .arrived task.id⟩ :: past <:+ timeline →
      past.OnTick task.id period s.now time ∧
      Log.phase task.id (Timeline.log (past ++ earlier)) = .outside) ∧
    ((timeline.arrivals task.id).IsChain fun later sooner =>
      sooner + period ≤ later + tickTolerance) ∧
    (t.Loops task.id period →
      (task.id ∉ t.refresher.turns.calls → t.now ≤
        max (tickDue period s.now (timeline.arrivals task.id)) (timeline.freeSince task.id s.now)) ∧
      (∀ new u, Advance rules t new u → u.Loops task.id period ∨ t.Dismissed task.id ∨
        u = t.tellStop task.id ∨ u = t.stop task.id) ∧
      ∃ later u, Unattended rules t later u ∧
        (u.CallsNext rules task.id ∨ u.Dismissed task.id)) := by
  obtain ⟨hticks, hticked⟩ := hs.ticks htask hloop hperiod hrun
  obtain ⟨hsound, hprompt⟩ := (hs.trans hrun).sound_prompt
  refine ⟨fun time past hpast => ⟨hticked time past hpast, ?_⟩, hticked.apart, fun hloops => ?_⟩
  · have hbefore : ⟨time, .arrived task.id⟩ :: (past ++ earlier) <:+ timeline ++ earlier := by
      obtain ⟨front, rfl⟩ := hpast
      exact ⟨front, by simp⟩
    have hlog : .arrived task.id :: Timeline.log (past ++ earlier) <:+
        Timeline.log (timeline ++ earlier) :=
      List.IsSuffix.filterMap (fun m : Moment σ => m.what.event?) hbefore
    exact hsound.refresher.lawful _ _ hlog
  · obtain ⟨current, hcurrent, hid, hstands, happroaches⟩ := hticks.approaches rules hperiod hloops
    refine ⟨fun hout => ?_, fun new u hadvance => ?_, ?_⟩
    · exact hid ▸ hstands.now_le (hid ▸ hout)
    · exact hloops.advance hticks hperiod hsound hprompt hadvance
    · exact hid ▸ calls_eventually hsound hprompt hcurrent happroaches

/-- A host without pools and datasets whose first reply takes ten milliseconds and the others no
time. -/
def warmingHost : RefreshRules Bool where
  source := {
    call := fun _ warm => (if warm then 0 else 10, true)
    reply := fun query warm => (bareReply query, warm) }
  limit := 100

def warmingStart : Schedule Bool :=
  ((initial false).spawn (.starting 0 (.interval 6 30))).runFor warmingHost 1

def warmingTimeline : Timeline Bool :=
  warmingStart.timelineFor warmingHost 9

def warmingTicks : Schedule Bool :=
  warmingStart.runFor warmingHost 9

theorem clocked_warmingStart :
    ∃ earlier, Clocked warmingHost (initial false) earlier warmingStart := by
  have hspawned : Clocked warmingHost (initial false) [] _ :=
    .next .refl (.spawn 0 (.interval 6 30))
  exact ⟨_, hspawned.trans (unattended_runFor warmingHost 1 _).clocked⟩

/-- The second tick is four milliseconds late and the next one comes in time, two milliseconds after
it. The task goes on. -/
theorem warmingHost_calls_on_ticks :
    warmingTimeline.arrivals 1 = [18, 12, 10, 0] ∧
    (warmingTimeline.arrivals 1).IsChain (fun later sooner => sooner + 6 ≤ later + tickTolerance) ∧
    ∃ later u, Unattended warmingHost warmingTicks later u ∧
      (u.CallsNext warmingHost 1 ∨ u.Dismissed 1) := by
  obtain ⟨earlier, hstart⟩ := clocked_warmingStart
  have htask : (⟨1, .looping 6, 2⟩ : Task Bool) ∈ warmingStart.tasks :=
    List.mem_cons_of_mem _ (List.mem_cons_self ..)
  have hrun : Clocked warmingHost warmingStart warmingTimeline warmingTicks :=
    (unattended_runFor warmingHost 9 warmingStart).clocked
  have hcalls := background_calls_on_ticks hstart htask rfl (by decide) hrun
  have hloops : warmingTicks.Loops 1 6 := by decide +kernel
  exact ⟨by decide +kernel, hcalls.2.1, (hcalls.2.2 hloops).2.2⟩

end Schedule

end PoolGauge
