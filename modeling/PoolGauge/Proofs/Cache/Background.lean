import PoolGauge.Proofs.Cache.Deadlines

/-!
# Background tasks

When a background task runs it calls refresh or goes on with its call, and then waits for its next
tick. The turns of other tasks spare it, but for the one that tells it to stop.
-/
namespace PoolGauge

variable {σ : Type}

namespace Happening

variable {h : Happening σ} {c : Ticket}

def arrives (c : Ticket) : Happening σ → Bool
  | arrived call => call == c
  | _ => false

theorem call_of_arrives (harrives : h.arrives c = true) : h.call = c := by
  cases h with
  | arrived call => exact beq_iff_eq.mp harrives
  | called | replied | told | dropped => cases harrives

theorem call_of_tells (htells : h.tells c = true) : h.call = c := by
  cases h with
  | told call outcome => exact beq_iff_eq.mp htells
  | arrived | called | replied | dropped => cases htells

end Happening

namespace Timeline

variable {timeline new : Timeline σ} {c : Ticket}

/-- The times at which a call arrived, the latest first. -/
def arrivals (c : Ticket) (timeline : Timeline σ) : List Nat :=
  (timeline.filter (·.what.arrives c)).map Moment.time

def returns (c : Ticket) (timeline : Timeline σ) : List Nat :=
  (timeline.filter (·.what.tells c)).map Moment.time

theorem arrivals_append (c : Ticket) (new timeline : Timeline σ) :
    arrivals c (new ++ timeline) = arrivals c new ++ arrivals c timeline := by
  rw [arrivals, List.filter_append, List.map_append]
  rfl

theorem returns_append (c : Ticket) (new timeline : Timeline σ) :
    returns c (new ++ timeline) = returns c new ++ returns c timeline := by
  rw [returns, List.filter_append, List.map_append]
  rfl

theorem arrivals_of_none (h : ∀ m ∈ new, m.what.arrives c = false) : new.arrivals c = [] := by
  rw [arrivals, List.filter_eq_nil_iff.mpr fun m hm => by simp [h m hm]]
  rfl

theorem returns_of_none (h : ∀ m ∈ new, m.what.tells c = false) : new.returns c = [] := by
  rw [returns, List.filter_eq_nil_iff.mpr fun m hm => by simp [h m hm]]
  rfl

theorem arrivals_of_ne (h : ∀ m ∈ new, m.what.call ≠ c) : new.arrivals c = [] :=
  arrivals_of_none fun m hm =>
    Bool.eq_false_iff.mpr fun harrives => h m hm (Happening.call_of_arrives harrives)

theorem returns_of_ne (h : ∀ m ∈ new, m.what.call ≠ c) : new.returns c = [] :=
  returns_of_none fun m hm =>
    Bool.eq_false_iff.mpr fun htells => h m hm (Happening.call_of_tells htells)

theorem arrivals_arrived_self (c : Ticket) (now : Nat) (timeline : Timeline σ) :
    arrivals c (⟨now, .arrived c⟩ :: timeline) = now :: arrivals c timeline := by
  rw [arrivals, List.filter_cons_of_pos (by simp [Happening.arrives])]
  rfl

end Timeline

def Progress.returns (now : Nat) : Progress → List Nat
  | .waiting => []
  | .told _ => [now]

namespace Refresher

variable {rules : RefreshRules σ} {r : Refresher σ} {c : Ticket} {now : Nat}

/-- What a call does that goes on, seen from outside: it does not arrive, and is told at most
once. -/
theorem arrivals_returns_witnessed (result : Refresher (σ × List (Note σ)) × Progress) :
    Timeline.arrivals c ((witnessed c result).map (Moment.mk now)) = [] ∧
    Timeline.returns c ((witnessed c result).map (Moment.mk now)) = result.2.returns now := by
  have hnoticed : ∀ m ∈ noticed c now result,
      m.what.arrives c = false ∧ m.what.tells c = false := by
    intro m hm
    obtain ⟨note, -, rfl⟩ := List.mem_map.mp hm
    cases note <;> exact ⟨rfl, rfl⟩
  rw [map_witnessed, Timeline.arrivals_append, Timeline.returns_append,
    Timeline.arrivals_of_none fun m hm => (hnoticed m hm).1,
    Timeline.returns_of_none fun m hm => (hnoticed m hm).2, List.append_nil, List.append_nil]
  cases result.2 with
  | waiting => exact ⟨rfl, rfl⟩
  | told outcome => exact ⟨rfl, by simp [Timeline.returns, Progress.happenings, Progress.returns,
      Happening.tells]⟩

/-- What happens to a call that arrives, after its arrival. -/
theorem happenings_arrive (rules : RefreshRules σ) (r : Refresher σ) (c : Ticket) (now : Nat) :
    ∃ front : Timeline σ,
      (r.happenings rules c now .arrive).map (Moment.mk now) = front ++ [⟨now, .arrived c⟩] ∧
      front.arrivals c = [] ∧ front.returns c = (r.arrive rules c now).2.returns now := by
  have hmaps := arrive_map (r.noted []) c now rules.noted_mapsTo
  have hprogress : (r.arrive rules c now).2 = ((r.noted []).arrive rules.noted c now).2 :=
    congrArg Prod.snd hmaps
  rw [hprogress]
  refine ⟨_, ?_, arrivals_returns_witnessed _⟩
  rw [happenings, List.map_append]
  rfl

theorem happenings_wake (rules : RefreshRules σ) (r : Refresher σ) (c : Ticket) (now : Nat) :
    Timeline.arrivals c ((r.happenings rules c now .wake).map (Moment.mk now)) = [] ∧
    Timeline.returns c ((r.happenings rules c now .wake).map (Moment.mk now)) =
      (r.wake rules c now).2.returns now := by
  have hmaps := wake_map (r.noted []) c now rules.noted_mapsTo
  have hprogress : (r.wake rules c now).2 = ((r.noted []).wake rules.noted c now).2 :=
    congrArg Prod.snd hmaps
  rw [hprogress]
  exact arrivals_returns_witnessed _

end Refresher

namespace Schedule

variable {rules : RefreshRules σ} {s t : Schedule σ} {task : Task σ} {log : Log} {id : Ticket}
  {new : Timeline σ} {next period : Nat}

theorem call_moments : ∀ m ∈ s.moments rules task, m.what.call = task.id := by
  intro m hm
  rw [moments] at hm
  cases hact : task.act? with
  | none =>
    rw [hact] at hm
    contradiction
  | some act =>
    rw [hact] at hm
    exact Refresher.call_map_happenings m hm

/-- The background task of a call has ended or is to stop. -/
def Over (s : Schedule σ) (id : Ticket) : Prop :=
  id < s.started ∧ ∀ task ∈ s.tasks, task.id = id → task.activity = .stopping

/-- A task has waited as long as it should before it tells a background task to stop. -/
def Dismissed (s : Schedule σ) (id : Ticket) : Prop :=
  ∃ watcher ∈ s.tasks, ∃ wakeAt, watcher.activity = .watching wakeAt id ∧ wakeAt ≤ s.now

theorem ToStop.over (h : s.ToStop id) (htidy : s.Tidy) : s.Over id := by
  obtain ⟨task, htask, rfl, hstops⟩ := h
  refine ⟨htidy.started task htask, fun other hother hid => ?_⟩
  rwa [List.inj_on_of_nodup_map htidy.nodup hother htask hid]

theorem toStop_tellStop (htask : task ∈ s.tasks) : (s.tellStop task.id).ToStop task.id := by
  rw [tellStop_eq]
  exact ⟨_, mem_rest_self htask, rfl, rfl⟩

theorem over_stop (h : id < s.started) : (s.stop id).Over id := by
  refine ⟨h, fun task htask hid => ?_⟩
  have hne := (List.mem_filter.mp htask).2
  rw [hid] at hne
  simp at hne

/-- What may become of a background task that goes on with some deadline and period: other tasks
have their turns, and the clock does not move past a time for which it waits; or it is to stop; or
it runs. Then it arrives with a call or was in one, and is left waiting or told. -/
inductive Fares (rules : RefreshRules σ) (s : Schedule σ) (task : Task σ) (next period : Nat)
    (new : Timeline σ) (t : Schedule σ) : Prop
  | spared (mem : task ∈ t.tasks) (arrivals : new.arrivals task.id = [])
      (returns : new.returns task.id = [])
      (calls : task.id ∈ s.refresher.turns.calls → task.id ∈ t.refresher.turns.calls)
      (now : t.now = s.now ∨ s.ready = [] ∧ s.now ≤ t.now ∧
        ∀ alarm, s.alarm? rules task = some alarm → t.now ≤ alarm)
  | dismissed (dismissed : s.Dismissed task.id) (stops : t.ToStop task.id)
      (arrivals : new.arrivals task.id = [])
  | goesOn {act : Act σ} {progress : Progress} {front : Timeline σ} (first : task.id ∈ s.ready)
      (does : task.act? = some act)
      (arrived : (act = .arrive ∧ new = front ++ [⟨s.now, .arrived task.id⟩]) ∨
        (act = .wake ∧ new = front))
      (arrivals : front.arrivals task.id = [])
      (returns : front.returns task.id = progress.returns s.now)
      (now : t.now = s.now)
      (came : (progress = .waiting ∧ task.id ∈ t.refresher.turns.calls ∧ ∃ since order,
          ⟨task.id, .refreshing (.tick next period) since, order⟩ ∈ t.tasks) ∨
        ∃ outcome order, progress = .told outcome ∧
          ⟨task.id, .ticking next period, order⟩ ∈ t.tasks)

theorem fares_runTask {rest : List Ticket} (htask : task ∈ s.tasks)
    (first : s.ready = task.id :: rest) (hgoal : task.activity.goal? s.now = some (next, period))
    (hcalls : task.act? = some .wake → task.id ∈ s.refresher.turns.calls) :
    Fares rules s task next period (s.moments rules task)
      ({ s with ready := rest }.runTask rules task) := by
  have hran := ran_runTask rules { s with ready := rest } task
  have hready : task.id ∈ s.ready := first ▸ List.mem_cons_self ..
  obtain ⟨act, does, call, hcame⟩ := hran.of_goal htask hgoal
  have hstill : (s.refresher.perform rules task.id s.now act).2 = .waiting →
      task.id ∈ ({ s with ready := rest }.runTask rules task).refresher.turns.calls := by
    intro hwaiting
    rw [(does_runTask rules { s with ready := rest } task).refresher, does]
    exact Refresher.mem_calls_of_waiting call (fun hwake => hcalls (hwake ▸ does)) hwaiting
  have hcame' := hcame.imp_left fun h => And.intro h.1 (And.intro (hstill h.1) h.2)
  rw [moments, does]
  rcases call with rfl | rfl
  · obtain ⟨front, heq, harrivals, hreturns⟩ :=
      Refresher.happenings_arrive rules s.refresher task.id s.now
    exact .goesOn hready does (.inl ⟨rfl, heq⟩) harrivals hreturns hran.now hcame'
  · obtain ⟨harrivals, hreturns⟩ := Refresher.happenings_wake rules s.refresher task.id s.now
    exact .goesOn hready does (.inr ⟨rfl, rfl⟩) harrivals hreturns hran.now hcame'

/-- What a turn does to a background task. -/
theorem Turn.fares (h : Turn rules s new t) (hsound : s.Sound log) (hprompt : s.Prompt rules none)
    (htask : task ∈ s.tasks) (hgoal : task.activity.goal? s.now = some (next, period))
    (hcalls : task.act? = some .wake → task.id ∈ s.refresher.turns.calls) :
    Fares rules s task next period new t := by
  cases h with
  | @run other rest mem first =>
    by_cases hid : task.id = other.id
    · obtain rfl := List.inj_on_of_nodup_map hsound.tidy.nodup htask mem hid
      exact fares_runTask htask first hgoal hcalls
    · have hran := ran_runTask rules { s with ready := rest } other
      have hothers : ∀ m ∈ s.moments rules other, m.what.call ≠ task.id := by
        intro m hm heq
        exact hid (heq.symm.trans (call_moments m hm))
      -- The only other task whose turn matters is the one that tells this one to stop.
      rcases hran.kept htask hid with hkept | ⟨hstops, wakeAt, hwatching⟩
      · refine .spared hkept (Timeline.arrivals_of_ne hothers) (Timeline.returns_of_ne hothers)
          (fun hcall => ?_) (.inl hran.now)
        rw [(does_runTask rules { s with ready := rest } other).refresher]
        exact (hsound.mem_calls_acted mem hid).mpr hcall
      · have hdue := (hprompt.onTime mem).due.mp (first ▸ List.mem_cons_self ..)
        rw [Runnable, hwatching] at hdue
        exact .dismissed ⟨other, mem, wakeAt, hwatching, hdue⟩ hstops
          (Timeline.arrivals_of_ne hothers)
  | skip => exact .spared htask rfl rfl id (.inl rfl)
  | @jump time ready idle jumps =>
    have hlater := jumps.now_lt hprompt idle
    exact .spared htask rfl rfl id (.inr ⟨idle, hlater.le, jumps.first task htask⟩)

theorem arrivals_abandon (rules : RefreshRules σ) (r : Refresher σ) (c d : Ticket) (now : Nat) :
    Timeline.arrivals d ((r.happenings rules c now .abandon).map (Moment.mk now)) = [] := by
  rw [Refresher.happenings]
  split <;> rfl

/-- A background task that is over stays so, and calls refresh no more. -/
theorem Over.turn (h : s.Over id) (hturn : Turn rules s new t) :
    t.Over id ∧ new.arrivals id = [] := by
  cases hturn with
  | @run other rest mem first =>
    by_cases hid : other.id = id
    · have hstops := h.2 other mem hid
      obtain ⟨other, activity, order⟩ := other
      obtain rfl : activity = .stopping := hstops
      obtain rfl : other = id := hid
      exact ⟨over_stop (s := { s with ready := rest }) h.1,
        arrivals_abandon rules s.refresher other other s.now⟩
    · have hran := ran_runTask rules { s with ready := rest } other
      refine ⟨⟨h.1.trans_le hran.started_le, fun task htask htaskId => ?_⟩,
        Timeline.arrivals_of_ne fun m hm => (call_moments m hm).trans_ne hid⟩
      have hne : task.id ≠ other.id := fun heq => hid (heq.symm.trans htaskId)
      rcases hran.mem_of_mem htask hne (htaskId ▸ h.1) with hold | hstops
      · exact h.2 task hold htaskId
      · exact hstops
  | skip | jump => exact ⟨h, rfl⟩

theorem Over.advance (h : s.Over id) (hadvance : Advance rules s new t) :
    t.Over id ∧ new.arrivals id = [] := by
  obtain ⟨hstarted, hstops⟩ := h
  cases hadvance with
  | turn next => exact Over.turn ⟨hstarted, hstops⟩ (turn_of_next? next)
  | spawn delay step =>
    refine ⟨⟨hstarted.trans (Nat.lt_succ_self _), fun task htask hid => ?_⟩, rfl⟩
    rcases List.mem_append.mp htask with hold | hnew
    · exact hstops task hold hid
    · rw [List.mem_singleton.mp hnew] at hid
      exact absurd hid hstarted.ne'
  | tellStop mem =>
    rw [tellStop_eq]
    refine ⟨⟨hstarted, fun task htask hid => ?_⟩, rfl⟩
    rcases mem_tasks_rest htask with ⟨hold, -⟩ | rfl
    · exact hstops task hold hid
    · rfl
  | stop mem =>
    exact ⟨⟨hstarted, fun task htask => hstops task (List.mem_of_mem_filter htask)⟩,
      arrivals_abandon ..⟩
  | forget answers => exact ⟨⟨hstarted, hstops⟩, rfl⟩

end Schedule

end PoolGauge
