import PoolGauge.Proofs.Cache.Progress

/-!
# A place in the line

A call that waits is told by the time by which the calls before it and then its own have taken as
long as attempts may. This time never moves away, so the call is told in the end.
-/
namespace PoolGauge

variable {σ : Type}

namespace Refresher

/-- The time by which the call is over whose turn it is. -/
def endsBy (rules : RefreshRules σ) (r : Refresher σ) (now : Nat) : Nat :=
  match r.holder with
  | some (_, .collecting attempt) => attempt.started + rules.limit
  | _ => now + rules.limit

/-- The time by which a call is over that has its turn or stands in the line. -/
def latest (rules : RefreshRules σ) (r : Refresher σ) (now : Nat) (c : Ticket) : Nat :=
  r.endsBy rules now + rules.limit * r.turns.calls.idxOf c

variable {rules : RefreshRules σ} {r : Refresher σ} {c d : Ticket} {now : Nat} {log : Log}
  {result : Refresher σ × Progress} {act : Act σ}

theorem calls_of_holder {hold : Hold} (h : r.holder = some (c, hold)) :
    r.turns.calls = c :: r.queue.map Prod.fst := by
  cases hold with
  | granted seen => rw [turns_of_granted h]; rfl
  | collecting attempt => rw [turns_of_collecting h]; rfl

theorem calls_of_none (hsound : r.Sound log) (h : r.holder = none) : r.turns.calls = [] := by
  rw [turns, h, Turns.calls, hsound.settled h]
  rfl

theorem latest_of_granted {seen : UInt64} (h : r.holder = some (c, .granted seen)) :
    r.latest rules now c = now + rules.limit := by
  rw [latest, calls_of_holder h, List.idxOf_cons_self, endsBy, h]
  rfl

theorem latest_of_collecting {attempt : Attempt} (h : r.holder = some (c, .collecting attempt)) :
    r.latest rules now c = attempt.started + rules.limit := by
  rw [latest, calls_of_holder h, List.idxOf_cons_self, endsBy, h]
  rfl

theorem calls_release : r.release.turns.calls = r.queue.map Prod.fst := by
  rw [turns_release]
  rfl

theorem Timely.now_le (h : r.Timely rules now) : now ≤ r.endsBy rules now := by
  rw [endsBy]
  split
  · rename_i c attempt hholder
    exact (h c attempt (attempt?_eq_some_iff.mpr hholder)).2.2
  · exact Nat.le_add_right _ _

theorem endsBy_release : r.release.endsBy rules now = now + rules.limit := by
  rw [endsBy]
  split
  · exact absurd ‹_› (holder_release _ _)
  · rfl

/-- When a turn is over, each call in the line is one place further. -/
theorem latest_release {s : Refresher σ} {hold : Hold} (hholder : r.holder = some (d, hold))
    (hqueue : s.queue = r.queue) (hsound : r.Sound log) (htimely : r.Timely rules now)
    (hc : c ∈ s.release.turns.calls) : s.release.latest rules now c ≤ r.latest rules now c := by
  rw [calls_release, hqueue] at hc
  have hother : d ≠ c := by
    rintro rfl
    obtain ⟨other, hold', hholder', hne⟩ := hsound.holder_of_queue hc
    exact hne (Prod.mk.inj (Option.some.inj (hholder'.symm.trans hholder))).1
  rw [latest, latest, endsBy_release, calls_release, hqueue, calls_of_holder hholder,
    List.idxOf_cons_ne _ hother, Nat.mul_succ]
  have := htimely.now_le
  omega

theorem Comes.latest_le (h : r.Comes rules d now result) (hsound : r.Sound log)
    (htimely : r.Timely rules now) (hc : c ∈ r.turns.calls) (hc' : c ∈ result.1.turns.calls) :
    result.1.latest rules now c ≤ r.latest rules now c := by
  have hgoes : ∀ {started walk source}, r.GoesOn rules d now started walk source →
      ∃ hold, r.holder = some (d, hold) ∧ r.endsBy rules now = started + rules.limit := by
    intro started walk source hgoes
    cases hgoes with
    | first free =>
      rw [calls_of_none hsound free] at hc
      contradiction
    | granted turn => exact ⟨_, turn, by rw [endsBy, turn]⟩
    | replied turn => exact ⟨_, turn, by rw [endsBy, turn]⟩
  cases h with
  | idle => exact le_rfl
  | share turn => exact latest_release turn rfl hsound htimely hc'
  | overdue turn => exact latest_release turn rfl hsound htimely hc'
  | finish goes | late goes =>
    obtain ⟨hold, hholder, -⟩ := hgoes goes
    exact latest_release hholder rfl hsound htimely hc'
  | wait goes =>
    obtain ⟨hold, hholder, hends⟩ := hgoes goes
    rw [latest, latest, hends, calls_of_holder hholder, calls_of_holder rfl]
    exact le_rfl

theorem idxOf_filter_le (calls : List Ticket) (hcd : c ≠ d) :
    (calls.filter (· != d)).idxOf c ≤ calls.idxOf c := by
  induction calls with
  | nil => exact le_rfl
  | cons e calls ih =>
    by_cases hed : e = d
    · subst hed
      rw [List.filter_cons_of_neg (by simp), List.idxOf_cons_ne _ hcd.symm]
      exact ih.trans (Nat.le_succ _)
    · rw [List.filter_cons_of_pos (by simpa using hed)]
      by_cases hec : e = c
      · rw [hec, List.idxOf_cons_self]
        exact Nat.zero_le _
      · rw [List.idxOf_cons_ne _ hec, List.idxOf_cons_ne _ hec]
        exact Nat.succ_le_succ ih

/-- Whatever is done to a refresher, a call in the line is not put off. -/
theorem latest_perform (hsound : r.Sound log) (htimely : r.Timely rules now)
    (hfresh : act = .arrive → d ∉ r.turns.calls) (hc : c ∈ r.turns.calls)
    (hc' : c ∈ (r.perform rules d now act).1.turns.calls) :
    (r.perform rules d now act).1.latest rules now c ≤ r.latest rules now c := by
  cases hholder : r.holder with
  | none =>
    rw [calls_of_none hsound hholder] at hc
    contradiction
  | some holder =>
    obtain ⟨e, hold⟩ := holder
    have hrequeued : ∀ queue : List (Ticket × UInt64),
        (e :: queue.map Prod.fst).idxOf c ≤ (e :: r.queue.map Prod.fst).idxOf c →
        { r with queue }.latest rules now c ≤ r.latest rules now c := by
      intro queue hle
      rw [latest, latest, calls_of_holder hholder, calls_of_holder (r := { r with queue }) hholder]
      exact Nat.add_le_add_left (Nat.mul_le_mul_left _ hle) _
    cases act with
    | arrive =>
      rcases comes_arrive rules r d now with ⟨-, heq⟩ | ⟨hfree, -⟩
      · rw [calls_of_holder hholder] at hc
        rw [perform, heq]
        refine hrequeued _ (le_of_eq ?_)
        rw [List.map_append, ← List.cons_append, List.idxOf_append_of_mem hc]
      · cases hfree.symm.trans hholder
    | wake => exact (comes_wake rules r d now).latest_le hsound htimely hc hc'
    | abandon =>
      rw [perform] at hc' ⊢
      by_cases he : e = d
      · subst he
        rw [abandon_of_holder hholder] at hc' ⊢
        exact latest_release hholder rfl hsound htimely hc'
      · have hcd : c ≠ d := by
          rintro rfl
          exact hsound.notMem_calls_abandon hc'
        rw [abandon_of_other hholder he]
        refine hrequeued _ ?_
        have hfilter : e :: (r.queue.filter (·.1 != d)).map Prod.fst =
            (e :: r.queue.map Prod.fst).filter (· != d) := by
          rw [List.filter_cons_of_pos (by simpa using he), List.filter_map]
          rfl
        rw [hfilter]
        exact idxOf_filter_le _ hcd
    | set change => exact le_rfl

theorem holder_of_proceed {started : Nat} {walk : Inquiry (Except Failure Inventory)}
    (hwaiting : (r.proceed rules c started now walk).2 = .waiting) :
    ∃ attempt, (r.proceed rules c started now walk).1.holder = some (c, .collecting attempt) := by
  rw [proceed] at hwaiting ⊢
  split at hwaiting
  · cases hwaiting
  · split at hwaiting
    · cases hwaiting
    · rename_i hlate
      rw [if_neg hlate]
      exact ⟨_, rfl⟩

/-- A call that goes on and is left waiting is not over. -/
theorem mem_calls_of_waiting (hcall : act = .arrive ∨ act = .wake)
    (hc : act = .wake → c ∈ r.turns.calls) (hwaiting : (r.perform rules c now act).2 = .waiting) :
    c ∈ (r.perform rules c now act).1.turns.calls := by
  rcases hcall with rfl | rfl
  · rw [perform, arrive] at hwaiting ⊢
    cases hholder : r.holder with
    | none =>
      rw [hholder] at hwaiting
      dsimp only at hwaiting ⊢
      rw [enter, if_pos rfl] at hwaiting ⊢
      obtain ⟨attempt, hattempt⟩ := holder_of_proceed hwaiting
      exact mem_calls_of_holder hattempt
    | some holder =>
      obtain ⟨e, hold⟩ := holder
      dsimp only
      rw [calls_of_holder rfl]
      simp
  · have hcomes := comes_wake rules r c now
    rw [perform] at hwaiting ⊢
    generalize r.wake rules c now = result at hwaiting hcomes
    cases hcomes with
    | idle => exact hc rfl
    | wait => exact mem_calls_of_holder rfl
    | share | finish | late | overdue => cases hwaiting

theorem le_latest (h : r.Timely rules now) (c : Ticket) : now ≤ r.latest rules now c :=
  h.now_le.trans (Nat.le_add_right _ _)

end Refresher

namespace Schedule

variable {rules : RefreshRules σ} {source : σ} {s t : Schedule σ} {task : Task σ} {log : Log}
  {c : Ticket} {earlier timeline new : Timeline σ}

/-- No turn puts a call off that has its turn or stands in the line. -/
theorem Turn.latest_le (h : Turn rules s new t) (hsound : s.Sound log)
    (hprompt : s.Prompt rules none)
    (hc : c ∈ s.refresher.turns.calls) (hc' : c ∈ t.refresher.turns.calls) :
    t.refresher.latest rules t.now c ≤ s.refresher.latest rules s.now c := by
  cases h with
  | @run task rest mem first =>
    have hrefresher := (does_runTask rules { s with ready := rest } task).refresher
    rw [(ran_runTask rules { s with ready := rest } task).now]
    rw [hrefresher] at hc' ⊢
    cases hact : task.act? with
    | none => exact le_rfl
    | some act =>
      rw [hact] at hc'
      exact Refresher.latest_perform hsound.refresher hprompt.timely (hsound.fresh mem hact) hc hc'
  | skip => exact le_rfl
  | @jump time ready idle jumps =>
    have hends : s.refresher.endsBy rules time = s.refresher.endsBy rules s.now := by
      cases hholder : s.refresher.holder with
      | none =>
        rw [Refresher.calls_of_none hsound.refresher hholder] at hc
        contradiction
      | some holder =>
        obtain ⟨d, seen | attempt⟩ := holder
        -- A call whose turn has come is ready, so time passes only while one collects.
        · have hready := hprompt.mem_ready_of_granted hsound
            (Refresher.granted?_eq_some_iff.mpr ⟨seen, hholder⟩)
          rw [idle] at hready
          contradiction
        · rw [Refresher.endsBy, Refresher.endsBy, hholder]
    rw [Refresher.latest, Refresher.latest, hends]

theorem Advance.latest_le (h : Advance rules s new t) (hsound : s.Sound log)
    (hprompt : s.Prompt rules none)
    (hc : c ∈ s.refresher.turns.calls) (hc' : c ∈ t.refresher.turns.calls) :
    t.refresher.latest rules t.now c ≤ s.refresher.latest rules s.now c := by
  cases h with
  | turn next => exact (turn_of_next? next).latest_le hsound hprompt hc hc'
  | spawn | forget => exact le_rfl
  | @tellStop task mem =>
    have hnow : (s.tellStop task.id).now = s.now := by
      rw [tellStop_eq]
      rfl
    rw [refresher_tellStop, hnow]
  | @stop task mem =>
    have hfresh : (Act.abandon : Act σ) = .arrive → task.id ∉ s.refresher.turns.calls := nofun
    exact Refresher.latest_perform hsound.refresher hprompt.timely hfresh hc hc'

/-- Whatever happens by the clock, a call is not put off as long as it has its turn or stands in the
line. -/
theorem Clocked.latest_le (hs : Clocked rules (initial source) earlier s)
    (h : Clocked rules s timeline t) (harrived : .arrived c ∉ timeline.log)
    (hc : c ∈ t.refresher.turns.calls) :
    t.refresher.latest rules t.now c ≤ s.refresher.latest rules s.now c := by
  induction h with
  | refl => exact le_rfl
  | @next t u timeline new run step ih =>
    obtain ⟨hsound, hprompt⟩ := (hs.trans run).sound_prompt
    rw [Timeline.log_append, List.mem_append, not_or] at harrived
    have hmoves := (hsound.moves_of_reaches step.reaches).1
    have hbefore := hmoves.mem_calls harrived.1 hc
    exact (step.latest_le hsound hprompt hbefore hc).trans (ih harrived.2 hbefore)

/-- As long as a call has its turn or stands in the line, there is a next turn. -/
theorem exists_next?_of_calls (hsound : s.Sound log) (hprompt : s.Prompt rules none)
    (hc : c ∈ s.refresher.turns.calls) : ∃ t, s.next? rules = some t := by
  obtain ⟨other, hother, -⟩ := hsound.serves c hc
  cases hholder : s.refresher.holder with
  | none =>
    rw [Refresher.calls_of_none hsound.refresher hholder] at hc
    contradiction
  | some holder =>
    obtain ⟨d, seen | attempt⟩ := holder
    · have hready := hprompt.mem_ready_of_granted hsound
        (Refresher.granted?_eq_some_iff.mpr ⟨seen, hholder⟩)
      exact exists_next? hother (.inl (List.ne_nil_of_mem hready))
    · obtain ⟨task, htask, -, hstop | halarm⟩ := hsound.alarm?_of_attempt rules
        (Refresher.attempt?_eq_some_iff.mpr hholder)
      · have hready := (hprompt.onTime htask).due.mpr (by rw [Runnable, hstop]; trivial)
        exact exists_next? htask (.inl (List.ne_nil_of_mem hready))
      · exact exists_next? htask (.inr ⟨_, halarm⟩)

def TellsNext (rules : RefreshRules σ) (s : Schedule σ) (c : Ticket) : Prop :=
  ∃ outcome rest, s.upcoming rules = ⟨s.now, .told c outcome⟩ :: rest

theorem tellsNext_iff : s.TellsNext rules c ↔
    (s.upcoming rules).head?.any (fun m => m.time = s.now ∧ m.what.tells c) = true := by
  rw [TellsNext]
  cases s.upcoming rules with
  | nil => simp
  | cons m rest =>
    obtain ⟨time, what⟩ := m
    cases what <;> simp [Happening.tells]

instance : Decidable (s.TellsNext rules c) :=
  decidable_of_iff' _ tellsNext_iff

theorem toStop_of_abandon (htask : task ∈ s.tasks) (hinCall : task.activity.InCall)
    (hact : task.act? = some .abandon) : s.ToStop task.id := by
  refine ⟨task, htask, rfl, ?_⟩
  obtain ⟨id, activity, order⟩ := task
  cases activity with
  | stopping => rfl
  | refreshing => cases hact
  | starting | delayed | sleeping | watching | looping | ticking => exact hinCall.elim

/-- A call is not over after a turn in which it was not told, unless its task is to stop. -/
theorem mem_calls_turn (hsound : s.Sound log) (hnext : s.next? rules = some t)
    (hc : c ∈ s.refresher.turns.calls) (htells : ¬ s.TellsNext rules c) (hstop : ¬ s.ToStop c) :
    c ∈ t.refresher.turns.calls := by
  have hturn := turn_of_next? hnext
  rw [TellsNext] at htells
  generalize s.upcoming rules = new at hturn htells
  cases hturn with
  | @run task rest mem first =>
    rw [(does_runTask rules { s with ready := rest } task).refresher]
    by_cases hid : c = task.id
    · subst hid
      have hinCall := hsound.inCall mem hc
      have hact : task.act? = some .wake := (Task.act?_of_inCall hinCall).resolve_right
        fun habandon => hstop (toStop_of_abandon mem hinCall habandon)
      rw [hact]
      cases hprogress : (s.refresher.perform rules task.id s.now .wake).2 with
      | waiting => exact Refresher.mem_calls_of_waiting (.inr rfl) (fun _ => hc) hprogress
      | told outcome =>
        obtain ⟨before, hbefore⟩ := Refresher.happenings_of_told (.inr rfl) hprogress
        refine absurd ⟨outcome, before.map (Moment.mk s.now), ?_⟩ htells
        rw [moments, hact]
        dsimp only
        rw [hbefore]
        rfl
    · exact (hsound.mem_calls_acted mem hid).mpr hc
  | skip | jump => exact hc

/-- A call that has its turn or stands in the line is told in a finite number of turns and by its
time, unless its task is told to stop. -/
theorem tells_eventually (hsound : s.Sound log) (hprompt : s.Prompt rules none)
    (hc : c ∈ s.refresher.turns.calls) :
    ∃ later t, Unattended rules s later t ∧ t.now ≤ s.refresher.latest rules s.now c ∧
      (t.TellsNext rules c ∨ t.ToStop c) := by
  by_cases hend : s.TellsNext rules c ∨ s.ToStop c
  · exact ⟨[], s, .refl, Refresher.le_latest hprompt.timely c, hend⟩
  · refine eventually (s.refresher.latest rules s.now c) (I := fun u => (∃ log, u.Sound log) ∧
      u.Prompt rules none ∧ c ∈ u.refresher.turns.calls ∧
      u.refresher.latest rules u.now c ≤ s.refresher.latest rules s.now c ∧
      ¬ (u.TellsNext rules c ∨ u.ToStop c)) ?_ ⟨⟨log, hsound⟩, hprompt, hc, le_rfl, hend⟩
    rintro u ⟨⟨log, hsound⟩, hprompt, hc, hsoon, hend⟩
    refine ⟨⟨log, hsound⟩, hprompt, (Refresher.le_latest hprompt.timely c).trans hsoon, ?_⟩
    obtain ⟨htells, hstop⟩ := not_or.mp hend
    obtain ⟨t, hnext⟩ := exists_next?_of_calls hsound hprompt hc
    have hturn := turn_of_next? hnext
    have hc' := mem_calls_turn hsound hnext hc htells hstop
    have hprompt' := hprompt.turn hsound hturn
    have hsoon' := (hturn.latest_le hsound hprompt hc hc').trans hsoon
    refine ⟨t, hnext, or_iff_not_imp_left.mpr fun hnot => ?_⟩
    have hnow := (Refresher.le_latest hprompt'.timely c).trans hsoon'
    exact ⟨⟨_, (hsound.moves_of_reaches hturn.reaches).2⟩, hprompt', hc', hsoon',
      fun hend' => hnot ⟨hnow, hend'⟩⟩

section Wakes

variable {other : Task σ}

/-- A task that is in a call after another one's turn or its own was in it before, or has gone on
with it and been left waiting. -/
theorem Ran.of_wake (h : Ran rules s task t) (hother : other ∈ t.tasks)
    (hwake : other.act? = some .wake) :
    (other ∈ s.tasks ∧ other.id ≠ task.id) ∨ other.id = task.id ∧
      ∃ act, task.act? = some act ∧ (act = .arrive ∨ act = .wake) ∧
        (s.refresher.perform rules task.id s.now act).2 = .waiting := by
  cases h with
  | ended =>
    obtain ⟨hold, hid⟩ := List.mem_filter.mp hother
    exact .inl ⟨hold, bne_iff_ne.mp hid⟩
  | asleep was is =>
    rcases mem_tasks_rest hother with hold | rfl
    · exact .inl hold
    · rcases is with rfl | ⟨step, rfl⟩
      · cases hwake
      · exact absurd hwake step.act?_ne_wake
  | watching period was =>
    rcases List.mem_append.mp hother with hrest | hnew
    · rcases mem_tasks_rest hrest with hold | rfl
      · exact .inl hold
      · cases hwake
    · rw [List.mem_singleton.mp hnew] at hwake
      cases period <;> cases hwake
  | warned was =>
    rw [tellStop_eq] at hother
    obtain ⟨hrest, hid⟩ := List.mem_filter.mp hother
    rcases mem_tasks_rest hrest with hold | rfl
    · exact .inl ⟨hold.1, bne_iff_ne.mp hid⟩
    · cases hwake
  | waits since does call waiting =>
    rcases mem_tasks_rest hother with hold | rfl
    · exact .inl hold
    · exact .inr ⟨rfl, _, does, call, waiting⟩
  | ticks | lags =>
    rcases mem_tasks_rest hother with hold | rfl
    · exact .inl hold
    · cases hwake

/-- Every task that is in a call has its turn or stands in the line. -/
def Placed (s : Schedule σ) : Prop :=
  ∀ task ∈ s.tasks, task.act? = some .wake → task.id ∈ s.refresher.turns.calls

theorem Placed.turn (h : s.Placed) (hsound : s.Sound log) (hturn : Turn rules s new t) :
    t.Placed := by
  intro other hother hwake
  cases hturn with
  | @run task rest mem first =>
    have hran := ran_runTask rules { s with ready := rest } task
    rw [(does_runTask rules { s with ready := rest } task).refresher]
    rcases hran.of_wake hother hwake with ⟨hold, hid⟩ | ⟨hid, act, does, call, hwaiting⟩
    · exact (hsound.mem_calls_acted mem hid).mpr (h other hold hwake)
    · rw [does, hid]
      exact Refresher.mem_calls_of_waiting call (fun heq => h task mem (heq ▸ does)) hwaiting
  | skip | jump => exact h other hother hwake

theorem Placed.advance (h : s.Placed) (hsound : s.Sound log) (hadvance : Advance rules s new t) :
    t.Placed := by
  intro other hother hwake
  cases hadvance with
  | turn next => exact h.turn hsound (turn_of_next? next) other hother hwake
  | spawn delay step =>
    rcases List.mem_append.mp hother with hold | hnew
    · exact h other hold hwake
    · rw [List.mem_singleton.mp hnew] at hwake
      cases delay with
      | zero => exact absurd hwake step.act?_ne_wake
      | succ delay => cases hwake
  | tellStop mem =>
    rw [refresher_tellStop]
    rw [tellStop_eq] at hother
    rcases mem_tasks_rest hother with hold | rfl
    · exact h other hold.1 hwake
    · cases hwake
  | @stop task mem =>
    obtain ⟨hold, hid⟩ := List.mem_filter.mp hother
    have hcalls : other.id ∈ (s.refresher.perform rules task.id s.now .abandon).1.turns.calls ↔
        other.id ∈ s.refresher.turns.calls :=
      hsound.refresher.mem_calls_perform_iff nofun (bne_iff_ne.mp hid)
    exact hcalls.mpr (h other hold hwake)
  | forget answers => exact h other hother hwake

theorem Clocked.placed (h : Clocked rules (initial source) timeline s) : s.Placed := by
  induction h with
  | refl => nofun
  | next run step ih => exact ih.advance run.sound_prompt.1 step

end Wakes

/-- What a turn is to a task: its own, one in which it is told to stop, or one that leaves it where
it is and its call in the line. The clock moves only when nobody can run, and not past the time for
which the task waits. -/
inductive Passes (rules : RefreshRules σ) (s : Schedule σ) (task : Task σ) : Schedule σ → Prop
  | own {rest : List Ticket} (first : s.ready = task.id :: rest) :
      Passes rules s task ({ s with ready := rest }.runTask rules task)
  | stopped {t : Schedule σ} (toStop : t.ToStop task.id) : Passes rules s task t
  | left {t : Schedule σ} (mem : task ∈ t.tasks)
      (calls : task.id ∈ s.refresher.turns.calls → task.id ∈ t.refresher.turns.calls)
      (now : t.now = s.now ∨ s.ready = [] ∧
        ∀ alarm, s.alarm? rules task = some alarm → t.now ≤ alarm) :
      Passes rules s task t

theorem Turn.passes (h : Turn rules s new t) (hsound : s.Sound log) (htask : task ∈ s.tasks) :
    Passes rules s task t := by
  cases h with
  | @run other rest mem first =>
    by_cases hid : task.id = other.id
    · obtain rfl := List.inj_on_of_nodup_map hsound.tidy.nodup htask mem hid
      exact .own first
    · have hran := ran_runTask rules { s with ready := rest } other
      rcases hran.kept htask hid with hkept | ⟨hstops, -⟩
      · refine .left hkept (fun hcall => ?_) (.inl hran.now)
        rw [(does_runTask rules { s with ready := rest } other).refresher]
        exact (hsound.mem_calls_acted mem hid).mpr hcall
      · exact .stopped hstops
  | skip => exact .left htask id (.inl rfl)
  | jump idle jumps => exact .left htask id (.inr ⟨idle, jumps.first task htask⟩)

end Schedule

end PoolGauge
