import PoolGauge.Proofs.Cache.Deadlines
import PoolGauge.Proofs.Cache.Refreshes

/-!
# Calls that are given up

A call of refresh may be given up wherever it waits. Nothing of it is left but its place, which goes
to the call behind it, and that call collects from the beginning if it has seen no attempt end.
-/
namespace PoolGauge

variable {σ : Type}

namespace Refresher

variable (r : Refresher σ) (c : Ticket) {seen : UInt64}

theorem holder_of_turns {cache : Cache} {rest : List (Ticket × UInt64)} (hsettled : r.Settled)
    (h : r.turns = ⟨cache, none, (c, seen) :: rest⟩) :
    r.holder = some (c, .granted seen) ∧ r.cache = cache := by
  obtain ⟨cache, source, holder, queue⟩ := r
  rcases holder with _ | ⟨d, granted | attempt⟩
  · obtain rfl : queue = [] := hsettled rfl
    cases h
  · cases h
    exact ⟨rfl, rfl⟩
  · cases h

end Refresher

namespace Log

variable {log later : Log} {c : Ticket}

/-- Nothing has happened to a call that waits since before it arrived. -/
theorem call_ne_of_waiting (h : phase c (later ++ log) = .waiting)
    (harrived : .arrived c ∉ later) : ∀ e ∈ later, e.call ≠ c := by
  induction later with
  | nil => nofun
  | cons e later ih =>
    have he : e.call ≠ c := by
      rintro rfl
      rw [List.cons_append, phase_cons_self] at h
      cases e with
      | arrived d => exact harrived (List.mem_cons_self ..)
      | asked | told | dropped => cases h
    rw [List.cons_append, phase_cons_of_ne he] at h
    intro f hf
    rcases List.mem_cons.mp hf with rfl | hlater
    · exact he
    · exact ih h (fun hmem => harrived (List.mem_cons_of_mem _ hmem)) f hlater

end Log

namespace Schedule

variable {rules : RefreshRules σ} {source : σ} {s t u : Schedule σ} {log later past : Log}
  {c w : Ticket} {seen : UInt64} {e : Event} {turns : Turns}

theorem runTask_of_abandon {task : Task σ} (h : task.act? = some .abandon) :
    s.runTask rules task = s.stop task.id := by
  obtain ⟨id, activity, order⟩ := task
  cases activity with
  | starting delay step =>
    cases delay with
    | zero => exact absurd h step.act?_ne_abandon
    | succ delay => cases h
  | delayed wakeAt step => exact absurd h step.act?_ne_abandon
  | stopping => rfl
  | looping period =>
    cases period with
    | zero => rfl
    | succ period => cases h
  | sleeping | watching | ticking | refreshing => cases h

/-- Only what gives a call up drops it. -/
theorem act_of_dropped {r : Refresher σ} {id : Ticket} {now : Nat} {act : Act σ}
    (h : r.events rules id now act = [.dropped c]) :
    act = .abandon ∧ id = c ∧ c ∈ r.turns.calls := by
  have hmem : Event.dropped c ∈ r.events rules id now act := by
    rw [h]
    exact List.mem_singleton_self _
  have hobserved : ∀ result : Refresher (σ × List Query) × Progress,
      Event.dropped c ∉ Refresher.observed id result := by
    rintro ⟨left, progress⟩
    cases progress <;> simp [Refresher.observed, Progress.events]
  cases act with
  | arrive =>
    have harrived : Event.arrived id ∈ r.events rules id now .arrive :=
      List.mem_append_right _ (List.mem_singleton_self _)
    rw [h] at harrived
    cases List.mem_singleton.mp harrived
  | wake => exact absurd hmem (hobserved _)
  | abandon =>
    rw [Refresher.events] at h
    split at h
    · rename_i hinside
      obtain rfl := Event.dropped.inj (List.singleton_inj.mp h)
      exact ⟨rfl, rfl, hinside⟩
    · cases h
  | set change => cases h

/-- Whatever drops a call stops its task. -/
theorem stop_of_dropped (hdrop : Transition rules s [.dropped c] t) :
    t = s.stop c ∧ c ∈ s.refresher.turns.calls := by
  generalize hnew : [Event.dropped c] = new at hdrop
  cases hdrop with
  | spawn | tellStop | pass => cases hnew
  | stop id =>
    obtain ⟨-, rfl, hinside⟩ := act_of_dropped hnew.symm
    exact ⟨rfl, hinside⟩
  | @run task htask =>
    rw [events] at hnew
    cases hact : task.act? with
    | none =>
      rw [hact] at hnew
      cases hnew
    | some act =>
      rw [hact] at hnew
      obtain ⟨rfl, rfl, hinside⟩ := act_of_dropped hnew.symm
      exact ⟨runTask_of_abandon hact, hinside⟩

/-- From now on a call that waits collects by itself. What happens to it next is that it asks for
the pools, unless it is given up; it does so whenever its task goes on; and in the end it is told
that it took too long or what came of its own questions. By the clock this end comes, no later than
an attempt may take from now, unless the task is told to stop; and the call is told that it took too
long only if the calls of the source do take longer. -/
structure CollectsItself (rules : RefreshRules σ) (t : Schedule σ) (w : Ticket) : Prop where
  next : ∀ later u, Reaches rules t later u → ∀ e past, e :: past <:+ later → e.call = w →
    (∀ f ∈ past, f.call ≠ w) → e = .asked w .listPools ∨ e = .dropped w
  begins : ∀ later u, Reaches rules t later u → (∀ e ∈ later, e.call ≠ w) →
    ∀ task ∈ u.tasks, task.id = w → task.act? = some .wake →
    ∃ more, u.events rules task = more ++ [.asked w .listPools]
  whole : ∀ later u, Reaches rules t later u → ∀ outcome past, .told w outcome :: past <:+ later →
    .arrived w ∉ past → outcome = .error (Refresher.lateFailure rules.limit) ∨
    ∃ exchanges,
      Collection.inventory.run.Yields exchanges (outcome.map fun p => p.snapshot.toInventory) ∧
      exchanges.map Exchange.query = (Log.asked w past).reverse
  ends : ∀ source earlier, Clocked rules (initial source) earlier t →
    ∀ later u, Clocked rules t later u → .arrived w ∉ Timeline.log later →
    w ∈ u.refresher.turns.calls →
    ∃ more v, Unattended rules u more v ∧ v.now ≤ t.now + rules.limit ∧
      (v.TellsNext rules w ∨ v.ToStop w)
  inTime : ∀ source earlier, Clocked rules (initial source) earlier t →
    ∀ later u, Clocked rules t later u → ∀ v outcome rest, u.next? rules = some v →
    u.upcoming rules = ⟨u.now, .told w outcome⟩ :: rest →
    .arrived w ∉ Timeline.log (rest ++ later) →
    Timeline.Ends rules (Timeline.own w (rest ++ later)) u.now u.refresher.cache
      v.refresher.cache outcome

/-- Whatever happens to others, the next call stays the next one, and the generation stays the
same. -/
theorem stays_next (hholder : t.refresher.holder = some (w, .granted seen))
    (hrun : Turns.Moves t.refresher.turns past turns) (hpast : ∀ e ∈ past, e.call ≠ w) :
    ∃ rest, turns = ⟨t.refresher.cache, none, (w, seen) :: rest⟩ := by
  rw [Refresher.turns_of_granted hholder] at hrun
  exact hrun.next_waits hpast

section Next

variable (ht : Reaches rules (initial source) log t)
  (hholder : t.refresher.holder = some (w, .granted seen))

include ht hholder

theorem asked_of_next : log.asked w = [] :=
  Log.asked_of_waiting (Refresher.waiting_of_holder ht.sound.refresher hholder)

/-- The first question of the next call is that for the pools. -/
theorem query_of_next (hrun : Reaches rules t later u) {query : Query}
    (he : .asked w query :: past <:+ later) (hpast : ∀ f ∈ past, f.call ≠ w) :
    query = .listPools := by
  obtain ⟨next, exchanges, hlearnt⟩ :=
    (hrun.within.course ht rules.source.stays_true).trueTo _ past he
  have hasked := hlearnt.asked
  rw [Log.asked_append_of_ne hpast, asked_of_next ht hholder, List.append_nil] at hasked
  obtain rfl := List.map_eq_nil_iff.mp hasked.symm
  obtain ⟨first, hbegin⟩ := Refresher.inventory_run_ask
  exact (Inquiry.ask.inj (hbegin.symm.trans hlearnt.leads.eq_of_nil)).1.symm

theorem generation_of_news (hnews : log.news w = []) : t.refresher.cache.generation = seen := by
  have horderly := ht.sound.refresher.orderly
  rw [Refresher.turns_of_granted hholder] at horderly
  exact (horderly.line.news_eq_nil_iff (List.mem_cons_self ..)).mp hnews

variable (hgeneration : t.refresher.cache.generation = seen)

include hgeneration

/-- What happens to the next call, if it still sees the generation that it saw, is that it asks for
the pools or is given up. -/
theorem next_event (hrun : Reaches rules t later u) (he : e :: past <:+ later)
    (hcall : e.call = w) (hpast : ∀ f ∈ past, f.call ≠ w) :
    e = .asked w .listPools ∨ e = .dropped w := by
  have hmoves := (ht.sound.moves_of_reaches hrun).1
  obtain ⟨before, rfl⟩ := id he
  obtain ⟨turns, hmoves, -⟩ := hmoves.split
  cases hmoves with
  | snoc moves move =>
    obtain ⟨rest, rfl⟩ := stays_next hholder moves hpast
    cases move with
    | @arrive _ c fresh =>
      obtain rfl : c = w := hcall
      exact absurd (by simp [Turns.calls]) fresh
    | start query same =>
      rw [query_of_next ht hholder hrun he hpast]
      exact .inl rfl
    | share differs => exact absurd hgeneration differs
    | @leave _ c inside =>
      obtain rfl : c = w := hcall
      exact .inr rfl

theorem begins_next (hrun : Reaches rules t later u) (hquiet : ∀ e ∈ later, e.call ≠ w)
    {task : Task σ} (hid : task.id = w) (hact : task.act? = some .wake) :
    ∃ more, u.events rules task = more ++ [.asked w .listPools] := by
  obtain ⟨hmoves, hsound⟩ := ht.sound.moves_of_reaches hrun
  obtain ⟨rest, hturns⟩ := stays_next hholder hmoves hquiet
  obtain ⟨hnext, hcache⟩ := u.refresher.holder_of_turns w hsound.refresher.settled hturns
  have hsame : u.refresher.cache.generation = seen := by
    rw [hcache]
    exact hgeneration
  subst hid
  rw [events, hact]
  exact Refresher.events_wake_of_granted hnext hsame

/-- The next call is told an outcome only when it has collected. -/
theorem collecting_of_told (hrun : Reaches rules t later u) {outcome : Outcome}
    (htold : .told w outcome :: past <:+ later) (harrived : .arrived w ∉ past) :
    (past ++ log).phase w = .collecting := by
  have hlawful := (ht.sound.moves_of_reaches hrun).2.refresher.lawful
  have hfull : (.told w outcome :: past) ++ log <:+ later ++ log := by
    obtain ⟨before, rfl⟩ := htold
    exact ⟨before, (List.append_assoc ..).symm⟩
  rcases hlawful _ _ hfull with hcollecting | ⟨hstill, -⟩
  · exact hcollecting
  · -- nothing has happened to the call yet, and an outcome is not what happens to it next
    have hpast := Log.call_ne_of_waiting hstill harrived
    rcases next_event ht hholder hgeneration hrun htold rfl hpast with hasked | hdropped
    · cases hasked
    · cases hdropped

theorem whole_next (hrun : Reaches rules t later u) {outcome : Outcome}
    (htold : .told w outcome :: past <:+ later) (harrived : .arrived w ∉ past) :
    outcome = .error (Refresher.lateFailure rules.limit) ∨ ∃ exchanges,
      Collection.inventory.run.Yields exchanges (outcome.map fun p => p.snapshot.toInventory) ∧
      exchanges.map Exchange.query = (Log.asked w past).reverse := by
  have hlawful := (ht.sound.moves_of_reaches hrun).2.refresher.lawful
  have hwaiting := Refresher.waiting_of_holder ht.sound.refresher hholder
  have hfull : past ++ log <:+ later ++ log := by
    obtain ⟨before, rfl⟩ := (List.suffix_cons ..).trans htold
    exact ⟨before, (List.append_assoc ..).symm⟩
  have hcollecting := collecting_of_told ht hholder hgeneration hrun htold harrived
  rcases (hrun.within.course ht rules.source.stays_true).trueTo _ past htold hcollecting with
    hlate | ⟨exchanges, hlearnt⟩
  · exact .inl hlate
  · have hasked := hlearnt.asked
    have hown : Log.asked w (past ++ log) = Log.asked w past := by
      refine Log.asked_append (hlawful.suffix hfull) ?_ ?_
      · rw [hwaiting]
        decide
      · rw [hcollecting]
        decide
    rw [List.append_nil, hown] at hasked
    exact .inr ⟨exchanges, hlearnt.leads.yields, hasked.symm⟩

end Next

section Clock

variable {earlier timeline rest : Timeline σ} (ht : Clocked rules (initial source) earlier t)
  (hholder : t.refresher.holder = some (w, .granted seen)) (hrun : Clocked rules t timeline u)

include ht hholder hrun

theorem ends_next (harrived : .arrived w ∉ timeline.log) (hw : w ∈ u.refresher.turns.calls) :
    ∃ more v, Unattended rules u more v ∧ v.now ≤ t.now + rules.limit ∧
      (v.TellsNext rules w ∨ v.ToStop w) := by
  obtain ⟨hsound, hprompt⟩ := (ht.trans hrun).sound_prompt
  obtain ⟨more, v, hmore, hnow, hend⟩ := tells_eventually hsound hprompt hw
  refine ⟨more, v, hmore, ?_, hend⟩
  calc v.now
    _ ≤ u.refresher.latest rules u.now w := hnow
    _ ≤ t.refresher.latest rules t.now w := ht.latest_le hrun harrived hw
    _ = t.now + rules.limit := Refresher.latest_of_granted hholder

theorem inTime_next (hgeneration : t.refresher.cache.generation = seen) {v : Schedule σ}
    {outcome : Outcome} (hnext : u.next? rules = some v)
    (hupcoming : u.upcoming rules = ⟨u.now, .told w outcome⟩ :: rest)
    (harrived : .arrived w ∉ Timeline.log (rest ++ timeline)) :
    Timeline.Ends rules (Timeline.own w (rest ++ timeline)) u.now u.refresher.cache
      v.refresher.cache outcome := by
  have hfull := ht.trans hrun
  obtain ⟨hsound, hprompt⟩ := hfull.sound_prompt
  have hturn := turn_of_next? hnext
  rw [hupcoming] at hturn
  have hsilent : earlier.own w = [] := by
    have hcalls := Refresher.mem_calls_of_holder hholder
    exact (ht.accounted w hcalls).waiting (Refresher.attempt?_of_granted hholder)
  have hown : Timeline.own w (rest ++ (timeline ++ earlier)) =
      Timeline.own w (rest ++ timeline) := by
    rw [← List.append_assoc, Timeline.own_append_of_nil hsilent]
  have htold : .told w outcome :: Timeline.log (rest ++ timeline) <:+
      Timeline.log (⟨u.now, .told w outcome⟩ :: rest) ++ Timeline.log timeline := by
    rw [Timeline.log_append]
    exact List.suffix_refl _
  have hcollecting := collecting_of_told ht.reaches hholder hgeneration
    (hrun.reaches.trans hturn.reaches) htold harrived
  rw [← Timeline.log_append, List.append_assoc] at hcollecting
  have hends := (ends_turn hsound hprompt hfull.accounted hturn
    (Timeline.calls_own_ne_nil hcollecting)).1
  rwa [hown] at hends

end Clock

theorem collectsItself_next (ht : Reaches rules (initial source) log t)
    (hholder : t.refresher.holder = some (w, .granted seen))
    (hgeneration : t.refresher.cache.generation = seen) : CollectsItself rules t w where
  next _ _ hrun _ _ he hcall hpast := next_event ht hholder hgeneration hrun he hcall hpast
  begins _ _ hrun hquiet _ _ hid hact := begins_next ht hholder hgeneration hrun hquiet hid hact
  whole _ _ hrun _ _ htold harrived := whole_next ht hholder hgeneration hrun htold harrived
  ends _ _ ht _ _ hrun harrived hw := ends_next ht hholder hrun harrived hw
  inTime _ _ ht _ _ hrun _ _ _ hnext hupcoming harrived :=
    inTime_next ht hholder hrun hgeneration hnext hupcoming harrived

theorem mem_ready_stop (hsound : s.Sound log) {hold : Hold}
    (hholder : s.refresher.holder = some (c, hold)) {next : Ticket × UInt64}
    (hnext : next ∈ s.refresher.queue.head?) : next.1 ∈ (s.stop c).ready := by
  have hother : next.1 ≠ c := by
    rintro rfl
    have hnodup := hsound.refresher.orderly.nodup
    obtain ⟨rest, hqueue⟩ := List.head?_eq_some_iff.mp hnext
    cases hold with
    | granted seen =>
      rw [Refresher.turns_of_granted hholder, hqueue] at hnodup
      simp [Turns.calls] at hnodup
    | collecting attempt =>
      rw [Refresher.turns_of_collecting hholder, hqueue] at hnodup
      simp [Turns.calls] at hnodup
  have hbefore : s.refresher.granted? ≠ some next.1 := by
    intro heq
    rw [Refresher.granted?, hholder] at heq
    cases hold with
    | granted seen => exact hother (Option.some.inj heq).symm
    | collecting attempt => cases heq
  have hafter : (s.refresher.abandon c).granted? = some next.1 := by
    rw [Refresher.abandon_of_holder hholder, Refresher.release_eq, Refresher.granted?,
      Option.mem_def.mp hnext]
    rfl
  have hready : (s.stop c).ready = s.ready ++ [next.1] := by
    have hne : ¬ some next.1 = s.refresher.granted? := fun heq => hbefore heq.symm
    simp only [stop, adopt, hafter, if_neg hne, Option.toList]
  rw [hready]
  exact List.mem_append_right _ (List.mem_singleton_self _)

/-- A call of refresh may be given up wherever it waits. The cache and the source stay as they are.
If it had its turn, the call behind it gets it and can run; else it only leaves the line. And the
call whose turn it is then collects by itself if it has seen no attempt end. -/
theorem drops_leave_no_trace (h : Reaches rules (initial source) log s)
    (hdrop : Transition rules s [.dropped c] t) :
    t.refresher.cache = s.refresher.cache ∧ t.refresher.source = s.refresher.source ∧
    c ∉ t.refresher.turns.calls ∧
    (∀ hold, s.refresher.holder = some (c, hold) →
      t.refresher.holder = s.refresher.queue.head?.map (fun next => (next.1, .granted next.2)) ∧
      t.refresher.queue = s.refresher.queue.tail ∧
      ∀ next ∈ s.refresher.queue.head?, next.1 ∈ t.ready) ∧
    (∀ d hold, s.refresher.holder = some (d, hold) → d ≠ c →
      t.refresher.holder = some (d, hold) ∧
      t.refresher.queue = s.refresher.queue.filter (·.1 != c)) ∧
    (∀ w seen, t.refresher.holder = some (w, .granted seen) → log.news w = [] →
      CollectsItself rules t w) := by
  have ht := h.next hdrop
  obtain ⟨rfl, hinside⟩ := stop_of_dropped hdrop
  have hrefresher : (s.stop c).refresher = s.refresher.abandon c := rfl
  refine ⟨?cache, ?source, ?outside, fun hold hholder => ?turn, fun d hold hholder hd => ?line,
    fun w seen hholder hnews => ?next⟩
  case cache => rw [hrefresher, Refresher.cache_abandon]
  case source => rw [hrefresher, Refresher.source_abandon]
  case outside => exact h.sound.refresher.notMem_calls_abandon
  case turn =>
    rw [hrefresher, Refresher.abandon_of_holder hholder, Refresher.release_eq]
    exact ⟨rfl, rfl, fun next hnext => mem_ready_stop h.sound hholder hnext⟩
  case line =>
    rw [hrefresher, Refresher.abandon_of_other hholder hd]
    exact ⟨hholder, rfl⟩
  case next => exact collectsItself_next ht hholder (generation_of_news ht hholder hnews)

/-- Two calls of refresh, of which the first collects and the second waits behind it. -/
def waitingCall : Schedule Bool :=
  (((initial false).spawn (.starting 0 .refresh)).spawn (.starting 0 .refresh)).runFor bareHost 2

theorem clocked_waitingCall :
    ∃ timeline, Clocked bareHost (initial false) timeline waitingCall ∧
      Timeline.log timeline = [.arrived 1, .asked 0 .listPools, .arrived 0] := by
  have hspawned : Clocked bareHost (initial false) [] _ :=
    (Clocked.refl.next (.spawn 0 .refresh)).next (.spawn 0 .refresh)
  exact ⟨_, hspawned.trans (unattended_runFor bareHost 2 _).clocked, rfl⟩

/-- The call that collects is given up while another one waits behind it, which is told in time. -/
theorem drops_leave_turn_to_waiter : ∃ (s t : Schedule Bool) (log : Log),
    Reaches bareHost (initial false) log s ∧ log.phase 0 = .collecting ∧
    s.refresher.queue = [(1, 0)] ∧ Transition bareHost s [.dropped 0] t ∧ log.news 1 = [] ∧
    t.refresher.holder = some (1, .granted 0) ∧ 1 ∈ t.ready ∧ CollectsItself bareHost t 1 ∧
    ∃ later u, Unattended bareHost t later u ∧ u.now ≤ 5 ∧
      (u.TellsNext bareHost 1 ∨ u.ToStop 1) := by
  obtain ⟨timeline, hclocked, hlog⟩ := clocked_waitingCall
  have harrived := hclocked.reaches
  rw [hlog] at harrived
  have hdrop : Transition bareHost waitingCall [.dropped 0] (waitingCall.stop 0) := .stop 0
  obtain ⟨hold, hholder⟩ : ∃ hold, waitingCall.refresher.holder = some (0, hold) := ⟨_, rfl⟩
  obtain ⟨-, -, -, hturn, -, hcollects⟩ := drops_leave_no_trace harrived hdrop
  obtain ⟨hnext, -, hready⟩ := hturn hold hholder
  have hwaiter : CollectsItself bareHost (waitingCall.stop 0) 1 := hcollects 1 0 hnext rfl
  obtain ⟨task, htask, hid⟩ : ∃ task ∈ waitingCall.tasks, task.id = 0 := ⟨_, .head _, rfl⟩
  have hstopped := hclocked.next (.stop htask)
  rw [hid] at hstopped
  obtain ⟨later, u, hrun, hnow, hend⟩ := hwaiter.ends _ _ hstopped [] _ .refl nofun
    (Refresher.mem_calls_of_holder hnext)
  exact ⟨_, _, _, harrived, rfl, rfl, hdrop, rfl, hnext, hready (1, 0) rfl, hwaiter, later, u, hrun,
    hnow, hend⟩

end Schedule

end PoolGauge
