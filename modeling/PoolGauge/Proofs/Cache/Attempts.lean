import PoolGauge.Proofs.Cache.Accounts

/-!
# How attempts end

An attempt ends with its collection if the calls of the source take no longer than an attempt may,
and else at its deadline, with nothing of what it has gathered. Whatever else is done to the
refresher, what has happened to a call accounts for what it has come to.
-/
namespace PoolGauge

variable {σ : Type}

namespace Timeline

/-- An attempt has ended with its collection: its questions are those of a whole collection, whose
result comes of the replies, and it has taken the time that the calls of the source take. -/
structure Completes (rules : RefreshRules σ) (own : Timeline σ) (first : Call σ) (now : Nat)
    (result : Except Failure Inventory) : Prop where
  yields : Collection.inventory.run.Yields own.exchanges result
  asked : own.queries = own.exchanges.map Exchange.query
  inTime : own.spent ≤ rules.limit
  moment : now = first.time + own.spent
  undisturbed : own.Undisturbed rules.source →
    Collection.inventory.run.cost rules.source first.state = own.spent ∧
    (Collection.inventory.run.run rules.source first.state).result = result

/-- An attempt has ended at its deadline: the calls of the source take longer. -/
structure TimesOut (rules : RefreshRules σ) (own : Timeline σ) (first : Call σ) (now : Nat) :
    Prop where
  overtime : rules.limit < own.spent
  moment : now = first.time + rules.limit
  undisturbed : own.Undisturbed rules.source →
    rules.limit < Collection.inventory.run.cost rules.source first.state

/-- How an attempt ends, what its call is told and what becomes of the cache. -/
def Ends (rules : RefreshRules σ) (own : Timeline σ) (now : Nat) (before after : Cache)
    (outcome : Outcome) : Prop :=
  ∃ first, own.first? = some first ∧
    ((∃ result, own.Completes rules first now result ∧
      outcome = before.tell (result.map (Refresher.stamp rules.source first.time now)) ∧
      after = before.finish (result.map (Refresher.stamp rules.source first.time now))) ∨
    (own.TimesOut rules first now ∧
      outcome = .error (Refresher.lateFailure rules.limit) ∧
      after = before.finish (.error (Refresher.lateFailure rules.limit)) ∧
      after.current = before.current ∧
      after.metrics.failures = before.metrics.failures + 1))

variable {rules : RefreshRules σ} {own : Timeline σ} {started now paid : Nat} {first : Call σ}
  {walk : Inquiry (Except Failure Inventory)} {result : Except Failure Inventory} {due : List Query}

theorem Accounts.completes (h : Accounts rules.source own started (.done result) [] now)
    (hfirst : own.first? = some first) (htime : now ≤ started + rules.limit) :
    own.Completes rules first now result where
  yields := h.leads.yields
  asked := by simpa using h.asked
  inTime := by
    have := h.spent
    omega
  moment := by rw [h.first first hfirst, h.spent]
  undisturbed hundisturbed := by
    obtain ⟨left, -, hcost, hresult⟩ := h.foreseen hundisturbed first hfirst
    exact ⟨hcost, hresult⟩

theorem Accounts.timesOut (h : Accounts rules.source own started walk due paid)
    (hfirst : own.first? = some first) (htime : now = started + rules.limit) (hpaid : now < paid) :
    own.TimesOut rules first now where
  overtime := by
    have := h.spent
    omega
  moment := by rw [h.first first hfirst, htime]
  undisturbed hundisturbed := by
    obtain ⟨left, -, hcost, -⟩ := h.foreseen hundisturbed first hfirst
    have := h.spent
    omega

theorem exists_first (h : own.calls ≠ []) : ∃ first, own.first? = some first :=
  ⟨_, List.getLast?_eq_some_getLast h⟩

theorem Accounts.exists_first {query : Query}
    (h : Accounts rules.source own started walk [query] paid) :
    ∃ first, own.first? = some first := by
  refine Timeline.exists_first fun hnil => ?_
  have hasked := h.asked
  rw [queries, hnil] at hasked
  simp at hasked

end Timeline

namespace Refresher

variable {rules : RefreshRules σ} {r : Refresher σ} {c : Ticket} {now started : Nat}
  {own : Timeline σ} {walk : Inquiry (Except Failure Inventory)} {source : σ × List (Note σ)}
  {result : Refresher (σ × List (Note σ)) × Progress}

/-- What has happened to a call accounts for what it has come to. -/
structure Accounted (rules : RefreshRules σ) (r : Refresher σ) (c : Ticket) (own : Timeline σ) :
    Prop where
  waiting : r.attempt? c = none → own = []
  collecting : ∀ attempt, r.attempt? c = some attempt → Timeline.Accounts rules.source own
    attempt.started (.ask attempt.query attempt.next) [attempt.query] attempt.replyAt

theorem Accounted.goesOn (h : r.Accounted rules c own) (htimely : r.Timely rules now)
    (hgoes : (r.noted []).GoesOn rules.noted c now started walk source) :
    Timeline.Accounts rules.source (source.2.map (fun note => ⟨now, note.happening c⟩) ++ own)
      started walk [] now ∧ now ≤ started + rules.limit := by
  have hbegin : r.attempt? c = none →
      Timeline.Accounts rules.source
        ((r.noted []).source.2.map (fun note => ⟨now, note.happening c⟩) ++ own)
        now Collection.inventory.run [] now ∧ now ≤ now + rules.limit := by
    intro hnot
    rw [h.waiting hnot]
    exact ⟨.begin rules.source now, Nat.le_add_right _ _⟩
  cases hgoes with
  | first free => exact hbegin (attempt?_of_none free)
  | granted turn => exact hbegin (attempt?_of_granted turn)
  | @replied attempt turn due =>
    have hattempt := attempt?_eq_some_iff.mpr turn
    obtain ⟨-, hreply, hlimit⟩ := htimely c attempt hattempt
    refine ⟨?_, hlimit⟩
    -- Time does not pass a reply that is awaited, so the reply comes at this moment.
    rw [Nat.le_antisymm hreply due]
    exact (h.collecting attempt hattempt).reply

/-- What a call has come to when it has been let go on that does not join the line. -/
structure Continues (rules : RefreshRules σ) (cache : Cache) (c : Ticket) (now : Nat)
    (own : Timeline σ) (result : Refresher (σ × List (Note σ)) × Progress) : Prop where
  collecting : ∀ attempt, result.1.attempt? c = some attempt →
    Timeline.Accounts rules.source own attempt.started (.ask attempt.query attempt.next)
      [attempt.query] attempt.replyAt
  told : ∀ outcome, result.2 = .told outcome → own.calls ≠ [] →
    Timeline.Ends rules own now cache result.1.cache outcome

/-- When a turn is over, nobody collects. -/
theorem collecting_of_release {r : Refresher (σ × List (Note σ))} :
    ∀ attempt, r.release.attempt? c = some attempt →
      Timeline.Accounts rules.source own attempt.started (.ask attempt.query attempt.next)
        [attempt.query] attempt.replyAt := by
  intro attempt heq
  cases attempt?_release.symm.trans heq

theorem Accounted.comes (h : r.Accounted rules c own) (htimely : r.Timely rules now)
    (hcomes : (r.noted []).Comes rules.noted c now result) :
    Continues rules r.cache c now
      (result.1.source.2.map (fun note => ⟨now, note.happening c⟩) ++ own) result := by
  cases hcomes with
  | idle => exact ⟨h.collecting, nofun⟩
  | @share seen turn differs =>
    refine ⟨collecting_of_release, fun outcome _ hcalls => ?_⟩
    rw [source_release, h.waiting (attempt?_of_granted turn)] at hcalls
    exact absurd rfl hcalls
  | @wait started walk source left pending goes advance early =>
    have haccounts := (h.goesOn htimely goes).1.advance walk advance
    refine ⟨fun attempt heq => ?_, nofun⟩
    obtain ⟨-, ⟨⟩⟩ := Prod.mk.inj (Option.some.inj (attempt?_eq_some_iff.mp heq))
    exact haccounts
  | @finish started walk source left ended goes advance =>
    obtain ⟨hgoes, htime⟩ := h.goesOn htimely goes
    have haccounts := hgoes.advance walk advance
    refine ⟨collecting_of_release, fun outcome htold hcalls => ?_⟩
    rw [finish, source_release] at hcalls ⊢
    obtain ⟨first, hfirst⟩ := Timeline.exists_first hcalls
    obtain rfl := haccounts.first first hfirst
    cases htold
    exact ⟨first, hfirst, .inl ⟨ended, haccounts.completes hfirst htime, rfl, cache_release _⟩⟩
  | @late started walk source left pending goes advance late =>
    obtain ⟨hgoes, htime⟩ := h.goesOn htimely goes
    have haccounts := hgoes.advance walk advance
    refine ⟨collecting_of_release, fun outcome htold hcalls => ?_⟩
    rw [finish, source_release] at hcalls ⊢
    obtain ⟨first, hfirst⟩ := Timeline.exists_first hcalls
    cases htold
    -- It is the deadline, and the reply that is awaited from now on takes longer than no time.
    have hlater : now < now + pending.delay :=
      Nat.lt_add_of_pos_right (Inquiry.delay_pos_of_advance advance)
    have htimesOut := haccounts.timesOut hfirst (Nat.le_antisymm htime late) hlater
    refine ⟨first, hfirst, .inr ⟨htimesOut, rfl, ?_⟩⟩
    rw [cache_release]
    exact ⟨rfl, rfl, rfl⟩
  | @overdue attempt turn before late =>
    refine ⟨collecting_of_release, fun outcome htold hcalls => ?_⟩
    rw [finish, source_release] at hcalls ⊢
    obtain ⟨first, hfirst⟩ := Timeline.exists_first hcalls
    cases htold
    have hattempt := attempt?_eq_some_iff.mpr turn
    have htime := (htimely c attempt hattempt).2.2
    refine ⟨first, hfirst, .inr ⟨(h.collecting attempt hattempt).timesOut hfirst
      (Nat.le_antisymm htime late) before, rfl, ?_⟩⟩
    rw [cache_release]
    exact ⟨rfl, rfl, rfl⟩

variable {log : Log} {timeline before : Timeline σ} {act : Act σ}

/-- What has happened to a call that goes on, before it is told. -/
def noticed (c : Ticket) (now : Nat) (result : Refresher (σ × List (Note σ)) × Progress) :
    Timeline σ :=
  result.1.source.2.map fun note => ⟨now, note.happening c⟩

theorem map_witnessed (result : Refresher (σ × List (Note σ)) × Progress) :
    (witnessed c result).map (Moment.mk now) =
      (result.2.happenings c).map (Moment.mk now) ++ noticed c now result := by
  rw [witnessed, noticed, List.map_append, List.map_map]
  rfl

theorem what_ne_told_of_noticed {result : Refresher (σ × List (Note σ)) × Progress} {m : Moment σ}
    (hm : m ∈ noticed c now result) (outcome : Outcome) : m.what ≠ .told c outcome := by
  obtain ⟨note, -, rfl⟩ := List.mem_map.mp hm
  cases note <;> nofun

theorem accounted_of_fresh (hfresh : c ∉ r.turns.calls) : r.Accounted rules c [] := by
  refine ⟨fun _ => rfl, fun attempt heq => absurd ?_ hfresh⟩
  exact mem_calls_of_holder (attempt?_eq_some_iff.mp heq)

/-- A call that is left waiting without an attempt has done nothing since it arrived. -/
theorem Accounted.own_of_waiting (h : r.Accounted rules c own)
    (hcomes : (r.noted []).Comes rules.noted c now result) (hwaiting : result.2 = .waiting)
    (hnone : result.1.attempt? c = none) : noticed c now result ++ own = [] := by
  have heq := hcomes.eq_of_waiting hwaiting hnone
  rw [heq] at hnone
  rw [noticed, heq, h.waiting hnone]
  rfl

/-- What comes of an act that is part of a call, with all that has happened to the call before it is
told. -/
theorem continues_perform (htimely : r.Timely rules now) (hcall : act = .arrive ∨ act = .wake)
    (hfresh : act = .arrive → c ∉ r.turns.calls)
    (haccounted : act = .wake → r.Accounted rules c (timeline.own c)) :
    ∃ (result : Refresher (σ × List (Note σ)) × Progress) (rest : Timeline σ),
      r.perform rules c now act = (result.1.map Prod.fst, result.2) ∧
      (r.happenings rules c now act).map (Moment.mk now) =
        (result.2.happenings c).map (Moment.mk now) ++ rest ∧
      (∀ m ∈ rest, ∀ outcome, m.what ≠ .told c outcome) ∧
      Continues rules r.cache c now ((rest ++ timeline).own c) result ∧
      (result.2 = .waiting → result.1.attempt? c = none → (rest ++ timeline).own c = []) := by
  have hmaps := rules.noted_mapsTo
  rcases hcall with rfl | rfl
  · have hown : Timeline.own c (⟨now, .arrived c⟩ :: timeline) = [] := Timeline.own_arrived_self
    have hfree : r.Accounted rules c [] := accounted_of_fresh (hfresh rfl)
    have hhappens : (r.happenings rules c now .arrive).map (Moment.mk now) =
        (((r.noted []).arrive rules.noted c now).2.happenings c).map (Moment.mk now) ++
          (noticed c now ((r.noted []).arrive rules.noted c now) ++ [⟨now, .arrived c⟩]) := by
      rw [happenings, List.map_append, map_witnessed, List.append_assoc]
      rfl
    refine ⟨_, _, arrive_map (r.noted []) c now hmaps, hhappens, fun m hm outcome => ?_, ?_⟩
    · rcases List.mem_append.mp hm with hnoticed | harrived
      · exact what_ne_told_of_noticed hnoticed outcome
      · rw [List.mem_singleton.mp harrived]
        intro heq
        cases heq
    rw [List.append_assoc, List.singleton_append]
    rcases comes_arrive rules.noted (r.noted []) c now with ⟨-, heq⟩ | ⟨-, hcomes⟩
    · rw [heq]
      show Continues rules r.cache c now (Timeline.own c (⟨now, .arrived c⟩ :: timeline)) _ ∧
        (_ → _ → Timeline.own c (⟨now, .arrived c⟩ :: timeline) = [])
      rw [hown]
      refine ⟨⟨hfree.collecting, ?_⟩, fun _ _ => rfl⟩
      rintro _ ⟨⟩
    · rw [noticed, Timeline.own_notes, hown]
      exact ⟨hfree.comes htimely hcomes, hfree.own_of_waiting hcomes⟩
  · have hhere := haccounted rfl
    have hcomes := comes_wake rules.noted (r.noted []) c now
    refine ⟨_, _, wake_map (r.noted []) c now hmaps, map_witnessed _,
      fun m hm => what_ne_told_of_noticed hm, ?_⟩
    rw [noticed, Timeline.own_notes]
    exact ⟨hhere.comes htimely hcomes, hhere.own_of_waiting hcomes⟩

theorem Accounted.congr {s : Refresher σ} (h : r.Accounted rules c own)
    (hattempt : s.attempt? c = r.attempt? c) : s.Accounted rules c own :=
  ⟨fun hnone => h.waiting (hattempt.symm.trans hnone),
    fun attempt heq => h.collecting attempt (hattempt.symm.trans heq)⟩

theorem mem_calls_of_wake (h : c ∈ (r.wake rules c now).1.turns.calls) : c ∈ r.turns.calls := by
  by_cases hturn : ∃ hold, r.holder = some (c, hold)
  · obtain ⟨hold, hholder⟩ := hturn
    exact mem_calls_of_holder hholder
  · rwa [wake_of_other fun hold heq => hturn ⟨hold, heq⟩] at h

/-- Something happens to a call that is let go on only if it has arrived. -/
theorem mem_calls_of_happenings (h : r.happenings rules c now .wake ≠ []) : c ∈ r.turns.calls := by
  by_cases hturn : ∃ hold, r.holder = some (c, hold)
  · obtain ⟨hold, hholder⟩ := hturn
    exact mem_calls_of_holder hholder
  · refine absurd ?_ h
    rw [happenings, wake_of_other (r := r.noted []) fun hold heq => hturn ⟨hold, heq⟩]
    rfl

section Perform

variable (hsound : r.Sound log) (htimely : r.Timely rules now)
  (h : ∀ d ∈ r.turns.calls, r.Accounted rules d (timeline.own d))
  (hfresh : act = .arrive → c ∉ r.turns.calls)

include hsound htimely h hfresh

theorem accounted_call (hcall : act = .arrive ∨ act = .wake)
    (hc : c ∈ (r.perform rules c now act).1.turns.calls) :
    (r.perform rules c now act).1.Accounted rules c
      (Timeline.own c ((r.happenings rules c now act).map (Moment.mk now) ++ timeline)) := by
  have hhere : act = .wake → r.Accounted rules c (timeline.own c) := by
    rintro rfl
    exact h c (mem_calls_of_wake hc)
  obtain ⟨result, rest, hperform, hhappens, -, hcontinues, hidle⟩ :=
    continues_perform htimely hcall hfresh hhere
  have hwaiting : result.2 = .waiting := by
    cases hresult : result.2 with
    | waiting => rfl
    | told outcome =>
      have htold : (r.perform rules c now act).2 = .told outcome := by rw [hperform, ← hresult]
      exact absurd hc (hsound.notMem_calls_of_told hfresh htold)
  rw [hhappens, hwaiting, hperform]
  exact ⟨hidle hwaiting, hcontinues.collecting⟩

/-- Whatever is done to a refresher, what has happened to the calls accounts for what they have come
to. -/
theorem accounted_perform : ∀ d ∈ (r.perform rules c now act).1.turns.calls,
    (r.perform rules c now act).1.Accounted rules d
      (Timeline.own d ((r.happenings rules c now act).map (Moment.mk now) ++ timeline)) := by
  intro d hd
  by_cases hdc : d = c
  · subst hdc
    cases act with
    | arrive => exact accounted_call hsound htimely h hfresh (.inl rfl) hd
    | wake => exact accounted_call hsound htimely h hfresh (.inr rfl) hd
    | abandon => exact absurd hd hsound.notMem_calls_abandon
    | set change => exact (h d hd).congr rfl
  · have hothers : ∀ m ∈ (r.happenings rules c now act).map (Moment.mk now), m.what.call ≠ d := by
      intro m hm heq
      exact hdc (heq.symm.trans (call_map_happenings m hm))
    rw [Timeline.own_append_of_ne hothers]
    exact (h d ((hsound.mem_calls_perform_iff hfresh hdc).mp hd)).congr (attempt?_perform act hdc)

/-- A call that is told after it has called the source is told how its attempt ends. -/
theorem ends_of_told {outcome : Outcome} {rest : Timeline σ}
    (hhappens : (r.happenings rules c now act).map (Moment.mk now) = ⟨now, .told c outcome⟩ :: rest)
    (hcalls : Timeline.calls (Timeline.own c (rest ++ timeline)) ≠ []) :
    Timeline.Ends rules (Timeline.own c (rest ++ timeline)) now r.cache
      (r.perform rules c now act).1.cache outcome ∧
    c ∉ (r.perform rules c now act).1.turns.calls := by
  have hcall : act = .arrive ∨ act = .wake := by
    cases act with
    | arrive => exact .inl rfl
    | wake => exact .inr rfl
    | abandon =>
      rw [happenings] at hhappens
      split at hhappens <;> cases hhappens
    | set change => cases hhappens
  have hhere : act = .wake → r.Accounted rules c (timeline.own c) := by
    rintro rfl
    have hsome : r.happenings rules c now .wake ≠ [] := by
      intro hnil
      rw [hnil] at hhappens
      cases hhappens
    exact h c (mem_calls_of_happenings hsome)
  obtain ⟨result, before, hperform, hbefore, hsilent, hcontinues, -⟩ :=
    continues_perform htimely hcall hfresh hhere
  rw [hhappens] at hbefore
  have htold : result.2 = .told outcome ∧ rest = before := by
    cases hresult : result.2 with
    | waiting =>
      rw [hresult] at hbefore
      exact absurd rfl (hsilent _ (hbefore ▸ List.mem_cons_self ..) outcome)
    | told other =>
      rw [hresult] at hbefore
      cases hbefore
      exact ⟨rfl, rfl⟩
  obtain ⟨htold, rfl⟩ := htold
  have hprogress : (r.perform rules c now act).2 = .told outcome := by rw [hperform, ← htold]
  refine ⟨?_, hsound.notMem_calls_of_told hfresh hprogress⟩
  rw [hperform]
  exact hcontinues.told outcome htold hcalls

end Perform

end Refresher

end PoolGauge
