import PoolGauge.Proofs.Cache.Collections

/-!
# What comes of letting a call go on

Whatever the source does, a call that is let go on joins the line, is left where it is, shares,
waits for another reply, or ends its attempt. Nothing of this touches the attempts of other calls,
and no more calls wait or are let in than before, unless the call joins them.
-/
namespace PoolGauge

variable {σ : Type}

/-- A walk that waits for a reply does so for some time. -/
theorem Inquiry.delay_pos_of_advance {α : Type} {source : Source σ} {walk : Inquiry α}
    {state left : σ} {pending : Pending α}
    (h : walk.advance source state = (.inr pending, left)) : 0 < pending.delay := by
  induction walk generalizing state with
  | done result => cases h
  | ask query next ih =>
    rw [Inquiry.advance] at h
    cases hcall : source.call query state with
    | mk delay called =>
      rw [hcall] at h
      cases delay with
      | zero => exact ih _ h
      | succ delay =>
        obtain rfl := Sum.inr.inj (Prod.mk.inj h).1
        exact Nat.succ_pos delay

namespace Refresher

/-- A call goes on with a walk of an attempt that has started at some time: its attempt begins, or
the reply is due for which it waits. -/
inductive GoesOn (rules : RefreshRules σ) (r : Refresher σ) (c : Ticket) (now : Nat) :
    Nat → Inquiry (Except Failure Inventory) → σ → Prop
  | first (free : r.holder = none) : GoesOn rules r c now now Collection.inventory.run r.source
  | granted {seen : UInt64} (turn : r.holder = some (c, .granted seen))
      (same : r.cache.generation = seen) :
      GoesOn rules r c now now Collection.inventory.run r.source
  | replied {attempt : Attempt} (turn : r.holder = some (c, .collecting attempt))
      (due : attempt.replyAt ≤ now) :
      GoesOn rules r c now attempt.started
        (attempt.next (rules.source.reply attempt.query r.source).1)
        (rules.source.reply attempt.query r.source).2

/-- What comes of letting a call go on that does not join the line. -/
inductive Comes (rules : RefreshRules σ) (r : Refresher σ) (c : Ticket) (now : Nat) :
    Refresher σ × Progress → Prop
  | idle (early : ∀ hold, r.holder = some (c, hold) → ∃ attempt, hold = .collecting attempt ∧
        now < attempt.replyAt ∧ now < attempt.started + rules.limit) :
      Comes rules r c now (r, .waiting)
  | share {seen : UInt64} (turn : r.holder = some (c, .granted seen))
      (differs : r.cache.generation ≠ seen) :
      Comes rules r c now (r.release, .told r.cache.shared)
  | wait {started : Nat} {walk : Inquiry (Except Failure Inventory)} {source left : σ}
      {pending : Pending (Except Failure Inventory)}
      (goes : r.GoesOn rules c now started walk source)
      (advance : walk.advance rules.source source = (.inr pending, left))
      (early : now < started + rules.limit) :
      Comes rules r c now ({ r with
          source := left
          holder := some (c, .collecting
            ⟨started, pending.query, pending.next, now + pending.delay⟩) },
        .waiting)
  | finish {started : Nat} {walk : Inquiry (Except Failure Inventory)} {source left : σ}
      {result : Except Failure Inventory} (goes : r.GoesOn rules c now started walk source)
      (advance : walk.advance rules.source source = (.inl result, left)) :
      Comes rules r c now
        ({ r with source := left }.finish (result.map (stamp rules.source started now)))
  | late {started : Nat} {walk : Inquiry (Except Failure Inventory)} {source left : σ}
      {pending : Pending (Except Failure Inventory)}
      (goes : r.GoesOn rules c now started walk source)
      (advance : walk.advance rules.source source = (.inr pending, left))
      (late : started + rules.limit ≤ now) :
      Comes rules r c now ({ r with source := left }.finish (.error (lateFailure rules.limit)))
  | overdue {attempt : Attempt} (turn : r.holder = some (c, .collecting attempt))
      (before : now < attempt.replyAt) (late : attempt.started + rules.limit ≤ now) :
      Comes rules r c now (r.finish (.error (lateFailure rules.limit)))

variable {rules : RefreshRules σ} {r : Refresher σ} {c d : Ticket} {now started : Nat}
  {walk : Inquiry (Except Failure Inventory)} {source : σ} {result : Refresher σ × Progress}

theorem comes_proceed (h : r.GoesOn rules c now started walk source) :
    r.Comes rules c now ({ r with source }.proceed rules c started now walk) := by
  rw [proceed]
  cases hadvance : walk.advance rules.source source with
  | mk stop left =>
    cases stop with
    | inl result => exact .finish h hadvance
    | inr pending =>
      dsimp only
      split
      · exact .late h hadvance ‹_›
      · exact .wait h hadvance (Nat.lt_of_not_le ‹_›)

theorem comes_enter {seen : UInt64} (h : r.holder = some (c, .granted seen)) :
    r.Comes rules c now (r.enter rules c seen now) := by
  rw [enter]
  split
  · exact comes_proceed (.granted h ‹_›)
  · exact .share h ‹_›

theorem comes_wake (rules : RefreshRules σ) (r : Refresher σ) (c : Ticket) (now : Nat) :
    r.Comes rules c now (r.wake rules c now) := by
  by_cases hturn : ∃ hold, r.holder = some (c, hold)
  · obtain ⟨seen | attempt, hholder⟩ := hturn
    · rw [wake_of_granted hholder]
      exact comes_enter hholder
    · rw [wake_of_collecting hholder]
      split
      · exact comes_proceed (.replied hholder ‹_›)
      · split
        · exact .overdue hholder (Nat.lt_of_not_le ‹_›) ‹_›
        · refine .idle fun hold hhold => ⟨attempt, ?_, Nat.lt_of_not_le ‹_›, Nat.lt_of_not_le ‹_›⟩
          exact (Prod.mk.inj (Option.some.inj (hhold.symm.trans hholder))).2
  · have hother : ∀ hold, r.holder ≠ some (c, hold) := fun hold heq => hturn ⟨hold, heq⟩
    rw [wake_of_other hother]
    exact .idle fun hold hhold => absurd hhold (hother hold)

/-- A call that arrives joins the line behind the call whose turn it is, or goes on at once. -/
theorem comes_arrive (rules : RefreshRules σ) (r : Refresher σ) (c : Ticket) (now : Nat) :
    (r.holder ≠ none ∧ r.arrive rules c now =
      ({ r with queue := r.queue ++ [(c, r.cache.generation)] }, .waiting)) ∨
    (r.holder = none ∧ r.Comes rules c now (r.arrive rules c now)) := by
  rw [arrive]
  cases hholder : r.holder with
  | none =>
    refine .inr ⟨rfl, ?_⟩
    rw [enter, if_pos rfl]
    exact comes_proceed (.first hholder)
  | some holder => exact .inl ⟨Option.some_ne_none holder, rfl⟩

theorem mem_calls_of_holder {hold : Hold} (h : r.holder = some (c, hold)) : c ∈ r.turns.calls := by
  cases hold with
  | granted seen =>
    rw [turns_of_granted h]
    exact List.mem_cons_self ..
  | collecting attempt =>
    rw [turns_of_collecting h]
    exact List.mem_cons_self ..

section Line

/-- The call that is let in by a change of the refresher. -/
def admitted (r s : Refresher σ) : List Ticket :=
  if s.granted? = r.granted? then [] else s.granted?.toList

theorem granted?_release : r.release.granted? = r.queue.head?.map Prod.fst := by
  rw [release_eq, granted?]
  cases r.queue <;> rfl

theorem granted?_congr {s : Refresher σ} (h : s.holder = r.holder) : s.granted? = r.granted? := by
  rw [granted?, granted?, h]

theorem granted?_eq_some_iff :
    r.granted? = some c ↔ ∃ seen, r.holder = some (c, .granted seen) := by
  rw [granted?]
  split
  · rename_i d seen hholder
    simp [hholder]
  · rename_i hnot
    constructor
    · intro h
      cases h
    · rintro ⟨seen, h⟩
      exact absurd h (hnot c seen)

/-- A call that is let in no longer stands in the line. -/
theorem length_release (s : Refresher σ) (h : s.queue = r.queue) :
    4 * (admitted r s.release).length + 6 * s.release.queue.length ≤ 6 * r.queue.length := by
  have hgranted := s.granted?_release
  rw [release_eq, h] at *
  rw [admitted]
  cases hqueue : r.queue with
  | nil =>
    rw [hqueue] at hgranted
    rw [hgranted]
    split <;> simp
  | cons next rest =>
    rw [hqueue] at hgranted
    rw [hgranted]
    split
    · show 4 * 0 + 6 * rest.length ≤ 6 * (rest.length + 1)
      omega
    · show 4 * 1 + 6 * rest.length ≤ 6 * (rest.length + 1)
      omega

theorem admitted_of_holder {s : Refresher σ} (h : s.holder = r.holder) : admitted r s = [] :=
  if_pos (granted?_congr h)

theorem eq_of_mem_admitted {s : Refresher σ} (h : c ∈ admitted r s) :
    admitted r s = [c] ∧ s.granted? = some c ∧ r.granted? ≠ some c := by
  rw [admitted] at h ⊢
  split at h
  · contradiction
  · rename_i hne
    rw [Option.mem_toList] at h
    rw [if_neg hne, h]
    exact ⟨rfl, rfl, fun heq => hne (h.trans heq.symm)⟩

theorem admitted_requeue (r : Refresher σ) (queue : List (Ticket × UInt64)) :
    admitted r { r with queue } = [] :=
  admitted_of_holder rfl

theorem Comes.length (h : r.Comes rules c now result) :
    4 * (admitted r result.1).length + 6 * result.1.queue.length ≤ 6 * r.queue.length := by
  cases h with
  | idle => simp [admitted]
  | share => exact length_release r rfl
  | finish | late | overdue => exact length_release _ rfl
  | wait =>
    rw [admitted]
    split <;> simp [granted?]

theorem length_arrive : 4 * (admitted r (r.arrive rules c now).1).length +
    6 * (r.arrive rules c now).1.queue.length ≤ 6 * r.queue.length + 6 := by
  rcases comes_arrive rules r c now with ⟨-, heq⟩ | ⟨-, hcomes⟩
  · rw [heq, admitted_requeue]
    simp
    omega
  · exact hcomes.length.trans (Nat.le_add_right _ _)

theorem length_abandon : 4 * (admitted r (r.abandon c)).length +
    6 * (r.abandon c).queue.length ≤ 6 * r.queue.length := by
  cases hholder : r.holder with
  | none =>
    rw [abandon, hholder]
    simp [admitted]
  | some holder =>
    obtain ⟨d, hold⟩ := holder
    by_cases hd : d = c
    · subst hd
      rw [abandon_of_holder hholder]
      exact length_release r rfl
    · rw [abandon_of_other hholder hd, admitted_requeue]
      have := List.length_filter_le (·.1 != c) r.queue
      simp
      omega

end Line

section Others

theorem attempt?_of_holder {hold : Hold} (h : r.holder = some (c, hold)) (hd : d ≠ c) :
    r.attempt? d = none := by
  rw [attempt?, h]
  split
  · rename_i heq
    obtain ⟨rfl, -⟩ := Prod.mk.inj (Option.some.inj heq)
    exact if_neg (Ne.symm hd)
  · rfl

theorem attempt?_of_none (h : r.holder = none) : r.attempt? d = none := by
  rw [attempt?, h]

theorem attempt?_of_granted {seen : UInt64} (h : r.holder = some (c, .granted seen)) :
    r.attempt? d = none := by
  rw [attempt?, h]

theorem attempt?_release : r.release.attempt? d = none := by
  rw [attempt?]
  split
  · exact absurd ‹_› (holder_release _ _)
  · rfl

theorem attempt?_eq_some_iff {attempt : Attempt} :
    r.attempt? c = some attempt ↔ r.holder = some (c, .collecting attempt) := by
  rw [attempt?]
  split
  · rename_i d other hholder
    rw [hholder]
    by_cases hd : d = c <;> simp [hd]
  · rename_i hnot
    refine iff_of_false ?_ fun h => hnot c attempt h
    intro h
    cases h

theorem attempt?_congr {s : Refresher σ} (h : s.holder = r.holder) :
    s.attempt? d = r.attempt? d := by
  rw [attempt?, attempt?, h]

/-- The other calls do not collect when a call goes on. -/
theorem GoesOn.attempt? (h : r.GoesOn rules c now started walk source) (hd : d ≠ c) :
    r.attempt? d = none := by
  cases h with
  | first free => exact attempt?_of_none free
  | granted turn => exact attempt?_of_holder turn hd
  | replied turn => exact attempt?_of_holder turn hd

theorem Comes.attempt? (h : r.Comes rules c now result) (hd : d ≠ c) :
    result.1.attempt? d = r.attempt? d := by
  cases h with
  | idle => rfl
  | share turn => rw [attempt?_of_holder turn hd, attempt?_release]
  | wait goes => rw [goes.attempt? hd, attempt?_of_holder rfl hd]
  | finish goes | late goes =>
    rw [goes.attempt? hd]
    exact attempt?_release
  | overdue turn =>
    rw [attempt?_of_holder turn hd]
    exact attempt?_release

/-- The attempt of a call is its own affair. -/
theorem attempt?_perform (act : Act σ) (hd : d ≠ c) :
    (r.perform rules c now act).1.attempt? d = r.attempt? d := by
  cases act with
  | arrive =>
    rcases comes_arrive rules r c now with ⟨-, heq⟩ | ⟨-, hcomes⟩
    · rw [perform, heq]
      exact attempt?_congr rfl
    · exact hcomes.attempt? hd
  | wake => exact (comes_wake rules r c now).attempt? hd
  | abandon =>
    rw [perform]
    cases hholder : r.holder with
    | none => rw [abandon, hholder]
    | some holder =>
      obtain ⟨e, hold⟩ := holder
      by_cases he : e = c
      · subst he
        rw [abandon_of_holder hholder, attempt?_release, attempt?_of_holder hholder hd]
      · rw [abandon_of_other hholder he]
        exact attempt?_congr rfl
  | set change => exact attempt?_congr rfl

end Others

section Granted

/-- A call that has been let in does not lose its turn to another one. -/
theorem Comes.granted? (h : r.Comes rules c now result) (hd : d ≠ c)
    (hgranted : r.granted? = some d) : result.1.granted? = some d := by
  obtain ⟨seen, hholder⟩ := granted?_eq_some_iff.mp hgranted
  have hturn : ∀ {hold}, r.holder ≠ some (c, hold) := by
    intro hold hc
    exact hd (Prod.mk.inj (Option.some.inj (hholder.symm.trans hc))).1
  have hgoes : ∀ {started walk source}, ¬ r.GoesOn rules c now started walk source := by
    intro started walk source hgoes
    cases hgoes with
    | first free => cases free.symm.trans hholder
    | granted turn => exact hturn turn
    | replied turn => exact hturn turn
  cases h with
  | idle => exact hgranted
  | share turn => exact absurd turn hturn
  | wait goes | finish goes | late goes => exact absurd goes hgoes
  | overdue turn => exact absurd turn hturn

theorem granted?_perform (act : Act σ) (hd : d ≠ c) (hgranted : r.granted? = some d) :
    (r.perform rules c now act).1.granted? = some d := by
  cases act with
  | arrive =>
    rcases comes_arrive rules r c now with ⟨-, heq⟩ | ⟨-, hcomes⟩
    · rw [perform, heq]
      exact (granted?_congr rfl).trans hgranted
    · exact hcomes.granted? hd hgranted
  | wake => exact (comes_wake rules r c now).granted? hd hgranted
  | abandon =>
    obtain ⟨seen, hholder⟩ := granted?_eq_some_iff.mp hgranted
    rw [perform, abandon_of_other hholder hd]
    exact (granted?_congr rfl).trans hgranted
  | set change => exact (granted?_congr rfl).trans hgranted

/-- Of the other calls, those are let in after an act that were before and the one that is then. -/
theorem granted?_perform_iff (act : Act σ) (hd : d ≠ c) :
    (r.perform rules c now act).1.granted? = some d ↔
      r.granted? = some d ∨ d ∈ admitted r (r.perform rules c now act).1 := by
  constructor
  · intro h
    rw [admitted]
    split
    · rename_i heq
      exact .inl (heq.symm.trans h)
    · exact .inr (by simp [h])
  · rintro (h | h)
    · exact granted?_perform act hd h
    · rw [admitted] at h
      split at h
      · contradiction
      · simpa using h

/-- A call that has gone on has not been let in again. -/
theorem Comes.granted?_ne (h : r.Comes rules c now result)
    (hqueue : c ∈ r.queue.map Prod.fst → ∃ d hold, r.holder = some (d, hold) ∧ d ≠ c) :
    result.1.granted? ≠ some c := by
  have hrelease : ∀ s : Refresher σ, s.queue = r.queue →
      (∀ d hold, r.holder = some (d, hold) → d = c) → s.release.granted? ≠ some c := by
    intro s hs hturn hgranted
    rw [granted?_release, hs, ← List.head?_map] at hgranted
    obtain ⟨d, hold, hholder, hd⟩ := hqueue (List.mem_of_mem_head? hgranted)
    exact hd (hturn d hold hholder)
  have hheld : ∀ {own : Hold}, r.holder = some (c, own) → ∀ d hold, r.holder = some (d, hold) →
      d = c := by
    intro own hown d hold hd
    exact (Prod.mk.inj (Option.some.inj (hd.symm.trans hown))).1
  have hgoes : ∀ {started walk source}, r.GoesOn rules c now started walk source →
      ∀ d hold, r.holder = some (d, hold) → d = c := by
    intro started walk source hgoes
    cases hgoes with
    | first free => exact fun d hold hd => nomatch free.symm.trans hd
    | granted turn => exact hheld turn
    | replied turn => exact hheld turn
  cases h with
  | idle early =>
    intro hgranted
    obtain ⟨seen, hholder⟩ := granted?_eq_some_iff.mp hgranted
    obtain ⟨attempt, hhold, -⟩ := early _ hholder
    cases hhold
  | share turn => exact hrelease r rfl (hheld turn)
  | finish goes | late goes => exact hrelease _ rfl (hgoes goes)
  | overdue turn => exact hrelease _ rfl (hheld turn)
  | wait =>
    intro hgranted
    obtain ⟨seen, hholder⟩ := granted?_eq_some_iff.mp hgranted
    cases hholder

/-- A call waits in the line only behind another one. -/
theorem Sound.holder_of_queue {log : Log} (h : r.Sound log) (hc : c ∈ r.queue.map Prod.fst) :
    ∃ d hold, r.holder = some (d, hold) ∧ d ≠ c := by
  cases hholder : r.holder with
  | none =>
    rw [h.settled hholder] at hc
    contradiction
  | some holder =>
    obtain ⟨d, hold⟩ := holder
    refine ⟨d, hold, rfl, ?_⟩
    rintro rfl
    have hnodup := h.orderly.nodup
    cases hold with
    | granted seen =>
      rw [turns_of_granted hholder] at hnodup
      exact (List.nodup_cons.mp hnodup).1 hc
    | collecting attempt =>
      rw [turns_of_collecting hholder] at hnodup
      exact (List.nodup_cons.mp hnodup).1 hc

theorem Sound.granted?_perform_ne {log : Log} {act : Act σ} (h : r.Sound log)
    (hcall : act = .arrive ∨ act = .wake) (hfresh : act = .arrive → c ∉ r.turns.calls) :
    (r.perform rules c now act).1.granted? ≠ some c := by
  rcases hcall with rfl | rfl
  · rcases comes_arrive rules r c now with ⟨-, heq⟩ | ⟨-, hcomes⟩
    · intro hgranted
      rw [Refresher.perform, heq] at hgranted
      obtain ⟨seen, hholder⟩ := granted?_eq_some_iff.mp hgranted
      exact hfresh rfl (mem_calls_of_holder (r := r) hholder)
    · exact hcomes.granted?_ne h.holder_of_queue
  · exact (comes_wake rules r c now).granted?_ne h.holder_of_queue

end Granted

/-- A call that is left waiting without an attempt has done nothing. -/
theorem Comes.eq_of_waiting (h : r.Comes rules c now result) (hwaiting : result.2 = .waiting)
    (hnone : result.1.attempt? c = none) : result.1 = r := by
  cases h with
  | idle => rfl
  | wait =>
    rw [attempt?_eq_some_iff.mpr rfl] at hnone
    cases hnone
  | share | finish | late | overdue => cases hwaiting

section Times

/-- The attempt that is under way has begun, and neither its reply nor its deadline is over. -/
def Timely (rules : RefreshRules σ) (r : Refresher σ) (now : Nat) : Prop :=
  ∀ c attempt, r.attempt? c = some attempt →
    attempt.started ≤ now ∧ now ≤ attempt.replyAt ∧ now ≤ attempt.started + rules.limit

theorem timely_release : r.release.Timely rules now := by
  intro c attempt h
  rw [attempt?_release] at h
  cases h

theorem Timely.started_le (h : r.Timely rules now)
    (hgoes : r.GoesOn rules c now started walk source) :
    started ≤ now := by
  cases hgoes with
  | first | granted => exact Nat.le_refl _
  | replied turn => exact (h _ _ (attempt?_eq_some_iff.mpr turn)).1

theorem Timely.comes (h : r.Timely rules now) (hcomes : r.Comes rules c now result) :
    result.1.Timely rules now := by
  cases hcomes with
  | idle => exact h
  | share | finish | late | overdue => exact timely_release
  | wait goes advance early =>
    intro d attempt hattempt
    obtain ⟨-, ⟨⟩⟩ := Prod.mk.inj (Option.some.inj (attempt?_eq_some_iff.mp hattempt))
    exact ⟨h.started_le goes, Nat.le_add_right _ _, Nat.le_of_lt early⟩

theorem Timely.perform (h : r.Timely rules now) (act : Act σ) :
    (r.perform rules c now act).1.Timely rules now := by
  cases act with
  | arrive =>
    rcases comes_arrive rules r c now with ⟨-, heq⟩ | ⟨-, hcomes⟩
    · rw [Refresher.perform, heq]
      exact h
    · exact h.comes hcomes
  | wake => exact h.comes (comes_wake rules r c now)
  | abandon =>
    intro d attempt hattempt
    rw [attempt?_eq_some_iff] at hattempt
    exact h d attempt (attempt?_eq_some_iff.mpr (holder_abandon hattempt).1)
  | set change => exact h

/-- A call that is left waiting goes on by itself only later. -/
theorem Comes.alarm_later (h : r.Comes rules c now result) (hwaiting : result.2 = .waiting)
    {time : Nat}
    (halarm : result.1.alarm? rules c = some time) : now < time := by
  obtain ⟨attempt, hattempt, rfl⟩ := Option.map_eq_some_iff.mp halarm
  rw [attempt?_eq_some_iff] at hattempt
  cases h with
  | idle early =>
    obtain ⟨attempt, ⟨⟩, hreply, hlimit⟩ := early _ hattempt
    exact Nat.lt_min.mpr ⟨hreply, hlimit⟩
  | share | finish | late | overdue => cases hwaiting
  | wait goes advance early =>
    obtain ⟨-, ⟨⟩⟩ := Prod.mk.inj (Option.some.inj hattempt)
    exact Nat.lt_min.mpr ⟨Nat.lt_add_of_pos_right (Inquiry.delay_pos_of_advance advance), early⟩

theorem alarm_later_perform {act : Act σ} (hcall : act = .arrive ∨ act = .wake)
    (hfresh : act = .arrive → c ∉ r.turns.calls)
    (hwaiting : (r.perform rules c now act).2 = .waiting) {time : Nat}
    (halarm : (r.perform rules c now act).1.alarm? rules c = some time) : now < time := by
  rcases hcall with rfl | rfl
  · rcases comes_arrive rules r c now with ⟨-, heq⟩ | ⟨-, hcomes⟩
    · obtain ⟨attempt, hattempt, -⟩ := Option.map_eq_some_iff.mp halarm
      rw [perform, heq, attempt?_eq_some_iff] at hattempt
      exact absurd (mem_calls_of_holder (r := r) hattempt) (hfresh rfl)
    · exact hcomes.alarm_later hwaiting halarm
  · exact (comes_wake rules r c now).alarm_later hwaiting halarm

end Times

end Refresher

end PoolGauge
