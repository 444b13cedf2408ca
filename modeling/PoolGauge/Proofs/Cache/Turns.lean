import Mathlib.Data.List.Nodup
import PoolGauge.Proofs.Cache.Log

/-!
# Turns

Of a refresher only the cache, the call that collects and the line of the calls that wait decide
whose turn it is and what a call is told. Everything that a refresher does is a sequence of six
moves of these, each of which is one event.
-/
namespace PoolGauge

/-- The cache, the call that collects, and the calls that wait with the generation that each saw
when it arrived, the next one first. -/
structure Turns where
  cache : Cache
  collector : Option Ticket
  waiters : List (Ticket × UInt64)

namespace Turns

def calls (t : Turns) : List Ticket :=
  t.collector.toList ++ t.waiters.map Prod.fst

def phase (t : Turns) (c : Ticket) : Phase :=
  if t.collector = some c then .collecting
  else if c ∈ t.waiters.map Prod.fst then .waiting
  else .outside

def without (t : Turns) (c : Ticket) : Turns :=
  { t with
    collector := t.collector.filter (· != c)
    waiters := t.waiters.filter (·.1 != c) }

@[simp] theorem collector_without (t : Turns) (c : Ticket) :
    (t.without c).collector = t.collector.filter (· != c) := rfl

@[simp] theorem waiters_without (t : Turns) (c : Ticket) :
    (t.without c).waiters = t.waiters.filter (·.1 != c) := rfl

/-- The moves: a call joins the line, the next one begins to collect or shares, the one that
collects asks again or ends, and a call leaves wherever it is. -/
inductive Move : Turns → Event → Turns → Prop
  | arrive {t : Turns} {c : Ticket} (fresh : c ∉ t.calls) :
      Move t (.arrived c) { t with waiters := t.waiters ++ [(c, t.cache.generation)] }
  | start {cache : Cache} {c : Ticket} {seen : UInt64} {rest : List (Ticket × UInt64)}
      (query : Query) (same : cache.generation = seen) :
      Move ⟨cache, none, (c, seen) :: rest⟩ (.asked c query) ⟨cache, some c, rest⟩
  | ask {cache : Cache} {c : Ticket} {waiters : List (Ticket × UInt64)} (query : Query) :
      Move ⟨cache, some c, waiters⟩ (.asked c query) ⟨cache, some c, waiters⟩
  | finish {cache : Cache} {c : Ticket} {waiters : List (Ticket × UInt64)}
      (outcome : Except Failure Snapshot) :
      Move ⟨cache, some c, waiters⟩ (.told c (cache.tell outcome))
        ⟨cache.finish outcome, none, waiters⟩
  | share {cache : Cache} {c : Ticket} {seen : UInt64} {rest : List (Ticket × UInt64)}
      (differs : cache.generation ≠ seen) :
      Move ⟨cache, none, (c, seen) :: rest⟩ (.told c cache.shared) ⟨cache, none, rest⟩
  | leave {t : Turns} {c : Ticket} (inside : c ∈ t.calls) :
      Move t (.dropped c) (t.without c)

inductive Moves : Turns → Log → Turns → Prop
  | refl (t : Turns) : Moves t [] t
  | snoc {t u v : Turns} {log : Log} {e : Event} (moves : Moves t log u) (move : Move u e v) :
      Moves t (e :: log) v

/-- The calls in a line have seen the generation before the attempts that ended since they arrived,
of which there is at most one, and none for a call behind another for which there is none. -/
structure InLine (generation : UInt64) (waiters : List (Ticket × UInt64)) (log : Log) : Prop where
  seen : ∀ w ∈ waiters, generation = w.2 + .ofNat (log.news w.1).length
  latest : ∀ w ∈ waiters, (log.news w.1).length ≤ 1
  order : waiters.Pairwise fun v w => (log.news w.1).length ≤ (log.news v.1).length

/-- The turns are in order after what happened: the cache records the attempts that ended, every
call is as far as it should be, those that wait are in line, and no attempt has ended since any of
them arrived while another call collects. -/
structure Orderly (t : Turns) (log : Log) : Prop where
  records : t.cache.Records log.attempts
  nodup : t.calls.Nodup
  phases : ∀ c, log.phase c = t.phase c
  line : InLine t.cache.generation t.waiters log
  calm : t.collector ≠ none → ∀ w ∈ t.waiters, log.news w.1 = []

variable {t u v : Turns} {log : Log} {e : Event} {c : Ticket}

theorem Moves.trans {later : Log} (h : Moves t log u) (h' : Moves u later v) :
    Moves t (later ++ log) v := by
  induction h' with
  | refl => exact h
  | snoc _ move ih => exact ih.snoc move

theorem Moves.split {later : Log} (h : Moves t (later ++ log) v) :
    ∃ u, Moves t log u ∧ Moves u later v := by
  induction later generalizing v with
  | nil => exact ⟨v, h, .refl v⟩
  | cons e later ih =>
    cases h with
    | snoc moves move =>
      obtain ⟨u, hearlier, hlater⟩ := ih moves
      exact ⟨u, hearlier, hlater.snoc move⟩

/-- Until something happens to the call that is next, calls only arrive behind it and leave. -/
theorem Moves.next_waits {cache : Cache} {c : Ticket} {seen : UInt64}
    {rest : List (Ticket × UInt64)} (h : Moves ⟨cache, none, (c, seen) :: rest⟩ log u)
    (hlog : ∀ e ∈ log, e.call ≠ c) : ∃ rest, u = ⟨cache, none, (c, seen) :: rest⟩ := by
  generalize hstart : Turns.mk cache none ((c, seen) :: rest) = start at h
  induction h with
  | refl => exact ⟨rest, hstart.symm⟩
  | snoc _ move ih =>
    subst hstart
    obtain ⟨rest, rfl⟩ := ih fun e he => hlog e (List.mem_cons_of_mem _ he)
    have hcall := hlog _ (List.mem_cons_self ..)
    cases move with
    | arrive => exact ⟨_, rfl⟩
    | start | share => exact absurd rfl hcall
    | @leave t d =>
      have hd : c ≠ d := fun heq => hcall heq.symm
      exact ⟨rest.filter (·.1 != d), by simp [without, hd]⟩

theorem Moves.asks {cache : Cache} {waiters : List (Ticket × UInt64)} (asked : List Query) :
    Moves ⟨cache, some c, waiters⟩ (asked.map (.asked c)) ⟨cache, some c, waiters⟩ := by
  induction asked with
  | nil => exact .refl _
  | cons query rest ih => exact ih.snoc (.ask query)

theorem mem_calls_iff : c ∈ t.calls ↔ t.phase c ≠ .outside := by
  rw [calls, phase]
  split
  · simp [*]
  · split <;> simp_all

theorem filter_waiters {waiters : List (Ticket × UInt64)} (h : c ∉ waiters.map Prod.fst) :
    waiters.filter (·.1 != c) = waiters := by
  refine List.filter_eq_self.mpr fun w hw => bne_iff_ne.mpr fun heq => h ?_
  rw [← heq]
  exact List.mem_map_of_mem hw

theorem without_of_notMem (h : c ∉ t.calls) : t.without c = t := by
  obtain ⟨cache, collector, waiters⟩ := t
  simp only [calls, List.mem_append, not_or, Option.mem_toList] at h
  rw [without, filter_waiters h.2]
  cases collector with
  | none => rfl
  | some d =>
    have hd : d ≠ c := by simpa [eq_comm] using h.1
    simp [Option.filter, hd]

theorem phase_without (t : Turns) (c : Ticket) : (t.without c).phase c = .outside := by
  simp [phase, Option.filter_eq_some_iff]

theorem Move.nodup (h : Move t e u) (hnodup : t.calls.Nodup) : u.calls.Nodup := by
  cases h with
  | @arrive t c fresh =>
    have hlonger : (t.calls ++ [c]).Nodup :=
      hnodup.append (List.nodup_singleton c) (by simpa using fresh)
    simpa [calls, List.append_assoc] using hlonger
  | start query same => simpa [calls] using hnodup
  | ask query => exact hnodup
  | finish outcome => exact (List.nodup_cons.mp hnodup).2
  | share differs => exact (List.nodup_cons.mp hnodup).2
  | @leave t c inside =>
    refine hnodup.sublist (List.Sublist.append ?_ (List.filter_sublist.map Prod.fst))
    rw [collector_without]
    cases hcollector : t.collector with
    | none => exact List.Sublist.refl []
    | some d => by_cases hd : d = c <;> simp [Option.filter, hd]

/-- A call that has not ended had not before, unless it has arrived meanwhile. -/
theorem Move.mem_calls (h : Move t e u) (he : e ≠ .arrived c) (hc : c ∈ u.calls) : c ∈ t.calls := by
  cases h with
  | @arrive t d fresh =>
    have hd : c ≠ d := fun heq => he (heq ▸ rfl)
    simpa [calls, hd] using hc
  | start query same => simpa [calls] using hc
  | ask query => exact hc
  | finish outcome => exact List.mem_cons_of_mem _ hc
  | share differs => exact List.mem_cons_of_mem _ hc
  | leave inside =>
    rw [calls, collector_without, waiters_without] at hc
    rcases List.mem_append.mp hc with hcollector | hwaiter
    · have hmem := Option.mem_toList.mp hcollector
      have hbefore := (Option.filter_eq_some_iff.mp hmem).1
      exact List.mem_append_left _ (Option.mem_toList.mpr hbefore)
    · exact List.mem_append_right _ ((List.filter_sublist.map Prod.fst).subset hwaiter)

theorem Moves.mem_calls (h : Moves t log u) (hlog : .arrived c ∉ log) (hc : c ∈ u.calls) :
    c ∈ t.calls := by
  induction h with
  | refl => exact hc
  | snoc _ move ih =>
    obtain ⟨hlast, hearlier⟩ := not_or.mp (mt List.mem_cons.mpr hlog)
    exact ih hearlier (move.mem_calls (Ne.symm hlast) hc)

theorem phase_congr (hcollector : u.collector = some c ↔ t.collector = some c)
    (hwaiters : c ∈ u.waiters.map Prod.fst ↔ c ∈ t.waiters.map Prod.fst) :
    u.phase c = t.phase c := by
  simp only [Turns.phase, hcollector, hwaiters]

/-- An event changes how far its own call is, and nothing about other calls. -/
theorem Move.phase (h : Move t e u) (hnodup : t.calls.Nodup) (d : Ticket) :
    u.phase d = if e.call = d then e.phase else t.phase d := by
  by_cases hd : e.call = d
  · rw [if_pos hd]
    subst hd
    cases h with
    | arrive fresh => simp_all [Turns.phase, calls, Event.call, Event.phase]
    | start query same => simp [Turns.phase, Event.call, Event.phase]
    | ask query => simp [Turns.phase, Event.call, Event.phase]
    | finish outcome | share differs =>
      exact if_neg (List.nodup_cons.mp hnodup).1
    | @leave t c inside => exact phase_without t c
  · rw [if_neg hd]
    have hd' : d ≠ e.call := Ne.symm hd
    cases h with
    | arrive fresh => exact phase_congr Iff.rfl (by simp_all [Event.call])
    | start query same | share differs =>
      exact phase_congr (by simp_all [Event.call]) (by simp_all [Event.call])
    | ask query => rfl
    | finish outcome => exact phase_congr (by simp_all [Event.call]) Iff.rfl
    | leave inside =>
      simp only [Event.call] at hd hd'
      exact phase_congr (by simp [Option.filter_eq_some_iff, hd']) (by simp [hd'])

namespace InLine

variable {generation : UInt64} {waiters rest : List (Ticket × UInt64)} {log' : Log}

theorem news_arrived (hc : c ∉ waiters.map Prod.fst) {w : Ticket × UInt64} (hw : w ∈ waiters) :
    Log.news w.1 (.arrived c :: log) = log.news w.1 := by
  refine Log.news_arrived_of_ne fun heq => hc ?_
  rw [heq]
  exact List.mem_map_of_mem hw

theorem sublist (h : InLine generation waiters log) (hrest : rest.Sublist waiters)
    (hnews : ∀ c, log'.news c = log.news c) : InLine generation rest log' where
  seen w hw := by
    rw [hnews]
    exact h.seen w (hrest.subset hw)
  latest w hw := by
    rw [hnews]
    exact h.latest w (hrest.subset hw)
  order := by
    simp only [hnews]
    exact h.order.sublist hrest

theorem join (h : InLine generation waiters log) (hc : c ∉ waiters.map Prod.fst) :
    InLine generation (waiters ++ [(c, generation)]) (.arrived c :: log) := by
  have hnews : ∀ w ∈ waiters, Log.news w.1 (.arrived c :: log) = log.news w.1 :=
    fun w hw => news_arrived hc hw
  refine ⟨fun w hw => ?_, fun w hw => ?_, ?_⟩
  · rcases List.mem_append.mp hw with hold | hnew
    · rw [hnews w hold]
      exact h.seen w hold
    · obtain rfl := List.mem_singleton.mp hnew
      simp
  · rcases List.mem_append.mp hw with hold | hnew
    · rw [hnews w hold]
      exact h.latest w hold
    · obtain rfl := List.mem_singleton.mp hnew
      simp
  · rw [List.pairwise_append]
    refine ⟨h.order.imp_of_mem fun hv hw hle => ?_, List.pairwise_singleton _ _, fun v _ w hw => ?_⟩
    · rw [hnews _ hv, hnews _ hw]
      exact hle
    · obtain rfl := List.mem_singleton.mp hw
      simp

theorem ended (hseen : ∀ w ∈ waiters, generation = w.2)
    (hnews : ∀ w ∈ waiters, log.news w.1 = []) (hc : log.phase c = .collecting)
    (outcome : Outcome) : InLine (generation + 1) waiters (.told c outcome :: log) := by
  have hone : ∀ w ∈ waiters, Log.news w.1 (.told c outcome :: log) = [outcome] := by
    intro w hw
    rw [Log.news_told_of_collecting hc, hnews w hw]
  refine ⟨fun w hw => ?_, fun w hw => ?_, ?_⟩
  · rw [hone w hw, hseen w hw]
    rfl
  · rw [hone w hw, List.length_singleton]
  · refine List.pairwise_of_forall_mem_list fun v hv w hw => ?_
    rw [hone v hv, hone w hw]

/-- The generation that a call saw tells whether an attempt has ended since. -/
theorem news_eq_nil_iff (h : InLine generation waiters log) {w : Ticket × UInt64}
    (hw : w ∈ waiters) : log.news w.1 = [] ↔ generation = w.2 := by
  have hseen := h.seen w hw
  have hlatest := h.latest w hw
  constructor
  · intro hnews
    rw [hseen, hnews]
    simp
  · intro heq
    by_contra hnews
    have hone : (log.news w.1).length = 1 := by
      have := List.length_pos_iff.mpr hnews
      omega
    rw [hone, heq] at hseen
    have := congrArg UInt64.toNat hseen
    simp at this
    omega

end InLine

section Phases

variable {cache : Cache} {seen : UInt64} {waiters rest : List (Ticket × UInt64)}

theorem Orderly.collecting (h : Orderly ⟨cache, some c, waiters⟩ log) :
    log.phase c = .collecting := by
  rw [h.phases]
  exact if_pos rfl

theorem Orderly.waiting (h : Orderly ⟨cache, none, (c, seen) :: rest⟩ log) :
    log.phase c = .waiting := by
  rw [h.phases]
  simp [Turns.phase]

theorem Orderly.quiet (h : Orderly ⟨cache, none, waiters⟩ log) (d : Ticket) :
    log.phase d ≠ .collecting := by
  rw [h.phases, Turns.phase, if_neg nofun]
  split <;> decide

end Phases

/-- What a move does is allowed. -/
theorem Orderly.allows (h : Orderly t log) (move : Move t e u) : log.Allows e := by
  cases move with
  | arrive fresh =>
    rw [mem_calls_iff, not_not, ← h.phases] at fresh
    exact fresh
  | @start cache c seen rest query same =>
    exact .inr ⟨h.waiting, (h.line.news_eq_nil_iff (List.mem_cons_self ..)).mpr same, h.quiet⟩
  | ask query => exact .inl h.collecting
  | finish outcome => exact .inl h.collecting
  | @share cache c seen rest differs =>
    obtain ⟨latest, hlatest⟩ : ∃ latest, log.news c = [latest] := by
      have hsome := mt (h.line.news_eq_nil_iff (List.mem_cons_self ..)).mp differs
      have hone := h.line.latest _ (List.mem_cons_self ..)
      exact List.length_eq_one_iff.mp (Nat.le_antisymm hone (List.length_pos_iff.mpr hsome))
    refine .inr ⟨h.waiting, latest, hlatest, ?_⟩
    -- the one attempt that ended since is the last one that the cache records
    obtain ⟨older, holder⟩ := Log.news_prefix c log
    have hrecords := h.records
    rw [← holder, hlatest] at hrecords
    exact hrecords.shared
  | leave inside =>
    rw [mem_calls_iff, ← h.phases] at inside
    exact inside

theorem Orderly.move (h : Orderly t log) (move : Move t e u) : Orderly u (e :: log) := by
  have hnodup := move.nodup h.nodup
  have hphases : ∀ c, Log.phase c (e :: log) = u.phase c := by
    intro c
    rw [Log.phase, move.phase h.nodup, h.phases]
  cases move with
  | @arrive t c fresh =>
    have hc : c ∉ t.waiters.map Prod.fst := fun hmem => fresh (List.mem_append_right _ hmem)
    refine ⟨h.records, hnodup, hphases, h.line.join hc, fun hcollector w hw => ?_⟩
    rcases List.mem_append.mp hw with hold | hnew
    · rw [InLine.news_arrived hc hold]
      exact h.calm hcollector w hold
    · obtain rfl := List.mem_singleton.mp hnew
      exact Log.news_arrived_self
  | @start cache c seen rest query same =>
    refine ⟨h.records, hnodup, hphases,
      h.line.sublist (List.sublist_cons_self ..) fun _ => Log.news_asked query, fun _ w hw => ?_⟩
    -- no attempt has ended since the first in line arrived, so none has for those behind it
    have hfirst := (h.line.news_eq_nil_iff (List.mem_cons_self ..)).mpr same
    have hle := List.rel_of_pairwise_cons h.line.order hw
    rw [hfirst] at hle
    exact List.length_eq_zero_iff.mp (Nat.le_zero.mp hle)
  | ask query =>
    exact ⟨h.records, hnodup, hphases,
      h.line.sublist (List.Sublist.refl _) fun _ => Log.news_asked query, h.calm⟩
  | @finish cache c waiters outcome =>
    have hcollecting := h.collecting
    have hcalm := h.calm (Option.some_ne_none c)
    refine ⟨?_, hnodup, hphases, ?_, fun hnone => absurd rfl hnone⟩
    · rw [Log.attempts_told_of_collecting hcollecting]
      exact h.records.finish outcome
    · rw [Cache.generation_finish]
      exact .ended (fun w hw => (h.line.news_eq_nil_iff hw).mp (hcalm w hw)) hcalm hcollecting _
  | @share cache c seen rest differs =>
    have hwaiting := h.waiting
    refine ⟨?_, hnodup, hphases, h.line.sublist (List.sublist_cons_self ..)
      fun _ => Log.news_told_of_waiting hwaiting _, fun hnone => absurd rfl hnone⟩
    rw [Log.attempts_told_of_waiting hwaiting]
    exact h.records
  | @leave t c inside =>
    refine ⟨h.records, hnodup, hphases,
      h.line.sublist List.filter_sublist fun _ => Log.news_dropped, fun hcollector w hw => ?_⟩
    have hbefore : t.collector ≠ none := by
      intro hnone
      simp [hnone] at hcollector
    exact h.calm hbefore w (List.mem_of_mem_filter hw)

/-- Along a sequence of moves the turns stay in order, and everything that happens is allowed. -/
theorem Orderly.moves {before : Log} (h : Orderly t before) (hlawful : before.Lawful)
    (moves : Moves t log u) : Orderly u (log ++ before) ∧ (log ++ before).Lawful := by
  induction moves with
  | refl => exact ⟨h, hlawful⟩
  | snoc _ move ih =>
    obtain ⟨horderly, hlawful⟩ := ih
    exact ⟨horderly.move move, hlawful.cons (horderly.allows move)⟩

end Turns

end PoolGauge
