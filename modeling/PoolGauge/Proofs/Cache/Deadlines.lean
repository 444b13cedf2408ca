import PoolGauge.Proofs.Cache.Attempts
import PoolGauge.Proofs.Cache.Waiting

/-!
# Attempts end in time

In a run by the clock every attempt ends with its collection or at its deadline, and its call is
told so. Nobody has the turn for longer than an attempt may take.
-/
namespace PoolGauge

variable {σ : Type}

namespace Schedule

variable {rules : RefreshRules σ} {s t : Schedule σ} {task : Task σ} {log : Log} {c : Ticket}
  {timeline new : Timeline σ} {source : σ}

theorem accounted_advance (hsound : s.Sound log) (hprompt : s.Prompt rules none)
    (h : ∀ c ∈ s.refresher.turns.calls, s.refresher.Accounted rules c (timeline.own c))
    (hadvance : Advance rules s new t) :
    ∀ c ∈ t.refresher.turns.calls,
      t.refresher.Accounted rules c (Timeline.own c (new ++ timeline)) := by
  cases hadvance with
  | turn next =>
    have hturn := turn_of_next? next
    generalize s.upcoming rules = new at hturn
    cases hturn with
    | @run task rest mem first =>
      rw [(does_runTask rules { s with ready := rest } task).refresher, moments]
      cases hact : task.act? with
      | none => exact h
      | some act =>
        exact Refresher.accounted_perform hsound.refresher hprompt.timely h (hsound.fresh mem hact)
    | skip | jump => exact h
  | spawn | forget => exact h
  | tellStop mem =>
    rw [refresher_tellStop]
    exact h
  | @stop task mem =>
    have hfresh : (Act.abandon : Act σ) = .arrive → task.id ∉ s.refresher.turns.calls := by
      rintro ⟨⟩
    exact Refresher.accounted_perform hsound.refresher hprompt.timely h hfresh

/-- What has happened to the calls accounts for what they have come to. -/
theorem Clocked.accounted (h : Clocked rules (initial source) timeline s) :
    ∀ c ∈ s.refresher.turns.calls, s.refresher.Accounted rules c (timeline.own c) := by
  induction h with
  | refl => nofun
  | next run step ih =>
    obtain ⟨hsound, hprompt⟩ := run.sound_prompt
    exact accounted_advance hsound hprompt ih step

theorem ends_turn {outcome : Outcome} {rest : Timeline σ} (hsound : s.Sound log)
    (hprompt : s.Prompt rules none)
    (haccounted : ∀ c ∈ s.refresher.turns.calls, s.refresher.Accounted rules c (timeline.own c))
    (hturn : Turn rules s (⟨s.now, .told c outcome⟩ :: rest) t)
    (hcalls : Timeline.calls (Timeline.own c (rest ++ timeline)) ≠ []) :
    Timeline.Ends rules (Timeline.own c (rest ++ timeline)) s.now s.refresher.cache
      t.refresher.cache outcome ∧ c ∉ t.refresher.turns.calls := by
  generalize hnew : (⟨s.now, .told c outcome⟩ :: rest : Timeline σ) = new at hturn
  cases hturn with
  | skip | jump => cases hnew
  | @run task after mem first =>
    rw [moments] at hnew
    cases hact : task.act? with
    | none =>
      rw [hact] at hnew
      cases hnew
    | some act =>
      rw [hact] at hnew
      dsimp only at hnew
      obtain rfl : c = task.id := by
        have hmem : ⟨s.now, .told c outcome⟩ ∈
            (s.refresher.happenings rules task.id s.now act).map (Moment.mk s.now) :=
          hnew ▸ List.mem_cons_self ..
        exact Refresher.call_map_happenings _ hmem
      rw [(does_runTask rules { s with ready := after } task).refresher, hact, acted]
      exact Refresher.ends_of_told hsound.refresher hprompt.timely haccounted
        (hsound.fresh mem hact) hnew.symm hcalls

/-- In every run by the clock, whatever the source does and however long its replies take, an
attempt whose call is told ends with its collection at the moment at which it ends by itself if the
calls of the source take no longer than an attempt may; then the call is told just the result. Else
it ends at its deadline with a failure that counts once and leaves the latest snapshot. Then the
call is over. At any time an attempt that is under way has been so for no longer than it may, and in
a finite number of turns and by its deadline its call is told, unless its task is told to stop. A
call whose turn has come goes on before the clock does. -/
theorem attempts_end_in_time (h : Clocked rules (initial source) timeline s) :
    (∀ t c outcome rest, s.next? rules = some t →
      s.upcoming rules = ⟨s.now, .told c outcome⟩ :: rest →
      Timeline.calls (Timeline.own c (rest ++ timeline)) ≠ [] →
      Timeline.Ends rules (Timeline.own c (rest ++ timeline)) s.now s.refresher.cache
        t.refresher.cache outcome ∧
      c ∉ t.refresher.turns.calls) ∧
    (∀ c attempt, s.refresher.attempt? c = some attempt →
      (∃ first, (timeline.own c).first? = some first ∧ first.time = attempt.started) ∧
      attempt.started ≤ s.now ∧ s.now ≤ attempt.started + rules.limit ∧
      ∃ later t, Unattended rules s later t ∧ t.now ≤ attempt.started + rules.limit ∧
        (t.TellsNext rules c ∨ t.ToStop c)) ∧
    ∀ c, s.refresher.granted? = some c → c ∈ s.ready := by
  obtain ⟨hsound, hprompt⟩ := h.sound_prompt
  have haccounted := h.accounted
  refine ⟨fun t c outcome rest hnext hupcoming hcalls => ?_, fun c attempt hattempt => ?_,
    fun c hgranted => hprompt.mem_ready_of_granted hsound hgranted⟩
  · have hturn := turn_of_next? hnext
    rw [hupcoming] at hturn
    exact ends_turn hsound hprompt haccounted hturn hcalls
  · have hattempt' := Refresher.attempt?_eq_some_iff.mp hattempt
    have hcalls := Refresher.mem_calls_of_holder hattempt'
    have haccounts := (haccounted c hcalls).collecting attempt hattempt
    obtain ⟨first, hfirst⟩ := haccounts.exists_first
    obtain ⟨hstarted, -, hlimit⟩ := hprompt.timely c attempt hattempt
    refine ⟨⟨first, hfirst, haccounts.first first hfirst⟩, hstarted, hlimit, ?_⟩
    rw [← Refresher.latest_of_collecting hattempt']
    exact tells_eventually hsound hprompt hcalls

def bareReply : (query : Query) → query.Reply
  | .listPools | .listDatasets => .ok ""
  | _ => .error (.command "zpool status" "no such pool")

/-- A host without pools and datasets whose tools take three milliseconds for each of the two
replies that a collection needs. -/
def tardyHost (limit : Nat) : RefreshRules Unit where
  source := {
    call := fun _ _ => (3, ())
    reply := fun query _ => (bareReply query, ()) }
  limit

def tardyRefresh (limit : Nat) : Schedule Unit :=
  ((initial ()).spawn (.starting 0 .refresh)).runFor (tardyHost limit) 4

def tardyTimeline (limit : Nat) : Timeline Unit :=
  ((initial ()).spawn (.starting 0 .refresh)).timelineFor (tardyHost limit) 4

theorem clocked_tardyRefresh (limit : Nat) :
    Clocked (tardyHost limit) (initial ()) (tardyTimeline limit) (tardyRefresh limit) := by
  have hspawned : Clocked (tardyHost limit) (initial ()) [] _ := .next .refl (.spawn 0 .refresh)
  have hrun := hspawned.trans (unattended_runFor (tardyHost limit) 4 _).clocked
  rwa [List.append_nil] at hrun

/-- The calls of a tardy host take six milliseconds: a collection ends by itself if it may take as
long, and at its deadline if it may take five. -/
theorem tardyHost_ends_in_time :
    (∃ first result, Timeline.Completes (tardyHost 6)
      (Timeline.own 0 (((tardyRefresh 6).upcoming (tardyHost 6)).tail ++ tardyTimeline 6)) first 6
      result) ∧
    ∃ first, Timeline.TimesOut (tardyHost 5)
      (Timeline.own 0 (((tardyRefresh 5).upcoming (tardyHost 5)).tail ++ tardyTimeline 5)) first
      5 := by
  have hends : ∀ limit t, (tardyRefresh limit).next? (tardyHost limit) = some t →
      (tardyRefresh limit).TellsNext (tardyHost limit) 0 →
      (Timeline.calls (Timeline.own 0
        (((tardyRefresh limit).upcoming (tardyHost limit)).tail ++ tardyTimeline limit))).length =
          2 →
      ∃ outcome, Timeline.Ends (tardyHost limit) (Timeline.own 0
        (((tardyRefresh limit).upcoming (tardyHost limit)).tail ++ tardyTimeline limit))
        (tardyRefresh limit).now (tardyRefresh limit).refresher.cache t.refresher.cache
        outcome := by
    rintro limit t hnext ⟨outcome, rest, hupcoming⟩ hcalls
    have hends :=
      (attempts_end_in_time (clocked_tardyRefresh limit)).1 t 0 outcome rest hnext hupcoming
    rw [hupcoming, List.tail_cons] at hcalls ⊢
    refine ⟨outcome, (hends fun hnil => ?_).1⟩
    rw [hnil] at hcalls
    cases hcalls
  constructor
  · obtain ⟨t, hnext⟩ := Option.isSome_iff_exists.mp
      (show ((tardyRefresh 6).next? (tardyHost 6)).isSome by decide +kernel)
    obtain ⟨outcome, first, -, ⟨result, hcompletes, -⟩ | ⟨htimesOut, -⟩⟩ :=
      hends 6 t hnext (by decide +kernel) (by decide +kernel)
    · rw [show (tardyRefresh 6).now = 6 by decide +kernel] at hcompletes
      exact ⟨first, result, hcompletes⟩
    · exact absurd htimesOut.overtime (by decide +kernel)
  · obtain ⟨t, hnext⟩ := Option.isSome_iff_exists.mp
      (show ((tardyRefresh 5).next? (tardyHost 5)).isSome by decide +kernel)
    obtain ⟨outcome, first, -, ⟨result, hcompletes, -⟩ | ⟨htimesOut, -⟩⟩ :=
      hends 5 t hnext (by decide +kernel) (by decide +kernel)
    · exact absurd hcompletes.inTime (by decide +kernel)
    · rw [show (tardyRefresh 5).now = 5 by decide +kernel] at htimesOut
      exact ⟨first, htimesOut⟩

end Schedule

end PoolGauge
