import PoolGauge.Proofs.Cache.Tasks

/-!
# Runs of tasks

The executor may let any task run at any time, whatever the clock shows, and tasks may be added,
told to stop or stopped in between. The runs of the virtual clock are among these.
-/
namespace PoolGauge.Schedule

variable {σ : Type}

inductive Transition (rules : RefreshRules σ) (s : Schedule σ) : Log → Schedule σ → Prop
  | spawn (delay : Nat) (step : Step σ) : Transition rules s [] (s.spawn (.starting delay step))
  | run {task : Task σ} (htask : task ∈ s.tasks) :
      Transition rules s (s.events rules task) (s.runTask rules task)
  | tellStop (id : Ticket) : Transition rules s [] (s.tellStop id)
  | stop (id : Ticket) :
      Transition rules s (s.refresher.events rules id s.now .abandon) (s.stop id)
  | pass (now : Nat) (ready : List Ticket) (answers : List (Ticket × Answer)) :
      Transition rules s [] { s with now, ready, answers }

/-- A run with everything that happens to calls of refresh during it. -/
inductive Reaches (rules : RefreshRules σ) (s : Schedule σ) : Log → Schedule σ → Prop
  | refl : Reaches rules s [] s
  | next {t u : Schedule σ} {log new : Log} (run : Reaches rules s log t)
      (step : Transition rules t new u) : Reaches rules s (new ++ log) u

variable {rules : RefreshRules σ} {s t u : Schedule σ} {log later new : Log} {source : σ}

theorem Reaches.trans (h : Reaches rules s log t) (h' : Reaches rules t later u) :
    Reaches rules s (later ++ log) u := by
  induction h' with
  | refl => exact h
  | next _ step ih =>
    rw [List.append_assoc]
    exact ih.next step

theorem Transition.reaches (h : Transition rules s new t) : Reaches rules s (new ++ []) t :=
  Reaches.refl.next h

theorem Sound.of_touches (h : s.Sound log) (htouches : ∀ id, Touches id s t)
    (hrefresher : t.refresher = s.refresher) : t.Sound log where
  refresher := hrefresher ▸ h.refresher
  tidy := (htouches 0).tidy h.tidy
  serves c hc := (htouches (c + 1)).others c (Nat.ne_of_lt (Nat.lt_succ_self c))
    (h.serves c (hrefresher ▸ hc))

theorem Sound.stop (h : s.Sound log) (id : Ticket) :
    (s.stop id).Sound (s.refresher.events rules id s.now .abandon ++ log) := by
  have hsound : (s.refresher.perform rules id s.now .abandon).1.Sound
      (s.refresher.events rules id s.now .abandon ++ log) := h.refresher.perform nofun
  refine ⟨hsound, (touches_stop s id).tidy h.tidy, fun c hc => ?_⟩
  by_cases hid : c = id
  · subst hid
    exact absurd hc h.refresher.notMem_calls_abandon
  · have hcalls : c ∈ (s.refresher.perform rules id s.now .abandon).1.turns.calls ↔
        c ∈ s.refresher.turns.calls := h.refresher.mem_calls_perform_iff nofun hid
    exact (touches_stop s id).others c hid (h.serves c (hcalls.mp hc))

theorem Sound.transition (h : s.Sound log) (step : Transition rules s new t) :
    t.Sound (new ++ log) := by
  cases step with
  | spawn delay step => exact h.of_touches (fun id => touches_spawn s id _) rfl
  | run htask => exact h.runTask htask
  | tellStop id => exact h.of_touches (fun other => touches_tellStop s other id) (by simp)
  | stop id => exact h.stop id
  | pass now ready answers => exact h.of_touches (fun _ => .of_eq rfl rfl) rfl

theorem Sound.moves (h : s.Sound log) (step : Transition rules s new t) :
    Turns.Moves s.refresher.turns new t.refresher.turns := by
  cases step with
  | spawn delay step => exact .refl _
  | pass now ready answers => exact .refl _
  | tellStop id =>
    rw [refresher_tellStop]
    exact .refl _
  | stop id =>
    have hmoves : Turns.Moves s.refresher.turns (s.refresher.events rules id s.now .abandon)
        (s.refresher.perform rules id s.now .abandon).1.turns := h.refresher.moves nofun
    exact hmoves
  | @run task htask =>
    rw [(does_runTask rules s task).refresher, events]
    cases hact : task.act? with
    | none => exact .refl _
    | some act => exact h.refresher.moves (h.fresh htask hact)

/-- What happens in a run is a sequence of moves. -/
theorem Sound.moves_of_reaches (h : s.Sound log) (hrun : Reaches rules s later t) :
    Turns.Moves s.refresher.turns later t.refresher.turns ∧ t.Sound (later ++ log) := by
  induction hrun with
  | refl => exact ⟨.refl _, h⟩
  | next _ step ih =>
    obtain ⟨hmoves, hsound⟩ := ih
    rw [List.append_assoc]
    exact ⟨hmoves.trans (hsound.moves step), hsound.transition step⟩

theorem sound_initial (source : σ) : (initial source).Sound [] where
  refresher := Refresher.sound_initial source
  tidy := ⟨List.nodup_nil, nofun⟩
  serves := nofun

theorem Reaches.sound (h : Reaches rules (initial source) log s) : s.Sound log := by
  induction h with
  | refl => exact sound_initial source
  | next _ step ih => exact ih.transition step

section Executor

theorem reaches_next? (h : s.next? rules = some t) : ∃ log, Reaches rules s log t := by
  rw [next?] at h
  split at h
  · rename_i id rest hready
    have hpass : Reaches rules s [] { s with ready := rest } :=
      (Transition.pass s.now rest s.answers).reaches
    dsimp only at h
    split at h
    · rename_i task hfind
      obtain rfl := Option.some.inj h
      exact ⟨_, hpass.next (.run (List.mem_of_find?_eq_some hfind))⟩
    · obtain rfl := Option.some.inj h
      exact ⟨_, hpass⟩
  · obtain ⟨time, -, rfl⟩ := Option.map_eq_some_iff.mp h
    exact ⟨_, (Transition.pass time _ s.answers).reaches⟩

theorem reaches_runFor (rules : RefreshRules σ) (turns : Nat) (s : Schedule σ) :
    ∃ log, Reaches rules s log (s.runFor rules turns) := by
  induction turns generalizing s with
  | zero => exact ⟨[], .refl⟩
  | succ turns ih =>
    rw [runFor]
    cases hnext : s.next? rules with
    | none => exact ⟨[], .refl⟩
    | some t =>
      obtain ⟨log, hfirst⟩ := reaches_next? hnext
      obtain ⟨later, hrest⟩ := ih t
      exact ⟨later ++ log, hfirst.trans hrest⟩

theorem reaches_spawned (rules : RefreshRules σ) (steps : List (Nat × Step σ)) (s : Schedule σ) :
    Reaches rules s [] (steps.foldl (fun s (delay, step) => s.spawn (.starting delay step)) s) := by
  induction steps generalizing s with
  | nil => exact .refl
  | cons first rest ih => exact ((Transition.spawn first.1 first.2).reaches).trans (ih _)

/-- What the virtual clock makes of some steps is a run. -/
theorem reaches_run (rules : RefreshRules σ) (s : Schedule σ) (steps : List (Nat × Step σ)) :
    ∃ log, Reaches rules s log (s.run rules steps).1 := by
  obtain ⟨log, hrun⟩ := reaches_runFor rules (turns rules steps)
    (steps.foldl (fun s (delay, step) => s.spawn (.starting delay step)) s)
  exact ⟨_, ((reaches_spawned rules steps s).trans hrun).next (.pass _ _ [])⟩

end Executor

end PoolGauge.Schedule
