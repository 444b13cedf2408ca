import PoolGauge.Proofs.Cache.Turns

/-!
# What a refresher does is a sequence of moves

The questions that a refresher asks are found out with a source that records them, which changes
nothing else.
-/
namespace PoolGauge

variable {σ : Type}

/-- The source that also records the questions it is asked, the latest first. -/
def Source.recorded (source : Source σ) : Source (σ × List Query) where
  call query s := ((source.call query s.1).1, (source.call query s.1).2, query :: s.2)
  reply query s := ((source.reply query s.1).1, (source.reply query s.1).2, s.2)
  clock := source.clock

def RefreshRules.recorded (rules : RefreshRules σ) : RefreshRules (σ × List Query) :=
  ⟨rules.source.recorded, rules.limit⟩

def Progress.events (c : Ticket) : Progress → Log
  | .waiting => []
  | .told outcome => [.told c outcome]

/-- What a task does to a refresher: it begins its call, goes on with it or gives it up, or it
changes the source. -/
inductive Act (σ : Type) where
  | arrive
  | wake
  | abandon
  | set (change : σ → σ)

namespace Refresher

/-- The refresher whose source records, with the questions asked so far. -/
def recorded (r : Refresher σ) (asked : List Query) : Refresher (σ × List Query) :=
  ⟨r.cache, (r.source, asked), r.holder, r.queue⟩

/-- The call that collects and those that wait. A call that has been let in waits until it goes
on. -/
def turns (r : Refresher σ) : Turns :=
  match r.holder with
  | none => ⟨r.cache, none, r.queue⟩
  | some (c, .granted seen) => ⟨r.cache, none, (c, seen) :: r.queue⟩
  | some (c, .collecting _) => ⟨r.cache, some c, r.queue⟩

/-- The refresher after an act, and what the call has come to. -/
def perform (rules : RefreshRules σ) (r : Refresher σ) (c : Ticket) (now : Nat) :
    Act σ → Refresher σ × Progress
  | .arrive => r.arrive rules c now
  | .wake => r.wake rules c now
  | .abandon => (r.abandon c, .waiting)
  | .set change => ({ r with source := change r.source }, .waiting)

/-- What happened to a call while a refresher whose source records let it run. -/
def observed (c : Ticket) (result : Refresher (σ × List Query) × Progress) : Log :=
  result.2.events c ++ result.1.source.2.map (.asked c)

def events (rules : RefreshRules σ) (r : Refresher σ) (c : Ticket) (now : Nat) : Act σ → Log
  | .arrive => observed c ((r.recorded []).arrive rules.recorded c now) ++ [.arrived c]
  | .wake => observed c ((r.recorded []).wake rules.recorded c now)
  | .abandon => if c ∈ r.turns.calls then [.dropped c] else []
  | .set _ => []

/-- No call waits for its turn while nobody has it. -/
def Settled (r : Refresher σ) : Prop :=
  r.holder = none → r.queue = []

end Refresher

theorem Inquiry.advance_recorded {α : Type} (source : Source σ) (walk : Inquiry α) (state : σ)
    (asked : List Query) : ∃ new,
    walk.advance source.recorded (state, asked) =
      ((walk.advance source state).1, (walk.advance source state).2, new ++ asked) ∧
    (new = [] → ∃ result, walk = .done result) := by
  induction walk generalizing state asked with
  | done result => exact ⟨[], rfl, fun _ => ⟨result, rfl⟩⟩
  | ask query next ih =>
    simp only [Inquiry.advance, Source.recorded]
    cases hcall : source.call query state with
    | mk delay called =>
      cases delay with
      | zero =>
        obtain ⟨new, heq, -⟩ := ih (source.reply query called).1 (source.reply query called).2
          (query :: asked)
        refine ⟨new ++ [query], ?_, fun hnil => absurd hnil (by simp)⟩
        simp only [List.append_assoc, List.singleton_append]
        exact heq
      | succ delay => exact ⟨[query], rfl, fun hnil => absurd hnil (by simp)⟩

/-- A walk that begins with a question asks it first. -/
theorem Inquiry.advance_ask_recorded {α : Type} (source : Source σ) (query : Query)
    (next : query.Reply → Inquiry α) (state : σ) (asked : List Query) : ∃ new,
    ((Inquiry.ask query next).advance source.recorded (state, asked)).2.2 =
      new ++ query :: asked := by
  simp only [Inquiry.advance, Source.recorded]
  cases source.call query state with
  | mk delay called =>
    cases delay with
    | zero =>
      obtain ⟨new, heq, -⟩ := (next (source.reply query called).1).advance_recorded source
        (source.reply query called).2 (query :: asked)
      exact ⟨new, congrArg (fun advanced => advanced.2.2) heq⟩
    | succ delay => exact ⟨[], rfl⟩

namespace Refresher

variable (rules : RefreshRules σ) (r : Refresher σ) (c : Ticket) (now : Nat)

@[simp] theorem cache_release : r.release.cache = r.cache := by
  rw [release]
  split <;> rfl

@[simp] theorem source_release : r.release.source = r.source := by
  rw [release]
  split <;> rfl

@[simp] theorem cache_abandon : (r.abandon c).cache = r.cache := by
  rw [abandon]
  split
  · split
    · exact r.cache_release
    · rfl
  · rfl

@[simp] theorem source_abandon : (r.abandon c).source = r.source := by
  rw [abandon]
  split
  · split
    · exact r.source_release
    · rfl
  · rfl

theorem turns_release : r.release.turns = ⟨r.cache, none, r.queue⟩ := by
  obtain ⟨cache, source, holder, queue⟩ := r
  cases queue with
  | nil => rfl
  | cons w rest => rfl

theorem release_eq : r.release = { r with
    holder := r.queue.head?.map fun next => (next.1, .granted next.2)
    queue := r.queue.tail } := by
  obtain ⟨cache, source, holder, queue⟩ := r
  cases queue with
  | nil => rfl
  | cons next rest => rfl

theorem settled_release : r.release.Settled := by
  obtain ⟨cache, source, holder, queue⟩ := r
  cases queue with
  | nil => exact fun _ => rfl
  | cons w rest => exact fun hnone => nomatch hnone

theorem release_recorded (asked : List Query) :
    (r.recorded asked).release = r.release.recorded asked := by
  obtain ⟨cache, source, holder, queue⟩ := r
  cases queue with
  | nil => rfl
  | cons w rest => rfl

theorem finish_recorded (asked : List Query) (outcome : Except Failure Snapshot) :
    (r.recorded asked).finish outcome =
      ((r.finish outcome).1.recorded asked, (r.finish outcome).2) := by
  simp only [finish, ← release_recorded]
  rfl

theorem finish_moves (outcome : Except Failure Snapshot) :
    Turns.Moves ⟨r.cache, some c, r.queue⟩ ((r.finish outcome).2.events c)
      (r.finish outcome).1.turns := by
  rw [finish, turns_release]
  exact (Turns.Moves.refl _).snoc (.finish outcome)

section Proceed

variable (started : Nat) (walk : Inquiry (Except Failure Inventory))

theorem proceed_recorded (asked : List Query) : ∃ new,
    (r.recorded asked).proceed rules.recorded c started now walk =
      ((r.proceed rules c started now walk).1.recorded (new ++ asked),
        (r.proceed rules c started now walk).2) ∧
    (new = [] → ∃ result, walk = .done result) := by
  obtain ⟨new, hadvance, hnew⟩ := walk.advance_recorded rules.source r.source asked
  refine ⟨new, ?_, hnew⟩
  have hrecorded : walk.advance rules.recorded.source (r.recorded asked).source = _ := hadvance
  rw [proceed, proceed, hrecorded]
  obtain ⟨ended | pending, source⟩ := walk.advance rules.source r.source
  · exact finish_recorded { r with source } (new ++ asked) _
  · by_cases hlate : started + rules.limit ≤ now
    · simp only [if_pos hlate, if_pos (show started + rules.recorded.limit ≤ now from hlate)]
      exact finish_recorded { r with source } (new ++ asked) _
    · simp only [if_neg hlate, if_neg (show ¬ started + rules.recorded.limit ≤ now from hlate)]
      rfl

theorem proceed_moves :
    Turns.Moves ⟨r.cache, some c, r.queue⟩ ((r.proceed rules c started now walk).2.events c)
      (r.proceed rules c started now walk).1.turns := by
  rw [proceed]
  obtain ⟨ended | pending, source⟩ := walk.advance rules.source r.source
  · exact finish_moves { r with source } c _
  · dsimp only
    split
    · exact finish_moves { r with source } c _
    · exact .refl _

theorem source_proceed :
    (r.proceed rules c started now walk).1.source = (walk.advance rules.source r.source).2 := by
  rw [proceed]
  obtain ⟨ended | pending, source⟩ := walk.advance rules.source r.source
  · simp [finish]
  · dsimp only
    split
    · simp [finish]
    · rfl

theorem settled_proceed : (r.proceed rules c started now walk).1.Settled := by
  rw [proceed]
  obtain ⟨ended | pending, source⟩ := walk.advance rules.source r.source
  · exact settled_release _
  · dsimp only
    split
    · exact settled_release _
    · exact fun hnone => nomatch hnone

end Proceed

theorem enter_recorded (seen : UInt64) : ∃ new,
    (r.recorded []).enter rules.recorded c seen now =
      ((r.enter rules c seen now).1.recorded new, (r.enter rules c seen now).2) ∧
    Turns.Moves ⟨r.cache, none, (c, seen) :: r.queue⟩
      ((r.enter rules c seen now).2.events c ++ new.map (.asked c))
      (r.enter rules c seen now).1.turns := by
  rw [enter, enter]
  by_cases hsame : r.cache.generation = seen
  · rw [if_pos hsame, if_pos (show (r.recorded []).cache.generation = seen from hsame)]
    obtain ⟨new, heq, hnew⟩ := proceed_recorded rules r c now now Collection.inventory.run []
    rw [List.append_nil] at heq
    refine ⟨new, heq, Turns.Moves.trans ?_ (proceed_moves rules r c now now _)⟩
    -- a collection begins with a question
    obtain ⟨asked, query, rfl⟩ : ∃ asked query, new = asked ++ [query] := by
      rcases List.eq_nil_or_concat' new with hnil | hlast
      · obtain ⟨result, hdone⟩ := hnew hnil
        cases hdone
      · exact hlast
    rw [List.map_append]
    exact ((Turns.Moves.refl _).snoc (.start query hsame)).trans (.asks asked)
  · rw [if_neg hsame, if_neg (show ¬ (r.recorded []).cache.generation = seen from hsame),
      release_recorded, turns_release]
    exact ⟨[], rfl, (Turns.Moves.refl _).snoc (.share hsame)⟩

theorem settled_enter (seen : UInt64) : (r.enter rules c seen now).1.Settled := by
  rw [enter]
  split
  · exact settled_proceed rules r c now now _
  · exact settled_release r

variable {rules r c now}

theorem arrive_recorded (rules : RefreshRules σ) (now : Nat) (hsettled : r.Settled)
    (hfresh : c ∉ r.turns.calls) : ∃ new,
    (r.recorded []).arrive rules.recorded c now =
      ((r.arrive rules c now).1.recorded new, (r.arrive rules c now).2) ∧
    Turns.Moves r.turns
      ((r.arrive rules c now).2.events c ++ new.map (.asked c) ++ [.arrived c])
      (r.arrive rules c now).1.turns := by
  have harrive := (Turns.Moves.refl r.turns).snoc (.arrive hfresh)
  obtain ⟨cache, source, holder, queue⟩ := r
  cases holder with
  | none =>
    obtain rfl : queue = [] := hsettled rfl
    obtain ⟨new, heq, hmoves⟩ :=
      enter_recorded rules ⟨cache, source, none, []⟩ c now cache.generation
    exact ⟨new, heq, harrive.trans hmoves⟩
  | some holder =>
    obtain ⟨d, seen | attempt⟩ := holder
    · exact ⟨[], rfl, harrive⟩
    · exact ⟨[], rfl, harrive⟩

theorem settled_arrive : (r.arrive rules c now).1.Settled := by
  rw [arrive]
  split
  · exact settled_enter rules r c now _
  · rename_i holder hholder
    exact fun hnone => nomatch hholder.symm.trans hnone

theorem wake_of_granted {seen : UInt64} (h : r.holder = some (c, .granted seen)) :
    r.wake rules c now = r.enter rules c seen now := by
  simp only [wake, h, if_pos]

theorem wake_of_collecting {attempt : Attempt} (h : r.holder = some (c, .collecting attempt)) :
    r.wake rules c now =
      if attempt.replyAt ≤ now then
        { r with source := (rules.source.reply attempt.query r.source).2 }.proceed rules c
          attempt.started now (attempt.next (rules.source.reply attempt.query r.source).1)
      else if attempt.started + rules.limit ≤ now then r.finish (.error (lateFailure rules.limit))
      else (r, .waiting) := by
  simp only [wake, h, if_pos]

theorem wake_of_other (h : ∀ hold, r.holder ≠ some (c, hold)) :
    r.wake rules c now = (r, .waiting) := by
  rw [wake]
  split
  · rename_i d hold hholder
    refine if_neg fun hd => h hold ?_
    rw [hholder, hd]
  · rfl

theorem turns_of_granted {seen : UInt64} (h : r.holder = some (c, .granted seen)) :
    r.turns = ⟨r.cache, none, (c, seen) :: r.queue⟩ := by
  simp only [turns, h]

theorem turns_of_collecting {attempt : Attempt} (h : r.holder = some (c, .collecting attempt)) :
    r.turns = ⟨r.cache, some c, r.queue⟩ := by
  simp only [turns, h]

theorem wake_recorded (rules : RefreshRules σ) (r : Refresher σ) (c : Ticket) (now : Nat) : ∃ new,
    (r.recorded []).wake rules.recorded c now =
      ((r.wake rules c now).1.recorded new, (r.wake rules c now).2) ∧
    Turns.Moves r.turns ((r.wake rules c now).2.events c ++ new.map (.asked c))
      (r.wake rules c now).1.turns := by
  by_cases hturn : ∃ hold, r.holder = some (c, hold)
  · obtain ⟨seen | attempt, hholder⟩ := hturn
    · rw [wake_of_granted hholder, turns_of_granted hholder,
        wake_of_granted (r := r.recorded []) hholder]
      exact enter_recorded rules r c now seen
    · rw [wake_of_collecting hholder, wake_of_collecting (r := r.recorded []) hholder]
      by_cases hdue : attempt.replyAt ≤ now
      · rw [if_pos hdue, if_pos hdue, turns_of_collecting hholder]
        obtain ⟨new, heq, -⟩ := proceed_recorded rules
          { r with source := (rules.source.reply attempt.query r.source).2 } c now attempt.started
          (attempt.next (rules.source.reply attempt.query r.source).1) []
        rw [List.append_nil] at heq
        exact ⟨new, heq, Turns.Moves.trans (.asks new) (proceed_moves rules
          { r with source := (rules.source.reply attempt.query r.source).2 } c now
          attempt.started _)⟩
      · rw [if_neg hdue, if_neg hdue]
        by_cases hlate : attempt.started + rules.limit ≤ now
        · rw [if_pos hlate, if_pos (show attempt.started + rules.recorded.limit ≤ now from hlate),
            turns_of_collecting hholder]
          exact ⟨[], finish_recorded r [] _, finish_moves r c _⟩
        · rw [if_neg hlate,
            if_neg (show ¬ attempt.started + rules.recorded.limit ≤ now from hlate)]
          exact ⟨[], rfl, .refl _⟩
  · have hother : ∀ hold, r.holder ≠ some (c, hold) := fun hold heq => hturn ⟨hold, heq⟩
    rw [wake_of_other hother, wake_of_other (r := r.recorded []) hother]
    exact ⟨[], rfl, .refl _⟩

theorem settled_wake (h : r.Settled) : (r.wake rules c now).1.Settled := by
  by_cases hturn : ∃ hold, r.holder = some (c, hold)
  · obtain ⟨seen | attempt, hholder⟩ := hturn
    · rw [wake_of_granted hholder]
      exact settled_enter rules r c now seen
    · rw [wake_of_collecting hholder]
      split
      · exact settled_proceed rules _ c now attempt.started _
      · split
        · exact settled_release _
        · exact h
  · rw [wake_of_other fun hold heq => hturn ⟨hold, heq⟩]
    exact h

/-- A call that gives up its turn leaves it to the call behind it. -/
theorem abandon_of_holder {hold : Hold} (hholder : r.holder = some (c, hold)) :
    r.abandon c = r.release := by
  rw [abandon, hholder]
  exact if_pos rfl

theorem abandon_of_other {d : Ticket} {hold : Hold} (hholder : r.holder = some (d, hold))
    (hd : d ≠ c) : r.abandon c = { r with queue := r.queue.filter (·.1 != c) } := by
  rw [abandon, hholder]
  exact if_neg hd

theorem turns_abandon (hsettled : r.Settled) (hnodup : r.turns.calls.Nodup) :
    (r.abandon c).turns = r.turns.without c := by
  obtain ⟨cache, source, holder, queue⟩ := r
  cases holder with
  | none =>
    obtain rfl : queue = [] := hsettled rfl
    rfl
  | some holder =>
    obtain ⟨d, hold⟩ := holder
    by_cases hd : d = c
    · subst hd
      rw [abandon]
      simp only [if_pos, turns_release]
      cases hold with
      | granted seen =>
        have hrest : queue.filter (·.1 != d) = queue :=
          Turns.filter_waiters (List.nodup_cons.mp hnodup).1
        simp [turns, Turns.without, hrest]
      | collecting attempt =>
        have hrest : queue.filter (·.1 != d) = queue :=
          Turns.filter_waiters (List.nodup_cons.mp hnodup).1
        simp [turns, Turns.without, hrest, Option.filter]
    · cases hold with
      | granted seen => simp [abandon, turns, Turns.without, hd]
      | collecting attempt => simp [abandon, turns, Turns.without, hd, Option.filter]

theorem abandon_moves (hsettled : r.Settled) (hnodup : r.turns.calls.Nodup) :
    Turns.Moves r.turns (if c ∈ r.turns.calls then [.dropped c] else []) (r.abandon c).turns := by
  rw [turns_abandon hsettled hnodup]
  split
  · rename_i hinside
    exact (Turns.Moves.refl _).snoc (.leave hinside)
  · rename_i houtside
    rw [Turns.without_of_notMem houtside]
    exact .refl _

theorem settled_abandon (h : r.Settled) : (r.abandon c).Settled := by
  rw [abandon]
  split
  · rename_i d hold hholder
    split
    · exact settled_release r
    · exact fun hnone => nomatch hholder.symm.trans hnone
  · exact h

theorem events_arrive (hsettled : r.Settled) (hfresh : c ∉ r.turns.calls) :
    Turns.Moves r.turns (r.events rules c now .arrive) (r.arrive rules c now).1.turns ∧
    ∃ before, r.events rules c now .arrive = (r.arrive rules c now).2.events c ++ before := by
  obtain ⟨new, heq, hmoves⟩ := arrive_recorded rules now hsettled hfresh
  have hevents : r.events rules c now .arrive =
      (r.arrive rules c now).2.events c ++ new.map (.asked c) ++ [.arrived c] := by
    rw [events, observed, heq]
    rfl
  rw [hevents]
  exact ⟨hmoves, _, List.append_assoc ..⟩

theorem events_wake :
    Turns.Moves r.turns (r.events rules c now .wake) (r.wake rules c now).1.turns ∧
    ∃ before, r.events rules c now .wake = (r.wake rules c now).2.events c ++ before := by
  obtain ⟨new, heq, hmoves⟩ := wake_recorded rules r c now
  have hevents : r.events rules c now .wake =
      (r.wake rules c now).2.events c ++ new.map (.asked c) := by
    rw [events, observed, heq]
    rfl
  rw [hevents]
  exact ⟨hmoves, _, rfl⟩

section First

theorem inventory_run_ask : ∃ next, Collection.inventory.run = .ask .listPools next :=
  ⟨_, rfl⟩

theorem observed_enter {seen : UInt64} (hsame : r.cache.generation = seen) : ∃ more,
    observed c ((r.recorded []).enter rules.recorded c seen now) =
      more ++ [.asked c .listPools] := by
  obtain ⟨next, hbegin⟩ := inventory_run_ask
  obtain ⟨new, hnew⟩ := Inquiry.advance_ask_recorded rules.source .listPools next r.source []
  have hsource : ((r.recorded []).proceed rules.recorded c now now
      (.ask .listPools next)).1.source.2 = new ++ [.listPools] := by
    rw [source_proceed]
    exact hnew
  rw [enter, if_pos (show (r.recorded []).cache.generation = seen from hsame), hbegin, observed,
    hsource, List.map_append, ← List.append_assoc]
  exact ⟨_, rfl⟩

/-- A call that arrives while nobody has the turn asks for the pools at once. -/
theorem events_arrive_of_free (hfree : r.holder = none) :
    ∃ more, r.events rules c now .arrive = more ++ [.asked c .listPools, .arrived c] := by
  have henter : ∃ more, observed c ((r.recorded []).enter rules.recorded c r.cache.generation now) =
      more ++ [.asked c .listPools] := observed_enter rfl
  obtain ⟨more, hmore⟩ := henter
  have harrive : (r.recorded []).arrive rules.recorded c now =
      (r.recorded []).enter rules.recorded c r.cache.generation now := by
    rw [arrive, show (r.recorded []).holder = none from hfree]
    rfl
  rw [events, harrive, hmore]
  exact ⟨more, List.append_assoc ..⟩

/-- A call that goes on when its turn has come asks for the pools first if the generation is still
the one that it saw. -/
theorem events_wake_of_granted {seen : UInt64} (hholder : r.holder = some (c, .granted seen))
    (hsame : r.cache.generation = seen) :
    ∃ more, r.events rules c now .wake = more ++ [.asked c .listPools] := by
  rw [events, wake_of_granted (r := r.recorded []) hholder]
  exact observed_enter hsame

/-- Else it shares what the cache has come to. -/
theorem events_wake_of_differs {seen : UInt64} (hholder : r.holder = some (c, .granted seen))
    (hdiffers : r.cache.generation ≠ seen) :
    r.events rules c now .wake = [.told c r.cache.shared] := by
  rw [events, wake_of_granted (r := r.recorded []) hholder, enter,
    if_neg (show (r.recorded []).cache.generation ≠ seen from hdiffers), release_recorded]
  rfl

end First

theorem call_observed {result : Refresher (σ × List Query) × Progress} :
    ∀ e ∈ observed c result, e.call = c := by
  intro e he
  rcases List.mem_append.mp he with htold | hasked
  · cases hresult : result.2 with
    | waiting => simp [Progress.events, hresult] at htold
    | told outcome =>
      rw [hresult] at htold
      rw [List.mem_singleton.mp htold]
      rfl
  · obtain ⟨query, -, rfl⟩ := List.mem_map.mp hasked
    rfl

theorem call_events {act : Act σ} : ∀ e ∈ r.events rules c now act, e.call = c := by
  intro e he
  cases act with
  | arrive =>
    rcases List.mem_append.mp he with hobserved | harrived
    · exact call_observed e hobserved
    · rw [List.mem_singleton.mp harrived]
      rfl
  | wake => exact call_observed e he
  | abandon =>
    rw [events] at he
    split at he
    · rw [List.mem_singleton.mp he]
      rfl
    · exact absurd he (List.not_mem_nil)
  | set change => exact absurd he (List.not_mem_nil)

/-- A refresher that is settled and whose turns are in order after what lawfully happened. -/
structure Sound (r : Refresher σ) (log : Log) : Prop where
  settled : r.Settled
  orderly : r.turns.Orderly log
  lawful : log.Lawful

theorem sound_initial (source : σ) : (initial source).Sound [] where
  settled := fun _ => rfl
  orderly := {
    records := Cache.records_empty
    nodup := List.nodup_nil
    phases := fun _ => rfl
    line := ⟨nofun, nofun, List.Pairwise.nil⟩
    calm := nofun }
  lawful := Log.lawful_nil

namespace Sound

variable {log : Log} {act : Act σ} {d : Ticket}

/-- Whatever is done to a refresher is a sequence of moves if no call arrives that is there
already. -/
theorem moves (h : r.Sound log) (hfresh : act = .arrive → c ∉ r.turns.calls) :
    Turns.Moves r.turns (r.events rules c now act) (r.perform rules c now act).1.turns := by
  cases act with
  | arrive => exact (events_arrive h.settled (hfresh rfl)).1
  | wake => exact events_wake.1
  | abandon => exact abandon_moves h.settled h.orderly.nodup
  | set change => exact .refl _

/-- Whatever is done to a refresher keeps it sound if no call arrives that is there already. -/
theorem perform (h : r.Sound log) (hfresh : act = .arrive → c ∉ r.turns.calls) :
    (r.perform rules c now act).1.Sound (r.events rules c now act ++ log) := by
  obtain ⟨horderly, hlawful⟩ := h.orderly.moves h.lawful (h.moves hfresh)
  refine ⟨?_, horderly, hlawful⟩
  cases act with
  | arrive => exact settled_arrive
  | wake => exact settled_wake h.settled
  | abandon => exact settled_abandon h.settled
  | set change => exact h.settled

theorem records (h : r.Sound log) : r.cache.Records log.attempts := by
  have hcache : r.turns.cache = r.cache := by
    rw [turns]
    split <;> rfl
  rw [← hcache]
  exact h.orderly.records

theorem mem_calls_iff (h : r.Sound log) : c ∈ r.turns.calls ↔ log.phase c ≠ .outside := by
  rw [Turns.mem_calls_iff, h.orderly.phases]

theorem mem_calls_perform_iff (h : r.Sound log) (hfresh : act = .arrive → c ∉ r.turns.calls)
    (hd : d ≠ c) : d ∈ (r.perform rules c now act).1.turns.calls ↔ d ∈ r.turns.calls := by
  have hothers : ∀ e ∈ r.events rules c now act, e.call ≠ d := by
    intro e he heq
    exact hd (heq.symm.trans (call_events e he))
  rw [(h.perform hfresh).mem_calls_iff, h.mem_calls_iff, Log.phase_append_of_ne hothers]

/-- A call that has been told an outcome has ended. -/
theorem notMem_calls_of_told (h : r.Sound log) (hfresh : act = .arrive → c ∉ r.turns.calls)
    {outcome : Outcome} (htold : (r.perform rules c now act).2 = .told outcome) :
    c ∉ (r.perform rules c now act).1.turns.calls := by
  obtain ⟨before, hbefore⟩ : ∃ before,
      r.events rules c now act = (Progress.told outcome).events c ++ before := by
    rw [← htold]
    cases act with
    | arrive => exact (events_arrive h.settled (hfresh rfl)).2
    | wake => exact events_wake.2
    | abandon | set change => cases htold
  rw [(h.perform hfresh).mem_calls_iff, hbefore, not_not]
  exact Log.phase_cons_self (.told c outcome) (before ++ log)

theorem notMem_calls_abandon (h : r.Sound log) : c ∉ (r.abandon c).turns.calls := by
  rw [turns_abandon h.settled h.orderly.nodup, Turns.mem_calls_iff, not_not]
  exact r.turns.phase_without c

end Sound

end Refresher

end PoolGauge
