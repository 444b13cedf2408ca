import PoolGauge.Cache.Refresher
import PoolGauge.Http.Response
import PoolGauge.RefreshMode

/-!
# Tasks on a virtual clock

Several tasks use one cache on a single executor. A task runs until it has to wait, for a time or
for its turn to refresh. Tasks that can run do so in the order in which they became able to; when
none can, the clock jumps to the next time that some task waits for.
-/
namespace PoolGauge

/-- What a task does. Times are in milliseconds. -/
inductive Step (σ : Type) where
  /-- Changes the source. -/
  | set (change : σ → σ)
  /-- Refreshes the cache. -/
  | refresh
  /-- Looks at the latest snapshot. -/
  | current
  /-- Takes the snapshot that a scrape serves. -/
  | scrape (mode : RefreshMode)
  /-- Waits. -/
  | sleep (duration : Nat)
  /-- Lets a background task refresh on a period for some time, then stops it. -/
  | interval (period duration : Nat)
  /-- Answers a request. -/
  | http (request : Request) (mode : RefreshMode)

inductive Answer where
  | nothing
  | told (outcome : Except Failure Published)
  | found (snapshot : Option Published)
  | response (response : Response)

/-- What a refresh is for. The background task goes on with its next tick. -/
inductive Purpose where
  | refresh
  | scrape
  | page (request : Request)
  | tick (next period : Nat)
deriving DecidableEq, Repr

/-- Where a task stands. -/
inductive Activity (σ : Type) where
  /-- About to wait for a while and then do a step. -/
  | starting (delay : Nat) (step : Step σ)
  /-- Waiting to do a step. -/
  | delayed (wakeAt : Nat) (step : Step σ)
  /-- Waiting to end. -/
  | sleeping (wakeAt : Nat)
  /-- Waiting to stop a background task. -/
  | watching (wakeAt : Nat) (background : Ticket)
  /-- A background task about to begin its ticks. -/
  | looping (period : Nat)
  /-- A background task waiting for its next tick. -/
  | ticking (deadline period : Nat)
  /-- A background task that was told to stop. -/
  | stopping
  /-- In a call of refresh, with the number of waits begun before the first one of its attempt. -/
  | refreshing (purpose : Purpose) (since : Nat)

/-- A task that has not ended, with the number of waits begun before its own. -/
structure Task (σ : Type) where
  id : Ticket
  activity : Activity σ
  order : Nat

/-- The tasks, the clock and the cache. Ended tasks leave their answers, the latest first. -/
structure Schedule (σ : Type) where
  now : Nat
  refresher : Refresher σ
  tasks : List (Task σ)
  ready : List Ticket
  started : Nat
  waits : Nat
  answers : List (Ticket × Answer)

/-- How late a tick may be without moving the ticks after it. -/
def tickTolerance : Nat := 5

/-- The deadline after a tick: one period after it, or one period from now if it comes too late,
so that missed ticks are not made up for. -/
def nextTick (deadline period now : Nat) : Nat :=
  if deadline + tickTolerance < now then now + period else deadline + period

namespace Schedule

variable {σ : Type}

def initial (source : σ) : Schedule σ :=
  ⟨0, .initial source, [], [], 0, 0, []⟩

def rest (s : Schedule σ) (id : Ticket) (activity : Activity σ) : Schedule σ :=
  { s with
    tasks := s.tasks.map fun task =>
      if task.id = id then ⟨id, activity, s.waits⟩ else task
    waits := s.waits + 1 }

def spawn (s : Schedule σ) (activity : Activity σ) : Schedule σ :=
  { s with
    tasks := s.tasks ++ [⟨s.started, activity, s.waits⟩]
    ready := s.ready ++ [s.started]
    started := s.started + 1
    waits := s.waits + 1 }

def close (s : Schedule σ) (id : Ticket) (answer : Answer) : Schedule σ :=
  { s with
    tasks := s.tasks.filter (·.id != id)
    answers := (id, answer) :: s.answers }

/-- Takes over a changed refresher. A call that has been let in can run. -/
def adopt (s : Schedule σ) (refresher : Refresher σ) : Schedule σ :=
  let admitted :=
    if refresher.granted? = s.refresher.granted? then [] else refresher.granted?.toList
  { s with refresher, ready := s.ready ++ admitted }

/-- Tells a task to stop. It does so in its turn, and keeps what it holds until then. -/
def tellStop (s : Schedule σ) (id : Ticket) : Schedule σ :=
  let s := s.rest id .stopping
  if id ∈ s.ready then s else { s with ready := s.ready ++ [id] }

/-- Stops a task wherever it is. -/
def stop (s : Schedule σ) (id : Ticket) : Schedule σ :=
  let s := s.adopt (s.refresher.abandon id)
  { s with tasks := s.tasks.filter (·.id != id) }

def afterRefresh (s : Schedule σ) (id : Ticket) (purpose : Purpose) (since : Nat)
    (result : Refresher σ × Progress) : Schedule σ :=
  let s := s.adopt result.1
  let cache := s.refresher.cache
  match result.2, purpose with
  | .waiting, _ => s.rest id (.refreshing purpose since)
  | .told outcome, .refresh => s.close id (.told outcome)
  | .told outcome, .scrape => s.close id (.found (cache.served outcome))
  | .told outcome, .page request =>
    s.close id (.response (.answer request cache (cache.served outcome)))
  | .told _, .tick next period =>
    let s := s.rest id (.ticking next period)
    if next ≤ s.now then { s with ready := id :: s.ready } else s

def callRefresh (rules : RefreshRules σ) (s : Schedule σ) (id : Ticket) (purpose : Purpose) :
    Schedule σ :=
  s.afterRefresh id purpose s.waits (s.refresher.arrive rules id s.now)

def begin (rules : RefreshRules σ) (s : Schedule σ) (id : Ticket) : Step σ → Schedule σ
  | .set change =>
    let refresher := { s.refresher with source := change s.refresher.source }
    { s with refresher }.close id .nothing
  | .refresh => s.callRefresh rules id .refresh
  | .current => s.close id (.found s.refresher.cache.current)
  | .scrape .interval => s.close id (.found s.refresher.cache.current)
  | .scrape .onScrape => s.callRefresh rules id .scrape
  | .sleep duration =>
    if duration = 0 then s.close id .nothing else s.rest id (.sleeping (s.now + duration))
  | .interval period duration =>
    if duration = 0 then s.close id .nothing
    else
      let background := s.started
      (s.rest id (.watching (s.now + duration) background)).spawn (.looping period)
  | .http request mode =>
    if request.isScrape ∧ mode = .onScrape then s.callRefresh rules id (.page request)
    else
      let cache := s.refresher.cache
      s.close id (.response (.answer request cache cache.current))

def tick (rules : RefreshRules σ) (s : Schedule σ) (id : Ticket) (deadline period : Nat) :
    Schedule σ :=
  s.callRefresh rules id (.tick (nextTick deadline period s.now) period)

/-- Lets a task run until it waits or ends. A background task without a period does nothing. -/
def runTask (rules : RefreshRules σ) (s : Schedule σ) (task : Task σ) : Schedule σ :=
  match task.activity with
  | .starting 0 step => s.begin rules task.id step
  | .starting delay step => s.rest task.id (.delayed (s.now + delay) step)
  | .delayed _ step => s.begin rules task.id step
  | .sleeping _ => s.close task.id .nothing
  | .watching _ background => (s.tellStop background).close task.id .nothing
  | .stopping => s.stop task.id
  | .looping 0 => s.stop task.id
  | .looping period => s.tick rules task.id s.now period
  | .ticking deadline period => s.tick rules task.id deadline period
  | .refreshing purpose since =>
    let since := if (s.refresher.attempt? task.id).isSome then since else s.waits
    s.afterRefresh task.id purpose since (s.refresher.wake rules task.id s.now)

def alarm? (rules : RefreshRules σ) (s : Schedule σ) (task : Task σ) : Option Nat :=
  match task.activity with
  | .delayed wakeAt _ | .sleeping wakeAt | .watching wakeAt _ => some wakeAt
  | .ticking deadline _ => some deadline
  | .refreshing .. => s.refresher.alarm? rules task.id
  | .starting .. | .looping _ | .stopping => none

/-- The number of waits begun before the one of a task that ends at a time. A call of refresh waits
for its deadline as long as its attempt lasts. -/
def orderAt (rules : RefreshRules σ) (s : Schedule σ) (time : Nat) (task : Task σ) : Nat :=
  match task.activity with
  | .refreshing _ since =>
    if s.refresher.deadline? rules task.id = some time then since else task.order
  | _ => task.order

/-- Moves the clock to the next time that some task waits for. The tasks that wait for it can run,
in the order in which their waits began. -/
def jump? (rules : RefreshRules σ) (s : Schedule σ) : Option (Schedule σ) :=
  (s.tasks.filterMap (s.alarm? rules)).min?.map fun time =>
    let due := s.tasks.filter fun task => s.alarm? rules task = some time
    { s with
      now := time
      ready := (due.mergeSort fun a b =>
        decide (s.orderAt rules time a ≤ s.orderAt rules time b)).map Task.id }

/-- Lets the next task run that can, or else moves the clock. There is no next schedule when every
task has ended. -/
def next? (rules : RefreshRules σ) (s : Schedule σ) : Option (Schedule σ) :=
  match s.ready with
  | id :: rest =>
    let s := { s with ready := rest }
    match s.tasks.find? (·.id == id) with
    | some task => some (s.runTask rules task)
    | none => some s
  | [] => s.jump? rules

def runFor (rules : RefreshRules σ) : Nat → Schedule σ → Schedule σ
  | 0, s => s
  | turns + 1, s =>
    match s.next? rules with
    | some next => runFor rules turns next
    | none => s

/-- The milliseconds that a step takes by itself. -/
def ownTime : Step σ → Nat
  | .sleep duration => duration
  | .interval _ duration => duration
  | _ => 0

/-- Turns that are enough for steps with their delays: no task waits longer than its own time and
the attempts of all others, and at one time no task runs more often than a late tick can be
followed by others. -/
def turns (rules : RefreshRules σ) (steps : List (Nat × Step σ)) : Nat :=
  let tasks := 2 * steps.length
  let own := steps.foldl (fun time (delay, step) => time + delay + ownTime step) 0
  (own + (tasks + 1) * rules.limit + 2) * (4 * (tickTolerance + 1) * (tasks + 1))

/-- Lets tasks do some steps, each after a delay, until all have ended. The answers come in the
order in which the tasks ended, with the places of their steps. -/
def run (rules : RefreshRules σ) (s : Schedule σ) (steps : List (Nat × Step σ)) :
    Schedule σ × List (Nat × Answer) :=
  let first := s.started
  let spawned := steps.foldl (fun s (delay, step) => s.spawn (.starting delay step)) s
  let final := spawned.runFor rules (turns rules steps)
  ({ final with answers := [] },
    final.answers.reverse.map fun (id, answer) => (id - first, answer))

end Schedule

end PoolGauge
