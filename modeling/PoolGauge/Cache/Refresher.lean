import PoolGauge.Cache.Basic
import PoolGauge.Collection

/-!
# Refreshing the cache

Calls of refresh take turns in the order in which they arrive. A call whose turn it is collects a
new snapshot, unless an attempt finished since the call arrived; then it shares that outcome. An
attempt ends with its collection or at its deadline, whichever comes first, and a collection that
ends at the deadline counts as ended.
-/
namespace PoolGauge

/-- A question of a walk whose reply takes some time. -/
structure Pending (α : Type) where
  query : Query
  next : query.Reply → Inquiry α
  delay : Nat

/-- Goes on with a walk until it ends or has to wait for a reply. -/
def Inquiry.advance {σ α : Type} (source : Source σ) : Inquiry α → σ → (α ⊕ Pending α) × σ
  | .done result, state => (.inl result, state)
  | .ask query next, state =>
    match source.call query state with
    | (0, called) =>
      let (reply, replied) := source.reply query called
      (next reply).advance source replied
    | (delay + 1, called) => (.inr ⟨query, next, delay + 1⟩, called)

/-- The number of a call of refresh. -/
abbrev Ticket : Type := Nat

/-- A collection that waits for the reply to a question. Times are in milliseconds. -/
structure Attempt where
  started : Nat
  query : Query
  next : query.Reply → Inquiry (Except Failure Inventory)
  replyAt : Nat

/-- How far the call is whose turn it is: it has been let in but has not gone on yet, having seen
a generation when it arrived, or it is collecting. -/
inductive Hold where
  | granted (seen : UInt64)
  | collecting (attempt : Attempt)

/-- The cache, the source, the call whose turn it is, and the calls that wait for theirs with the
generation that each saw when it arrived. -/
structure Refresher (σ : Type) where
  cache : Cache
  source : σ
  holder : Option (Ticket × Hold)
  queue : List (Ticket × UInt64)

/-- What a call of refresh has come to. -/
inductive Progress where
  | waiting
  | told (outcome : Except Failure Published)

/-- How a source behaves, and the milliseconds that an attempt may take. -/
structure RefreshRules (σ : Type) where
  source : Source σ
  limit : Nat

namespace Refresher

variable {σ : Type}

def initial (source : σ) : Refresher σ :=
  ⟨.empty, source, none, []⟩

/-- Gives the turn to the call that has waited longest. -/
def release (r : Refresher σ) : Refresher σ :=
  match r.queue with
  | [] => { r with holder := none }
  | (ticket, seen) :: rest => { r with holder := some (ticket, .granted seen), queue := rest }

/-- The call that has been let in but has not gone on yet. -/
def granted? (r : Refresher σ) : Option Ticket :=
  match r.holder with
  | some (ticket, .granted _) => some ticket
  | _ => none

def lateFailure (limit : Nat) : Failure :=
  .timeout "Snapshot collection" (.ofMilliseconds limit)

/-- The snapshot of an inventory that was started at one time and finished at another. -/
def stamp (source : Source σ) (started now : Nat) (inventory : Inventory) : Snapshot :=
  { inventory with
    collectedAt := source.clock now
    duration := .ofMilliseconds (now - started) }

def finish (r : Refresher σ) (outcome : Except Failure Snapshot) : Refresher σ × Progress :=
  ({ r with cache := r.cache.finish outcome }.release, .told (r.cache.tell outcome))

/-- Goes on with the walk of an attempt, which ends or waits for another reply. -/
def proceed (rules : RefreshRules σ) (r : Refresher σ) (ticket : Ticket) (started now : Nat)
    (walk : Inquiry (Except Failure Inventory)) : Refresher σ × Progress :=
  match walk.advance rules.source r.source with
  | (.inl outcome, source) => { r with source }.finish (outcome.map (stamp rules.source started now))
  | (.inr pending, source) =>
    if started + rules.limit ≤ now then
      { r with source }.finish (.error (lateFailure rules.limit))
    else
      ({ r with
          source
          holder := some (ticket, .collecting
            ⟨started, pending.query, pending.next, now + pending.delay⟩) },
        .waiting)

/-- Takes the turn of a call that saw a generation when it arrived. -/
def enter (rules : RefreshRules σ) (r : Refresher σ) (ticket : Ticket) (seen : UInt64)
    (now : Nat) : Refresher σ × Progress :=
  if r.cache.generation = seen then
    r.proceed rules ticket now now Collection.inventory.run
  else (r.release, .told r.cache.shared)

def arrive (rules : RefreshRules σ) (r : Refresher σ) (ticket : Ticket) (now : Nat) :
    Refresher σ × Progress :=
  match r.holder with
  | none => r.enter rules ticket r.cache.generation now
  | some _ => ({ r with queue := r.queue ++ [(ticket, r.cache.generation)] }, .waiting)

/-- A call goes on whose turn has come, whose reply is due, or whose deadline has passed; a reply
that is due comes first. -/
def wake (rules : RefreshRules σ) (r : Refresher σ) (ticket : Ticket) (now : Nat) :
    Refresher σ × Progress :=
  match r.holder with
  | some (holder, hold) =>
    if holder = ticket then
      match hold with
      | .granted seen => r.enter rules ticket seen now
      | .collecting attempt =>
        if attempt.replyAt ≤ now then
          let (reply, source) := rules.source.reply attempt.query r.source
          { r with source }.proceed rules ticket attempt.started now (attempt.next reply)
        else if attempt.started + rules.limit ≤ now then
          r.finish (.error (lateFailure rules.limit))
        else (r, .waiting)
    else (r, .waiting)
  | none => (r, .waiting)

/-- A call is given up wherever it is. Nothing that it collected is kept. -/
def abandon (r : Refresher σ) (ticket : Ticket) : Refresher σ :=
  match r.holder with
  | some (holder, _) =>
    if holder = ticket then r.release
    else { r with queue := r.queue.filter (·.1 != ticket) }
  | none => r

def attempt? (r : Refresher σ) (ticket : Ticket) : Option Attempt :=
  match r.holder with
  | some (holder, .collecting attempt) => if holder = ticket then some attempt else none
  | _ => none

def deadline? (rules : RefreshRules σ) (r : Refresher σ) (ticket : Ticket) : Option Nat :=
  (r.attempt? ticket).map fun attempt => attempt.started + rules.limit

/-- The time at which a call that is collecting goes on by itself. -/
def alarm? (rules : RefreshRules σ) (r : Refresher σ) (ticket : Ticket) : Option Nat :=
  (r.attempt? ticket).map fun attempt => min attempt.replyAt (attempt.started + rules.limit)

end Refresher

end PoolGauge
