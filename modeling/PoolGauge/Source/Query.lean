import PoolGauge.Failure

/-!
# Questions to the storage tools

Everything that is known about the host comes from six questions. An inquiry is a walk through
such questions whose course depends on the replies; it can be run against any source.
-/
namespace PoolGauge

/-- A question to the storage tools. -/
inductive Query where
  /-- The imported pools with their health. -/
  | listPools
  /-- The status of a pool. -/
  | poolStatus (pool : String)
  /-- The figures of the vdevs of a pool. -/
  | vdevProperties (pool : String)
  /-- The filesystems and volumes. -/
  | listDatasets
  /-- The properties of some datasets; those that no longer exist are missing in the reply. -/
  | datasetProperties (names : List String)
  /-- The kernel's statistics of an object set, which may be missing. -/
  | objsetKstat (pool : String) (id : UInt64)
deriving DecidableEq, Repr

/-- The content of a good reply. -/
abbrev Query.Payload : Query → Type
  | objsetKstat .. => Option String
  | _ => String

abbrev Query.Reply (q : Query) : Type :=
  Except Failure q.Payload

/-- A walk through questions: it has ended with a result, or it asks and goes on with the reply. -/
inductive Inquiry (α : Type) where
  | done (result : α)
  | ask (query : Query) (next : query.Reply → Inquiry α)

namespace Inquiry

variable {α β : Type}

/-- The walk that goes on with another one when it has a result. -/
def bind (walk : Inquiry α) (next : α → Inquiry β) : Inquiry β :=
  match walk with
  | done result => next result
  | ask query rest => ask query fun reply => (rest reply).bind next

instance : Monad Inquiry where
  pure := done
  bind := bind

def put (query : Query) : Inquiry query.Reply :=
  ask query done

@[simp] theorem bind_done (result : α) (next : α → Inquiry β) :
    (done result).bind next = next result := rfl

@[simp] theorem bind_ask (query : Query) (rest : query.Reply → Inquiry α)
    (next : α → Inquiry β) :
    (ask query rest).bind next = ask query fun reply => (rest reply).bind next := rfl

end Inquiry

/-- A source replies to questions and may change with every one. Calling it tells how many
milliseconds the reply takes; the reply is made when that time is over. The clock of the host shows
a point in time after so many milliseconds; as long as nobody sets it, it starts at the epoch. -/
structure Source (σ : Type) where
  call : Query → σ → Nat × σ
  reply : (query : Query) → σ → query.Reply × σ
  clock : Nat → Timestamp := fun now => ⟨(Duration.ofMilliseconds now).nanoseconds⟩

/-- The outcome of a walk against a source: the result, the state of the source after it, and the
questions in order. -/
structure Transcript (σ α : Type) where
  result : α
  state : σ
  queries : List Query

def Inquiry.run {σ α : Type} (source : Source σ) : Inquiry α → σ → Transcript σ α
  | .done result, state => ⟨result, state, []⟩
  | .ask query next, state =>
    let called := (source.call query state).2
    let (reply, replied) := source.reply query called
    let rest := (next reply).run source replied
    { rest with queries := query :: rest.queries }

end PoolGauge
