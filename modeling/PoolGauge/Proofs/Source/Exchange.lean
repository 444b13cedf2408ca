import PoolGauge.Source.Query

/-!
# Exchanges with a source

The questions of a walk together with the replies that they got. Whatever the source, a walk yields
its result after some exchanges, and a walk that goes on with another one has the exchanges of both.
-/
namespace PoolGauge

/-- A question with its reply. -/
structure Exchange where
  query : Query
  reply : query.Reply

namespace Inquiry

variable {σ α β : Type} {walk : Inquiry α} {next : α → Inquiry β} {log : List Exchange}

def exchanges (source : Source σ) : Inquiry α → σ → List Exchange
  | .done _, _ => []
  | .ask query next, state =>
    let called := (source.call query state).2
    let (reply, replied) := source.reply query called
    ⟨query, reply⟩ :: (next reply).exchanges source replied

/-- With some replies a walk ends with a result. -/
inductive Yields : Inquiry α → List Exchange → α → Prop
  | done (result : α) : Yields (.done result) [] result
  | ask {query : Query} {next : query.Reply → Inquiry α} {reply : query.Reply}
      {log : List Exchange} {result : α} (rest : Yields (next reply) log result) :
      Yields (.ask query next) (⟨query, reply⟩ :: log) result

/-- With some replies a walk comes to another walk. -/
inductive Leads : Inquiry α → List Exchange → Inquiry α → Prop
  | refl (walk : Inquiry α) : Leads walk [] walk
  | ask {query : Query} {next : query.Reply → Inquiry α} {reply : query.Reply}
      {log : List Exchange} {later : Inquiry α} (rest : Leads (next reply) log later) :
      Leads (.ask query next) (⟨query, reply⟩ :: log) later

theorem Leads.snoc {query : Query} {next : query.Reply → Inquiry α}
    (h : walk.Leads log (.ask query next)) (reply : query.Reply) :
    walk.Leads (log ++ [⟨query, reply⟩]) (next reply) := by
  generalize hlater : Inquiry.ask query next = later at h
  induction h with
  | refl =>
    subst hlater
    exact .ask (.refl _)
  | ask _ ih => exact .ask (ih hlater)

theorem Leads.eq_of_nil {later : Inquiry α} (h : walk.Leads [] later) : walk = later := by
  cases h
  rfl

theorem Leads.yields {result : α} (h : walk.Leads log (.done result)) :
    walk.Yields log result := by
  generalize hlater : Inquiry.done result = later at h
  induction h with
  | refl =>
    subst hlater
    exact .done result
  | ask _ ih => exact .ask (ih hlater)

theorem map_query_exchanges (source : Source σ) (walk : Inquiry α) (state : σ) :
    (walk.exchanges source state).map Exchange.query = (walk.run source state).queries := by
  induction walk generalizing state with
  | done result => rfl
  | ask query next ih => exact congrArg (query :: ·) (ih _ _)

theorem yields_run (source : Source σ) (walk : Inquiry α) (state : σ) :
    walk.Yields (walk.exchanges source state) (walk.run source state).result := by
  induction walk generalizing state with
  | done result => exact .done result
  | ask query next ih => exact .ask (ih _ _)

theorem Yields.of_bind {result : β} (h : (walk.bind next).Yields log result) :
    ∃ middle first second, log = first ++ second ∧ walk.Yields first middle ∧
      (next middle).Yields second result := by
  induction walk generalizing log with
  | done middle => exact ⟨middle, [], log, rfl, .done middle, h⟩
  | ask query rest ih =>
    cases h with
    | @ask _ _ reply log _ hrest =>
      obtain ⟨middle, first, second, rfl, hfirst, hsecond⟩ := ih reply hrest
      exact ⟨middle, _, second, rfl, .ask hfirst, hsecond⟩

/-- What a source replies without looking at its state is what every exchange with it holds. -/
theorem reply_of_mem_exchanges {source : Source σ} {replies : (query : Query) → query.Reply}
    (hreplies : ∀ query state, (source.reply query state).1 = replies query) {walk : Inquiry α}
    {state : σ} {e : Exchange} (he : e ∈ walk.exchanges source state) :
    e.reply = replies e.query := by
  induction walk generalizing state with
  | done result => contradiction
  | ask query next ih =>
    rcases List.mem_cons.mp he with rfl | hrest
    · exact hreplies query _
    · exact ih _ hrest

end Inquiry

end PoolGauge
