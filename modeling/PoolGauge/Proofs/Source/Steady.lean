import PoolGauge.Proofs.Source.Pairing
import PoolGauge.Source.Script

/-!
# Sources that do not change

A source is steady in states of a kind if its replies there depend on the questions alone, and no
question leads out of them. A walk goes with such a source as with one that has no state.
-/
namespace PoolGauge

variable {σ α : Type} {source : Source σ} {kind : σ → Prop}
  {replies : (query : Query) → query.Reply}

/-- In states of a kind every question has one reply, and it leaves the source in such a state. -/
structure Source.Steady (source : Source σ) (kind : σ → Prop)
    (replies : (query : Query) → query.Reply) : Prop where
  reply : ∀ query {state}, kind state → (source.ask query state).1 = replies query
  stay : ∀ query {state}, kind state → kind (source.ask query state).2

namespace Source

/-- A walk asks a steady source what it asks one without a state, and has the same result. -/
theorem Steady.run_eq (h : source.Steady kind replies) (walk : Inquiry α) {state : σ}
    (hstate : kind state) :
    (walk.run source state).result = (walk.run (.fixed replies) ()).result ∧
      (walk.run source state).queries = (walk.run (.fixed replies) ()).queries := by
  induction walk generalizing state with
  | done result => exact ⟨rfl, rfl⟩
  | ask query next ih =>
    rw [Inquiry.run_ask, Inquiry.run_ask, h.reply query hstate]
    obtain ⟨hresult, hqueries⟩ := ih (replies query) (h.stay query hstate)
    exact ⟨hresult, congrArg (query :: ·) hqueries⟩

end Source

/-- A script in which no call for properties fails has one reply to every question. -/
theorem Rehearsal.steady_source {script : Script} (h : script.datasetFailures = []) :
    Rehearsal.source.Steady (fun r => r.script = script)
      (Rehearsal.reply { script := script, asked := [] }) where
  reply query r hr := by
    subst hr
    cases query with
    | datasetProperties names => simp [Source.ask, source, reply, batchFailure?, h]
    | _ => rfl
  stay _ _ hr := hr

end PoolGauge
