import PoolGauge.Proofs.Source.Exchange

/-!
# Two sources side by side

One walk is run against two sources whose states are related. Questions to which both reply alike
lead to the same results; a question that may be replied to differently, or asked of one source
only, must leave the states related.
-/
namespace PoolGauge

def Source.ask {σ : Type} (source : Source σ) (query : Query) (state : σ) : query.Reply × σ :=
  source.reply query (source.call query state).2

/-- Two sources, and which of their states belong together. -/
structure Pairing (σ τ : Type) where
  left : Source σ
  right : Source τ
  related : σ → τ → Prop

namespace Inquiry

variable {σ α β : Type}

@[simp] theorem run_done (source : Source σ) (result : α) (state : σ) :
    (done result).run source state = ⟨result, state, []⟩ := rfl

theorem run_ask (source : Source σ) (query : Query) (next : query.Reply → Inquiry α) (state : σ) :
    let rest := (next (source.ask query state).1).run source (source.ask query state).2
    (ask query next).run source state = ⟨rest.result, rest.state, query :: rest.queries⟩ := rfl

theorem run_bind (source : Source σ) (walk : Inquiry α) (next : α → Inquiry β) (state : σ) :
    let first := walk.run source state
    let rest := (next first.result).run source first.state
    (walk.bind next).run source state =
      ⟨rest.result, rest.state, first.queries ++ rest.queries⟩ := by
  induction walk generalizing state with
  | done result => rfl
  | ask query rest ih => simp only [bind_ask, run_ask, ih, List.cons_append]

end Inquiry

/-- A walk against a source keeps a property of its states and ends with a good result. -/
def Source.Keeps {σ α : Type} (source : Source σ) (kept : σ → Prop) (walk : Inquiry α)
    (good : α → Prop) : Prop :=
  ∀ state, kept state → good (walk.run source state).result ∧ kept (walk.run source state).state

namespace Pairing

variable {σ τ α β γ δ : Type} {P : Pairing σ τ}

/-- Two walks against the two sources keep their states related and have results that match. -/
def Matches (P : Pairing σ τ) (x : Inquiry α) (y : Inquiry β) (good : α → β → Prop) : Prop :=
  ∀ s t, P.related s t → good (x.run P.left s).result (y.run P.right t).result ∧
    P.related (x.run P.left s).state (y.run P.right t).state

/-- The two sources are alike but for some questions: to all others they reply the same, and any
question that is put to both leaves their states related. -/
structure Alike (P : Pairing σ τ) (apart : List Query) : Prop where
  same : ∀ {query s t}, query ∉ apart → P.related s t →
    (P.left.ask query s).1 = (P.right.ask query t).1
  stay : ∀ query {s t}, P.related s t → P.related (P.left.ask query s).2 (P.right.ask query t).2

theorem matches_done {good : α → β → Prop} {a : α} {b : β} (h : good a b) :
    P.Matches (.done a) (.done b) good :=
  fun _ _ hst => ⟨h, hst⟩

theorem Matches.mono {x : Inquiry α} {y : Inquiry β} {good better : α → β → Prop}
    (h : P.Matches x y good) (himp : ∀ a b, good a b → better a b) : P.Matches x y better :=
  fun s t hst => (h s t hst).imp_left (himp _ _)

theorem Matches.bind {x : Inquiry α} {y : Inquiry β} {f : α → Inquiry γ} {g : β → Inquiry δ}
    {middle : α → β → Prop} {good : γ → δ → Prop} (h : P.Matches x y middle)
    (hnext : ∀ a b, middle a b → P.Matches (f a) (g b) good) :
    P.Matches (x.bind f) (y.bind g) good := by
  intro s t hst
  obtain ⟨hmiddle, hrelated⟩ := h s t hst
  rw [Inquiry.run_bind, Inquiry.run_bind]
  exact hnext _ _ hmiddle _ _ hrelated

/-- A question put to both sources gets one reply, unless it is one of those apart. -/
theorem Alike.matches_ask {apart : List Query} (h : P.Alike apart) {query : Query}
    {f : query.Reply → Inquiry α} {g : query.Reply → Inquiry β} {good : α → β → Prop}
    (hnext : ∀ reply other, (query ∉ apart → reply = other) →
      P.Matches (f reply) (g other) good) :
    P.Matches (.ask query f) (.ask query g) good := by
  intro s t hst
  rw [Inquiry.run_ask, Inquiry.run_ask]
  exact hnext _ _ (fun hquery => h.same hquery hst) _ _ (h.stay query hst)

/-- Walks that keep the states related each on its own need not ask the same questions. -/
theorem matches_of_keeps {x : Inquiry α} {y : Inquiry β} {first : α → Prop} {second : β → Prop}
    (hleft : ∀ t, P.left.Keeps (P.related · t) x first)
    (hright : ∀ s, P.right.Keeps (P.related s ·) y second) :
    P.Matches x y fun a b => first a ∧ second b := by
  intro s t hst
  obtain ⟨hfirst, hmoved⟩ := hleft t s hst
  obtain ⟨hsecond, hboth⟩ := hright _ t hmoved
  exact ⟨⟨hfirst, hsecond⟩, hboth⟩

end Pairing

namespace Source

variable {σ α β : Type} {source : Source σ} {kept : σ → Prop}

theorem keeps_done {good : α → Prop} {a : α} (h : good a) : source.Keeps kept (.done a) good :=
  fun _ hstate => ⟨h, hstate⟩

theorem Keeps.bind {x : Inquiry α} {f : α → Inquiry β} {middle : α → Prop} {good : β → Prop}
    (h : source.Keeps kept x middle) (hnext : ∀ a, middle a → source.Keeps kept (f a) good) :
    source.Keeps kept (x.bind f) good := by
  intro state hstate
  obtain ⟨hmiddle, hkept⟩ := h state hstate
  rw [Inquiry.run_bind]
  exact hnext _ hmiddle _ hkept

/-- A question leaves a property of the source's states as it is, and the query mechanism does not
fail over it. -/
structure Harmless (source : Source σ) (kept : σ → Prop) (query : Query) : Prop where
  stay : ∀ {state}, kept state → kept (source.ask query state).2
  calm : ∀ {state failure}, kept state → (source.ask query state).1 = .error failure →
    failure.isTransient = false

end Source

/-- A question may be put to one of the two sources only: their states stay related, and the query
mechanism does not fail over it. -/
structure Pairing.Harmless {σ τ : Type} (P : Pairing σ τ) (query : Query) : Prop where
  left : ∀ t, P.left.Harmless (P.related · t) query
  right : ∀ s, P.right.Harmless (P.related s ·) query

section Fixed

def Source.fixed (replies : (query : Query) → query.Reply) : Source Unit where
  call _ state := (0, state)
  reply query state := (replies query, state)

def Pairing.fixed (left right : (query : Query) → query.Reply) : Pairing Unit Unit :=
  ⟨.fixed left, .fixed right, fun _ _ => True⟩

variable {left right : (query : Query) → query.Reply}

theorem Pairing.alike_fixed {apart : List Query} (h : ∀ query ∉ apart, left query = right query) :
    (Pairing.fixed left right).Alike apart :=
  ⟨fun hquery _ => h _ hquery, fun _ _ _ _ => trivial⟩

theorem Pairing.harmless_fixed {query : Query}
    (hleft : ∀ failure, left query = .error failure → failure.isTransient = false)
    (hright : ∀ failure, right query = .error failure → failure.isTransient = false) :
    (Pairing.fixed left right).Harmless query :=
  ⟨fun _ => ⟨fun _ => trivial, fun _ => hleft _⟩, fun _ => ⟨fun _ => trivial, fun _ => hright _⟩⟩

end Fixed

end PoolGauge
