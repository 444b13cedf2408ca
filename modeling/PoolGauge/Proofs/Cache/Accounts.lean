import PoolGauge.Proofs.Cache.Timeline

/-!
# Accounts of attempts

What has happened to a call since it arrived accounts for the time that its attempt has taken: the
calls of the source so far take up all of it, one after the other, and what they are is what a whole
collection asks. If nobody else changes the source meanwhile, the whole collection takes as long as
it would have taken from the first call on.
-/
namespace PoolGauge

variable {σ : Type}

namespace Inquiry

variable {α : Type}

/-- The milliseconds that a walk takes against a source up to its own end. -/
def cost (source : Source σ) : Inquiry α → σ → Nat
  | .done _, _ => 0
  | .ask query next, state =>
    let (delay, called) := source.call query state
    let (reply, replied) := source.reply query called
    delay + (next reply).cost source replied

/-- A walk and the state of the source when the replies have come that are due. -/
def resume (source : Source σ) : List Query → Inquiry α → σ → Inquiry α × σ
  | _ :: _, .ask query next, state =>
    (next (source.reply query state).1, (source.reply query state).2)
  | _, walk, state => (walk, state)

def delayOf : α ⊕ Pending α → Nat
  | .inl _ => 0
  | .inr pending => pending.delay

end Inquiry

namespace Moment

/-- The state in which the source finds itself. -/
def state? : Moment σ → Option σ
  | ⟨_, .called _ state _ _⟩ | ⟨_, .replied _ state _⟩ => some state
  | _ => none

/-- The state in which the source is left. -/
def left? (source : Source σ) : Moment σ → Option σ
  | ⟨_, .called _ state query _⟩ => some (source.call query state).2
  | ⟨_, .replied _ state exchange⟩ => some (source.reply exchange.query state).2
  | _ => none

end Moment

namespace Timeline

/-- The source always finds itself as it was left. -/
def Undisturbed (source : Source σ) (timeline : Timeline σ) : Prop :=
  timeline.IsChain fun later earlier =>
    ∀ state left, later.state? = some state → earlier.left? source = some left → state = left

/-- The state in which the source is left by what happened last. -/
def left? (source : Source σ) (timeline : Timeline σ) : Option σ :=
  timeline.head?.bind (Moment.left? source)

/-- What has happened to a call accounts for its attempt that started at a time and has come to a
walk, for whose questions that are due the replies come at another time. -/
structure Accounts (source : Source σ) (own : Timeline σ) (started : Nat)
    (walk : Inquiry (Except Failure Inventory)) (due : List Query) (paid : Nat) : Prop where
  leads : Collection.inventory.run.Leads own.exchanges walk
  asked : own.queries = own.exchanges.map Exchange.query ++ due
  first : ∀ call, own.first? = some call → call.time = started
  spent : started + own.spent = paid
  foreseen : own.Undisturbed source → ∀ call, own.first? = some call →
    ∃ left, own.left? source = some left ∧
      Collection.inventory.run.cost source call.state = own.spent +
        (walk.resume source due left).1.cost source (walk.resume source due left).2 ∧
      (Collection.inventory.run.run source call.state).result =
        ((walk.resume source due left).1.run source (walk.resume source due left).2).result

variable {source : Source σ} {own : Timeline σ} {started paid now : Nat}
  {walk : Inquiry (Except Failure Inventory)} {query : Query} {state : σ} {delay : Nat} {c : Ticket}
  {next : query.Reply → Inquiry (Except Failure Inventory)}

section Called

@[simp] theorem calls_called : calls (⟨now, .called c state query delay⟩ :: own) =
    ⟨now, state, query, delay⟩ :: calls own := rfl

@[simp] theorem exchanges_called : exchanges (⟨now, .called c state query delay⟩ :: own) =
    exchanges own := rfl

@[simp] theorem queries_called : queries (⟨now, .called c state query delay⟩ :: own) =
    queries own ++ [query] := by
  simp [queries]

@[simp] theorem spent_called : spent (⟨now, .called c state query delay⟩ :: own) =
    delay + spent own := by
  simp [spent]

theorem first?_called : first? (⟨now, .called c state query delay⟩ :: own) =
    some ((first? own).getD ⟨now, state, query, delay⟩) := by
  rw [first?, first?, calls_called, List.getLast?_cons]

theorem calls_of_first?_none (h : first? own = none) : calls own = [] :=
  List.getLast?_eq_none_iff.mp h

end Called

section Replied

variable {exchange : Exchange}

@[simp] theorem calls_replied : calls (⟨now, .replied c state exchange⟩ :: own) = calls own := rfl

@[simp] theorem queries_replied : queries (⟨now, .replied c state exchange⟩ :: own) =
    queries own := rfl

@[simp] theorem exchanges_replied : exchanges (⟨now, .replied c state exchange⟩ :: own) =
    exchanges own ++ [exchange] := by
  simp [exchanges, Moment.exchange?]

end Replied

theorem Accounts.begin (source : Source σ) (now : Nat) :
    Accounts source [] now Collection.inventory.run [] now where
  leads := .refl _
  asked := rfl
  first := nofun
  spent := rfl
  foreseen := nofun

theorem Undisturbed.tail {m : Moment σ} (h : Undisturbed source (m :: own)) :
    own.Undisturbed source := by
  cases own with
  | nil => exact .nil
  | cons earlier own => exact (List.isChain_cons_cons.mp h).2

/-- The source finds itself as it was left before. -/
theorem Undisturbed.state_eq {m : Moment σ} {left : σ} (h : Undisturbed source (m :: own))
    (hstate : m.state? = some state) (hleft : own.left? source = some left) : state = left := by
  cases own with
  | nil => cases hleft
  | cons earlier own => exact (List.isChain_cons_cons.mp h).1 state left hstate hleft

theorem Accounts.exchanges_of_first?_none {due : List Query}
    (h : Accounts source own started walk due paid) (hnone : own.first? = none) :
    own.exchanges = [] ∧ own.spent = 0 := by
  have hcalls := calls_of_first?_none hnone
  have hasked := h.asked
  rw [queries, hcalls] at hasked
  rw [Timeline.spent, hcalls]
  refine ⟨?_, rfl⟩
  exact List.map_eq_nil_iff.mp (List.append_eq_nil_iff.mp hasked.symm).1

/-- The walk calls the source. -/
theorem Accounts.call (h : Accounts source own started (.ask query next) [] now) :
    Accounts source (⟨now, .called c state query (source.call query state).1⟩ :: own) started
      (.ask query next) [query] (now + (source.call query state).1) where
  leads := h.leads
  asked := by simpa using h.asked
  first call hcall := by
    rw [first?_called, Option.some_inj] at hcall
    subst hcall
    cases hfirst : own.first? with
    | none =>
      have hspent := h.spent
      rw [(h.exchanges_of_first?_none hfirst).2] at hspent
      exact hspent.symm
    | some first => exact h.first first hfirst
  spent := by
    rw [spent_called]
    have := h.spent
    omega
  foreseen hundisturbed call hcall := by
    rw [first?_called, Option.some_inj] at hcall
    subst hcall
    refine ⟨_, rfl, ?_⟩
    rw [spent_called]
    cases hfirst : own.first? with
    | none =>
      -- the first question of the walk is that of a whole collection
      obtain ⟨hexchanges, hspent⟩ := h.exchanges_of_first?_none hfirst
      have hleads := h.leads
      rw [hexchanges] at hleads
      rw [hspent, hleads.eq_of_nil]
      exact ⟨rfl, rfl⟩
    | some first =>
      obtain ⟨left, hleft, hcost, hresult⟩ := h.foreseen hundisturbed.tail first hfirst
      obtain rfl := hundisturbed.state_eq rfl hleft
      refine ⟨?_, hresult⟩
      rw [Option.getD_some, hcost, Nat.add_comm (source.call query state).1, Nat.add_assoc]
      rfl

/-- The reply comes for which the walk waits. -/
theorem Accounts.reply (h : Accounts source own started (.ask query next) [query] paid) :
    Accounts source (⟨now, .replied c state ⟨query, (source.reply query state).1⟩⟩ :: own) started
      (next (source.reply query state).1) [] paid where
  leads := by
    rw [exchanges_replied]
    exact h.leads.snoc _
  asked := by simpa using h.asked
  first := h.first
  spent := h.spent
  foreseen hundisturbed call hcall := by
    obtain ⟨left, hleft, hcost, hresult⟩ := h.foreseen hundisturbed.tail call hcall
    obtain rfl := hundisturbed.state_eq rfl hleft
    exact ⟨_, rfl, hcost, hresult⟩

/-- A walk that goes on accounts for its calls. -/
theorem Accounts.advance (walk : Inquiry (Except Failure Inventory)) {notes noted : List (Note σ)}
    {left : σ} {stop : Except Failure Inventory ⊕ Pending (Except Failure Inventory)}
    (h : Accounts source (notes.map (fun note => ⟨now, note.happening c⟩) ++ own) started walk []
      now)
    (heq : walk.advance source.noted (state, notes) = (stop, left, noted)) :
    Accounts source (noted.map (fun note => ⟨now, note.happening c⟩) ++ own) started
      (Inquiry.ofStop stop) (Inquiry.dueAt stop) (now + Inquiry.delayOf stop) := by
  induction walk generalizing state notes with
  | done result =>
    obtain ⟨rfl, rfl, rfl⟩ := heq
    exact h
  | ask query next ih =>
    rw [Inquiry.advance, Source.noted_call] at heq
    have hcalled : Accounts source
        ((Note.called state query (source.call query state).1 :: notes).map
          (fun note => ⟨now, note.happening c⟩) ++ own) _ _ _ _ := h.call
    cases hcall : source.call query state with
    | mk delay called =>
      rw [hcall] at heq hcalled
      cases delay with
      | zero =>
        have hreplied : Accounts source
            ((Note.replied called ⟨query, (source.reply query called).1⟩ ::
              Note.called state query 0 :: notes).map
              (fun note => ⟨now, note.happening c⟩) ++ own) _ _ _ _ := hcalled.reply
        exact ih _ hreplied heq
      | succ delay =>
        obtain ⟨rfl, rfl, rfl⟩ := heq
        exact hcalled

end Timeline

end PoolGauge
