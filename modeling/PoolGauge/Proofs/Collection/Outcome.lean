import PoolGauge.Collection
import PoolGauge.Proofs.Source.Exchange

/-!
# How replies end a collection

A reply may end a collection with its failure. A collection along some exchanges goes as far as the
first of them that ends it, and has the outcome that this one gives it.
-/
namespace PoolGauge

section Listing

def listingLines (output : String) : List (List Char) :=
  ((Text.lines output.toList).map Text.trimEnd).filter (!isEmptyListing ·)

def isNameless (line : List Char) : Bool :=
  (Text.trim ((Text.fields line).headD [])).isEmpty

/-- The pools on some lines are refused because of the first line without a name. -/
theorem mapM_read_eq_error_iff {lines : List (List Char)} {failure : Failure} :
    lines.mapM ListedPool.read = .error failure ↔
      (lines.find? isNameless).map emptyPoolName = some failure := by
  induction lines with
  | nil => exact ⟨nofun, nofun⟩
  | cons line rest ih =>
    rw [List.mapM_cons, List.find?_cons, ListedPool.read]
    cases hname : isNameless line with
    | true =>
      rw [isNameless] at hname
      rw [if_pos hname]
      exact ⟨fun h => congrArg some (Except.error.inj h), fun h => congrArg _ (Option.some.inj h)⟩
    | false =>
      rw [isNameless] at hname
      rw [if_neg (ne_true_of_eq_false hname), ← ih]
      cases rest.mapM ListedPool.read with
      | error other => exact Iff.rfl
      | ok listed => exact ⟨nofun, nofun⟩

end Listing

namespace Failure

/-- A failure that ends a collection whichever pool or datasets were asked about: an operation took
too long, or a tool could not be started. -/
def spreads? : Failure → Option Failure
  | timeout operation limit => some (timeout operation limit)
  | spawn line reason => some (spawn line reason)
  | _ => none

variable {cause failure : Failure}

@[simp] theorem spreads?_eq_none_iff : failure.spreads? = none ↔ failure.isTransient = false := by
  cases failure <;> simp [spreads?, isTransient]

@[simp] theorem spreads?_eq_some_iff :
    cause.spreads? = some failure ↔ cause = failure ∧ failure.isTransient = true := by
  constructor
  · intro h
    cases cause with
    | timeout | spawn =>
      obtain rfl := Option.some.inj h
      exact ⟨rfl, rfl⟩
    | _ => contradiction
  · rintro ⟨rfl, h⟩
    obtain ⟨operation, limit, rfl⟩ | ⟨line, reason, rfl⟩ := isTransient_iff.mp h
    · rfl
    · rfl

end Failure

namespace Exchange

/-- The failure with which an exchange ends a collection. A list must be had, and all of its pools
must have names; for the other questions only a failure that spreads matters, and for the statistics
of an object set none. -/
def fatal? : Exchange → Option Failure
  | ⟨.listPools, .error failure⟩ => some failure
  | ⟨.listPools, .ok output⟩ => ((listingLines output).find? isNameless).map emptyPoolName
  | ⟨.listDatasets, .error failure⟩ => some failure
  | ⟨.poolStatus _, .error failure⟩ | ⟨.vdevProperties _, .error failure⟩
  | ⟨.datasetProperties _, .error failure⟩ => failure.spreads?
  | _ => none

/-- The exchanges up to the first that ends a collection. -/
def untilFatal : List Exchange → List Exchange
  | [] => []
  | e :: rest => if e.fatal?.isSome then [e] else e :: untilFatal rest

/-- The outcome of exchanges that would lead to a value. -/
def outcome {α : Type} (exchanges : List Exchange) (value : α) : Except Failure α :=
  match exchanges.findSome? fatal? with
  | some failure => .error failure
  | none => .ok value

/-- A walk along some exchanges that lead to a value, up to the first that ends it. -/
structure Follows {α : Type} (exchanges : List Exchange) (value : α) (log : List Exchange)
    (result : Except Failure α) : Prop where
  log : log = untilFatal exchanges
  result : result = outcome exchanges value

variable {α β : Type} {exchanges more log others : List Exchange} {value found : α} {other : β}
  {failure : Failure}

theorem untilFatal_append_of_some (h : exchanges.findSome? fatal? = some failure)
    (more : List Exchange) : untilFatal (exchanges ++ more) = untilFatal exchanges := by
  induction exchanges with
  | nil => contradiction
  | cons e rest ih =>
    rw [List.cons_append, untilFatal, untilFatal]
    rw [List.findSome?_cons] at h
    cases hfatal : e.fatal? with
    | some _ => rfl
    | none =>
      rw [hfatal] at h
      rw [ih h]

theorem untilFatal_append_of_none (h : exchanges.findSome? fatal? = none)
    (more : List Exchange) : untilFatal (exchanges ++ more) = exchanges ++ untilFatal more := by
  induction exchanges with
  | nil => rfl
  | cons e rest ih =>
    rw [List.findSome?_cons] at h
    cases hfatal : e.fatal? with
    | some _ => simp [hfatal] at h
    | none =>
      rw [hfatal] at h
      rw [List.cons_append, untilFatal, hfatal, ih h]
      rfl

theorem untilFatal_of_none (h : exchanges.findSome? fatal? = none) :
    untilFatal exchanges = exchanges := by
  simpa [untilFatal] using untilFatal_append_of_none h []

theorem Follows.findSome?_of_error (f : Follows exchanges value log (.error failure)) :
    exchanges.findSome? fatal? = some failure := by
  have hresult := f.result
  rw [outcome] at hresult
  split at hresult
  · obtain rfl := Except.error.inj hresult
    assumption
  · contradiction

theorem Follows.of_ok (f : Follows exchanges value log (.ok found)) :
    exchanges.findSome? fatal? = none ∧ log = exchanges ∧ found = value := by
  have hresult := f.result
  rw [outcome] at hresult
  split at hresult
  · contradiction
  · exact ⟨‹_›, f.log.trans (untilFatal_of_none ‹_›), Except.ok.inj hresult⟩

/-- A walk that has ended does not see what would come next. -/
theorem Follows.append_of_error (f : Follows exchanges value log (.error failure))
    (more : List Exchange) (other : β) :
    Follows (exchanges ++ more) other log (.error failure) where
  log := f.log.trans (untilFatal_append_of_some f.findSome?_of_error more).symm
  result := by rw [outcome, List.findSome?_append, f.findSome?_of_error]; rfl

/-- A walk that has not ended goes on. -/
theorem Follows.append_of_ok {result : Except Failure β}
    (f : Follows exchanges value log (.ok found)) (g : Follows more other others result) :
    Follows (exchanges ++ more) other (log ++ others) result := by
  obtain ⟨hnone, rfl, -⟩ := f.of_ok
  refine ⟨?_, ?_⟩
  · rw [untilFatal_append_of_none hnone, g.log]
  · rw [outcome, List.findSome?_append, hnone, g.result]
    rfl

theorem Follows.map {result : Except Failure α} (f : Follows exchanges value log result)
    (g : α → β) : Follows exchanges (g value) log (result.map g) := by
  refine ⟨f.log, ?_⟩
  rw [f.result, outcome, outcome]
  split <;> rfl

/-- A walk without exchanges. -/
theorem follows_nil (value : α) : Follows [] value [] (.ok value) :=
  ⟨rfl, rfl⟩

variable {e : Exchange}

/-- A walk that its first exchange ends. -/
theorem follows_stop (h : e.fatal? = some failure) (more : List Exchange) (value : α) :
    Follows (e :: more) value [e] (.error failure) where
  log := by rw [untilFatal, h]; rfl
  result := by rw [outcome, List.findSome?_cons, h]

/-- A walk that its first exchange does not end. -/
theorem Follows.cons {result : Except Failure α} (h : e.fatal? = none)
    (f : Follows exchanges value log result) :
    Follows (e :: exchanges) value (e :: log) result where
  log := by rw [untilFatal, h, f.log]; rfl
  result := by rw [f.result, outcome, outcome, List.findSome?_cons, h]

end Exchange

namespace Collecting

open Inquiry

variable {α β : Type} {log : List Exchange}

theorem yields_bind {x : Collecting α} {f : α → Collecting β} {result : Except Failure β}
    (h : Yields (x >>= f : Collecting β) log result) :
    (∃ failure, result = .error failure ∧ Yields x log (.error failure)) ∨
      ∃ a first second, log = first ++ second ∧ Yields x first (.ok a) ∧
        Yields (f a) second result := by
  obtain ⟨middle, first, second, rfl, hfirst, hsecond⟩ := Yields.of_bind h
  cases middle with
  | error failure =>
    cases hsecond
    exact .inl ⟨failure, rfl, by rwa [List.append_nil]⟩
  | ok a => exact .inr ⟨a, first, second, rfl, hfirst, hsecond⟩

theorem yields_pure {a : α} {result : Except Failure α}
    (h : Yields (pure a : Collecting α) log result) : log = [] ∧ result = .ok a := by
  cases h
  exact ⟨rfl, rfl⟩

theorem yields_map {x : Collecting α} {f : α → β} {result : Except Failure β}
    (h : Yields (x >>= fun a => pure (f a) : Collecting β) log result) :
    ∃ before, Yields x log before ∧ result = before.map f := by
  obtain ⟨failure, rfl, hx⟩ | ⟨a, first, second, rfl, hx, hpure⟩ := yields_bind h
  · exact ⟨_, hx, rfl⟩
  · obtain ⟨rfl, rfl⟩ := yields_pure hpure
    exact ⟨_, by rwa [List.append_nil], rfl⟩

theorem yields_require_bind {query : Query} {f : query.Payload → Collecting β}
    {result : Except Failure β} (h : Yields (require query >>= f : Collecting β) log result) :
    (∃ failure, log = [⟨query, .error failure⟩] ∧ result = .error failure) ∨
      ∃ payload rest, log = ⟨query, .ok payload⟩ :: rest ∧ Yields (f payload) rest result := by
  cases h with
  | @ask _ _ reply _ _ rest =>
    cases reply with
    | error failure =>
      cases rest
      exact .inl ⟨failure, rfl, rfl⟩
    | ok payload => exact .inr ⟨payload, _, rfl, rest⟩

theorem yields_attempt_bind {query : Query} {f : Option query.Payload → Collecting β}
    {result : Except Failure β} (h : Yields (attempt query >>= f : Collecting β) log result) :
    (∃ failure, failure.isTransient = true ∧ log = [⟨query, .error failure⟩] ∧
        result = .error failure) ∨
      (∃ failure rest, failure.isTransient = false ∧ log = ⟨query, .error failure⟩ :: rest ∧
        Yields (f none) rest result) ∨
      ∃ payload rest, log = ⟨query, .ok payload⟩ :: rest ∧
        Yields (f (some payload)) rest result := by
  cases h with
  | @ask _ _ reply _ _ rest =>
    cases reply with
    | error failure =>
      cases htransient : failure.isTransient with
      | true =>
        simp only [htransient] at rest
        cases rest
        exact .inl ⟨failure, htransient, rfl, rfl⟩
      | false =>
        simp only [htransient] at rest
        exact .inr (.inl ⟨failure, _, htransient, rfl, rest⟩)
    | ok payload => exact .inr (.inr ⟨payload, _, rfl, rest⟩)

theorem yields_tolerate_bind {query : Query} {f : query.Reply → Collecting β}
    {result : Except Failure β} (h : Yields (tolerate query >>= f : Collecting β) log result) :
    ∃ (reply : query.Reply) (rest : List Exchange), log = ⟨query, reply⟩ :: rest ∧
      Yields (f reply) rest result := by
  cases h with
  | @ask _ _ reply _ _ rest => exact ⟨reply, _, rfl, rest⟩

theorem yields_liftM_bind {x : Except Failure α} {f : α → Collecting β}
    {result : Except Failure β} (h : Yields (liftM x >>= f : Collecting β) log result) :
    (∃ failure, x = .error failure ∧ log = [] ∧ result = .error failure) ∨
      ∃ a, x = .ok a ∧ Yields (f a) log result := by
  cases x with
  | error failure =>
    cases h
    exact .inl ⟨failure, rfl, rfl, rfl⟩
  | ok a => exact .inr ⟨a, rfl, h⟩

end Collecting

end PoolGauge
