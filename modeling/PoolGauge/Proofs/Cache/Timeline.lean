import Mathlib.Algebra.GroupWithZero.Nat
import PoolGauge.Proofs.Cache.Steps

/-!
# Timelines

More can be seen of a call than the log of refreshing has: when something happened, how long the
source takes for a reply, and what it replies. It is found out with a source that takes notes, which
changes nothing else; what it notes is mapped to what the log has.
-/
namespace PoolGauge

variable {σ τ : Type}

section Maps

/-- One source does what another does with a part of its state, and attempts may take as long. -/
structure RefreshRules.MapsTo (f : τ → σ) (fine : RefreshRules τ) (coarse : RefreshRules σ) :
    Prop where
  call : ∀ query state, coarse.source.call query (f state) =
    ((fine.source.call query state).1, f (fine.source.call query state).2)
  reply : ∀ query state, coarse.source.reply query (f state) =
    ((fine.source.reply query state).1, f (fine.source.reply query state).2)
  clock : coarse.source.clock = fine.source.clock
  limit : coarse.limit = fine.limit

/-- The refresher with a part of the state of its source. -/
def Refresher.map (f : τ → σ) (r : Refresher τ) : Refresher σ :=
  ⟨r.cache, f r.source, r.holder, r.queue⟩

variable {f : τ → σ} {fine : RefreshRules τ} {coarse : RefreshRules σ}

theorem Inquiry.advance_map {α : Type} (h : fine.MapsTo f coarse)
    (walk : Inquiry α) (state : τ) : walk.advance coarse.source (f state) =
      ((walk.advance fine.source state).1, f (walk.advance fine.source state).2) := by
  induction walk generalizing state with
  | done result => rfl
  | ask query next ih =>
    simp only [advance, h.call]
    cases hcall : fine.source.call query state with
    | mk delay called =>
      cases delay with
      | zero =>
        simp only [h.reply]
        exact ih _ _
      | succ delay => rfl

namespace Refresher

variable (r : Refresher τ) (c : Ticket) (now : Nat)

theorem release_map : (r.map f).release = r.release.map f := by
  obtain ⟨cache, source, holder, queue⟩ := r
  cases queue <;> rfl

theorem finish_map (outcome : Except Failure Snapshot) :
    (r.map f).finish outcome = ((r.finish outcome).1.map f, (r.finish outcome).2) := by
  simp only [finish, ← release_map]
  rfl

variable (h : fine.MapsTo f coarse)

include h

theorem proceed_map (started : Nat) (walk : Inquiry (Except Failure Inventory)) :
    (r.map f).proceed coarse c started now walk =
      ((r.proceed fine c started now walk).1.map f, (r.proceed fine c started now walk).2) := by
  have hadvance : walk.advance coarse.source (r.map f).source = _ := walk.advance_map h r.source
  rw [proceed, proceed, hadvance, h.limit]
  obtain ⟨ended | pending, left⟩ := walk.advance fine.source r.source
  · have hstamp : stamp coarse.source started now = stamp fine.source started now := by
      funext inventory
      rw [stamp, stamp, h.clock]
    simp only [hstamp]
    exact finish_map { r with source := left } _
  · dsimp only
    split
    · exact finish_map { r with source := left } _
    · rfl

theorem enter_map (seen : UInt64) : (r.map f).enter coarse c seen now =
    ((r.enter fine c seen now).1.map f, (r.enter fine c seen now).2) := by
  rw [enter, enter]
  by_cases hsame : r.cache.generation = seen
  · rw [if_pos hsame, if_pos (show (r.map f).cache.generation = seen from hsame)]
    exact proceed_map r c now h now _
  · rw [if_neg hsame, if_neg (show ¬ (r.map f).cache.generation = seen from hsame), release_map]
    rfl

theorem arrive_map : (r.map f).arrive coarse c now =
    ((r.arrive fine c now).1.map f, (r.arrive fine c now).2) := by
  rw [arrive, arrive, show (r.map f).holder = r.holder from rfl]
  cases r.holder with
  | none => exact enter_map r c now h _
  | some holder => rfl

theorem wake_map : (r.map f).wake coarse c now =
    ((r.wake fine c now).1.map f, (r.wake fine c now).2) := by
  by_cases hturn : ∃ hold, r.holder = some (c, hold)
  · obtain ⟨seen | attempt, hholder⟩ := hturn
    · rw [wake_of_granted hholder, wake_of_granted (r := r.map f) hholder]
      exact enter_map r c now h seen
    · rw [wake_of_collecting hholder, wake_of_collecting (r := r.map f) hholder, h.limit]
      have hreply : coarse.source.reply attempt.query (r.map f).source = _ :=
        h.reply attempt.query r.source
      rw [hreply]
      split
      · exact proceed_map { r with source := _ } c now h attempt.started _
      · split
        · exact finish_map r _
        · rfl
  · rw [wake_of_other fun hold heq => hturn ⟨hold, heq⟩,
      wake_of_other (r := r.map f) fun hold heq => hturn ⟨hold, heq⟩]

end Refresher

end Maps

/-- What a source notes: that it is called and how many milliseconds it will take, and its reply,
with the state in which it finds itself. -/
inductive Note (σ : Type) where
  | called (state : σ) (query : Query) (delay : Nat)
  | replied (state : σ) (exchange : Exchange)

/-- The source that also takes notes, the latest first. -/
def Source.noted (source : Source σ) : Source (σ × List (Note σ)) where
  call query s :=
    let (delay, called) := source.call query s.1
    (delay, called, .called s.1 query delay :: s.2)
  reply query s :=
    let (reply, replied) := source.reply query s.1
    (reply, replied, .replied s.1 ⟨query, reply⟩ :: s.2)
  clock := source.clock

theorem Source.noted_call (source : Source σ) (query : Query) (s : σ × List (Note σ)) :
    source.noted.call query s = ((source.call query s.1).1, (source.call query s.1).2,
      .called s.1 query (source.call query s.1).1 :: s.2) := rfl

def RefreshRules.noted (rules : RefreshRules σ) : RefreshRules (σ × List (Note σ)) :=
  ⟨rules.source.noted, rules.limit⟩

def Refresher.noted (r : Refresher σ) (notes : List (Note σ)) : Refresher (σ × List (Note σ)) :=
  ⟨r.cache, (r.source, notes), r.holder, r.queue⟩

namespace Note

def query? : Note σ → Option Query
  | called _ query _ => some query
  | replied .. => none

end Note

theorem RefreshRules.noted_mapsTo (rules : RefreshRules σ) : rules.noted.MapsTo Prod.fst rules :=
  ⟨fun _ _ => rfl, fun _ _ => rfl, rfl, rfl⟩

theorem RefreshRules.noted_mapsTo_recorded (rules : RefreshRules σ) :
    rules.noted.MapsTo (fun s => (s.1, s.2.filterMap Note.query?)) rules.recorded :=
  ⟨fun _ _ => rfl, fun _ _ => rfl, rfl, rfl⟩

/-- What happens to a call: it arrives, calls the source, hears a reply, is told an outcome, or is
given up. The source is in some state when it is called and when it replies. -/
inductive Happening (σ : Type) where
  | arrived (call : Ticket)
  | called (call : Ticket) (state : σ) (query : Query) (delay : Nat)
  | replied (call : Ticket) (state : σ) (exchange : Exchange)
  | told (call : Ticket) (outcome : Outcome)
  | dropped (call : Ticket)

namespace Happening

def call : Happening σ → Ticket
  | arrived call | called call .. | replied call .. | told call _ | dropped call => call

def tells (c : Ticket) : Happening σ → Bool
  | told call _ => call == c
  | _ => false

/-- What the log of refreshing has of it. -/
def event? : Happening σ → Option Event
  | arrived call => some (.arrived call)
  | called call _ query _ => some (.asked call query)
  | replied .. => none
  | told call outcome => some (.told call outcome)
  | dropped call => some (.dropped call)

end Happening

def Note.happening (c : Ticket) : Note σ → Happening σ
  | called state query delay => .called c state query delay
  | replied state exchange => .replied c state exchange

def Progress.happenings (c : Ticket) : Progress → List (Happening σ)
  | .waiting => []
  | .told outcome => [.told c outcome]

namespace Refresher

/-- What happened to a call while a refresher whose source takes notes let it go on. -/
def witnessed (c : Ticket) (result : Refresher (σ × List (Note σ)) × Progress) :
    List (Happening σ) :=
  result.2.happenings c ++ result.1.source.2.map (Note.happening c)

def happenings (rules : RefreshRules σ) (r : Refresher σ) (c : Ticket) (now : Nat) :
    Act σ → List (Happening σ)
  | .arrive => witnessed c ((r.noted []).arrive rules.noted c now) ++ [.arrived c]
  | .wake => witnessed c ((r.noted []).wake rules.noted c now)
  | .abandon => if c ∈ r.turns.calls then [.dropped c] else []
  | .set _ => []

variable {rules : RefreshRules σ} {r : Refresher σ} {c : Ticket} {now : Nat}

theorem filterMap_witnessed (result : Refresher (σ × List (Note σ)) × Progress) :
    (witnessed c result).filterMap Happening.event? =
      observed c (result.1.map (fun s => (s.1, s.2.filterMap Note.query?)), result.2) := by
  obtain ⟨r, progress⟩ := result
  have hnotes : ∀ notes : List (Note σ), (notes.map (Note.happening c)).filterMap Happening.event? =
      (notes.filterMap Note.query?).map (.asked c) := by
    intro notes
    rw [List.filterMap_map, List.map_filterMap]
    congr 1
    funext note
    cases note <;> rfl
  rw [witnessed, observed, List.filterMap_append, hnotes]
  congr 1
  cases progress <;> rfl

/-- The log of what happens in an act. -/
theorem filterMap_happenings (act : Act σ) :
    (r.happenings rules c now act).filterMap Happening.event? = r.events rules c now act := by
  have hmaps := rules.noted_mapsTo_recorded
  cases act with
  | arrive =>
    rw [happenings, List.filterMap_append, filterMap_witnessed, ← arrive_map _ c now hmaps]
    rfl
  | wake =>
    rw [happenings, filterMap_witnessed, ← wake_map _ c now hmaps]
    rfl
  | abandon =>
    rw [happenings, events]
    split <;> rfl
  | set change => rfl

theorem call_witnessed (result : Refresher (σ × List (Note σ)) × Progress) :
    ∀ h ∈ witnessed c result, h.call = c := by
  intro h hmem
  rcases List.mem_append.mp hmem with htold | hnoted
  · cases hresult : result.2 with
    | waiting => simp [Progress.happenings, hresult] at htold
    | told outcome =>
      rw [hresult] at htold
      rw [List.mem_singleton.mp htold]
      rfl
  · obtain ⟨note, -, rfl⟩ := List.mem_map.mp hnoted
    cases note <;> rfl

theorem call_happenings {act : Act σ} : ∀ h ∈ r.happenings rules c now act, h.call = c := by
  intro h hmem
  cases act with
  | arrive =>
    rcases List.mem_append.mp hmem with hwitnessed | harrived
    · exact call_witnessed _ h hwitnessed
    · rw [List.mem_singleton.mp harrived]
      rfl
  | wake => exact call_witnessed _ h hmem
  | abandon =>
    rw [happenings] at hmem
    split at hmem
    · rw [List.mem_singleton.mp hmem]
      rfl
    · contradiction
  | set change => contradiction

/-- What has happened last in an act after which a call is told. -/
theorem happenings_of_told {act : Act σ} {outcome : Outcome} (hcall : act = .arrive ∨ act = .wake)
    (htold : (r.perform rules c now act).2 = .told outcome) :
    ∃ rest, r.happenings rules c now act = .told c outcome :: rest := by
  have hmaps := rules.noted_mapsTo
  rcases hcall with rfl | rfl
  · have hnoted : ((r.noted []).arrive rules.noted c now).2 = .told outcome := by
      rw [← htold, perform]
      exact (congrArg Prod.snd (arrive_map (r.noted []) c now hmaps)).symm
    rw [happenings, witnessed, hnoted]
    exact ⟨_, rfl⟩
  · have hnoted : ((r.noted []).wake rules.noted c now).2 = .told outcome := by
      rw [← htold, perform]
      exact (congrArg Prod.snd (wake_map (r.noted []) c now hmaps)).symm
    rw [happenings, witnessed, hnoted]
    exact ⟨_, rfl⟩

end Refresher

structure Moment (σ : Type) where
  time : Nat
  what : Happening σ

/-- What happened when, the latest first. -/
abbrev Timeline (σ : Type) : Type :=
  List (Moment σ)

theorem Refresher.call_map_happenings {rules : RefreshRules σ} {r : Refresher σ} {c : Ticket}
    {now : Nat} {act : Act σ} :
    ∀ m ∈ (r.happenings rules c now act).map (Moment.mk now), m.what.call = c := by
  intro m hm
  obtain ⟨happening, hmem, rfl⟩ := List.mem_map.mp hm
  exact call_happenings happening hmem

/-- A call of the source: when and in which state it was made, and how many milliseconds it
takes. -/
structure Call (σ : Type) where
  time : Nat
  state : σ
  query : Query
  delay : Nat

namespace Moment

def called? : Moment σ → Option (Call σ)
  | ⟨time, .called _ state query delay⟩ => some ⟨time, state, query, delay⟩
  | _ => none

def exchange? : Moment σ → Option Exchange
  | ⟨_, .replied _ _ exchange⟩ => some exchange
  | _ => none

end Moment

namespace Timeline

def log (timeline : Timeline σ) : Log :=
  timeline.filterMap (·.what.event?)

/-- What has happened to a call since it arrived. -/
def own (c : Ticket) : Timeline σ → Timeline σ
  | [] => []
  | ⟨_, .arrived d⟩ :: rest => if d = c then [] else own c rest
  | m :: rest => if m.what.call = c then m :: own c rest else own c rest

def calls (timeline : Timeline σ) : List (Call σ) :=
  timeline.filterMap Moment.called?

def first? (timeline : Timeline σ) : Option (Call σ) :=
  timeline.calls.getLast?

/-- The milliseconds that the calls of the source take in all. -/
def spent (timeline : Timeline σ) : Nat :=
  (timeline.calls.map Call.delay).sum

def queries (timeline : Timeline σ) : List Query :=
  (timeline.calls.map Call.query).reverse

/-- The exchanges with the source that are over, in order. -/
def exchanges (timeline : Timeline σ) : List Exchange :=
  (timeline.filterMap Moment.exchange?).reverse

variable {timeline new : Timeline σ} {c : Ticket} {m : Moment σ}

theorem log_append (new timeline : Timeline σ) : log (new ++ timeline) = log new ++ log timeline :=
  List.filterMap_append

theorem log_map_mk (time : Nat) (happenings : List (Happening σ)) :
    log (happenings.map (Moment.mk time)) = happenings.filterMap Happening.event? := by
  rw [log, List.filterMap_map]
  rfl

theorem own_arrived_self {time : Nat} : own c (⟨time, .arrived c⟩ :: timeline) = [] :=
  if_pos rfl

theorem own_cons_of_ne (h : m.what.call ≠ c) : own c (m :: timeline) = own c timeline := by
  obtain ⟨time, what⟩ := m
  cases what <;> exact if_neg h

theorem own_append_of_ne (h : ∀ m ∈ new, m.what.call ≠ c) :
    own c (new ++ timeline) = own c timeline := by
  induction new with
  | nil => rfl
  | cons m new ih =>
    rw [List.cons_append, own_cons_of_ne (h m (by simp))]
    exact ih fun m' hm' => h m' (by simp [hm'])

theorem own_cons_self (hcall : m.what.call = c) (h : ∀ d, m.what ≠ .arrived d) :
    own c (m :: timeline) = m :: own c timeline := by
  obtain ⟨time, what⟩ := m
  cases what with
  | arrived d => exact absurd rfl (h d)
  | called | replied | told | dropped => exact if_pos hcall

theorem own_append_of_nil (h : own c timeline = []) :
    own c (new ++ timeline) = own c new := by
  induction new with
  | nil => exact h
  | cons m new ih =>
    obtain ⟨time, what⟩ := m
    cases what with
    | arrived d => exact if_congr Iff.rfl rfl ih
    | called | replied | told | dropped => exact if_congr Iff.rfl (congrArg _ ih) ih

/-- A call that collects has called the source. -/
theorem calls_own_ne_nil (h : (log timeline).phase c = .collecting) :
    (own c timeline).calls ≠ [] := by
  induction timeline with
  | nil => cases h
  | cons m timeline ih =>
    obtain ⟨time, what⟩ := m
    by_cases hcall : what.call = c
    · subst hcall
      cases what with
      | called d state query delay =>
        have hown : own d (⟨time, .called d state query delay⟩ :: timeline) =
            ⟨time, .called d state query delay⟩ :: own d timeline := if_pos rfl
        exact hown ▸ List.cons_ne_nil _ _
      | replied d state exchange =>
        have hown : own d (⟨time, .replied d state exchange⟩ :: timeline) =
            ⟨time, .replied d state exchange⟩ :: own d timeline := if_pos rfl
        exact hown ▸ ih h
      | arrived d => cases (Log.phase_cons_self (.arrived d) (log timeline)).symm.trans h
      | told d outcome => cases (Log.phase_cons_self (.told d outcome) (log timeline)).symm.trans h
      | dropped d => cases (Log.phase_cons_self (.dropped d) (log timeline)).symm.trans h
    · rw [own_cons_of_ne hcall]
      refine ih ?_
      cases what with
      | replied => exact h
      | arrived | called | told | dropped => exact (if_neg hcall).symm.trans h

/-- What a source notes for a call has happened to it since it arrived. -/
theorem own_notes (time : Nat) (notes : List (Note σ)) :
    own c (notes.map (fun note => ⟨time, note.happening c⟩) ++ timeline) =
      notes.map (fun note => ⟨time, note.happening c⟩) ++ own c timeline := by
  induction notes with
  | nil => rfl
  | cons note notes ih =>
    rw [List.map_cons, List.cons_append, own_cons_self, ih]
    · rfl
    · cases note <;> rfl
    · intro d
      cases note <;> nofun

end Timeline

end PoolGauge
