import PoolGauge.Proofs.Cache.Runs
import PoolGauge.Proofs.Source.Exchange

/-!
# Collections in every run

Whatever else happens, the questions of a call are those of one whole collection from its first
question on, and the call is told what came of just these, unless it took too long.
-/
namespace PoolGauge

variable {σ : Type}

def Exchange.MadeIn (source : Source σ) (kind : σ → Prop) (e : Exchange) : Prop :=
  ∃ state, kind state ∧ e.reply = (source.reply e.query state).1

/-- No question takes a source out of the states of a kind. -/
structure Source.Stays (source : Source σ) (kind : σ → Prop) : Prop where
  call : ∀ query state, kind state → kind (source.call query state).2
  reply : ∀ query state, kind state → kind (source.reply query state).2

theorem Source.stays_true (source : Source σ) : source.Stays fun _ => True :=
  ⟨fun _ _ _ => trivial, fun _ _ _ => trivial⟩

namespace Log

/-- The questions that a call has asked since it arrived, the latest first. -/
def asked (c : Ticket) : Log → List Query
  | [] => []
  | .arrived d :: log => if d = c then [] else asked c log
  | .asked d query :: log => if d = c then query :: asked c log else asked c log
  | _ :: log => asked c log

variable {log later : Log} {c d : Ticket} {e : Event}

@[simp] theorem asked_arrived_self : asked c (.arrived c :: log) = [] :=
  if_pos rfl

@[simp] theorem asked_asked_self (query : Query) :
    asked c (.asked c query :: log) = query :: asked c log :=
  if_pos rfl

theorem asked_cons_of_ne (h : e.call ≠ c) : asked c (e :: log) = asked c log := by
  cases e with
  | arrived d | asked d query => exact if_neg h
  | told | dropped => rfl

theorem asked_append_of_ne {new : Log} (h : ∀ e ∈ new, e.call ≠ c) :
    asked c (new ++ log) = asked c log := by
  induction new with
  | nil => rfl
  | cons e new ih =>
    rw [List.cons_append, asked_cons_of_ne (h e (by simp))]
    exact ih fun f hf => h f (by simp [hf])

/-- A call that waits has not asked anything yet. -/
theorem asked_of_waiting (h : phase c log = .waiting) : asked c log = [] := by
  induction log with
  | nil => rfl
  | cons e log ih =>
    by_cases he : e.call = c
    · subst he
      rw [phase_cons_self] at h
      cases e with
      | arrived d => exact asked_arrived_self
      | asked | told | dropped => cases h
    · rw [asked_cons_of_ne he]
      rw [phase_cons_of_ne he] at h
      exact ih h

/-- A call has asked everything late if it was not collecting before. -/
theorem asked_append (h : Lawful (later ++ log)) (hbefore : phase c log ≠ .collecting)
    (hnow : phase c (later ++ log) ≠ .outside) : asked c (later ++ log) = asked c later := by
  induction later with
  | nil =>
    rw [List.nil_append] at hnow ⊢
    cases hphase : phase c log with
    | outside => exact absurd hphase hnow
    | waiting => exact asked_of_waiting hphase
    | collecting => exact absurd hphase hbefore
  | cons e later ih =>
    have hlater := ih (h.suffix (List.suffix_cons ..))
    by_cases he : e.call = c
    · subst he
      rw [List.cons_append, phase_cons_self] at hnow
      cases e with
      | arrived d => rw [List.cons_append, Event.call, asked_arrived_self, asked_arrived_self]
      | asked d query =>
        have hinside := h.phase_ne_outside (List.suffix_refl _) Event.noConfusion
        rw [List.cons_append, Event.call, asked_asked_self, asked_asked_self]
        exact congrArg _ (hlater hinside)
      | told | dropped => exact absurd rfl hnow
    · rw [List.cons_append, phase_cons_of_ne he] at hnow
      rw [List.cons_append, asked_cons_of_ne he, asked_cons_of_ne he]
      exact hlater hnow

end Log

/-- What a call has come to after some exchanges, of its own from the beginning of a collection on.
If the call asked all its questions late, the replies were made in states of a kind. -/
structure Learnt (source : Source σ) (kind : σ → Prop) (early late : Log) (c : Ticket)
    (walk : Inquiry (Except Failure Inventory)) (due : List Query) (exchanges : List Exchange) :
    Prop where
  leads : Collection.inventory.run.Leads exchanges walk
  asked : (Log.asked c (late ++ early)).reverse = exchanges.map Exchange.query ++ due
  made : Log.asked c (late ++ early) = Log.asked c late → ∀ e ∈ exchanges, e.MadeIn source kind

namespace Learnt

variable {source : Source σ} {kind : σ → Prop} {early late : Log} {c : Ticket}
  {query : Query} {next : query.Reply → Inquiry (Except Failure Inventory)}
  {walk : Inquiry (Except Failure Inventory)} {due : List Query} {exchanges : List Exchange}

/-- A call that has not asked anything is at the beginning of a collection. -/
theorem begin (h : Log.asked c (late ++ early) = []) :
    Learnt source kind early late c Collection.inventory.run [] [] where
  leads := .refl _
  asked := by rw [h]; rfl
  made := nofun

theorem ask (h : Learnt source kind early late c (.ask query next) [] exchanges) :
    Learnt source kind early (.asked c query :: late) c (.ask query next) [query] exchanges where
  leads := h.leads
  asked := by simpa using h.asked
  made hfresh := h.made (by simpa using hfresh)

theorem reply (h : Learnt source kind early late c (.ask query next) [query] exchanges) {state : σ}
    (hstate : kind state) :
    Learnt source kind early late c (next (source.reply query state).1) []
      (exchanges ++ [⟨query, (source.reply query state).1⟩]) where
  leads := h.leads.snoc _
  asked := by simpa using h.asked
  made hfresh e he := by
    rcases List.mem_append.mp he with hold | hnew
    · exact h.made hfresh e hold
    · obtain rfl := List.mem_singleton.mp hnew
      exact ⟨state, hstate, rfl⟩

/-- What happens to other calls does not matter. -/
theorem append_of_ne (h : Learnt source kind early late c walk due exchanges) {new : Log}
    (hnew : ∀ e ∈ new, e.call ≠ c) :
    Learnt source kind early (new ++ late) c walk due exchanges where
  leads := h.leads
  asked := by
    rw [List.append_assoc, Log.asked_append_of_ne hnew]
    exact h.asked
  made := by
    rw [List.append_assoc, Log.asked_append_of_ne hnew, Log.asked_append_of_ne hnew]
    exact h.made

end Learnt

/-- An event is true to a collection: a question is the next one of a collection, and a call that
has collected is told that it took too long or what came of its collection. -/
def Event.TrueTo (rules : RefreshRules σ) (kind : σ → Prop) (early late : Log) : Event → Prop
  | .asked c query => ∃ next exchanges,
      Learnt rules.source kind early late c (.ask query next) [] exchanges
  | .told c outcome => (late ++ early).phase c = .collecting →
      outcome = .error (Refresher.lateFailure rules.limit) ∨ ∃ exchanges, Learnt rules.source kind
        early late c (.done (outcome.map fun p => p.snapshot.toInventory)) [] exchanges
  | .arrived _ | .dropped _ => True

def Log.TrueTo (rules : RefreshRules σ) (kind : σ → Prop) (early late : Log) : Prop :=
  ∀ e past, e :: past <:+ late → e.TrueTo rules kind early past

theorem Log.TrueTo.cons {rules : RefreshRules σ} {kind : σ → Prop} {early late : Log} {e : Event}
    (h : Log.TrueTo rules kind early late) (he : e.TrueTo rules kind early late) :
    Log.TrueTo rules kind early (e :: late) := by
  intro f past hpast
  rcases List.suffix_cons_iff.mp hpast with heq | hsuffix
  · obtain ⟨rfl, rfl⟩ := List.cons.inj heq
    exact he
  · exact h f past hsuffix

/-- What a walk has come to, which waits for a reply or has ended. -/
def Inquiry.ofStop {α : Type} : α ⊕ Pending α → Inquiry α
  | .inl result => .done result
  | .inr pending => .ask pending.query pending.next

/-- The question that waits for a reply, if there is one. -/
def Inquiry.dueAt {α : Type} : α ⊕ Pending α → List Query
  | .inl _ => []
  | .inr pending => [pending.query]

section Advance

variable {rules : RefreshRules σ} {kind : σ → Prop} {early late : Log} {c : Ticket}

/-- A walk that goes on asks what a collection asks next. -/
theorem Inquiry.advance_learnt (hstays : rules.source.Stays kind)
    (walk : Inquiry (Except Failure Inventory)) {state : σ} (questions : List Query)
    {exchanges : List Exchange} (hstate : kind state)
    (htrue : Log.TrueTo rules kind early (questions.map (.asked c) ++ late))
    (hlearnt : Learnt rules.source kind early (questions.map (.asked c) ++ late) c walk []
      exchanges)
    {stop : Except Failure Inventory ⊕ Pending (Except Failure Inventory)} {left : σ}
    {asked : List Query}
    (heq : walk.advance rules.source.recorded (state, questions) = (stop, left, asked)) :
    kind left ∧ Log.TrueTo rules kind early (asked.map (.asked c) ++ late) ∧
      ∃ exchanges, Learnt rules.source kind early (asked.map (.asked c) ++ late) c (ofStop stop)
        (dueAt stop) exchanges := by
  induction walk generalizing state questions exchanges with
  | done result =>
    obtain ⟨rfl, rfl, rfl⟩ := heq
    exact ⟨hstate, htrue, exchanges, hlearnt⟩
  | ask query next ih =>
    have htrue' : Log.TrueTo rules kind early ((query :: questions).map (.asked c) ++ late) :=
      htrue.cons ⟨next, exchanges, hlearnt⟩
    have hlearnt' : Learnt rules.source kind early ((query :: questions).map (.asked c) ++ late) c
        (.ask query next) [query] exchanges := hlearnt.ask
    have hcalled := hstays.call query state hstate
    simp only [Inquiry.advance, Source.recorded] at heq
    cases hcall : rules.source.call query state with
    | mk delay called =>
      rw [hcall] at heq hcalled
      cases delay with
      | zero =>
        exact ih _ _ (hstays.reply query called hcalled) htrue' (hlearnt'.reply hcalled) heq
      | succ delay =>
        obtain ⟨rfl, rfl, rfl⟩ := heq
        exact ⟨hcalled, htrue', exchanges, hlearnt'⟩

end Advance

namespace Refresher

variable (rules : RefreshRules σ) (kind : σ → Prop) (early late : Log)

/-- A refresher goes its course: its source stays in states of a kind, what happened is true to
collections, and the call that collects has come to its attempt. -/
structure Course (r : Refresher σ) : Prop where
  source : kind r.source
  trueTo : Log.TrueTo rules kind early late
  attempt : ∀ c attempt, r.holder = some (c, .collecting attempt) → ∃ exchanges,
    Learnt rules.source kind early late c (.ask attempt.query attempt.next) [attempt.query]
      exchanges

/-- A refresher whose source records goes its course with what is observed. -/
structure ObservedCourse (c : Ticket) (result : Refresher (σ × List Query) × Progress) : Prop where
  source : kind result.1.source.1
  trueTo : Log.TrueTo rules kind early (observed c result ++ late)
  attempt : ∀ d attempt, result.1.holder = some (d, .collecting attempt) → ∃ exchanges,
    Learnt rules.source kind early (observed c result ++ late) d
      (.ask attempt.query attempt.next) [attempt.query] exchanges

variable {rules kind early late} {r : Refresher σ} {c : Ticket} {now : Nat}

theorem holder_release (c : Ticket) (attempt : Attempt) :
    r.release.holder ≠ some (c, .collecting attempt) := by
  obtain ⟨cache, source, holder, queue⟩ := r
  cases queue with
  | nil =>
    intro h
    cases h
  | cons w rest =>
    intro h
    cases h

/-- Nobody collects after a call was given up but who did before, and that is another call. -/
theorem holder_abandon {d : Ticket} {attempt : Attempt}
    (h : (r.abandon c).holder = some (d, .collecting attempt)) :
    r.holder = some (d, .collecting attempt) ∧ c ≠ d := by
  rw [abandon] at h
  split at h
  · rename_i holder hold hheld
    split at h
    · exact absurd h (holder_release d attempt)
    · rename_i hother
      obtain ⟨rfl, -⟩ := Prod.mk.inj (Option.some.inj (hheld.symm.trans h))
      exact ⟨h, Ne.symm hother⟩
  · rename_i hnone
    cases hnone.symm.trans h

theorem map_tell_stamp (cache : Cache) (source : Source σ) (started now : Nat)
    (result : Except Failure Inventory) :
    (cache.tell (result.map (stamp source started now))).map (fun p => p.snapshot.toInventory) =
      result := by
  cases result <;> rfl

/-- A call that is told an outcome, having asked some questions, ends a collection. -/
theorem observedCourse_finish (r : Refresher σ) {left : σ} (asked : List Query)
    {outcome : Except Failure Snapshot} (hleft : kind left)
    (htrue : Log.TrueTo rules kind early (asked.map (.asked c) ++ late))
    (htold : Event.TrueTo rules kind early (asked.map (.asked c) ++ late)
      (.told c (r.cache.tell outcome))) :
    ObservedCourse rules kind early late c
      (({ r with source := left }.recorded asked).finish outcome) where
  source := by simpa [finish, recorded] using hleft
  trueTo := by simpa [observed, finish, recorded, Progress.events] using htrue.cons htold
  attempt d attempt hholder := absurd hholder (holder_release d attempt)

/-- What a refresher does whose source records, it does itself. -/
theorem ObservedCourse.course {left : Refresher σ} {progress : Progress} {asked : List Query}
    (h : ObservedCourse rules kind early late c (left.recorded asked, progress)) :
    left.Course rules kind early (progress.events c ++ asked.map (.asked c) ++ late) :=
  ⟨h.source, h.trueTo, h.attempt⟩

section Walks

variable (hstays : rules.source.Stays kind) (hstate : kind r.source)
  (htrue : Log.TrueTo rules kind early late)

include hstays hstate htrue

theorem observedCourse_proceed {walk : Inquiry (Except Failure Inventory)}
    {exchanges : List Exchange} (started : Nat)
    (hlearnt : Learnt rules.source kind early late c walk [] exchanges) :
    ObservedCourse rules kind early late c
      ((r.recorded []).proceed rules.recorded c started now walk) := by
  rw [proceed]
  cases hadvance : walk.advance rules.recorded.source (r.recorded []).source with
  | mk stop rest =>
    obtain ⟨left, asked⟩ := rest
    obtain ⟨hleft, htrue', exchanges, hlearnt'⟩ :=
      walk.advance_learnt hstays [] hstate htrue hlearnt hadvance
    cases stop with
    | inl ended =>
      refine observedCourse_finish r asked hleft htrue' fun _ => .inr ⟨exchanges, ?_⟩
      rw [map_tell_stamp]
      exact hlearnt'
    | inr pending =>
      dsimp only
      split
      · exact observedCourse_finish r asked hleft htrue' fun _ => .inl rfl
      · refine ⟨hleft, htrue', fun d attempt hholder => ?_⟩
        cases hholder
        exact ⟨exchanges, hlearnt'⟩

theorem observedCourse_enter (seen : UInt64) (hwaiting : (late ++ early).phase c = .waiting) :
    ObservedCourse rules kind early late c
      ((r.recorded []).enter rules.recorded c seen now) := by
  rw [enter]
  split
  · exact observedCourse_proceed hstays hstate htrue now (.begin (Log.asked_of_waiting hwaiting))
  · refine ⟨?_, ?_, fun d attempt hholder => absurd hholder (holder_release d attempt)⟩
    · simpa [recorded] using hstate
    · have hshared : Event.TrueTo rules kind early late (.told c r.cache.shared) := by
        intro hcollecting
        cases hwaiting.symm.trans hcollecting
      simpa [observed, Progress.events, recorded] using htrue.cons hshared

end Walks

theorem collecting_of_holder (hsound : r.Sound late) {attempt : Attempt}
    (hholder : r.holder = some (c, .collecting attempt)) : late.phase c = .collecting := by
  have horderly := hsound.orderly
  rw [turns_of_collecting hholder] at horderly
  exact horderly.collecting

theorem waiting_of_holder (hsound : r.Sound late) {seen : UInt64}
    (hholder : r.holder = some (c, .granted seen)) : late.phase c = .waiting := by
  have horderly := hsound.orderly
  rw [turns_of_granted hholder] at horderly
  exact horderly.waiting

namespace Course

variable (h : r.Course rules kind early late) (hsound : r.Sound (late ++ early))
  (hstays : rules.source.Stays kind)

include h hsound hstays

theorem arrive (now : Nat) (hfresh : c ∉ r.turns.calls) :
    ObservedCourse rules kind early (.arrived c :: late) c
      ((r.recorded []).arrive rules.recorded c now) := by
  have htrue : Log.TrueTo rules kind early (.arrived c :: late) := h.trueTo.cons trivial
  rw [Refresher.arrive]
  cases hholder : (r.recorded []).holder with
  | none => exact observedCourse_enter hstays h.source htrue _ (Log.phase_cons_self (.arrived c) _)
  | some holder =>
    refine ⟨h.source, htrue, fun d attempt hd => ?_⟩
    have hd' : r.holder = some (d, .collecting attempt) := hholder.trans hd
    obtain ⟨exchanges, hlearnt⟩ := h.attempt d attempt hd'
    have hother : c ≠ d := by
      rintro rfl
      refine hfresh (hsound.mem_calls_iff.mpr ?_)
      rw [collecting_of_holder hsound hd']
      decide
    have hnew : ∀ e ∈ [Event.arrived c], e.call ≠ d := by
      simpa [Event.call] using hother
    exact ⟨exchanges, hlearnt.append_of_ne hnew⟩

omit hsound hstays in
theorem observed_nothing : ObservedCourse rules kind early late c (r.recorded [], .waiting) :=
  ⟨h.source, h.trueTo, h.attempt⟩

theorem wake (c : Ticket) (now : Nat) : ObservedCourse rules kind early late c
    ((r.recorded []).wake rules.recorded c now) := by
  by_cases hturn : ∃ hold, r.holder = some (c, hold)
  · obtain ⟨seen | attempt, hholder⟩ := hturn
    · rw [wake_of_granted (r := r.recorded []) hholder]
      exact observedCourse_enter hstays h.source h.trueTo _ (waiting_of_holder hsound hholder)
    · obtain ⟨exchanges, hlearnt⟩ := h.attempt c attempt hholder
      rw [wake_of_collecting (r := r.recorded []) hholder]
      split
      · exact observedCourse_proceed (r := { r with source := _ }) hstays
          (hstays.reply attempt.query r.source h.source) h.trueTo attempt.started
          (hlearnt.reply h.source)
      · split
        · exact observedCourse_finish r [] h.source h.trueTo fun _ => .inl rfl
        · exact h.observed_nothing
  · rw [wake_of_other (r := r.recorded []) fun hold heq => hturn ⟨hold, heq⟩]
    exact h.observed_nothing

/-- Whatever is done to a refresher it goes its course, if no call arrives that is there already and
no change takes its source out of the states of the kind. -/
theorem perform {act : Act σ} (hfresh : act = .arrive → c ∉ r.turns.calls)
    (hset : ∀ change, act = .set change → kind (change r.source)) :
    (r.perform rules c now act).1.Course rules kind early (r.events rules c now act ++ late) := by
  cases act with
  | arrive =>
    obtain ⟨new, heq, -⟩ := arrive_recorded rules now hsound.settled (hfresh rfl)
    have hobserved := h.arrive hsound hstays now (hfresh rfl)
    rw [heq] at hobserved
    rw [events, List.append_assoc, observed, heq]
    exact hobserved.course
  | wake =>
    obtain ⟨new, heq, -⟩ := wake_recorded rules r c now
    have hobserved := h.wake hsound hstays c now
    rw [heq] at hobserved
    rw [events, observed, heq]
    exact hobserved.course
  | abandon =>
    have hothers : ∀ d, c ≠ d → ∀ e ∈ r.events rules c now .abandon, e.call ≠ d :=
      fun d hd e he heq => hd ((call_events e he).symm.trans heq)
    refine ⟨?_, ?_, fun d attempt hd => ?_⟩
    · show kind (r.abandon c).source
      rw [source_abandon]
      exact h.source
    · rw [events]
      split
      · exact h.trueTo.cons trivial
      · exact h.trueTo
    · obtain ⟨hheld, hother⟩ := holder_abandon hd
      obtain ⟨exchanges, hlearnt⟩ := h.attempt d attempt hheld
      exact ⟨exchanges, hlearnt.append_of_ne (hothers d hother)⟩
  | set change => exact ⟨hset change rfl, h.trueTo, h.attempt⟩

omit h hsound hstays in
/-- What happened so far becomes what happened early. -/
theorem restart {log : Log} (h : r.Course rules kind [] log) {other : σ → Prop}
    (hsource : other r.source) : r.Course rules other log [] where
  source := hsource
  trueTo := by simp [Log.TrueTo]
  attempt c attempt hholder := by
    obtain ⟨exchanges, hlearnt⟩ := h.attempt c attempt hholder
    have hasked := hlearnt.asked
    rw [List.append_nil] at hasked
    refine ⟨exchanges, hlearnt.leads, hasked, fun hfresh => ?_⟩
    -- the question under way was asked early
    rw [List.nil_append] at hfresh
    rw [hfresh] at hasked
    simp [Log.asked] at hasked

end Course

end Refresher

namespace Schedule

variable {rules : RefreshRules σ} {kind : σ → Prop} {s t : Schedule σ} {early late new log : Log}
  {source : σ}

/-- A run during which the source stays in states of a kind. -/
inductive ReachesWithin (rules : RefreshRules σ) (kind : σ → Prop) (s : Schedule σ) :
    Log → Schedule σ → Prop
  | refl (h : kind s.refresher.source) : ReachesWithin rules kind s [] s
  | next {t u : Schedule σ} {log new : Log} (run : ReachesWithin rules kind s log t)
      (step : Transition rules t new u) (h : kind u.refresher.source) :
      ReachesWithin rules kind s (new ++ log) u

theorem ReachesWithin.reaches (h : ReachesWithin rules kind s log t) : Reaches rules s log t := by
  induction h with
  | refl => exact .refl
  | next _ step _ ih => exact ih.next step

theorem ReachesWithin.kind_left (h : ReachesWithin rules kind s log t) :
    kind s.refresher.source := by
  induction h with
  | refl h => exact h
  | next _ _ _ ih => exact ih

theorem Reaches.within (h : Reaches rules s log t) :
    ReachesWithin rules (fun _ => True) s log t := by
  induction h with
  | refl => exact .refl trivial
  | next _ step ih => exact ih.next step trivial

/-- Whatever happens next the refresher goes its course. -/
theorem course_transition (h : s.refresher.Course rules kind early late)
    (hsound : s.Sound (late ++ early)) (hstays : rules.source.Stays kind)
    (step : Transition rules s new t) (hkind : kind t.refresher.source) :
    t.refresher.Course rules kind early (new ++ late) := by
  cases step with
  | spawn delay step => exact h
  | pass now ready answers => exact h
  | tellStop id =>
    rw [refresher_tellStop]
    exact h
  | stop id => exact h.perform hsound.refresher hstays nofun nofun
  | @run task htask =>
    have hrefresher := (does_runTask rules s task).refresher
    rw [events]
    rw [hrefresher] at hkind ⊢
    cases hact : task.act? with
    | none => exact h
    | some act =>
      rw [hact] at hkind
      refine h.perform hsound.refresher hstays (hsound.fresh htask hact) ?_
      rintro change rfl
      exact hkind

theorem course_run (h : s.refresher.Course rules kind early [])
    (hs : Reaches rules (initial source) early s) (hstays : rules.source.Stays kind)
    (hrun : ReachesWithin rules kind s late t) : t.refresher.Course rules kind early late := by
  induction hrun with
  | refl => exact h
  | next run step hkind ih =>
    exact course_transition ih (hs.trans run.reaches).sound hstays step hkind

/-- Whatever has happened early, late events are true to collections. -/
theorem ReachesWithin.course (hs : Reaches rules (initial source) early s)
    (hstays : rules.source.Stays kind) (hrun : ReachesWithin rules kind s late t) :
    t.refresher.Course rules kind early late := by
  have hinitial : (initial source).refresher.Course rules (fun _ => True) [] [] :=
    ⟨trivial, by simp [Log.TrueTo], nofun⟩
  have hearly := course_run hinitial .refl rules.source.stays_true hs.within
  exact course_run (hearly.restart hrun.kind_left) hs hstays hrun

end Schedule

end PoolGauge
