import PoolGauge.Cache.Refresher
import PoolGauge.Proofs.Cache.Records

/-!
# Logs of refreshing

What is seen of the calls of refresh from outside: they arrive, ask the source, are told an
outcome, or are given up. How far a call is, and which attempts have ended, can be read off. The
latest event comes first.
-/
namespace PoolGauge

/-- What happens to a call of refresh. -/
inductive Event where
  | arrived (call : Ticket)
  | asked (call : Ticket) (query : Query)
  | told (call : Ticket) (outcome : Outcome)
  | dropped (call : Ticket)

namespace Event

def call : Event → Ticket
  | arrived call | asked call _ | told call _ | dropped call => call

end Event

/-- How far a call is: there is no such call, it has not asked anything yet, or it has. -/
inductive Phase where
  | outside | waiting | collecting
deriving DecidableEq, Repr

def Event.phase : Event → Phase
  | arrived _ => .waiting
  | asked .. => .collecting
  | told .. | dropped _ => .outside

/-- What happened, the latest first. -/
abbrev Log : Type :=
  List Event

namespace Log

/-- How far a call is. -/
def phase (c : Ticket) : Log → Phase
  | [] => .outside
  | e :: log => if e.call = c then e.phase else phase c log

/-- The outcomes of the attempts that have ended: of the calls that have asked and were told. -/
def attempts : Log → List Outcome
  | [] => []
  | .told c outcome :: log =>
    if phase c log = .collecting then outcome :: attempts log else attempts log
  | _ :: log => attempts log

/-- The outcomes of the attempts that have ended since a call arrived. -/
def news (c : Ticket) : Log → List Outcome
  | [] => []
  | .arrived d :: log => if d = c then [] else news c log
  | .told d outcome :: log =>
    if phase d log = .collecting then outcome :: news c log else news c log
  | _ :: log => news c log

/-- What may happen next. A call that waits goes on to collect if no attempt has ended since it
arrived and none is under way; it shares the outcome if one has ended. -/
def Allows (log : Log) : Event → Prop
  | .arrived c => phase c log = .outside
  | .asked c _ => phase c log = .collecting ∨
      phase c log = .waiting ∧ news c log = [] ∧ ∀ d, phase d log ≠ .collecting
  | .told c outcome => phase c log = .collecting ∨
      phase c log = .waiting ∧ ∃ latest, news c log = [latest] ∧ outcome = latest.share
  | .dropped c => phase c log ≠ .outside

def Lawful (log : Log) : Prop :=
  ∀ e before, e :: before <:+ log → Allows before e

variable {log : Log} {c d : Ticket} {e : Event}

@[simp] theorem phase_cons_of_ne (h : e.call ≠ c) : phase c (e :: log) = phase c log :=
  if_neg h

@[simp] theorem phase_cons_self (e : Event) (log : Log) : phase e.call (e :: log) = e.phase :=
  if_pos rfl

theorem phase_append_of_ne {new : Log} (h : ∀ e ∈ new, e.call ≠ c) :
    phase c (new ++ log) = phase c log := by
  induction new with
  | nil => rfl
  | cons e new ih =>
    rw [List.cons_append, phase_cons_of_ne (h e (by simp))]
    exact ih fun f hf => h f (by simp [hf])

@[simp] theorem attempts_arrived : attempts (.arrived c :: log) = attempts log := rfl

theorem attempts_told_of_collecting (h : phase c log = .collecting) (outcome : Outcome) :
    attempts (.told c outcome :: log) = outcome :: attempts log :=
  if_pos h

theorem attempts_told_of_waiting (h : phase c log = .waiting) (outcome : Outcome) :
    attempts (.told c outcome :: log) = attempts log :=
  if_neg (by rw [h]; decide)

theorem attempts_cons (e : Event) (log : Log) : attempts log <:+ attempts (e :: log) := by
  cases e with
  | arrived | asked | dropped => exact List.suffix_refl _
  | told c outcome =>
    rw [attempts]
    split
    · exact List.suffix_cons outcome _
    · exact List.suffix_refl _

theorem attempts_append (later log : Log) : attempts log <:+ attempts (later ++ log) := by
  induction later with
  | nil => exact List.suffix_refl _
  | cons e later ih => exact ih.trans (attempts_cons e (later ++ log))

@[simp] theorem news_arrived_self : news c (.arrived c :: log) = [] :=
  if_pos rfl

theorem news_arrived_of_ne (h : d ≠ c) : news c (.arrived d :: log) = news c log :=
  if_neg h

@[simp] theorem news_asked (query : Query) : news c (.asked d query :: log) = news c log := rfl

@[simp] theorem news_dropped : news c (.dropped d :: log) = news c log := rfl

theorem news_told_of_collecting (h : phase d log = .collecting) (outcome : Outcome) :
    news c (.told d outcome :: log) = outcome :: news c log :=
  if_pos h

theorem news_told_of_waiting (h : phase d log = .waiting) (outcome : Outcome) :
    news c (.told d outcome :: log) = news c log :=
  if_neg (by rw [h]; decide)

/-- The attempts that ended since a call arrived are the latest. -/
theorem news_prefix (c : Ticket) (log : Log) : news c log <+: attempts log := by
  induction log with
  | nil => exact List.prefix_refl []
  | cons e log ih =>
    cases e with
    | arrived d =>
      rw [news, attempts_arrived]
      split
      · exact List.nil_prefix
      · exact ih
    | asked | dropped => exact ih
    | told d outcome =>
      rw [news, attempts]
      split
      · exact List.prefix_cons_inj outcome |>.mpr ih
      · exact ih

theorem lawful_nil : Lawful [] := by
  intro e before h
  simp at h

theorem Lawful.cons (h : Lawful log) (hnext : log.Allows e) : Lawful (e :: log) := by
  intro f before hbefore
  rcases List.suffix_cons_iff.mp hbefore with heq | hsuffix
  · obtain ⟨rfl, rfl⟩ := List.cons.inj heq
    exact hnext
  · exact h f before hsuffix

theorem Lawful.suffix (h : Lawful log) {before : Log} (hbefore : before <:+ log) :
    Lawful before :=
  fun e older holder => h e older (holder.trans hbefore)

theorem Allows.collecting (h : log.Allows e) (he : e.phase = .collecting) :
    phase e.call log = .collecting ∨ ∀ d, phase d log ≠ .collecting := by
  cases e with
  | asked c query => exact h.imp id fun hwaiting => hwaiting.2.2
  | arrived | told | dropped => cases he

/-- No two calls collect at the same time. -/
theorem Lawful.exclusive (h : Lawful log) (hc : phase c log = .collecting)
    (hd : phase d log = .collecting) : c = d := by
  induction log with
  | nil => simp [phase] at hc
  | cons e log ih =>
    have hnext := h e log (List.suffix_refl _)
    have hlog := h.suffix (List.suffix_cons e log)
    by_cases hce : e.call = c <;> by_cases hde : e.call = d
    · exact hce.symm.trans hde
    · subst hce
      rw [phase_cons_self] at hc
      rw [phase_cons_of_ne hde] at hd
      rcases hnext.collecting hc with hbefore | hquiet
      · exact ih hlog hbefore hd
      · exact absurd hd (hquiet d)
    · subst hde
      rw [phase_cons_self] at hd
      rw [phase_cons_of_ne hce] at hc
      rcases hnext.collecting hd with hbefore | hquiet
      · exact ih hlog hc hbefore
      · exact absurd hc (hquiet c)
    · rw [phase_cons_of_ne hce] at hc
      rw [phase_cons_of_ne hde] at hd
      exact ih hlog hc hd

/-- Nothing happens to a call that has not arrived or has ended. -/
theorem Lawful.phase_ne_outside (h : Lawful log) {before : Log} (he : e :: before <:+ log)
    (harrived : e ≠ .arrived e.call) : phase e.call before ≠ .outside := by
  have hnext := h e before he
  cases e with
  | arrived c => exact absurd rfl harrived
  | asked c query =>
    rcases hnext with hphase | ⟨hphase, -⟩ <;> exact ne_of_eq_of_ne hphase nofun
  | told c outcome =>
    rcases hnext with hphase | ⟨hphase, -⟩ <;> exact ne_of_eq_of_ne hphase nofun
  | dropped c => exact hnext

/-- Nothing happened to a call since it arrived. -/
structure Since (c : Ticket) (mid before log : Log) : Prop where
  eq : log = mid ++ .arrived c :: before
  silent : ∀ e ∈ mid, e.call ≠ c

theorem exists_since (h : phase c log = .waiting) : ∃ mid before, Since c mid before log := by
  induction log with
  | nil => cases h
  | cons e log ih =>
    by_cases he : e.call = c
    · subst he
      rw [phase_cons_self] at h
      cases e with
      | arrived d => exact ⟨[], log, rfl, nofun⟩
      | asked | told | dropped => cases h
    · rw [phase_cons_of_ne he] at h
      obtain ⟨mid, before, rfl, hsilent⟩ := ih h
      exact ⟨e :: mid, before, rfl, List.forall_mem_cons.mpr ⟨he, hsilent⟩⟩

theorem Since.phase {mid before : Log} (h : Since c mid before log) : log.phase c = .waiting := by
  obtain ⟨rfl, hsilent⟩ := h
  induction mid with
  | nil => exact phase_cons_self (.arrived c) before
  | cons e mid ih =>
    rw [List.cons_append, phase_cons_of_ne (hsilent e (by simp))]
    exact ih fun f hf => hsilent f (by simp [hf])

theorem Since.attempts {mid before : Log} (h : Since c mid before log) :
    log.attempts = log.news c ++ before.attempts := by
  obtain ⟨rfl, hsilent⟩ := h
  induction mid with
  | nil => simp
  | cons e mid ih =>
    have hmid := ih fun f hf => hsilent f (by simp [hf])
    have he := hsilent e (by simp)
    cases e with
    | arrived d => simpa [Log.attempts, news, show d ≠ c from he] using hmid
    | asked d query => exact hmid
    | dropped d => exact hmid
    | told d outcome =>
      simp only [List.cons_append, Log.attempts, news]
      split
      · rw [hmid, List.cons_append]
      · exact hmid

/-- The first thing that a call does after its arrival is to collect if and only if no attempt has
ended since; else it is told the outcome of the one attempt that has. -/
theorem Lawful.first_event (h : Lawful log) {mid before now : Log} (hsince : Since c mid before now)
    (he : e :: now <:+ log) (hcall : e.call = c) (hkept : e ≠ .dropped c) :
    ((∃ query, e = .asked c query) ↔ now.attempts = before.attempts) ∧
    ((¬ ∃ query, e = .asked c query) → ∃ outcome,
      now.attempts = outcome :: before.attempts ∧ e = .told c outcome.share) := by
  have hnext := h e now he
  have hphase := hsince.phase
  have hattempts := hsince.attempts
  subst hcall
  cases e with
  | arrived c => cases hphase.symm.trans hnext
  | dropped c => exact absurd rfl hkept
  | asked c query =>
    rcases hnext with hcollecting | ⟨-, hnews, -⟩
    · cases hphase.symm.trans hcollecting
    · rw [show (Event.asked c query).call = c from rfl, hnews] at hattempts
      exact ⟨⟨fun _ => hattempts, fun _ => ⟨query, rfl⟩⟩, fun hnot => absurd ⟨query, rfl⟩ hnot⟩
  | told c outcome =>
    rcases hnext with hcollecting | ⟨-, latest, hnews, rfl⟩
    · cases hphase.symm.trans hcollecting
    · rw [show (Event.told c latest.share).call = c from rfl, hnews, List.singleton_append]
        at hattempts
      refine ⟨⟨fun ⟨query, heq⟩ => (by cases heq), fun hsame => ?_⟩,
        fun _ => ⟨latest, hattempts, rfl⟩⟩
      rw [hsame] at hattempts
      exact absurd hattempts.symm (List.cons_ne_self _ _)

end Log

end PoolGauge
