import PoolGauge.Proofs.Cache.Collections
import PoolGauge.Source.Script

/-!
# How old a served snapshot can be

A scrape that refreshes is served a snapshot of which everything was asked since the scrape arrived,
unless a collection was under way then; that one it may share.
-/
namespace PoolGauge

variable {σ : Type}

/-- In states of a kind the replies of a source depend on the questions alone. -/
def Source.RepliesBy (source : Source σ) (kind : σ → Prop)
    (replies : (query : Query) → query.Reply) : Prop :=
  ∀ query state, kind state → (source.reply query state).1 = replies query

/-- If replies depend on the questions alone in states of a kind, then what came of exchanges in
such states is what a walk ends with that is run in them. -/
theorem Inquiry.Yields.result_of_madeIn {α : Type} {source : Source σ} {kind : σ → Prop}
    {walk : Inquiry α} {exchanges : List Exchange} {result : α}
    {replies : (query : Query) → query.Reply} (h : walk.Yields exchanges result)
    (hstays : source.Stays kind) (hreplies : source.RepliesBy kind replies)
    (hmade : ∀ e ∈ exchanges, e.MadeIn source kind) {state : σ} (hstate : kind state) :
    (walk.run source state).result = result := by
  induction h generalizing state with
  | done result => rfl
  | @ask query next reply log result rest ih =>
    have hcalled := hstays.call query state hstate
    obtain ⟨other, hother, hreply⟩ := hmade _ (List.mem_cons_self ..)
    have hsame : (source.reply query (source.call query state).2).1 = reply :=
      (hreplies query _ hcalled).trans ((hreplies query other hother).symm.trans hreply.symm)
    rw [Inquiry.run]
    simp only [hsame]
    exact ih (fun e he => hmade e (List.mem_cons_of_mem _ he)) (hstays.reply query _ hcalled)

namespace Log

variable {log later mid since : Log} {c d : Ticket} {e : Event} {outcome : Outcome}

theorem asked_prefix (c : Ticket) (later log : Log) : asked c later <+: asked c (later ++ log) := by
  induction later with
  | nil => exact List.nil_prefix
  | cons e later ih =>
    by_cases he : e.call = c
    · subst he
      cases e with
      | arrived d => simp [Event.call]
      | asked d query =>
        rw [List.cons_append, Event.call, asked_asked_self, asked_asked_self]
        exact (List.prefix_cons_inj query).mpr ih
      | told | dropped => exact ih
    · rw [List.cons_append, asked_cons_of_ne he, asked_cons_of_ne he]
      exact ih

theorem asked_append_of_mem (h : .arrived c ∈ later) : asked c (later ++ log) = asked c later := by
  induction later with
  | nil => cases h
  | cons e later ih =>
    rw [List.cons_append]
    rcases List.mem_cons.mp h with rfl | hlater
    · rw [asked_arrived_self, asked_arrived_self]
    · have hrest := ih hlater
      cases e with
      | arrived d | asked d query => simp only [asked, hrest]
      | told | dropped => exact hrest

/-- A call that collects has asked everything since another arrived, unless it is still the call
that was collecting then. -/
theorem asked_since (h : Lawful (since ++ .arrived c :: log))
    (hcollecting : phase d (since ++ .arrived c :: log) = .collecting)
    (hother : ¬ (phase d log = .collecting ∧ .arrived d ∉ since)) :
    asked d (since ++ .arrived c :: log) = asked d since := by
  by_cases harrived : .arrived d ∈ since
  · exact asked_append_of_mem harrived
  · have hquiet : phase d log ≠ .collecting := fun hbusy => hother ⟨hbusy, harrived⟩
    refine asked_append h ?_ (ne_of_eq_of_ne hcollecting nofun)
    by_cases hd : c = d
    · subst hd
      exact ne_of_eq_of_ne (phase_cons_self (.arrived c) _) nofun
    · rwa [phase_cons_of_ne (e := .arrived c) hd]

/-- An attempt that ended since a call arrived was told to the call that made it. -/
theorem told_of_news (h : outcome ∈ news c (mid ++ .arrived c :: log))
    (harrived : .arrived c ∉ mid) : ∃ d since, .told d outcome :: since <:+ mid ∧
      phase d (since ++ .arrived c :: log) = .collecting := by
  induction mid with
  | nil => simp at h
  | cons e mid ih =>
    have hmid : .arrived c ∉ mid := fun hmem => harrived (List.mem_cons_of_mem _ hmem)
    have hearlier : outcome ∈ news c (mid ++ .arrived c :: log) → ∃ d since,
        .told d outcome :: since <:+ e :: mid ∧
          phase d (since ++ .arrived c :: log) = .collecting := by
      intro hnews
      obtain ⟨d, since, hsince, hphase⟩ := ih hnews hmid
      exact ⟨d, since, hsince.trans (List.suffix_cons ..), hphase⟩
    cases e with
    | arrived d =>
      have hd : d ≠ c := by
        rintro rfl
        exact harrived (List.mem_cons_self ..)
      rw [List.cons_append, news_arrived_of_ne hd] at h
      exact hearlier h
    | asked | dropped => exact hearlier h
    | told d latest =>
      rw [List.cons_append, news] at h
      split at h
      · rename_i hcollecting
        rcases List.mem_cons.mp h with rfl | hold
        · exact ⟨d, mid, List.suffix_refl _, hcollecting⟩
        · exact hearlier hold
      · exact hearlier h

/-- A call that has not ended has arrived. -/
theorem Lawful.exists_arrival (h : Lawful log) (hinside : phase c log ≠ .outside) :
    ∃ mid before, log = mid ++ .arrived c :: before ∧ .arrived c ∉ mid := by
  refine List.eq_append_cons_of_mem ?_
  induction log with
  | nil => exact absurd rfl hinside
  | cons e log ih =>
    have hearlier := ih (h.suffix (List.suffix_cons ..))
    by_cases he : e.call = c
    · subst he
      by_cases harrived : e = .arrived e.call
      · rw [← harrived]
        exact List.mem_cons_self ..
      · exact List.mem_cons_of_mem _ (hearlier (h.phase_ne_outside (List.suffix_refl _) harrived))
    · rw [phase_cons_of_ne he] at hinside
      exact List.mem_cons_of_mem _ (hearlier hinside)

end Log

def Step.purpose? : Step σ → Option Purpose
  | .refresh => some .refresh
  | .scrape .onScrape => some .scrape
  | .http request mode =>
    if request.isScrape ∧ mode = .onScrape then some (.page request) else none
  | .set _ | .current | .scrape .interval | .sleep _ | .interval .. => none

/-- What a task that does a step calls or called refresh for when it runs. -/
def Activity.purpose? : Activity σ → Option Purpose
  | .starting 0 step | .delayed _ step => step.purpose?
  | .refreshing purpose _ => some purpose
  | _ => none

def Purpose.scrape? : Purpose → Option (Cache → Option Published → Answer)
  | .scrape => some fun _ => .found
  | .page request => some fun cache served => .response (.answer request cache served)
  | .refresh | .tick .. => none

/-- What a snapshot was built from that a scrape was served: the exchanges of one call, which was
told the snapshot since the scrape arrived. The call asked everything since then, of a source in
states of a kind, unless it was collecting already then. -/
structure BuiltFrom (source : Source σ) (kind : σ → Prop) (scrape : Ticket) (mid before : Log)
    (p : Published) (collector : Ticket) (since : Log) (exchanges : List Exchange) : Prop where
  told : .told collector (.ok p) :: since <:+ .told scrape (.ok p) :: mid
  collecting : Log.phase collector (since ++ .arrived scrape :: before) = .collecting
  yields : Collection.inventory.run.Yields exchanges (.ok p.snapshot.toInventory)
  asked : exchanges.map Exchange.query =
    (Log.asked collector (since ++ .arrived scrape :: before)).reverse
  fresh : before.phase collector = .collecting ∧ .arrived collector ∉ since ∨
    exchanges.map Exchange.query = (Log.asked collector since).reverse ∧
      ∀ e ∈ exchanges, e.MadeIn source kind

namespace Refresher

section Ends

variable (rules : RefreshRules σ) {r : Refresher σ} {c : Ticket} {now : Nat} {attempt : Attempt}
  {result : Except Failure Inventory}

/-- A call whose last reply is due ends its collection. -/
theorem wake_of_last (hholder : r.holder = some (c, .collecting attempt))
    (hdue : attempt.replyAt ≤ now)
    (hlast : attempt.next (rules.source.reply attempt.query r.source).1 = .done result) :
    r.wake rules c now =
      finish { r with source := (rules.source.reply attempt.query r.source).2 }
        (result.map (stamp rules.source attempt.started now)) := by
  rw [wake_of_collecting hholder, if_pos hdue, hlast]
  rfl

theorem events_wake_of_last (hholder : r.holder = some (c, .collecting attempt))
    (hdue : attempt.replyAt ≤ now)
    (hlast : attempt.next (rules.source.reply attempt.query r.source).1 = .done result) :
    r.events rules c now .wake =
      [.told c (r.cache.tell (result.map (stamp rules.source attempt.started now)))] := by
  rw [events, wake_of_last rules.recorded (r := r.recorded []) hholder hdue hlast, observed, finish,
    source_release]
  rfl

/-- A call that saw another generation than there is now shares the latest outcome. -/
theorem events_wake_of_shared {seen : UInt64} (hholder : r.holder = some (c, .granted seen))
    (hdiffers : r.cache.generation ≠ seen) :
    r.events rules c now .wake = [.told c r.cache.shared] := by
  rw [events, wake_of_granted (r := r.recorded []) hholder, enter,
    if_neg (show (r.recorded []).cache.generation ≠ seen from hdiffers), observed, source_release]
  rfl

end Ends

end Refresher

namespace Schedule

variable {rules : RefreshRules σ} {kind : σ → Prop} {source : σ} {s t : Schedule σ}
  {early late now mid before : Log} {task : Task σ} {c d : Ticket} {p : Published} {act : Act σ}
  {purpose : Purpose} {outcome : Outcome} {answer : Cache → Option Published → Answer}

theorem begin_calls (rules : RefreshRules σ) (s : Schedule σ) (c : Ticket) {step : Step σ}
    (hpurpose : step.purpose? = some purpose) : step.act? = some .arrive ∧
    s.begin rules c step =
      s.afterRefresh c purpose s.waits (s.refresher.perform rules c s.now .arrive) := by
  cases step with
  | refresh =>
    obtain rfl := Option.some.inj hpurpose
    exact ⟨rfl, rfl⟩
  | scrape mode =>
    cases mode with
    | interval => cases hpurpose
    | onScrape =>
      obtain rfl := Option.some.inj hpurpose
      exact ⟨rfl, rfl⟩
  | http request mode =>
    rw [Step.purpose?] at hpurpose
    split at hpurpose
    · rename_i hscrape
      obtain rfl := Option.some.inj hpurpose
      rw [begin, if_pos hscrape, Step.act?, if_pos hscrape]
      exact ⟨rfl, rfl⟩
    · cases hpurpose
  | set | current | sleep | interval => cases hpurpose

/-- A task that runs for a call of refresh begins the call or goes on with it. -/
theorem runTask_calls (rules : RefreshRules σ) (s : Schedule σ)
    (hpurpose : task.activity.purpose? = some purpose) :
    ∃ act since, task.act? = some act ∧ (act = .arrive ∨ act = .wake) ∧ s.runTask rules task =
      s.afterRefresh task.id purpose since (s.refresher.perform rules task.id s.now act) := by
  obtain ⟨id, activity, order⟩ := task
  cases activity with
  | starting delay step =>
    cases delay with
    | zero =>
      obtain ⟨hact, hbegin⟩ := begin_calls rules s id hpurpose
      exact ⟨.arrive, s.waits, hact, .inl rfl, hbegin⟩
    | succ delay => cases hpurpose
  | delayed wakeAt step =>
    obtain ⟨hact, hbegin⟩ := begin_calls rules s id hpurpose
    exact ⟨.arrive, s.waits, hact, .inl rfl, hbegin⟩
  | refreshing other since =>
    obtain rfl := Option.some.inj hpurpose
    exact ⟨.wake, _, rfl, .inr rfl, rfl⟩
  | sleeping | watching | looping | ticking | stopping => cases hpurpose

theorem told_of_append {progress : Progress} {questions : List Query} {rest : Log}
    (h : progress.events c ++ questions.map (.asked c) ++ rest = .told c outcome :: now)
    (hrest : rest = [] ∨ rest = [.arrived c]) : progress = .told outcome := by
  cases progress with
  | told other =>
    obtain ⟨htold, -⟩ := List.cons.inj h
    rw [(Event.told.inj htold).2]
  | waiting =>
    cases questions with
    | cons query more => cases h
    | nil => rcases hrest with rfl | rfl <;> cases h

/-- A call is told what it comes to. -/
theorem told_of_events {r : Refresher σ} {log : Log} (hsound : r.Sound log)
    (hfresh : act = .arrive → c ∉ r.turns.calls) {time : Nat}
    (htold : r.events rules c time act = .told c outcome :: now) :
    (r.perform rules c time act).2 = .told outcome := by
  cases act with
  | arrive =>
    obtain ⟨questions, heq, -⟩ :=
      Refresher.arrive_recorded rules time hsound.settled (hfresh rfl)
    rw [Refresher.events, Refresher.observed, heq] at htold
    exact told_of_append htold (.inr rfl)
  | wake =>
    obtain ⟨questions, heq, -⟩ := Refresher.wake_recorded rules r c time
    rw [Refresher.events, Refresher.observed, heq, ← List.append_nil (_ ++ _)] at htold
    exact told_of_append htold (.inl rfl)
  | abandon =>
    rw [Refresher.events] at htold
    split at htold
    · cases htold
    · cases htold
  | set change => cases htold

/-- A scrape whose call is told of a success is answered with the snapshot that it is told. -/
theorem runTask_scrape (hsound : t.Sound late) (htask : task ∈ t.tasks)
    (hpurpose : task.activity.purpose? = some purpose) (hscrape : purpose.scrape? = some answer)
    (htold : t.events rules task = .told task.id (.ok p) :: now) :
    (t.runTask rules task).answers =
      (task.id, answer (t.runTask rules task).refresher.cache (some p)) :: t.answers := by
  obtain ⟨act, since, hact, -, hrun⟩ := runTask_calls rules t hpurpose
  have hevents : t.refresher.events rules task.id t.now act = .told task.id (.ok p) :: now := by
    rw [events, hact] at htold
    exact htold
  have hprogress := told_of_events hsound.refresher (hsound.fresh htask hact) hevents
  rw [hrun, refresher_afterRefresh]
  cases hresult : t.refresher.perform rules task.id t.now act with
  | mk r progress =>
    obtain rfl : progress = .told (.ok p) := by rwa [hresult] at hprogress
    cases purpose with
    | scrape | page request =>
      obtain rfl := Option.some.inj hscrape
      rfl
    | refresh | tick => cases hscrape

/-- What an attempt was told is what came of its own exchanges. -/
theorem builtFrom_of_attempt {u : Schedule σ}
    (hcourse : u.refresher.Course rules kind early (.told c (.ok p) :: mid ++ .arrived c :: before))
    (hlawful : Log.Lawful (.told c (.ok p) :: mid ++ .arrived c :: (before ++ early)))
    {since : Log} (htold : .told d (.ok p) :: since <:+ .told c (.ok p) :: mid)
    (hcollecting : Log.phase d (since ++ .arrived c :: (before ++ early)) = .collecting) :
    ∃ exchanges, BuiltFrom rules.source kind c mid (before ++ early) p d since exchanges := by
  have happend : (since ++ .arrived c :: before) ++ early =
      since ++ .arrived c :: (before ++ early) := by
    simp
  have hsuffix : ∀ rest : Log, (.told d (.ok p) :: since) ++ rest <:+
      (.told c (.ok p) :: mid) ++ rest := by
    obtain ⟨after, heq⟩ := htold
    intro rest
    exact ⟨after, by rw [← heq, List.append_assoc]⟩
  obtain ⟨exchanges, hlearnt⟩ : ∃ exchanges, Learnt rules.source kind early
      (since ++ .arrived c :: before) d (.done (.ok p.snapshot.toInventory)) [] exchanges := by
    rcases hcourse.trueTo _ _ (hsuffix _) (happend ▸ hcollecting) with hlate | hlearnt
    · cases hlate
    · exact hlearnt
  have hasked := hlearnt.asked
  rw [List.append_nil, happend] at hasked
  refine ⟨exchanges, htold, hcollecting, hlearnt.leads.yields, hasked.symm, ?_⟩
  by_cases hbefore : (before ++ early).phase d = .collecting ∧ .arrived d ∉ since
  · exact .inl hbefore
  have hown := Log.asked_since (hlawful.suffix ((List.suffix_cons ..).trans (hsuffix _)))
    hcollecting hbefore
  rw [hown] at hasked
  refine .inr ⟨hasked.symm, hlearnt.made ?_⟩
  -- the questions asked late lie between those since the scrape arrived and all of them
  have hearlier := Log.asked_prefix d since (.arrived c :: before)
  have hlater := Log.asked_prefix d (since ++ .arrived c :: before) early
  rw [happend, hown] at hlater ⊢
  exact (hlater.eq_of_length_le hearlier.length_le).symm

/-- After a run of a task that calls refresh, all late events are true to collections. -/
theorem course_runTask (hs : Reaches rules (initial source) early s)
    (hstays : rules.source.Stays kind) (hrun : ReachesWithin rules kind s late t)
    (htask : task ∈ t.tasks) (hpurpose : task.activity.purpose? = some purpose) :
    (t.runTask rules task).refresher.Course rules kind early (t.events rules task ++ late) := by
  have hsound := (hs.trans hrun.reaches).sound
  obtain ⟨act, since, hact, hcalls, hgoes⟩ := runTask_calls rules t hpurpose
  rw [hgoes, refresher_afterRefresh, events, hact]
  refine (hrun.course hs hstays).perform hsound.refresher hstays (hsound.fresh htask hact) ?_
  rintro change rfl
  rcases hcalls with harrive | hwake
  · cases harrive
  · cases hwake

/-- What a call of refresh was told of a success was built from the exchanges of one attempt. -/
theorem exists_builtFrom (hs : Reaches rules (initial source) early s)
    (hstays : rules.source.Stays kind) (hrun : ReachesWithin rules kind s late t)
    (htask : task ∈ t.tasks) (hpurpose : task.activity.purpose? = some purpose)
    (htold : t.events rules task = .told task.id (.ok p) :: now)
    (harrival : now ++ late = mid ++ .arrived task.id :: before)
    (harrived : .arrived task.id ∉ mid) : ∃ collector since exchanges,
      BuiltFrom rules.source kind task.id mid (before ++ early) p collector since exchanges := by
  have hcourse := course_runTask hs hstays hrun htask hpurpose
  have hlawful : Log.Lawful (t.events rules task ++ (late ++ early)) :=
    ((hs.trans hrun.reaches).sound.runTask htask).refresher.lawful
  rw [htold, List.cons_append, harrival, ← List.cons_append] at hcourse
  rw [htold, List.cons_append, ← List.append_assoc, harrival, List.append_assoc,
    List.cons_append] at hlawful
  rcases hlawful _ _ (List.suffix_refl _) with hcollecting | ⟨-, latest, hnews, hshare⟩
  · exact ⟨task.id, mid, builtFrom_of_attempt hcourse hlawful (List.suffix_refl _) hcollecting⟩
  · obtain rfl : latest = .ok p := by
      cases latest with
      | ok q => exact hshare.symm
      | error failure => cases hshare
    obtain ⟨d, since, hsince, hcollecting⟩ :=
      Log.told_of_news (hnews ▸ List.mem_singleton_self _) harrived
    exact ⟨d, since, builtFrom_of_attempt hcourse hlawful
      (hsince.trans (List.suffix_cons ..)) hcollecting⟩

/-- A scrape that refreshes and is told of a success is answered with its snapshot. Everything that
this was built from was asked since the scrape arrived or by the collection under way when it did.
So if none was, a change that was complete when the scrape arrived, and lasts, is seen in all
replies, and the snapshot shows what a collection finds after the change. -/
theorem scrapes_see_lasting_changes (hs : Reaches rules (initial source) early s)
    (hstays : rules.source.Stays kind) (hrun : ReachesWithin rules kind s late t)
    (htask : task ∈ t.tasks) (hpurpose : task.activity.purpose? = some purpose)
    (hscrape : purpose.scrape? = some answer)
    (htold : t.events rules task = .told task.id (.ok p) :: now) :
    (t.runTask rules task).answers =
      (task.id, answer (t.runTask rules task).refresher.cache (some p)) :: t.answers ∧
    (∃ mid before, now ++ late ++ early = mid ++ .arrived task.id :: before ∧
      .arrived task.id ∉ mid) ∧
    ∀ mid before, now ++ late = mid ++ .arrived task.id :: before → .arrived task.id ∉ mid →
      (∃ collector since exchanges, BuiltFrom rules.source kind task.id mid (before ++ early) p
        collector since exchanges) ∧
      ((∀ c, Log.phase c (before ++ early) ≠ .collecting) →
        ∀ replies, rules.source.RepliesBy kind replies → ∀ state, kind state →
          (Collection.inventory.run.run rules.source state).result =
            .ok p.snapshot.toInventory) := by
  have hsound := (hs.trans hrun.reaches).sound
  refine ⟨runTask_scrape hsound htask hpurpose hscrape htold, ?arrival,
    fun mid before heq harrived => ?built⟩
  case arrival =>
    have hlawful : Log.Lawful (t.events rules task ++ (late ++ early)) :=
      (hsound.runTask htask).refresher.lawful
    rw [htold, List.cons_append, ← List.append_assoc] at hlawful
    refine (hlawful.suffix (List.suffix_cons ..)).exists_arrival ?_
    exact hlawful.phase_ne_outside (List.suffix_refl _) nofun
  case built =>
    obtain ⟨collector, since, exchanges, hbuilt⟩ :=
      exists_builtFrom hs hstays hrun htask hpurpose htold heq harrived
    refine ⟨⟨collector, since, exchanges, hbuilt⟩, fun hquiet replies hreplies state hstate => ?_⟩
    rcases hbuilt.fresh with ⟨hbusy, -⟩ | ⟨-, hmade⟩
    · exact absurd hbusy (hquiet collector)
    · exact hbuilt.yields.result_of_madeIn hstays hreplies hmade hstate

section SlowHost

open Collection

/-- A host that takes its time to list pools and datasets, of which it has none. -/
def slowHost : Script where
  statuses := [("tank", .ok
    "\tNAME STATE READ WRITE CKSUM\n\ttank ONLINE 0 0 0\n\t  sda ONLINE 0 0 0\n")]
  delays := { listPools := 10, listDatasets := 10 }

def slowHostWithPool : Script :=
  { slowHost with pools := .ok "tank\tONLINE\n" }

def scripted : RefreshRules Rehearsal where
  source := Rehearsal.source
  limit := 5000

def nothingFound : Published :=
  ⟨0, ⟨[], []⟩, Rehearsal.source.clock 20, .ofMilliseconds 20⟩

/-- The refresher while the datasets of a slow host are listed, with the calls that wait. -/
def listingDatasets (script : Script)
    (next : Except Failure String → Inquiry (Except Failure Inventory))
    (queue : List (Ticket × UInt64)) : Refresher Rehearsal where
  cache := .empty
  source := ⟨script, [.listDatasets, .listPools]⟩
  holder := some (0, .collecting ⟨0, .listDatasets, next, 20⟩)
  queue := queue

variable {next : Except Failure String → Inquiry (Except Failure Inventory)}

theorem stays_script (script : Script) : scripted.source.Stays fun r => r.script = script :=
  ⟨fun _ _ h => h, fun _ _ h => h⟩

/-- A scrape comes to list the datasets of a slow host, after which it is done. -/
theorem reachesWithin_listingDatasets : ∃ next, next (.ok "") = .done (.ok ⟨[], []⟩) ∧
    ReachesWithin scripted (·.script = slowHost) (initial ⟨slowHost, []⟩)
      [.asked 0 .listDatasets, .asked 0 .listPools, .arrived 0]
      ⟨10, listingDatasets slowHost next [], [⟨0, .refreshing .scrape 1, 2⟩], [], 1, 3, []⟩ := by
  have hstart : ReachesWithin scripted (·.script = slowHost) (initial ⟨slowHost, []⟩) [] _ :=
    .refl rfl
  have hspawned : ReachesWithin scripted (·.script = slowHost) (initial ⟨slowHost, []⟩) [] _ :=
    hstart.next (.spawn 0 (.scrape .onScrape)) rfl
  have hasked : ReachesWithin scripted (·.script = slowHost) (initial ⟨slowHost, []⟩)
      [.asked 0 .listPools, .arrived 0] _ :=
    hspawned.next (.run (List.mem_cons_self ..)) rfl
  have hlisted := hasked.next (.pass 10 [] []) rfl
  have hbatches : batches batchSize (readDatasetList "") = [] := by decide +kernel
  refine ⟨_, ?_, hlisted.next (.run (List.mem_cons_self ..)) rfl⟩
  have hassemble : assemble [] [] = ⟨[], []⟩ := by simp [assemble]
  simp only [Inquiry.bind, ExceptT.bindCont, hbatches]
  exact congrArg (fun found => Inquiry.done (Except.ok found)) hassemble

theorem wake_listingDatasets {script : Script} (queue : List (Ticket × UInt64))
    (hdatasets : script.datasets = .ok "")
    (hnext : next (.ok "") = .done (.ok ⟨[], []⟩)) :
    (listingDatasets script next queue).wake scripted 0 20 =
      (listingDatasets script next queue).finish (.ok nothingFound.snapshot) ∧
    (listingDatasets script next queue).events scripted 0 20 .wake =
      [.told 0 (.ok nothingFound)] := by
  have hholder : (listingDatasets script next queue).holder =
      some (0, .collecting ⟨0, .listDatasets, next, 20⟩) := rfl
  have hlast : next (Rehearsal.source.reply .listDatasets
      (listingDatasets script next queue).source).1 = .done (.ok ⟨[], []⟩) :=
    (congrArg next hdatasets).trans hnext
  exact ⟨Refresher.wake_of_last scripted hholder (Nat.le_refl 20) hlast,
    Refresher.events_wake_of_last scripted hholder (Nat.le_refl 20) hlast⟩

/-- A scrape that finds nothing on a slow host. -/
theorem scrape_sees_nothing : ∃ (t : Schedule Rehearsal) (task : Task Rehearsal),
    scripted.source.Stays (fun r => r.script = slowHost) ∧
    ReachesWithin scripted (·.script = slowHost) (initial ⟨slowHost, []⟩)
      [.asked task.id .listDatasets, .asked task.id .listPools, .arrived task.id] t ∧
    task ∈ t.tasks ∧ task.activity.purpose? = some .scrape ∧
    t.events scripted task = [.told task.id (.ok nothingFound)] ∧
    (t.runTask scripted task).answers = [(task.id, .found (some nothingFound))] ∧
    ∃ collector since exchanges, BuiltFrom scripted.source (·.script = slowHost) task.id
      [.asked task.id .listDatasets, .asked task.id .listPools] [] nothingFound collector since
      exchanges ∧ ∀ e ∈ exchanges, e.MadeIn scripted.source (·.script = slowHost) := by
  obtain ⟨next, hnext, hrun⟩ := reachesWithin_listingDatasets
  have hdue := hrun.next (.pass 20 [] []) rfl
  have hlast : slowHost.datasets = .ok "" := rfl
  obtain ⟨-, htold⟩ := wake_listingDatasets [] hlast hnext
  obtain ⟨hanswers, -, hbuilt⟩ := scrapes_see_lasting_changes .refl (stays_script slowHost) hdue
    (List.mem_singleton_self _) rfl rfl htold
  obtain ⟨⟨collector, since, exchanges, hbuilt⟩, -⟩ :=
    hbuilt [.asked 0 .listDatasets, .asked 0 .listPools] [] rfl (by simp)
  have hmade : ∀ e ∈ exchanges, e.MadeIn scripted.source (·.script = slowHost) := by
    rcases hbuilt.fresh with ⟨hbusy, -⟩ | ⟨-, hmade⟩
    · cases hbusy
    · exact hmade
  exact ⟨_, ⟨0, .refreshing .scrape 1, 2⟩, stays_script slowHost, hdue,
    List.mem_singleton_self _, rfl, htold, hanswers, collector, since, exchanges, hbuilt, hmade⟩

/-- Two scrapes of a slow host, one of which collects while the other waits, when the last reply is
due. -/
def overlap (script : Script)
    (next : Except Failure String → Inquiry (Except Failure Inventory)) : Schedule Rehearsal where
  now := 20
  refresher := listingDatasets script next [(2, 0)]
  tasks := [⟨0, .refreshing .scrape 1, 2⟩, ⟨2, .refreshing .scrape 5, 5⟩]
  ready := []
  started := 3
  waits := 6
  answers := []

def overlapEnded (script : Script) : Schedule Rehearsal where
  now := 20
  refresher := ⟨Cache.empty.finish (.ok nothingFound.snapshot),
    ⟨script, [.listDatasets, .listPools]⟩, some (2, .granted 0), []⟩
  tasks := [⟨2, .refreshing .scrape 5, 5⟩]
  ready := [2]
  started := 3
  waits := 6
  answers := [(0, .found (some nothingFound))]

theorem transition_overlap (script : Script) (hdatasets : script.datasets = .ok "")
    (hnext : next (.ok "") = .done (.ok ⟨[], []⟩)) :
    Transition scripted (overlap script next) [.told 0 (.ok nothingFound)]
      (overlapEnded script) := by
  obtain ⟨hwake, htold⟩ := wake_listingDatasets [(2, 0)] hdatasets hnext
  have hafter : (overlap script next).afterRefresh 0 .scrape 1
      ((listingDatasets script next [(2, 0)]).wake scripted 0 20) = overlapEnded script := by
    rw [hwake]
    rfl
  rw [← htold, ← hafter]
  exact .run (show ⟨0, .refreshing .scrape 1, 2⟩ ∈ (overlap script next).tasks from
    List.mem_cons_self ..)

theorem repliesBy_slowHostWithPool : scripted.source.RepliesBy (·.script = slowHostWithPool)
    (Rehearsal.reply ⟨slowHostWithPool, []⟩) := by
  rintro query ⟨script, asked⟩ rfl
  cases query <;> rfl

/-- Another scrape arrives after the host has got a pool, but shares the listing from before. -/
theorem scrape_shares_earlier_listing : ∃ (s t : Schedule Rehearsal) (task : Task Rehearsal),
    Reaches scripted (initial ⟨slowHost, []⟩)
      [.asked 0 .listDatasets, .asked 0 .listPools, .arrived 0] s ∧
    scripted.source.Stays (fun r => r.script = slowHostWithPool) ∧
    ReachesWithin scripted (·.script = slowHostWithPool) s
      [.told 0 (.ok nothingFound), .arrived task.id] t ∧
    task ∈ t.tasks ∧ task.activity.purpose? = some .scrape ∧
    t.events scripted task = [.told task.id (.ok nothingFound)] ∧
    (t.runTask scripted task).answers = (task.id, .found (some nothingFound)) :: t.answers ∧
    ¬ ∃ exchanges,
      Collection.inventory.run.Yields exchanges (.ok nothingFound.snapshot.toInventory) ∧
      ∀ e ∈ exchanges, e.MadeIn scripted.source (·.script = slowHostWithPool) := by
  obtain ⟨next, hnext, hlisting⟩ := reachesWithin_listingDatasets
  have hspawned := (hlisting.reaches.next (.pass 12 [] [])).next
    (.spawn 0 (.set fun r => { r with script := slowHostWithPool }))
  have hchanged : Reaches scripted (initial ⟨slowHost, []⟩)
      [.asked 0 .listDatasets, .asked 0 .listPools, .arrived 0]
      ⟨12, listingDatasets slowHostWithPool next [], [⟨0, .refreshing .scrape 1, 2⟩], [1], 2, 4,
        [(1, .nothing)]⟩ :=
    hspawned.next (.run (List.mem_cons_of_mem _ (List.mem_cons_self ..)))
  have hstart : ReachesWithin scripted (·.script = slowHostWithPool)
      ⟨12, listingDatasets slowHostWithPool next [], [⟨0, .refreshing .scrape 1, 2⟩], [1], 2, 4,
        [(1, .nothing)]⟩ [] _ := .refl rfl
  have hadded := (hstart.next (.pass 15 [] []) rfl).next (.spawn 0 (.scrape .onScrape)) rfl
  have harrived := hadded.next (.run (List.mem_cons_of_mem _ (List.mem_cons_self ..))) rfl
  have hended := (harrived.next (.pass 20 [] []) rfl).next
    (transition_overlap slowHostWithPool rfl hnext) rfl
  refine ⟨_, _, ⟨2, .refreshing .scrape 5, 5⟩, hchanged, stays_script slowHostWithPool, hended,
    List.mem_singleton_self _, rfl, ?told, rfl, ?unseen⟩
  case told => exact Refresher.events_wake_of_shared scripted rfl (by decide)
  case unseen =>
    rintro ⟨exchanges, hyields, hmade⟩
    -- a collection of the host with its pool finds the pool
    have hfound := hyields.result_of_madeIn (stays_script slowHostWithPool)
      repliesBy_slowHostWithPool hmade
      (rfl : (⟨slowHostWithPool, []⟩ : Rehearsal).script = slowHostWithPool)
    have hpools : (Collection.inventory.run.run scripted.source
        ⟨slowHostWithPool, []⟩).result.toOption.map (fun found => found.pools.map Pool.name) =
        some ["tank"] := by decide +kernel
    rw [hfound] at hpools
    cases hpools

end SlowHost

end Schedule

end PoolGauge
