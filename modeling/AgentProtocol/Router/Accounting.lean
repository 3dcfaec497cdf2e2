-- SUMMARY: The account of a call: the one event that ends it, the failures it reports, and the calls whose metrics are conserved.
import AgentProtocol.Router.Metrics
import AgentProtocol.Router.Streaming

/-!
# Accounting

A call that was started owes the collector one event that ends it, under the model that it was started with, and for
every attempt that fails one event that charges its deployment. What remains of a call settles an account if it pays
what the call still owes. Whether an attempt settles, or fails and leaves it to the loop, can be told from what the
environment does in it, and so can it for the loop.
-/

namespace AgentProtocol.Router

open Lib MetricsCollector

variable {T C U : Type}

/-! ## Accounts -/

def Report.event : Report T → Option (RoutingEvent T)
  | .emit event => some event
  | .background event => some event
  | .onSuccess _ _ _ => none
  | .onFailure _ => none

namespace Trace

/-- The events of a call, also those that its background tasks emit. -/
def events (t : Trace T C) : List (RoutingEvent T) := t.reports.filterMap Report.event

/-- The deployments of the attempts that failed. -/
def failures (t : Trace T C) : List String := t.effects.filterMap fun
  | .failed deploymentId => some deploymentId
  | _ => none

@[simp] theorem events_ended (outcome : Outcome) : (ended outcome : Trace T C).events = [] := rfl

@[simp] theorem failures_ended (outcome : Outcome) : (ended outcome : Trace T C).failures = [] := rfl

@[simp] theorem events_reporting (r : Report T) (t : Trace T C) : (t.reporting r).events = r.event.toList ++ t.events := by
  cases h : r.event <;> simp [events, reports, reporting, after, h]

@[simp] theorem failures_reporting (r : Report T) (t : Trace T C) : (t.reporting r).failures = t.failures := rfl

@[simp] theorem events_deliver (i : ℕ) (c : C) (t : Trace T C) : (t.after [.deliver i c]).events = t.events := rfl

@[simp] theorem failures_deliver (i : ℕ) (c : C) (t : Trace T C) : (t.after [.deliver i c]).failures = t.failures := rfl

@[simp] theorem events_attempted (i : ℕ) (d : Deployment T) (t : Trace T C) : (t.after [.attempted i d]).events = t.events := rfl

@[simp] theorem failures_attempted (i : ℕ) (d : Deployment T) (t : Trace T C) :
    (t.after [.attempted i d]).failures = t.failures := rfl

@[simp] theorem events_failed (d : String) (t : Trace T C) : (t.after [.failed d]).events = t.events := rfl

@[simp] theorem failures_failed (d : String) (t : Trace T C) : (t.after [.failed d]).failures = d :: t.failures := rfl

variable {D : Type}

@[simp] theorem events_mapChunks (f : C → D) (t : Trace T C) : (t.mapChunks f).events = t.events := by
  have h : (t.mapChunks f).reports = t.reports := by
    simp only [reports, mapChunks, List.filterMap_map]
    congr 1
    funext effect
    cases effect <;> rfl
  rw [events, h, events]

@[simp] theorem failures_mapChunks (f : C → D) (t : Trace T C) : (t.mapChunks f).failures = t.failures := by
  simp only [failures, mapChunks, List.filterMap_map]
  congr 1
  funext effect
  cases effect <;> rfl

/-- Nothing of the call starts a request or changes the deployments. -/
def Ordinary (t : Trace T C) : Prop := ∀ event ∈ t.events, event.phase ≠ some .start ∧ event.eventType ≠ .deploymentsUpdated

/-- What remains of a call under a model ends it once, and charges the deployments that are owed or still fail. -/
structure Settles (model : String) (owed : List String) (t : Trace T C) : Prop where
  ends : models (· ≠ .start) t.events = [some model]
  charges : (t.events.filterMap RoutingEvent.charge).Perm (owed ++ t.failures)

end Trace

open Trace

/-! ## Ordinary events -/

@[simp] theorem ordinary_ended (outcome : Outcome) : (ended outcome : Trace T C).Ordinary := by
  simp [Ordinary]

theorem ordinary_reporting {r : Report T} {t : Trace T C}
    (hr : ∀ event ∈ r.event, event.phase ≠ some .start ∧ event.eventType ≠ .deploymentsUpdated) (ht : t.Ordinary) :
    (t.reporting r).Ordinary := by
  intro event hevent
  rw [events_reporting, List.mem_append, Option.mem_toList] at hevent
  exact hevent.elim (hr event) (ht event)

variable {delivery : Delivery}

theorem ordinary_emitting {event : RoutingEvent T} {interrupted next : Trace T C}
    (hevent : event.phase ≠ some .start ∧ event.eventType ≠ .deploymentsUpdated) (hinterrupted : interrupted.Ordinary)
    (hnext : next.Ordinary) : (emitting event delivery interrupted next).Ordinary := by
  have hr : ∀ e ∈ (Report.emit event).event, e.phase ≠ some .start ∧ e.eventType ≠ .deploymentsUpdated := by
    rintro e ⟨⟩
    exact hevent
  cases delivery with
  | done => exact ordinary_reporting hr hnext
  | cancelled handled =>
    cases handled with
    | true => exact ordinary_reporting hr hinterrupted
    | false => exact hinterrupted

theorem exhausted_ordinary (model : Option String) (failure : Option (Deployment T × CallError)) :
    (exhausted model failure).phase ≠ some .start ∧ (exhausted model failure).eventType ≠ .deploymentsUpdated := by
  exact ⟨by simp [exhausted, RoutingEvent.phase], by simp [exhausted]⟩

variable {interrupted : Trace T C}

theorem terminal_ordinary (terminal : Option String) (failure : Option (Deployment T × CallError)) (delivery : Delivery)
    (outcome : Outcome) (h : interrupted.Ordinary) :
    (emitting (exhausted terminal failure) delivery interrupted (.ended outcome)).Ordinary :=
  ordinary_emitting (exhausted_ordinary terminal failure) h (ordinary_ended outcome)

variable {next : CallError → List (Deployment T) → Trace T C}

theorem attemptFailed_ordinary (router : Settings T) (model : String) (terminalModel : Option String)
    (emits : RoutingEventType → Delivery) (final : Delivery) (last : Bool)
    (available : List (Deployment T)) (selected : Deployment T)
    (error : CallError) (visible : Bool) (hinterrupted : interrupted.Ordinary) (hnext : ∀ error left, (next error left).Ordinary) :
    (attemptFailed router model terminalModel emits final interrupted last available selected next error visible).Ordinary := by
  have hreport : ∀ t : Trace T C, t.Ordinary → ((reportFailure selected error t).after [.failed selected.id]).Ordinary := by
    intro t ht event hevent
    rw [events_failed, reportFailure] at hevent
    split at hevent
    · exact ht event hevent
    · exact ht event (by simpa [Report.event] using hevent)
  refine hreport _ ?_
  split
  · exact terminal_ordinary _ _ _ _ hinterrupted
  · cases available.filter fun d => d.id ≠ selected.id with
    | nil => exact terminal_ordinary _ _ _ _ (ordinary_ended _)
    | cons d ds =>
      cases last with
      | true => exact hnext _ _
      | false =>
        refine ordinary_emitting ?_ hinterrupted (hnext _ _)
        exact ⟨by simp [retried, RoutingEvent.phase], by simp [retried]⟩

variable {attempt : ℕ → Deployment T → (CallError → Bool → Trace T C) → Trace T C}

theorem retryLoop_ordinary (router : Settings T) (model : String) (terminalModel : Option String) (total : ℕ)
    (selections : ℕ → Selection T) (emits : ℕ → RoutingEventType → Delivery) (final : Delivery)
    {interrupted : Option (Deployment T) → Trace T C} (hinterrupted : ∀ selected, (interrupted selected).Ordinary)
    (hattempt : ∀ i selected failed, (∀ error visible, (failed error visible).Ordinary) → (attempt i selected failed).Ordinary)
    (remaining : ℕ) (available : List (Deployment T)) (previous : Option (Deployment T))
    (failure : Option (Deployment T × CallError)) :
    (retryLoop router model terminalModel total selections emits final interrupted attempt remaining available previous
      failure).Ordinary := by
  induction remaining generalizing available previous failure with
  | zero => exact terminal_ordinary _ _ _ _ (ordinary_ended _)
  | succ remaining ih =>
    rw [retryLoop]
    cases selectDeployment router (selections (total - (remaining + 1))) available with
    | raised error => exact ordinary_ended _
    | cancelled => exact hinterrupted _
    | chosen selected =>
      cases selected with
      | none =>
        cases failure with
        | none => exact terminal_ordinary _ _ _ _ (hinterrupted _)
        | some failure => exact terminal_ordinary _ _ _ _ (ordinary_ended _)
      | some selected =>
        intro event hevent
        rw [events_attempted] at hevent
        refine hattempt _ _ _ ?_ event hevent
        intro error visible
        exact attemptFailed_ordinary _ _ _ _ _ _ _ _ _ _ (hinterrupted _) fun error left => ih _ _ _

theorem requestCancelled_ordinary (model : String) : (requestCancelled model : Trace T C).Ordinary := by
  intro event hevent
  rw [requestCancelled, events_reporting, events_ended, List.append_nil, Option.mem_toList] at hevent
  obtain rfl := Option.some.inj hevent
  exact ⟨by simp [RoutingEvent.phase], by simp⟩

theorem streamCancelled_ordinary (model : String) (selected : Option (Deployment T)) (outcome : Outcome) :
    (streamCancelled model selected outcome : Trace T C).Ordinary := by
  intro event hevent
  rw [streamCancelled, events_reporting, events_ended, List.append_nil, Option.mem_toList] at hevent
  obtain rfl := Option.some.inj hevent
  exact ⟨by simp [RoutingEvent.phase], by simp⟩

variable {tokens : Value} {latency : T}

theorem onSuccess_ordinary {deploymentId : String} {t : Trace T C} (ht : t.Ordinary) :
    (t.reporting (.onSuccess deploymentId latency tokens)).Ordinary :=
  ordinary_reporting (by simp [Report.event]) ht

theorem attemptCompletion_ordinary (model : String) (deployment : Deployment T) (attempt : Attempt T)
    {failed : CallError → Trace T C} (hfailed : ∀ error, (failed error).Ordinary) :
    (attemptCompletion model deployment attempt failed).Ordinary := by
  unfold attemptCompletion
  cases requestKwargsError deployment with
  | some error => exact hfailed _
  | none =>
    cases attempt.reply with
    | raised error => exact hfailed _
    | cancelled => exact requestCancelled_ordinary model
    | response response =>
      apply onSuccess_ordinary
      cases (usageEntry response "completion_tokens").divides with
      | error error => exact hfailed _
      | ok quotient =>
        cases (usageEntry response "prompt_tokens").add (usageEntry response "completion_tokens") with
        | error error => exact hfailed _
        | ok total =>
          refine ordinary_emitting ?_ (requestCancelled_ordinary model) (ordinary_ended _)
          exact ⟨by simp [requestSucceeded, RoutingEvent.phase], by simp [requestSucceeded]⟩

variable {closed : Trace T C}

theorem yieldAll_ordinary (i : ℕ) (closes : ℕ → Bool) {next : ℕ → Trace T C} (hclosed : closed.Ordinary)
    (hnext : ∀ n, (next n).Ordinary) (n : ℕ) (chunks : List C) : (yieldAll i closes closed next n chunks).Ordinary := by
  induction chunks generalizing n with
  | nil => exact hnext n
  | cons chunk chunks ih =>
    rw [yieldAll]
    intro event hevent
    rw [events_deliver] at hevent
    split at hevent
    · exact hclosed event hevent
    · exact ih (n + 1) event hevent

variable {failed : CallError → Bool → Trace T C}

variable (kind : StreamKind C U) (model : String)

theorem recordSuccess_ordinary (selected : Deployment T) (attempt : StreamAttempt T)
    (hfailed : ∀ error visible, (failed error visible).Ordinary) (p : Pump C U) :
    (recordSuccess kind model selected attempt failed p).Ordinary := by
  apply onSuccess_ordinary
  cases (kind.tokens p.usage).1.divides with
  | error error => exact hfailed _ _
  | ok quotient =>
    cases (kind.tokens p.usage).2.add (kind.tokens p.usage).1 with
    | error error => exact hfailed _ _
    | ok total =>
      refine ordinary_emitting ?_ (streamCancelled_ordinary _ _ _) (ordinary_ended _)
      exact ⟨by simp [streamSucceeded, RoutingEvent.phase], by simp [streamSucceeded]⟩

theorem finishStream_ordinary (i : ℕ) (selected : Deployment T)
    (attempt : StreamAttempt T) (hfailed : ∀ error visible, (failed error visible).Ordinary)
    (p : Pump C U) : (finishStream kind model i selected attempt failed p).Ordinary :=
  yieldAll_ordinary _ _ (streamCancelled_ordinary _ _ _) (fun _ => recordSuccess_ordinary _ _ _ _ hfailed p) _ _

theorem pump_ordinary (i : ℕ) (selected : Deployment T) (attempt : StreamAttempt T) {finish : Pump C U → Trace T C}
    (hfailed : ∀ error visible, (failed error visible).Ordinary) (hfinish : ∀ p, (finish p).Ordinary) (streamEnd : StreamEnd)
    (values : List Value) (p : Pump C U) : (pump kind model i selected attempt failed finish streamEnd values p).Ordinary := by
  induction values generalizing p with
  | nil =>
    cases streamEnd with
    | complete => exact hfinish p
    | raised error => exact hfailed _ _
    | cancelled => exact streamCancelled_ordinary _ _ _
  | cons value values ih =>
    rw [pump]
    cases kind.convert value with
    | error error => exact hfailed _ _
    | ok converted =>
      cases converted with
      | none => exact ih p
      | some chunk =>
        dsimp only
        split
        · exact yieldAll_ordinary _ _ (streamCancelled_ordinary _ _ _) (fun n => ih _) _ _
        · cases kind.visible chunk with
          | error error => exact hfailed _ _
          | ok visible =>
            cases visible with
            | false => exact ih _
            | true =>
              refine ordinary_emitting ?_ (streamCancelled_ordinary _ _ _)
                (yieldAll_ordinary _ _ (streamCancelled_ordinary _ _ _) (fun n => ih _) _ _)
              exact ⟨by simp [streamRouteSelected, RoutingEvent.phase], by simp [streamRouteSelected]⟩

/-! ## What settles an account -/

variable {model : String} {owed : List String}

theorem settles_reporting_quiet {r : Report T} {t : Trace T C}
    (hr : ∀ event ∈ r.event, event.phase = none ∧ event.charge = none) :
    (t.reporting r).Settles model owed ↔ t.Settles model owed := by
  have hends : models (· ≠ .start) (t.reporting r).events = models (· ≠ .start) t.events := by
    cases hevent : r.event with
    | none => simp [hevent]
    | some event => simp [models, RoutingEvent.modelWhen, hevent, (hr event hevent).1]
  have hcharges : (t.reporting r).events.filterMap RoutingEvent.charge = t.events.filterMap RoutingEvent.charge := by
    cases hevent : r.event with
    | none => simp [hevent]
    | some event => simp [hevent, (hr event hevent).2]
  constructor
  · intro h
    exact ⟨hends ▸ h.ends, hcharges ▸ h.charges⟩
  · intro h
    exact ⟨hends.trans h.ends, hcharges ▸ h.charges⟩

theorem settles_attempted {i : ℕ} {d : Deployment T} {t : Trace T C} :
    (t.after [.attempted i d]).Settles model owed ↔ t.Settles model owed :=
  ⟨fun h => ⟨h.ends, h.charges⟩, fun h => ⟨h.ends, h.charges⟩⟩

theorem settles_deliver {i : ℕ} {c : C} {t : Trace T C} : (t.after [.deliver i c]).Settles model owed ↔ t.Settles model owed :=
  ⟨fun h => ⟨h.ends, h.charges⟩, fun h => ⟨h.ends, h.charges⟩⟩

theorem settles_failed {model d : String} {t : Trace T C} : (t.after [.failed d]).Settles model [] ↔ t.Settles model [d] :=
  ⟨fun h => ⟨h.ends, h.charges⟩, fun h => ⟨h.ends, h.charges⟩⟩

theorem not_settles_unnamed {model : String} {t : Trace T C} : ¬ t.Settles model [""] := by
  intro h
  have hmem : "" ∈ t.events.filterMap RoutingEvent.charge := h.charges.mem_iff.mpr (by simp)
  obtain ⟨event, -, hcharge⟩ := List.mem_filterMap.mp hmem
  have hnamed : ∀ id : Option String, named id ≠ some "" := by
    intro id hid
    cases id with
    | none => simp at hid
    | some id =>
      by_cases hempty : id = ""
      · simp [hempty] at hid
      · rw [named_some hempty] at hid
        exact hempty (Option.some.inj hid)
  unfold RoutingEvent.charge at hcharge
  split at hcharge
  · exact hnamed _ hcharge
  · exact hnamed _ hcharge
  · cases hcharge

theorem settles_charge {model d : String} {event : RoutingEvent T} {t : Trace T C} (hphase : event.phase = none)
    (hcharge : event.charge = some d) : (t.reporting (.emit event)).Settles model [d] ↔ t.Settles model [] := by
  have hends : models (· ≠ .start) (t.reporting (.emit event)).events = models (· ≠ .start) t.events := by
    simp [models, RoutingEvent.modelWhen, Report.event, hphase]
  have hcharges : (t.reporting (.emit event)).events.filterMap RoutingEvent.charge =
      d :: t.events.filterMap RoutingEvent.charge := by
    simp [Report.event, hcharge]
  constructor
  · intro h
    refine ⟨hends ▸ h.ends, ?_⟩
    have hperm := h.charges
    rw [hcharges] at hperm
    exact hperm.cons_inv
  · intro h
    refine ⟨hends.trans h.ends, ?_⟩
    rw [hcharges]
    exact h.charges.cons d

variable {outcome : Outcome}

theorem not_settles_ended {model : String} {owed : List String} : ¬ (ended outcome : Trace T C).Settles model owed := by
  intro h
  simpa [models] using h.ends

/-- What is left to do when a call is interrupted: to report that it was cancelled, or nothing. -/
structure Interrupts (model : String) (cancels : Bool) (t : Trace T C) : Prop where
  ends : models (· ≠ .start) t.events = if cancels then [some model] else []
  charges : t.events.filterMap RoutingEvent.charge = []
  failures : t.failures = []

theorem ended_interrupts (model : String) (outcome : Outcome) : Interrupts model false (ended outcome : Trace T C) :=
  ⟨rfl, rfl, rfl⟩

theorem requestCancelled_interrupts (model : String) : Interrupts model true (requestCancelled model : Trace T C) :=
  ⟨rfl, rfl, rfl⟩

theorem streamCancelled_interrupts (model : String) (selected : Option (Deployment T)) (outcome : Outcome) :
    Interrupts model true (streamCancelled model selected outcome : Trace T C) :=
  ⟨rfl, rfl, rfl⟩

variable {cancels : Bool}

theorem Interrupts.settles_iff {model : String} {t : Trace T C} (h : Interrupts model cancels t)
    {owed : List String} : t.Settles model owed ↔ cancels = true ∧ owed = [] := by
  constructor
  · intro ht
    have hends := h.ends.symm.trans ht.ends
    have hperm := ht.charges
    rw [h.charges, h.failures, List.append_nil] at hperm
    refine ⟨?_, hperm.symm.eq_nil⟩
    cases cancels with
    | true => rfl
    | false => simp at hends
  · rintro ⟨rfl, rfl⟩
    refine ⟨h.ends, ?_⟩
    rw [h.charges, h.failures, List.append_nil]

section

variable {model : String} {owed : List String} {r : Report T} {event : RoutingEvent T} {phase : RoutingEvent.Phase} {t : Trace T C}
  (hevent : r.event = some event) (hphase : event.phase = some phase) (hend : phase ≠ .start)

include hevent hphase hend

theorem ends_reporting : models (· ≠ .start) (t.reporting r).events = event.model :: models (· ≠ .start) t.events := by
  simp [models, RoutingEvent.modelWhen, hevent, hphase, hend]

theorem settles_end (ht : Interrupts model false t) :
    (t.reporting r).Settles model owed ↔ event.model = some model ∧ event.charge.toList = owed := by
  have hends : models (· ≠ .start) (t.reporting r).events = [event.model] := by
    rw [ends_reporting hevent hphase hend, ht.ends, if_neg (by decide)]
  have hcharges : (t.reporting r).events.filterMap RoutingEvent.charge = event.charge.toList := by
    rw [events_reporting, List.filterMap_append, ht.charges, List.append_nil, hevent]
    cases hcharge : event.charge <;> simp [hcharge]
  constructor
  · intro h
    refine ⟨(List.cons.inj (hends.symm.trans h.ends)).1, ?_⟩
    have hperm := h.charges
    rw [hcharges, failures_reporting, ht.failures, List.append_nil] at hperm
    cases hcharge : event.charge with
    | none =>
      rw [hcharge] at hperm
      exact hperm.symm.eq_nil.symm
    | some d =>
      rw [hcharge] at hperm
      exact (List.singleton_perm.mp hperm)
  · rintro ⟨hmodel, hcharge⟩
    refine ⟨by rw [hends, hmodel], ?_⟩
    rw [hcharges, failures_reporting, ht.failures, List.append_nil, hcharge]

theorem not_settles_twice (ht : Interrupts model true t) : ¬ (t.reporting r).Settles model owed := by
  intro h
  have hends := h.ends
  rw [ends_reporting hevent hphase hend, ht.ends, if_pos rfl] at hends
  simp at hends

end

/-! ## Which awaits settle an account -/

/-- Whether a call ends once whose last event is delivered like this, where its interruption reports that it was
cancelled or does not. -/
def Delivery.settles (cancels : Bool) : Delivery → Bool
  | .done => true
  | .cancelled handled => handled != cancels

/-- Whether the last event of a call reaches the handlers and is the only one that ends it. -/
def Delivery.reaches (cancels : Bool) : Delivery → Bool
  | .done => true
  | .cancelled handled => handled && !cancels

theorem settles_emitting {model : String} {owed : List String} {event : RoutingEvent T} {phase : RoutingEvent.Phase}
    (hphase : event.phase = some phase) (hend : phase ≠ .start) (h : Interrupts model cancels interrupted) :
    (emitting event delivery interrupted (.ended outcome)).Settles model owed ↔
      delivery.reaches cancels = true ∧ event.model = some model ∧ event.charge.toList = owed ∨
        delivery = .cancelled false ∧ cancels = true ∧ owed = [] := by
  have hevent : (Report.emit event).event = some event := rfl
  cases delivery with
  | done =>
    rw [emitting, settles_end hevent hphase hend (ended_interrupts model outcome)]
    simp [Delivery.reaches]
  | cancelled handled =>
    cases handled with
    | false =>
      rw [emitting, h.settles_iff]
      simp [Delivery.reaches]
    | true =>
      rw [emitting]
      cases cancels with
      | false =>
        rw [settles_end hevent hphase hend h]
        simp [Delivery.reaches]
      | true =>
        simp [not_settles_twice hevent hphase hend h, Delivery.reaches]

theorem settles_emitting_unowed {model : String} {event : RoutingEvent T} {phase : RoutingEvent.Phase}
    (hphase : event.phase = some phase) (hend : phase ≠ .start) (hmodel : event.model = some model) (hcharge : event.charge = none)
    (h : Interrupts model cancels interrupted) :
    (emitting event delivery interrupted (.ended outcome)).Settles model [] ↔ delivery.settles cancels = true := by
  rw [settles_emitting hphase hend h]
  cases delivery with
  | done => simp [Delivery.reaches, Delivery.settles, hmodel, hcharge]
  | cancelled handled =>
    cases handled <;> cases cancels <;> simp [Delivery.reaches, Delivery.settles, hmodel, hcharge]

theorem settles_emitting_owed {model d : String} {event : RoutingEvent T} {phase : RoutingEvent.Phase}
    (hphase : event.phase = some phase) (hend : phase ≠ .start) (hcharge : event.charge = some d)
    (h : Interrupts model cancels interrupted) : (emitting event delivery interrupted (.ended outcome)).Settles model [d] ↔
      delivery.reaches cancels = true ∧ event.model = some model := by
  rw [settles_emitting hphase hend h]
  simp [hcharge]

variable {selected : Deployment T} {error : CallError}

theorem exhausted_charge {model : Option String} (hid : selected.id ≠ "") :
    (exhausted model (some (selected, error))).charge = some selected.id := named_some hid

theorem settles_final {model : String} (hid : selected.id ≠ "") {final : Delivery} :
    (emitting (exhausted (some model) (some (selected, error))) final (.ended .cancelled) (.ended outcome) : Trace T C).Settles
      model [selected.id] ↔ final.settles false = true := by
  rw [settles_emitting_owed rfl (by decide) (exhausted_charge hid) (ended_interrupts model _)]
  cases final with
  | done => simp [Delivery.reaches, Delivery.settles, exhausted]
  | cancelled handled => cases handled <;> simp [Delivery.reaches, Delivery.settles, exhausted]

/-! ## Which calls settle their accounts -/

/-- How an attempt ends: with an exception, after output was visible or before, or for good. Then its account is settled
or it is not. -/
inductive AttemptEnd where
  | failed (error : CallError) (visible : Bool)
  | finished (settled : Bool)

/-- Whether a failed attempt is paid for, and what remains of the call settles its account. -/
def failedSettled (router : Settings T) (model : String) (terminalModel : Option String) (emits : RoutingEventType → Delivery)
    (final : Delivery) (cancels last : Bool) (available : List (Deployment T)) (selected : Deployment T)
    (next : List (Deployment T) → Bool) (error : CallError) (visible : Bool) : Bool :=
  selected.id ≠ "" &&
    if visible || router.strictFallbackErrors && !isFallbackableError error then
      (emits .allDeploymentsExhausted).reaches cancels && decide (terminalModel = some model)
    else
      match available.filter fun d => d.id ≠ selected.id with
      | [] => final.settles false
      | d :: ds =>
        if last then next (d :: ds)
        else
          match emits .requestRetried with
          | .done => next (d :: ds)
          | .cancelled handled => handled && cancels

/-- Whether the attempts that remain settle the account of the call, where `failedBefore` is whether one failed. -/
def retrySettled (router : Settings T) (model : String) (terminalModel : Option String) (total : ℕ) (selections : ℕ → Selection T)
    (emits : ℕ → RoutingEventType → Delivery) (final : Delivery) (cancels : Bool) (attemptEnd : ℕ → Deployment T → AttemptEnd) :
    ℕ → List (Deployment T) → Bool → Bool
  | 0, _, _ => final.settles false
  | remaining + 1, available, failedBefore =>
    let i := total - (remaining + 1)
    match selectDeployment router (selections i) available with
    -- a request whose strategy raises is never ended
    | .raised _ => false
    | .cancelled => cancels
    -- after a failure the last deployment is charged a second time
    | .chosen none => !failedBefore && (emits i .allDeploymentsExhausted).settles cancels
    | .chosen (some selected) =>
      match attemptEnd i selected with
      | .finished settled => settled
      | .failed error visible =>
        failedSettled router model terminalModel (emits i) final cancels (remaining = 0) available selected
          (fun left => retrySettled router model terminalModel total selections emits final cancels attemptEnd remaining left true)
          error visible

variable (router : Settings T) (model : String) (terminalModel : Option String)

theorem attemptFailed_settles_iff (emits : RoutingEventType → Delivery) (final : Delivery) (last : Bool)
    (available : List (Deployment T)) (selected : Deployment T)
    {nextSettled : List (Deployment T) → Bool} (hinterrupted : Interrupts model cancels interrupted)
    (hnext : selected.id ≠ "" → ∀ error left,
      (next error left).Settles model (if last then [selected.id] else []) ↔ nextSettled left = true)
    (error : CallError) (visible : Bool) :
    (attemptFailed router model terminalModel emits final interrupted last available selected next error visible).Settles
        model [] ↔
      failedSettled router model terminalModel emits final cancels last available selected nextSettled error visible = true := by
  unfold attemptFailed failedSettled
  rw [settles_failed]
  by_cases hid : selected.id = ""
  · simp [hid, not_settles_unnamed]
  · have hreport : ∀ t : Trace T C,
        (reportFailure selected error t).Settles model [selected.id] ↔ t.Settles model [selected.id] := by
      intro t
      unfold reportFailure
      split
      · exact Iff.rfl
      · exact settles_reporting_quiet (by simp [Report.event])
    rw [hreport]
    simp only [ne_eq, hid, not_false_eq_true, decide_true, Bool.true_and]
    split
    · rw [settles_emitting_owed rfl (by decide) (exhausted_charge hid) hinterrupted]
      simp [exhausted]
    · cases available.filter fun d => d.id ≠ selected.id with
      | nil => exact settles_final hid
      | cons d ds =>
        cases last with
        | true => exact hnext hid error (d :: ds)
        | false =>
          have hretried : (retried model selected error).charge = some selected.id := named_some hid
          simp only [Bool.false_eq_true, if_false]
          cases emits .requestRetried with
          | done =>
            refine (settles_charge rfl hretried).trans ?_
            exact hnext hid error (d :: ds)
          | cancelled handled =>
            cases handled with
            | true =>
              refine (settles_charge rfl hretried).trans ?_
              simp [hinterrupted.settles_iff]
            | false => simp [emitting, hinterrupted.settles_iff]

/-- The loop settles the account of the call exactly if its attempts are said to. If no attempt remains then the last
failure is still to be charged. -/
theorem retryLoop_settles_iff (total : ℕ)
    (selections : ℕ → Selection T) (emits : ℕ → RoutingEventType → Delivery) (final : Delivery)
    {interrupted : Option (Deployment T) → Trace T C} {attemptEnd : ℕ → Deployment T → AttemptEnd}
    (hinterrupted : ∀ selected, Interrupts model cancels (interrupted selected))
    (hattempt : ∀ i selected failed, (attempt i selected failed).Settles model [] ↔
      match attemptEnd i selected with
      | .finished settled => settled = true
      | .failed error visible => (failed error visible).Settles model [])
    (remaining : ℕ) (available : List (Deployment T)) (previous : Option (Deployment T))
    (failure : Option (Deployment T × CallError)) (hfailure : ∀ f ∈ failure, f.1.id ≠ "") :
    (retryLoop router model terminalModel total selections emits final interrupted attempt remaining available previous
        failure).Settles model (if remaining = 0 then (failure.map fun f => f.1.id).toList else []) ↔
      retrySettled router model terminalModel total selections emits final cancels attemptEnd remaining available
        failure.isSome = true := by
  induction remaining generalizing available previous failure with
  | zero =>
    cases failure with
    | none => exact settles_emitting_unowed rfl (by decide) rfl rfl (ended_interrupts model _)
    | some failure => exact settles_final (hfailure failure rfl)
  | succ remaining ih =>
    rw [retryLoop, retrySettled, if_neg (Nat.succ_ne_zero remaining)]
    cases selectDeployment router (selections (total - (remaining + 1))) available with
    | raised error => simp [not_settles_ended]
    | cancelled => simp [(hinterrupted previous).settles_iff]
    | chosen selected =>
      cases selected with
      | none =>
        cases failure with
        | none =>
          refine (settles_emitting_unowed rfl (by decide) rfl rfl (hinterrupted none)).trans ?_
          simp
        | some failure =>
          simp only [noneSelected, Option.isSome_some, Bool.not_true, Bool.false_and, Bool.false_eq_true, iff_false]
          have hcharge : (exhausted (some model) (some failure)).charge = some failure.1.id :=
            exhausted_charge (hfailure failure rfl)
          rw [settles_emitting rfl (by decide) (ended_interrupts model _), hcharge]
          simp
      | some selected =>
        refine settles_attempted.trans ((hattempt _ _ _).trans ?_)
        dsimp only
        cases attemptEnd (total - (remaining + 1)) selected with
        | finished settled => exact Iff.rfl
        | failed error visible =>
          apply attemptFailed_settles_iff router model terminalModel _ final _ available selected (hinterrupted _)
          intro hid error left
          have h := ih left (some selected) (some (selected, error)) (by rintro f ⟨⟩; exact hid)
          simpa using h

/-! ## Attempts -/

def completionEnd (deployment : Deployment T) (attempt : Attempt T) : AttemptEnd :=
  match requestKwargsError deployment with
  | some error => .failed error false
  | none =>
    match attempt.reply with
    | .raised error => .failed error false
    | .cancelled => .finished true
    | .response response =>
      let tokens := usageEntry response "completion_tokens"
      match tokens.divides with
      | .error error => .failed (.ofPython error) false
      | .ok _ =>
        match (usageEntry response "prompt_tokens").add tokens with
        | .error error => .failed (.ofPython error) false
        | .ok _ => .finished ((attempt.emits .requestSucceeded).settles true)

theorem settles_onSuccess {model deploymentId : String} {owed : List String} {t : Trace T C} :
    (t.reporting (.onSuccess deploymentId latency tokens)).Settles model owed ↔ t.Settles model owed :=
  settles_reporting_quiet (by simp [Report.event])

theorem attemptCompletion_settles_iff (model : String) (deployment : Deployment T) (attempt : Attempt T)
    (failed : CallError → Bool → Trace T C) :
    (attemptCompletion model deployment attempt fun error => failed error false).Settles model [] ↔
      match completionEnd deployment attempt with
      | .finished settled => settled = true
      | .failed error visible => (failed error visible).Settles model [] := by
  unfold attemptCompletion completionEnd
  cases requestKwargsError deployment with
  | some error => exact Iff.rfl
  | none =>
    dsimp only
    cases attempt.reply with
    | raised error => exact Iff.rfl
    | cancelled => simp [(requestCancelled_interrupts model).settles_iff]
    | response response =>
      refine settles_onSuccess.trans ?_
      dsimp only
      cases (usageEntry response "completion_tokens").divides with
      | error error => exact Iff.rfl
      | ok quotient =>
        dsimp only
        cases (usageEntry response "prompt_tokens").add (usageEntry response "completion_tokens") with
        | error error => exact Iff.rfl
        | ok total => exact settles_emitting_unowed rfl (by decide) rfl rfl (requestCancelled_interrupts model)

/-- Whether chunks are given to the consumer without the stream being closed. -/
def passesAll (closes : ℕ → Bool) : ℕ → List C → Option ℕ
  | n, [] => some n
  | n, _ :: chunks => if closes n then none else passesAll closes (n + 1) chunks

def recordEnd (kind : StreamKind C U) (attempt : StreamAttempt T) (p : Pump C U) : AttemptEnd :=
  let (tokens, promptTokens) := kind.tokens p.usage
  match tokens.divides with
  | .error error => .failed (.ofPython error) p.visible
  | .ok _ =>
    match promptTokens.add tokens with
    | .error error => .failed (.ofPython error) p.visible
    | .ok _ => .finished ((attempt.emits .streamSucceeded).settles true)

def finishEnd (kind : StreamKind C U) (attempt : StreamAttempt T) (p : Pump C U) : AttemptEnd :=
  match passesAll attempt.closes p.yields p.pending with
  | none => .finished true
  | some _ => recordEnd kind attempt p

def pumpEnd (kind : StreamKind C U) (attempt : StreamAttempt T) (streamEnd : StreamEnd) : List Value → Pump C U → AttemptEnd
  | [], p =>
    match streamEnd with
    | .complete => finishEnd kind attempt p
    | .raised error => .failed error p.visible
    | .cancelled => .finished true
  | value :: values, p =>
    match kind.convert value with
    | .error error => .failed (.ofPython error) p.visible
    | .ok none => pumpEnd kind attempt streamEnd values p
    | .ok (some chunk) =>
      let p := { p with count := p.count + 1, usage := kind.usage chunk <|> p.usage }
      if p.visible then
        match passesAll attempt.closes p.yields [chunk] with
        | none => .finished true
        | some n => pumpEnd kind attempt streamEnd values { p with yields := n }
      else
        match kind.visible chunk with
        | .error error => .failed (.ofPython error) false
        | .ok true =>
          if attempt.emits .streamRouteSelected = .done then
            match passesAll attempt.closes p.yields (p.pending ++ [chunk]) with
            | none => .finished true
            | some n => pumpEnd kind attempt streamEnd values { p with visible := true, pending := [], yields := n }
          else .finished true
        | .ok false => pumpEnd kind attempt streamEnd values { p with pending := p.pending ++ [chunk] }

def streamEndOf (router : Settings T) (kind : StreamKind C U) (model : String) (selected : Deployment T)
    (attempt : StreamAttempt T) : AttemptEnd :=
  match requestKwargsError selected with
  | some error => .failed error false
  | none =>
    let actualModel := if model = modelWildcard then selected.modelName else model
    let (values, streamEnd) := acompletionStream (router.transformStreamChunk selected actualModel) attempt.upstream
    pumpEnd kind attempt streamEnd values {}

theorem yieldAll_settles_iff {model : String} (i : ℕ) (closes : ℕ → Bool) {next : ℕ → Trace T C}
    (hclosed : Interrupts model true closed) (n : ℕ) (chunks : List C) :
    (yieldAll i closes closed next n chunks).Settles model [] ↔
      match passesAll closes n chunks with
      | none => True
      | some n => (next n).Settles model [] := by
  induction chunks generalizing n with
  | nil => exact Iff.rfl
  | cons chunk chunks ih =>
    rw [yieldAll, passesAll, settles_deliver]
    cases closes n with
    | true => simp [hclosed.settles_iff]
    | false => exact ih (n + 1)

variable (kind : StreamKind C U) (model : String)

theorem recordSuccess_settles_iff (selected : Deployment T) (attempt : StreamAttempt T)
    (failed : CallError → Bool → Trace T C) (p : Pump C U) :
    (recordSuccess kind model selected attempt failed p).Settles model [] ↔
      match recordEnd kind attempt p with
      | .finished settled => settled = true
      | .failed error visible => (failed error visible).Settles model [] := by
  unfold recordSuccess recordEnd
  refine settles_onSuccess.trans ?_
  dsimp only
  cases (kind.tokens p.usage).1.divides with
  | error error => exact Iff.rfl
  | ok quotient =>
    dsimp only
    cases (kind.tokens p.usage).2.add (kind.tokens p.usage).1 with
    | error error => exact Iff.rfl
    | ok total => exact settles_emitting_unowed rfl (by decide) rfl rfl (streamCancelled_interrupts model _ _)

theorem finishStream_settles_iff (i : ℕ) (selected : Deployment T)
    (attempt : StreamAttempt T) (failed : CallError → Bool → Trace T C) (p : Pump C U) :
    (finishStream kind model i selected attempt failed p).Settles model [] ↔
      match finishEnd kind attempt p with
      | .finished settled => settled = true
      | .failed error visible => (failed error visible).Settles model [] := by
  unfold finishStream finishEnd
  refine (yieldAll_settles_iff i attempt.closes (streamCancelled_interrupts model _ _) _ _).trans ?_
  cases passesAll attempt.closes p.yields p.pending with
  | none => simp
  | some n => exact recordSuccess_settles_iff kind model selected attempt failed p

theorem pump_settles_iff (i : ℕ) (selected : Deployment T) (attempt : StreamAttempt T)
    (failed : CallError → Bool → Trace T C) (streamEnd : StreamEnd) (values : List Value) (p : Pump C U) :
    (pump kind model i selected attempt failed (finishStream kind model i selected attempt failed) streamEnd values p).Settles
        model [] ↔
      match pumpEnd kind attempt streamEnd values p with
      | .finished settled => settled = true
      | .failed error visible => (failed error visible).Settles model [] := by
  have hcancelled : ∀ outcome, (streamCancelled model (some selected) outcome : Trace T C).Settles model [] := fun outcome =>
    (streamCancelled_interrupts model (some selected) outcome).settles_iff.mpr ⟨rfl, rfl⟩
  induction values generalizing p with
  | nil =>
    cases streamEnd with
    | complete => exact finishStream_settles_iff kind model i selected attempt failed p
    | raised error => exact Iff.rfl
    | cancelled => simpa [pump, pumpEnd] using hcancelled .cancelled
  | cons value values ih =>
    rw [pump, pumpEnd]
    cases kind.convert value with
    | error error => exact Iff.rfl
    | ok converted =>
      cases converted with
      | none => exact ih p
      | some chunk =>
        dsimp only
        cases p.visible with
        | true =>
          refine (yieldAll_settles_iff i attempt.closes (streamCancelled_interrupts model _ _) _ _).trans ?_
          rw [if_pos rfl]
          cases passesAll attempt.closes p.yields [chunk] with
          | none => simp
          | some n => exact ih _
        | false =>
          cases kind.visible chunk with
          | error error => exact Iff.rfl
          | ok visible =>
            cases visible with
            | false => exact ih _
            | true =>
              have hquiet : ∀ t : Trace T C,
                  (t.reporting (.emit (streamRouteSelected model selected attempt.latency))).Settles model [] ↔
                    t.Settles model [] := fun t => settles_reporting_quiet (by rintro event ⟨⟩; exact ⟨rfl, rfl⟩)
              simp only [Bool.false_eq_true, if_false]
              cases attempt.emits .streamRouteSelected with
              | cancelled handled => cases handled <;> simp [emitting, hquiet, hcancelled]
              | done =>
                refine (hquiet _).trans ?_
                refine (yieldAll_settles_iff i attempt.closes (streamCancelled_interrupts model _ _) _ _).trans ?_
                rw [if_pos rfl]
                cases passesAll attempt.closes p.yields (p.pending ++ [chunk]) with
                | none => simp
                | some n => exact ih _

/-! ## Calls -/

/-- Whether a request to a deployment that was named settles its account. -/
def directSettled (deployment : Deployment T) (attempt : Attempt T) : Bool :=
  let failed := deployment.id ≠ "" && (attempt.emits .allDeploymentsExhausted).settles false
  match requestKwargsError deployment with
  | some _ => failed
  | none =>
    match attempt.reply with
    | .raised _ => failed
    | .cancelled => true
    | .response response =>
      match (usageEntry response "prompt_tokens").add (usageEntry response "completion_tokens") with
      -- the answer is there, but nothing is reported
      | .error _ => false
      | .ok _ => (attempt.emits .requestSucceeded).settles false

def completionSettled (router : Settings T) (model : String) (deployment : Option (Deployment T)) (available : List (Deployment T))
    (attempts : ℕ → Attempt T) (final : Delivery) : Bool :=
  match deployment with
  | some deployment => directSettled deployment (attempts 0)
  | none =>
    if available = [] then final.settles false
    else
      retrySettled router model (some model) (totalAttempts router available) (fun i => (attempts i).selection)
        (fun i => (attempts i).emits) final false (fun i selected => completionEnd selected (attempts i))
        (totalAttempts router available) available false

def streamSettled (router : Settings T) (kind : StreamKind C U) (model : String) (available : List (Deployment T))
    (attempts : ℕ → StreamAttempt T) (final : Delivery) : Bool :=
  if available = [] then final.settles false
  else
    retrySettled router model kind.terminalModel (totalAttempts router available) (fun i => (attempts i).selection)
      (fun i => (attempts i).emits) final true (fun i selected => streamEndOf router kind model selected (attempts i))
      (totalAttempts router available) available false

def Call.settled (router : Settings T) (deployments : List (Deployment T)) : Call T → Bool
  | .completion model deployment available attempts final => completionSettled router model deployment available attempts final
  | .invoke model deployment available attempts final =>
    match resolveModelName deployments model with
    | none => true
    | some modelName => completionSettled router modelName deployment available attempts final
  | .streamCompletion model available attempts final =>
    streamSettled router (streamCompletionKind model) model available attempts final
  | .stream model available attempts final =>
    match resolveModelName deployments model with
    | none => true
    | some modelName => streamSettled router (streamKind model) modelName available attempts final

namespace Trace

/-- A call whose account is balanced: what ends it is what starts it, and what it charges are its failures. -/
structure Balanced (t : Trace T C) : Prop where
  ends : (models (· ≠ .start) t.events).Perm (models (· = .start) t.events)
  charges : (t.events.filterMap RoutingEvent.charge).Perm t.failures

/-- A call that balances its account exactly under a condition. No event of it changes the deployments. -/
structure Accounted (settled : Bool) (t : Trace T C) : Prop where
  updates : ∀ event ∈ t.events, event.eventType ≠ .deploymentsUpdated
  balanced_iff : t.Balanced ↔ settled = true

end Trace

variable {settled : Bool}

theorem accounted_congr {D : Type} {t : Trace T C} {t' : Trace T D} (hevents : t.events = t'.events)
    (hfailures : t.failures = t'.failures) (h : t'.Accounted settled) : t.Accounted settled where
  updates := hevents ▸ h.updates
  balanced_iff := by
    rw [← h.balanced_iff]
    constructor
    · rintro ⟨hends, hcharges⟩
      exact ⟨hevents ▸ hends, hevents ▸ hfailures ▸ hcharges⟩
    · rintro ⟨hends, hcharges⟩
      exact ⟨hevents ▸ hends, hevents ▸ hfailures ▸ hcharges⟩

theorem accounted_started {event : RoutingEvent T} {model : String} {t : Trace T C}
    (hphase : event.phase = some .start) (hmodel : event.model = some model) (hcharge : event.charge = none) (ht : t.Ordinary)
    (h : t.Settles model [] ↔ settled = true) : (t.reporting (.emit event)).Accounted settled := by
  have hnone : ∀ e ∈ t.events, ∀ phase, e.phase = some phase → ¬ phase = .start :=
    fun e he phase hp hstart => (ht e he).1 (hstart ▸ hp)
  have hstarts : models (· = .start) (t.reporting (.emit event)).events = [some model] := by
    simpa [models, Report.event, RoutingEvent.modelWhen, hphase, hmodel] using hnone
  have hends : models (· ≠ .start) (t.reporting (.emit event)).events = models (· ≠ .start) t.events := by
    simp [models, Report.event, RoutingEvent.modelWhen, hphase]
  have hcharges : (t.reporting (.emit event)).events.filterMap RoutingEvent.charge =
      t.events.filterMap RoutingEvent.charge := by
    simp [Report.event, hcharge]
  refine ⟨?_, Iff.trans ⟨?_, ?_⟩ h⟩
  · intro e he
    rw [events_reporting, List.mem_append, Option.mem_toList] at he
    rcases he with he | he
    · obtain rfl := Option.some.inj he
      intro hupdate
      simp [RoutingEvent.phase, hupdate] at hphase
    · exact (ht e he).2
  · intro hbalanced
    have hperm := hbalanced.ends
    rw [hstarts, hends] at hperm
    exact ⟨List.perm_singleton.mp hperm, hcharges ▸ hbalanced.charges⟩
  · intro hsettles
    refine ⟨?_, hcharges ▸ hsettles.charges⟩
    rw [hstarts, hends, hsettles.ends]

theorem accounted_ended (outcome : Outcome) : (ended outcome : Trace T C).Accounted true where
  updates := by simp
  balanced_iff := iff_of_true ⟨List.Perm.refl _, List.Perm.refl _⟩ rfl

theorem unavailable_accounted (model : String) (final : Delivery) :
    (unavailable model final : Trace T C).Accounted (final.settles false) := by
  apply accounted_started rfl rfl rfl
  · exact terminal_ordinary _ _ _ _ (ordinary_ended _)
  · exact settles_emitting_unowed rfl (by decide) rfl rfl (ended_interrupts model _)

theorem completionOnDeployment_accounted (model : String) (deployment : Deployment T) (attempt : Attempt T) :
    (completionOnDeployment model deployment attempt : Trace T C).Accounted (directSettled deployment attempt) := by
  have hfailed : ∀ error : CallError,
      (Trace.after [.failed deployment.id] (emitting (exhausted (some model) (some (deployment, error)))
        (attempt.emits .allDeploymentsExhausted) (.ended .cancelled) (.ended (.raised error))) : Trace T C).Settles model [] ↔
        (deployment.id ≠ "" && (attempt.emits .allDeploymentsExhausted).settles false) = true := by
    intro error
    rw [settles_failed]
    by_cases hid : deployment.id = ""
    · simp [hid, not_settles_unnamed]
    · rw [settles_final hid]
      simp [hid]
  have hordinary : ∀ error : CallError,
      (Trace.after [.failed deployment.id] (emitting (exhausted (some model) (some (deployment, error)))
        (attempt.emits .allDeploymentsExhausted) (.ended .cancelled) (.ended (.raised error))) : Trace T C).Ordinary :=
    fun error event hevent => terminal_ordinary _ _ _ _ (ordinary_ended _) event hevent
  unfold completionOnDeployment directSettled
  cases requestKwargsError deployment with
  | some error => exact accounted_started rfl rfl rfl (hordinary error) (hfailed error)
  | none =>
    dsimp only
    cases attempt.reply with
    | raised error => exact accounted_started rfl rfl rfl (hordinary error) (hfailed error)
    | cancelled =>
      apply accounted_started rfl rfl rfl (requestCancelled_ordinary model)
      simp [(requestCancelled_interrupts model).settles_iff]
    | response response =>
      dsimp only
      cases (usageEntry response "prompt_tokens").add (usageEntry response "completion_tokens") with
      | error error =>
        apply accounted_started rfl rfl rfl (ordinary_ended _)
        simp [not_settles_ended]
      | ok total =>
        apply accounted_started rfl rfl rfl
        · refine ordinary_emitting ?_ (ordinary_ended _) (ordinary_ended _)
          exact ⟨by simp [requestSucceeded, RoutingEvent.phase], by simp [requestSucceeded]⟩
        · exact settles_emitting_unowed rfl (by decide) rfl rfl (ended_interrupts model _)

theorem completion_accounted (router : Settings T) (model : String) (deployment : Option (Deployment T))
    (available : List (Deployment T)) (attempts : ℕ → Attempt T) (final : Delivery) :
    (completion router model deployment available attempts final : Trace T C).Accounted
      (completionSettled router model deployment available attempts final) := by
  cases deployment with
  | some deployment => exact completionOnDeployment_accounted model deployment (attempts 0)
  | none =>
    unfold completion completionSettled
    dsimp only
    split
    · exact unavailable_accounted model final
    · apply accounted_started rfl rfl rfl
      · exact retryLoop_ordinary _ _ _ _ _ _ _ (fun _ => ordinary_ended _)
          (fun i selected failed hfailed => attemptCompletion_ordinary _ _ _ fun error => hfailed error false) _ _ _ _
      · have hattempt : ∀ i selected (failed : CallError → Bool → Trace T C), _ ↔
            match completionEnd selected (attempts i) with
            | .finished settled => settled = true
            | .failed error visible => (failed error visible).Settles model [] :=
          fun i selected failed => attemptCompletion_settles_iff model selected (attempts i) failed
        have h := retryLoop_settles_iff router model (some model) (totalAttempts router available)
          (fun i => (attempts i).selection) (fun i => (attempts i).emits) final (fun _ => ended_interrupts model .cancelled)
          hattempt (totalAttempts router available) available none none (by simp)
        rw [completionLoop]
        simpa using h

variable (router : Settings T) (kind : StreamKind C U) (model : String)

theorem attemptStream_ordinary (i : ℕ) (selected : Deployment T) (attempt : StreamAttempt T)
    (hfailed : ∀ error visible, (failed error visible).Ordinary) :
    (attemptStream router kind model i selected attempt failed).Ordinary := by
  unfold attemptStream
  cases requestKwargsError selected with
  | some error => exact hfailed _ _
  | none =>
    exact pump_ordinary _ _ _ _ _ hfailed (fun p => finishStream_ordinary _ _ _ _ _ hfailed p) _ _ _

theorem attemptStream_settles_iff (i : ℕ)
    (selected : Deployment T) (attempt : StreamAttempt T) (failed : CallError → Bool → Trace T C) :
    (attemptStream router kind model i selected attempt failed).Settles model [] ↔
      match streamEndOf router kind model selected attempt with
      | .finished settled => settled = true
      | .failed error visible => (failed error visible).Settles model [] := by
  unfold attemptStream streamEndOf
  cases requestKwargsError selected with
  | some error => exact Iff.rfl
  | none => exact pump_settles_iff kind model i selected attempt failed _ _ _

theorem streamCall_accounted (available : List (Deployment T)) (attempts : ℕ → StreamAttempt T) (final : Delivery) :
    (streamCall router kind model available attempts final).Accounted
      (streamSettled router kind model available attempts final) := by
  unfold streamCall streamSettled
  split
  · exact unavailable_accounted model final
  · apply accounted_started rfl rfl rfl
    · exact retryLoop_ordinary _ _ _ _ _ _ _ (fun _ => streamCancelled_ordinary _ _ _)
        (fun i selected failed hfailed => attemptStream_ordinary _ _ _ _ _ _ hfailed) _ _ _ _
    · have h := retryLoop_settles_iff router model kind.terminalModel (totalAttempts router available)
        (fun i => (attempts i).selection) (fun i => (attempts i).emits) final
        (fun selected => streamCancelled_interrupts model selected .cancelled)
        (fun i selected failed => attemptStream_settles_iff router kind model i selected (attempts i) failed)
        (totalAttempts router available) available none none (by simp)
      rw [streamLoop]
      simpa using h

theorem call_accounted (router : Settings T) (deployments : List (Deployment T)) (call : Call T) :
    (call.trace router deployments).Accounted (call.settled router deployments) := by
  cases call with
  | completion model deployment available attempts final => exact completion_accounted _ _ _ _ _ _
  | invoke model deployment available attempts final =>
    unfold Call.trace Call.settled
    dsimp only
    unfold invoke
    cases resolveModelName deployments model with
    | none => exact accounted_ended _
    | some modelName =>
      have h := completion_accounted (C := Unit) router modelName deployment available attempts final
      dsimp only
      -- what is made of the response changes the outcome only
      split
      · split
        · exact h
        · refine accounted_congr ?_ ?_ h
          · rfl
          · rfl
      · exact h
  | streamCompletion model available attempts final =>
    apply accounted_congr (events_mapChunks _ _) (failures_mapChunks _ _)
    exact streamCall_accounted _ _ _ _ _ _
  | stream model available attempts final =>
    apply accounted_congr (events_mapChunks _ _) (failures_mapChunks _ _)
    unfold stream Call.settled
    dsimp only
    cases resolveModelName deployments model with
    | none => exact accounted_ended _
    | some modelName => exact streamCall_accounted _ _ _ _ _ _

/-! ## Any number of calls -/

/-- The events of some calls, one call after the other. -/
def eventsOf (router : Settings T) (deployments : List (Deployment T)) (calls : List (Call T)) : List (RoutingEvent T) :=
  calls.flatMap fun call => (call.trace router deployments).events

/-- The deployments that failed in an attempt of some calls. -/
def failuresOf (router : Settings T) (deployments : List (Deployment T)) (calls : List (Call T)) : List String :=
  calls.flatMap fun call => (call.trace router deployments).failures

/-- The metrics of some calls are conserved when a collector has handled all of their events in this order. -/
def MetricsConserved (router : Settings T) (deployments : List (Deployment T)) (calls : List (Call T))
    (handled : List (RoutingEvent T)) : Prop :=
  Conserved (collect handled) (models (· = .cancellation) handled) (failuresOf router deployments calls)

theorem metricsConserved_iff_perm {router : Settings T} {deployments : List (Deployment T)} {calls : List (Call T)}
    {handled : List (RoutingEvent T)} (hperm : handled.Perm (eventsOf router deployments calls)) :
    MetricsConserved router deployments calls handled ↔
      (models (· ≠ .start) (eventsOf router deployments calls)).Perm (models (· = .start) (eventsOf router deployments calls)) ∧
        ((eventsOf router deployments calls).filterMap RoutingEvent.charge).Perm (failuresOf router deployments calls) := by
  have hupdates : ∀ event ∈ handled, event.eventType ≠ .deploymentsUpdated := by
    intro event hevent
    obtain ⟨call, -, hmem⟩ := List.mem_flatMap.mp (hperm.mem_iff.mp hevent)
    exact (call_accounted router deployments call).updates event hmem
  have hmodels : ∀ p, (models p handled).Perm (models p (eventsOf router deployments calls)) := fun p => hperm.filterMap _
  refine (conserved_iff hupdates).trans (and_congr ?_ ?_)
  · exact ⟨fun h => (hmodels _).symm.trans (h.trans (hmodels _)), fun h => (hmodels _).trans (h.trans (hmodels _).symm)⟩
  · exact ⟨fun h => (hperm.filterMap _).symm.trans h, fun h => (hperm.filterMap _).trans h⟩

/-- The metrics of all calls, and of any part of them, are conserved in every order of their events, exactly if each of
the calls settles its account. -/
theorem metricsConserved_iff (router : Settings T) (deployments : List (Deployment T)) (calls : List (Call T)) :
    (∀ part, part.Sublist calls → ∀ handled, handled.Perm (eventsOf router deployments part) →
        MetricsConserved router deployments part handled) ↔ ∀ call ∈ calls, call.settled router deployments = true := by
  constructor
  · intro h call hcall
    have halone := h [call] (List.singleton_sublist.mpr hcall) _ (List.Perm.refl _)
    obtain ⟨hends, hcharges⟩ := (metricsConserved_iff_perm (List.Perm.refl _)).mp halone
    rw [eventsOf, List.flatMap_singleton] at hends hcharges
    rw [failuresOf, List.flatMap_singleton] at hcharges
    exact (call_accounted router deployments call).balanced_iff.mp ⟨hends, hcharges⟩
  · intro h part hpart handled hperm
    have hbalanced : ∀ call ∈ part, (call.trace router deployments).Balanced := fun call hcall =>
      (call_accounted router deployments call).balanced_iff.mpr (h call (hpart.subset hcall))
    rw [metricsConserved_iff_perm hperm, models, models, eventsOf, List.filterMap_flatMap, List.filterMap_flatMap,
      List.filterMap_flatMap]
    constructor
    · exact List.Perm.flatMap_left _ fun call hcall => (hbalanced call hcall).ends
    · exact List.Perm.flatMap_left _ fun call hcall => (hbalanced call hcall).charges

/-- A request whose strategy raises is counted as started, and nothing ever ends it. -/
theorem strategy_raises_unconserved :
    let router : Settings ℕ := { transformStreamChunk := fun _ _ chunk => .ok (some chunk) }
    let deployment : Deployment ℕ := { id := "d", modelName := "m" }
    let attempt : Attempt ℕ :=
      { selection := .raised ⟨.other, "RuntimeError"⟩, reply := .cancelled, latency := 0, emits := fun _ => .done }
    let call : Call ℕ := .completion "m" none [deployment] (fun _ => attempt) .done
    ¬ MetricsConserved router [deployment] [call] (eventsOf router [deployment] [call]) := by
  intro router deployment attempt call h
  have htotal : 0 + 0 + 0 = 1 := h.total
  exact absurd htotal (by decide)

end AgentProtocol.Router
