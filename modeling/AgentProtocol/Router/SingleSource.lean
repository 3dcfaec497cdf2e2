-- SUMMARY: What the consumer of a stream is given: a prefix of the chunks of the last attempt, and when chunks of an abandoned attempt come before.
import AgentProtocol.Router.Accounting

/-!
# Single source

A streaming call holds chunks back until one of them is visible, so that an attempt that fails before is replaced unseen.
A stream without a visible chunk gives away what it held back when it ends, and what comes then may still fail. The chunks
that are delivered are compared with those of the last attempt that is made.
-/

namespace AgentProtocol.Router

open Lib Trace

variable {T C U : Type}

/-! ## The chunks of an attempt -/

/-- What is made of chunks, up to the first that raises. -/
def convertAll (convert : Value → Except PyError (Option C)) : List Value → List C
  | [] => []
  | value :: values =>
    match convert value with
    | .error _ => []
    | .ok converted => converted.toList ++ convertAll convert values

/-- The chunks that a deployment sends in an attempt, in the format of OpenAI, and how they end. -/
def providerChunks (router : Settings T) (model : String) (selected : Deployment T) (attempt : StreamAttempt T) :
    List Value × StreamEnd :=
  let actualModel := if model = modelWildcard then selected.modelName else model
  acompletionStream (router.transformStreamChunk selected actualModel) attempt.upstream

/-- The chunk sequence of an attempt, as it is to be delivered. -/
def chunkSequence (router : Settings T) (kind : StreamKind C U) (model : String) (selected : Deployment T)
    (attempt : StreamAttempt T) : List C :=
  convertAll kind.convert (providerChunks router model selected attempt).1

/-- Whether a stream carries the end mark or a finish signal. -/
def carriesEnd (upstream : Upstream) : Bool := upstream.lines.any fun
  | .skipped => false
  | .done => true
  | .data chunk => chunkHasFinishSignal chunk

theorem iterStreamEvents_complete {lineEnd : StreamEnd} {finished : Bool} {lines : List Line}
    (h : (iterStreamEvents lineEnd finished lines).2 = .complete) : finished = true ∨ carriesEnd { lines := lines } = true := by
  induction lines generalizing finished with
  | nil =>
    cases lineEnd with
    | complete =>
      cases finished with
      | true => exact .inl rfl
      | false => simp [iterStreamEvents] at h
    | raised | cancelled => simp [iterStreamEvents] at h
  | cons line lines ih =>
    cases line with
    | skipped => simpa [carriesEnd] using ih h
    | done => exact .inr (by simp [carriesEnd])
    | data chunk =>
      rcases ih h with hfinished | hlines
      · rcases Bool.or_eq_true_iff.mp hfinished with hfinished | hchunk
        · exact .inl hfinished
        · exact .inr (by simp [carriesEnd, hchunk])
      · refine .inr ?_
        simp only [carriesEnd, List.any_cons, Bool.or_eq_true] at hlines ⊢
        exact .inr hlines

variable {transform : Value → Except CallError (Option Value)}

theorem transformChunks_complete {streamEnd : StreamEnd}
    {chunks : List Value} (h : (transformChunks transform streamEnd chunks).2 = .complete) : streamEnd = .complete := by
  induction chunks with
  | nil => exact h
  | cons chunk chunks ih =>
    rw [transformChunks] at h
    cases hchunk : transform chunk with
    | error error => simp [hchunk] at h
    | ok mapped =>
      rw [hchunk] at h
      exact ih h

theorem acompletionStream_complete {upstream : Upstream}
    (h : (acompletionStream transform upstream).2 = .complete) : carriesEnd upstream = true := by
  unfold acompletionStream at h
  cases hsetup : upstream.setup with
  | some error => simp [hsetup] at h
  | none =>
    rw [hsetup] at h
    rcases iterStreamEvents_complete (transformChunks_complete h) with hfinished | hlines
    · cases hfinished
    exact hlines

/-! ## Traces -/

namespace Trace

@[simp] theorem delivered_attempted (i : ℕ) (d : Deployment T) (t : Trace T C) :
    (t.after [.attempted i d]).delivered = t.delivered := rfl

@[simp] theorem attempts_attempted (i : ℕ) (d : Deployment T) (t : Trace T C) :
    (t.after [.attempted i d]).attempts = (i, d) :: t.attempts := rfl

/-- A call gives its consumer these chunks of an attempt, and goes on. -/
structure Delivers (i : ℕ) (chunks : List C) (t next : Trace T C) : Prop where
  delivered : t.delivered = chunks.map (i, ·) ++ next.delivered
  attempts : t.attempts = next.attempts
  outcome : t.outcome = next.outcome

theorem Delivers.nothing (i : ℕ) (t : Trace T C) : Delivers i [] t t := ⟨rfl, rfl, rfl⟩

theorem Delivers.report (i : ℕ) (r : Report T) (t : Trace T C) : Delivers i [] (t.reporting r) t := ⟨rfl, rfl, rfl⟩

theorem Delivers.one (i : ℕ) (chunk : C) (t : Trace T C) : Delivers i [chunk] (t.after [.deliver i chunk]) t := ⟨rfl, rfl, rfl⟩

theorem Delivers.trans {i : ℕ} {xs ys : List C} {t t' t'' : Trace T C} (h : Delivers i xs t t') (h' : Delivers i ys t' t'') :
    Delivers i (xs ++ ys) t t'' where
  delivered := by rw [h.delivered, h'.delivered, List.map_append, List.append_assoc]
  attempts := h.attempts.trans h'.attempts
  outcome := h.outcome.trans h'.outcome

/-- The call is over without a result, and nothing more is delivered. -/
structure GivesUp (t : Trace T C) : Prop where
  delivered : t.delivered = []
  attempts : t.attempts = []
  outcome : ∀ response, t.outcome ≠ .returned response

end Trace

theorem streamCancelled_givesUp (model : String) (selected : Option (Deployment T)) {outcome : Outcome}
    (h : ∀ response, outcome ≠ .returned response) : (streamCancelled model selected outcome : Trace T C).GivesUp :=
  ⟨rfl, rfl, h⟩

theorem raised_givesUp (error : CallError) : (ended (.raised error) : Trace T C).GivesUp :=
  ⟨rfl, rfl, fun _ h => by cases h⟩

theorem cancelled_givesUp : (ended .cancelled : Trace T C).GivesUp :=
  ⟨rfl, rfl, fun _ h => by cases h⟩

variable {interrupted next : Trace T C} {event : RoutingEvent T}

theorem interrupted_givesUp {handled : Bool}
    (h : interrupted.GivesUp) : (emitting event (.cancelled handled) interrupted next).GivesUp := by
  cases handled with
  | false => exact h
  | true => exact ⟨h.delivered, h.attempts, h.outcome⟩

theorem emitting_givesUp {delivery : Delivery}
    (hinterrupted : interrupted.GivesUp) (hnext : next.GivesUp) : (emitting event delivery interrupted next).GivesUp := by
  cases delivery with
  | done => exact ⟨hnext.delivered, hnext.attempts, hnext.outcome⟩
  | cancelled handled => exact interrupted_givesUp hinterrupted

/-! ## One attempt -/

theorem yieldAll_delivers (i : ℕ) (closes : ℕ → Bool) (closed : Trace T C) (next : ℕ → Trace T C) (n : ℕ) (chunks : List C) :
    match passesAll closes n chunks with
    | none => ∃ given, given <+: chunks ∧ Delivers i given (yieldAll i closes closed next n chunks) closed
    | some m => Delivers i chunks (yieldAll i closes closed next n chunks) (next m) := by
  induction chunks generalizing n with
  | nil => exact Delivers.nothing i _
  | cons chunk chunks ih =>
    have h := ih (n + 1)
    rw [yieldAll, passesAll]
    cases closes n with
    | true => exact ⟨[chunk], by simp, Delivers.one i chunk closed⟩
    | false =>
      simp only [Bool.false_eq_true, if_false]
      cases hpasses : passesAll closes (n + 1) chunks with
      | none =>
        rw [hpasses] at h
        obtain ⟨given, hgiven, hdelivers⟩ := h
        exact ⟨chunk :: given, by simpa using hgiven, (Delivers.one i chunk _).trans hdelivers⟩
      | some m =>
        rw [hpasses] at h
        exact (Delivers.one i chunk _).trans h

/-- Whether no chunk is visible or raises. -/
def hidden (kind : StreamKind C U) : List Value → Bool
  | [] => true
  | value :: values =>
    match kind.convert value with
    | .error _ => false
    | .ok none => hidden kind values
    | .ok (some chunk) =>
      match kind.visible chunk with
      | .ok false => hidden kind values
      | _ => false

def StreamEnd.isComplete : StreamEnd → Bool
  | .complete => true
  | _ => false

/-- Whether what was held back is given away at the end, and is not nothing. -/
def flushes (kind : StreamKind C U) (streamEnd : StreamEnd) (values : List Value) (p : Pump C U) : Bool :=
  streamEnd.isComplete && hidden kind values && !p.visible && !(p.pending ++ convertAll kind.convert values).isEmpty

/-- What the rest of an attempt gives its consumer, of the chunks that were held back or are still to come. -/
def PumpDelivers (kind : StreamKind C U) (i : ℕ) (streamEnd : StreamEnd) (values : List Value) (p : Pump C U)
    (failed : CallError → Bool → Trace T C) (t : Trace T C) : AttemptEnd → Prop
  | .failed error visible =>
    ∃ given, given <+: p.pending ++ convertAll kind.convert values ∧ Delivers i given t (failed error visible) ∧
      (p.visible = true → visible = true) ∧ (visible = false → (given ≠ [] ↔ flushes kind streamEnd values p = true))
  | .finished _ =>
    ∃ given next, given <+: p.pending ++ convertAll kind.convert values ∧ Delivers i given t next ∧
      next.delivered = [] ∧ next.attempts = [] ∧
      ∀ response, next.outcome = .returned response →
        given = p.pending ++ convertAll kind.convert values ∧ streamEnd = .complete

section

variable (kind : StreamKind C U) (model : String) (i : ℕ) (selected : Deployment T) (attempt : StreamAttempt T)
  (failed : CallError → Bool → Trace T C)

theorem recordSuccess_cases (p : Pump C U) :
    match recordEnd kind attempt p with
    | .failed error visible =>
      visible = p.visible ∧ Delivers i [] (recordSuccess kind model selected attempt failed p) (failed error visible)
    | .finished _ =>
      (recordSuccess kind model selected attempt failed p).delivered = [] ∧
        (recordSuccess kind model selected attempt failed p).attempts = [] := by
  unfold recordSuccess recordEnd
  dsimp only
  cases (kind.tokens p.usage).1.divides with
  | error error => exact ⟨rfl, Delivers.report i _ _⟩
  | ok quotient =>
    dsimp only
    cases (kind.tokens p.usage).2.add (kind.tokens p.usage).1 with
    | error error => exact ⟨rfl, Delivers.report i _ _⟩
    | ok total =>
      cases attempt.emits .streamSucceeded with
      | done => exact ⟨rfl, rfl⟩
      | cancelled handled => cases handled <;> exact ⟨rfl, rfl⟩

theorem finishStream_delivers (p : Pump C U) :
    PumpDelivers kind i .complete [] p failed (finishStream kind model i selected attempt failed p)
      (finishEnd kind attempt p) := by
  have hgiven := yieldAll_delivers i attempt.closes (streamCancelled model (some selected) .closed)
    (fun _ => recordSuccess kind model selected attempt failed p) p.yields p.pending
  have hrecord := recordSuccess_cases kind model i selected attempt failed p
  unfold finishEnd
  cases hpasses : passesAll attempt.closes p.yields p.pending with
  | none =>
    rw [hpasses] at hgiven
    obtain ⟨given, hprefix, hdelivers⟩ := hgiven
    refine ⟨given, _, by simpa [convertAll] using hprefix, hdelivers, rfl, rfl, ?_⟩
    intro response hresponse
    cases hresponse
  | some n =>
    rw [hpasses] at hgiven
    dsimp only at hgiven ⊢
    cases hend : recordEnd kind attempt p with
    | failed error visible =>
      rw [hend] at hrecord
      obtain ⟨rfl, hfailed⟩ := hrecord
      refine ⟨p.pending, by simp [convertAll], ?_, id, ?_⟩
      · have hall := hgiven.trans hfailed
        rwa [List.append_nil] at hall
      · intro hvisible
        simp [flushes, StreamEnd.isComplete, hidden, convertAll, hvisible]
    | finished settled =>
      rw [hend] at hrecord
      refine ⟨p.pending, _, by simp [convertAll], hgiven, hrecord.1, hrecord.2, ?_⟩
      intro response _
      exact ⟨by simp [convertAll], rfl⟩

variable {streamEnd : StreamEnd} {values : List Value}

variable {value : Value}

theorem PumpDelivers.cons {p p' : Pump C U} {t t' : Trace T C} {before : List C} (hdelivers : Delivers i before t t')
    (hchunks : p.pending ++ convertAll kind.convert (value :: values) = before ++ (p'.pending ++ convertAll kind.convert values))
    (hvisible : p.visible = true → p'.visible = true) (hbefore : p'.visible = false → before = [])
    (hflushes : p'.visible = false → flushes kind streamEnd (value :: values) p = flushes kind streamEnd values p') :
    ∀ {attemptEnd : AttemptEnd}, PumpDelivers kind i streamEnd values p' failed t' attemptEnd →
      PumpDelivers kind i streamEnd (value :: values) p failed t attemptEnd := by
  intro attemptEnd h
  cases attemptEnd with
  | failed error visible =>
    obtain ⟨given, hgiven, hnext, hp', hflush⟩ := h
    refine ⟨before ++ given, ?_, hdelivers.trans hnext, fun hp => hp' (hvisible hp), ?_⟩
    · rw [hchunks]
      exact (List.prefix_append_right_inj before).mpr hgiven
    · intro hfalse
      have hfalse' : p'.visible = false := by
        cases hp : p'.visible with
        | false => rfl
        | true => exact absurd (hfalse ▸ hp' hp) (by decide)
      rw [hbefore hfalse', List.nil_append, hflushes hfalse']
      exact hflush hfalse
  | finished settled =>
    obtain ⟨given, next, hgiven, hnext, hdelivered, hattempts, hreturned⟩ := h
    refine ⟨before ++ given, next, ?_, hdelivers.trans hnext, hdelivered, hattempts, ?_⟩
    · rw [hchunks]
      exact (List.prefix_append_right_inj before).mpr hgiven
    · intro response hresponse
      obtain ⟨hall, hcomplete⟩ := hreturned response hresponse
      exact ⟨by rw [hall, hchunks], hcomplete⟩

variable {p : Pump C U}

theorem PumpDelivers.raise {error : CallError} {visible : Bool}
    (hvisible : p.visible = true → visible = true) (hflushes : flushes kind streamEnd values p = false) :
    PumpDelivers kind i streamEnd values p failed (failed error visible) (.failed error visible) := by
  refine ⟨[], by simp, Delivers.nothing i _, hvisible, ?_⟩
  intro _
  simp [hflushes]

theorem PumpDelivers.giveUp {given : List C} {t next : Trace T C}
    {settled : Bool} (hgiven : given <+: p.pending ++ convertAll kind.convert values) (ht : Delivers i given t next)
    (hnext : next.GivesUp) : PumpDelivers kind i streamEnd values p failed t (.finished settled) :=
  ⟨given, next, hgiven, ht, hnext.delivered, hnext.attempts, fun response h => absurd h (hnext.outcome response)⟩

theorem PumpDelivers.yield {p' : ℕ → Pump C U}
    {closed : Trace T C} {next : ℕ → Trace T C} {nextEnd : ℕ → AttemptEnd} {chunks : List C} (n : ℕ)
    (hclosed : closed.GivesUp) (hchunks : ∀ m, p.pending ++ convertAll kind.convert (value :: values) =
      chunks ++ ((p' m).pending ++ convertAll kind.convert values)) (hvisible : ∀ m, (p' m).visible = true)
    (hnext : ∀ m, PumpDelivers kind i streamEnd values (p' m) failed (next m) (nextEnd m)) :
    PumpDelivers kind i streamEnd (value :: values) p failed (yieldAll i attempt.closes closed next n chunks)
      (match passesAll attempt.closes n chunks with
      | none => .finished true
      | some m => nextEnd m) := by
  have hyield := yieldAll_delivers i attempt.closes closed next n chunks
  cases hpasses : passesAll attempt.closes n chunks with
  | none =>
    rw [hpasses] at hyield
    obtain ⟨given, hgiven, hdelivers⟩ := hyield
    refine PumpDelivers.giveUp kind i failed ?_ hdelivers hclosed
    rw [hchunks 0]
    exact hgiven.trans (List.prefix_append _ _)
  | some m =>
    rw [hpasses] at hyield
    refine PumpDelivers.cons kind i failed hyield (hchunks m) (fun _ => hvisible m) ?_ ?_ (hnext m)
    · intro hfalse
      simp [hvisible m] at hfalse
    · intro hfalse
      simp [hvisible m] at hfalse

theorem PumpDelivers.report {t : Trace T C} {r : Report T} :
    ∀ {attemptEnd : AttemptEnd}, PumpDelivers kind i streamEnd values p failed t attemptEnd →
      PumpDelivers kind i streamEnd values p failed (t.reporting r) attemptEnd := by
  intro attemptEnd h
  cases attemptEnd with
  | failed error visible =>
    obtain ⟨given, hgiven, hdelivers, hrest⟩ := h
    exact ⟨given, hgiven, (Delivers.report i r t).trans hdelivers, hrest⟩
  | finished settled =>
    obtain ⟨given, next, hgiven, hdelivers, hrest⟩ := h
    exact ⟨given, next, hgiven, (Delivers.report i r t).trans hdelivers, hrest⟩

theorem pump_delivers (streamEnd : StreamEnd) (values : List Value) (p : Pump C U) (hp : p.visible = true → p.pending = []) :
    PumpDelivers kind i streamEnd values p failed
      (pump kind model i selected attempt failed (finishStream kind model i selected attempt failed) streamEnd values p)
      (pumpEnd kind attempt streamEnd values p) := by
  have hclosed : ∀ outcome, (∀ response, outcome ≠ .returned response) →
      (streamCancelled model (some selected) outcome : Trace T C).GivesUp :=
    fun outcome houtcome => streamCancelled_givesUp model (some selected) houtcome
  induction values generalizing p with
  | nil =>
    cases streamEnd with
    | complete => exact finishStream_delivers kind model i selected attempt failed p
    | raised error => exact PumpDelivers.raise kind i failed id (by simp [flushes, StreamEnd.isComplete])
    | cancelled =>
      exact PumpDelivers.giveUp kind i failed (by simp) (Delivers.nothing i _) (hclosed .cancelled (by simp))
  | cons value values ih =>
    rw [pump, pumpEnd]
    cases hconvert : kind.convert value with
    | error error => exact PumpDelivers.raise kind i failed id (by simp [flushes, hidden, hconvert])
    | ok converted =>
      cases converted with
      | none =>
        refine PumpDelivers.cons kind i failed (Delivers.nothing i _) ?_ id (fun _ => rfl) (fun _ => ?_) (ih p hp)
        · simp [convertAll, hconvert]
        · simp [flushes, hidden, convertAll, hconvert]
      | some chunk =>
        have hchunks : convertAll kind.convert (value :: values) = chunk :: convertAll kind.convert values := by
          simp [convertAll, hconvert]
        dsimp only
        cases hvisible : p.visible with
        | true =>
          rw [if_pos rfl, if_pos rfl]
          refine PumpDelivers.yield kind i attempt failed p.yields (hclosed .closed (by simp)) ?_ (fun _ => rfl)
            (fun m => ih _ fun _ => hp hvisible)
          intro m
          simp [hp hvisible, hchunks]
        | false =>
          rw [if_neg Bool.false_ne_true, if_neg Bool.false_ne_true]
          cases hchunk : kind.visible chunk with
          | error error =>
            refine PumpDelivers.raise kind i failed ?_ ?_
            · simp [hvisible]
            · simp [flushes, hidden, hconvert, hchunk]
          | ok visible =>
            cases visible with
            | false =>
              refine PumpDelivers.cons kind i failed (Delivers.nothing i _) ?_ ?_ (fun _ => rfl) (fun _ => ?_) (ih _ ?_)
              · simp [hchunks]
              · simp [hvisible]
              · simp [flushes, hidden, hconvert, hchunk, hchunks, hvisible]
              · simp
            | true =>
              cases attempt.emits .streamRouteSelected with
              | cancelled handled =>
                rw [if_neg (by simp)]
                refine PumpDelivers.giveUp kind i failed List.nil_prefix (Delivers.nothing i _) ?_
                exact interrupted_givesUp (hclosed .cancelled (by simp))
              | done =>
                rw [if_pos rfl]
                apply PumpDelivers.report
                refine PumpDelivers.yield kind i attempt failed p.yields (hclosed .closed (by simp)) ?_ (fun _ => rfl)
                  (fun m => ih _ fun _ => rfl)
                intro m
                simp [hchunks]

end

/-- Whether an attempt gives away chunks that are not visible, if the consumer takes them: its stream is complete, and no
chunk of it is visible. -/
def givesAway (router : Settings T) (kind : StreamKind C U) (model : String) (selected : Deployment T)
    (attempt : StreamAttempt T) : Bool :=
  let (values, streamEnd) := providerChunks router model selected attempt
  (requestKwargsError selected).isNone && flushes kind streamEnd values {}

theorem attemptStream_delivers (router : Settings T) (kind : StreamKind C U) (model : String) (i : ℕ) (selected : Deployment T)
    (attempt : StreamAttempt T) (failed : CallError → Bool → Trace T C) :
    match streamEndOf router kind model selected attempt with
    | .failed error visible =>
      ∃ given, given <+: chunkSequence router kind model selected attempt ∧
        Delivers i given (attemptStream router kind model i selected attempt failed) (failed error visible) ∧
        (visible = false → (given ≠ [] ↔ givesAway router kind model selected attempt = true))
    | .finished _ =>
      ∃ given next, given <+: chunkSequence router kind model selected attempt ∧
        Delivers i given (attemptStream router kind model i selected attempt failed) next ∧
        next.delivered = [] ∧ next.attempts = [] ∧
        ∀ response, next.outcome = .returned response →
          given = chunkSequence router kind model selected attempt ∧ carriesEnd attempt.upstream = true := by
  unfold attemptStream streamEndOf givesAway
  cases hkwargs : requestKwargsError selected with
  | some error => exact ⟨[], by simp, Delivers.nothing i _, fun _ => by simp⟩
  | none =>
    have h := pump_delivers kind model i selected attempt failed (providerChunks router model selected attempt).2
      (providerChunks router model selected attempt).1 {} (fun _ => rfl)
    change (match pumpEnd kind attempt (providerChunks router model selected attempt).2
      (providerChunks router model selected attempt).1 {} with
      | .failed error visible => _
      | .finished _ => _)
    cases hend : pumpEnd kind attempt (providerChunks router model selected attempt).2
      (providerChunks router model selected attempt).1 {} with
    | failed error visible =>
      rw [hend] at h
      obtain ⟨given, hgiven, hdelivers, -, hflushes⟩ := h
      exact ⟨given, hgiven, hdelivers, fun hvisible => (hflushes hvisible).trans (by simp)⟩
    | finished settled =>
      rw [hend] at h
      obtain ⟨given, next, hgiven, hdelivers, hdelivered, hattempts, hreturned⟩ := h
      refine ⟨given, next, hgiven, hdelivers, hdelivered, hattempts, fun response hresponse => ?_⟩
      obtain ⟨hall, hcomplete⟩ := hreturned response hresponse
      exact ⟨hall, acompletionStream_complete hcomplete⟩

/-! ## The loop -/

/-- Chunks are delivered of the last attempt that is made only, the first of them in order. If the call returns they are
all of its chunks, and its stream carried its end. -/
structure OneSource (sequence : ℕ → Deployment T → List C) (ends : ℕ → Bool) (t : Trace T C) : Prop where
  fromLast : t.delivered = [] ∨ ∃ i selected, t.attempts.getLast? = some (i, selected) ∧
    t.delivered <+: (sequence i selected).map (i, ·)
  complete : ∀ response, t.outcome = .returned response → ∃ i selected, t.attempts.getLast? = some (i, selected) ∧
    t.delivered = (sequence i selected).map (i, ·) ∧ ends i = true

variable {sequence : ℕ → Deployment T → List C} {ends : ℕ → Bool} {t : Trace T C}

theorem Trace.GivesUp.oneSource (h : t.GivesUp) : OneSource sequence ends t where
  fromLast := .inl h.delivered
  complete := fun response hresponse => absurd hresponse (h.outcome response)

variable {given : List C}

theorem oneSource_last {i : ℕ} {selected : Deployment T} (hgiven : given <+: sequence i selected)
    (hdelivered : t.delivered = given.map (i, ·)) (hattempts : t.attempts = [])
    (hreturned : ∀ response, t.outcome = .returned response → given = sequence i selected ∧ ends i = true) :
    OneSource sequence ends (t.after [.attempted i selected]) where
  fromLast := by
    refine .inr ⟨i, selected, by simp [hattempts], ?_⟩
    rw [delivered_attempted, hdelivered]
    exact hgiven.map _
  complete := by
    intro response hresponse
    obtain ⟨hall, hends⟩ := hreturned response hresponse
    refine ⟨i, selected, by simp [hattempts], ?_, hends⟩
    rw [delivered_attempted, hdelivered, hall]

theorem oneSource_continued_iff {t next : Trace T C} {i : ℕ}
    {selected : Deployment T} {another : Bool} (hgiven : given <+: sequence i selected)
    (hdelivers : Delivers i given t next) (hlater : ∀ a ∈ next.attempts, i < a.1)
    (hnext : if another then next.attempts ≠ [] else next.GivesUp) :
    OneSource sequence ends (t.after [.attempted i selected]) ↔ (another = true → given = []) ∧ OneSource sequence ends next := by
  cases another with
  | false =>
    rw [if_neg Bool.false_ne_true] at hnext
    refine iff_of_true ?_ ⟨fun h => absurd h (by decide), hnext.oneSource⟩
    refine oneSource_last hgiven ?_ (hdelivers.attempts.trans hnext.attempts) ?_
    · rw [hdelivers.delivered, hnext.delivered, List.append_nil]
    · exact fun response hresponse => absurd (hdelivers.outcome ▸ hresponse) (hnext.outcome response)
  | true =>
    rw [if_pos rfl] at hnext
    have hlast : (t.after [.attempted i selected]).attempts.getLast? = next.attempts.getLast? := by
      rw [attempts_attempted, hdelivers.attempts, List.getLast?_cons_of_ne_nil hnext]
    have hdelivered : (t.after [.attempted i selected]).delivered = given.map (i, ·) ++ next.delivered := hdelivers.delivered
    constructor
    · intro h
      have hnil : given = [] := by
        rcases h.fromLast with hnone | ⟨j, other, hj, hprefix⟩
        · rw [hdelivered] at hnone
          simpa using (List.append_eq_nil_iff.mp hnone).1
        · cases given with
          | nil => rfl
          | cons chunk given =>
            rw [hlast] at hj
            have hlt := hlater _ (List.mem_of_getLast? hj)
            rw [hdelivered] at hprefix
            have hmem : (i, chunk) ∈ (sequence j other).map (j, ·) := hprefix.subset (by simp)
            obtain ⟨c, -, hc⟩ := List.mem_map.mp hmem
            have hij : j = i := (Prod.mk.inj hc).1
            exact absurd hlt (by simp [hij])
      subst hnil
      refine ⟨fun _ => rfl, ?_, ?_⟩
      · have hfrom := h.fromLast
        rwa [hlast, hdelivered, List.map_nil, List.nil_append] at hfrom
      · intro response hresponse
        have hcomplete := h.complete response (hdelivers.outcome.trans hresponse)
        rwa [hlast, hdelivered, List.map_nil, List.nil_append] at hcomplete
    · rintro ⟨hnil, h⟩
      rw [hnil rfl, List.map_nil, List.nil_append] at hdelivered
      refine ⟨?_, ?_⟩
      · rw [hlast, hdelivered]
        exact h.fromLast
      · intro response hresponse
        rw [hlast, hdelivered]
        exact h.complete response (hdelivers.outcome.symm.trans hresponse)

def selects (router : Settings T) (selection : Selection T) (available : List (Deployment T)) : Bool :=
  match selectDeployment router selection available with
  | .chosen (some _) => true
  | _ => false

/-- The deployments that a call goes on with after a failed attempt, if it does. -/
def goesOn (router : Settings T) (emits : RoutingEventType → Delivery) (last : Bool) (available : List (Deployment T))
    (selected : Deployment T) (error : CallError) (visible : Bool) : Option (List (Deployment T)) :=
  if visible || router.strictFallbackErrors && !isFallbackableError error then none
  else
    match available.filter fun d => d.id ≠ selected.id with
    | [] => none
    | d :: ds => if last || emits .requestRetried = .done then some (d :: ds) else none

theorem attemptFailed_delivers (router : Settings T) (model : String) (terminalModel : Option String)
    (emits : RoutingEventType → Delivery) (final : Delivery) {interrupted : Trace T C} (last : Bool)
    (available : List (Deployment T)) (selected : Deployment T) (next : CallError → List (Deployment T) → Trace T C)
    (error : CallError) (visible : Bool) (hinterrupted : interrupted.GivesUp) (i : ℕ) :
    match goesOn router emits last available selected error visible with
    | none => (attemptFailed router model terminalModel emits final interrupted last available selected next error visible).GivesUp
    | some left =>
      visible = false ∧
        Delivers i [] (attemptFailed router model terminalModel emits final interrupted last available selected next error visible)
          (next error left) := by
  have hgivesUp : ∀ t : Trace T C, t.GivesUp → ((reportFailure selected error t).after [.failed selected.id]).GivesUp := by
    intro t ht
    unfold reportFailure
    split
    · exact ⟨ht.delivered, ht.attempts, ht.outcome⟩
    · exact ⟨ht.delivered, ht.attempts, ht.outcome⟩
  have hdelivers : ∀ t t' : Trace T C, Delivers i [] t t' →
      Delivers i [] ((reportFailure selected error t).after [.failed selected.id]) t' := by
    intro t t' ht
    unfold reportFailure
    split
    · exact ⟨ht.delivered, ht.attempts, ht.outcome⟩
    · exact ⟨ht.delivered, ht.attempts, ht.outcome⟩
  unfold goesOn attemptFailed
  cases hends : (visible || router.strictFallbackErrors && !isFallbackableError error) with
  | true => exact hgivesUp _ (emitting_givesUp hinterrupted (raised_givesUp _))
  | false =>
    have hvisible : visible = false := (Bool.or_eq_false_iff.mp hends).1
    rw [if_neg Bool.false_ne_true, if_neg Bool.false_ne_true]
    cases available.filter fun d => d.id ≠ selected.id with
    | nil => exact hgivesUp _ (emitting_givesUp cancelled_givesUp (raised_givesUp _))
    | cons d ds =>
      cases last with
      | true => exact ⟨hvisible, hdelivers _ _ (Delivers.nothing i _)⟩
      | false =>
        cases emits .requestRetried with
        | done => exact ⟨hvisible, hdelivers _ _ (Delivers.report i _ _)⟩
        | cancelled handled => exact hgivesUp _ (interrupted_givesUp hinterrupted)

/-- The failure of an attempt and the deployments with which the call goes on, if it does. -/
def continues (router : Settings T) (kind : StreamKind C U) (model : String) (last : Bool) (available : List (Deployment T))
    (selected : Deployment T) (attempt : StreamAttempt T) : Option (CallError × List (Deployment T)) :=
  match streamEndOf router kind model selected attempt with
  | .finished _ => none
  | .failed error visible => (goesOn router attempt.emits last available selected error visible).map (error, ·)

section

variable (router : Settings T) (kind : StreamKind C U) (model : String) (total : ℕ) (attempts : ℕ → StreamAttempt T)
  (final : Delivery)

/-- Whether another attempt is made of those that remain. -/
def another (remaining : ℕ) (available : List (Deployment T)) : Bool :=
  remaining ≠ 0 && selects router (attempts (total - remaining)).selection available

/-- Whether no attempt that gives away chunks is followed by another one, among those that remain. -/
def sourceKept : ℕ → List (Deployment T) → Bool
  | 0, _ => true
  | remaining + 1, available =>
    let attempt := attempts (total - (remaining + 1))
    match selectDeployment router attempt.selection available with
    | .chosen (some selected) =>
      match continues router kind model (remaining = 0) available selected attempt with
      | none => true
      | some (_, left) =>
        !(another router total attempts remaining left && givesAway router kind model selected attempt) &&
          sourceKept remaining left
    | _ => true

/-- An attempt ends the call, or gives away chunks and is followed by the attempts that remain. -/
theorem attempt_cases (remaining : ℕ) (available : List (Deployment T)) (selected : Deployment T) :
    let i := total - (remaining + 1)
    let next := fun error left =>
      streamLoop router kind model total attempts final remaining left (some selected) (some (selected, error))
    let t := attemptStream router kind model i selected (attempts i) (attemptFailed router model kind.terminalModel
      (attempts i).emits final (streamCancelled model (some selected) .cancelled) (remaining = 0) available selected next)
    match continues router kind model (remaining = 0) available selected (attempts i) with
    | none =>
      ∃ given, given <+: chunkSequence router kind model selected (attempts i) ∧ t.delivered = given.map (i, ·) ∧ t.attempts = [] ∧
        ∀ response, t.outcome = .returned response →
          given = chunkSequence router kind model selected (attempts i) ∧ carriesEnd (attempts i).upstream = true
    | some (error, left) =>
      ∃ given, given <+: chunkSequence router kind model selected (attempts i) ∧ Delivers i given t (next error left) ∧
        (given ≠ [] ↔ givesAway router kind model selected (attempts i) = true) := by
  intro i next
  have h := attemptStream_delivers router kind model i selected (attempts i) (attemptFailed router model kind.terminalModel
    (attempts i).emits final (streamCancelled model (some selected) .cancelled) (remaining = 0) available selected next)
  have hcancelled : (streamCancelled model (some selected) .cancelled : Trace T C).GivesUp :=
    streamCancelled_givesUp model (some selected) (by simp)
  unfold continues
  cases hend : streamEndOf router kind model selected (attempts i) with
  | finished settled =>
    rw [hend] at h
    obtain ⟨given, rest, hgiven, hdelivers, hdelivered, hattempts, hreturned⟩ := h
    refine ⟨given, hgiven, ?_, hdelivers.attempts.trans hattempts, ?_⟩
    · rw [hdelivers.delivered, hdelivered, List.append_nil]
    · exact fun response hresponse => hreturned response (hdelivers.outcome ▸ hresponse)
  | failed error visible =>
    rw [hend] at h
    obtain ⟨given, hgiven, hdelivers, haway⟩ := h
    have hfailed := attemptFailed_delivers router model kind.terminalModel (attempts i).emits final (remaining = 0) available
      selected next error visible hcancelled i
    dsimp only
    cases hgoes : goesOn router (attempts i).emits (remaining = 0) available selected error visible with
    | none =>
      rw [hgoes] at hfailed
      refine ⟨given, hgiven, ?_, hdelivers.attempts.trans hfailed.attempts, ?_⟩
      · rw [hdelivers.delivered, hfailed.delivered, List.append_nil]
      · exact fun response hresponse => absurd (hdelivers.outcome ▸ hresponse) (hfailed.outcome response)
    | some left =>
      rw [hgoes] at hfailed
      have hall := hdelivers.trans hfailed.2
      rw [List.append_nil] at hall
      exact ⟨given, hgiven, hall, haway hfailed.1⟩

theorem streamLoop_attempts (remaining : ℕ) (available : List (Deployment T)) (previous : Option (Deployment T))
    (failure : Option (Deployment T × CallError)) :
    let t := streamLoop router kind model total attempts final remaining available previous failure
    (∀ a ∈ t.attempts, total - remaining ≤ a.1) ∧
      (if another router total attempts remaining available then t.attempts ≠ [] else t.GivesUp) := by
  induction remaining generalizing available previous failure with
  | zero =>
    have h : (streamLoop router kind model total attempts final 0 available previous failure).GivesUp :=
      emitting_givesUp cancelled_givesUp (raised_givesUp _)
    exact ⟨by simp [h.attempts], h⟩
  | succ remaining ih =>
    have hgivesUp : ∀ t : Trace T C, t.GivesUp → (∀ a ∈ t.attempts, total - (remaining + 1) ≤ a.1) ∧ t.GivesUp :=
      fun t ht => ⟨by simp [ht.attempts], ht⟩
    dsimp only
    rw [streamLoop, retryLoop, another, selects]
    simp only [ne_eq, Nat.add_eq_zero_iff, one_ne_zero, and_false, not_false_eq_true, decide_true, Bool.true_and]
    cases selectDeployment router (attempts (total - (remaining + 1))).selection available with
    | raised error => exact hgivesUp _ (raised_givesUp error)
    | cancelled => exact hgivesUp _ (streamCancelled_givesUp _ _ (by simp))
    | chosen selected =>
      cases selected with
      | none =>
        cases failure with
        | none => exact hgivesUp _ (emitting_givesUp (streamCancelled_givesUp _ _ (by simp)) (raised_givesUp _))
        | some failure => exact hgivesUp _ (emitting_givesUp cancelled_givesUp (raised_givesUp _))
      | some selected =>
        refine ⟨?_, by simp⟩
        have hcases := attempt_cases router kind model total attempts final remaining available selected
        dsimp only at hcases
        rw [attempts_attempted]
        intro a ha
        rcases List.mem_cons.mp ha with rfl | ha
        · exact le_rfl
        · cases hcontinues : continues router kind model (remaining = 0) available selected
            (attempts (total - (remaining + 1))) with
          | none =>
            rw [hcontinues] at hcases
            obtain ⟨given, -, -, hnone, -⟩ := hcases
            exact (List.eq_nil_iff_forall_not_mem.mp hnone a ha).elim
          | some next =>
            rw [hcontinues] at hcases
            obtain ⟨given, -, hdelivers, -⟩ := hcases
            have hnext : a ∈ (streamLoop router kind model total attempts final remaining next.2 (some selected)
              (some (selected, next.1))).attempts := hdelivers.attempts ▸ ha
            exact le_trans (by omega) ((ih _ _ _).1 a hnext)

theorem streamLoop_oneSource_iff {remaining : ℕ} (hremaining : remaining ≤ total) (available : List (Deployment T))
    (previous : Option (Deployment T)) (failure : Option (Deployment T × CallError)) :
    OneSource (fun i selected => chunkSequence router kind model selected (attempts i))
        (fun i => carriesEnd (attempts i).upstream)
        (streamLoop router kind model total attempts final remaining available previous failure) ↔
      sourceKept router kind model total attempts remaining available = true := by
  induction remaining generalizing available previous failure with
  | zero => exact iff_of_true (emitting_givesUp cancelled_givesUp (raised_givesUp _)).oneSource rfl
  | succ remaining ih =>
    rw [streamLoop, retryLoop, sourceKept]
    cases selectDeployment router (attempts (total - (remaining + 1))).selection available with
    | raised error => exact iff_of_true (raised_givesUp error).oneSource rfl
    | cancelled => exact iff_of_true (streamCancelled_givesUp _ _ (by simp)).oneSource rfl
    | chosen selected =>
      cases selected with
      | none =>
        refine iff_of_true (Trace.GivesUp.oneSource ?_) rfl
        cases failure with
        | none => exact emitting_givesUp (streamCancelled_givesUp _ _ (by simp)) (raised_givesUp _)
        | some failure => exact emitting_givesUp cancelled_givesUp (raised_givesUp _)
      | some selected =>
        have hcases := attempt_cases router kind model total attempts final remaining available selected
        dsimp only at hcases ⊢
        cases hcontinues : continues router kind model (remaining = 0) available selected
          (attempts (total - (remaining + 1))) with
        | none =>
          rw [hcontinues] at hcases
          obtain ⟨given, hgiven, hdelivered, hattempts, hreturned⟩ := hcases
          exact iff_of_true (oneSource_last hgiven hdelivered hattempts hreturned) rfl
        | some next =>
          rw [hcontinues] at hcases
          obtain ⟨given, hgiven, hdelivers, haway⟩ := hcases
          obtain ⟨hlater, hanother⟩ := streamLoop_attempts router kind model total attempts final remaining next.2
            (some selected) (some (selected, next.1))
          refine (oneSource_continued_iff hgiven hdelivers ?_ hanother).trans ?_
          · intro a ha
            have hle := hlater a ha
            omega
          · rw [ih (by omega)]
            have hempty : given = [] ↔ ¬ givesAway router kind model selected (attempts (total - (remaining + 1))) = true := by
              rw [← haway, not_not]
            rw [hempty, Bool.and_eq_true, Bool.not_eq_true', Bool.and_eq_false_iff]
            cases another router total attempts remaining next.2 <;> simp

end

/-! ## The calls -/

/-- Whether no attempt of a streaming call that gives away chunks is followed by another one. -/
def streamKept (router : Settings T) (kind : StreamKind C U) (model : String) (available : List (Deployment T))
    (attempts : ℕ → StreamAttempt T) : Bool :=
  sourceKept router kind model (totalAttempts router available) attempts (totalAttempts router available) available

theorem oneSource_started {r : Report T} : OneSource sequence ends (t.reporting r) ↔ OneSource sequence ends t :=
  ⟨fun h => ⟨h.fromLast, h.complete⟩, fun h => ⟨h.fromLast, h.complete⟩⟩

theorem streamCall_oneSource_iff (router : Settings T) (kind : StreamKind C U) (model : String)
    (available : List (Deployment T)) (attempts : ℕ → StreamAttempt T) (final : Delivery) :
    OneSource (fun i selected => chunkSequence router kind model selected (attempts i))
        (fun i => carriesEnd (attempts i).upstream) (streamCall router kind model available attempts final) ↔
      streamKept router kind model available attempts = true := by
  unfold streamCall streamKept
  split
  next hnone =>
    have htotal : totalAttempts router available = 0 := by
      simp [totalAttempts, hnone]
    rw [htotal]
    refine iff_of_true (oneSource_started.mpr ?_) rfl
    exact (emitting_givesUp cancelled_givesUp (raised_givesUp _)).oneSource
  next =>
    exact oneSource_started.trans
      (streamLoop_oneSource_iff router kind model (totalAttempts router available) attempts final le_rfl available none none)

/-- What `stream_completion` and `stream` deliver has one source exactly if no attempt that gives away chunks is followed
by another one. -/
theorem stream_oneSource_iff (router : Settings T) (deployments available : List (Deployment T))
    (attempts : ℕ → StreamAttempt T) (final : Delivery) : (∀ model,
      OneSource (fun i selected => chunkSequence router (streamCompletionKind model) model selected (attempts i))
          (fun i => carriesEnd (attempts i).upstream) (streamCompletion router model available attempts final) ↔
        streamKept router (streamCompletionKind model) model available attempts = true) ∧ ∀ model, OneSource
          (fun i selected =>
            chunkSequence router (streamKind model) ((resolveModelName deployments model).getD "") selected (attempts i))
          (fun i => carriesEnd (attempts i).upstream) (stream router deployments model available attempts final) ↔
        (resolveModelName deployments model).all fun modelName =>
          streamKept router (streamKind model) modelName available attempts := by
  constructor
  · intro model
    exact streamCall_oneSource_iff router (streamCompletionKind model) model available attempts final
  · intro model
    unfold stream
    cases resolveModelName deployments model with
    | none => exact iff_of_true (raised_givesUp _).oneSource rfl
    | some modelName => exact streamCall_oneSource_iff router (streamKind model) modelName available attempts final

/-- A stream that ends after its header chunk, with a usage that is no number: the header is delivered, and then the
answer of another deployment. -/
theorem header_then_other_answer :
    let text (key value : String) : Value := .obj (.cons key (.str value) .nil)
    let chunk (delta : Value) (usage : Value) : Value :=
      .obj (.cons "choices" (.arr (.cons (.obj (.cons "delta" delta .nil)) .nil)) (.cons "usage" usage .nil))
    let router : Settings ℕ := { transformStreamChunk := fun _ _ chunk => .ok (some chunk) }
    let first : Deployment ℕ := { id := "a", modelName := "m" }
    let second : Deployment ℕ := { id := "b", modelName := "m" }
    let attempt (deployment : Deployment ℕ) (chunk : Value) : StreamAttempt ℕ :=
      { selection := .chosen (some deployment), upstream := { lines := [.data chunk, .done] }, latency := 1, overall := 1,
        emits := fun _ => .done, closes := fun _ => false }
    let attempts (i : ℕ) : StreamAttempt ℕ :=
      if i = 0 then attempt first (chunk (text "role" "assistant") (text "completion_tokens" "many"))
      else attempt second (chunk (text "content" "Hello") .null)
    ¬ OneSource (fun i selected => chunkSequence router (streamCompletionKind "m") "m" selected (attempts i))
      (fun i => carriesEnd (attempts i).upstream) (streamCompletion router "m" [first, second] attempts .done) := by
  intro text chunk router first second attempt attempts h
  have hkept := (streamCall_oneSource_iff router (streamCompletionKind "m") "m" [first, second] attempts .done).mp h
  exact absurd hkept (by decide)

end AgentProtocol.Router
