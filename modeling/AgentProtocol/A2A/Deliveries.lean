-- SUMMARY: What the callbacks of the A2A server are given over a run: each registered callback still waits for its final event.
import AgentProtocol.A2A.TaskLife

/-!
# Deliveries

A callback is registered for one task, at one place, under a number of its own. A final event goes to all the callbacks
of a task, and takes the task out of the execute map. So a callback that is registered has had no final event yet.
-/

namespace AgentProtocol.A2A

open Lib

variable {M P : Type}

namespace Server

/-- How many final events a callback was given. -/
def finals (s : Server M P) (callback : ℕ) : ℕ := s.received.countP fun r => r.1 = callback && r.2.isFinal

/-- Numbers of callbacks are not used twice, and those that are registered wait for their final event. -/
structure Waiting (s : Server M P) : Prop where
  known : ∀ r ∈ s.received, r.1 < s.callbacks
  waits : ∀ id info, s.registered id = some info → ∀ c ∈ info.eventCb, c.id < s.callbacks ∧ s.finals c.id = 0
  once : ∀ id info, s.registered id = some info → (info.eventCb.map Callback.id).Nodup
  apart : ∀ id id' info info', s.registered id = some info → s.registered id' = some info' → id ≠ id' →
    ∀ c ∈ info.eventCb, ∀ c' ∈ info'.eventCb, c.id ≠ c'.id

variable {s s' : Server M P} {taskId id : String} {event : StreamEvent M P}

/-! ## What is received -/

theorem get_frame {copy : Bool} {fetched : Option ℕ} (h : s.get taskId copy = (s', fetched)) :
    s'.received = s.received ∧ s'.taskExecuteMap = s.taskExecuteMap := by
  cases fetched with
  | none =>
    rw [get_none h]
    exact ⟨rfl, rfl⟩
  | some o =>
    obtain ⟨o', -, ⟨-, -, rfl⟩ | ⟨-, -, rfl⟩⟩ := get_cases h
    · exact ⟨rfl, rfl⟩
    · exact ⟨rfl, rfl⟩

theorem emit_frame (n : ℕ) (throws errorCopy : Bool) : (s.emit taskId n event throws errorCopy).received = s.received ∧
    (s.emit taskId n event throws errorCopy).taskExecuteMap = s.taskExecuteMap := by
  rw [emit]
  cases throws with
  | false => exact ⟨rfl, rfl⟩
  | true =>
    rw [if_pos rfl]
    rcases hget : s.get taskId errorCopy with ⟨s₁, fetched⟩
    cases fetched with
    | none => exact get_frame hget
    | some o =>
      obtain ⟨hreceived, hentries⟩ := get_frame hget
      exact ⟨hreceived, hentries⟩

theorem received_exchange (value : Bool) : (s.exchangeMessageSent id value).1.received = s.received := by
  rw [exchangeMessageSent]
  cases s.registered id with
  | none | some => rfl

theorem received_responseCallback (n : ℕ) (blocking copy throws errorCopy : Bool) :
    (s.responseCallback taskId n blocking event copy throws errorCopy).received = s.received := by
  rw [responseCallback.eq_def]
  rcases hfetched : s.get taskId copy with ⟨s₁, fetched⟩
  have hget := (get_frame hfetched).1
  cases fetched with
  | none => exact hget
  | some o =>
    -- what is emitted, and the state in which the flag is exchanged
    have hsends : ∀ (s₂ : Server M P) (e : StreamEvent M P), s₂.received = s.received →
        (if (s₂.exchangeMessageSent taskId true).2 then (s₂.exchangeMessageSent taskId true).1
          else (s₂.exchangeMessageSent taskId true).1.emit taskId n e throws errorCopy).received = s.received := by
      intro s₂ e hs₂
      have hexchanged : (s₂.exchangeMessageSent taskId true).1.received = s.received := (received_exchange true).trans hs₂
      cases (s₂.exchangeMessageSent taskId true).2 with
      | true => exact hexchanged
      | false => exact (emit_frame n throws errorCopy).1.trans hexchanged
    have hother : (if event.isFinal || !blocking then
        if (s₁.exchangeMessageSent taskId true).2 then (s₁.exchangeMessageSent taskId true).1
        else (s₁.exchangeMessageSent taskId true).1.emit taskId n
          (.task ((s₁.exchangeMessageSent taskId true).1.objects o)) throws errorCopy
        else s₁).received = s.received := by
      by_cases hemits : (event.isFinal || !blocking) = true
      · rw [if_pos hemits]
        exact hsends s₁ _ hget
      · rw [if_neg hemits]
        exact hget
    cases event with
    | message m => exact hsends (s₁.setState o .completed) _ hget
    | task | artifactUpdate | statusUpdate => exact hother

theorem received_invoke (callback : Callback) (copy throws errorCopy : Bool) :
    (s.invoke taskId event callback copy throws errorCopy).received = s.received ++ [(callback.id, event)] := by
  rw [invoke]
  cases callback.kind with
  | response blocking => exact received_responseCallback _ _ _ _ _
  | streaming => exact (emit_frame _ _ _).1

theorem received_invokeAll (w : Choices) (i : ℕ) (callbacks : List Callback) :
    (s.invokeAll taskId event w i callbacks).received = s.received ++ callbacks.map fun c => (c.id, event) := by
  induction callbacks generalizing s i with
  | nil => simp [invokeAll]
  | cons callback callbacks ih => rw [invokeAll, ih, received_invoke, List.append_assoc, List.map_cons, List.singleton_append]

theorem finals_append {callbacks : List Callback}
    (h : s'.received = s.received ++ callbacks.map fun c => (c.id, event)) (n : ℕ) :
    s'.finals n = s.finals n + if event.isFinal then (callbacks.map Callback.id).count n else 0 := by
  rw [finals, h, List.countP_append, finals, List.countP_map]
  congr 1
  cases hfinal : event.isFinal with
  | true =>
    rw [if_pos rfl, List.count, List.countP_map]
    refine List.countP_congr fun c _ => ?_
    simp [hfinal]
  | false =>
    rw [if_neg (by simp)]
    refine List.countP_eq_zero.mpr fun c _ => ?_
    simp [hfinal]

/-! ## Steps -/

theorem Waiting.narrow (h : Waiting s) (hcallbacks : s'.callbacks = s.callbacks) (hreceived : s'.received = s.received)
    (hentries : ∀ id info', s'.registered id = some info' →
      info'.eventCb = [] ∨ ∃ info, s.registered id = some info ∧ info'.eventCb = info.eventCb) : Waiting s' := by
  refine ⟨?_, fun id info' hreg c hc => ?_, fun id info' hreg => ?_, fun id id₁ info' info₁' hreg hreg₁ hid c hc c₁ hc₁ => ?_⟩
  · rw [hreceived, hcallbacks]
    exact h.known
  · rw [hcallbacks, finals, hreceived]
    rcases hentries id info' hreg with hnone | ⟨info, hreg', hsame⟩
    · rw [hnone] at hc
      cases hc
    · exact h.waits id info hreg' c (hsame ▸ hc)
  · rcases hentries id info' hreg with hnone | ⟨info, hreg', hsame⟩
    · rw [hnone]
      exact List.nodup_nil
    · rw [hsame]
      exact h.once id info hreg'
  · rcases hentries id info' hreg with hnone | ⟨info, hreg', hsame⟩
    · rw [hnone] at hc
      cases hc
    · rcases hentries id₁ info₁' hreg₁ with hnone | ⟨info₁, hreg₁', hsame₁⟩
      · rw [hnone] at hc₁
        cases hc₁
      · exact h.apart id id₁ info info₁ hreg' hreg₁' hid c (hsame ▸ hc) c₁ (hsame₁ ▸ hc₁)

theorem Waiting.deliver (h : Waiting s) {info : TaskExecuteInfo} (hreg : s.registered taskId = some info)
    (hcallbacks : s'.callbacks = s.callbacks)
    (hreceived : s'.received = s.received ++ info.eventCb.map fun c => (c.id, event))
    (hentries : ∀ id info', s'.registered id = some info' → ∃ info, s.registered id = some info ∧ info'.eventCb = info.eventCb)
    (hfinal : event.isFinal = true → s'.registered taskId = none) : Waiting s' := by
  refine ⟨fun r hr => ?_, fun id info' hreg' c hc => ?_, fun id info' hreg' => ?_, fun id id₁ info' info₁' hreg' hreg₁' hid c hc c₁ hc₁ => ?_⟩
  · rw [hcallbacks]
    rw [hreceived] at hr
    rcases List.mem_append.mp hr with hold | hnew
    · exact h.known r hold
    · obtain ⟨c, hc, rfl⟩ := List.mem_map.mp hnew
      exact (h.waits taskId info hreg c hc).1
  · obtain ⟨info₀, hreg₀, hsame⟩ := hentries id info' hreg'
    rw [hsame] at hc
    obtain ⟨hlt, hzero⟩ := h.waits id info₀ hreg₀ c hc
    refine ⟨hcallbacks ▸ hlt, ?_⟩
    rw [finals_append hreceived, hzero, zero_add]
    by_cases hevent : event.isFinal = true
    · -- the callback is one of another task
      rw [if_pos hevent]
      have hid : taskId ≠ id := by
        rintro rfl
        rw [hfinal hevent] at hreg'
        cases hreg'
      refine List.count_eq_zero.mpr fun hmem => ?_
      obtain ⟨c', hc', hsameId⟩ := List.mem_map.mp hmem
      exact h.apart taskId id info info₀ hreg hreg₀ hid c' hc' c hc hsameId
    · rw [if_neg hevent]
  · obtain ⟨info₀, hreg₀, hsame⟩ := hentries id info' hreg'
    rw [hsame]
    exact h.once id info₀ hreg₀
  · obtain ⟨info₀, hreg₀, hsame⟩ := hentries id info' hreg'
    obtain ⟨info₁, hreg₁, hsame₁⟩ := hentries id₁ info₁' hreg₁'
    exact h.apart id id₁ info₀ info₁ hreg₀ hreg₁ hid c (hsame ▸ hc) c₁ (hsame₁ ▸ hc₁)

theorem Waiting.finals_one (h : Waiting s) {info : TaskExecuteInfo} (hreg : s.registered taskId = some info)
    (hreceived : s'.received = s.received ++ info.eventCb.map fun c => (c.id, event)) (hfinal : event.isFinal = true)
    {c : Callback} (hc : c ∈ info.eventCb) : s'.finals c.id = 1 := by
  rw [finals_append hreceived, (h.waits taskId info hreg c hc).2, if_pos hfinal, zero_add]
  exact List.count_eq_one_of_mem (h.once taskId info hreg) (List.mem_map_of_mem hc)

theorem registered_registerTask (s : Server M P) (taskId : String) (info : Option TaskExecuteInfo) (id : String) :
    (s.registerTask taskId info).registered id = if taskId = id then info else s.registered id := by
  rw [registered, registerTask, Dict.lookup_set]
  by_cases hid : taskId = id
  · rw [if_pos hid, if_pos hid]
    rfl
  · rw [if_neg hid, if_neg hid]
    rfl

theorem registered_erase (s : Server M P) (taskId id : String) :
    ({ s with taskExecuteMap := s.taskExecuteMap.erase taskId } : Server M P).registered id =
      if id = taskId then none else s.registered id := by
  rw [registered, Dict.lookup_erase]
  by_cases hid : id = taskId
  · rw [if_pos hid, if_pos hid]
    rfl
  · rw [if_neg hid, if_neg hid]
    rfl

theorem Waiting.addEventCallback (h : Waiting s) (taskId : String) (kind : CallbackKind) :
    Waiting (s.addEventCallback taskId kind) := by
  rw [Server.addEventCallback]
  have hknown : ∀ r ∈ s.received, r.1 < s.callbacks + 1 := fun r hr => Nat.lt_succ_of_lt (h.known r hr)
  have hunheard : s.finals s.callbacks = 0 := by
    refine List.countP_eq_zero.mpr fun r hr => ?_
    have hlt := h.known r hr
    simp only [Bool.and_eq_true, decide_eq_true_eq, not_and]
    omega
  cases hreg : s.registered taskId with
  | none =>
    refine ⟨hknown, fun id info hreg' c hc => ?_, h.once, h.apart⟩
    obtain ⟨hlt, hzero⟩ := h.waits id info hreg' c hc
    exact ⟨Nat.lt_succ_of_lt hlt, hzero⟩
  | some info =>
    dsimp only
    -- a callback of an entry is an old one of it, or the new one
    have hentry : ∀ id info', (({ s with callbacks := s.callbacks + 1 } : Server M P).registerTask taskId
        (some { info with eventCb := info.eventCb ++ [⟨s.callbacks, kind⟩] })).registered id = some info' →
        ∃ info₀, s.registered id = some info₀ ∧ (info'.eventCb = info₀.eventCb ∨
          id = taskId ∧ info'.eventCb = info₀.eventCb ++ [⟨s.callbacks, kind⟩]) := by
      intro id info' hreg'
      rw [registered_registerTask] at hreg'
      by_cases hid : taskId = id
      · subst hid
        rw [if_pos rfl] at hreg'
        cases hreg'
        exact ⟨info, hreg, .inr ⟨rfl, rfl⟩⟩
      · rw [if_neg hid] at hreg'
        exact ⟨info', hreg', .inl rfl⟩
    have hmem : ∀ id info', (({ s with callbacks := s.callbacks + 1 } : Server M P).registerTask taskId
        (some { info with eventCb := info.eventCb ++ [⟨s.callbacks, kind⟩] })).registered id = some info' →
        ∃ info₀, s.registered id = some info₀ ∧ ∀ c ∈ info'.eventCb,
          c ∈ info₀.eventCb ∨ id = taskId ∧ c.id = s.callbacks := by
      intro id info' hreg'
      obtain ⟨info₀, hreg₀, hsame | ⟨rfl, hnew⟩⟩ := hentry id info' hreg'
      · exact ⟨info₀, hreg₀, fun c hc => .inl (hsame ▸ hc)⟩
      · refine ⟨info₀, hreg₀, fun c hc => ?_⟩
        rw [hnew, List.mem_append, List.mem_singleton] at hc
        rcases hc with hold | rfl
        · exact .inl hold
        · exact .inr ⟨rfl, rfl⟩
    refine ⟨hknown, fun id info' hreg' c hc => ?_, fun id info' hreg' => ?_, fun id id₁ info' info₁' hreg' hreg₁' hid c hc c₁ hc₁ => ?_⟩
    · obtain ⟨info₀, hreg₀, hcases⟩ := hmem id info' hreg'
      rcases hcases c hc with hold | ⟨-, hnew⟩
      · obtain ⟨hlt, hzero⟩ := h.waits id info₀ hreg₀ c hold
        exact ⟨Nat.lt_succ_of_lt hlt, hzero⟩
      · rw [hnew]
        exact ⟨Nat.lt_succ_self _, hunheard⟩
    · obtain ⟨info₀, hreg₀, hsame | ⟨rfl, hnew⟩⟩ := hentry id info' hreg'
      · rw [hsame]
        exact h.once id info₀ hreg₀
      · rw [hnew, List.map_append, List.nodup_append]
        refine ⟨h.once id info₀ hreg₀, List.nodup_singleton _, fun n hn n' hn' => ?_⟩
        obtain ⟨c, hc, rfl⟩ := List.mem_map.mp hn
        rw [List.mem_singleton.mp hn']
        exact (h.waits id info₀ hreg₀ c hc).1.ne
    · obtain ⟨info₀, hreg₀, hcases⟩ := hmem id info' hreg'
      obtain ⟨info₁, hreg₁, hcases₁⟩ := hmem id₁ info₁' hreg₁'
      rcases hcases c hc with hold | ⟨rfl, hnew⟩
      · rcases hcases₁ c₁ hc₁ with hold₁ | ⟨-, hnew₁⟩
        · exact h.apart id id₁ info₀ info₁ hreg₀ hreg₁ hid c hold c₁ hold₁
        · rw [hnew₁]
          exact (h.waits id info₀ hreg₀ c hold).1.ne
      · rcases hcases₁ c₁ hc₁ with hold₁ | ⟨rfl, -⟩
        · rw [hnew]
          exact (h.waits id₁ info₁ hreg₁ c₁ hold₁).1.ne'
        · exact absurd rfl hid

theorem Waiting.exchange (h : Waiting s) (id : String) (value : Bool) : Waiting (s.exchangeMessageSent id value).1 := by
  have hmarked : Marked id (fun _ => False) s (s.exchangeMessageSent id value).1 := marked_exchange
  refine h.narrow hmarked.callbacks (received_exchange value) fun id' info' hreg => .inr ?_
  have hcallbacks := hmarked.registered id'
  rw [hreg, Option.map_some, eq_comm, Option.map_eq_some_iff] at hcallbacks
  obtain ⟨info, hreg', hsame⟩ := hcallbacks
  exact ⟨info, hreg', hsame.symm⟩

variable {merge : String → String → Option String}

theorem ensureTask_frame (taskId contextId : String) : (s.ensureTask taskId contextId).1.received = s.received ∧
    (s.ensureTask taskId contextId).1.callbacks = s.callbacks ∧
    ∀ id info, (s.ensureTask taskId contextId).1.registered id = some info → s.registered id = some info := by
  rw [ensureTask]
  cases s.stored taskId with
  | some task => exact ⟨rfl, rfl, fun _ _ hreg => hreg⟩
  | none =>
    refine ⟨rfl, rfl, fun id info hreg => ?_⟩
    have hreg : (s.registerTask taskId none).registered id = some info := hreg
    rw [registered_registerTask] at hreg
    by_cases hid : taskId = id
    · rw [if_pos hid] at hreg
      cases hreg
    · rw [if_neg hid] at hreg
      exact hreg

theorem saveTaskEvent_frame (h : s.saveTaskEvent merge event = some s') : s'.received = s.received ∧
    s'.callbacks = s.callbacks ∧ ∀ id info, s'.registered id = some info → s.registered id = some info := by
  cases event with
  | task | message =>
    cases h
    exact ⟨rfl, rfl, fun _ _ hreg => hreg⟩
  | artifactUpdate id contextId artifact append lastChunk metadata =>
    cases h
    exact ensureTask_frame id contextId
  | statusUpdate id contextId status metadata =>
    obtain ⟨task, -, rfl⟩ := Option.map_eq_some_iff.mp h
    exact ensureTask_frame id contextId

theorem registered_invokeAll {w : Choices} {i : ℕ} {callbacks : List Callback} {info' : TaskExecuteInfo}
    (h : (s.invokeAll taskId event w i callbacks).registered id = some info') :
    ∃ info, s.registered id = some info ∧ info'.eventCb = info.eventCb := by
  have hmarked : Marked taskId _ s (s.invokeAll taskId event w i callbacks) := marked_invokeAll
  have hcallbacks := hmarked.registered id
  rw [h, Option.map_some, eq_comm, Option.map_eq_some_iff] at hcallbacks
  obtain ⟨info, hreg, hsame⟩ := hcallbacks
  exact ⟨info, hreg, hsame.symm⟩

theorem Waiting.process (h : Waiting s) (w : Choices) : Waiting (s.process merge taskId event w) := by
  rw [Server.process]
  cases hreg : s.registered taskId with
  | none => exact h
  | some info =>
    dsimp only
    cases hsave : s.saveTaskEvent merge event with
    | none => exact h
    | some s₁ =>
      dsimp only
      obtain ⟨hreceived, hcallbacks, hentries⟩ := saveTaskEvent_frame hsave
      have hmarked : Marked taskId _ s₁ (s₁.invokeAll taskId event w 0 info.eventCb) := marked_invokeAll
      have hgiven : (s₁.invokeAll taskId event w 0 info.eventCb).received =
          s.received ++ info.eventCb.map fun c => (c.id, event) := by rw [received_invokeAll, hreceived]
      have hentries₂ : ∀ id info', (s₁.invokeAll taskId event w 0 info.eventCb).registered id = some info' →
          ∃ info, s.registered id = some info ∧ info'.eventCb = info.eventCb := by
        intro id info' hreg'
        obtain ⟨info₁, hreg₁, hsame⟩ := registered_invokeAll hreg'
        exact ⟨info₁, hentries id info₁ hreg₁, hsame⟩
      by_cases hfinal : event.isFinal = true
      · rw [if_pos hfinal]
        refine h.deliver hreg (hmarked.callbacks.trans hcallbacks) hgiven (fun id info' hreg' => ?_) fun _ => ?_
        · rw [registered_erase] at hreg'
          by_cases hid : id = taskId
          · rw [if_pos hid] at hreg'
            cases hreg'
          · rw [if_neg hid] at hreg'
            exact hentries₂ id info' hreg'
        · rw [registered_erase, if_pos rfl]
      · rw [if_neg hfinal]
        exact h.deliver hreg (hmarked.callbacks.trans hcallbacks) hgiven hentries₂ fun hevent => absurd hevent hfinal

theorem Waiting.update (h : Waiting s) (k : ℕ) (call : UpdaterCall M P) (w : Choices) : Waiting (s.update merge k call w) := by
  rw [Server.update]
  cases s.updaters[k]? with
  | none => exact h
  | some u =>
    have hflag : ∀ s : Server M P, Waiting s → ∀ us, Waiting ({ s with updaters := us } : Server M P) :=
      fun s hs us => ⟨hs.known, hs.waits, hs.once, hs.apart⟩
    cases call with
    | updateStatus state message timestamp metadata =>
      dsimp only
      cases u.terminalStateReached with
      | true => exact h
      | false =>
        cases state.isFinal with
        | true => exact (hflag s h _).process w
        | false => exact h.process w
    | addArtifact artifact append lastChunk =>
      dsimp only
      cases u.terminalStateReached with
      | true => exact h
      | false =>
        rw [if_neg (by simp)]
        exact h.process w
    | sendResponseMessage m => exact hflag _ (h.process w) _

theorem Waiting.cancelTask (h : Waiting s) (o : ℕ) (w : Choices) : Waiting (s.cancelTask o w) := by
  rw [Server.cancelTask]
  dsimp only
  by_cases hfinal : (s.objects o).status.state.isFinal = true
  · rw [if_pos hfinal]
    exact h
  · rw [if_neg hfinal]
    have hset : Waiting (s.setState o .canceled) := ⟨h.known, h.waits, h.once, h.apart⟩
    cases hreg : s.registered (s.objects o).id with
    | none => exact hset
    | some info =>
      have hreg' : (s.setState o .canceled).registered (s.objects o).id = some info := hreg
      have hmarked : Marked (s.objects o).id _ (s.setState o .canceled) ((s.setState o .canceled).invokeAll (s.objects o).id
          (.statusUpdate (s.objects o).id (s.objects o).contextId { state := .canceled } none) w 0 info.eventCb) := marked_invokeAll
      refine hset.deliver hreg' hmarked.callbacks (received_invokeAll w 0 info.eventCb) (fun id info' hentry => ?_) fun _ => ?_
      · rw [registered_erase] at hentry
        by_cases hid : id = (s.objects o).id
        · rw [if_pos hid] at hentry
          cases hentry
        · rw [if_neg hid] at hentry
          exact registered_invokeAll hentry
      · rw [registered_erase, if_pos rfl]

theorem Waiting.prepareTask (h : Waiting s) {params : MessageSendParams M} {found : Option String}
    (hprepare : s.prepareTask params = (s', found)) : Waiting s' := by
  have hnew : ∀ taskId, Waiting (s.registerTask taskId (some {})) := by
    intro taskId
    refine h.narrow rfl rfl fun id info' hreg => ?_
    rw [registered_registerTask] at hreg
    by_cases hid : taskId = id
    · rw [if_pos hid] at hreg
      cases hreg
      exact .inl rfl
    · rw [if_neg hid] at hreg
      exact .inr ⟨info', hreg, rfl⟩
  rw [Server.prepareTask] at hprepare
  cases hdetermine : s.determineTaskId params with
  | error e =>
    rw [hdetermine] at hprepare
    cases hprepare
    exact h
  | ok existing =>
    rw [hdetermine] at hprepare
    cases existing with
    | none =>
      cases hprepare
      obtain ⟨hknown, hwaits, honce, hapart⟩ := hnew params.generatedTaskId
      exact ⟨hknown, hwaits, honce, hapart⟩
    | some task =>
      dsimp only at hprepare
      cases hfinal : task.status.state.isFinal with
      | true =>
        rw [hfinal, if_pos rfl] at hprepare
        cases hprepare
        exact h
      | false =>
        rw [hfinal, if_neg (by simp)] at hprepare
        cases hprepare
        obtain ⟨hknown, hwaits, honce, hapart⟩ := hnew task.id
        exact ⟨hknown, hwaits, honce, hapart⟩

theorem Waiting.step (h : Waiting s) (e : ServerEvent M P) : Waiting (s.step merge e) := by
  cases e with
  | sendMessage params =>
    rw [Server.step, onSendMessage.eq_def]
    rcases hprepare : s.prepareTask params with ⟨s₁, found⟩
    have hprepared := h.prepareTask hprepare
    cases found with
    | none => exact hprepared
    | some taskId =>
      obtain ⟨hknown, hwaits, honce, hapart⟩ := hprepared.exchange taskId false
      have hupdater : Waiting ((s₁.exchangeMessageSent taskId false).1.addUpdater taskId) := ⟨hknown, hwaits, honce, hapart⟩
      exact hupdater.addEventCallback taskId _
  | sendMessageStreaming params throws =>
    rw [Server.step, onSendMessageStreaming.eq_def]
    rcases hprepare : s.prepareTask params with ⟨s₁, found⟩
    have hprepared := h.prepareTask hprepare
    cases found with
    | none => exact hprepared
    | some taskId =>
      cases throws with
      | true => exact hprepared
      | false =>
        obtain ⟨hknown, hwaits, honce, hapart⟩ := hprepared.addEventCallback taskId .streaming
        exact ⟨hknown, hwaits, honce, hapart⟩
  | resubscribeToTask taskId throws =>
    rw [Server.step, onResubscribeToTask]
    cases s.stored taskId with
    | none => exact h
    | some task =>
      dsimp only
      by_cases hstops : (throws || task.status.state.isFinalOrInterrupted) = true
      · rw [if_pos hstops]
        exact h
      · rw [if_neg hstops]
        exact h.addEventCallback taskId .streaming
  | beginCancel taskId copy =>
    rw [Server.step, Server.beginCancel.eq_def]
    rcases hget : s.get taskId copy with ⟨s₁, fetched⟩
    cases fetched with
    | none => exact h
    | some o =>
      dsimp only
      cases (s₁.objects o).status.state.isFinal with
      | true => exact h
      | false =>
        obtain ⟨o', -, ⟨-, -, rfl⟩ | ⟨-, -, rfl⟩⟩ := get_cases hget
        · exact ⟨h.known, h.waits, h.once, h.apart⟩
        · exact ⟨h.known, h.waits, h.once, h.apart⟩
  | endCancel k w =>
    rw [Server.step]
    cases s.cancels[k]? with
    | none => exact h
    | some o =>
      obtain ⟨hknown, hwaits, honce, hapart⟩ := h.cancelTask o w
      exact ⟨hknown, hwaits, honce, hapart⟩
  | update k call w => exact h.update k call w

theorem Waiting.start (tasks : List (Task M P)) : Waiting (start tasks) := by
  have hempty : Waiting ({} : Server M P) :=
    ⟨fun r hr => (by cases hr), fun id info hreg => (by cases hreg), fun id info hreg => (by cases hreg),
      fun id id' info info' hreg => by cases hreg⟩
  have hsave : ∀ (tasks : List (Task M P)) (s : Server M P), Waiting s → Waiting (tasks.foldl save s) := by
    intro tasks
    induction tasks with
    | nil => exact fun s hs => hs
    | cons task tasks ih => exact fun s hs => ih (s.save task) ⟨hs.known, hs.waits, hs.once, hs.apart⟩
  exact hsave tasks {} hempty

theorem inv_and_waiting (tasks : List (Task M P)) (es : List (ServerEvent M P)) :
    Inv (run (step merge) (start tasks) es) ∧ Waiting (run (step merge) (start tasks) es) :=
  run_invariant (I := fun s => Inv s ∧ Waiting s) ⟨Inv.start tasks, Waiting.start tasks⟩
    fun _ e h => ⟨h.1.after e, h.2.step e⟩

end Server

end AgentProtocol.A2A
