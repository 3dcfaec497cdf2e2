-- SUMMARY: The sending side of the stdio connection: partial writes, and what is on stdout once the queue is drained.
import AgentProtocol.Mcp.Sse

/-!
# Writing to stdout

A frame that is written in part goes back into the queue as it is left, and is framed again. What is left starts at the
byte where the write stopped, and the second newline at its end makes an empty line, which readers skip.
-/

namespace AgentProtocol.Mcp.Stdio

open Lib

/-- What one `write` returns; of more bytes than it is given it writes what there are. -/
inductive WriteResult where
  | wrote (n : ℕ)
  | eintr
  | eagain
  | failed (errno : String)

structure WriteCall where
  buffer : Bytes
  result : WriteResult

namespace WriteCall

def accepted (call : WriteCall) : Bytes :=
  match call.result with
  | .wrote n => call.buffer.take n
  | _ => []

def left (call : WriteCall) : Bytes := call.buffer.drop call.accepted.length

end WriteCall

/-- `StdioConnection`, as far as it writes, with the messages that it has queued and its calls of `write`. -/
structure Writer where
  writeQueue : List Bytes := []
  writeEnabled : Bool := false
  connected : Bool := true
  bytesSent : ℕ := 0
  calls : List WriteCall := []
  queued : List Bytes := []
  errors : List String := []

def Writer.stdout (w : Writer) : Bytes := w.calls.flatMap WriteCall.accepted

def frameMessage (message : Bytes) : Bytes := message ++ ['\n']

/-- The loop of `Write` with some bytes written: what it returns, its calls of `write`, and the results that it has not asked
for. There is none while the loop is not over. -/
def writeFrom (message : Bytes) (totalWritten : ℕ) (results : List WriteResult) :
    Option (Except String ℕ × List WriteCall × List WriteResult) :=
  if totalWritten < message.length then
    match results with
    | [] => none
    | result :: results =>
      let call : WriteCall := { buffer := message.drop totalWritten, result }
      match result with
      | .wrote _ => (writeFrom message (totalWritten + call.accepted.length) results).map fun (value, calls, rest) =>
          (value, call :: calls, rest)
      | .eintr => (writeFrom message totalWritten results).map fun (value, calls, rest) => (value, call :: calls, rest)
      | .eagain => some (.ok totalWritten, [call], results)
      | .failed errno => some (.error errno, [call], results)
  else some (.ok totalWritten, [], results)

namespace Writer

/-- The loop of `SendQueuedMessages` over the queue. -/
def sendFrom (w : Writer) : List Bytes → List WriteResult → Option Writer
  | [], _ => some { w with writeQueue := [], writeEnabled := false }
  | message :: queue, results =>
    match writeFrom (frameMessage message) 0 results with
    | none => none
    | some (.error errno, calls, _) =>
      some { w with writeQueue := message :: queue, calls := w.calls ++ calls, errors := w.errors ++ ["Failed to write message: " ++ errno] }
    | some (.ok bytesWritten, calls, rest) =>
      let w := { w with calls := w.calls ++ calls, bytesSent := w.bytesSent + bytesWritten }
      if bytesWritten < (frameMessage message).length then
        some { w with writeQueue := (frameMessage message).drop bytesWritten :: queue }
      else sendFrom w queue rest

/-- `SendQueuedMessages`, if its writes return. -/
def sendQueuedMessages (w : Writer) (results : List WriteResult) : Option Writer := w.sendFrom w.writeQueue results

/-- `SendMessage`; the write event may fail to be registered. -/
def sendMessage (w : Writer) (data : Bytes) (registered : Bool) : Writer :=
  if !w.connected then { w with errors := w.errors ++ ["Cannot send message: not connected"] }
  else
    let w := { w with writeQueue := w.writeQueue ++ [data], queued := w.queued ++ [data] }
    if w.writeEnabled then w
    else if registered then { w with writeEnabled := true }
    else { w with errors := w.errors ++ ["Failed to register stdout write event"] }

end Writer

/-- A message that is not empty and has no line break. -/
structure LineMessage where
  bytes : Bytes
  nonempty : bytes ≠ []
  oneLine : '\n' ∉ bytes

/-- The results are those of the calls of `write` in one event, as many as it makes. -/
inductive WriteEvent where
  | send (message : LineMessage) (registered : Bool)
  | writable (results : Stream' WriteResult)
  | disconnect

/-- The event loop; `HandleStdoutWritable` is called while the write event is registered. -/
def Writer.Step (w : Writer) (event : WriteEvent) (after : Writer) : Prop :=
  match event with
  | .send message registered => after = w.sendMessage message.bytes registered
  | .writable results =>
    if w.writeEnabled then ∃ n, w.sendQueuedMessages (results.take n) = some after else after = w
  | .disconnect => after = { w with connected := false, writeEnabled := false }

def Writer.Runs (w : Writer) : List WriteEvent → Writer → Prop
  | [], after => after = w
  | event :: events, after => ∃ w', w.Step event w' ∧ w'.Runs events after

/-! ## What is claimed -/

def WriteResult.isFailure : WriteResult → Bool
  | .failed _ => true
  | _ => false

/-- The result is not one after which `write` is called again with the same bytes. -/
def WriteResult.proceeds : WriteResult → Bool
  | .wrote n => 0 < n
  | .eintr => false
  | _ => true

/-- No `write` fails for good. -/
def Succeeds (results : Stream' WriteResult) : Prop := ∀ n, (results.get n).isFailure = false

/-- A `write` is not interrupted for ever, and does not write nothing for ever. -/
def Proceeds (results : Stream' WriteResult) : Prop := ∀ n, ∃ m, (results.get (n + m)).proceeds = true

def WriteEvent.Returning (P : Stream' WriteResult → Prop) : WriteEvent → Prop
  | .writable results => P results
  | _ => True

/-- The lines of some bytes that are not empty. -/
def nonEmptyLines (bytes : Bytes) : List Bytes := (bytes.splitOn '\n').filter (· ≠ [])

/-- The next call goes on at the byte where a write has stopped; after `EAGAIN` what is left has been framed again. -/
def WriteCall.Resumes (call next : WriteCall) : Prop :=
  call.left = [] ∨ next.buffer = match call.result with
    | .eagain => frameMessage call.left
    | _ => call.left

/-- The calls of `write` have had the first of the results, and either the queue is written, or the last one would have blocked and
what it was given is at the front of the queue. -/
def Writer.Sends (w after : Writer) (results : Stream' WriteResult) : Prop :=
  ∃ calls, after.calls = w.calls ++ calls ∧ calls.map (·.result) = results.take calls.length ∧
    (after.writeQueue = [] ∨ ∃ before buffer queue,
      calls = before ++ [{ buffer, result := .eagain }] ∧ after.writeQueue = buffer :: queue)

/-! ## One `Write` -/

namespace WriteCall

@[simp] theorem accepted_wrote (buffer : Bytes) (n : ℕ) : accepted { buffer, result := .wrote n } = buffer.take n := rfl

@[simp] theorem accepted_eintr (buffer : Bytes) : accepted { buffer, result := .eintr } = [] := rfl

@[simp] theorem accepted_eagain (buffer : Bytes) : accepted { buffer, result := .eagain } = [] := rfl

theorem left_drop {message : Bytes} {n : ℕ} {result : WriteResult} :
    left { buffer := message.drop n, result } = message.drop (n + (accepted { buffer := message.drop n, result }).length) := by
  rw [left, List.drop_drop]

end WriteCall

/-- What `Write` has done when it has written up to a byte without a failure. -/
structure WritesTo (message : Bytes) (totalWritten n : ℕ) (results : List WriteResult) (calls : List WriteCall)
    (rest : List WriteResult) : Prop where
  le : n ≤ message.length
  bytes : message.take totalWritten ++ calls.flatMap WriteCall.accepted = message.take n
  asked : results = calls.map (·.result) ++ rest
  chain : calls.IsChain WriteCall.Resumes
  start : ∀ call ∈ calls.head?, call.buffer = message.drop totalWritten
  full : n = message.length → ∀ call ∈ calls.getLast?, call.left = []
  part : n < message.length → ∃ before, calls = before ++ [{ buffer := message.drop n, result := .eagain }]

theorem WritesTo.cons {message : Bytes} {totalWritten n : ℕ} {result : WriteResult} {results rest : List WriteResult}
    {calls : List WriteCall} (hresult : result ≠ .eagain)
    (h : WritesTo message (totalWritten + (WriteCall.accepted ⟨message.drop totalWritten, result⟩).length) n results calls rest)
    (haccepted : message.take (totalWritten + (WriteCall.accepted ⟨message.drop totalWritten, result⟩).length) =
      message.take totalWritten ++ WriteCall.accepted ⟨message.drop totalWritten, result⟩) :
    WritesTo message totalWritten n (result :: results) (⟨message.drop totalWritten, result⟩ :: calls) rest := by
  refine ⟨h.le, ?_, by rw [h.asked]; rfl, ?_, by simp, fun hn => ?_, fun hn => ?_⟩
  · rw [List.flatMap_cons, ← List.append_assoc, ← haccepted, h.bytes]
  · refine List.isChain_cons.mpr ⟨fun call hcall => .inr ?_, h.chain⟩
    rw [h.start call hcall]
    cases result with
    | eagain => exact absurd rfl hresult
    | wrote | eintr | failed => exact WriteCall.left_drop.symm
  · cases calls with
    | nil =>
      have hbytes := h.bytes
      rw [List.flatMap_nil, List.append_nil, hn] at hbytes
      have hlength := congrArg List.length hbytes
      simp only [List.length_take] at hlength
      intro call hcall
      obtain rfl : ⟨message.drop totalWritten, result⟩ = call := by simpa using hcall
      rw [WriteCall.left_drop]
      exact List.drop_eq_nil_of_le (by omega)
    | cons call calls => simpa using h.full hn
  · obtain ⟨before, hbefore⟩ := h.part hn
    exact ⟨⟨message.drop totalWritten, result⟩ :: before, by rw [hbefore]; rfl⟩

theorem writeFrom_writesTo {message : Bytes} {totalWritten : ℕ} {results rest : List WriteResult} {calls : List WriteCall}
    {value : Except String ℕ} (h : writeFrom message totalWritten results = some (value, calls, rest))
    (hresults : ∀ r ∈ results, r.isFailure = false) (htotal : totalWritten ≤ message.length) :
    ∃ n, value = .ok n ∧ WritesTo message totalWritten n results calls rest := by
  induction results generalizing totalWritten calls with
  | nil =>
    unfold writeFrom at h
    split at h
    · cases h
    · obtain ⟨rfl, rfl, rfl⟩ : value = .ok totalWritten ∧ calls = [] ∧ rest = [] := by simpa [eq_comm] using h
      exact ⟨totalWritten, rfl, htotal, by simp, rfl, .nil, by simp, by simp, fun hlt => by omega⟩
  | cons result results ih =>
    obtain ⟨hresult, hresults'⟩ := List.forall_mem_cons.mp hresults
    unfold writeFrom at h
    split at h
    · rename_i hlt
      cases result with
      | wrote n =>
        obtain ⟨⟨value', calls', rest'⟩, hnext, heq⟩ := Option.map_eq_some_iff.mp h
        obtain ⟨rfl, rfl, rfl⟩ := by simpa only [Prod.mk.injEq] using heq
        obtain ⟨m, hvalue, hwrites⟩ := ih hnext hresults' (by simp; omega)
        refine ⟨m, hvalue, hwrites.cons (by simp) ?_⟩
        rw [List.take_add, WriteCall.accepted_wrote, List.length_take, ← List.take_eq_take_min]
      | eintr =>
        obtain ⟨⟨value', calls', rest'⟩, hnext, heq⟩ := Option.map_eq_some_iff.mp h
        obtain ⟨rfl, rfl, rfl⟩ := by simpa only [Prod.mk.injEq] using heq
        obtain ⟨m, hvalue, hwrites⟩ := ih hnext hresults' htotal
        exact ⟨m, hvalue, WritesTo.cons (by simp) hwrites (by simp)⟩
      | eagain =>
        obtain ⟨rfl, rfl, rfl⟩ : value = .ok totalWritten ∧ calls = [⟨message.drop totalWritten, .eagain⟩] ∧ rest = results := by
          simpa [eq_comm] using h
        exact ⟨totalWritten, rfl, htotal, by simp, rfl, .singleton _, by simp, fun heq => by omega, fun _ => ⟨[], rfl⟩⟩
      | failed errno => cases hresult
    · obtain ⟨rfl, rfl, rfl⟩ : value = .ok totalWritten ∧ calls = [] ∧ rest = result :: results := by simpa [eq_comm] using h
      exact ⟨totalWritten, rfl, htotal, by simp, rfl, .nil, by simp, by simp, fun hlt => by omega⟩

theorem Proceeds.tail {results : Stream' WriteResult} (h : Proceeds results) : Proceeds results.tail := by
  intro n
  obtain ⟨m, hm⟩ := h (n + 1)
  exact ⟨m, by rwa [Stream'.get_tail, Nat.add_right_comm]⟩

theorem Proceeds.drop {results : Stream' WriteResult} (h : Proceeds results) (n : ℕ) : Proceeds (results.drop n) := by
  induction n generalizing results with
  | zero => exact h
  | succ n ih => exact ih h.tail

theorem Succeeds.take {results : Stream' WriteResult} (h : Succeeds results) {n : ℕ} :
    ∀ r ∈ results.take n, r.isFailure = false := by
  intro r hr
  obtain ⟨i, hi, rfl⟩ := List.mem_iff_getElem.mp hr
  rw [Stream'.take_get]
  exact h i

theorem writeFrom_returns_of_tail {message : Bytes} {totalWritten : ℕ} {results : Stream' WriteResult}
    (hnext : results.head = .eintr ∨ (∃ n, results.head = .wrote n) → ∃ n value calls,
      writeFrom message (totalWritten + (WriteCall.accepted ⟨message.drop totalWritten, results.head⟩).length) (results.tail.take n) =
        some (value, calls, [])) :
    ∃ n value calls, writeFrom message totalWritten (results.take n) = some (value, calls, []) := by
  by_cases hlt : totalWritten < message.length
  · cases hhead : results.head with
    | eagain => exact ⟨1, .ok totalWritten, [⟨message.drop totalWritten, .eagain⟩], by
        rw [Stream'.take_succ, hhead, Stream'.take_zero, writeFrom, if_pos hlt]⟩
    | failed errno => exact ⟨1, .error errno, [⟨message.drop totalWritten, .failed errno⟩], by
        rw [Stream'.take_succ, hhead, Stream'.take_zero, writeFrom, if_pos hlt]⟩
    | wrote n =>
      rw [hhead] at hnext
      obtain ⟨m, value, calls, hwrite⟩ := hnext (.inr ⟨n, rfl⟩)
      refine ⟨m + 1, value, ⟨message.drop totalWritten, .wrote n⟩ :: calls, ?_⟩
      rw [Stream'.take_succ, hhead, writeFrom, if_pos hlt]
      exact Option.map_eq_some_iff.mpr ⟨_, hwrite, rfl⟩
    | eintr =>
      rw [hhead] at hnext
      obtain ⟨m, value, calls, hwrite⟩ := hnext (.inl rfl)
      refine ⟨m + 1, value, ⟨message.drop totalWritten, .eintr⟩ :: calls, ?_⟩
      rw [Stream'.take_succ, hhead, writeFrom, if_pos hlt]
      exact Option.map_eq_some_iff.mpr ⟨_, hwrite, rfl⟩
  · exact ⟨0, .ok totalWritten, [], by rw [writeFrom.eq_def, if_neg hlt]; rfl⟩

/-- **The loop of `Write` ends**: of the results that proceed, each one writes a byte or is the last one. -/
theorem writeFrom_returns {message : Bytes} {totalWritten : ℕ} {results : Stream' WriteResult} (h : Proceeds results) :
    ∃ n value calls, writeFrom message totalWritten (results.take n) = some (value, calls, []) := by
  -- on the bytes that are left, and then on the results until one proceeds
  induction hk : message.length - totalWritten using Nat.strongRecOn generalizing totalWritten results with
  | _ k ih =>
    obtain ⟨m, hm⟩ := h 0
    rw [Nat.zero_add] at hm
    induction m generalizing results with
    | zero =>
      refine writeFrom_returns_of_tail fun hhead => ?_
      by_cases hlt : totalWritten < message.length
      · have hwrote : 0 < (WriteCall.accepted ⟨message.drop totalWritten, results.head⟩).length := by
          rcases hhead with heintr | ⟨n, hwrote⟩
          · rw [Stream'.head] at heintr
            rw [heintr] at hm
            cases hm
          · have hn : 0 < n := by
              rw [Stream'.head] at hwrote
              simpa [hwrote, WriteResult.proceeds] using hm
            simp only [hwrote, WriteCall.accepted_wrote, List.length_take, List.length_drop]
            omega
        exact ih _ (by omega) h.tail rfl
      · exact ⟨0, .ok _, [], by rw [writeFrom.eq_def, if_neg (by omega)]; rfl⟩
    | succ m ihm =>
      refine writeFrom_returns_of_tail fun _ => ?_
      rcases Nat.eq_zero_or_pos (WriteCall.accepted ⟨message.drop totalWritten, results.head⟩).length with hzero | hpos
      · rw [hzero, Nat.add_zero]
        exact ihm h.tail hm
      · by_cases hlt : totalWritten < message.length
        · exact ih _ (by omega) h.tail rfl
        · exact ⟨0, .ok _, [], by rw [writeFrom.eq_def, if_neg (by omega)]; rfl⟩

theorem writeFrom_append {message : Bytes} {totalWritten : ℕ} {results rest more : List WriteResult} {value : Except String ℕ}
    {calls : List WriteCall} (h : writeFrom message totalWritten results = some (value, calls, rest)) :
    writeFrom message totalWritten (results ++ more) = some (value, calls, rest ++ more) := by
  induction results generalizing totalWritten calls with
  | nil =>
    unfold writeFrom at h ⊢
    split at h
    · cases h
    · rename_i hlt
      obtain ⟨rfl, rfl, rfl⟩ : value = .ok totalWritten ∧ calls = [] ∧ rest = [] := by simpa [eq_comm] using h
      rw [if_neg hlt]
  | cons result results ih =>
    rw [List.cons_append]
    unfold writeFrom at h ⊢
    split at h
    · rename_i hlt
      rw [if_pos hlt]
      cases result with
      | wrote | eintr =>
        obtain ⟨⟨value', calls', rest'⟩, hnext, heq⟩ := Option.map_eq_some_iff.mp h
        obtain ⟨rfl, rfl, rfl⟩ := by simpa only [Prod.mk.injEq] using heq
        exact Option.map_eq_some_iff.mpr ⟨_, ih hnext, rfl⟩
      | eagain | failed => simp_all
    · rename_i hlt
      obtain ⟨rfl, rfl, rfl⟩ : value = .ok totalWritten ∧ calls = [] ∧ rest = result :: results := by simpa [eq_comm] using h
      rw [if_neg hlt, List.cons_append]

/-! ## One call -/

variable {w after : Writer}

/-- What `SendQueuedMessages` has done with a queue. -/
structure Sent (w after : Writer) (results : List WriteResult) (queue : List Bytes) (calls : List WriteCall) : Prop where
  appended : after.calls = w.calls ++ calls
  queued : after.queued = w.queued
  asked : ∃ rest, results = calls.map (·.result) ++ rest
  chain : calls.IsChain WriteCall.Resumes
  start : ∀ call ∈ calls.head?, ∃ message queue', queue = message :: queue' ∧ call.buffer = frameMessage message
  /-- Some messages are written, and either all are, or the frame of the next one is written up to a byte. -/
  stops : ∃ done more, queue = done ++ more ∧
    ((more = [] ∧ after.writeQueue = [] ∧ calls.flatMap WriteCall.accepted = done.flatMap frameMessage ∧
        ∀ call ∈ calls.getLast?, call.left = []) ∨
      ∃ message queue' written left before, more = message :: queue' ∧ frameMessage message = written ++ left ∧ left ≠ [] ∧
        after.writeQueue = left :: queue' ∧ calls.flatMap WriteCall.accepted = done.flatMap frameMessage ++ written ∧
        calls = before ++ [{ buffer := left, result := .eagain }])

theorem sent_part {message : Bytes} {queue : List Bytes} {results rest : List WriteResult} {calls : List WriteCall} {n : ℕ}
    (h : WritesTo (frameMessage message) 0 n results calls rest) (hn : n < (frameMessage message).length)
    (hcalls : after.calls = w.calls ++ calls) (hqueued : after.queued = w.queued)
    (hqueue : after.writeQueue = (frameMessage message).drop n :: queue) : Sent w after results (message :: queue) calls := by
  obtain ⟨before, hbefore⟩ := h.part hn
  refine ⟨hcalls, hqueued, ⟨rest, h.asked⟩, h.chain, fun call hcall => ⟨message, queue, rfl, h.start call hcall⟩,
    [], message :: queue, rfl, .inr ⟨message, queue, (frameMessage message).take n, (frameMessage message).drop n, before,
      rfl, (List.take_append_drop n _).symm, ?_, hqueue, ?_, hbefore⟩⟩
  · exact List.ne_nil_of_length_pos (by rw [List.length_drop]; omega)
  · simpa using h.bytes

theorem Sent.cons {w' : Writer} {message : Bytes} {queue : List Bytes} {results rest : List WriteResult}
    {calls calls' : List WriteCall} (hsent : Sent w' after rest queue calls')
    (h : WritesTo (frameMessage message) 0 (frameMessage message).length results calls rest)
    (hcalls : w'.calls = w.calls ++ calls) (hqueued : w'.queued = w.queued) :
    Sent w after results (message :: queue) (calls ++ calls') := by
  have hbytes : calls.flatMap WriteCall.accepted = frameMessage message := by simpa using h.bytes
  have hsome : calls ≠ [] := by
    rintro rfl
    simp [frameMessage] at hbytes
  obtain ⟨rest', hrest⟩ := hsent.asked
  refine ⟨by rw [hsent.appended, hcalls, List.append_assoc], hsent.queued.trans hqueued, ⟨rest', ?_⟩, ?_, fun call hcall => ?_, ?_⟩
  · rw [List.map_append, List.append_assoc, ← hrest, ← h.asked]
  · exact h.chain.append hsent.chain fun call hcall next _ => .inl (h.full rfl call hcall)
  · rw [List.head?_append_of_ne_nil _ hsome] at hcall
    exact ⟨message, queue, rfl, h.start call hcall⟩
  · obtain ⟨done, more, hqueue, hstops⟩ := hsent.stops
    refine ⟨message :: done, more, congrArg (message :: ·) hqueue, ?_⟩
    rcases hstops with ⟨hnone, hempty, hout, hlast⟩ | ⟨m, queue', written, left, before, hnext, hsplit, hleft, hfront, hout, hlast⟩
    · refine .inl ⟨hnone, hempty, by rw [List.flatMap_append, hbytes, hout, List.flatMap_cons], fun call hcall => ?_⟩
      rw [List.getLast?_append] at hcall
      cases hcalls' : calls'.getLast? with
      | none => exact h.full rfl call (by simpa [hcalls'] using hcall)
      | some last => exact hlast call (by simpa [hcalls'] using hcall)
    · refine .inr ⟨m, queue', written, left, calls ++ before, hnext, hsplit, hleft, hfront, ?_, by rw [hlast, List.append_assoc]⟩
      rw [List.flatMap_append, hbytes, hout, List.flatMap_cons, List.append_assoc]

theorem sendFrom_sent {queue : List Bytes} {results : List WriteResult} (h : w.sendFrom queue results = some after)
    (hresults : ∀ r ∈ results, r.isFailure = false) : ∃ calls, Sent w after results queue calls := by
  induction queue generalizing w results with
  | nil =>
    obtain rfl := Option.some.inj h
    exact ⟨[], by simp, rfl, ⟨results, rfl⟩, .nil, by simp, [], [], rfl, .inl ⟨rfl, rfl, rfl, by simp⟩⟩
  | cons message queue ih =>
    unfold Writer.sendFrom at h
    split at h
    · cases h
    · rename_i hwrite
      obtain ⟨n, hvalue, -⟩ := writeFrom_writesTo hwrite hresults (Nat.zero_le _)
      cases hvalue
    · rename_i bytesWritten calls rest hwrite
      obtain ⟨n, hvalue, hwrites⟩ := writeFrom_writesTo hwrite hresults (Nat.zero_le _)
      obtain rfl := Except.ok.inj hvalue
      split at h
      · rename_i hpart
        obtain rfl := Option.some.inj h
        exact ⟨calls, sent_part hwrites hpart rfl rfl rfl⟩
      · rename_i hfull
        obtain rfl : bytesWritten = (frameMessage message).length := by
          have hle := hwrites.le
          omega
        have hrest : ∀ r ∈ rest, r.isFailure = false := fun r hr => hresults r (by rw [hwrites.asked]; simp [hr])
        obtain ⟨calls', hsent⟩ := ih h hrest
        exact ⟨calls ++ calls', hsent.cons hwrites rfl rfl⟩

/-- **A call of `SendQueuedMessages` returns.** -/
theorem sendFrom_returns {queue : List Bytes} {results : Stream' WriteResult} (h : Proceeds results) :
    ∃ n after, w.sendFrom queue (results.take n) = some after := by
  induction queue generalizing w results with
  | nil => exact ⟨0, { w with writeQueue := [], writeEnabled := false }, rfl⟩
  | cons message queue ih =>
    obtain ⟨n, value, calls, hwrite⟩ := @writeFrom_returns (frameMessage message) 0 results h
    cases value with
    | error errno => exact ⟨n, _, by rw [Writer.sendFrom, hwrite]⟩
    | ok bytesWritten =>
      by_cases hpart : bytesWritten < (frameMessage message).length
      · exact ⟨n, _, by rw [Writer.sendFrom, hwrite]; exact if_pos hpart⟩
      · obtain ⟨k, after, hsend⟩ := @ih { w with calls := w.calls ++ calls, bytesSent := w.bytesSent + bytesWritten }
          (results.drop n) (h.drop n)
        refine ⟨n + k, after, ?_⟩
        rw [Stream'.take_add, Writer.sendFrom, writeFrom_append hwrite]
        exact (if_neg hpart).trans hsend

theorem Writer.sendQueuedMessages_returns {results : Stream' WriteResult} (h : Proceeds results) :
    ∃ n after, w.sendQueuedMessages (results.take n) = some after := sendFrom_returns h

theorem Sent.sends {results : Stream' WriteResult} {n : ℕ} {queue : List Bytes} {calls : List WriteCall}
    (h : Sent w after (results.take n) queue calls) : w.Sends after results := by
  refine ⟨calls, h.appended, ?_, ?_⟩
  · obtain ⟨rest, hrest⟩ := h.asked
    have htake := congrArg (List.take calls.length) hrest
    have hle : calls.length ≤ n := by
      have hlength := congrArg List.length hrest
      rw [Stream'.length_take, List.length_append, List.length_map] at hlength
      omega
    rw [Stream'.take_take, Nat.min_eq_right hle] at htake
    rw [htake]
    simp
  · obtain ⟨done, more, -, ⟨-, hempty, -⟩ | ⟨message, queue', written, left, before, -, -, -, hfront, -, hlast⟩⟩ := h.stops
    · exact .inl hempty
    · exact .inr ⟨before, left, queue', hlast, hfront⟩

/-! ## All calls -/

theorem nonEmptyLines_append (xs ys : Bytes) : nonEmptyLines (xs ++ '\n' :: ys) = nonEmptyLines xs ++ nonEmptyLines ys := by
  rw [nonEmptyLines, List.splitOn_append_cons_self, List.filter_append]
  rfl

@[simp] theorem nonEmptyLines_nil : nonEmptyLines [] = [] := by simp [nonEmptyLines]

theorem nonEmptyLines_message (message : LineMessage) : nonEmptyLines message.bytes = [message.bytes] := by
  rw [nonEmptyLines, List.splitOn_eq_singleton message.oneLine]
  simp [message.nonempty]

theorem nonEmptyLines_concat (bytes : Bytes) : nonEmptyLines (bytes ++ ['\n']) = nonEmptyLines bytes := by
  rw [nonEmptyLines_append, nonEmptyLines_nil, List.append_nil]

def Writer.pending (w : Writer) : Bytes := w.stdout ++ w.writeQueue.flatMap frameMessage

/-- With what is in the queue, the lines on stdout are the messages that were queued, and the last one is finished. Each call has gone
on where the one before it stopped, and the next one will. -/
structure Writer.Consistent (w : Writer) : Prop where
  lines : nonEmptyLines w.pending = w.queued
  finished : w.pending = [] ∨ ∃ bytes, w.pending = bytes ++ ['\n']
  chain : w.calls.IsChain WriteCall.Resumes
  front : ∀ call ∈ w.calls.getLast?, call.left = [] ∨ call.result = .eagain ∧ ∃ queue, w.writeQueue = call.left :: queue

theorem Writer.Consistent.send {w : Writer} (h : w.Consistent) (message : LineMessage) (registered : Bool) :
    (w.sendMessage message.bytes registered).Consistent := by
  have hframe : nonEmptyLines (w.pending ++ frameMessage message.bytes) = w.queued ++ [message.bytes] := by
    rw [frameMessage, ← List.append_assoc, nonEmptyLines_concat, ← h.lines]
    rcases h.finished with hnil | ⟨bytes, hbytes⟩
    · rw [hnil, List.nil_append, nonEmptyLines_nil, nonEmptyLines_message]
      rfl
    · rw [hbytes, List.append_assoc, List.singleton_append, nonEmptyLines_append, nonEmptyLines_concat, nonEmptyLines_message]
  have hqueued : ∀ after : Writer, after.calls = w.calls → after.writeQueue = w.writeQueue ++ [message.bytes] →
      after.queued = w.queued ++ [message.bytes] → after.Consistent := by
    intro after hcalls hqueue hqueued
    have hpending : after.pending = w.pending ++ frameMessage message.bytes := by
      rw [pending, pending, stdout, stdout, hcalls, hqueue, List.flatMap_append, List.append_assoc]
      simp
    refine ⟨by rw [hpending, hframe, hqueued], .inr ⟨w.pending ++ message.bytes, by rw [hpending, frameMessage, List.append_assoc]⟩,
      by rw [hcalls]; exact h.chain, fun call hcall => ?_⟩
    rw [hcalls] at hcall
    refine (h.front call hcall).imp_right fun hfront => ⟨hfront.1, ?_⟩
    obtain ⟨queue, hleft⟩ := hfront.2
    exact ⟨queue ++ [message.bytes], by rw [hqueue, hleft]; rfl⟩
  unfold sendMessage
  split
  · exact ⟨h.lines, h.finished, h.chain, h.front⟩
  · dsimp only
    split
    · exact hqueued _ rfl rfl rfl
    · split
      · exact hqueued _ rfl rfl rfl
      · exact hqueued _ rfl rfl rfl

theorem Writer.Consistent.sent {results : List WriteResult} {calls : List WriteCall} (h : w.Consistent)
    (hsent : Sent w after results w.writeQueue calls) : after.Consistent := by
  have hchain : after.calls.IsChain WriteCall.Resumes := by
    rw [hsent.appended]
    refine h.chain.append hsent.chain fun call hcall next hnext => ?_
    refine (h.front call hcall).imp_right fun hfront => ?_
    obtain ⟨heagain, queue, hleft⟩ := hfront
    obtain ⟨message, queue', hqueue, hbuffer⟩ := hsent.start next hnext
    rw [hbuffer, heagain, (List.cons.inj (hqueue.symm.trans hleft)).1]
  have hstdout : after.stdout = w.stdout ++ calls.flatMap WriteCall.accepted := by
    rw [stdout, stdout, hsent.appended, List.flatMap_append]
  obtain ⟨done, more, hqueue, ⟨rfl, hempty, hout, hlast⟩ |
    ⟨message, queue, written, left, before, rfl, hsplit, hleft, hfront, hout, hlast⟩⟩ := hsent.stops
  · have hpending : after.pending = w.pending := by
      rw [pending, pending, hempty, hstdout, hout, hqueue]
      simp
    refine ⟨by rw [hpending, hsent.queued, h.lines], by rw [hpending]; exact h.finished, hchain, fun call hcall => ?_⟩
    rw [hsent.appended, List.getLast?_append] at hcall
    cases hcalls : calls.getLast? with
    | some last => exact .inl (hlast call (by simpa [hcalls] using hcall))
    | none =>
      -- no call: the queue was empty before
      obtain rfl := List.getLast?_eq_none_iff.mp hcalls
      have hnone : w.writeQueue = [] := by
        rw [hqueue, List.append_nil]
        by_contra hsome
        obtain ⟨m, ms, hcons⟩ := List.exists_cons_of_ne_nil hsome
        rw [hcons] at hout
        simp [frameMessage] at hout
      refine (h.front call (by simpa using hcall)).imp_right fun hfront => ?_
      obtain ⟨-, queue, hleft⟩ := hfront
      rw [hnone] at hleft
      cases hleft
  · -- all up to the newline of the message, and what comes after it
    have hbefore : w.pending = (w.stdout ++ done.flatMap frameMessage ++ message) ++ '\n' :: queue.flatMap frameMessage := by
      rw [pending, hqueue, List.flatMap_append, List.flatMap_cons, frameMessage]
      simp
    have hafter : after.pending = (w.stdout ++ done.flatMap frameMessage ++ message) ++ '\n' :: '\n' :: queue.flatMap frameMessage := by
      have hframe : written ++ frameMessage left = message ++ ['\n', '\n'] := by
        rw [frameMessage, ← List.append_assoc, ← hsplit, frameMessage, List.append_assoc]
        rfl
      rw [pending, hfront, hstdout, hout, List.flatMap_cons]
      calc w.stdout ++ (done.flatMap frameMessage ++ written) ++ (frameMessage left ++ queue.flatMap frameMessage)
          = w.stdout ++ done.flatMap frameMessage ++ (written ++ frameMessage left) ++ queue.flatMap frameMessage := by
            simp only [List.append_assoc]
        _ = (w.stdout ++ done.flatMap frameMessage ++ message) ++ '\n' :: '\n' :: queue.flatMap frameMessage := by
            rw [hframe]
            simp
    have hlines : nonEmptyLines after.pending = nonEmptyLines w.pending := by
      have hskip : nonEmptyLines ('\n' :: queue.flatMap frameMessage) = nonEmptyLines (queue.flatMap frameMessage) := by
        have happend := nonEmptyLines_append [] (queue.flatMap frameMessage)
        rwa [nonEmptyLines_nil, List.nil_append] at happend
      rw [hafter, hbefore, nonEmptyLines_append, nonEmptyLines_append, hskip]
    refine ⟨by rw [hlines, hsent.queued, h.lines], .inr ?_, hchain, fun call hcall => .inr ?_⟩
    · rcases h.finished with hnil | ⟨bytes, hbytes⟩
      · rw [hbefore] at hnil
        exact absurd hnil (by simp)
      · have hlast : ('\n' :: queue.flatMap frameMessage).getLast? = some '\n' := by
          have hwhole := congrArg List.getLast? (hbefore.symm.trans hbytes)
          simpa using hwhole
        obtain ⟨init, hinit⟩ := List.getLast?_eq_some_iff.mp hlast
        exact ⟨(w.stdout ++ done.flatMap frameMessage ++ message) ++ '\n' :: init, by rw [hafter, hinit]; simp⟩
    · obtain rfl : { buffer := left, result := .eagain } = call := by simpa [hsent.appended, hlast] using hcall
      exact ⟨rfl, queue, hfront⟩

theorem Writer.Consistent.step {event : WriteEvent} (h : w.Consistent) (hstep : w.Step event after)
    (hevent : event.Returning Succeeds) : after.Consistent := by
  cases event with
  | send message registered =>
    obtain rfl := hstep
    exact h.send message registered
  | writable results =>
    have hcall : if w.writeEnabled then ∃ n, w.sendQueuedMessages (results.take n) = some after else after = w := hstep
    split at hcall
    · obtain ⟨n, hsend⟩ := hcall
      obtain ⟨calls, hsent⟩ := sendFrom_sent hsend hevent.take
      exact h.sent hsent
    · obtain rfl := hcall
      exact h
  | disconnect =>
    obtain rfl := hstep
    exact ⟨h.lines, h.finished, h.chain, h.front⟩

theorem Writer.Consistent.runs {events : List WriteEvent} (h : w.Consistent) (hruns : w.Runs events after)
    (hevents : ∀ event ∈ events, event.Returning Succeeds) : after.Consistent := by
  induction events generalizing w with
  | nil =>
    obtain rfl := hruns
    exact h
  | cons event events ih =>
    obtain ⟨hevent, hrest⟩ := List.forall_mem_cons.mp hevents
    obtain ⟨w', hstep, hruns⟩ := hruns
    exact ih (h.step hstep hevent) hruns hrest

theorem Writer.exists_step {event : WriteEvent} (hevent : event.Returning Proceeds) : ∃ after, w.Step event after := by
  cases event with
  | send message registered => exact ⟨_, rfl⟩
  | disconnect => exact ⟨_, rfl⟩
  | writable results =>
    cases henabled : w.writeEnabled with
    | false => exact ⟨w, by simp [Step, henabled]⟩
    | true =>
      obtain ⟨n, after, hsend⟩ := w.sendQueuedMessages_returns hevent
      exact ⟨after, by simpa [Step, henabled] using ⟨n, hsend⟩⟩

theorem Writer.exists_runs {events : List WriteEvent} (hevents : ∀ event ∈ events, event.Returning Proceeds) :
    ∃ after, w.Runs events after := by
  induction events generalizing w with
  | nil => exact ⟨w, rfl⟩
  | cons event events ih =>
    obtain ⟨hevent, hrest⟩ := List.forall_mem_cons.mp hevents
    obtain ⟨w', hstep⟩ := w.exists_step hevent
    obtain ⟨after, hruns⟩ := @ih w' hrest
    exact ⟨after, w', hstep, hruns⟩

/-- Without a failure, the lines on stdout are the queued messages once the queue is drained, every `write` goes on at the byte where
the one before it stopped, and a call stops only where `write` would block. All calls return, unless they are interrupted for ever. -/
theorem queued_lines_written {events : List WriteEvent} (hevents : ∀ event ∈ events, event.Returning Succeeds) :
    ((∀ event ∈ events, event.Returning Proceeds) → ∃ w, Writer.Runs {} events w) ∧
      ∀ w, Writer.Runs {} events w → (w.writeQueue = [] → nonEmptyLines w.stdout = w.queued) ∧
        w.calls.IsChain WriteCall.Resumes ∧ ∀ results, Succeeds results →
          (∀ n after, w.sendQueuedMessages (results.take n) = some after → w.Sends after results) ∧
            (Proceeds results → ∃ n after, w.sendQueuedMessages (results.take n) = some after) := by
  refine ⟨Writer.exists_runs, fun w hruns => ?_⟩
  have hstart : Writer.Consistent {} := ⟨nonEmptyLines_nil, .inl rfl, .nil, by simp⟩
  have hconsistent := hstart.runs hruns hevents
  refine ⟨fun hempty => ?_, hconsistent.chain, fun results hresults => ⟨fun n after hsend => ?_, w.sendQueuedMessages_returns⟩⟩
  · have hlines := hconsistent.lines
    rwa [Writer.pending, hempty, List.flatMap_nil, List.append_nil] at hlines
  · obtain ⟨calls, hsent⟩ := sendFrom_sent hsend hresults.take
    exact hsent.sends

/-- The results that are given, and then `EAGAIN`. -/
def blocking (results : List WriteResult) : Stream' WriteResult := Stream'.appendStream' results (Stream'.const .eagain)

theorem succeeds_blocking {results : List WriteResult} (h : ∀ r ∈ results, r.isFailure = false) : Succeeds (blocking results) := by
  intro n
  rcases Nat.lt_or_ge n results.length with hlt | hge
  · have hget : (blocking results).get n = results[n] := Stream'.get_append_left n results _ hlt
    rw [hget]
    exact h _ (List.getElem_mem hlt)
  · obtain ⟨k, rfl⟩ := Nat.exists_eq_add_of_le hge
    have hget : (blocking results).get (results.length + k) = .eagain := Stream'.get_append_right k results _
    rw [hget]
    rfl

/-- Two messages, of which the first one is written in three parts. -/
def twoMessages : List WriteEvent :=
  [.send ⟨['a', 'b'], by decide, by decide⟩ true, .writable (blocking [.eintr, .wrote 1]), .send ⟨['c'], by decide, by decide⟩ true,
    .writable (blocking [.wrote 0, .wrote 1]), .writable (blocking [.eintr, .wrote 5, .wrote 2])]

theorem twoMessages_written : ∃ w, Writer.Runs {} twoMessages w ∧ w.writeQueue = [] ∧ w.queued = [['a', 'b'], ['c']] ∧
    w.stdout = ['a', 'b', '\n', '\n', '\n', 'c', '\n'] ∧ nonEmptyLines w.stdout = w.queued := by
  have hevents : ∀ event ∈ twoMessages, event.Returning Succeeds := by
    simp only [twoMessages, List.forall_mem_cons, WriteEvent.Returning]
    refine ⟨trivial, succeeds_blocking ?_, trivial, succeeds_blocking ?_, succeeds_blocking ?_, by simp⟩ <;>
      simp [WriteResult.isFailure]
  let w : Writer :=
    { bytesSent := 7, queued := [['a', 'b'], ['c']]
      calls := [⟨['a', 'b', '\n'], .eintr⟩, ⟨['a', 'b', '\n'], .wrote 1⟩, ⟨['b', '\n'], .eagain⟩, ⟨['b', '\n', '\n'], .wrote 0⟩,
        ⟨['b', '\n', '\n'], .wrote 1⟩, ⟨['\n', '\n'], .eagain⟩, ⟨['\n', '\n', '\n'], .eintr⟩, ⟨['\n', '\n', '\n'], .wrote 5⟩,
        ⟨['c', '\n'], .wrote 2⟩] }
  have hruns : Writer.Runs {} twoMessages w := ⟨_, rfl, _, ⟨3, rfl⟩, _, rfl, _, ⟨3, rfl⟩, _, ⟨3, rfl⟩, rfl⟩
  exact ⟨w, hruns, rfl, rfl, rfl, ((queued_lines_written hevents).2 w hruns).1 rfl⟩

end AgentProtocol.Mcp.Stdio
