-- SUMMARY: Server-sent events: the server's formatter, the client's scanner, and what is delivered of a stream that is cut into chunks or cut off.
import AgentProtocol.Lib.Lines

/-!
# Server-sent events

The server writes an event as lines, the client collects bytes to a line feed, drops one carriage return before it,
and gives the line to `parseSseLine`; an empty line ends the event. At the end of the transfer what is left of a line
is passed to the body callback with the event it belongs to.

A `std::string` is a list of characters, one for each byte.
-/

namespace AgentProtocol.Mcp

open Lib

abbrev Bytes := List Char

/-- `SerializeJSONRPCMessage`: a dump without indentation is one line, and control characters in it are escaped. -/
structure Serializer (μ : Type) where
  text : μ → Bytes
  no_lf : ∀ m, '\n' ∉ text m
  no_cr : ∀ m, '\r' ∉ text m

structure EventMessage (μ : Type) where
  message : μ
  eventId : Bytes := []

structure ServerSentEvent where
  event : Bytes := "message".toList
  id : Bytes := []
  data : Bytes := []
  retry : ℤ := 0
  deriving DecidableEq

/-! ## The server -/

def createEventData {μ : Type} (S : Serializer μ) (m : EventMessage μ) : Bytes :=
  "event: message\n".toList ++
    (if m.eventId = [] then [] else "id: ".toList ++ m.eventId ++ "\n".toList) ++
    ("data: ".toList ++ S.text m.message ++ "\n\n".toList)

/-! ## The client -/

/-- `find_first_not_of(" \t")` and `substr`: a text of blanks only is left as it is. -/
def trimLeading (s : Bytes) : Bytes :=
  match s.dropWhile fun c => c = ' ' || c = '\t' with
  | [] => s
  | rest => rest

/-- `parseSseLine`: whether the line ends an event, and the event so far. -/
def parseSseLine (line : Bytes) (sse : ServerSentEvent) : Bool × ServerSentEvent :=
  if line = [] then
    let sse := if sse.data.getLast? = some '\n' then { sse with data := sse.data.dropLast } else sse
    if sse.event = [] ∧ sse.id = [] ∧ sse.data = [] ∧ sse.retry = 0 then (false, sse) else (true, sse)
  else if "event:".toList <+: line then (false, { sse with event := trimLeading (line.drop 6) })
  else if "id:".toList <+: line then (false, { sse with id := trimLeading (line.drop 3) })
  else if line = "data".toList ∨ "data:".toList <+: line then
    let dataValue := if line = "data".toList then [] else line.drop 5
    let dataValue := if dataValue.head? = some ' ' then dataValue.tail else dataValue
    (false, { sse with data := sse.data ++ dataValue ++ ['\n'] })
  else (false, sse)

/-- The context of a request: `delivered` are the events that the body callback was called with. -/
structure Transfer where
  isSse : Bool := true
  responseData : Bytes := []
  sseEvent : ServerSentEvent := {}
  delivered : List ServerSentEvent := []

namespace Transfer

/-- Normalize CRLF to LF. -/
def dropCr (line : Bytes) : Bytes := if line.getLast? = some '\r' then line.dropLast else line

/-- A line of an event stream is complete. -/
def endLine (t : Transfer) : Transfer :=
  match parseSseLine (dropCr t.responseData) t.sseEvent with
  | (false, sse) => { t with responseData := [], sseEvent := sse }
  | (true, sse) => { t with responseData := [], sseEvent := {}, delivered := t.delivered ++ [sse] }

/-- One byte of an event stream. -/
def writeByte (t : Transfer) (c : Char) : Transfer :=
  if c ≠ '\n' then { t with responseData := t.responseData ++ [c] } else t.endLine

def writeCallback (t : Transfer) (contents : Bytes) : Transfer :=
  if !t.isSse then { t with responseData := t.responseData ++ contents } else contents.foldl writeByte t

/-- `HandleFinishedResponse`: what is left is passed on, whatever the content type. -/
def handleFinishedResponse (t : Transfer) : Transfer :=
  if t.responseData = [] then t else { t with delivered := t.delivered ++ [t.sseEvent] }

end Transfer

/-! ## The pipeline -/

section Pipeline

variable {μ : Type} (S : Serializer μ)

/-- What the server writes for a list of messages. -/
def eventStream (ms : List (EventMessage μ)) : Bytes := ms.flatMap (createEventData S)

/-- What the client's callback saw of a stream that came in pieces of these sizes. -/
def deliver (sizes : List ℕ) (received : Bytes) : List ServerSentEvent :=
  (((cutAt sizes received).foldl Transfer.writeCallback {}).handleFinishedResponse).delivered

/-- The messages whose events are complete in the first `n` bytes. -/
def completed : ℕ → List (EventMessage μ) → List (EventMessage μ)
  | _, [] => []
  | n, m :: ms =>
    if (createEventData S m).length ≤ n then m :: completed (n - (createEventData S m).length) ms else []

variable {S} in
theorem mem_of_mem_completed {n : ℕ} {m : EventMessage μ} {ms : List (EventMessage μ)} (h : m ∈ completed S n ms) : m ∈ ms := by
  induction ms generalizing n with
  | nil => cases h
  | cons m' ms ih =>
    rw [completed] at h
    split at h
    · rcases List.mem_cons.mp h with rfl | h
      · exact List.mem_cons_self
      · exact List.mem_cons_of_mem _ (ih h)
    · cases h

def sentEvent (m : EventMessage μ) : ServerSentEvent := { id := m.eventId, data := S.text m.message }

end Pipeline

/-- The ids that arrive as they were sent: one line, no blank in front, no carriage return behind. -/
def IdKept (id : Bytes) : Prop :=
  '\n' ∉ id ∧ id.head? ≠ some ' ' ∧ id.head? ≠ some '\t' ∧ id.getLast? ≠ some '\r'

/-- The stream is not cut off inside a line. -/
def AtLineEnd (received : Bytes) : Prop := received = [] ∨ received.getLast? = some '\n'

/-! ## The client is a scanner of lines -/

namespace Transfer

def acceptLine (s : ServerSentEvent × List ServerSentEvent) (line : Bytes) : ServerSentEvent × List ServerSentEvent :=
  match parseSseLine (dropCr line) s.1 with
  | (false, sse) => (sse, s.2)
  | (true, sse) => ({}, s.2 ++ [sse])

def ofScan (p : Bytes × ServerSentEvent × List ServerSentEvent) : Transfer :=
  { responseData := p.1, sseEvent := p.2.1, delivered := p.2.2 }

variable (p : Bytes × ServerSentEvent × List ServerSentEvent)

theorem writeByte_ofScan (c : Char) : (ofScan p).writeByte c = ofScan (Lines.push '\n' acceptLine p c) := by
  unfold writeByte Lines.push
  by_cases hc : c = '\n'
  · simp only [hc, ne_eq, not_true_eq_false, if_false, if_true, endLine, ofScan, acceptLine]
    split <;> rename_i hparse <;> simp only [hparse]
  · simp only [ne_eq, hc, not_false_eq_true, if_true, if_false, ofScan]

theorem writeCallback_ofScan (contents : Bytes) :
    (ofScan p).writeCallback contents = ofScan (Lines.feed '\n' acceptLine p contents) := by
  show contents.foldl writeByte (ofScan p) = _
  induction contents generalizing p with
  | nil => rfl
  | cons c contents ih => rw [List.foldl_cons, writeByte_ofScan, ih]; rfl

theorem writeCallbacks_ofScan (chunks : List Bytes) :
    chunks.foldl writeCallback (ofScan p) = ofScan (Lines.feed '\n' acceptLine p chunks.flatten) := by
  rw [← Lines.feed_chunks]
  induction chunks generalizing p with
  | nil => rfl
  | cons c chunks ih => rw [List.foldl_cons, List.foldl_cons, writeCallback_ofScan, ih]

end Transfer

open Transfer

/-- The scanner at the start of a transfer. -/
def scanned (received : Bytes) : Bytes × ServerSentEvent × List ServerSentEvent :=
  Lines.feed '\n' acceptLine ([], {}, []) received

theorem deliver_eq (sizes : List ℕ) (received : Bytes) : deliver sizes received =
    (scanned received).2.2 ++ if (scanned received).1 = [] then [] else [(scanned received).2.1] := by
  have hstart : ({} : Transfer) = ofScan ([], {}, []) := rfl
  rw [deliver, hstart, writeCallbacks_ofScan, flatten_cutAt, ← scanned, handleFinishedResponse]
  by_cases hrest : (scanned received).1 = [] <;> simp [ofScan, hrest]

variable {line : Bytes}

theorem acceptLine_snd {s : ServerSentEvent × List ServerSentEvent} (h : dropCr line ≠ []) : (acceptLine s line).2 = s.2 := by
  have hparse : (parseSseLine (dropCr line) s.1).1 = false := by
    unfold parseSseLine
    rw [if_neg h]
    split
    · rfl
    · split
      · rfl
      · split <;> rfl
  unfold acceptLine
  split
  · rfl
  · rename_i hend
    rw [hend] at hparse
    cases hparse

/-! ## One event -/

variable {μ : Type} {S : Serializer μ} {m : EventMessage μ} {ms : List (EventMessage μ)} {n : ℕ}

def eventLines (S : Serializer μ) (m : EventMessage μ) : List Bytes :=
  ["event: message".toList] ++ (if m.eventId = [] then [] else ["id: ".toList ++ m.eventId]) ++
    ["data: ".toList ++ S.text m.message]

theorem createEventData_eq : createEventData S m = Lines.join '\n' (eventLines S m) ++ ['\n'] := by
  unfold createEventData eventLines Lines.join
  split <;> simp

theorem createEventData_join : createEventData S m = Lines.join '\n' (eventLines S m ++ [[]]) := by
  rw [createEventData_eq, Lines.join, Lines.join, List.flatMap_append]
  rfl

theorem no_lf_eventLines (hid : '\n' ∉ m.eventId) : ∀ line ∈ eventLines S m ++ [[]], '\n' ∉ line := by
  have hevent : '\n' ∉ "event: message".toList := by decide
  have hidLine : '\n' ∉ "id: ".toList ++ m.eventId := by simpa using hid
  have hdata : '\n' ∉ "data: ".toList ++ S.text m.message := by simpa using S.no_lf m.message
  unfold eventLines
  intro line hline
  simp only [List.mem_append, List.mem_singleton] at hline
  rcases hline with ((rfl | hline) | rfl) | rfl
  · exact hevent
  · split at hline
    · cases hline
    rwa [List.mem_singleton.mp hline]
  · exact hdata
  · exact List.not_mem_nil

theorem dropCr_append {a b : Bytes} (hb : b ≠ []) : dropCr (a ++ b) = a ++ dropCr b := by
  unfold dropCr
  rw [List.getLast?_append_of_ne_nil _ hb]
  split
  · exact List.dropLast_append_of_ne_nil hb
  · rfl

theorem dropCr_of_not_mem (h : '\r' ∉ line) : dropCr line = line := by
  rw [dropCr, if_neg]
  exact fun hlast => h (List.mem_of_getLast? hlast)

def receivedId (id : Bytes) : Bytes := if id = [] then [] else trimLeading (' ' :: dropCr id)

def receivedEvent (S : Serializer μ) (m : EventMessage μ) : ServerSentEvent :=
  { id := receivedId m.eventId, data := S.text m.message }

theorem parse_id (rest : Bytes) (sse : ServerSentEvent) :
    parseSseLine ("id: ".toList ++ rest) sse = (false, { sse with id := trimLeading (' ' :: rest) }) := by
  simp [parseSseLine]

theorem parse_data (rest : Bytes) (sse : ServerSentEvent) :
    parseSseLine ("data: ".toList ++ rest) sse = (false, { sse with data := sse.data ++ rest ++ ['\n'] }) := by
  simp [parseSseLine]

theorem parse_end (data : Bytes) (sse : ServerSentEvent) (h : sse.event ≠ []) :
    parseSseLine [] { sse with data := data ++ ['\n'] } = (true, { sse with data }) := by
  simp [parseSseLine, h]

theorem accept_eventLines (delivered : List ServerSentEvent) :
    (eventLines S m ++ [[]]).foldl acceptLine ({}, delivered) = ({}, delivered ++ [receivedEvent S m]) := by
  have hevent : acceptLine ({}, delivered) "event: message".toList = ({}, delivered) := rfl
  have hid : (if m.eventId = [] then [] else ["id: ".toList ++ m.eventId]).foldl acceptLine ({}, delivered) =
      ({ id := receivedId m.eventId }, delivered) := by
    split
    · rename_i hnil
      simp [receivedId, hnil]
    · rename_i hne
      simp only [List.foldl_cons, List.foldl_nil, acceptLine, dropCr_append hne, parse_id, receivedId, hne, if_false]
  have hdata : acceptLine ({ id := receivedId m.eventId }, delivered) ("data: ".toList ++ S.text m.message) =
      ({ id := receivedId m.eventId, data := S.text m.message ++ ['\n'] }, delivered) := by
    rw [acceptLine, dropCr_of_not_mem (by simpa using S.no_cr m.message), parse_data]
    rfl
  have hend : acceptLine ({ id := receivedId m.eventId, data := S.text m.message ++ ['\n'] }, delivered) [] =
      ({}, delivered ++ [receivedEvent S m]) := by
    have hparse := parse_end (S.text m.message) { id := receivedId m.eventId } (by simp)
    simp only [acceptLine, dropCr, List.getLast?_nil, reduceCtorEq, if_false, hparse]
    rfl
  simp only [eventLines, List.foldl_append, List.foldl_cons, List.foldl_nil, hevent, hid, hdata, hend]

/-! ## Ids -/

theorem trimLeading_cases (id : Bytes) : trimLeading (' ' :: id) = ' ' :: id ∧ (∀ c ∈ id, c = ' ' ∨ c = '\t') ∨
      trimLeading (' ' :: id) = id.dropWhile (fun c => c = ' ' || c = '\t') := by
  unfold trimLeading
  have hdrop : (' ' :: id).dropWhile (fun c => c = ' ' || c = '\t') = id.dropWhile (fun c => c = ' ' || c = '\t') := by simp
  rw [hdrop]
  cases h : id.dropWhile (fun c => c = ' ' || c = '\t') with
  | nil => exact .inl ⟨rfl, fun c hc => by simpa using List.dropWhile_eq_nil_iff.mp h c hc⟩
  | cons c rest => exact .inr rfl

theorem receivedId_of_cr {id : Bytes} (hcr : id.getLast? = some '\r') : receivedId id ≠ id := by
  have hne : id ≠ [] := by
    rintro rfl
    cases hcr
  obtain ⟨front, rfl⟩ : ∃ front, id = front ++ ['\r'] := List.getLast?_eq_some_iff.mp hcr
  have hfront : dropCr (front ++ ['\r']) = front := by simp [dropCr]
  rw [receivedId, if_neg hne, hfront]
  intro heq
  rcases trimLeading_cases front with ⟨hall, hblank⟩ | hdrop
  · -- all blank, but the id ends in a carriage return
    rw [hall] at heq
    have hmem : '\r' ∈ ' ' :: front := heq ▸ (by simp)
    rcases List.mem_cons.mp hmem with h | h
    · exact absurd h (by decide)
    exact absurd (hblank _ h) (by decide)
  · rw [hdrop] at heq
    have hlen := (List.dropWhile_suffix (l := front) fun c => c = ' ' || c = '\t').length_le
    rw [heq] at hlen
    simp at hlen

theorem receivedId_of_blank {c : Char} {rest : Bytes} (hc : c = ' ' ∨ c = '\t') (hcr : (c :: rest).getLast? ≠ some '\r') :
    receivedId (c :: rest) ≠ c :: rest := by
  rw [receivedId, if_neg (List.cons_ne_nil c rest), dropCr, if_neg hcr]
  intro heq
  rcases trimLeading_cases (c :: rest) with ⟨hall, -⟩ | hdrop
  · rw [hall] at heq
    simpa using congrArg List.length heq
  · have hskip : (c :: rest).dropWhile (fun c => c = ' ' || c = '\t') = rest.dropWhile fun c => c = ' ' || c = '\t' := by
      rcases hc with rfl | rfl <;> simp
    rw [hdrop, hskip] at heq
    have hlen := (List.dropWhile_suffix (l := rest) fun c => c = ' ' || c = '\t').length_le
    rw [heq] at hlen
    simp at hlen

theorem receivedId_eq_iff {id : Bytes} (hid : '\n' ∉ id) : receivedId id = id ↔ IdKept id := by
  cases id with
  | nil => exact iff_of_true rfl ⟨hid, by simp, by simp, by simp⟩
  | cons c rest =>
    constructor
    · intro heq
      have hcr : (c :: rest).getLast? ≠ some '\r' := fun hcr => receivedId_of_cr hcr heq
      refine ⟨hid, ?_, ?_, hcr⟩
      · intro hblank
        exact receivedId_of_blank (.inl (by simpa using hblank)) hcr heq
      · intro hblank
        exact receivedId_of_blank (.inr (by simpa using hblank)) hcr heq
    · rintro ⟨-, hspace, htab, hcr⟩
      have hc : c ≠ ' ' ∧ c ≠ '\t' := by simpa using And.intro hspace htab
      rw [receivedId, if_neg (List.cons_ne_nil c rest), dropCr, if_neg hcr]
      simp [trimLeading, hc.1, hc.2]

/-! ## The whole stream -/

theorem feed_createEventData (hid : '\n' ∉ m.eventId) (delivered : List ServerSentEvent) :
    Lines.feed '\n' acceptLine ([], {}, delivered) (createEventData S m) = ([], {}, delivered ++ [receivedEvent S m]) := by
  rw [createEventData_join, Lines.feed_join (no_lf_eventLines hid), accept_eventLines]

theorem dropCr_ne_nil (h : line ∈ eventLines S m) : dropCr line ≠ [] := by
  have hlong : ∀ a b : Char, ∀ rest : Bytes, dropCr (a :: b :: rest) ≠ [] := by
    intro a b rest
    unfold dropCr
    split <;> simp
  unfold eventLines at h
  simp only [List.mem_append, List.mem_singleton] at h
  rcases h with (rfl | h) | rfl
  · decide
  · split at h
    · cases h
    rw [List.mem_singleton.mp h]
    exact hlong 'i' 'd' (": ".toList ++ m.eventId)
  · exact hlong 'd' 'a' ("ta: ".toList ++ S.text m.message)

theorem feed_cut (hid : '\n' ∉ m.eventId) (hn : n < (createEventData S m).length) (delivered : List ServerSentEvent) :
    (Lines.feed '\n' acceptLine ([], {}, delivered) ((createEventData S m).take n)).2.2 = delivered := by
  rw [createEventData_eq] at hn ⊢
  have hprefix : (Lines.join '\n' (eventLines S m) ++ ['\n']).take n <+: Lines.join '\n' (eventLines S m) := by
    have hlen : n ≤ (Lines.join '\n' (eventLines S m)).length := by
      rw [List.length_append, List.length_singleton] at hn
      omega
    rw [List.take_append_of_le_length hlen]
    exact List.take_prefix ..
  obtain ⟨done, hdone, hfeed⟩ := Lines.feed_prefix acceptLine ({}, delivered)
    (fun line hline => no_lf_eventLines hid line (List.mem_append_left _ hline)) hprefix
  rw [hfeed]
  -- no line of the part that arrived is empty
  have hall : ∀ line ∈ done, dropCr line ≠ [] := fun line hline => dropCr_ne_nil (hdone.subset hline)
  clear hfeed hdone hprefix hn
  generalize ({} : ServerSentEvent) = sse
  induction done generalizing sse with
  | nil => rfl
  | cons line done ih =>
    have hline := acceptLine_snd (s := (sse, delivered)) (hall line (by simp))
    rw [List.foldl_cons, ← Prod.mk.eta (p := acceptLine (sse, delivered) line), hline]
    exact ih (fun l hl => hall l (by simp [hl])) _

theorem scan_stream_take (hids : ∀ m ∈ ms, '\n' ∉ m.eventId) (delivered : List ServerSentEvent) :
    (Lines.feed '\n' acceptLine ([], {}, delivered) ((eventStream S ms).take n)).2.2 =
      delivered ++ (completed S n ms).map (receivedEvent S) := by
  induction ms generalizing n delivered with
  | nil => simp [eventStream, completed]
  | cons m ms ih =>
    have hsplit : eventStream S (m :: ms) = createEventData S m ++ eventStream S ms := List.flatMap_cons
    have hid := hids m (by simp)
    rw [hsplit, completed]
    split
    · rename_i hle
      have htake : (createEventData S m ++ eventStream S ms).take n =
          createEventData S m ++ (eventStream S ms).take (n - (createEventData S m).length) := by
        rw [List.take_append, List.take_of_length_le hle]
      rw [htake, Lines.feed_append, feed_createEventData hid, ih (fun m hm => hids m (by simp [hm]))]
      simp
    · rename_i hlt
      rw [List.take_append_of_le_length (by omega), feed_cut hid (by omega)]
      simp

theorem no_lf_trimLeading (h : '\n' ∉ line) : '\n' ∉ trimLeading line := by
  unfold trimLeading
  split
  · exact h
  · exact fun hmem => h ((List.dropWhile_suffix _).subset hmem)

theorem no_lf_parseSseLine {sse : ServerSentEvent} (hline : '\n' ∉ line) (hid : '\n' ∉ sse.id) :
    '\n' ∉ (parseSseLine line sse).2.id := by
  unfold parseSseLine
  split
  · dsimp only
    split <;> split <;> exact hid
  · split
    · exact hid
    · split
      · exact no_lf_trimLeading fun hmem => hline (List.mem_of_mem_drop hmem)
      · split <;> exact hid

/-- No line feed gets into an id that the scanner keeps. -/
def NoLf (s : ServerSentEvent × List ServerSentEvent) : Prop :=
  '\n' ∉ s.1.id ∧ ∀ sse ∈ s.2, '\n' ∉ sse.id

theorem noLf_acceptLine {s : ServerSentEvent × List ServerSentEvent} (hline : '\n' ∉ line) (hs : NoLf s) :
    NoLf (acceptLine s line) := by
  have hcr : '\n' ∉ dropCr line := by
    unfold dropCr
    split
    · exact fun hmem => hline (List.dropLast_subset _ hmem)
    · exact hline
  have hparsed := no_lf_parseSseLine hcr hs.1
  unfold acceptLine
  split
  · rename_i hparse
    rw [hparse] at hparsed
    exact ⟨hparsed, hs.2⟩
  · rename_i hparse
    rw [hparse] at hparsed
    refine ⟨List.not_mem_nil, fun sse hsse => ?_⟩
    rcases List.mem_append.mp hsse with hold | hnew
    · exact hs.2 sse hold
    · rwa [List.mem_singleton.mp hnew]

theorem no_lf_deliver (sizes : List ℕ) (received : Bytes) : ∀ sse ∈ deliver sizes received, '\n' ∉ sse.id := by
  have hscan : NoLf (scanned received).2 :=
    Lines.feed_invariant ⟨List.not_mem_nil, by simp⟩ fun _ _ hline hs => noLf_acceptLine hline hs
  intro sse hsse
  rw [deliver_eq] at hsse
  rcases List.mem_append.mp hsse with hdelivered | hrest
  · exact hscan.2 sse hdelivered
  · split at hrest
    · cases hrest
    rw [List.mem_singleton.mp hrest]
    exact hscan.1

/-! ## Lossless -/

/-- With single-line ids, exactly the complete events are delivered if and only if their ids are of the kind that
arrives unchanged and the stream is not cut off inside a line. -/
theorem deliver_eq_completed_iff (hids : ∀ m ∈ ms, '\n' ∉ m.eventId) (sizes : List ℕ) :
    deliver sizes ((eventStream S ms).take n) = (completed S n ms).map (sentEvent S) ↔
      (∀ m ∈ completed S n ms, IdKept m.eventId) ∧ AtLineEnd ((eventStream S ms).take n) := by
  have hscan : (scanned ((eventStream S ms).take n)).2.2 = (completed S n ms).map (receivedEvent S) := by
    rw [scanned, scan_stream_take hids, List.nil_append]
  have hend : (scanned ((eventStream S ms).take n)).1 = [] ↔ AtLineEnd ((eventStream S ms).take n) := Lines.feed_fst_eq_nil
  have hmap : (completed S n ms).map (receivedEvent S) = (completed S n ms).map (sentEvent S) ↔
      ∀ m ∈ completed S n ms, IdKept m.eventId := by
    rw [List.map_inj_left]
    refine forall₂_congr fun m hm => ?_
    rw [← receivedId_eq_iff (hids m (mem_of_mem_completed hm))]
    constructor
    · intro heq
      exact congrArg ServerSentEvent.id heq
    · intro hid
      exact congrArg (fun id => ({ id, data := S.text m.message } : ServerSentEvent)) hid
  rw [deliver_eq, hscan, ← hmap, ← hend]
  by_cases hrest : (scanned ((eventStream S ms).take n)).1 = []
  · simp [hrest]
  · refine iff_of_false (fun heq => ?_) (by simp [hrest])
    have hlen := congrArg List.length heq
    simp [hrest] at hlen

/-- Every way to cut the stream into chunks and every place to cut it off: with ids of one line the client gets exactly
the complete events under the condition above, and an id of several lines never arrives. -/
theorem sse_lossless_iff (S : Serializer μ) (ms : List (EventMessage μ)) (n : ℕ) (sizes : List ℕ) :
    let received := (eventStream S ms).take n
    let lossless := deliver sizes received = (completed S n ms).map (sentEvent S)
    ((∀ m ∈ ms, '\n' ∉ m.eventId) → (lossless ↔ (∀ m ∈ completed S n ms, IdKept m.eventId) ∧ AtLineEnd received)) ∧
      (lossless → ∀ m ∈ completed S n ms, '\n' ∉ m.eventId) := by
  refine ⟨fun hids => deliver_eq_completed_iff hids sizes, fun h m hm => ?_⟩
  have hmem : sentEvent S m ∈ deliver sizes ((eventStream S ms).take n) := h ▸ List.mem_map_of_mem hm
  exact no_lf_deliver _ _ _ hmem

/-- A stream that is cut off inside the first line of an event: an event is delivered that the server never completed. -/
theorem partial_event_delivered : ¬ ∀ (S : Serializer Unit) (ms : List (EventMessage Unit)) (n : ℕ) (sizes : List ℕ),
    deliver sizes ((eventStream S ms).take n) = (completed S n ms).map (sentEvent S) := by
  intro h
  have hcut := h ⟨fun _ => "\x7b\"id\":1,\"jsonrpc\":\"2.0\",\"result\":\x7b\x7d\x7d".toList, by decide, by decide⟩ [⟨(), []⟩] 10 []
  exact absurd hcut (by decide)

end AgentProtocol.Mcp
