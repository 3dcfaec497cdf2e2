-- SUMMARY: What the HTTP server writes on a connection for a sequence of replies and event streams, and when a receiver reads exactly these responses.
import AgentProtocol.Lib.Http

/-!
# Responses on a connection

A plain reply is written with its length. A response with `transfer-encoding: chunked` starts an event stream, and from
then on the connection is marked: `BuildchunkedResponse` formats everything that is sent on it, so a plain reply after
an event stream gets neither a length nor the chunked encoding in its fields.

Fields are listed in the order in which the map of the source is walked.
-/

namespace AgentProtocol.Mcp

open Lib Lib.Http

/-! ## Formatting -/

/-- `Content-Length`, as the server spells it. -/
def contentLengthName : Octets := ['C', 'o', 'n', 't', 'e', 'n', 't', '-', 'L', 'e', 'n', 'g', 't', 'h']

inductive HttpSendType where
  | httpResponse
  | httpResponseStart
  | httpResponseBody
  deriving DecidableEq

structure HttpResponse where
  statusCode : ℕ := 200
  statusText : Octets := ['O', 'K']
  type : HttpSendType := .httpResponse
  headers : List (Octets × Octets) := []
  body : Octets := []

namespace HttpResponse

/-- The status line and the fields. -/
def headerLines (r : HttpResponse) : Octets :=
  version ++ (Nat.toDigits 10 r.statusCode ++ ' ' :: r.statusText) ++
    (crlf ++ r.headers.flatMap fun h => (h.1 ++ colon ++ h.2) ++ crlf)

def buildHttpResponse (r : HttpResponse) : Octets :=
  (if r.type = .httpResponse ∨ r.type = .httpResponseStart then
    r.headerLines ++ (contentLengthName ++ colon ++ Nat.toDigits 10 r.body.length ++ crlf) ++ crlf
  else []) ++
    if r.type = .httpResponse ∨ r.type = .httpResponseBody then r.body else []

/-- `BuildchunkedResponse`: the bytes, and the mark of the connection. -/
def buildchunkedResponse (r : HttpResponse) (chunkedEnabled : Bool) : Octets × Bool :=
  let chunkedEnabled :=
    match r.headers.lookup transferEncoding with
    | some value => decide (chunkedCoding <:+: value)
    | none => chunkedEnabled
  ((if r.type = .httpResponse ∨ r.type = .httpResponseStart then r.headerLines ++ crlf else []) ++
    (if chunkedEnabled = true ∧ (r.type = .httpResponseBody ∨ r.type = .httpResponse ∧ 0 < r.body.length) then
      Nat.toDigits 16 r.body.length ++ crlf ++ (r.body ++ crlf)
    else []), chunkedEnabled)

/-- `SendResponse` on a connection with the mark `sseChunked`: the bytes written, and the mark. -/
def send (sseChunked : Bool) (r : HttpResponse) : Octets × Bool :=
  let isChunked :=
    match r.headers.lookup transferEncoding with
    | some value => decide (chunkedCoding <:+: value) || sseChunked
    | none => sseChunked
  if isChunked then r.buildchunkedResponse sseChunked else (r.buildHttpResponse, sseChunked)

end HttpResponse

/-! ## What is queued -/

/-- A field that says nothing of the length of the body. -/
structure PlainField extends Http.Field where
  not_length : name.map Char.toLower ≠ contentLength
  not_encoding : name.map Char.toLower ≠ transferEncoding

structure Status where
  code : ℕ := 200
  text : Octets := ['O', 'K']
  code_ok : 200 ≤ code ∧ code < 1000 ∧ code ≠ 204 ∧ code ≠ 304 := by decide
  text_ok : '\r' ∉ text := by decide

/-- A reply that is written at once: JSON, an error, or an acknowledgement without a body. -/
structure PlainReply where
  status : Status
  fields : List PlainField
  body : Octets

/-- What the server writes on a connection. `direct` are the replies it gives itself, which do not pass
`SendResponse`; the others are queued. -/
inductive Item where
  | reply (reply : PlainReply)
  | start (status : Status) (before after : List PlainField)
  | chunk (body : Octets) (ne : body ≠ [])
  | finish
  | direct (reply : PlainReply)

def pairs (fields : List PlainField) : List (Octets × Octets) := fields.map fun f => f.pair

namespace Item

def replyResponse (r : PlainReply) : HttpResponse :=
  { statusCode := r.status.code, statusText := r.status.text, headers := pairs r.fields, body := r.body }

def startResponse (status : Status) (before after : List PlainField) : HttpResponse :=
  { statusCode := status.code, statusText := status.text, type := .httpResponseStart
    headers := pairs before ++ (transferEncoding, chunkedCoding) :: pairs after }

def bodyResponse (body : Octets) : HttpResponse := { type := .httpResponseBody, headers := [], body }

/-- The bytes of an item, and the mark of the connection after it. -/
def write (sseChunked : Bool) : Item → Octets × Bool
  | .reply r => (replyResponse r).send sseChunked
  | .start status before after => (startResponse status before after).send sseChunked
  | .chunk body _ => (bodyResponse body).send sseChunked
  | .finish => (bodyResponse []).send sseChunked
  | .direct r => ((replyResponse r).buildHttpResponse, sseChunked)

end Item

/-- The bytes written on a connection. -/
def wireFrom : Bool → List Item → Octets
  | _, [] => []
  | sseChunked, i :: is => (i.write sseChunked).1 ++ wireFrom (i.write sseChunked).2 is

def wire (is : List Item) : Octets := wireFrom false is

/-! ## What is meant -/

def replyHead (r : PlainReply) : Head :=
  ⟨r.status.code, r.status.text, pairs r.fields ++ [(contentLengthName, Nat.toDigits 10 r.body.length)]⟩

/-- A reply as a response of its own. -/
def replyMessage (r : PlainReply) : Message := ⟨replyHead r, .length r.body.length, r.body, true⟩

def startHead (status : Status) (before after : List PlainField) : Head :=
  ⟨status.code, status.text, pairs before ++ (transferEncoding, chunkedCoding) :: pairs after⟩

/-- An event stream that has just begun. -/
def startMessage (status : Status) (before after : List PlainField) : Message :=
  ⟨startHead status before after, .chunked, [], false⟩

/-- The responses that the items make up; `o` is the event stream in progress. None where a chunk belongs to no stream
or a response starts inside one. -/
def assembleFrom : Option Message → List Item → Option (List Message)
  | o, [] => some o.toList
  | none, .reply r :: is => (assembleFrom none is).map (replyMessage r :: ·)
  | none, .direct r :: is => (assembleFrom none is).map (replyMessage r :: ·)
  | none, .start status before after :: is => assembleFrom (some (startMessage status before after)) is
  | some m, .chunk body _ :: is => assembleFrom (some { m with body := m.body ++ body }) is
  | some m, .finish :: is => (assembleFrom none is).map ({ m with complete := true } :: ·)
  | _, _ => none

def assemble (is : List Item) : Option (List Message) := assembleFrom none is

/-- A receiver reads exactly the responses that the items make up. -/
def ReadsBack (is : List Item) : Prop := ∃ ms, assemble is = some ms ∧ parse (wire is) = some ms

/-- Replies and event streams do not overlap, chunks and last chunks stand inside event streams, and no reply is queued
after an event stream has begun. -/
def Framed : Bool → Bool → List Item → Prop
  | _, _, [] => True
  | marked, inside, .reply _ :: is => marked = false ∧ inside = false ∧ Framed marked inside is
  | marked, inside, .direct _ :: is => inside = false ∧ Framed marked inside is
  | _, inside, .start .. :: is => inside = false ∧ Framed true true is
  | marked, inside, .chunk .. :: is => inside = true ∧ Framed marked inside is
  | marked, inside, .finish :: is => inside = true ∧ Framed marked false is

/-! ## Fields -/

theorem blank_digitChar : ∀ d < 10, isBlank d.digitChar = false := by decide

/-- `Content-Length`. -/
def lengthField (n : ℕ) : Http.Field where
  name := contentLengthName
  value := Nat.toDigits 10 n
  name_ne := by simp [contentLengthName]
  name_ok := by simp [contentLengthName]
  value_ok := cr_notMem_toDigits (by decide) (by decide) n
  value_trim := by
    refine trim_of_no_blank fun c hc => ?_
    obtain ⟨d, hd, rfl⟩ := mem_toDigits (by decide) hc
    exact blank_digitChar d hd

/-- `transfer-encoding: chunked`. -/
def chunkedField : Http.Field where
  name := transferEncoding
  value := chunkedCoding
  name_ne := by simp [transferEncoding]
  name_ok := by simp [transferEncoding]
  value_ok := by simp [chunkedCoding]
  value_trim := by
    refine trim_of_no_blank fun c hc => ?_
    revert c
    simp [chunkedCoding, isBlank]

def fieldsOf (fields : List PlainField) : List Http.Field := fields.map (·.toField)

theorem map_pair_fieldsOf (fields : List PlainField) : (fieldsOf fields).map Field.pair = pairs fields := by
  simp [fieldsOf, pairs]

theorem flatMap_pair (fields : List Http.Field) :
    ((fields.map Field.pair).flatMap fun h => (h.1 ++ colon ++ h.2) ++ crlf) = fieldLines fields := by
  rw [List.flatMap_map]
  rfl

theorem lookup_pairs (fields : List PlainField) : (pairs fields).lookup transferEncoding = none := by
  rw [List.lookup_eq_none_iff]
  intro p hp
  obtain ⟨f, -, rfl⟩ := List.mem_map.mp hp
  rw [bne_iff_ne]
  intro heq
  refine f.not_encoding ?_
  have hname : f.name = transferEncoding := heq.symm
  rw [hname]
  decide

variable {name : Octets} (hname : name = contentLength ∨ name = transferEncoding) (fields : List PlainField)
include hname

theorem find?_pairs :
    (pairs fields).find? (fun f => decide (f.1.map Char.toLower = name)) = none := by
  rw [List.find?_eq_none]
  intro p hp
  obtain ⟨f, -, rfl⟩ := List.mem_map.mp hp
  rcases hname with rfl | rfl
  · exact fun h => f.not_length (of_decide_eq_true h)
  · exact fun h => f.not_encoding (of_decide_eq_true h)

omit hname in
theorem hasBody (status : Status) : HasBody status.code := by
  have := status.code_ok
  exact ⟨by omega, by omega, by omega⟩

theorem fieldValue_append (later : List (Octets × Octets)) : fieldValue name (pairs fields ++ later) = fieldValue name later := by
  rw [fieldValue, List.find?_append, find?_pairs hname, Option.none_or, fieldValue]

omit hname

variable (r : PlainReply)

theorem framing_replyHead : framing (replyHead r) = some (.length r.body.length) := by
  refine framing_length (hasBody r.status) ?_ ?_ (readDigits_toDigits (by decide) (by decide) r.body.length)
  · exact fieldValue_append (.inr rfl) r.fields _
  · exact fieldValue_append (.inl rfl) r.fields _

theorem framing_startHead (status : Status) (before after : List PlainField) :
    framing (startHead status before after) = some .chunked :=
  framing_chunked (hasBody status) (fieldValue_append (.inr rfl) before ((transferEncoding, chunkedCoding) :: pairs after)) rfl

/-- A reply written without its length. -/
def unframedHead (r : PlainReply) : Head := ⟨r.status.code, r.status.text, pairs r.fields⟩

theorem framing_unframedHead : framing (unframedHead r) = some .untilClose := by
  have hte := fieldValue_append (.inr rfl) r.fields []
  have hcl := fieldValue_append (.inl rfl) r.fields []
  rw [List.append_nil] at hte hcl
  exact framing_untilClose (hasBody r.status) hte hcl

/-! ## The bytes of an item -/

/-- A head as it is written. -/
def headOctets (status : Status) (fields : List Http.Field) : Octets :=
  version ++ (Nat.toDigits 10 status.code ++ ' ' :: status.text) ++ (crlf ++ (fieldLines fields ++ crlf))

variable (status : Status) (fields : List Http.Field) (rest : Octets)

theorem readHead_headOctets :
    readHead (headOctets status fields ++ rest) = some (⟨status.code, status.text, fields.map Field.pair⟩, rest) := by
  have hcode : 100 ≤ status.code ∧ status.code < 1000 := by
    have := status.code_ok
    omega
  have hassoc : headOctets status fields ++ rest =
      version ++ (Nat.toDigits 10 status.code ++ ' ' :: status.text) ++ (crlf ++ (fieldLines fields ++ (crlf ++ rest))) := by
    simp [headOctets]
  rw [hassoc]
  exact readHead_ok hcode status.text_ok fields

theorem headOctets_ne_nil : headOctets status fields ++ rest ≠ [] := by
  simp [headOctets]

theorem headerLines_append {r : HttpResponse} {fields : List Http.Field} (h : r.headers = fields.map Field.pair) (rest : Octets) :
    r.headerLines ++ rest =
      version ++ (Nat.toDigits 10 r.statusCode ++ ' ' :: r.statusText) ++ (crlf ++ (fieldLines fields ++ rest)) := by
  rw [HttpResponse.headerLines, h, flatMap_pair]
  simp

theorem buildHttpResponse_reply : (Item.replyResponse r).buildHttpResponse =
    headOctets r.status (fieldsOf r.fields ++ [lengthField r.body.length]) ++ r.body := by
  have hheaders : (Item.replyResponse r).headers = (fieldsOf r.fields).map Field.pair := (map_pair_fieldsOf r.fields).symm
  have htype : (Item.replyResponse r).type = .httpResponse := rfl
  have hbody : (Item.replyResponse r).body = r.body := rfl
  rw [HttpResponse.buildHttpResponse, if_pos (.inl htype), if_pos (.inl htype), List.append_assoc, headerLines_append hheaders, hbody]
  simp [headOctets, fieldLines, lengthField, Field.line, Item.replyResponse]

theorem send_reply : (Item.replyResponse r).send false = ((Item.replyResponse r).buildHttpResponse, false) := by
  have hlookup : (Item.replyResponse r).headers.lookup transferEncoding = none := lookup_pairs r.fields
  rw [HttpResponse.send, hlookup]
  rfl

theorem send_reply_marked : (Item.replyResponse r).send true =
    (headOctets r.status (fieldsOf r.fields) ++ (if 0 < r.body.length then chunkOctets r.body else []), true) := by
  have hheaders : (Item.replyResponse r).headers = (fieldsOf r.fields).map Field.pair := (map_pair_fieldsOf r.fields).symm
  have hlookup : (Item.replyResponse r).headers.lookup transferEncoding = none := lookup_pairs r.fields
  have htype : (Item.replyResponse r).type = .httpResponse := rfl
  have hbody : (Item.replyResponse r).body = r.body := rfl
  rw [HttpResponse.send, hlookup]
  simp only [if_true, HttpResponse.buildchunkedResponse, hlookup, htype, true_or, headerLines_append hheaders, hbody, true_and,
    reduceCtorEq, false_or]
  simp [headOctets, chunkOctets, Item.replyResponse]

theorem send_start (sseChunked : Bool) (status : Status) (before after : List PlainField) :
    (Item.startResponse status before after).send sseChunked =
      (headOctets status (fieldsOf before ++ chunkedField :: fieldsOf after), true) := by
  have hheaders : (Item.startResponse status before after).headers =
      (fieldsOf before ++ chunkedField :: fieldsOf after).map Field.pair := by
    rw [List.map_append, List.map_cons, map_pair_fieldsOf, map_pair_fieldsOf]
    rfl
  have hlookup : (Item.startResponse status before after).headers.lookup transferEncoding = some chunkedCoding := by
    rw [Item.startResponse, List.lookup_append, lookup_pairs]
    simp
  have htype : (Item.startResponse status before after).type = .httpResponseStart := rfl
  rw [HttpResponse.send, hlookup]
  simp only [List.infix_rfl, decide_true, Bool.true_or, if_true, HttpResponse.buildchunkedResponse, hlookup, htype, or_true,
    headerLines_append hheaders, reduceCtorEq, false_and, or_false, and_false, if_false, List.append_nil]
  rfl

theorem send_body (body : Octets) : (Item.bodyResponse body).send true = (chunkOctets body, true) := by
  simp [HttpResponse.send, Item.bodyResponse, HttpResponse.buildchunkedResponse, chunkOctets]

/-! ## Reading an item -/

variable {fuel : ℕ} {rest : Octets}

theorem parseFrom_reply (r : PlainReply) : parseFrom (fuel + 1) none ((Item.replyResponse r).buildHttpResponse ++ rest) =
      (parseFrom fuel none rest).map (replyMessage r :: ·) := by
  have hfields : (fieldsOf r.fields ++ [lengthField r.body.length]).map Field.pair = (replyHead r).fields := by
    rw [List.map_append, map_pair_fieldsOf]
    rfl
  have hhead : readHead (headOctets r.status (fieldsOf r.fields ++ [lengthField r.body.length]) ++ (r.body ++ rest)) =
      some (replyHead r, r.body ++ rest) := by
    rw [readHead_headOctets, hfields]
    rfl
  rw [buildHttpResponse_reply, List.append_assoc]
  exact parseFrom_length (headOctets_ne_nil _ _ _) hhead (framing_replyHead r)

theorem parseFrom_reply_marked (fuel : ℕ) (r : PlainReply) (rest : Octets) : ∃ body,
    parseFrom (fuel + 1) none (((Item.replyResponse r).send true).1 ++ rest) = some [⟨unframedHead r, .untilClose, body, false⟩] := by
  rw [send_reply_marked, List.append_assoc]
  have hhead := readHead_headOctets r.status (fieldsOf r.fields) ((if 0 < r.body.length then chunkOctets r.body else []) ++ rest)
  rw [map_pair_fieldsOf] at hhead
  exact ⟨_, parseFrom_untilClose (headOctets_ne_nil _ _ _) hhead (framing_unframedHead r)⟩

theorem parseFrom_startResponse (sseChunked : Bool) (status : Status) (before after : List PlainField) :
    parseFrom (fuel + 1) none (((Item.startResponse status before after).send sseChunked).1 ++ rest) =
      parseFrom fuel (some (startMessage status before after)) rest := by
  have hfields : (fieldsOf before ++ chunkedField :: fieldsOf after).map Field.pair = (startHead status before after).fields := by
    rw [List.map_append, List.map_cons, map_pair_fieldsOf, map_pair_fieldsOf]
    rfl
  have hhead : readHead (headOctets status (fieldsOf before ++ chunkedField :: fieldsOf after) ++ rest) =
      some (startHead status before after, rest) := by
    rw [readHead_headOctets, hfields]
    rfl
  rw [send_start]
  exact parseFrom_start (headOctets_ne_nil _ _ _) hhead (framing_startHead status before after)

/-! ## Sequences -/

/-- Reading on from a response in progress gives what the items make up. -/
def ReadsFrom (fuel : ℕ) (marked : Bool) (o : Option Message) (is : List Item) : Prop :=
  ∃ ms, assembleFrom o is = some ms ∧ parseFrom fuel o (wireFrom marked is) = some ms

theorem exists_map_cons_iff (m : Message) (a b : Option (List Message)) :
    (∃ ms, a.map (m :: ·) = some ms ∧ b.map (m :: ·) = some ms) ↔ ∃ ms, a = some ms ∧ b = some ms := by
  constructor
  · rintro ⟨ms, ha, hb⟩
    obtain ⟨as, rfl, rfl⟩ := Option.map_eq_some_iff.mp ha
    obtain ⟨bs, rfl, heq⟩ := Option.map_eq_some_iff.mp hb
    cases heq
    exact ⟨_, rfl, rfl⟩
  · rintro ⟨ms, rfl, rfl⟩
    exact ⟨_, rfl, rfl⟩

theorem exists_fuel {octets : Octets} (hne : octets ≠ []) (hfuel : (octets ++ rest).length ≤ fuel) :
    ∃ f, fuel = f + 1 ∧ rest.length ≤ f := by
  have hpos : 0 < octets.length := List.length_pos_iff.mpr hne
  rw [List.length_append] at hfuel
  exact ⟨fuel - 1, by omega, by omega⟩

theorem not_readsFrom {marked : Bool} {o : Option Message} {is : List Item} (h : assembleFrom o is = none) :
    ¬ ReadsFrom fuel marked o is := by
  rintro ⟨ms, hms, -⟩
  rw [h] at hms
  cases hms

theorem readsFrom_iff (is : List Item) {marked : Bool} {o : Option Message} (hmark : o.isSome = true → marked = true)
    (hfuel : (wireFrom marked is).length ≤ fuel) : ReadsFrom fuel marked o is ↔ Framed marked o.isSome is := by
  induction is generalizing fuel marked o with
  | nil => exact iff_of_true ⟨_, rfl, parseFrom_nil o⟩ trivial
  | cons i is ih =>
    cases o with
    | none =>
      cases i with
      | reply r =>
        cases marked with
        | false =>
          have hwire : wireFrom false (.reply r :: is) = (Item.replyResponse r).buildHttpResponse ++ wireFrom false is := by
            simp only [wireFrom, Item.write, send_reply]
          have hne : (Item.replyResponse r).buildHttpResponse ≠ [] := by
            rw [buildHttpResponse_reply]
            exact headOctets_ne_nil _ _ _
          rw [hwire] at hfuel
          obtain ⟨f, rfl, hf⟩ := exists_fuel hne hfuel
          have hih := ih (o := none) hmark hf
          simp only [ReadsFrom, hwire, parseFrom_reply, assembleFrom, exists_map_cons_iff, Framed, Option.isSome_none, true_and]
          exact hih
        | true =>
          -- the reply is read as one without an end
          refine iff_of_false ?_ fun h => Bool.noConfusion h.1
          rintro ⟨ms, hms, hparse⟩
          have hwire : wireFrom true (.reply r :: is) = ((Item.replyResponse r).send true).1 ++ wireFrom true is := by
            simp only [wireFrom, Item.write, send_reply_marked]
          have hne : ((Item.replyResponse r).send true).1 ≠ [] := by
            rw [send_reply_marked]
            exact headOctets_ne_nil _ _ _
          rw [hwire] at hfuel hparse
          obtain ⟨f, rfl, -⟩ := exists_fuel hne hfuel
          obtain ⟨body, hread⟩ := parseFrom_reply_marked f r (wireFrom true is)
          rw [hread] at hparse
          cases hparse
          obtain ⟨rs, -, heq⟩ := Option.map_eq_some_iff.mp hms
          have hframing : Framing.length r.body.length = .untilClose := congrArg Message.framing (List.cons.inj heq).1
          cases hframing
      | start status before after =>
        have hwire : wireFrom marked (.start status before after :: is) =
            ((Item.startResponse status before after).send marked).1 ++ wireFrom true is := by
          simp only [wireFrom, Item.write, send_start]
        have hne : ((Item.startResponse status before after).send marked).1 ≠ [] := by
          rw [send_start]
          simpa using headOctets_ne_nil status (fieldsOf before ++ chunkedField :: fieldsOf after) []
        rw [hwire] at hfuel
        obtain ⟨f, rfl, hf⟩ := exists_fuel hne hfuel
        have hih := ih (o := some (startMessage status before after)) (fun _ => rfl) hf
        simp only [ReadsFrom, hwire, parseFrom_startResponse, assembleFrom, Framed, Option.isSome_none, true_and]
        exact hih
      | chunk | finish => exact iff_of_false (not_readsFrom rfl) fun h => Bool.noConfusion h.1
      | direct r =>
        have hwire : wireFrom marked (.direct r :: is) = (Item.replyResponse r).buildHttpResponse ++ wireFrom marked is := rfl
        have hne : (Item.replyResponse r).buildHttpResponse ≠ [] := by
          rw [buildHttpResponse_reply]
          exact headOctets_ne_nil _ _ _
        rw [hwire] at hfuel
        obtain ⟨f, rfl, hf⟩ := exists_fuel hne hfuel
        have hih := ih (o := none) hmark hf
        simp only [ReadsFrom, hwire, parseFrom_reply, assembleFrom, exists_map_cons_iff, Framed, Option.isSome_none, true_and]
        exact hih
    | some m =>
      obtain rfl : marked = true := hmark rfl
      cases i with
      | reply | start | direct => exact iff_of_false (not_readsFrom rfl) fun h => Bool.noConfusion h.1
      | chunk body ne =>
        have hwire : wireFrom true (.chunk body ne :: is) = chunkOctets body ++ wireFrom true is := by
          simp only [wireFrom, Item.write, send_body]
        have hne : chunkOctets body ≠ [] := List.append_nil (chunkOctets body) ▸ chunkOctets_append_ne_nil body
        rw [hwire] at hfuel
        obtain ⟨f, rfl, hf⟩ := exists_fuel hne hfuel
        have hih := ih (o := some { m with body := m.body ++ body }) (fun _ => rfl) hf
        simp only [ReadsFrom, hwire, parseFrom_chunk ne, assembleFrom, Framed, Option.isSome_some, true_and]
        exact hih
      | finish =>
        have hwire : wireFrom true (.finish :: is) = chunkOctets [] ++ wireFrom true is := by
          simp only [wireFrom, Item.write, send_body]
        have hne : chunkOctets [] ≠ [] := List.append_nil (chunkOctets []) ▸ chunkOctets_append_ne_nil []
        rw [hwire] at hfuel
        obtain ⟨f, rfl, hf⟩ := exists_fuel hne hfuel
        have hih := ih (o := none) (fun h => Bool.noConfusion h) hf
        simp only [ReadsFrom, hwire, parseFrom_finish, assembleFrom, exists_map_cons_iff, Framed, Option.isSome_some, true_and]
        exact hih

/-- A receiver reads exactly the responses that were meant if and only if the items are framed. -/
theorem reads_back_iff (is : List Item) : ReadsBack is ↔ Framed false false is :=
  readsFrom_iff is (o := none) (fun h => Bool.noConfusion h) le_rfl

def keepAlive : PlainField where
  name := ['c', 'o', 'n', 'n', 'e', 'c', 't', 'i', 'o', 'n']
  value := ['k', 'e', 'e', 'p', '-', 'a', 'l', 'i', 'v', 'e']
  name_ne := by simp
  name_ok := by simp
  value_ok := by simp
  value_trim := by
    refine trim_of_no_blank fun c hc => ?_
    revert c
    simp [isBlank]
  not_length := by simp [contentLength]
  not_encoding := by simp [transferEncoding]

/-- `202 Accepted`, the answer to a notification. -/
def accepted : PlainReply := ⟨{ code := 202, text := ['A', 'c', 'c', 'e', 'p', 't', 'e', 'd'] }, [keepAlive], []⟩

/-- After an event stream, an acknowledgement on the same connection is written without a length. -/
theorem acknowledgement_unframed :
    ¬ ReadsBack [.start {} [keepAlive] [], .chunk ['d', 'a', 't', 'a', ':', '\n', '\n'] (by decide), .finish, .reply accepted] :=
  fun h => Bool.noConfusion ((reads_back_iff _).mp h).2.2.2.1

end AgentProtocol.Mcp
