-- SUMMARY: Requests read off an HTTP connection in pieces: what the parser's callbacks collect, and the reads after which every request was handled once.
import AgentProtocol.Lib.Http
import AgentProtocol.Lib.PrefixCode
import AgentProtocol.Lib.Run
import AgentProtocol.Lib.Table

/-!
# The request stream of a connection

What is read is appended to the buffer of the connection, and the whole buffer is given to a new `http_parser` each
time. Its callbacks collect a request in a context, and a request is handled when the parser has reported the end of a
message. As many octets as the parser took are then dropped from the buffer.

The parser goes on with the next message after one that keeps the connection alive, and reports it to the same context.
Where octets are no request it stops; that it stopped is noticed only when it took none of them.

`http_parser` is a parameter: what it reports for the octets of a buffer, and how many it takes. So is the grammar of
RFC 7230: which octets are a request, and what it says.
-/

namespace AgentProtocol.Mcp.RequestStream

open Lib Lib.Http

/-! ## The server -/

structure HttpRequest where
  method : Octets := []
  url : Octets := []
  version : Octets := []
  headers : Dict Octets Octets := ∅
  body : Octets := []
  deriving DecidableEq

/-- The callbacks of `http_parser`. An element may be reported in several pieces. -/
inductive Callback where
  | url (piece : Octets)
  | headerField (piece : Octets)
  | headerValue (piece : Octets)
  | headersComplete (method : Octets) (major minor : ℕ)
  | body (piece : Octets)
  | messageComplete
  deriving DecidableEq

structure ParserContext where
  request : HttpRequest := {}
  currentField : Octets := []
  currentValue : Octets := []
  lastWasValue : Bool := false
  messageCompleted : Bool := false

def lower (s : Octets) : Octets := s.map Char.toLower

def addHeader (headers : Dict Octets Octets) (field : Octets × Octets) : Dict Octets Octets := headers.set (lower field.1) field.2

def versionText (major minor : ℕ) : Octets := "HTTP/".toList ++ (toString major).toList ++ '.' :: (toString minor).toList

namespace ParserContext

def storeHeader (c : ParserContext) : HttpRequest :=
  if trim c.currentField = [] then c.request
  else { c.request with headers := addHeader c.request.headers (trim c.currentField, trim c.currentValue) }

/-- The callbacks of the server. -/
def receive (c : ParserContext) : Callback → ParserContext
  | .url piece => { c with request := { c.request with url := c.request.url ++ piece } }
  | .headerField piece =>
    if c.lastWasValue then
      { c with request := c.storeHeader, currentField := piece, currentValue := [], lastWasValue := false }
    else { c with currentField := c.currentField ++ piece }
  | .headerValue piece => { c with currentValue := c.currentValue ++ piece, lastWasValue := true }
  | .headersComplete method major minor =>
    let c := if c.currentField = [] then c else { c with request := c.storeHeader, currentField := [], currentValue := [] }
    { c with request := { c.request with method := method, version := versionText major minor } }
  | .body piece => { c with request := { c.request with body := c.request.body ++ piece } }
  | .messageComplete => { c with messageCompleted := true }

end ParserContext

/-- What `http_parser_execute` does with a buffer: the callbacks, and the number of octets it took. -/
structure Execution where
  callbacks : List Callback
  parsed : ℕ

/-- A new parser on a buffer. -/
abbrev HttpParser := Octets → Execution

inductive ParseResult where
  | needMore
  | error
  | ok (request : HttpRequest) (consumedBytes : ℕ)

/-- What a connection was answered with: the handler of the route got the request, or a 404 or 400. -/
inductive Answer where
  | handled (request : HttpRequest)
  | notFound
  | badRequest
  deriving DecidableEq

structure ConnectionContext where
  requestBuffer : Octets := []
  answers : List Answer := []

section Server

variable (execute : HttpParser) (routes : Octets → Bool)

def parseRequest (buffer : Octets) : ParseResult :=
  if buffer = [] then .needMore
  else
    let out := execute buffer
    let context := out.callbacks.foldl ParserContext.receive {}
    if out.parsed = 0 ∨ buffer.length < out.parsed then .error
    else if context.messageCompleted then .ok context.request out.parsed
    else .needMore

def handleRequest (request : HttpRequest) : Answer := if routes request.url then .handled request else .notFound

/-- The loop of `OnRead`; each turn but the last one takes an octet off the buffer. -/
def readLoop : ℕ → ConnectionContext → ConnectionContext
  | 0, c => c
  | fuel + 1, c =>
    match parseRequest execute c.requestBuffer with
    | .needMore => c
    | .error => { requestBuffer := [], answers := c.answers ++ [.badRequest] }
    | .ok request consumedBytes =>
      readLoop fuel
        { requestBuffer := c.requestBuffer.drop consumedBytes, answers := c.answers ++ [handleRequest routes request] }

def onRead (c : ConnectionContext) (data : Octets) : ConnectionContext :=
  readLoop execute routes ((c.requestBuffer ++ data).length + 1) { c with requestBuffer := c.requestBuffer ++ data }

end Server

/-! ## Requests of RFC 7230 -/

/-- What a request says. Field values are without the blanks around them; `trailers` are the fields after a chunked
body. -/
structure Message where
  method : Octets
  url : Octets
  major : ℕ := 1
  minor : ℕ := 1
  fields : List (Octets × Octets) := []
  body : Octets := []
  trailers : List (Octets × Octets) := []
  keepAlive : Bool := true

/-- Header names are case-insensitive; a later field replaces an earlier one of its name. -/
def headerMap (fields : List (Octets × Octets)) : Dict Octets Octets := fields.foldl addHeader ∅

namespace Message

def request (m : Message) : HttpRequest where
  method := m.method
  url := m.url
  version := versionText m.major m.minor
  headers := headerMap m.fields
  body := m.body

/-- Fields are reported in order, each name before its value; there may be blanks around both. -/
inductive Reports : List (Octets × Octets) → List Callback → Prop
  | nil : Reports [] []
  | cons {name value : Octets} {names values : List Octets} {fields : List (Octets × Octets)} {callbacks : List Callback}
      (name_eq : trim names.flatten = name) (name_ne : name ≠ []) (value_eq : trim values.flatten = value) (values_ne : values ≠ [])
      (rest : Reports fields callbacks) :
      Reports ((name, value) :: fields) (names.map .headerField ++ values.map .headerValue ++ callbacks)

/-- The callbacks of a message, element by element. -/
def Describes (m : Message) (callbacks : List Callback) : Prop :=
  ∃ (urls bodies : List Octets) (fields trailers : List Callback), urls.flatten = m.url ∧ bodies.flatten = m.body ∧
    Reports m.fields fields ∧ Reports m.trailers trailers ∧
    callbacks = urls.map .url ++ fields ++ [.headersComplete m.method m.major m.minor] ++ bodies.map .body ++ trailers ++
      [.messageComplete]

/-- The trailers but the last one change nothing in the header map. -/
def PlainTrailers (m : Message) : Prop := m.trailers.dropLast.foldl addHeader (headerMap m.fields) = headerMap m.fields

end Message

section Stream

variable (request? : Octets → Option Message) (execute : HttpParser) (routes : Octets → Bool)

def texts : Set Octets := {t | (request? t).isSome}

def isLineEnd (c : Char) : Bool := c = '\r' || c = '\n'

/-- No request begins with the octet, and it is not one of the empty lines that a parser skips. -/
def Refused (c : Char) : Prop := (∀ t ∈ texts request?, t.head? ≠ some c) ∧ isLineEnd c = false

/-- `http_parser` follows RFC 7230. -/
structure FollowsRfc7230 : Prop where
  /-- A request begins with its method. -/
  begins : ∀ t m, request? t = some m → ∃ c rest, t = c :: rest ∧ isLineEnd c = false
  /-- A request is taken as a whole and reported. -/
  complete : ∀ t m, request? t = some m → (execute t).parsed = t.length ∧ m.Describes (execute t).callbacks
  /-- The beginning of a request is taken, and its end not reported. -/
  unfinished : ∀ u v m, request? (u ++ v) = some m → u ≠ [] → v ≠ [] →
    (execute u).parsed = u.length ∧ .messageComplete ∉ (execute u).callbacks
  /-- The parser goes on with the next message on a connection that is kept alive. -/
  continues : ∀ t m rest, request? t = some m → m.keepAlive = true →
    execute (t ++ rest) = ⟨(execute t).callbacks ++ (execute rest).callbacks, t.length + (execute rest).parsed⟩
  /-- It takes nothing more on a connection that is to be closed. -/
  closes : ∀ t m c rest, request? t = some m → m.keepAlive = false → isLineEnd c = false → execute (t ++ c :: rest) = execute t
  /-- It does not take an octet that begins no request. -/
  refuses : ∀ c rest, Refused request? c → (execute (c :: rest)).parsed = 0

def answerTo (m : Message) : Answer := handleRequest routes m.request

/-- What the answers to a stream should be: each of its requests is handled, once and in order, and where it is no
stream of requests a 400 was sent. -/
structure Follows (stream : Octets) (answers : List Answer) : Prop where
  requests : ∀ (ts : List Octets) (p : Octets), (∀ t ∈ ts, t ∈ texts request?) → PrefixFree.Unfinished (texts request?) p → stream = ts.flatten ++ p →
    answers = (ts.filterMap request?).map (answerTo routes)
  refused : ¬PrefixFree.IsStream (texts request?) stream → .badRequest ∈ answers

/-- Octets in a buffer that are read as they are meant: requests, of which only the last one keeps the connection alive
and then ends the buffer, and after them the beginning of a request or an octet that is refused. -/
inductive Tidy : Octets → Prop
  | unfinished {p : Octets} (h : PrefixFree.Unfinished (texts request?) p) : Tidy p
  | refused {c : Char} {rest : Octets} (h : Refused request? c) : Tidy (c :: rest)
  | request {t rest : Octets} {m : Message} (h : request? t = some m) (ends : m.keepAlive = true → rest = [])
      (trailers : m.PlainTrailers) (tidy : Tidy rest) : Tidy (t ++ rest)

/-- A read that leaves the buffer tidy, as long as there was no 400. -/
def TidyRead (c : ConnectionContext) (data : Octets) : Prop := .badRequest ∉ c.answers → Tidy request? (c.requestBuffer ++ data)

end Stream

/-! ## What the callbacks collect -/

def HttpRequest.addFields (r : HttpRequest) (fields : List (Octets × Octets)) : HttpRequest :=
  { r with headers := fields.foldl addHeader r.headers }

namespace ParserContext

variable {c : ParserContext} {names values pieces : List Octets} {fields : List (Octets × Octets)} {callbacks : List Callback}

def Ready (c : ParserContext) : Prop := c.lastWasValue = true ∨ c.currentField = [] ∧ c.currentValue = []

theorem storeHeader_of_nil (h : c.currentField = []) : c.storeHeader = c.request := by
  simp [storeHeader, h, trim]

theorem storeHeader_of_trim {name : Octets} (h : trim c.currentField = name) (hne : name ≠ []) :
    c.storeHeader = c.request.addFields [(name, trim c.currentValue)] := by
  simp [storeHeader, h, hne, HttpRequest.addFields]

theorem foldl_url : (pieces.map Callback.url).foldl receive c =
    { c with request := { c.request with url := c.request.url ++ pieces.flatten } } := by
  induction pieces generalizing c with
  | nil => simp
  | cons piece pieces ih => simp [ih, receive]

theorem foldl_body : (pieces.map Callback.body).foldl receive c =
    { c with request := { c.request with body := c.request.body ++ pieces.flatten } } := by
  induction pieces generalizing c with
  | nil => simp
  | cons piece pieces ih => simp [ih, receive]

theorem foldl_headerField (h : c.lastWasValue = false) :
    (names.map Callback.headerField).foldl receive c = { c with currentField := c.currentField ++ names.flatten } := by
  induction names generalizing c with
  | nil => simp
  | cons name names ih =>
    have hstep : c.receive (.headerField name) = { c with currentField := c.currentField ++ name } := by simp [receive, h]
    rw [List.map_cons, List.foldl_cons, hstep, ih (c := { c with currentField := c.currentField ++ name }) h]
    simp

theorem foldl_headerValue (h : values ≠ []) : (values.map Callback.headerValue).foldl receive c =
    { c with currentValue := c.currentValue ++ values.flatten, lastWasValue := true } := by
  induction values generalizing c with
  | nil => exact absurd rfl h
  | cons value values ih =>
    cases values with
    | nil => simp [receive]
    | cons value' values =>
      rw [List.map_cons, List.foldl_cons, ih (by simp)]
      simp [receive]

theorem foldl_field (hc : c.Ready) (hnames : names ≠ []) (hvalues : values ≠ []) :
    (names.map Callback.headerField ++ values.map Callback.headerValue).foldl receive c =
      { c with request := c.storeHeader, currentField := names.flatten, currentValue := values.flatten, lastWasValue := true } := by
  obtain ⟨name, names, rfl⟩ := List.exists_cons_of_ne_nil hnames
  have hfirst : c.receive (.headerField name) =
      { c with request := c.storeHeader, currentField := name, currentValue := [], lastWasValue := false } := by
    cases hlast : c.lastWasValue with
    | true => simp [receive, hlast]
    | false =>
      obtain ⟨hfield, hvalue⟩ : c.currentField = [] ∧ c.currentValue = [] := by simpa [Ready, hlast] using hc
      rw [storeHeader_of_nil hfield]
      obtain ⟨request, field, value, last, completed⟩ := c
      obtain rfl : field = [] := hfield
      obtain rfl : value = [] := hvalue
      obtain rfl : last = false := hlast
      rfl
  rw [List.foldl_append, List.map_cons, List.foldl_cons, hfirst, foldl_headerField rfl, foldl_headerValue hvalues]
  simp

theorem foldl_reports (h : Message.Reports fields callbacks) (hc : c.Ready) :
    (callbacks.foldl receive c).Ready ∧ (callbacks.foldl receive c).storeHeader = c.storeHeader.addFields fields ∧
      (callbacks.foldl receive c).messageCompleted = c.messageCompleted ∧
      (callbacks.foldl receive c).request = if fields = [] then c.request else c.storeHeader.addFields fields.dropLast := by
  induction h generalizing c with
  | nil => exact ⟨hc, rfl, rfl, rfl⟩
  | @cons name value names values fields callbacks hname hne hvalue hvalues _ ih =>
    have hnames : names ≠ [] := by
      rintro rfl
      exact hne (hname.symm.trans rfl)
    rw [List.foldl_append, foldl_field hc hnames hvalues]
    set c₁ : ParserContext :=
      { c with request := c.storeHeader, currentField := names.flatten, currentValue := values.flatten, lastWasValue := true }
      with hc₁
    have hstore : c₁.storeHeader = c.storeHeader.addFields [(name, value)] := by
      rw [storeHeader_of_trim (c := c₁) hname hne, hc₁, hvalue]
    obtain ⟨hready, hstored, hcompleted, hrequest⟩ := ih (c := c₁) (.inl rfl)
    refine ⟨hready, ?_, hcompleted, ?_⟩
    · rw [hstored, hstore]
      rfl
    · rw [hrequest, hstore, if_neg (List.cons_ne_nil _ _)]
      cases fields with
      | nil | cons => rfl

theorem receive_headersComplete (hc : c.Ready) (method : Octets) (major minor : ℕ) :
    (c.receive (.headersComplete method major minor)).Ready ∧
      (c.receive (.headersComplete method major minor)).currentField = [] ∧
      (c.receive (.headersComplete method major minor)).request =
        { c.storeHeader with method := method, version := versionText major minor } ∧
      (c.receive (.headersComplete method major minor)).messageCompleted = c.messageCompleted := by
  by_cases hfield : c.currentField = []
  · simpa [receive, hfield, storeHeader_of_nil hfield, Ready] using hc
  · rcases hc with hc | hc
    · simp [receive, hfield, Ready, hc]
    · exact absurd hc.1 hfield

theorem foldl_describes {m : Message} (h : m.Describes callbacks) : (callbacks.foldl receive {}).messageCompleted = true ∧
      (callbacks.foldl receive {}).request = m.request.addFields m.trailers.dropLast := by
  obtain ⟨urls, bodies, fields, trailers, hurl, hbody, hfields, htrailers, rfl⟩ := h
  simp only [List.foldl_append, List.foldl_cons, List.foldl_nil, foldl_url, hurl, List.nil_append]
  set c₁ : ParserContext := { request := { url := m.url } } with hc₁
  obtain ⟨hready₂, hstored₂, hcompleted₂, -⟩ := foldl_reports hfields (c := c₁) (.inr ⟨rfl, rfl⟩)
  obtain ⟨hready₃, hfield₃, hrequest₃, hcompleted₃⟩ := receive_headersComplete hready₂ m.method m.major m.minor
  set c₃ := (fields.foldl receive c₁).receive (.headersComplete m.method m.major m.minor) with hc₃
  rw [foldl_body, hbody]
  set c₄ : ParserContext := { c₃ with request := { c₃.request with body := c₃.request.body ++ m.body } } with hc₄
  obtain ⟨-, -, -, hrequest₅⟩ := foldl_reports htrailers (c := c₄) hready₃
  have hstored₄ : c₄.storeHeader = m.request := by
    rw [storeHeader_of_nil (c := c₄) hfield₃, hc₄, hrequest₃, hstored₂, storeHeader_of_nil (c := c₁) rfl]
    rfl
  have hrequest₄ : c₄.request = m.request := (storeHeader_of_nil (c := c₄) hfield₃).symm.trans hstored₄
  refine ⟨rfl, ?_⟩
  simp only [receive, hrequest₅, hstored₄, hrequest₄]
  split
  · rename_i hnil
    rw [hnil]
    rfl
  · rfl

theorem foldl_messageCompleted (c : ParserContext) (callbacks : List Callback) : (callbacks.foldl receive c).messageCompleted =
    (c.messageCompleted || decide (.messageComplete ∈ callbacks)) := by
  induction callbacks generalizing c with
  | nil => simp
  | cons callback callbacks ih =>
    rw [List.foldl_cons, ih]
    cases callback with
    | headerField piece => cases hlast : c.lastWasValue <;> simp [receive, hlast]
    | headersComplete method major minor => by_cases hfield : c.currentField = [] <;> simp [receive, hfield]
    | messageComplete | _ => simp [receive]

end ParserContext

/-! ## A parser of one request -/

/-- Takes the octets of a word one after the other, reports at its end, and begins again. -/
def wordParser (word : Octets) (report : List Callback) : Octets → Octets → Execution
  | _, [] => ⟨[], 0⟩
  | [], _ => ⟨[], 0⟩
  | w :: left, c :: rest =>
    if c = w then
      if left = [] then
        let out := wordParser word report word rest
        ⟨report ++ out.callbacks, out.parsed + 1⟩
      else
        let out := wordParser word report left rest
        ⟨out.callbacks, out.parsed + 1⟩
    else ⟨[], 0⟩

def onlyRequest (word : Octets) (m : Message) (t : Octets) : Option Message := if t = word then some m else none

section WordParser

variable {word left u v rest : Octets} {report : List Callback} {m : Message}

theorem wordParser_append (word rest : Octets) (report : List Callback) (h : left ≠ []) :
    wordParser word report left (left ++ rest) =
    ⟨report ++ (wordParser word report word rest).callbacks, left.length + (wordParser word report word rest).parsed⟩ := by
  induction left with
  | nil => exact absurd rfl h
  | cons w left ih =>
    by_cases hleft : left = []
    · simp [wordParser, hleft, Nat.add_comm]
    · rw [List.cons_append, wordParser, if_pos rfl, if_neg hleft, ih hleft]
      simp only [List.length_cons, Execution.mk.injEq, true_and]
      omega

theorem wordParser_unfinished (h : v ≠ []) : wordParser word report (u ++ v) u = ⟨[], u.length⟩ := by
  induction u with
  | nil => cases v <;> rfl
  | cons c u ih =>
    rw [List.cons_append, wordParser, if_pos rfl, if_neg (by simp [h]), ih]
    rfl

theorem onlyRequest_eq_some {t : Octets} {m' : Message} : onlyRequest word m t = some m' ↔ t = word ∧ m' = m := by
  unfold onlyRequest
  split
  · rename_i ht
    simp [ht, eq_comm]
  · rename_i ht
    simp [ht]

theorem follows_wordParser (hword : ∃ c rest, word = c :: rest ∧ isLineEnd c = false) (halive : m.keepAlive = true)
    (hreport : m.Describes report) : FollowsRfc7230 (onlyRequest word m) (wordParser word report word) where
  begins t m' ht := by
    obtain ⟨rfl, -⟩ := onlyRequest_eq_some.mp ht
    exact hword
  complete t m' ht := by
    obtain ⟨rfl, rfl⟩ := onlyRequest_eq_some.mp ht
    obtain ⟨c, rest, hcons, -⟩ := hword
    have happend := wordParser_append t [] report (by simp [hcons] : t ≠ [])
    rw [List.append_nil] at happend
    rw [happend]
    exact ⟨by simp [wordParser], by simpa [wordParser] using hreport⟩
  unfinished u v m' ht hu hv := by
    obtain ⟨rfl, -⟩ := onlyRequest_eq_some.mp ht
    rw [wordParser_unfinished hv]
    exact ⟨rfl, List.not_mem_nil⟩
  continues t m' rest ht _ := by
    obtain ⟨rfl, -⟩ := onlyRequest_eq_some.mp ht
    obtain ⟨c, later, hcons, -⟩ := hword
    have hne : t ≠ [] := by simp [hcons]
    have halone := wordParser_append t [] report hne
    rw [List.append_nil] at halone
    rw [wordParser_append t rest report hne, halone]
    simp [wordParser]
  closes t m' c rest ht hclose _ := by
    obtain ⟨-, rfl⟩ := onlyRequest_eq_some.mp ht
    exact nomatch halive.symm.trans hclose
  refuses c rest hc := by
    obtain ⟨w, later, hcons, -⟩ := hword
    have hhead : c ≠ w := by
      rintro rfl
      exact hc.1 word (by simp [texts, onlyRequest]) (by simp [hcons])
    conv_lhs => rw [hcons]
    simp [wordParser, hhead]

end WordParser

/-- `GET / HTTP/1.1`. -/
def getText : Octets := ['G', 'E', 'T', ' ', '/', ' '] ++ ['H', 'T', 'T', 'P', '/', '1', '.', '1'] ++ crlf ++ crlf

def getMessage : Message := { method := ['G', 'E', 'T'], url := ['/'] }

def getReport : List Callback := [.url ['/'], .headersComplete ['G', 'E', 'T'] 1 1, .messageComplete]

theorem getMessage_describes : getMessage.Describes getReport := ⟨[['/']], [], [], [], rfl, rfl, .nil, .nil, rfl⟩

theorem follows_getParser : FollowsRfc7230 (onlyRequest getText getMessage) (wordParser getText getReport getText) :=
  follows_wordParser ⟨'G', _, rfl, rfl⟩ rfl getMessage_describes

/-! ## Reading a buffer -/

section Reading

variable {request? : Octets → Option Message} {execute : HttpParser} {routes : Octets → Bool}
  {t p u rest data stream : Octets} {m : Message} {c : Char} {fuel : ℕ} {context : ConnectionContext} {answers : List Answer}

theorem mem_texts (h : request? t = some m) : t ∈ texts request? := by simp [texts, h]

theorem tidy_request (h : request? t = some m) (htrailers : m.PlainTrailers) : Tidy request? t := by
  have htidy : Tidy request? (t ++ []) := .request h (fun _ => rfl) htrailers (.unfinished PrefixFree.unfinished_nil)
  rwa [List.append_nil] at htidy

namespace FollowsRfc7230

variable (h : FollowsRfc7230 request? execute)
include h

theorem ne_nil (ht : request? t = some m) : t ≠ [] := by
  obtain ⟨c, rest, rfl, -⟩ := h.begins t m ht
  simp

theorem prefixFree : PrefixFree (texts request?) where
  nonempty t ht := by
    obtain ⟨m, hm⟩ := Option.isSome_iff_exists.mp ht
    exact h.ne_nil hm
  eq_of_prefix t ht t' ht' hpre := by
    obtain ⟨m, hm⟩ := Option.isSome_iff_exists.mp ht
    obtain ⟨m', hm'⟩ := Option.isSome_iff_exists.mp ht'
    obtain ⟨later, rfl⟩ := hpre
    by_contra hne
    have hlater : later ≠ [] := by
      rintro rfl
      exact hne (List.append_nil t).symm
    obtain ⟨-, hnot⟩ := h.unfinished t later m' hm' (h.ne_nil hm) hlater
    obtain ⟨-, urls, bodies, fields, trailers, -, -, -, -, hcallbacks⟩ := h.complete t m hm
    exact hnot (hcallbacks ▸ by simp)

theorem parseRequest_unfinished (hp : PrefixFree.Unfinished (texts request?) p) : parseRequest execute p = .needMore := by
  rcases hp with rfl | ⟨t, ht, ⟨later, rfl⟩, hne⟩
  · rfl
  · by_cases hnil : p = []
    · simp [parseRequest, hnil]
    · obtain ⟨m, hm⟩ := Option.isSome_iff_exists.mp ht
      have hlater : later ≠ [] := by
        rintro rfl
        exact hne (List.append_nil p).symm
      obtain ⟨hparsed, hnot⟩ := h.unfinished p later m hm hnil hlater
      have hcompleted := ParserContext.foldl_messageCompleted {} (execute p).callbacks
      simp [parseRequest, hnil, hparsed, hcompleted, hnot]

theorem parseRequest_refused (hc : Refused request? c) : parseRequest execute (c :: rest) = .error := by
  simp [parseRequest, h.refuses c rest hc]

variable (ht : request? t = some m) (hends : m.keepAlive = true → rest = []) (hrest : rest = [] ∨ ∃ c later, rest = c :: later ∧ isLineEnd c = false)
include ht hends hrest

theorem execute_append : execute (t ++ rest) = execute t := by
  rcases hrest with rfl | ⟨c, later, rfl, hc⟩
  · rw [List.append_nil]
  · cases halive : m.keepAlive with
    | true => exact nomatch hends halive
    | false => exact h.closes t m c later ht halive hc

theorem parseRequest_request (htrailers : m.PlainTrailers) : parseRequest execute (t ++ rest) = .ok m.request t.length := by
  obtain ⟨hparsed, hdescribes⟩ := h.complete t m ht
  obtain ⟨hcompleted, hrequest⟩ := ParserContext.foldl_describes hdescribes
  have hplain : m.request.addFields m.trailers.dropLast = m.request := by
    rw [Message.PlainTrailers] at htrailers
    simp only [HttpRequest.addFields, Message.request, htrailers]
  have hne : t ≠ [] := h.ne_nil ht
  simp [parseRequest, h.execute_append ht hends hrest, hparsed, hcompleted, hrequest, hplain, hne]

omit ht hends hrest

theorem tidy_begins (hu : Tidy request? u) : u = [] ∨ ∃ c later, u = c :: later ∧ isLineEnd c = false := by
  cases hu with
  | unfinished hp =>
    rcases hp with rfl | ⟨t, ht, ⟨later, rfl⟩, -⟩
    · exact .inl rfl
    · obtain ⟨m, hm⟩ := Option.isSome_iff_exists.mp ht
      obtain ⟨c, rest, heq, hc⟩ := h.begins _ m hm
      cases u with
      | nil => exact .inl rfl
      | cons c' u =>
        obtain ⟨rfl, -⟩ := List.cons.inj heq
        exact .inr ⟨c', u, rfl, hc⟩
  | refused hc => exact .inr ⟨_, _, rfl, hc.2⟩
  | @request t rest m ht =>
    obtain ⟨c, later, rfl, hc⟩ := h.begins _ m ht
    exact .inr ⟨c, later ++ rest, rfl, hc⟩

theorem readLoop_tidy (routes : Octets → Bool) (answers : List Answer) (hu : Tidy request? u) (hfuel : u.length < fuel) :
    ∃ (ts : List Octets) (p : Octets), (∀ t ∈ ts, t ∈ texts request?) ∧ u = ts.flatten ++ p ∧
      (PrefixFree.Unfinished (texts request?) p ∧
          readLoop execute routes fuel ⟨u, answers⟩ = ⟨p, answers ++ (ts.filterMap request?).map (answerTo routes)⟩ ∨
        (∃ c rest, p = c :: rest ∧ Refused request? c) ∧ .badRequest ∈ (readLoop execute routes fuel ⟨u, answers⟩).answers) := by
  induction hu generalizing fuel answers with
  | @unfinished p hp =>
    obtain ⟨fuel, rfl⟩ := Nat.exists_eq_succ_of_ne_zero (by omega : fuel ≠ 0)
    refine ⟨[], p, by simp, by simp, .inl ⟨hp, ?_⟩⟩
    simp [readLoop, h.parseRequest_unfinished hp]
  | @refused c rest hc =>
    obtain ⟨fuel, rfl⟩ := Nat.exists_eq_succ_of_ne_zero (by omega : fuel ≠ 0)
    refine ⟨[], c :: rest, by simp, by simp, .inr ⟨⟨c, rest, rfl, hc⟩, ?_⟩⟩
    simp [readLoop, h.parseRequest_refused hc]
  | @request t rest m ht hends htrailers hrest ih =>
    obtain ⟨fuel, rfl⟩ := Nat.exists_eq_succ_of_ne_zero (by omega : fuel ≠ 0)
    have hpos : 0 < t.length := List.length_pos_of_ne_nil (h.ne_nil ht)
    have hparse := h.parseRequest_request ht hends (h.tidy_begins hrest) htrailers
    have hstep : readLoop execute routes (fuel + 1) ⟨t ++ rest, answers⟩ =
        readLoop execute routes fuel ⟨rest, answers ++ [answerTo routes m]⟩ := by
      simp [readLoop, hparse, answerTo]
    rw [List.length_append] at hfuel
    obtain ⟨ts, p, hts, rfl, hloop⟩ := @ih fuel (answers ++ [answerTo routes m]) (by omega)
    refine ⟨t :: ts, p, ?_, by simp, ?_⟩
    · intro w hw
      rcases List.mem_cons.mp hw with rfl | hw
      · exact mem_texts ht
      · exact hts w hw
    · rw [hstep]
      simpa [ht] using hloop

omit h

end FollowsRfc7230

theorem subset_readLoop : context.answers ⊆ (readLoop execute routes fuel context).answers := by
  induction fuel generalizing context with
  | zero => exact List.Subset.refl _
  | succ fuel ih =>
    unfold readLoop
    split
    · exact List.Subset.refl _
    · exact List.subset_append_left _ _
    · exact fun answer hanswer => ih (List.mem_append_left _ hanswer)

/-! ## Reads -/

/-- Requests were handled up to an unfinished one, or the stream is none of requests and a 400 was sent. -/
def Inv (request? : Octets → Option Message) (routes : Octets → Bool) (stream : Octets) (context : ConnectionContext) : Prop :=
  (.badRequest ∈ context.answers ∧ ¬PrefixFree.IsStream (texts request?) stream) ∨
    ∃ ts : List Octets, (∀ t ∈ ts, t ∈ texts request?) ∧ stream = ts.flatten ++ context.requestBuffer ∧
      PrefixFree.Unfinished (texts request?) context.requestBuffer ∧
      context.answers = (ts.filterMap request?).map (answerTo routes)

theorem badRequest_notMem {ms : List Message} : .badRequest ∉ ms.map (answerTo routes) := by
  intro hmem
  obtain ⟨m, -, hm⟩ := List.mem_map.mp hmem
  unfold answerTo handleRequest at hm
  split at hm <;> cases hm

variable (h : FollowsRfc7230 request? execute)
include h

theorem inv_onRead (hinv : Inv request? routes stream context)
    (htidy : TidyRead request? context data) : Inv request? routes (stream ++ data) (onRead execute routes context data) := by
  rcases hinv with ⟨hbad, hnot⟩ | ⟨ts, hts, rfl, hbuffer, hanswers⟩
  · exact .inl ⟨subset_readLoop hbad, fun hstream => hnot (PrefixFree.isStream_of_prefix hstream)⟩
  · have hu := htidy (hanswers ▸ badRequest_notMem)
    obtain ⟨ts', p, hts', heq, hloop⟩ := h.readLoop_tidy routes context.answers hu (Nat.lt_succ_self _)
    have hall : ∀ t ∈ ts ++ ts', t ∈ texts request? := by
      intro t ht
      rcases List.mem_append.mp ht with ht | ht
      · exact hts t ht
      · exact hts' t ht
    have hstream : ts.flatten ++ context.requestBuffer ++ data = (ts ++ ts').flatten ++ p := by
      rw [List.append_assoc, heq]
      simp
    rw [hstream]
    rcases hloop with ⟨hp, hloop⟩ | ⟨⟨c, rest, rfl, hc⟩, hbad⟩
    · right
      have hread : onRead execute routes context data = ⟨p, context.answers ++ (ts'.filterMap request?).map (answerTo routes)⟩ := hloop
      rw [hread]
      exact ⟨ts ++ ts', hall, rfl, hp, by simp [hanswers]⟩
    · exact .inl ⟨hbad, h.prefixFree.not_isStream hall hc.1⟩

theorem follows_of_inv (hinv : Inv request? routes stream context) : Follows request? routes stream context.answers := by
  rcases hinv with ⟨hbad, hnot⟩ | ⟨ts, hts, rfl, hbuffer, hanswers⟩
  · exact ⟨fun ts p hts hp heq => absurd ⟨ts, p, hts, hp, heq⟩ hnot, fun _ => hbad⟩
  · refine ⟨fun ts' p hts' hp heq => ?_, fun hnot => absurd ⟨ts, _, hts, hbuffer, rfl⟩ hnot⟩
    obtain ⟨rfl, -⟩ := h.prefixFree.unique hts hts' hbuffer hp heq
    exact hanswers

omit h in
/-- All along tidy reads, each request of the stream is handled, once and in order, and where it is no stream of
requests a 400 is sent. -/
theorem follows_of_tidy (h : FollowsRfc7230 request? execute) (reads : List Octets)
    (htidy : Along (onRead execute routes) (TidyRead request?) {} reads) (pre : List Octets) (hpre : pre <+: reads) :
    Follows request? routes pre.flatten (run (onRead execute routes) {} pre).answers := by
  obtain ⟨later, rfl⟩ := hpre
  refine follows_of_inv h ?_
  have htidy' := (along_append.mp htidy).1
  clear htidy
  induction pre using List.reverseRecOn with
  | nil => exact .inr ⟨[], by simp, rfl, PrefixFree.unfinished_nil, rfl⟩
  | append_singleton pre data ih =>
    obtain ⟨hpre, hdata⟩ := along_append.mp htidy'
    rw [run_append, List.flatten_append, List.flatten_singleton]
    exact inv_onRead h (ih hpre) hdata.1

/-! ### Requests in one read -/

variable {ts : List Octets} (hne : ts ≠ []) (hts : ∀ t ∈ ts, ∃ m, request? t = some m ∧ m.keepAlive = true)
include hne hts

theorem FollowsRfc7230.execute_flatten :
    (execute ts.flatten).parsed = ts.flatten.length ∧ .messageComplete ∈ (execute ts.flatten).callbacks := by
  induction ts with
  | nil => exact absurd rfl hne
  | cons t ts ih =>
    obtain ⟨m, hm, halive⟩ := hts t (by simp)
    obtain ⟨hparsed, urls, bodies, fields, trailers, -, -, -, -, hcallbacks⟩ := h.complete t m hm
    have hcomplete : .messageComplete ∈ (execute t).callbacks := hcallbacks ▸ by simp
    cases ts with
    | nil => simpa using ⟨hparsed, hcomplete⟩
    | cons t' ts =>
      obtain ⟨hrest, -⟩ := ih (by simp) fun w hw => hts w (by simp [hw])
      have hlength : t.length + (execute (t' :: ts).flatten).parsed = (t ++ (t' :: ts).flatten).length := by
        rw [hrest, List.length_append]
      rw [List.flatten_cons, h.continues t m _ hm halive]
      exact ⟨hlength, List.mem_append_left _ hcomplete⟩

theorem FollowsRfc7230.handled_once (hdata : context.requestBuffer ++ data = ts.flatten) :
    ∃ request, onRead execute routes context data = ⟨[], context.answers ++ [handleRequest routes request]⟩ := by
  obtain ⟨hparsed, hcomplete⟩ := h.execute_flatten hne hts
  have hpos : ts.flatten ≠ [] := by
    obtain ⟨t, ts, rfl⟩ := List.exists_cons_of_ne_nil hne
    obtain ⟨m, hm, -⟩ := hts t (by simp)
    simp [h.ne_nil hm]
  have hcompleted : ((execute ts.flatten).callbacks.foldl ParserContext.receive {}).messageCompleted = true := by
    simp [ParserContext.foldl_messageCompleted, hcomplete]
  have hlength : ts.flatten.length ≠ 0 := (List.length_pos_of_ne_nil hpos).ne'
  have hparse : parseRequest execute ts.flatten =
      .ok ((execute ts.flatten).callbacks.foldl ParserContext.receive {}).request ts.flatten.length := by
    rw [parseRequest, if_neg hpos]
    simp only [hparsed, hcompleted, if_true, lt_irrefl, or_false, hlength, if_false]
  obtain ⟨n, hn⟩ := Nat.exists_eq_succ_of_ne_zero hlength
  refine ⟨((execute ts.flatten).callbacks.foldl ParserContext.receive {}).request, ?_⟩
  have hempty : parseRequest execute [] = .needMore := rfl
  rw [onRead, hdata, hn]
  simp only [readLoop, hparse, List.drop_length, hempty]

omit hne hts

theorem FollowsRfc7230.not_follows (routes : Octets → Bool) {ts : List Octets} (htwo : 2 ≤ ts.length)
    (hts : ∀ t ∈ ts, ∃ m, request? t = some m ∧ m.keepAlive = true) :
    ¬Follows request? routes ts.flatten (onRead execute routes {} ts.flatten).answers := by
  intro hfollows
  have hne : ts ≠ [] := by
    rintro rfl
    simp at htwo
  obtain ⟨request, hread⟩ : ∃ request, onRead execute routes {} ts.flatten = ⟨[], [handleRequest routes request]⟩ :=
    h.handled_once hne hts rfl
  have hanswers := hfollows.requests ts [] (fun t ht => ?_) PrefixFree.unfinished_nil (List.append_nil _).symm
  · have hall : ∀ t ∈ ts, (request? t).isSome = true := fun t ht => by
      obtain ⟨m, hm, -⟩ := hts t ht
      simp [hm]
    have hlength := congrArg List.length hanswers
    rw [hread, List.length_map, List.length_filterMap_eq_countP, List.countP_eq_length.mpr hall] at hlength
    simp at hlength
    omega
  · obtain ⟨m, hm, -⟩ := hts t ht
    exact mem_texts hm

omit h

end Reading

/-- Two requests, the first of them cut in two, and the beginning of a third one. -/
def cutReads : List Octets := [getText.take 4, getText.drop 4, getText, getText.take 7]

theorem follows_of_tidy_get : Follows (onlyRequest getText getMessage) (fun _ => true) cutReads.flatten
    (run (onRead (wordParser getText getReport getText) fun _ => true) {} cutReads).answers := by
  have hget : onlyRequest getText getMessage getText = some getMessage := onlyRequest_eq_some.mpr ⟨rfl, rfl⟩
  have hwhole : ∀ {c : ConnectionContext} {data : Octets}, c.requestBuffer ++ data = getText →
      TidyRead (onlyRequest getText getMessage) c data := fun hdata _ => by
    rw [hdata]
    exact tidy_request hget rfl
  have hpart : ∀ {c : ConnectionContext} {data : Octets} (n : ℕ), n < getText.length → c.requestBuffer ++ data = getText.take n →
      TidyRead (onlyRequest getText getMessage) c data := fun n hn hdata _ => by
    rw [hdata]
    refine .unfinished (.inr ⟨getText, mem_texts hget, List.take_prefix _ _, fun heq => ?_⟩)
    have hlength := congrArg List.length heq
    rw [List.length_take] at hlength
    omega
  exact follows_of_tidy follows_getParser cutReads
    ⟨hpart 4 (by decide) rfl, hwhole (by decide +kernel), hwhole (by decide +kernel), hpart 7 (by decide) (by decide +kernel), trivial⟩
    cutReads (List.prefix_refl _)

/-- Two requests in one read are handled as one, and what is no request of a known method waits for more. -/
theorem not_follows_get :
    ¬Follows (onlyRequest getText getMessage) (fun _ => true) (getText ++ getText)
        (onRead (wordParser getText getReport getText) (fun _ => true) {} (getText ++ getText)).answers ∧
      ¬Follows (onlyRequest getText getMessage) (fun _ => true) ['G', 'E', 'X']
        (onRead (wordParser getText getReport getText) (fun _ => true) {} ['G', 'E', 'X']).answers := by
  have hget : onlyRequest getText getMessage getText = some getMessage := onlyRequest_eq_some.mpr ⟨rfl, rfl⟩
  refine ⟨?_, fun h => ?_⟩
  · have hall : ∀ t ∈ [getText, getText], ∃ m, onlyRequest getText getMessage t = some m ∧ m.keepAlive = true := by
      simpa using ⟨getMessage, hget, rfl⟩
    exact follows_getParser.not_follows (fun _ => true) (Nat.le_refl _) hall
  · have hbad := h.refused ?_
    · revert hbad
      decide
    · rintro ⟨ts, p, hts, hp, heq⟩
      have hword : ∀ t ∈ texts (onlyRequest getText getMessage), t = getText := fun t ht => by
        obtain ⟨m, hm⟩ := Option.isSome_iff_exists.mp ht
        exact (onlyRequest_eq_some.mp hm).1
      cases ts with
      | nil =>
        obtain rfl : p = ['G', 'E', 'X'] := heq.symm
        rcases hp with hp | ⟨t, ht, hp, -⟩
        · cases hp
        rw [hword t ht] at hp
        exact absurd hp (by decide)
      | cons t ts =>
        rw [hword t (hts t (by simp))] at heq
        have hlength := congrArg List.length heq
        simp [getText, crlf] at hlength

end AgentProtocol.Mcp.RequestStream
