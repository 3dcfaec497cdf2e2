-- SUMMARY: HTTP/1.1 responses as a receiver reads them: status line, fields, message body framing, and one step of the parser for each piece.
import AgentProtocol.Lib.Digits

/-!
# HTTP/1.1 responses

A receiver reads responses off a connection one after the other. The fields of a response decide how long its body
is: so many octets, chunks up to an empty one, or everything until the connection is closed. The requests are not
`HEAD` or `CONNECT`, whose responses have rules of their own.

Octets are characters. The parser reads one response head, one counted body or one chunk at each step, so a chunked
response in progress is part of its state.
-/

namespace Lib.Http

abbrev Octets := List Char

def crlf : Octets := ['\r', '\n']

def version : Octets := ['H', 'T', 'T', 'P', '/', '1', '.', '1', ' ']

/-- What stands between a name and its value. -/
def colon : Octets := [':', ' ']

/-! ## Lines and fields -/

/-- A line up to CRLF, and what follows. -/
def readLine : Octets → Option (Octets × Octets)
  | [] => none
  | [_] => none
  | c :: d :: rest =>
    if c = '\r' ∧ d = '\n' then some ([], rest)
    else (readLine (d :: rest)).map fun p => (c :: p.1, p.2)

def isBlank (c : Char) : Bool := c = ' ' || c = '\t'

def trim (s : Octets) : Octets := ((s.dropWhile isBlank).reverse.dropWhile isBlank).reverse

/-- `name ":" OWS value OWS`. -/
def parseField (line : Octets) : Option (Octets × Octets) :=
  match line.takeWhile (· ≠ ':'), line.dropWhile (· ≠ ':') with
  | [], _ => none
  | _, [] => none
  | name, _ :: value => some (name, trim value)

/-- Fields up to an empty line. -/
def readFields : ℕ → Octets → Option (List (Octets × Octets) × Octets)
  | 0, _ => none
  | fuel + 1, octets =>
    (readLine octets).bind fun p =>
      if p.1 = [] then some ([], p.2)
      else (parseField p.1).bind fun f => (readFields fuel p.2).map fun q => (f :: q.1, q.2)

/-- `HTTP/1.1 SP 3DIGIT SP reason`. -/
def parseStatusLine (line : Octets) : Option (ℕ × Octets) :=
  if line.take 9 = version then
    match line.drop 9 with
    | a :: b :: c :: ' ' :: reason => (readDigits 10 [a, b, c]).map fun code => (code, reason)
    | _ => none
  else none

structure Head where
  code : ℕ
  reason : Octets
  fields : List (Octets × Octets)

def readHead (octets : Octets) : Option (Head × Octets) :=
  (readLine octets).bind fun p =>
    (parseStatusLine p.1).bind fun status =>
      (readFields p.2.length p.2).map fun q => (⟨status.1, status.2, q.1⟩, q.2)

/-! ## Framing -/

def transferEncoding : Octets := ['t', 'r', 'a', 'n', 's', 'f', 'e', 'r', '-', 'e', 'n', 'c', 'o', 'd', 'i', 'n', 'g']

def contentLength : Octets := ['c', 'o', 'n', 't', 'e', 'n', 't', '-', 'l', 'e', 'n', 'g', 't', 'h']

def chunkedCoding : Octets := ['c', 'h', 'u', 'n', 'k', 'e', 'd']

def fieldValue (name : Octets) (fields : List (Octets × Octets)) : Option Octets :=
  (fields.find? fun f => f.1.map Char.toLower = name).map Prod.snd

inductive Framing where
  | length (n : ℕ)
  | chunked
  | untilClose

/-- How long the body of a response is. Some codes have none; chunks win over a length; a length that is no number is
an error. -/
def framing (h : Head) : Option Framing :=
  if h.code < 200 ∨ h.code = 204 ∨ h.code = 304 then some (.length 0)
  else
    match fieldValue transferEncoding h.fields with
    | some value => some (if value.map Char.toLower = chunkedCoding then .chunked else .untilClose)
    | none =>
      match fieldValue contentLength h.fields with
      | some value => (readDigits 10 value).map Framing.length
      | none => some .untilClose

/-- A response: `complete` when its end was seen. One that ends with the connection has not ended yet. -/
structure Message where
  head : Head
  framing : Framing
  body : Octets := []
  complete : Bool := false

/-- The size line of a chunk. -/
def readChunkSize (octets : Octets) : Option (ℕ × Octets) :=
  (readLine octets).bind fun p => (readDigits 16 p.1).map fun size => (size, p.2)

/-- The responses in what was received so far; `m` is a chunked response in progress. -/
def parseFrom : ℕ → Option Message → Octets → Option (List Message)
  | _, m, [] => some m.toList
  | 0, _, _ :: _ => none
  | fuel + 1, none, c :: cs =>
    (readHead (c :: cs)).bind fun p =>
      (framing p.1).bind fun f =>
        match f with
        | .length n =>
          if p.2.length < n then none
          else (parseFrom fuel none (p.2.drop n)).map (⟨p.1, f, p.2.take n, true⟩ :: ·)
        | .chunked => parseFrom fuel (some ⟨p.1, f, [], false⟩) p.2
        | .untilClose => some [⟨p.1, f, p.2, false⟩]
  | fuel + 1, some m, c :: cs =>
    (readChunkSize (c :: cs)).bind fun p =>
      if p.1 = 0 then
        (readFields p.2.length p.2).bind fun q => (parseFrom fuel none q.2).map ({ m with complete := true } :: ·)
      else if p.2.length < p.1 + 2 ∨ (p.2.drop p.1).take 2 ≠ crlf then none
      else parseFrom fuel (some { m with body := m.body ++ p.2.take p.1 }) (p.2.drop (p.1 + 2))

def parse (octets : Octets) : Option (List Message) := parseFrom octets.length none octets

/-- A code whose responses have a body. -/
def HasBody (code : ℕ) : Prop := 200 ≤ code ∧ code ≠ 204 ∧ code ≠ 304

variable {h : Head} {value : Octets}

theorem HasBody.not_bodyless {code : ℕ} (hcode : HasBody code) : ¬ (code < 200 ∨ code = 204 ∨ code = 304) := by
  rintro (hlt | heq | heq)
  · exact absurd hlt (not_lt.mpr hcode.1)
  · exact hcode.2.1 heq
  · exact hcode.2.2 heq

theorem framing_length {n : ℕ} (hcode : HasBody h.code) (hte : fieldValue transferEncoding h.fields = none)
    (hcl : fieldValue contentLength h.fields = some value) (hvalue : readDigits 10 value = some n) :
    framing h = some (.length n) := by
  rw [framing, if_neg hcode.not_bodyless, hte, hcl]
  simp [hvalue]

theorem framing_chunked (hcode : HasBody h.code) (hte : fieldValue transferEncoding h.fields = some value)
    (hvalue : value.map Char.toLower = chunkedCoding) : framing h = some .chunked := by
  rw [framing, if_neg hcode.not_bodyless, hte]
  simp only [hvalue, if_true]

theorem framing_untilClose (hcode : HasBody h.code) (hte : fieldValue transferEncoding h.fields = none)
    (hcl : fieldValue contentLength h.fields = none) : framing h = some .untilClose := by
  rw [framing, if_neg hcode.not_bodyless, hte, hcl]

/-! ## Reading what was written -/

variable {l rest : Octets}

@[simp] theorem readLine_append (h : '\r' ∉ l) : readLine (l ++ (crlf ++ rest)) = some (l, rest) := by
  induction l with
  | nil => simp [crlf, readLine]
  | cons c l ih =>
    obtain ⟨hc, hl⟩ : '\r' ≠ c ∧ '\r' ∉ l := by simpa using h
    have hih := ih hl
    cases l with
    | nil =>
      simp only [List.cons_append, List.nil_append, crlf] at hih ⊢
      rw [readLine, if_neg (by simp [hc.symm]), hih]
      rfl
    | cons d l =>
      simp only [List.cons_append] at hih ⊢
      rw [readLine, if_neg (by simp [hc.symm]), hih]
      rfl

/-- A field that is written as it is read. -/
structure Field where
  name : Octets
  value : Octets
  name_ne : name ≠ []
  name_ok : ∀ c ∈ name, c ≠ ':' ∧ c ≠ '\r'
  value_ok : '\r' ∉ value
  value_trim : trim (' ' :: value) = value

namespace Field

def pair (f : Field) : Octets × Octets := (f.name, f.value)

def line (f : Field) : Octets := f.name ++ colon ++ f.value

theorem cr_notMem_line (f : Field) : '\r' ∉ f.line := by
  have hname : '\r' ∉ f.name := fun h => (f.name_ok _ h).2 rfl
  simp [line, colon, hname, f.value_ok]

theorem parseField_line (f : Field) : parseField f.line = some f.pair := by
  have hall : ∀ c ∈ f.name, decide (c ≠ ':') = true := fun c hc => by simpa using (f.name_ok c hc).1
  have hline : f.line = f.name ++ ':' :: (' ' :: f.value) := by simp [line, colon]
  rw [hline, parseField, List.takeWhile_append_of_pos hall, List.dropWhile_append_of_pos hall]
  obtain ⟨c, cs, hcs⟩ := List.exists_cons_of_ne_nil f.name_ne
  simp [hcs, f.value_trim, pair]

end Field

theorem dropWhile_isBlank {s : Octets} (h : ∀ c ∈ s, isBlank c = false) : s.dropWhile isBlank = s := by
  cases s with
  | nil => rfl
  | cons c s => rw [List.dropWhile_cons, h c (by simp)]; rfl

theorem trim_of_no_blank {s : Octets} (h : ∀ c ∈ s, isBlank c = false) : trim (' ' :: s) = s := by
  have hspace : (' ' :: s).dropWhile isBlank = s := by
    rw [List.dropWhile_cons]
    exact dropWhile_isBlank h
  rw [trim, hspace, dropWhile_isBlank fun c hc => h c (List.mem_reverse.mp hc), List.reverse_reverse]

/-- Field lines, each with CRLF. -/
def fieldLines (fields : List Field) : Octets := fields.flatMap fun f => f.line ++ crlf

theorem readFields_fieldLines (fields : List Field) {fuel : ℕ} (hfuel : fields.length < fuel) :
    readFields fuel (fieldLines fields ++ (crlf ++ rest)) = some (fields.map Field.pair, rest) := by
  induction fields generalizing fuel with
  | nil =>
    obtain ⟨fuel, rfl⟩ := Nat.exists_eq_succ_of_ne_zero (by omega : fuel ≠ 0)
    have hempty : readLine (crlf ++ rest) = some ([], rest) := readLine_append (l := []) (by simp)
    simp [fieldLines, readFields, hempty]
  | cons f fields ih =>
    obtain ⟨fuel, rfl⟩ := Nat.exists_eq_succ_of_ne_zero (by omega : fuel ≠ 0)
    have hsplit : fieldLines (f :: fields) ++ (crlf ++ rest) = f.line ++ (crlf ++ (fieldLines fields ++ (crlf ++ rest))) := by
      simp [fieldLines]
    have hne : f.line ≠ [] := by simp [Field.line, colon]
    rw [hsplit, readFields, readLine_append f.cr_notMem_line]
    simp [hne, f.parseField_line, ih (by simpa using hfuel : fields.length < fuel)]

theorem length_lt_fieldLines (fields : List Field) : fields.length < (fieldLines fields ++ (crlf ++ rest)).length := by
  induction fields with
  | nil => simp [fieldLines, crlf]
  | cons f fields ih =>
    simp only [fieldLines, List.flatMap_cons, List.length_append, crlf, List.length_cons, List.length_nil] at ih ⊢
    omega

theorem parseStatusLine_ok {code : ℕ} (hcode : 100 ≤ code ∧ code < 1000) (reason : Octets) :
    parseStatusLine (version ++ (Nat.toDigits 10 code ++ ' ' :: reason)) = some (code, reason) := by
  have hten : (1 : ℕ) < 10 := by decide
  have hdigits : Nat.toDigits 10 code = [(code / 10 / 10).digitChar, (code / 10 % 10).digitChar, (code % 10).digitChar] := by
    rw [Nat.toDigits_eq_if hten, if_neg (by omega), Nat.toDigits_eq_if hten, if_neg (by omega), Nat.toDigits_eq_if hten,
      if_pos (by omega)]
    rfl
  have hread := readDigits_toDigits hten (by decide) code
  rw [hdigits] at hread ⊢
  simp [parseStatusLine, version, hread]

theorem readHead_ok {code : ℕ} (hcode : 100 ≤ code ∧ code < 1000) {reason : Octets} (hreason : '\r' ∉ reason) (fields : List Field) :
    readHead (version ++ (Nat.toDigits 10 code ++ ' ' :: reason) ++ (crlf ++ (fieldLines fields ++ (crlf ++ rest)))) =
      some (⟨code, reason, fields.map Field.pair⟩, rest) := by
  have hcr := cr_notMem_toDigits (b := 10) (by decide) (by decide) code
  have hline : '\r' ∉ version ++ (Nat.toDigits 10 code ++ ' ' :: reason) := by simp [version, hcr, hreason]
  rw [readHead, readLine_append hline]
  simp only [Option.bind_some, parseStatusLine_ok hcode, readFields_fieldLines fields (length_lt_fieldLines fields), Option.map_some]

theorem readChunkSize_ok (size : ℕ) : readChunkSize (Nat.toDigits 16 size ++ (crlf ++ rest)) = some (size, rest) := by
  have hcr := cr_notMem_toDigits (b := 16) (by decide) (by decide) size
  have hread := readDigits_toDigits (b := 16) (by decide) (by decide) size
  rw [readChunkSize, readLine_append hcr]
  simp [hread]

/-! ## Steps of the parser -/

variable {fuel : ℕ} {octets : Octets} {m : Message}

@[simp] theorem parseFrom_nil (o : Option Message) : parseFrom fuel o [] = some o.toList := by
  cases fuel <;> cases o <;> rfl

theorem parseFrom_head {h : Head} (hoctets : octets ≠ []) (hhead : readHead octets = some (h, rest)) :
    parseFrom (fuel + 1) none octets = (framing h).bind fun f =>
      match f with
      | .length n =>
        if rest.length < n then none
        else (parseFrom fuel none (rest.drop n)).map (⟨h, f, rest.take n, true⟩ :: ·)
      | .chunked => parseFrom fuel (some ⟨h, f, [], false⟩) rest
      | .untilClose => some [⟨h, f, rest, false⟩] := by
  obtain ⟨c, cs, rfl⟩ := List.exists_cons_of_ne_nil hoctets
  rw [parseFrom, hhead]
  rfl

theorem parseFrom_length {h : Head} {body : Octets} (hoctets : octets ≠ []) (hhead : readHead octets = some (h, body ++ rest))
    (hframing : framing h = some (.length body.length)) :
    parseFrom (fuel + 1) none octets = (parseFrom fuel none rest).map (⟨h, .length body.length, body, true⟩ :: ·) := by
  rw [parseFrom_head hoctets hhead, hframing]
  simp

theorem parseFrom_start {h : Head} (hoctets : octets ≠ []) (hhead : readHead octets = some (h, rest))
    (hframing : framing h = some .chunked) :
    parseFrom (fuel + 1) none octets = parseFrom fuel (some ⟨h, .chunked, [], false⟩) rest := by
  rw [parseFrom_head hoctets hhead, hframing]
  rfl

theorem parseFrom_untilClose {h : Head} (hoctets : octets ≠ []) (hhead : readHead octets = some (h, rest))
    (hframing : framing h = some .untilClose) : parseFrom (fuel + 1) none octets = some [⟨h, .untilClose, rest, false⟩] := by
  rw [parseFrom_head hoctets hhead, hframing]
  rfl

theorem parseFrom_some (hoctets : octets ≠ []) : parseFrom (fuel + 1) (some m) octets =
    (readChunkSize octets).bind fun p =>
      if p.1 = 0 then
        (readFields p.2.length p.2).bind fun q => (parseFrom fuel none q.2).map ({ m with complete := true } :: ·)
      else if p.2.length < p.1 + 2 ∨ (p.2.drop p.1).take 2 ≠ crlf then none
      else parseFrom fuel (some { m with body := m.body ++ p.2.take p.1 }) (p.2.drop (p.1 + 2)) := by
  obtain ⟨c, cs, rfl⟩ := List.exists_cons_of_ne_nil hoctets
  rfl

/-- A chunk of a response in progress. -/
def chunkOctets (body : Octets) : Octets := Nat.toDigits 16 body.length ++ (crlf ++ (body ++ crlf))

theorem chunkOctets_append_ne_nil (body : Octets) : chunkOctets body ++ rest ≠ [] := by
  simp [chunkOctets, crlf]

theorem parseFrom_chunk {body : Octets} (hbody : body ≠ []) :
    parseFrom (fuel + 1) (some m) (chunkOctets body ++ rest) = parseFrom fuel (some { m with body := m.body ++ body }) rest := by
  have hsize : readChunkSize (chunkOctets body ++ rest) = some (body.length, body ++ (crlf ++ rest)) := by
    have hassoc : chunkOctets body ++ rest = Nat.toDigits 16 body.length ++ (crlf ++ (body ++ (crlf ++ rest))) := by simp [chunkOctets]
    rw [hassoc]
    exact readChunkSize_ok body.length
  have hlength : ¬ (body ++ (crlf ++ rest)).length < body.length + 2 := by simp [crlf]
  have hcrlf : ((body ++ (crlf ++ rest)).drop body.length).take 2 = crlf := by simp [crlf]
  have hdrop : (body ++ (crlf ++ rest)).drop (body.length + 2) = rest := by
    rw [← List.drop_drop, List.drop_left]
    rfl
  rw [parseFrom_some (chunkOctets_append_ne_nil body), hsize]
  simp only [Option.bind_some, List.length_eq_zero_iff, hbody, if_false, hlength, hcrlf, ne_eq, not_true_eq_false, or_self, hdrop,
    List.take_left]

theorem parseFrom_finish : parseFrom (fuel + 1) (some m) (chunkOctets [] ++ rest) =
    (parseFrom fuel none rest).map ({ m with complete := true } :: ·) := by
  have hsize : readChunkSize (chunkOctets [] ++ rest) = some (0, crlf ++ rest) := by
    have hassoc : chunkOctets [] ++ rest = Nat.toDigits 16 0 ++ (crlf ++ (crlf ++ rest)) := by simp [chunkOctets]
    rw [hassoc]
    exact readChunkSize_ok 0
  have hfields : readFields (crlf ++ rest).length (crlf ++ rest) = some ([], rest) :=
    readFields_fieldLines [] (length_lt_fieldLines [])
  rw [parseFrom_some (chunkOctets_append_ne_nil []), hsize]
  simp only [Option.bind_some, if_true, hfields]

end Lib.Http
