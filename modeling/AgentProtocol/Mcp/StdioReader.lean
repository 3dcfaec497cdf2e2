-- SUMMARY: The receiving side of the stdio connection, and for which chunks of a stream it passes on exactly the lines.
import AgentProtocol.Mcp.Sse

/-!
# Reading from stdin

What is left of a line after a read is kept in two buffers, and both are read again with the next chunk. So the chunks
make no difference only where no chunk but the last ends inside a line; otherwise the beginning of a line is there twice.
-/

namespace AgentProtocol.Mcp.Stdio

open Lib

def recvBuffSize : ℕ := 4096

/-- What one `read` returns: some bytes, and no more than the buffer holds. -/
structure Chunk where
  bytes : Bytes
  nonempty : bytes ≠ []
  bounded : bytes.length ≤ recvBuffSize

inductive ReadResult where
  | data (chunk : Chunk)
  | eof
  | again
  | failed (errno : String)

/-- `StdioConnection`, as far as it reads; what its callbacks get is kept in order. -/
structure Reader where
  readBuffer : Bytes := []
  messageBuffer : Bytes := []
  bytesReceived : ℕ := 0
  connected : Bool := true
  messages : List Bytes := []
  errors : List String := []

/-- The line without a carriage return at its end. -/
def popReturn (line : Bytes) : Bytes := if line.getLast? = some '\r' then line.dropLast else line

/-- The message that a line makes, unless it is empty. -/
def messageOf (line : Bytes) : List Bytes := if popReturn line = [] then [] else [popReturn line]

/-- `ExtractLinesFromBuffer`: the messages, and what stays in the buffer. -/
def extractLinesFromBuffer (buffer : Bytes) : List Bytes × Bytes :=
  match _h : buffer.dropWhile (· ≠ '\n') with
  | [] => ([], buffer)
  | _ :: rest =>
    let (messages, left) := extractLinesFromBuffer rest
    (messageOf (buffer.takeWhile (· ≠ '\n')) ++ messages, left)
termination_by buffer.length
decreasing_by
  have hsuffix := (List.dropWhile_suffix (l := buffer) (· ≠ '\n')).length_le
  rw [_h, List.length_cons] at hsuffix
  exact hsuffix

namespace Reader

/-- `ProcessReceivedData`, with `ProcessReceivedMessages`. -/
def processReceivedData (s : Reader) : Reader :=
  let (messages, left) := extractLinesFromBuffer (s.messageBuffer ++ s.readBuffer)
  { s with messages := s.messages ++ messages, messageBuffer := left, readBuffer := left }

def handleStdinReadable (s : Reader) : ReadResult → Reader
  | .data chunk =>
    processReceivedData { s with bytesReceived := s.bytesReceived + chunk.bytes.length, readBuffer := s.readBuffer ++ chunk.bytes }
  | .eof => { s with errors := s.errors ++ ["Connection closed by peer"], connected := false }
  | .again => s
  | .failed errno => { s with errors := s.errors ++ ["Read error: " ++ errno], connected := false }

/-- The connection after it has read a stream in chunks. -/
def run (chunks : List Chunk) : Reader := chunks.foldl (fun s chunk => s.handleStdinReadable (.data chunk)) {}

end Reader

def stream (chunks : List Chunk) : Bytes := chunks.flatMap Chunk.bytes

/-- The messages are those of the lines of the stream, and what follows the last line is in the buffers. -/
def FramedExactly (chunks : List Chunk) : Prop :=
  ∃ lines rest, (∀ line ∈ lines, '\n' ∉ line) ∧ '\n' ∉ rest ∧ stream chunks = Lines.join '\n' lines ++ rest ∧
    (Reader.run chunks).messages = (lines.map popReturn).filter (· ≠ []) ∧
    (Reader.run chunks).messageBuffer = rest ∧ (Reader.run chunks).readBuffer = rest

/-! ## Lines -/

/-- The lines of a buffer are those of the scanner. -/
abbrev scan : Bytes × List Bytes → Bytes → Bytes × List Bytes := Lines.feed '\n' fun messages line => messages ++ messageOf line

theorem messages_eq_flatMap (lines : List Bytes) : (lines.map popReturn).filter (· ≠ []) = lines.flatMap messageOf := by
  induction lines with
  | nil => rfl
  | cons line lines ih =>
    rw [List.map_cons, List.filter_cons, List.flatMap_cons, ih, messageOf]
    by_cases h : popReturn line = [] <;> simp [h]

theorem foldl_messages (lines messages : List Bytes) :
    lines.foldl (fun messages line => messages ++ messageOf line) messages = messages ++ lines.flatMap messageOf := by
  induction lines generalizing messages with
  | nil => simp
  | cons line lines ih => rw [List.foldl_cons, ih, List.flatMap_cons, List.append_assoc]

theorem scan_join {lines : List Bytes} {rest : Bytes} (messages : List Bytes) (hlines : ∀ line ∈ lines, '\n' ∉ line) (hrest : '\n' ∉ rest) :
    scan ([], messages) (Lines.join '\n' lines ++ rest) = (rest, messages ++ lines.flatMap messageOf) := by
  rw [scan, Lines.feed_append, Lines.feed_join hlines, Lines.feed_plain hrest, foldl_messages, List.nil_append]

theorem extractLinesFromBuffer_eq (buffer : Bytes) :
    extractLinesFromBuffer buffer = ((scan ([], []) buffer).2, (scan ([], []) buffer).1) := by
  suffices h : ∀ messages, scan ([], messages) buffer = ((extractLinesFromBuffer buffer).2, messages ++ (extractLinesFromBuffer buffer).1) by
    rw [h []]
    rfl
  fun_induction extractLinesFromBuffer buffer with
  | case1 buffer hnone =>
    intro messages
    have hplain : '\n' ∉ buffer := by
      intro hmem
      have hall := List.dropWhile_eq_nil_iff.mp hnone '\n' hmem
      exact absurd hall (by decide)
    rw [scan, Lines.feed_plain hplain]
    simp
  | case2 buffer sep rest hrest messages' left heq ih =>
    intro messages
    have hplain : '\n' ∉ buffer.takeWhile (· ≠ '\n') := by
      intro hmem
      exact absurd (List.mem_takeWhile_imp hmem) (by decide)
    have hsep : sep = '\n' := by
      have hhead := List.head?_dropWhile_not (fun c : Char => decide (c ≠ '\n')) buffer
      rw [hrest] at hhead
      simpa using hhead
    have hsplit : buffer = (buffer.takeWhile (· ≠ '\n') ++ ['\n']) ++ rest := by
      conv_lhs => rw [← List.takeWhile_append_dropWhile (p := fun c : Char => decide (c ≠ '\n')) (l := buffer), hrest, hsep]
      simp
    have hscan := ih (messages ++ messageOf (buffer.takeWhile (· ≠ '\n')))
    rw [heq] at hscan
    rw [hsplit, scan, Lines.feed_append, Lines.feed_line hplain]
    simp only [List.nil_append]
    rw [← hsplit, ← List.append_assoc]
    exact hscan

theorem scan_messages (line : Bytes) (messages : List Bytes) (bytes : Bytes) :
    scan (line, messages) bytes = ((scan (line, []) bytes).1, messages ++ (scan (line, []) bytes).2) := by
  induction bytes generalizing line messages with
  | nil => simp [scan]
  | cons c bytes ih =>
    have hstep : ∀ messages, scan (line, messages) (c :: bytes) =
        scan (if c = '\n' then ([], messages ++ messageOf line) else (line ++ [c], messages)) bytes := fun messages => rfl
    rw [hstep, hstep]
    by_cases hc : c = '\n'
    · rw [if_pos hc, if_pos hc, ih [] (messages ++ _), ih [] ([] ++ _)]
      simp
    · rw [if_neg hc, if_neg hc, ih]

/-! ## One read -/

namespace Reader

/-- The unfinished line and the messages. -/
def view (s : Reader) : Bytes × List Bytes := (s.messageBuffer, s.messages)

theorem view_handleStdinReadable {s : Reader} (h : s.readBuffer = s.messageBuffer) (chunk : Chunk) :
    (s.handleStdinReadable (.data chunk)).view = scan ([], s.messages) (s.messageBuffer ++ (s.messageBuffer ++ chunk.bytes)) ∧
      (s.handleStdinReadable (.data chunk)).readBuffer = (s.handleStdinReadable (.data chunk)).messageBuffer := by
  refine ⟨?_, rfl⟩
  unfold handleStdinReadable processReceivedData view
  simp only [h, extractLinesFromBuffer_eq]
  rw [scan_messages _ s.messages]

theorem run_concat (chunks : List Chunk) (chunk : Chunk) : run (chunks ++ [chunk]) = (run chunks).handleStdinReadable (.data chunk) := by
  rw [run, List.foldl_append]
  rfl

theorem run_buffers (chunks : List Chunk) : (run chunks).readBuffer = (run chunks).messageBuffer := by
  induction chunks using List.reverseRecOn with
  | nil => rfl
  | append_singleton chunks chunk ih =>
    rw [run_concat]
    exact (view_handleStdinReadable ih chunk).2

theorem view_run_concat (chunks : List Chunk) (chunk : Chunk) :
    (run (chunks ++ [chunk])).view = scan ([], (run chunks).view.2) ((run chunks).view.1 ++ ((run chunks).view.1 ++ chunk.bytes)) := by
  rw [run_concat]
  exact (view_handleStdinReadable (run_buffers chunks) chunk).1

end Reader

/-! ## What is read twice -/

/-- The bytes of the messages and of the unfinished line. -/
def weight (s : Bytes × List Bytes) : ℕ := (s.2.map List.length).sum + s.1.length

/-- The unfinished line ends as the right one does, and may have more before it. -/
structure Ahead (s right : Bytes × List Bytes) : Prop where
  suffix : right.1 <:+ s.1
  empty : right.1 = [] → s.1 = []
  plain : '\n' ∉ s.1

theorem weight_append (line : Bytes) (messages more : List Bytes) :
    weight (line, messages ++ more) = weight (line, messages) + (more.map List.length).sum := by
  simp only [weight, List.map_append, List.sum_append]
  omega

theorem sum_messageOf (line : Bytes) : ((messageOf line).map List.length).sum = (popReturn line).length := by
  unfold messageOf
  split
  · rename_i h
    rw [h]
    rfl
  · simp

theorem length_popReturn {x y : Bytes} (hsuffix : y <:+ x) (hempty : y = [] → x = []) :
    (popReturn x).length + y.length = (popReturn y).length + x.length := by
  cases y using List.reverseRecOn with
  | nil => rw [hempty rfl]
  | append_singleton y c =>
    obtain ⟨pre, rfl⟩ := hsuffix
    unfold popReturn
    rw [← List.append_assoc]
    by_cases hc : c = '\r' <;> simp [hc] <;> omega

theorem Ahead.step {s right : Bytes × List Bytes} (h : Ahead s right) (bytes : Bytes) :
    Ahead (scan ([], s.2) (s.1 ++ (s.1 ++ bytes))) (scan right bytes) ∧
      weight (scan right bytes) + weight s + s.1.length ≤ weight (scan ([], s.2) (s.1 ++ (s.1 ++ bytes))) + weight right := by
  obtain ⟨line, messages⟩ := s
  obtain ⟨line', messages'⟩ := right
  obtain ⟨hsuffix, hempty, hplain⟩ := h
  dsimp only at hsuffix hempty hplain ⊢
  have hplain' : '\n' ∉ line' := fun hmem => hplain (hsuffix.subset hmem)
  have hmore : ∀ {more : Bytes}, line' ++ more <:+ line ++ (line ++ more) ∧ (line' ++ more = [] → line ++ (line ++ more) = []) := by
    intro more
    obtain ⟨pre, rfl⟩ := hsuffix
    refine ⟨⟨pre ++ line' ++ pre, by simp⟩, fun hnil => ?_⟩
    obtain ⟨hnil', rfl⟩ := List.append_eq_nil_iff.mp hnil
    rw [hempty hnil']
    rfl
  obtain ⟨lines, rest, hlines, hrest, rfl⟩ := Lines.exists_join '\n' bytes
  cases lines with
  | nil =>
    -- no line ends, and the buffers are there twice
    have hjoin : Lines.join '\n' [] ++ rest = rest := rfl
    have hnone : '\n' ∉ line ++ (line ++ rest) := by simp [hplain, hrest]
    rw [hjoin, scan, Lines.feed_plain hnone, Lines.feed_plain hrest]
    refine ⟨⟨hmore.1, hmore.2, hnone⟩, ?_⟩
    unfold weight
    simp only [List.nil_append, List.length_append]
    omega
  | cons first lines =>
    -- the first line is longer by what was there twice, and the others are the same
    obtain ⟨hfirst, hlines⟩ := List.forall_mem_cons.mp hlines
    have hsplit : Lines.join '\n' (first :: lines) ++ rest = (first ++ ['\n']) ++ (Lines.join '\n' lines ++ rest) := by
      rw [Lines.join, List.flatMap_cons, List.append_assoc]
      rfl
    have hnone : '\n' ∉ line ++ (line ++ first) := by simp [hplain, hfirst]
    have hcode : scan ([], messages) (line ++ (line ++ ((first ++ ['\n']) ++ (Lines.join '\n' lines ++ rest)))) =
        (rest, messages ++ messageOf (line ++ (line ++ first)) ++ lines.flatMap messageOf) := by
      have hassoc : line ++ (line ++ ((first ++ ['\n']) ++ (Lines.join '\n' lines ++ rest))) =
          (line ++ (line ++ first) ++ ['\n']) ++ (Lines.join '\n' lines ++ rest) := by simp
      rw [hassoc, scan, Lines.feed_append, Lines.feed_line hnone, List.nil_append]
      exact scan_join _ hlines hrest
    have hright : scan (line', messages') ((first ++ ['\n']) ++ (Lines.join '\n' lines ++ rest)) =
        (rest, messages' ++ messageOf (line' ++ first) ++ lines.flatMap messageOf) := by
      rw [scan, Lines.feed_append, Lines.feed_line hfirst]
      exact scan_join _ hlines hrest
    rw [hsplit, hcode, hright]
    refine ⟨⟨List.suffix_refl rest, id, hrest⟩, ?_⟩
    have hlength := length_popReturn hmore.1 (@hmore first).2
    simp only [weight_append, sum_messageOf]
    unfold weight
    simp only [List.length_append] at hlength ⊢
    omega

/-! ## All reads -/

theorem stream_concat (chunks : List Chunk) (chunk : Chunk) : stream (chunks ++ [chunk]) = stream chunks ++ chunk.bytes := by
  simp [stream]

theorem scan_stream_eq_nil {chunks : List Chunk} : (scan ([], []) (stream chunks)).1 = [] ↔ ∀ c ∈ chunks.getLast?, c.bytes.getLast? = some '\n' := by
  rw [scan, Lines.feed_fst_eq_nil]
  cases chunks using List.reverseRecOn with
  | nil => simp [stream]
  | append_singleton chunks chunk =>
    have hlast : (stream chunks ++ chunk.bytes).getLast? = chunk.bytes.getLast? := List.getLast?_append_of_ne_nil _ chunk.nonempty
    rw [stream_concat, hlast]
    simp [chunk.nonempty]

theorem scan_concat (chunks : List Chunk) (chunk : Chunk) :
    scan ([], []) (stream (chunks ++ [chunk])) = scan (scan ([], []) (stream chunks)) chunk.bytes := by
  rw [stream_concat]
  exact Lines.feed_append

theorem ahead_run (chunks : List Chunk) : Ahead (Reader.run chunks).view (scan ([], []) (stream chunks)) ∧
    weight (scan ([], []) (stream chunks)) ≤ weight (Reader.run chunks).view ∧
    (weight (Reader.run chunks).view ≤ weight (scan ([], []) (stream chunks)) → ∀ c ∈ chunks.dropLast, c.bytes.getLast? = some '\n') := by
  induction chunks using List.reverseRecOn with
  | nil => exact ⟨⟨List.suffix_refl [], fun _ => rfl, List.not_mem_nil⟩, le_rfl, fun _ c hc => (nomatch hc)⟩
  | append_singleton chunks chunk ih =>
    obtain ⟨hahead, hle, hlevel⟩ := ih
    obtain ⟨hstep, hweight⟩ := hahead.step chunk.bytes
    rw [scan_concat, Reader.view_run_concat, List.dropLast_concat]
    refine ⟨hstep, by omega, fun hsame c hc => ?_⟩
    -- nothing was in the buffers, so that the chunk before ended a line
    have hnone : (scan ([], []) (stream chunks)).1 = [] := by
      have hbuffer : (Reader.run chunks).view.1 = [] := List.eq_nil_of_length_eq_zero (by omega)
      exact List.suffix_nil.mp (hbuffer ▸ hahead.suffix)
    have hlast := scan_stream_eq_nil.mp hnone
    cases chunks using List.reverseRecOn with
    | nil => cases hc
    | append_singleton chunks last =>
      rw [List.dropLast_concat] at hlevel
      rcases List.mem_append.mp hc with hbefore | hmem
      · exact hlevel (by omega) c hbefore
      · obtain rfl := List.mem_singleton.mp hmem
        exact hlast c (by simp)

theorem view_run {chunks : List Chunk} (h : ∀ c ∈ chunks.dropLast, c.bytes.getLast? = some '\n') :
    (Reader.run chunks).view = scan ([], []) (stream chunks) := by
  induction chunks using List.reverseRecOn with
  | nil => rfl
  | append_singleton chunks chunk ih =>
    rw [List.dropLast_concat] at h
    have hbefore := ih fun c hc => h c (List.mem_of_mem_dropLast hc)
    have hnone : (scan ([], []) (stream chunks)).1 = [] := scan_stream_eq_nil.mpr fun c hc => h c (List.mem_of_getLast? hc)
    rw [Reader.view_run_concat, scan_concat, hbefore, hnone]
    exact congrArg (fun line => scan (line, _) chunk.bytes) hnone.symm

/-- The messages are exactly the lines of the stream exactly if every chunk but the last ends a line. -/
theorem framedExactly_iff (chunks : List Chunk) : FramedExactly chunks ↔ ∀ c ∈ chunks.dropLast, c.bytes.getLast? = some '\n' := by
  have hright : ∀ {lines rest}, (∀ line ∈ lines, '\n' ∉ line) → '\n' ∉ rest → stream chunks = Lines.join '\n' lines ++ rest →
      scan ([], []) (stream chunks) = (rest, (lines.map popReturn).filter (· ≠ [])) := by
    intro lines rest hlines hrest hstream
    rw [hstream, scan_join [] hlines hrest, messages_eq_flatMap, List.nil_append]
  constructor
  · rintro ⟨lines, rest, hlines, hrest, hstream, hmessages, hbuffer, -⟩
    refine (ahead_run chunks).2.2 (le_of_eq (congrArg weight ?_))
    rw [hright hlines hrest hstream, ← hmessages, ← hbuffer]
    rfl
  · intro h
    obtain ⟨lines, rest, hlines, hrest, hstream⟩ := Lines.exists_join '\n' (stream chunks)
    have hview := (view_run h).trans (hright hlines hrest hstream)
    have hbuffer : (Reader.run chunks).messageBuffer = rest := congrArg Prod.fst hview
    exact ⟨lines, rest, hlines, hrest, hstream, congrArg Prod.snd hview, hbuffer, (Reader.run_buffers chunks).trans hbuffer⟩

def twoReads : List Chunk := [⟨['a'], by decide, by decide⟩, ⟨['b', '\n'], by decide, by decide⟩]

/-- A line that is read in two parts is passed on with its beginning twice. -/
theorem twoReads_not_framed : ¬ FramedExactly twoReads := by
  rintro ⟨lines, rest, hlines, hrest, hstream, hmessages, -⟩
  have hscan := scan_join [] hlines hrest
  rw [← hstream, List.nil_append, ← messages_eq_flatMap, ← hmessages] at hscan
  have hpassed : (Reader.run twoReads).messages = [['a', 'a', 'b']] := by
    have hfirst : (Reader.run [⟨['a'], by decide, by decide⟩]).view = (['a'], []) := Reader.view_run_concat [] _
    have hsecond := Reader.view_run_concat [⟨['a'], by decide, by decide⟩] ⟨['b', '\n'], by decide, by decide⟩
    rw [hfirst] at hsecond
    exact congrArg Prod.snd hsecond
  have hlines : (scan ([], []) (stream twoReads)).2 = [['a', 'a', 'b']] := by rw [hscan, hpassed]
  exact absurd hlines (by decide)

end AgentProtocol.Mcp.Stdio
