-- SUMMARY: The credential store in a file: interleaved calls, crashes, and when no saved credential is lost.
import AgentProtocol.A4P.Credentials

/-!
# The credential file

Calls of one process run side by side. A `save` writes the dictionary, takes a snapshot of it, truncates
the file and writes it; a reading call loads the file and replaces the dictionary by what it found. The
constructor saves what it loaded record by record. Every saved record carries the number of its save,
which nothing reads; what is loaded from the file has the numbers that it was saved with.
-/

namespace AgentProtocol.A4P

open Lib

structure Entry where
  record : UserCredentialRecord
  /-- The number of the save. -/
  stamp : ℕ

def Entry.id (e : Entry) : String := e.record.credentialId

abbrev Records := Table Entry.id

/-- What is stored under the id of an entry was saved with it or later. -/
def Entry.Kept (e : Entry) (l : Records) : Prop := ∃ e' ∈ l.rows, e'.id = e.id ∧ e.stamp ≤ e'.stamp

instance (e : Entry) (l : Records) : Decidable (e.Kept l) :=
  inferInstanceAs (Decidable (∃ e' ∈ l.rows, e'.id = e.id ∧ e.stamp ≤ e'.stamp))

namespace Records

def Covered (l l' : Records) : Prop := ∀ e ∈ l.rows, e.Kept l'

instance (l l' : Records) : Decidable (l.Covered l') := inferInstanceAs (Decidable (∀ e ∈ l.rows, e.Kept l'))

/-- No save has a higher number. -/
def Below (l : Records) (n : ℕ) : Prop := ∀ e ∈ l.rows, e.stamp ≤ n

variable {l l' l'' : Records} {e : Entry} {n m : ℕ}

theorem Covered.refl (l : Records) : l.Covered l := fun e he => ⟨e, he, rfl, le_refl _⟩

theorem kept_of_covered (he : e.Kept l) (h : l.Covered l') : e.Kept l' := by
  obtain ⟨e₁, hmem, hid, hle⟩ := he
  obtain ⟨e₂, hmem₂, hid₂, hle₂⟩ := h e₁ hmem
  exact ⟨e₂, hmem₂, hid₂.trans hid, hle.trans hle₂⟩

theorem Covered.trans (h : l.Covered l') (h' : l'.Covered l'') : l.Covered l'' := fun e he => kept_of_covered (h e he) h'

theorem Below.mono (h : l.Below n) (hle : n ≤ m) : l.Below m := fun e he => (h e he).trans hle

theorem kept_insert (l : Records) (e : Entry) : e.Kept (l.insert e) := ⟨e, Table.mem_insert.mpr (.inl rfl), rfl, le_refl _⟩

theorem covered_insert (h : l.Below n) (hle : n ≤ e.stamp) : l.Covered (l.insert e) := by
  intro e' he'
  by_cases hid : e'.id = e.id
  · exact ⟨e, Table.mem_insert.mpr (.inl rfl), hid.symm, (h e' he').trans hle⟩
  · exact ⟨e', Table.mem_insert.mpr (.inr ⟨he', hid⟩), rfl, le_refl _⟩

theorem Below.insert (h : l.Below n) (hle : e.stamp ≤ n) : Records.Below (l.insert e) n := by
  intro e' he'
  rcases Table.mem_insert.mp he' with rfl | ⟨he', -⟩
  · exact hle
  · exact h e' he'

end Records

/-! ## The file -/

inductive File where
  | missing
  /-- A text with its length, and the records in it unless it is damaged. -/
  | text (length : ℕ) (records : Option Records)

namespace File

def length : File → ℕ
  | .missing => 0
  | .text length _ => length

/-- `_load_records`, which raises on a damaged file. -/
def load : File → Option Records
  | .missing => some ∅
  | .text _ records => records

/-- What is left when the file is opened for writing. -/
def truncated : File := .text 0 none

/-- The text is written over the beginning; the rest of a longer text stays behind it. -/
def write (size : Records → ℕ) (f : File) (l : Records) : File :=
  if f.length ≤ size l then .text (size l) (some l) else .text f.length none

end File

/-! ## Calls side by side -/

inductive Task where
  /-- A `save` that has written the dictionary. -/
  | saved (e : Entry)
  /-- The records that it is going to write. -/
  | snapshot (e : Entry) (l : Records)
  /-- It has opened the file. -/
  | opened (e : Entry) (l : Records)
  /-- A reading call that has loaded the file. -/
  | loaded (l : Records)

/-- What is known of a call in progress. -/
def Task.Good (records : Records) (saves : ℕ) : Task → Prop
  | .saved e => e.Kept records
  | .snapshot e l | .opened e l => e.Kept l ∧ l.Covered records
  | .loaded l => l.Below saves

theorem Task.Good.mono {t : Task} {records records' : Records} {n m : ℕ} (h : t.Good records n) (hcovered : records.Covered records')
    (hle : n ≤ m) : t.Good records' m := by
  cases t with
  | saved e => exact Records.kept_of_covered h hcovered
  | snapshot | opened => exact ⟨h.1, h.2.trans hcovered⟩
  | loaded l => exact Records.Below.mono h hle

inductive Process where
  | down
  /-- The constructor: what it has saved, what it has yet to save, and whether the file is open. -/
  | constructing (done : Records) (todo : List Entry) (opened : Bool)
  | running (records : Records) (tasks : Dict ℕ Task)

structure JsonFileCredentialStore where
  file : File := .missing
  process : Process := .down
  /-- The number of saves so far; nothing reads it, nor the following. -/
  saves : ℕ := 0
  /-- What was saved by calls that have returned. -/
  returned : List Entry := []
  /-- What the last complete write was to leave in the file. -/
  complete : Records := ∅

namespace JsonFileCredentialStore

inductive Event where
  | start
  /-- The constructor opens the file for its next record, or writes it. -/
  | construct
  | save (call : ℕ) (record : UserCredentialRecord)
  | snapshot (call : ℕ)
  /-- Taking the snapshot fails, as another call changes the dictionary. -/
  | interrupted (call : ℕ)
  | openFile (call : ℕ)
  /-- The file is written, and the call returns. -/
  | write (call : ℕ)
  | load (call : ℕ)
  | reload (call : ℕ)
  | crash

variable (size : Records → ℕ)

def stepRunning (s : JsonFileCredentialStore) (records : Records) (tasks : Dict ℕ Task) : Event → JsonFileCredentialStore
  | .save call record =>
    if tasks.contains call then s
    else
      let e : Entry := { record, stamp := s.saves + 1 }
      { s with saves := s.saves + 1, process := .running (records.insert e) (tasks.set call (.saved e)) }
  | .snapshot call => match tasks.lookup call with
    | some (.saved e) => { s with process := .running records (tasks.set call (.snapshot e records)) }
    | _ => s
  | .interrupted call => match tasks.lookup call with
    | some (.saved _) => { s with process := .running records (tasks.erase call) }
    | _ => s
  | .openFile call => match tasks.lookup call with
    | some (.snapshot e l) => { s with file := .truncated, process := .running records (tasks.set call (.opened e l)) }
    | _ => s
  | .write call => match tasks.lookup call with
    | some (.opened e l) =>
      { s with
        file := s.file.write size l, process := .running records (tasks.erase call)
        returned := e :: s.returned, complete := l }
    | _ => s
  | .load call => match s.file.load with
    | some l => if tasks.contains call then s else { s with process := .running records (tasks.set call (.loaded l)) }
    | none => s
  | .reload call => match tasks.lookup call with
    | some (.loaded l) => { s with process := .running l (tasks.erase call) }
    | _ => s
  | .crash => { s with process := .down }
  | _ => s

def step (s : JsonFileCredentialStore) (event : Event) : JsonFileCredentialStore :=
  match s.process with
  | .running records tasks => stepRunning size s records tasks event
  | .constructing done todo opened => match event, todo, opened with
    | .construct, _ :: _, false => { s with file := .truncated, process := .constructing done todo true }
    | .construct, e :: rest, true =>
      { s with
        file := s.file.write size (done.insert e)
        process := if rest = [] then .running (done.insert e) ∅ else .constructing (done.insert e) rest false }
    | .crash, _, _ => { s with process := .down }
    | _, _, _ => s
  | .down => match event, s.file.load with
    | .start, some l =>
      { s with process := if l.rows = [] then .running ∅ ∅ else .constructing ∅ l.rows false, complete := l }
    | _, _ => s

/-! ## Nothing is lost -/

/-- No one is writing the file. -/
def Settled (s : JsonFileCredentialStore) : Prop :=
  match s.process with
  | .down => True
  | .constructing .. => False
  | .running _ tasks => ∀ q ∈ tasks.rows, ∀ e l, q.2 ≠ .opened e l

/-- Every credential that was saved is in the file, or a later one with its id. -/
def Kept (s : JsonFileCredentialStore) : Prop := ∃ l, s.file.load = some l ∧ ∀ e ∈ s.returned, e.Kept l

instance decidableOpened : (t : Task) → Decidable (∀ e l, t ≠ .opened e l)
  | .opened e l => .isFalse fun h => h e l rfl
  | .saved _ => .isTrue fun _ _ h => nomatch h
  | .snapshot _ _ => .isTrue fun _ _ h => nomatch h
  | .loaded _ => .isTrue fun _ _ h => nomatch h

instance decidableSettled : (s : JsonFileCredentialStore) → Decidable (Settled s)
  | ⟨_, .down, _, _, _⟩ => .isTrue trivial
  | ⟨_, .constructing _ _ _, _, _, _⟩ => .isFalse id
  | ⟨_, .running _ tasks, _, _, _⟩ => inferInstanceAs (Decidable (∀ q ∈ tasks.rows, ∀ e l, q.2 ≠ .opened e l))

instance decidableKept (s : JsonFileCredentialStore) : Decidable (Kept s) :=
  inferInstanceAs (Decidable (∃ l ∈ s.file.load, ∀ e ∈ s.returned, e.Kept l))

/-- The file has what the last complete write was to leave in it. -/
def Intact (s : JsonFileCredentialStore) : Prop := ∃ l ∈ s.file.load, s.complete.Covered l

/-- A reload drops nothing from the dictionary, a write drops nothing from the file and is not written
into the text of another one, and a crash leaves the file intact. -/
def Safe (s : JsonFileCredentialStore) (event : Event) : Prop :=
  match s.process, event with
  | .running records tasks, .reload call => ∀ l, tasks.lookup call = some (.loaded l) → records.Covered l
  | .running _ tasks, .write call =>
    ∀ e l, tasks.lookup call = some (.opened e l) → s.complete.Covered l ∧ s.file.length ≤ size l
  | .running _ _, .crash | .constructing .., .crash => Intact s
  | _, _ => True

structure Inv (s : JsonFileCredentialStore) : Prop where
  returned : ∀ e ∈ s.returned, e.Kept s.complete
  below : s.complete.Below s.saves
  fileBelow : ∀ l, s.file.load = some l → l.Below s.saves
  down : s.process = .down → Intact s
  constructing : ∀ done todo opened, s.process = .constructing done todo opened →
    done.rows ++ todo = s.complete.rows ∧ todo ≠ [] ∧ (opened = true → s.file = .truncated)
  running : ∀ records tasks, s.process = .running records tasks →
    s.complete.Covered records ∧ records.Below s.saves ∧ (∀ q ∈ tasks.rows, q.2.Good records s.saves) ∧
      (s.file.load = some s.complete ∨ ∃ q ∈ tasks.rows, ∃ e l, q.2 = .opened e l)

variable {size} {s : JsonFileCredentialStore} {records : Records} {tasks : Dict ℕ Task}

theorem Inv.of_running (h : Inv s) (hprocess : s.process = .running records tasks) {s' : JsonFileCredentialStore} {records' : Records}
    {tasks' : Dict ℕ Task} (hprocess' : s'.process = .running records' tasks') (hsaves : s.saves ≤ s'.saves)
    (hreturned : s'.returned = s.returned) (hcomplete : s'.complete = s.complete)
    (hfileBelow : ∀ l, s'.file.load = some l → s.file.load = some l) (hcovered : records.Covered records')
    (hbelow : records'.Below s'.saves) (htasks : ∀ q ∈ tasks'.rows, q ∈ tasks.rows ∨ q.2.Good records' s'.saves)
    (hfile : (s'.file.load = s.file.load ∧ ∀ q ∈ tasks.rows, (∃ e l, q.2 = .opened e l) → q ∈ tasks'.rows) ∨
      ∃ q ∈ tasks'.rows, ∃ e l, q.2 = .opened e l) : Inv s' := by
  obtain ⟨hcomplete', hrecords, hgood, hopened⟩ := h.running records tasks hprocess
  refine ⟨by simpa [hreturned, hcomplete] using h.returned, by simpa [hcomplete] using h.below.mono hsaves,
    fun l hl => (h.fileBelow l (hfileBelow l hl)).mono hsaves, by simp [hprocess'], by simp [hprocess'], ?_⟩
  intro records₁ tasks₁ heq
  obtain ⟨rfl, rfl⟩ := Process.running.inj (hprocess'.symm.trans heq)
  refine ⟨hcomplete ▸ hcomplete'.trans hcovered, hbelow, fun q hq => ?_, ?_⟩
  · rcases htasks q hq with hold | hnew
    · exact (hgood q hold).mono hcovered hsaves
    · exact hnew
  · rcases hfile with ⟨hsame, hkeep⟩ | hnew
    · rw [hsame, hcomplete]
      refine hopened.imp_right ?_
      rintro ⟨q, hq, hopen⟩
      exact ⟨q, hkeep q hq hopen, hopen⟩
    · exact .inr hnew

variable {q : ℕ × Task} {call : ℕ}

theorem rows_erase : q ∈ (Table.erase tasks call).rows ↔ q ∈ tasks.rows ∧ q.1 ≠ call := by
  simp [Table.erase]

variable {t : Task}

theorem rows_set :
    q ∈ (tasks.set call t).rows ↔ q = (call, t) ∨ q ∈ tasks.rows ∧ q.1 ≠ call := Table.mem_insert

theorem opened_ne (hlookup : tasks.lookup call = some t) (hnot : ∀ e l, t ≠ .opened e l)
    (hq : q ∈ tasks.rows) (hopen : ∃ e l, q.2 = .opened e l) : q.1 ≠ call := by
  rintro rfl
  obtain ⟨e, l, he⟩ := hopen
  have hself : tasks.lookup q.1 = some q.2 := Dict.lookup_eq_some.mpr hq
  exact hnot e l (Option.some.inj (hlookup.symm.trans (hself.trans (congrArg some he))))

theorem Inv.stop (h : Inv s) (hintact : Intact s) : Inv { s with process := .down } :=
  ⟨h.returned, h.below, h.fileBelow, fun _ => hintact, fun _ _ _ hnot => (nomatch hnot), fun _ _ hnot => (nomatch hnot)⟩

theorem Inv.stepRunning (h : Inv s) (hprocess : s.process = .running records tasks) {event : Event} (hsafe : Safe size s event) :
    Inv (stepRunning size s records tasks event) := by
  obtain ⟨hcomplete, hrecords, hgood, hopened⟩ := h.running records tasks hprocess
  have htask : ∀ {call : ℕ} {t : Task}, tasks.lookup call = some t → t.Good records s.saves :=
    fun hlookup => hgood _ (Dict.lookup_eq_some.mp hlookup)
  cases event with
  | save call record =>
    simp only [JsonFileCredentialStore.stepRunning]
    split
    · exact h
    · rename_i hbusy
      have hfree : ∀ q ∈ tasks.rows, q.1 ≠ call := by
        rintro q hq rfl
        have hself : tasks.lookup q.1 = some q.2 := Dict.lookup_eq_some.mpr hq
        exact hbusy (by simp [Dict.contains, hself])
      refine h.of_running hprocess (by rfl) (Nat.le_succ _) (by rfl) (by rfl) (fun l hl => hl) ?_ ?_ ?_ ?_
      · exact Records.covered_insert hrecords (Nat.le_succ _)
      · exact (hrecords.mono (Nat.le_succ _)).insert (le_refl _)
      · intro q hq
        rcases rows_set.mp hq with rfl | ⟨hq, -⟩
        · exact .inr (Records.kept_insert _ _)
        · exact .inl hq
      · exact .inl ⟨rfl, fun q hq _ => rows_set.mpr (.inr ⟨hq, hfree q hq⟩)⟩
  | snapshot call =>
    simp only [JsonFileCredentialStore.stepRunning]
    split
    · rename_i e hlookup
      refine h.of_running hprocess (by rfl) (le_refl _) (by rfl) (by rfl) (fun l hl => hl) (Records.Covered.refl _) hrecords ?_ ?_
      · intro q hq
        rcases rows_set.mp hq with rfl | ⟨hq, -⟩
        · exact .inr ⟨htask hlookup, Records.Covered.refl _⟩
        · exact .inl hq
      · exact .inl ⟨rfl, fun q hq hopen => rows_set.mpr (.inr ⟨hq, opened_ne hlookup (by simp) hq hopen⟩)⟩
    · exact h
  | interrupted call =>
    simp only [JsonFileCredentialStore.stepRunning]
    split
    · rename_i e hlookup
      refine h.of_running hprocess (by rfl) (le_refl _) (by rfl) (by rfl) (fun l hl => hl) (Records.Covered.refl _) hrecords ?_ ?_
      · exact fun q hq => .inl (rows_erase.mp hq).1
      · exact .inl ⟨rfl, fun q hq hopen => rows_erase.mpr ⟨hq, opened_ne hlookup (by simp) hq hopen⟩⟩
    · exact h
  | openFile call =>
    simp only [JsonFileCredentialStore.stepRunning]
    split
    · rename_i e l hlookup
      refine h.of_running hprocess (by rfl) (le_refl _) (by rfl) (by rfl) (fun l hl => by cases hl) (Records.Covered.refl _) hrecords ?_ ?_
      · intro q hq
        rcases rows_set.mp hq with rfl | ⟨hq, -⟩
        · have hsnapshot := htask hlookup
          exact .inr ⟨hsnapshot.1, hsnapshot.2⟩
        · exact .inl hq
      · exact .inr ⟨_, rows_set.mpr (.inl rfl), e, l, rfl⟩
    · exact h
  | write call =>
    simp only [JsonFileCredentialStore.stepRunning]
    split
    · rename_i e l hlookup
      obtain ⟨hkept, hcovered⟩ := htask hlookup
      obtain ⟨hdrops, hlength⟩ : s.complete.Covered l ∧ s.file.length ≤ size l := by
        simp only [Safe, hprocess] at hsafe
        exact hsafe e l hlookup
      have hfile : (s.file.write size l) = .text (size l) (some l) := by rw [File.write, if_pos hlength]
      have hbelow : l.Below s.saves := by
        intro e' he'
        obtain ⟨e'', he'', -, hle⟩ := hcovered e' he'
        exact hle.trans (hrecords e'' he'')
      refine ⟨fun e' he' => ?_, hbelow, fun l' hl' => ?_, by simp, by simp, ?_⟩
      · rcases List.mem_cons.mp he' with rfl | he'
        · exact hkept
        · exact Records.kept_of_covered (h.returned e' he') hdrops
      · simp only [hfile, File.load, Option.some.injEq] at hl'
        exact hl' ▸ hbelow
      · intro records₁ tasks₁ heq
        obtain ⟨rfl, rfl⟩ := Process.running.inj heq
        refine ⟨hcovered, hrecords, fun q hq => hgood q (rows_erase.mp hq).1, .inl ?_⟩
        simp [hfile, File.load]
    · exact h
  | load call =>
    simp only [JsonFileCredentialStore.stepRunning]
    split
    · rename_i l hload
      split
      · exact h
      · rename_i hbusy
        have hfree : ∀ q ∈ tasks.rows, q.1 ≠ call := by
          rintro q hq rfl
          have hself : tasks.lookup q.1 = some q.2 := Dict.lookup_eq_some.mpr hq
          exact hbusy (by simp [Dict.contains, hself])
        refine h.of_running hprocess (by rfl) (le_refl _) (by rfl) (by rfl) (fun l hl => hl) (Records.Covered.refl _) hrecords ?_ ?_
        · intro q hq
          rcases rows_set.mp hq with rfl | ⟨hq, -⟩
          · exact .inr (h.fileBelow l hload)
          · exact .inl hq
        · exact .inl ⟨rfl, fun q hq _ => rows_set.mpr (.inr ⟨hq, hfree q hq⟩)⟩
    · exact h
  | reload call =>
    simp only [JsonFileCredentialStore.stepRunning]
    split
    · rename_i l hlookup
      have hdrops : records.Covered l := by
        simp only [Safe, hprocess] at hsafe
        exact hsafe l hlookup
      refine h.of_running hprocess (by rfl) (le_refl _) (by rfl) (by rfl) (fun l hl => hl) hdrops (htask hlookup) ?_ ?_
      · exact fun q hq => .inl (rows_erase.mp hq).1
      · exact .inl ⟨rfl, fun q hq hopen => rows_erase.mpr ⟨hq, opened_ne hlookup (by simp) hq hopen⟩⟩
    · exact h
  | crash =>
    have hintact : Intact s := by simpa only [Safe, hprocess] using hsafe
    exact h.stop hintact
  | start | construct => exact h

variable {rest : List Entry}

theorem rows_construct {done l : Records} {e : Entry} (h : done.rows ++ e :: rest = l.rows) :
    Table.rows (done.insert e) = done.rows ++ [e] := by
  have hnew : e.id ∉ done.rows.map Entry.id := by
    have hnodup := l.nodup
    rw [← h, List.map_append, List.map_cons] at hnodup
    exact fun hmem => (List.disjoint_of_nodup_append hnodup) hmem (by simp)
  simp [Table.insert, hnew]

theorem Inv.construct (h : Inv s) {done : Records} {e : Entry}
    (hprocess : s.process = .constructing done (e :: rest) true) : Inv (step size s .construct) := by
  obtain ⟨hall, -, hopened⟩ := h.constructing done (e :: rest) true hprocess
  have hrows := rows_construct hall
  have hfile : s.file.write size (done.insert e) = .text (size (done.insert e)) (some (done.insert e)) := by
    simp [hopened rfl, File.write, File.truncated, File.length]
  have hsub : ∀ e' ∈ Table.rows (done.insert e), e' ∈ s.complete.rows := by
    intro e' he'
    rw [hrows] at he'
    rw [← hall]
    simp only [List.mem_append, List.mem_cons, List.not_mem_nil] at he' ⊢
    tauto
  have hbelow : Records.Below (done.insert e) s.saves := fun e' he' => h.below e' (hsub e' he')
  simp only [step, hprocess, hfile]
  refine ⟨h.returned, h.below, ?_, ?_, ?_, ?_⟩
  · intro l hl
    cases hl
    exact hbelow
  · intro hdown
    split at hdown <;> cases hdown
  · intro done' todo' opened' heq
    split at heq
    · cases heq
    rename_i hrest
    cases heq
    exact ⟨by simp [hrows, ← hall], hrest, by simp⟩
  · intro records tasks heq
    split at heq
    · rename_i hrest
      cases heq
      -- the last record: all that was loaded is in the file again
      have hcomplete : done.insert e = s.complete := by
        apply Table.ext
        rw [hrows, ← hall, hrest]
      exact ⟨hcomplete ▸ Records.Covered.refl _, hbelow, by simp, .inl (congrArg some hcomplete)⟩
    · cases heq

theorem Inv.start (h : Inv s) (hprocess : s.process = .down) : Inv (step size s .start) := by
  obtain ⟨l, hload, hcovered⟩ := h.down hprocess
  have hbelow := h.fileBelow l hload
  simp only [step, hprocess, Option.mem_def.mp hload]
  refine ⟨fun e he => Records.kept_of_covered (h.returned e he) hcovered, hbelow, h.fileBelow, ?_, ?_, ?_⟩
  · intro hdown
    split at hdown <;> cases hdown
  · intro done todo opened heq
    split at heq
    · cases heq
    rename_i hrows
    cases heq
    exact ⟨rfl, hrows, by simp⟩
  · intro records tasks heq
    split at heq
    · rename_i hrows
      cases heq
      exact ⟨fun e he => by simp [hrows] at he, fun e he => by simp at he, by simp, .inl hload⟩
    · cases heq

theorem Inv.step (h : Inv s) {event : Event} (hsafe : Safe size s event) : Inv (JsonFileCredentialStore.step size s event) := by
  cases hprocess : s.process with
  | running records tasks =>
    simp only [JsonFileCredentialStore.step, hprocess]
    exact h.stepRunning hprocess hsafe
  | constructing done todo opened =>
    obtain ⟨hall, htodo, -⟩ := h.constructing done todo opened hprocess
    cases event with
    | construct =>
      cases todo with
      | nil => exact absurd rfl htodo
      | cons e rest =>
        cases opened with
        | true => exact h.construct hprocess
        | false =>
          simp only [JsonFileCredentialStore.step, hprocess]
          refine ⟨h.returned, h.below, fun l hl => (nomatch hl), fun hnot => (nomatch hnot), ?_, fun _ _ hnot => (nomatch hnot)⟩
          intro done' todo' opened' heq
          cases heq
          exact ⟨hall, htodo, fun _ => rfl⟩
    | crash =>
      have hintact : Intact s := by simpa only [Safe, hprocess] using hsafe
      simpa only [JsonFileCredentialStore.step, hprocess] using h.stop hintact
    | _ => simpa only [JsonFileCredentialStore.step, hprocess] using h
  | down =>
    cases event with
    | start => exact h.start hprocess
    | _ => simpa only [JsonFileCredentialStore.step, hprocess] using h

theorem Inv.kept (h : Inv s) (hsettled : Settled s) : Kept s := by
  cases hprocess : s.process with
  | down =>
    obtain ⟨l, hload, hcovered⟩ := h.down hprocess
    exact ⟨l, hload, fun e he => Records.kept_of_covered (h.returned e he) hcovered⟩
  | constructing done todo opened => simp [Settled, hprocess] at hsettled
  | running records tasks =>
    obtain ⟨-, -, -, hfile | ⟨q, hq, e, l, hopened⟩⟩ := h.running records tasks hprocess
    · exact ⟨s.complete, hfile, h.returned⟩
    · simp only [Settled, hprocess] at hsettled
      exact absurd hopened (hsettled q hq e l)

theorem inv_empty : Inv {} :=
  ⟨by simp, fun e he => (nomatch he), fun l hl e he => by cases hl; simp at he, fun _ => ⟨∅, rfl, fun e he => (nomatch he)⟩,
    fun _ _ _ hnot => (nomatch hnot), fun _ _ hnot => (nomatch hnot)⟩

end JsonFileCredentialStore

end AgentProtocol.A4P
