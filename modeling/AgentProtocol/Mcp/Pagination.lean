-- SUMMARY: The cursors of the tool and resource listings, and for which page sizes following them gives everything once.
import AgentProtocol.Mcp.Sse
import AgentProtocol.Lib.Pages
import AgentProtocol.Lib.Table
import AgentProtocol.Lib.Text

/-!
# Listing in pages

A listing sorts the keys of a map anew on every call. A cursor is the decimal number of the place where a page
starts, and the next cursor is the place where it ends, so that a listing goes on only if a page is not empty.

A `size_t` has 64 bits, and so has the `long long` that a cursor is read as.
-/

namespace AgentProtocol.Mcp.Pagination

open Lib

/-! ## Numbers -/

def sizeT (i : ℤ) : ℕ := (i % 2 ^ 64).toNat

def isSpace (c : Char) : Bool := c ∈ [' ', '\t', '\n', '\x0b', '\x0c', '\r']

inductive StollError where
  | invalidArgument
  | outOfRange

/-- Whether a number is negative, and what follows its sign. -/
def readSign : Bytes → Bool × Bytes
  | '-' :: rest => (true, rest)
  | '+' :: rest => (false, rest)
  | rest => (false, rest)

/-- `std::stoll`: blanks, a sign and digits; what follows them is not looked at. -/
def stoll (text : Bytes) : Except StollError ℤ :=
  let (negative, body) := readSign (text.dropWhile isSpace)
  let digits := body.takeWhile Char.isDigit
  if digits = [] then .error .invalidArgument
  else
    let value : ℤ := if negative then -(Text.digitsNat digits : ℤ) else Text.digitsNat digits
    if -2 ^ 63 ≤ value ∧ value < 2 ^ 63 then .ok value else .error .outOfRange

/-- `std::to_string`. -/
def toText (n : ℕ) : Bytes := Nat.toDigits 10 n

/-- Where a page starts: at the beginning without a number, and never after the end. -/
def startIndex (size : ℕ) : Option Bytes → ℕ
  | none => 0
  | some cursor => match stoll cursor with
    | .ok value => min (sizeT value) size
    | .error _ => min 0 size

/-! ## Managers -/

/-- The part of a `ToolManager` or `ResourceManager` that listing reads. -/
structure Manager (α : Type) where
  /-- The map, in the order in which it is walked. -/
  entries : Dict Bytes α
  pageSize : Fin (2 ^ 64)
  /-- `max_size()` of a page; the map has room for its entries, so a page has. -/
  maxSize : ℕ
  size_le : entries.rows.length ≤ maxSize
  maxSize_lt : maxSize < 2 ^ 63

structure PaginatedResult (β : Type) where
  items : List β
  nextCursor : Option Bytes

inductive ListError where
  /-- `std::length_error` of `reserve`. -/
  | lengthError
  /-- The loop reads a name that is not there. -/
  | outOfRange

namespace Manager

variable {α β : Type} (m : Manager α)

def setPageSize (pageSize : Fin (2 ^ 64)) : Manager α := { m with pageSize }

/-- The keys in order. -/
def names : List Bytes := (m.entries.rows.map Prod.fst).insertionSort (· ≤ ·)

/-- The loop from place `i` on, for a number of places; an entry that is not found is left out. -/
def readItems (item : α → β) (names : List Bytes) (i : ℕ) : ℕ → Option (List β)
  | 0 => some []
  | left + 1 =>
    match names[i]? with
    | none => none
    | some name =>
      match m.entries.lookup name with
      | none => readItems item names (i + 1) left
      | some entry => (readItems item names (i + 1) left).map (item entry :: ·)

/-- A listing, up to what it shows of an entry. -/
def list (item : α → β) (cursor : Option Bytes) : Except ListError (PaginatedResult β) :=
  let start := startIndex m.names.length cursor
  let endIndex := min (sizeT (start + m.pageSize : ℕ)) m.names.length
  -- where the sum wraps, the end is before the start and so the difference wraps, too
  if m.maxSize < sizeT (endIndex - start) then .error .lengthError
  else
    match m.readItems item m.names start (endIndex - start) with
    | none => .error .outOfRange
    | some items => .ok { items, nextCursor := if endIndex < m.names.length then some (toText endIndex) else none }

end Manager

structure Icon where
  src : Bytes
  mimeType : Option Bytes := none
  sizes : Option (List Bytes) := none
  theme : Option Bytes := none

structure ToolAnnotations where
  title : Option Bytes := none
  readOnlyHint : Option Bool := none
  destructiveHint : Option Bool := none
  idempotentHint : Option Bool := none
  openWorldHint : Option Bool := none

structure Tool where
  name : Bytes
  title : Option Bytes := none
  description : Option Bytes := none
  inputSchema : Option Bytes := none
  outputSchema : Option Bytes := none
  annotations : Option ToolAnnotations := none
  icons : Option (List Icon) := none

/-- `ServerTool`: a tool with its function and how its results are made. -/
structure ServerTool (φ : Type) extends Tool where
  func : φ
  structuredOutput : Bool := false

/-- What a listing shows of a tool. -/
def toolOf {φ : Type} (item : ServerTool φ) : Tool where
  name := item.name
  title := item.title
  description := item.description
  inputSchema := item.inputSchema
  outputSchema := item.outputSchema
  annotations := item.annotations
  icons := item.icons

/-- `ToolManager::ListTools`. -/
def listTools {φ : Type} (m : Manager (ServerTool φ)) (cursor : Option Bytes) : Except ListError (PaginatedResult Tool) :=
  m.list toolOf cursor

inductive RoleType where
  | user
  | assistant

/-- `Annotations`, over the type of a `double`. -/
structure Annotations (δ : Type) where
  audience : Option (List RoleType) := none
  lastModified : Option Bytes := none
  priority : Option δ := none

structure ResourceInfo (δ : Type) where
  uri : Bytes
  name : Bytes
  title : Option Bytes := none
  description : Option Bytes := none
  mimeType : Option Bytes := none
  size : Option ℤ := none
  icons : Option (List Icon) := none
  annotations : Option (Annotations δ) := none

structure ResourceEntry (δ φ : Type) where
  info : ResourceInfo δ
  readFunc : φ

/-- `ResourceManager::ListResources`. -/
def listResources {δ φ : Type} (m : Manager (ResourceEntry δ φ)) (cursor : Option Bytes) :
    Except ListError (PaginatedResult (ResourceInfo δ)) :=
  m.list ResourceEntry.info cursor

/-! ## What a listing is for -/

section

variable {α β : Type}

/-- The calls from a cursor on that follow the next cursors end, with these pages. -/
inductive Follows (call : Option Bytes → Except ListError (PaginatedResult β)) : Option Bytes → List (List β) → Prop
  | last {cursor : Option Bytes} {items : List β} :
      call cursor = .ok { items, nextCursor := none } → Follows call cursor [items]
  | next {cursor : Option Bytes} {items : List β} {cursor' : Bytes} {pages : List (List β)} :
      call cursor = .ok { items, nextCursor := some cursor' } → Follows call (some cursor') pages → Follows call cursor (items :: pages)

/-- The entries in the order of their keys. -/
def Manager.listing (m : Manager α) (item : α → β) : List β :=
  (m.entries.rows.insertionSort fun a b => a.1 ≤ b.1).map fun p => item p.2

/-- The calls from no cursor on end and make up the listing. From every other cursor on a call is an error, or it has a
page of the listing and the calls from it on end and make up what is left of the listing where the page starts. -/
structure ListsAll (m : Manager α) (item : α → β) (call : Option Bytes → Except ListError (PaginatedResult β)) : Prop where
  once : (m.listing item).Perm (m.entries.rows.map fun p => item p.2)
  everything : ∃ pages, Follows call none pages ∧ pages.flatten = m.listing item
  suffix : ∀ cursor, call (some cursor) = .error .lengthError ∨ ∃ start page pages,
    call (some cursor) = .ok page ∧ page.items = Lib.page (m.listing item) start m.pageSize ∧
      Follows call (some cursor) pages ∧ pages.flatten = (m.listing item).drop start

/-! ## Cursors -/

theorem isSpace_of_isDigit {c : Char} (h : c.isDigit = true) : isSpace c = false := by
  by_contra hspace
  have hmem : c ∈ [' ', '\t', '\n', '\x0b', '\x0c', '\r'] := of_decide_eq_true (Bool.not_eq_false _ ▸ hspace)
  simp only [List.mem_cons, List.not_mem_nil, or_false] at hmem
  rcases hmem with rfl | rfl | rfl | rfl | rfl | rfl <;> exact absurd h (by decide)

theorem readSign_of_isDigit {c : Char} (rest : Bytes) (h : c.isDigit = true) : readSign (c :: rest) = (false, c :: rest) := by
  unfold readSign
  split
  · rename_i heq
    rw [(List.cons.inj heq).1] at h
    exact absurd h (by decide)
  · rename_i heq
    rw [(List.cons.inj heq).1] at h
    exact absurd h (by decide)
  · rfl

theorem stoll_digits {digits : Bytes} (hne : digits ≠ []) (hdigits : ∀ c ∈ digits, c.isDigit = true)
    (hlt : Text.digitsNat digits < 2 ^ 63) : stoll digits = .ok (Text.digitsNat digits) := by
  cases digits with
  | nil => exact absurd rfl hne
  | cons c digits =>
    have hc := hdigits c List.mem_cons_self
    have hdrop : (c :: digits).dropWhile isSpace = c :: digits := List.dropWhile_cons_of_neg (by simp [isSpace_of_isDigit hc])
    have htake : (c :: digits).takeWhile Char.isDigit = c :: digits := List.takeWhile_eq_self_iff.mpr hdigits
    simp only [stoll, hdrop, readSign_of_isDigit digits hc, htake, reduceCtorEq, if_false, Bool.false_eq_true]
    rw [if_pos ⟨by omega, by omega⟩]

theorem stoll_toText {n : ℕ} (h : n < 2 ^ 63) : stoll (toText n) = .ok n := by
  have hvalue : Text.digitsNat (toText n) = n := Nat.ofDigitChars_ten_toDigits
  have hdigits : ∀ c ∈ toText n, c.isDigit = true := fun c hc => Nat.isDigit_of_mem_toDigits (by decide) (by decide) hc
  have hne : toText n ≠ [] := Nat.toDigits_ne_nil
  rw [stoll_digits hne hdigits (hvalue.trans_lt h), hvalue]

theorem startIndex_le (size : ℕ) (cursor : Option Bytes) : startIndex size cursor ≤ size := by
  cases cursor with
  | none => exact Nat.zero_le size
  | some cursor =>
    simp only [startIndex]
    split
    · exact Nat.min_le_right _ _
    · exact Nat.min_le_right _ _

theorem sizeT_natCast (n : ℕ) : sizeT n = n % 2 ^ 64 := by
  have hcast : (n : ℤ) % 2 ^ 64 = ((n % 2 ^ 64 : ℕ) : ℤ) := by push_cast; rfl
  rw [sizeT, hcast, Int.toNat_natCast]

theorem startIndex_toText {n size : ℕ} (h : n ≤ size) (hsize : size < 2 ^ 63) : startIndex size (some (toText n)) = n := by
  rw [startIndex, stoll_toText (h.trans_lt hsize)]
  simp only [sizeT_natCast]
  omega

/-! ## One page -/

namespace Manager

variable {α β : Type} (m : Manager α) (item : α → β)

theorem length_names : m.names.length = m.entries.rows.length := by rw [names, List.length_insertionSort, List.length_map]

theorem length_listing : (m.listing item).length = m.names.length := by
  rw [length_names, listing, List.length_map, List.length_insertionSort]

theorem length_names_lt : m.names.length < 2 ^ 63 := by
  rw [length_names]
  exact m.size_le.trans_lt m.maxSize_lt

theorem names_eq : m.names = (m.entries.rows.insertionSort fun a b => a.1 ≤ b.1).map Prod.fst := by
  rw [names, List.map_insertionSort _ (fun a b => a ≤ b)]
  exact fun _ _ _ _ => Iff.rfl

theorem lookup_names : m.names.map (fun name => (m.entries.lookup name).map item) = (m.listing item).map some := by
  rw [names_eq, listing, List.map_map, List.map_map]
  apply List.map_congr_left
  rintro ⟨name, entry⟩ hmem
  have hrow : (name, entry) ∈ m.entries.rows := (List.mem_insertionSort _).mp hmem
  rw [Function.comp_apply, Dict.lookup_eq_some.mpr hrow]
  rfl

theorem readItems_eq (i left : ℕ) (h : i + left ≤ m.names.length) :
    m.readItems item m.names i left = some (Lib.page (m.listing item) i left) := by
  induction left generalizing i with
  | zero => rw [readItems, Lib.page_zero]
  | succ left ih =>
    have hi : i < m.names.length := by omega
    have hi' : i < (m.listing item).length := by rw [length_listing]; exact hi
    have hfound : (m.entries.lookup m.names[i]).map item = some (m.listing item)[i] := by
      have hget := congrArg (·[i]?) (m.lookup_names item)
      simpa [hi, hi'] using hget
    obtain ⟨entry, hentry, hitem⟩ := Option.map_eq_some_iff.mp hfound
    have hpage : Lib.page (m.listing item) i (left + 1) = (m.listing item)[i] :: Lib.page (m.listing item) (i + 1) left := by
      rw [Lib.page, List.drop_eq_getElem_cons hi', List.take_succ_cons, Lib.page]
    rw [readItems, List.getElem?_eq_getElem hi]
    simp only [hentry]
    rw [ih (i + 1) (by omega), hpage, hitem, Option.map_some]

variable {cursor : Option Bytes}

theorem list_of_lt {start : ℕ} (hstart : startIndex m.names.length cursor = start)
    (hlt : start + m.pageSize < 2 ^ 64) : m.list item cursor = .ok
      { items := Lib.page (m.listing item) start m.pageSize
        nextCursor := if start + m.pageSize < m.names.length then some (toText (start + m.pageSize)) else none } := by
  have hle : start ≤ m.names.length := hstart ▸ startIndex_le _ _
  have hsize := m.length_names_lt
  have hmax : m.names.length ≤ m.maxSize := m.length_names ▸ m.size_le
  have hend : sizeT (start + m.pageSize : ℕ) = start + m.pageSize := by rw [sizeT_natCast, Nat.mod_eq_of_lt hlt]
  have hdiff : sizeT ((min (start + m.pageSize : ℕ) m.names.length : ℕ) - start) = min (start + m.pageSize) m.names.length - start := by
    rw [← Nat.cast_sub (by omega), sizeT_natCast, Nat.mod_eq_of_lt (by omega)]
  simp only [list, hstart, hend, hdiff]
  rw [if_neg (by omega), m.readItems_eq item _ _ (by omega), ← m.length_listing item, page_min]
  by_cases hmore : start + m.pageSize < (m.listing item).length
  · simp only [Nat.min_eq_left hmore.le, hmore, if_true]
  · simp only [Nat.min_eq_right (Nat.not_lt.mp hmore), hmore, Nat.lt_irrefl, if_false]

theorem list_of_wraps (hwraps : 2 ^ 64 ≤ startIndex m.names.length cursor + m.pageSize) :
    m.list item cursor = .error .lengthError := by
  have hle := startIndex_le m.names.length cursor
  have hsize := m.length_names_lt
  have hmax := m.maxSize_lt
  have hpage := m.pageSize.isLt
  have hend : sizeT (startIndex m.names.length cursor + m.pageSize : ℕ) = startIndex m.names.length cursor + m.pageSize - 2 ^ 64 := by
    rw [sizeT_natCast, Nat.mod_eq_sub_mod hwraps, Nat.mod_eq_of_lt (by omega)]
  have hdiff : sizeT ((min (startIndex m.names.length cursor + m.pageSize - 2 ^ 64) m.names.length : ℕ) - startIndex m.names.length cursor)
      = m.pageSize := by
    rw [Nat.min_eq_left (by omega), sizeT]
    omega
  simp only [list, hend, hdiff]
  exact if_pos (by omega)

/-! ## Following the cursors -/

variable {m item} in
theorem follows_of_lt (hgoes : (m.pageSize : ℕ) ≠ 0 ∨ m.names.length = 0) {start : ℕ} (hstart : startIndex m.names.length cursor = start)
    (hlt : start + m.pageSize < 2 ^ 64) :
    ∃ pages, Follows (m.list item) cursor pages ∧ pages.flatten = (m.listing item).drop start := by
  induction hleft : m.names.length - start using Nat.strongRecOn generalizing start cursor with
  | _ left ih =>
    have hcall := m.list_of_lt item hstart hlt
    have hsize := m.length_names_lt
    by_cases hmore : start + m.pageSize < m.names.length
    · rw [if_pos hmore] at hcall
      -- there is a next page only if the page size is below the number of entries, so no later sum wraps
      obtain ⟨pages, hpages, hflatten⟩ := ih (m.names.length - (start + m.pageSize)) (by omega)
        (startIndex_toText hmore.le hsize) (by omega) rfl
      refine ⟨_, .next hcall hpages, ?_⟩
      rw [List.flatten_cons, hflatten, page_append_drop]
    · rw [if_neg hmore] at hcall
      refine ⟨_, .last hcall, ?_⟩
      have hdrop : (m.listing item).drop (start + m.pageSize) = [] :=
        List.drop_eq_nil_of_le (by rw [length_listing]; omega)
      rw [List.flatten_singleton, ← page_append_drop, hdrop, List.append_nil]

variable {m item} in
theorem not_follows_of_zero (hzero : (m.pageSize : ℕ) = 0) (hsome : 0 < m.names.length) {pages : List (List β)}
    (hstart : startIndex m.names.length cursor = 0) : ¬ Follows (m.list item) cursor pages := by
  intro hfollows
  have hpage : ∀ {cursor : Option Bytes}, startIndex m.names.length cursor = 0 →
      m.list item cursor = .ok { items := [], nextCursor := some (toText 0) } := by
    intro cursor hstart
    have hcall := m.list_of_lt item hstart (by omega)
    rwa [hzero, Nat.zero_add, if_pos hsome, page_zero] at hcall
  induction hfollows with
  | last hcall =>
    rw [hpage hstart] at hcall
    cases hcall
  | next hcall _ ih =>
    rw [hpage hstart] at hcall
    cases hcall
    exact ih (startIndex_toText (Nat.zero_le _) m.length_names_lt)

theorem listing_perm : (m.listing item).Perm (m.entries.rows.map fun p => item p.2) :=
  (List.perm_insertionSort _ _).map _

theorem listsAll_iff : ListsAll m item (m.list item) ↔ m.pageSize ≠ 0 ∨ m.entries.rows = [] := by
  have hsize : (m.pageSize : ℕ) ≠ 0 ↔ m.pageSize ≠ 0 := Fin.val_ne_zero_iff
  have hrows : m.names.length = 0 ↔ m.entries.rows = [] := by rw [length_names, List.length_eq_zero_iff]
  rw [← hsize, ← hrows]
  constructor
  · rintro ⟨-, ⟨pages, hfollows, -⟩, -⟩
    by_contra hnot
    obtain ⟨hzero, hsome⟩ := not_or.mp hnot
    exact not_follows_of_zero (not_not.mp hzero) (Nat.pos_of_ne_zero hsome) rfl hfollows
  · intro hgoes
    have hfirst : startIndex m.names.length none = 0 := rfl
    refine ⟨m.listing_perm item, follows_of_lt hgoes hfirst (by omega), ?_⟩
    intro cursor
    by_cases hlt : startIndex m.names.length (some cursor) + m.pageSize < 2 ^ 64
    · obtain ⟨pages, hfollows, hflatten⟩ := follows_of_lt hgoes rfl hlt
      exact .inr ⟨_, _, pages, m.list_of_lt item rfl hlt, rfl, hfollows, hflatten⟩
    · exact .inl (m.list_of_wraps item (Nat.not_lt.mp hlt))

end Manager

end

/-! ## The listings -/

/-- Tools and resources are listed completely for every page size but zero, and for that one if there are none. -/
theorem paginated_iff {δ φ ψ : Type} (pageSize : Fin (2 ^ 64)) : (∀ m : Manager (ServerTool φ),
      ListsAll (m.setPageSize pageSize) toolOf (listTools (m.setPageSize pageSize)) ↔ pageSize ≠ 0 ∨ m.entries.rows = []) ∧
    (∀ m : Manager (ResourceEntry δ ψ),
      ListsAll (m.setPageSize pageSize) ResourceEntry.info (listResources (m.setPageSize pageSize)) ↔ pageSize ≠ 0 ∨ m.entries.rows = []) :=
  ⟨fun m => (m.setPageSize pageSize).listsAll_iff toolOf, fun m => (m.setPageSize pageSize).listsAll_iff ResourceEntry.info⟩

def oneTool : Manager (ServerTool Unit) where
  entries := Dict.ofList [("a".toList, { name := "a".toList, func := () })]
  pageSize := 50
  maxSize := 1
  size_le := by decide
  maxSize_lt := by decide

/-- The tool is not listed with pages of size zero. -/
theorem oneTool_not_listed : ¬ ListsAll (oneTool.setPageSize 0) toolOf (listTools (oneTool.setPageSize 0)) := by
  rintro ⟨-, ⟨pages, hfollows, -⟩, -⟩
  exact Manager.not_follows_of_zero rfl (by decide) rfl hfollows

end AgentProtocol.Mcp.Pagination
