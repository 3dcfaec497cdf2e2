-- SUMMARY: The local cache is a map with expiry that evicts what was used least recently, exactly if it has room for a key or none is set.
import AgentProtocol.Lib.Run
import AgentProtocol.Lib.Table

/-!
# The local cache

The entries stand in the order of their last use. What a key holds is said by the calls so far: the last value that was
set, unless it was deleted or evicted since then. Times are those of an ordered group and never decrease.
-/

namespace AgentProtocol.Router

open Lib

structure CacheEntry (V T : Type) where
  value : V
  ttl : T
  createdAt : T

/-- `LocalCache._cache`. -/
abbrev LocalCache (V T : Type) := Dict String (CacheEntry V T)

def CacheEntry.isExpired {V T : Type} [AddCommGroup T] [LinearOrder T] (entry : CacheEntry V T) (now : T) : Bool :=
  decide (entry.ttl ≤ now - entry.createdAt)

namespace LocalCache

variable {V T : Type}

/-- `popitem(last=False)` of the `OrderedDict`. -/
def popitemFirst (d : LocalCache V T) : Except String (LocalCache V T) :=
  match d.rows with
  | [] => .error "dictionary is empty"
  | p :: _ => .ok (d.erase p.1)

def moveToEnd (d : LocalCache V T) (key : String) : LocalCache V T :=
  (d.lookup key).elim d fun entry => Dict.set (d.erase key) key entry

def setCache (maxSize : ℕ) (defaultTtl : T) (d : LocalCache V T) (key : String) (value : V) (ttl : Option T) (now : T) :
    Except String (LocalCache V T) := do
  let d ← if maxSize ≤ d.rows.length ∧ d.contains key = false then popitemFirst d else .ok d
  .ok (moveToEnd (d.set key { value, ttl := ttl.getD defaultTtl, createdAt := now }) key)

theorem lookup_moveToEnd (d : LocalCache V T) (key key' : String) : (moveToEnd d key).lookup key' = d.lookup key' := by
  unfold moveToEnd
  cases hkey : d.lookup key with
  | none => rfl
  | some entry =>
    rw [Option.elim_some, Dict.lookup_set, Dict.lookup_erase]
    by_cases heq : key = key'
    · rw [if_pos heq, ← heq, hkey]
    · rw [if_neg heq, if_neg (Ne.symm heq)]

theorem rows_moveToEnd {d : LocalCache V T} {key : String} {entry : CacheEntry V T} (hkey : d.lookup key = some entry) :
    (moveToEnd d key).rows = (d.erase key).rows ++ [(key, entry)] := by
  unfold moveToEnd
  rw [hkey, Option.elim_some, Dict.set, Table.rows_insert, if_neg]
  simp [Table.erase]

theorem rows_erase_set (d : LocalCache V T) (key : String) (entry : CacheEntry V T) :
    (Table.erase (d.set key entry) key).rows = (d.erase key).rows := by
  simp only [Table.erase, Table.filter_rows, Dict.set, Table.rows_insert]
  split
  · induction d.rows with
    | nil => rfl
    | cons p rows ih => by_cases hp : p.1 = key <;> simpa [hp] using ih
  · simp

variable [AddCommGroup T] [LinearOrder T]

def getEntry (d : LocalCache V T) (key : String) (now : T) : Option (CacheEntry V T) × LocalCache V T :=
  match d.lookup key with
  | none => (none, d)
  | some entry => if entry.isExpired now then (none, d.erase key) else (some entry, moveToEnd d key)

def getCache (d : LocalCache V T) (key : String) (default : V) (now : T) : V × LocalCache V T :=
  ((getEntry d key now).1.elim default (·.value), (getEntry d key now).2)

def getCacheWithTtl (d : LocalCache V T) (key : String) (now : T) : Option (V × T) × LocalCache V T :=
  ((getEntry d key now).1.map fun entry => (entry.value, entry.ttl - (now - entry.createdAt)), (getEntry d key now).2)

def deleteCache (d : LocalCache V T) (key : String) : Bool × LocalCache V T := (d.contains key, d.erase key)

def cleanupExpired (d : LocalCache V T) (now : T) : ℕ × LocalCache V T :=
  ((d.rows.filter fun p => p.2.isExpired now).length, d.filter fun p => !p.2.isExpired now)

/-! ## Calls -/

inductive Call (V T : Type) where
  | setCache (key : String) (value : V) (ttl : Option T)
  | getCache (key : String) (default : V)
  | getCacheWithTtl (key : String)
  | deleteCache (key : String)
  | clearCache
  | cleanupExpired

/-- The key that a call sets or gets. -/
def Call.used : Call V T → Option String
  | .setCache key _ _ | .getCache key _ | .getCacheWithTtl key => some key
  | .deleteCache _ | .clearCache | .cleanupExpired => none

def Call.sets : Call V T → Bool
  | .setCache .. => true
  | _ => false

def after (maxSize : ℕ) (defaultTtl : T) (d : LocalCache V T) (now : T) : Call V T → Except String (LocalCache V T)
  | .setCache key value ttl => setCache maxSize defaultTtl d key value ttl now
  | .getCache key default => .ok (getCache d key default now).2
  | .getCacheWithTtl key => .ok (getCacheWithTtl d key now).2
  | .deleteCache key => .ok (deleteCache d key).2
  | .clearCache => .ok ∅
  | .cleanupExpired => .ok (cleanupExpired d now).2

/-- The key that a call takes out to make room. -/
def evicted (maxSize : ℕ) (d : LocalCache V T) : Call V T → Option String
  | .setCache key _ _ => if maxSize ≤ d.rows.length ∧ d.contains key = false then d.rows.head?.map Prod.fst else none
  | _ => none

structure Made (V T : Type) where
  time : T
  call : Call V T
  evicted : Option String

/-- The cache with the calls so far, newest first. -/
structure History (V T : Type) where
  cache : LocalCache V T := ∅
  past : List (Made V T) := []

def step (maxSize : ℕ) (defaultTtl : T) (h : History V T) (e : T × Call V T) : History V T where
  cache := (after maxSize defaultTtl h.cache e.1 e.2).toOption.getD h.cache
  past := { time := e.1, call := e.2, evicted := evicted maxSize h.cache e.2 } :: h.past

/-- The last entry that was set for the key, unless the key was deleted or evicted since then. -/
def held (defaultTtl : T) (key : String) : List (Made V T) → Option (CacheEntry V T)
  | [] => none
  | m :: past => match m.call with
    | .setCache key' value ttl =>
      if key' = key then some { value, ttl := ttl.getD defaultTtl, createdAt := m.time }
      else if m.evicted = some key then none else held defaultTtl key past
    | .deleteCache key' => if key' = key then none else held defaultTtl key past
    | .clearCache => none
    | _ => held defaultTtl key past

/-- The entry of a key, while less than its `ttl` has passed. -/
def live (defaultTtl : T) (key : String) (past : List (Made V T)) (now : T) : Option (CacheEntry V T) :=
  (held defaultTtl key past).filter fun entry => now - entry.createdAt < entry.ttl

def UsedLater (past : List (Made V T)) (key other : String) : Prop :=
  ∃ newer m older, past = newer ++ m :: older ∧ m.call.used = some other ∧ ∀ x ∈ newer ++ [m], x.call.used ≠ some key

/-- A call does not raise and leaves no more entries than allowed; a get returns what is live; and only the key that was
used least recently is evicted, when a new key is set in a full cache. -/
structure Lru (maxSize : ℕ) (defaultTtl : T) (h : History V T) (e : T × Call V T) : Prop where
  raises : ∃ d, after maxSize defaultTtl h.cache e.1 e.2 = .ok d
  size : (step maxSize defaultTtl h e).cache.rows.length ≤ maxSize
  got : ∀ key default, (getCache h.cache key default e.1).1 = (live defaultTtl key h.past e.1).elim default (·.value) ∧
    (getCacheWithTtl h.cache key e.1).1 =
      (live defaultTtl key h.past e.1).map fun entry => (entry.value, entry.ttl - (e.1 - entry.createdAt))
  evicts : ∀ key, evicted maxSize h.cache e.2 = some key → h.cache.rows.length = maxSize ∧ h.cache.contains key = true ∧
    (∃ new value ttl, e.2 = .setCache new value ttl ∧ h.cache.contains new = false) ∧
    ∀ other, h.cache.contains other = true → other ≠ key → UsedLater h.past key other

/-- What the cache has to do with the calls so far. -/
structure Inv (maxSize : ℕ) (defaultTtl : T) (h : History V T) : Prop where
  size : h.cache.rows.length ≤ maxSize
  held : ∀ key entry, h.cache.lookup key = some entry → held defaultTtl key h.past = some entry
  lost : ∀ key entry, LocalCache.held defaultTtl key h.past = some entry → h.cache.lookup key = none →
    ∃ m ∈ h.past, entry.isExpired m.time = true
  order : h.cache.rows.Pairwise fun p q => UsedLater h.past p.1 q.1

section Steps

variable {maxSize : ℕ} {defaultTtl : T} {d : LocalCache V T} {h : History V T} {m : Made V T} {e : T × Call V T}

theorem Inv.next (hinv : Inv maxSize defaultTtl h) (hsize : d.rows.length ≤ maxSize)
    (hlookup : ∀ key, d.lookup key = h.cache.lookup key ∧
        LocalCache.held defaultTtl key (m :: h.past) = LocalCache.held defaultTtl key h.past ∨
      LocalCache.held defaultTtl key (m :: h.past) = d.lookup key ∨
      d.lookup key = none ∧ LocalCache.held defaultTtl key (m :: h.past) = LocalCache.held defaultTtl key h.past ∧
        ∀ entry, h.cache.lookup key = some entry → entry.isExpired m.time = true)
    (horder : ∃ l last, d.rows = l ++ last ∧ l.Sublist h.cache.rows ∧ (∀ p ∈ l, m.call.used ≠ some p.1) ∧ last.length ≤ 1 ∧
      ∀ p ∈ last, m.call.used = some p.1) : Inv maxSize defaultTtl ⟨d, m :: h.past⟩ := by
  refine ⟨hsize, fun key entry hentry => ?_, fun key entry hheld hnone => ?_, ?_⟩
  · rcases hlookup key with ⟨hsame, hheld⟩ | hheld | ⟨hnone, -⟩
    · exact hheld.trans (hinv.held key entry (hsame ▸ hentry))
    · exact hheld.trans hentry
    · cases hnone.symm.trans hentry
  · rcases hlookup key with ⟨hsame, heq⟩ | heq | ⟨-, heq, hexpired⟩
    · obtain ⟨x, hx, hexpired⟩ := hinv.lost key entry (heq ▸ hheld) (hsame ▸ hnone)
      exact ⟨x, List.mem_cons_of_mem _ hx, hexpired⟩
    · cases (heq.symm.trans hheld).symm.trans hnone
    · cases hold : h.cache.lookup key with
      | none =>
        obtain ⟨x, hx, hexpired⟩ := hinv.lost key entry (heq ▸ hheld) hold
        exact ⟨x, List.mem_cons_of_mem _ hx, hexpired⟩
      | some entry' =>
        obtain rfl := Option.some.inj ((hinv.held key entry' hold).symm.trans (heq ▸ hheld))
        exact ⟨m, List.mem_cons_self, hexpired _ hold⟩
  · obtain ⟨l, last, hrows, hsub, hl, hone, hlast⟩ := horder
    change d.rows.Pairwise _
    rw [hrows]
    refine List.pairwise_append.mpr ⟨?_, ?_, fun p hp q hq => ⟨[], m, h.past, rfl, hlast q hq, by simpa using hl p hp⟩⟩
    · refine (hinv.order.sublist hsub).imp_of_mem fun {p q} hp _ hpq => ?_
      obtain ⟨newer, x, older, hpast, hx, hnot⟩ := hpq
      exact ⟨m :: newer, x, older, by rw [hpast]; rfl, hx, List.forall_mem_cons.mpr ⟨hl p hp, hnot⟩⟩
    · cases last with
      | nil => exact .nil
      | cons p rest =>
        obtain rfl : rest = [] := by simpa using hone
        exact List.pairwise_singleton _ _

theorem getEntry_cases (d : LocalCache V T) (key : String) (now : T) : d.lookup key = none ∧ getEntry d key now = (none, d) ∨
      ∃ entry, d.lookup key = some entry ∧ (entry.isExpired now = true ∧ getEntry d key now = (none, d.erase key) ∨
        entry.isExpired now = false ∧ getEntry d key now = (some entry, moveToEnd d key)) := by
  unfold getEntry
  cases hkey : d.lookup key with
  | none => exact .inl ⟨rfl, rfl⟩
  | some entry => cases hexpired : entry.isExpired now <;> simp [hexpired]

omit [AddCommGroup T] [LinearOrder T] in
theorem length_erase_lt {key : String} (hkey : d.contains key = true) : (d.erase key).rows.length < d.rows.length := by
  obtain ⟨entry, hentry⟩ := Option.isSome_iff_exists.mp hkey
  exact List.length_filter_lt_length_iff_exists.mpr ⟨(key, entry), Dict.lookup_eq_some.mp hentry, by simp⟩

omit [AddCommGroup T] [LinearOrder T] in
theorem used_of_mem_erase {key : String} (hused : m.call.used = some key) : ∀ p ∈ (d.erase key).rows, m.call.used ≠ some p.1 := by
  rintro p hp heq
  have hne : p.1 ≠ key := by simpa using (List.mem_filter.mp hp).2
  exact hne (Option.some.inj (heq.symm.trans hused))

theorem Inv.get (hinv : Inv maxSize defaultTtl h) {key : String} (hused : m.call.used = some key)
    (hheld : ∀ key, LocalCache.held defaultTtl key (m :: h.past) = LocalCache.held defaultTtl key h.past) :
    Inv maxSize defaultTtl ⟨(getEntry h.cache key m.time).2, m :: h.past⟩ := by
  have herase : (h.cache.erase key).rows.length ≤ maxSize := (List.length_filter_le _ _).trans hinv.size
  rcases getEntry_cases h.cache key m.time with ⟨hnone, heq⟩ | ⟨entry, hentry, ⟨hexpired, heq⟩ | ⟨-, heq⟩⟩
  · rw [heq]
    refine hinv.next hinv.size (fun key => .inl ⟨rfl, hheld key⟩)
      ⟨_, [], (List.append_nil _).symm, .refl _, fun p hp hp' => ?_, by simp, by simp⟩
    obtain rfl := Option.some.inj (hused.symm.trans hp')
    exact Dict.lookup_eq_none.mp hnone p.2 hp
  · rw [heq]
    refine hinv.next herase (fun key' => ?_)
      ⟨_, [], (List.append_nil _).symm, List.filter_sublist, used_of_mem_erase hused, by simp, by simp⟩
    rw [Dict.lookup_erase]
    by_cases hkey : key' = key
    · rw [if_pos hkey]
      refine .inr (.inr ⟨rfl, hheld key', fun entry' hentry' => ?_⟩)
      obtain rfl := Option.some.inj (hentry.symm.trans (hkey ▸ hentry'))
      exact hexpired
    · rw [if_neg hkey]
      exact .inl ⟨rfl, hheld key'⟩
  · rw [heq]
    refine hinv.next ?_ (fun key => .inl ⟨lookup_moveToEnd _ _ _, hheld key⟩) ⟨_, _, rows_moveToEnd hentry, List.filter_sublist,
      used_of_mem_erase hused, le_rfl, fun p hp => ?_⟩
    · rw [rows_moveToEnd hentry, List.length_append]
      exact (length_erase_lt (by rw [Dict.contains, hentry]; rfl)).trans_le hinv.size
    · rw [List.mem_singleton.mp hp]
      exact hused

theorem Inv.set (hinv : Inv maxSize defaultTtl h) {key : String} {value : V} {ttl : Option T} (hsub : d.rows.Sublist h.cache.rows)
    (hroom : (d.erase key).rows.length < maxSize) (hcall : m.call = .setCache key value ttl)
    (hlookup : ∀ key', key' ≠ key → d.lookup key' = h.cache.lookup key' ∧ m.evicted ≠ some key' ∨
      d.lookup key' = none ∧ m.evicted = some key') :
    Inv maxSize defaultTtl ⟨moveToEnd (d.set key { value, ttl := ttl.getD defaultTtl, createdAt := m.time }) key, m :: h.past⟩ := by
  have hused : m.call.used = some key := by rw [hcall]; rfl
  have hrows := rows_moveToEnd (Dict.lookup_set_self d key { value, ttl := ttl.getD defaultTtl, createdAt := m.time })
  rw [rows_erase_set] at hrows
  refine hinv.next ?_ (fun key' => ?_) ⟨_, _, hrows, List.filter_sublist.trans hsub, used_of_mem_erase hused, le_rfl, fun p hp => ?_⟩
  · rw [hrows, List.length_append]
    exact hroom
  · rw [lookup_moveToEnd, Dict.lookup_set, LocalCache.held, hcall]
    by_cases hkey : key = key'
    · simp [hkey]
    · rcases hlookup key' (Ne.symm hkey) with ⟨hsame, hnot⟩ | ⟨hnone, hevicted⟩
      · simp [hkey, hnot, hsame]
      · simp [hkey, hevicted, hnone]
  · rw [List.mem_singleton.mp hp]
    exact hused

theorem Inv.step (hinv : Inv maxSize defaultTtl h) (hroom : 1 ≤ maxSize ∨ e.2.sets = false) :
    (∃ d, after maxSize defaultTtl h.cache e.1 e.2 = .ok d) ∧ Inv maxSize defaultTtl (step maxSize defaultTtl h e) := by
  obtain ⟨now, call⟩ := e
  cases call with
  | setCache key value ttl =>
    have hpos : 1 ≤ maxSize := by simpa [Call.sets] using hroom
    simp only [after, setCache, LocalCache.step, evicted]
    by_cases hfull : maxSize ≤ h.cache.rows.length ∧ h.cache.contains key = false
    · simp only [if_pos hfull]
      cases hrows : h.cache.rows with
      | nil => simp [hrows] at hfull; omega
      | cons p rest =>
        have hpop : popitemFirst h.cache = .ok (h.cache.erase p.1) := by rw [popitemFirst, hrows]
        rw [hpop]
        refine ⟨⟨_, rfl⟩, hinv.set (d := h.cache.erase p.1) (m := ⟨now, .setCache key value ttl, some p.1⟩)
          List.filter_sublist ?_ rfl fun key' _ => ?_⟩
        · have hp : h.cache.contains p.1 = true := Dict.contains_iff_mem_keys.mpr (by simp [hrows])
          exact (List.length_filter_le _ _).trans_lt ((length_erase_lt hp).trans_le hinv.size)
        · rw [Dict.lookup_erase]
          by_cases hkey : key' = p.1 <;> simp [hkey, eq_comm]
    · simp only [if_neg hfull]
      refine ⟨⟨_, rfl⟩, hinv.set (m := ⟨now, .setCache key value ttl, none⟩) (.refl _) ?_ rfl fun key' _ => .inl ⟨rfl, by simp⟩⟩
      cases hkey : h.cache.contains key with
      | true => exact (length_erase_lt hkey).trans_le hinv.size
      | false => exact (List.length_filter_le _ _).trans_lt (not_le.mp fun hle => hfull ⟨hle, hkey⟩)
  | getCache key default => exact ⟨⟨_, rfl⟩, hinv.get (m := ⟨now, .getCache key default, _⟩) rfl fun _ => rfl⟩
  | getCacheWithTtl key => exact ⟨⟨_, rfl⟩, hinv.get (m := ⟨now, .getCacheWithTtl key, _⟩) rfl fun _ => rfl⟩
  | deleteCache key =>
    refine ⟨⟨_, rfl⟩, hinv.next (d := h.cache.erase key) ((List.length_filter_le _ _).trans hinv.size) (fun key' => ?_)
      ⟨_, [], (List.append_nil _).symm, List.filter_sublist, by simp [Call.used], by simp, by simp⟩⟩
    by_cases hkey : key' = key
    · exact .inr (.inl (by simp [LocalCache.held, Dict.lookup_erase, hkey]))
    · exact .inl (by simp [LocalCache.held, Dict.lookup_erase, hkey, Ne.symm hkey])
  | clearCache =>
    exact ⟨⟨_, rfl⟩, hinv.next (Nat.zero_le _) (fun _ => .inr (.inl rfl)) ⟨[], [], rfl, List.nil_sublist _, by simp, by simp, by simp⟩⟩
  | cleanupExpired =>
    refine ⟨⟨_, rfl⟩, hinv.next (d := h.cache.filter fun p => !p.2.isExpired now)
      ((List.length_filter_le _ _).trans hinv.size) (fun key' => ?_) ⟨_, [], (List.append_nil _).symm, List.filter_sublist, by simp [Call.used], by simp, by simp⟩⟩
    simp only [LocalCache.held, Dict.lookup_filter]
    cases hentry : h.cache.lookup key' with
    | none => exact .inl ⟨rfl, trivial⟩
    | some entry => cases hexpired : entry.isExpired now <;> simp [Option.filter, hexpired]

/-- The time of a call is not before that of an earlier one. -/
def InTime (h : History V T) (e : T × Call V T) : Prop := ∀ m ∈ h.past, m.time ≤ e.1

theorem Inv.lru [IsOrderedAddMonoid T] (hinv : Inv maxSize defaultTtl h) (htime : InTime h e) (hroom : 1 ≤ maxSize ∨ e.2.sets = false) :
    Lru maxSize defaultTtl h e := by
  obtain ⟨hok, hnext⟩ := hinv.step hroom
  refine ⟨hok, hnext.size, ?_, fun key hkey => ?_⟩
  · have hgot : ∀ key, (getEntry h.cache key e.1).1 = live defaultTtl key h.past e.1 := by
      intro key
      rw [live]
      rcases getEntry_cases h.cache key e.1 with ⟨hnone, heq⟩ | ⟨entry, hentry, hcases⟩
      · rw [heq]
        cases hheld : LocalCache.held defaultTtl key h.past with
        | none => rfl
        | some entry =>
          obtain ⟨m, hm, hexpired⟩ := hinv.lost key entry hheld hnone
          have hle := (of_decide_eq_true hexpired).trans (sub_le_sub_right (htime m hm) _)
          simp [Option.filter, not_lt.mpr hle]
      · rw [hinv.held key entry hentry]
        rcases hcases with ⟨hexpired, heq⟩ | ⟨hlive, heq⟩
        · simp [heq, Option.filter, not_lt.mpr (of_decide_eq_true hexpired)]
        · simp [heq, Option.filter, not_le.mp (of_decide_eq_false hlive)]
    intro key default
    rw [getCache, getCacheWithTtl, hgot]
    exact ⟨rfl, rfl⟩
  · obtain ⟨now, call⟩ := e
    cases call with
    | setCache new value ttl =>
      simp only [evicted] at hkey
      split at hkey
      · rename_i hfull
        obtain ⟨p, hp, rfl⟩ := Option.map_eq_some_iff.mp hkey
        obtain ⟨rest, hrows⟩ := List.head?_eq_some_iff.mp hp
        refine ⟨le_antisymm hinv.size hfull.1, Dict.contains_iff_mem_keys.mpr (by simp [hrows]), ⟨new, value, ttl, rfl, hfull.2⟩, ?_⟩
        intro other hother hne
        obtain ⟨q, hq, rfl⟩ := List.mem_map.mp (Dict.contains_iff_mem_keys.mp hother)
        have horder := hinv.order
        rw [hrows] at hq horder
        exact (List.pairwise_cons.mp horder).1 q ((List.mem_cons.mp hq).resolve_left fun heq => hne (heq ▸ rfl))
      · cases hkey
    | getCache | getCacheWithTtl | deleteCache | clearCache | cleanupExpired => cases hkey

end Steps

/-- In every run at times that never decrease, the cache evicts what was used least recently and returns what is live,
exactly if there is room for a key or no key is set. -/
theorem localCache_lru_iff [IsOrderedAddMonoid T] {maxSize : ℕ} {defaultTtl : T} {events : List (T × Call V T)}
    (htime : Along (step maxSize defaultTtl) InTime {} events) :
    Along (step maxSize defaultTtl) (Lru maxSize defaultTtl) {} events ↔ 1 ≤ maxSize ∨ ∀ e ∈ events, e.2.sets = false := by
  have hstart : Inv maxSize defaultTtl ({} : History V T) := ⟨Nat.zero_le _, by simp, by simp [held], .nil⟩
  constructor
  · intro h
    refine or_iff_not_imp_left.mpr fun hzero => ?_
    obtain rfl : maxSize = 0 := by omega
    have hempty : ({} : History V T).cache.rows = [] := rfl
    generalize ({} : History V T) = w at h hempty
    clear htime hstart
    induction events generalizing w with
    | nil => simp
    | cons e events ih =>
      refine List.forall_mem_cons.mpr ⟨?_, ih _ h.2 (List.length_eq_zero_iff.mp (Nat.le_zero.mp h.1.size))⟩
      obtain ⟨now, call⟩ := e
      cases call with
      | setCache key value ttl =>
        obtain ⟨d, hd⟩ := h.1.raises
        simp [after, setCache, hempty, Dict.contains, Dict.lookup, Table.get?, popitemFirst, bind, Except.bind] at hd
      | getCache | getCacheWithTtl | deleteCache | clearCache | cleanupExpired => rfl
  · intro hroom
    have hsets : Along (step maxSize defaultTtl) (fun _ e => 1 ≤ maxSize ∨ e.2.sets = false) {} events :=
      along_of_forall fun e he => hroom.imp_right fun hnone => hnone e he
    exact (htime.and hsets).imp hstart (fun h e hinv he => (hinv.step he.2).2) fun h e hinv he => hinv.lru he.1 he.2

theorem localCache_lru_sample : Along (step 1 (10 : ℤ)) (Lru 1 10) {}
    [(0, .setCache "a" 1 none), (3, .setCache "b" 2 (some 5)), (4, .getCache "a" 0), (8, .getCache "b" 0)] :=
  (localCache_lru_iff (by simp [InTime, step])).mpr (.inl le_rfl)

end LocalCache

end AgentProtocol.Router
