-- SUMMARY: The usage table of intent tokens and its one transaction, which collects expired rows and consumes one execution.
import AgentProtocol.A4P.Payload
import AgentProtocol.Lib.Table

/-!
# Usage store

One row for each token that was used. A transaction reads the clock itself: it deletes the rows that
have expired by then and counts in what is left, so a token whose row was collected is counted anew.
-/

namespace AgentProtocol.A4P

open Lib

structure UsageRow where
  tokenId : String
  executionsUsed : ℤ
  executionsLimit : ℤ
  expireAtEpoch : ℤ

abbrev UsageTable := Table UsageRow.tokenId

/-- How a call of `consume` fails. -/
inductive ConsumeError where
  | valueError (message : String)
  /-- `IntentTokenUsageStoreError`. -/
  | store (message : String)
  /-- An integer that does not fit into the database. -/
  | overflow

/-- What one execution is consumed of. -/
structure Quota where
  tokenId : String
  maxExecutions : ℤ
  expireAtEpoch : ℤ
  deriving DecidableEq

def fitsInteger (n : ℤ) : Bool := -(2 ^ 63) ≤ n ∧ n < 2 ^ 63

namespace UsageTable

/-- The rows that have not expired. -/
def collect (t : UsageTable) (now : ℚ) : UsageTable := t.filter fun r => !decide (r.expireAtEpoch ≤ ⌊now⌋)

def transaction (t : UsageTable) (q : Quota) (now : ℚ) : Except ConsumeError (Bool × ℤ) × UsageTable :=
  let collected := t.collect now
  match collected.get? q.tokenId with
  | none =>
    if fitsInteger q.maxExecutions && fitsInteger q.expireAtEpoch then
      (.ok (true, 1), collected.insert
        { tokenId := q.tokenId, executionsUsed := 1, executionsLimit := q.maxExecutions, expireAtEpoch := q.expireAtEpoch })
    else (.error .overflow, t)
  | some row =>
    if row.executionsLimit ≠ q.maxExecutions ∨ row.expireAtEpoch ≠ q.expireAtEpoch then
      (.error (.store "Stored intent token usage policy does not match the signed token"), t)
    else if q.maxExecutions ≤ row.executionsUsed then (.ok (false, row.executionsUsed), collected)
    else (.ok (true, row.executionsUsed + 1), collected.insert { row with executionsUsed := row.executionsUsed + 1 })

/-- `SQLiteIntentTokenUsageStore.consume`; the database may be locked or out of reach. -/
def consume (t : UsageTable) (q : Quota) (now : ℚ) (available : Bool) : Except ConsumeError (Bool × ℤ) × UsageTable :=
  if Text.strip q.tokenId = "" then (.error (.valueError "token_id must not be empty"), t)
  else if q.maxExecutions ≤ 0 then (.error (.valueError "max_executions must be a positive integer"), t)
  else if q.expireAtEpoch ≤ 0 then (.error (.valueError "expire_at_epoch must be a positive integer"), t)
  else if !available then (.error (.store "Intent token usage store unavailable"), t)
  else t.transaction { q with tokenId := Text.strip q.tokenId } now

/-! ## Counting -/

end UsageTable

def granted : Except ConsumeError (Bool × ℤ) → Bool
  | .ok (true, _) => true
  | _ => false

def UsageRow.Of (q : Quota) (row : UsageRow) : Prop := row.executionsLimit = q.maxExecutions ∧ row.expireAtEpoch = q.expireAtEpoch

namespace UsageTable

variable {t : UsageTable} {q q' : Quota} {now : ℚ} {n : ℕ}

theorem transaction_cases (t : UsageTable) (q : Quota) (now : ℚ) :
    (∃ e, t.transaction q now = (.error e, t)) ∨ (∃ used, t.transaction q now = (.ok (false, used), t.collect now)) ∨
      ((t.collect now).get? q.tokenId = none ∧ t.transaction q now = (.ok (true, 1), (t.collect now).insert
        { tokenId := q.tokenId, executionsUsed := 1, executionsLimit := q.maxExecutions, expireAtEpoch := q.expireAtEpoch })) ∨
      ∃ row, (t.collect now).get? q.tokenId = some row ∧ row.Of q ∧ row.executionsUsed < q.maxExecutions ∧
        t.transaction q now = (.ok (true, row.executionsUsed + 1),
          (t.collect now).insert { row with executionsUsed := row.executionsUsed + 1 }) := by
  unfold transaction
  dsimp only
  cases hget : (t.collect now).get? q.tokenId with
  | none =>
    dsimp only
    split
    · exact .inr (.inr (.inl ⟨rfl, rfl⟩))
    · exact .inl ⟨_, rfl⟩
  | some row =>
    dsimp only
    split
    · exact .inl ⟨_, rfl⟩
    · rename_i hpolicy
      have hof : row.Of q := by
        simp only [ne_eq, not_or, not_not] at hpolicy
        exact hpolicy
      split
      · exact .inr (.inl ⟨_, rfl⟩)
      · exact .inr (.inr (.inr ⟨row, rfl, hof, by omega, rfl⟩))

theorem consume_cases (t : UsageTable) (hid : Text.strip q.tokenId = q.tokenId) (now : ℚ) (available : Bool) :
    (∃ e, t.consume q now available = (.error e, t)) ∨ t.consume q now available = t.transaction q now := by
  unfold consume
  rw [hid]
  split
  · exact .inl ⟨_, rfl⟩
  · split
    · exact .inl ⟨_, rfl⟩
    · split
      · exact .inl ⟨_, rfl⟩
      · split
        · exact .inl ⟨_, rfl⟩
        · exact .inr rfl

/-- The table has counted so many executions of the quota, if any. -/
structure Counts (q : Quota) (n : ℕ) (t : UsageTable) : Prop where
  row : ∀ row, t.get? q.tokenId = some row → row.Of q → n ≤ row.executionsUsed ∧ row.executionsUsed ≤ q.maxExecutions
  none : (∀ row, t.get? q.tokenId = some row → ¬ row.Of q) → n = 0

theorem get?_collect_of {row : UsageRow} (hnow : ⌊now⌋ < q.expireAtEpoch) (hget : t.get? q.tokenId = some row) (hof : row.Of q) :
    (t.collect now).get? q.tokenId = some row := by
  have hkept : ¬ row.expireAtEpoch ≤ ⌊now⌋ := by
    rw [hof.2]
    omega
  rw [collect, Table.get?_filter, hget]
  simp [hkept]

theorem get?_of_collect {row : UsageRow} {sid : String} (hget : (t.collect now).get? sid = some row) : t.get? sid = some row := by
  rw [collect, Table.get?_filter] at hget
  exact (Option.filter_eq_some_iff.mp hget).1

theorem Counts.collect (h : Counts q n t) (hnow : ⌊now⌋ < q.expireAtEpoch) : Counts q n (t.collect now) where
  row row hget hof := h.row row (get?_of_collect hget) hof
  none hnone := h.none fun row hget hof => hnone row (get?_collect_of hnow hget hof) hof

theorem Counts.mono (h : Counts q n t) {m : ℕ} (hle : m ≤ n) : Counts q m t where
  row row hget hof := ⟨le_trans (by exact_mod_cast hle) (h.row row hget hof).1, (h.row row hget hof).2⟩
  none hnone := by
    have hzero := h.none hnone
    omega

theorem Counts.le (h : Counts q n t) (hpos : 0 < q.maxExecutions) : n ≤ q.maxExecutions := by
  by_cases hrow : ∃ row, t.get? q.tokenId = some row ∧ row.Of q
  · obtain ⟨row, hget, hof⟩ := hrow
    exact (h.row row hget hof).1.trans (h.row row hget hof).2
  · have hzero : n = 0 := h.none fun row hget hof => hrow ⟨row, hget, hof⟩
    omega

theorem Counts.insert_of_ne (h : Counts q n t) {row : UsageRow} (hne : row.tokenId ≠ q.tokenId) : Counts q n (t.insert row) where
  row r hget := h.row r (by rwa [Table.get?_insert_of_ne hne] at hget)
  none hnone := h.none fun r hget => hnone r (by rwa [Table.get?_insert_of_ne hne])

theorem Counts.transaction (h : Counts q n t) (hpos : 0 < q.maxExecutions) (hnow : ⌊now⌋ < q.expireAtEpoch) :
    Counts q (n + if q' = q ∧ granted (t.transaction q' now).1 = true then 1 else 0) (t.transaction q' now).2 := by
  have hcollected := h.collect hnow
  rcases t.transaction_cases q' now with ⟨e, he⟩ | ⟨used, hused⟩ | ⟨hget, hopen⟩ | ⟨row, hget, hof, hlt, hcount⟩
  · rw [he, if_neg (by rintro ⟨-, ⟨⟩⟩)]
    exact h
  · rw [hused, if_neg (by rintro ⟨-, ⟨⟩⟩)]
    exact hcollected
  · rw [hopen]
    by_cases hq : q' = q
    · subst hq
      rw [if_pos ⟨rfl, rfl⟩]
      -- nothing was counted before, or the row would be there still
      have hzero : n = 0 := hcollected.none fun row hrow => nomatch hget.symm.trans hrow
      refine ⟨fun row hrow _ => ?_, fun hnone => ?_⟩
      · rw [Table.get?_insert_self] at hrow
        obtain rfl := Option.some.inj hrow
        simp only [hzero]
        exact ⟨by norm_num, by omega⟩
      · exact absurd ⟨rfl, rfl⟩ (hnone _ (Table.get?_insert_self _ _))
    · rw [if_neg fun h => hq h.1]
      by_cases hid : q'.tokenId = q.tokenId
      · -- the new row is of another policy
        have hother : ¬ UsageRow.Of q
            { tokenId := q'.tokenId, executionsUsed := 1, executionsLimit := q'.maxExecutions, expireAtEpoch := q'.expireAtEpoch } := by
          rintro ⟨hmax, hexpire⟩
          cases q
          cases q'
          exact hq (by simp_all)
        rw [hid] at hget
        have hzero : n = 0 := hcollected.none fun row hrow => nomatch hget.symm.trans hrow
        refine ⟨fun row hrow hof => ?_, fun _ => hzero⟩
        rw [← hid, Table.get?_insert_self] at hrow
        exact absurd (Option.some.inj hrow ▸ hof) hother
      · exact hcollected.insert_of_ne hid
  · rw [hcount]
    obtain ⟨-, hkey⟩ := Table.get?_eq_some.mp hget
    by_cases hq : q' = q
    · subst hq
      rw [if_pos ⟨rfl, rfl⟩]
      obtain ⟨hle, -⟩ := hcollected.row row hget hof
      have hself : ((t.collect now).insert { row with executionsUsed := row.executionsUsed + 1 }).get? q'.tokenId =
          some { row with executionsUsed := row.executionsUsed + 1 } := by
        rw [← hkey]
        exact Table.get?_insert_self _ _
      refine ⟨fun r hr _ => ?_, fun hnone => (hnone _ hself hof).elim⟩
      obtain rfl := Option.some.inj (hself.symm.trans hr)
      push_cast
      exact ⟨by omega, by omega⟩
    · rw [if_neg fun h => hq h.1]
      by_cases hid : q'.tokenId = q.tokenId
      · have hother : ¬ row.Of q := by
          rintro ⟨hmax, hexpire⟩
          obtain ⟨hmax', hexpire'⟩ := hof
          cases q
          cases q'
          exact hq (by simp_all)
        rw [hid] at hget
        have hself : ((t.collect now).insert { row with executionsUsed := row.executionsUsed + 1 }).get? q.tokenId =
            some { row with executionsUsed := row.executionsUsed + 1 } := by
          rw [← hid, ← hkey]
          exact Table.get?_insert_self _ _
        have hzero : n = 0 := hcollected.none fun r hr => Option.some.inj (hget.symm.trans hr) ▸ hother
        refine ⟨fun r hr hof' => ?_, fun _ => hzero⟩
        obtain rfl := Option.some.inj (hself.symm.trans hr)
        exact absurd hof' hother
      · exact hcollected.insert_of_ne (by rwa [← hkey] at hid)

end UsageTable

end AgentProtocol.A4P
