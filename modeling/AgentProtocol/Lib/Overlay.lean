-- SUMMARY: Overlays of versioned records with eviction by origin, a cooldown after it, and garbage collection.
import AgentProtocol.Lib.Table
import AgentProtocol.Lib.Lww

/-!
# Overlays

An overlay keeps the latest record per key, as last-writer-wins slots do, on
behalf of a node that refuses records of its own origin. Records can be lost in
two ways. Evicting an origin drops all of its records and refuses new ones until
a deadline; the deadline is lifted when the origin is heard from directly, and
may be pruned once it has passed. Collection drops the records that satisfy a
predicate.

The state of an overlay changes only by `act`, so what holds of every run of
actions holds of every system whose steps can be read as actions.
-/

namespace Lib

/-- How records are filed, where they come from and which one wins. -/
structure Scheme (R κ O V : Type) where
  key : R → κ
  origin : R → O
  version : R → V

structure Overlay {R κ O V : Type} (S : Scheme R κ O V) (T : Type) where
  records : Table S.key
  /-- Per origin, the time until which its records are refused. -/
  deadlines : Dict O T

namespace Overlay

variable {R κ O V T : Type}

inductive Action (R O T : Type) where
  | offer (r : R)
  | lift (o : O)
  | evict (o : O) (deadline : T)
  | prune
  | collect (drop : R → Bool)

/-- The record that an action offers. -/
def Action.offered : Action R O T → Option R
  | .offer r => some r
  | _ => none

/-- Can the action drop records? -/
def Action.drops : Action R O T → Bool
  | .evict .. => true
  | .collect _ => true
  | _ => false

section Suppression

variable [DecidableEq O] [LinearOrder T] {S : Scheme R κ O V}

/-- Is the origin still in its cooldown? -/
def suppressed (o : Overlay S T) (now : T) (origin : O) : Bool :=
  match o.deadlines.lookup origin with
  | none => false
  | some deadline => decide (now < deadline)

theorem suppressed_eq_true {o : Overlay S T} {now : T} {origin : O} :
    o.suppressed now origin = true ↔ ∃ d, o.deadlines.lookup origin = some d ∧ now < d := by
  unfold suppressed
  cases o.deadlines.lookup origin <;> simp

/-- No origin that is in its cooldown has a record in the overlay. -/
def Clean (o : Overlay S T) (now : T) : Prop :=
  ∀ origin d, o.deadlines.lookup origin = some d → now < d → ∀ r ∈ o.records.rows, S.origin r ≠ origin

theorem Clean.mono {o : Overlay S T} {now now' : T} (h : o.Clean now) (hle : now ≤ now') : o.Clean now' :=
  fun origin d hd hlt => h origin d hd (hle.trans_lt hlt)

/-- The origin's cooldown lasts at least until `d`. -/
def SuppressedUntil (o : Overlay S T) (origin : O) (d : T) : Prop :=
  ∃ d', o.deadlines.lookup origin = some d' ∧ d ≤ d'

end Suppression

variable [DecidableEq κ] [DecidableEq O] [LinearOrder V] [LinearOrder T] {S : Scheme R κ O V}

/-- Store the record if it is admissible and newer than the one it would replace. -/
def offer (own : O) (now : T) (o : Overlay S T) (r : R) : Overlay S T :=
  if S.origin r = own then o
  else if o.suppressed now (S.origin r) then o
  else if !Lww.newer (S.version r) ((o.records.get? (S.key r)).map S.version) then o
  else { o with records := o.records.insert r }

def act (own : O) (now : T) (o : Overlay S T) : Action R O T → Overlay S T
  | .offer r => o.offer own now r
  | .lift origin => { o with deadlines := o.deadlines.erase origin }
  | .evict origin deadline =>
    { records := o.records.filter fun r => S.origin r ≠ origin
      deadlines := o.deadlines.set origin deadline }
  | .prune => { o with deadlines := o.deadlines.filter fun p => !decide (now ≥ p.2) }
  | .collect drop => { o with records := o.records.filter fun r => !drop r }

def actAll (own : O) (now : T) (o : Overlay S T) (acts : List (Action R O T)) : Overlay S T :=
  acts.foldl (act own now) o

variable {own : O} {now : T} {o : Overlay S T}

@[simp] theorem actAll_nil : o.actAll own now [] = o := rfl

@[simp] theorem actAll_cons (a : Action R O T) (acts : List (Action R O T)) :
    o.actAll own now (a :: acts) = (o.act own now a).actAll own now acts := rfl

variable {acts : List (Action R O T)}

theorem actAll_induct {P : Overlay S T → Prop}
    (step : ∀ o, P o → ∀ a ∈ acts, P (o.act own now a)) (h : P o) : P (o.actAll own now acts) := by
  induction acts generalizing o with
  | nil => exact h
  | cons a acts ih =>
    exact ih (fun o ho b hb => step o ho b (by simp [hb])) (step o h a (by simp))

/-! ## Slots -/

theorem offer_records (own : O) (now : T) (o : Overlay S T) (r : R) : (o.offer own now r).records = o.records ∨
      (S.origin r ≠ own ∧ o.suppressed now (S.origin r) = false ∧ (o.offer own now r).records = o.records.insert r) := by
  unfold offer
  split
  · exact .inl rfl
  · rename_i hown
    split
    · exact .inl rfl
    · rename_i hsup
      split
      · exact .inl rfl
      · exact .inr ⟨hown, Bool.eq_false_iff.mpr hsup, rfl⟩

@[simp] theorem offer_deadlines (r : R) : (o.offer own now r).deadlines = o.deadlines := by
  unfold offer
  repeat' split
  all_goals rfl

theorem get?_offer {r : R} (hown : S.origin r ≠ own) (hsup : o.suppressed now (S.origin r) = false)
    (k : κ) : (o.offer own now r).records.get? k =
      if S.key r = k then Lww.offer S.version (o.records.get? k) r else o.records.get? k := by
  simp only [offer, hown, if_false, hsup, Bool.false_eq_true]
  by_cases hk : S.key r = k
  · subst hk
    by_cases hnew : Lww.newer (S.version r) ((o.records.get? (S.key r)).map S.version) = true
    · simp [Lww.offer, hnew]
    · simp [Lww.offer, hnew]
  · by_cases hnew : Lww.newer (S.version r) ((o.records.get? (S.key r)).map S.version) = true
    · simp [hnew, hk, Table.get?_insert_of_ne hk]
    · simp [hnew, hk]

variable {k : κ}

theorem offer_mono (own : O) (now : T) {m : R} (h : o.records.get? k = some m) (r : R) :
    ∃ m', (o.offer own now r).records.get? k = some m' ∧ S.version m ≤ S.version m' := by
  by_cases hown : S.origin r = own
  · exact ⟨m, by simp [offer, hown, h], le_refl _⟩
  · cases hsup : o.suppressed now (S.origin r) with
    | true => exact ⟨m, by simp [offer, hown, hsup, h], le_refl _⟩
    | false =>
      rw [get?_offer hown hsup]
      split
      · exact Lww.offer_mono S.version h r
      · exact ⟨m, h, le_refl _⟩

/-- The records of a sequence of actions that are offered to the slot `k`. -/
def offersTo (S : Scheme R κ O V) (k : κ) (acts : List (Action R O T)) : List R :=
  (acts.filterMap Action.offered).filter fun r => decide (S.key r = k)

theorem get?_actAll (hkeep : ∀ a ∈ acts, a.drops = false) (hown : ∀ r ∈ offersTo S k acts, S.origin r ≠ own)
    (hsup : ∀ r ∈ offersTo S k acts, o.suppressed now (S.origin r) = false) : (o.actAll own now acts).records.get? k =
      Lww.offerAll S.version (o.records.get? k) (offersTo S k acts) := by
  induction acts generalizing o with
  | nil => rfl
  | cons a acts ih =>
    have hkeep' : ∀ b ∈ acts, b.drops = false := fun b hb => hkeep b (by simp [hb])
    rw [actAll_cons]
    cases a with
    | evict o' d => cases hkeep (.evict o' d) (by simp)
    | collect p => cases hkeep (.collect p) (by simp)
    | offer r =>
      have hsplit : offersTo S k (.offer r :: acts) =
          (if S.key r = k then [r] else []) ++ offersTo S k acts := by
        by_cases hk : S.key r = k <;> simp [offersTo, Action.offered, hk]
      rw [hsplit] at hown hsup ⊢
      rw [ih hkeep' (fun r' hr' => hown r' (by simp [hr']))
        (fun r' hr' => by
          have := hsup r' (by simp [hr'])
          simpa [act, suppressed] using this)]
      by_cases hk : S.key r = k
      · rw [act, get?_offer (hown r (by simp [hk])) (hsup r (by simp [hk]))]
        simp [hk, Lww.offerAll]
      · -- An offer to another slot leaves this one alone, stored or not.
        have hother : (o.act own now (.offer r)).records.get? k = o.records.get? k := by
          rcases offer_records own now o r with h | ⟨-, -, h⟩
          · rw [act, h]
          · rw [act, h, Table.get?_insert_of_ne hk]
        simp [hother, hk]
    | lift origin =>
      refine ih hkeep' hown fun r hr => ?_
      have := hsup r hr
      rw [← Bool.not_eq_true, suppressed_eq_true] at this ⊢
      rintro ⟨d, hd, hlt⟩
      rw [act, Dict.lookup_erase] at hd
      split at hd
      · cases hd
      exact this ⟨d, hd, hlt⟩
    | prune =>
      refine ih hkeep' hown fun r hr => ?_
      have := hsup r hr
      rw [← Bool.not_eq_true, suppressed_eq_true] at this ⊢
      rintro ⟨d, hd, hlt⟩
      rw [act, Dict.lookup_filter] at hd
      exact this ⟨d, (Option.filter_eq_some_iff.mp hd).1, hlt⟩

variable {a : Action R O T}

theorem get?_act_of_not_offer (h : a.offered = none) (k : κ) :
    (o.act own now a).records.get? k = o.records.get? k ∨ (o.act own now a).records.get? k = none := by
  cases a with
  | offer r => cases h
  | lift | prune => exact .inl rfl
  | evict origin d =>
    rw [act, Table.get?_filter]
    cases o.records.get? k with
    | none => exact .inl rfl
    | some r => by_cases hr : S.origin r = origin <;> simp [Option.filter, hr]
  | collect p =>
    rw [act, Table.get?_filter]
    cases o.records.get? k with
    | none => exact .inl rfl
    | some r => cases hr : p r <;> simp [Option.filter, hr]

theorem foreign_act (h : ∀ r ∈ o.records.rows, S.origin r ≠ own) (a : Action R O T) :
    ∀ r ∈ (o.act own now a).records.rows, S.origin r ≠ own := by
  intro r hr
  cases a with
  | offer r₀ =>
    rcases offer_records own now o r₀ with he | ⟨hown, -, he⟩
    · rw [act, he] at hr
      exact h r hr
    · rw [act, he, Table.mem_insert] at hr
      rcases hr with rfl | ⟨hr, -⟩
      · exact hown
      · exact h r hr
  | lift | prune => exact h r hr
  | evict | collect => exact h r (List.mem_of_mem_filter hr)

/-! ## Cooldown -/

theorem Clean.act (h : o.Clean now) (a : Action R O T) : (o.act own now a).Clean now := by
  intro origin d hd hlt r hr
  cases a with
  | offer r₀ =>
    rw [Overlay.act, offer_deadlines] at hd
    rcases offer_records own now o r₀ with he | ⟨-, hsup, he⟩
    · rw [Overlay.act, he] at hr
      exact h origin d hd hlt r hr
    · rw [Overlay.act, he, Table.mem_insert] at hr
      rcases hr with rfl | ⟨hr, -⟩
      · -- The stored record's origin is not suppressed, so it is not `origin`.
        intro ho
        rw [← Bool.not_eq_true, suppressed_eq_true, ho] at hsup
        exact hsup ⟨d, hd, hlt⟩
      · exact h origin d hd hlt r hr
  | lift o' =>
    rw [Overlay.act, Dict.lookup_erase] at hd
    split at hd
    · cases hd
    exact h origin d hd hlt r hr
  | evict o' d' =>
    rw [Overlay.act, Table.filter_rows, List.mem_filter] at hr
    by_cases ho : o' = origin
    · subst ho
      simpa using hr.2
    · rw [Overlay.act, Dict.lookup_set_of_ne ho] at hd
      exact h origin d hd hlt r hr.1
  | prune =>
    rw [Overlay.act, Dict.lookup_filter] at hd
    exact h origin d (Option.filter_eq_some_iff.mp hd).1 hlt r hr
  | collect p =>
    rw [Overlay.act, Table.filter_rows, List.mem_filter] at hr
    exact h origin d hd hlt r hr.1

theorem Clean.actAll (h : o.Clean now) (acts : List (Action R O T)) : (o.actAll own now acts).Clean now :=
  actAll_induct (P := fun o => o.Clean now) (fun _ ho a _ => ho.act a) h

theorem SuppressedUntil.act {origin : O} {d : T} (h : o.SuppressedUntil origin d) (hlt : now < d)
    (hlift : ∀ o', a = .lift o' → o' ≠ origin) (hevict : ∀ o' d', a = .evict o' d' → o' = origin → d ≤ d') :
    (o.act own now a).SuppressedUntil origin d := by
  obtain ⟨d₀, hd₀, hle⟩ := h
  cases a with
  | offer r => exact ⟨d₀, by rw [Overlay.act, offer_deadlines, hd₀], hle⟩
  | lift o' =>
    refine ⟨d₀, ?_, hle⟩
    rw [Overlay.act, Dict.lookup_erase, if_neg (hlift o' rfl).symm, hd₀]
  | evict o' d' =>
    by_cases ho : o' = origin
    · exact ⟨d', by rw [Overlay.act, Dict.lookup_set, if_pos ho], hevict o' d' rfl ho⟩
    · exact ⟨d₀, by rw [Overlay.act, Dict.lookup_set_of_ne ho, hd₀], hle⟩
  | prune =>
    refine ⟨d₀, ?_, hle⟩
    rw [Overlay.act, Dict.lookup_filter, hd₀]
    simp [Option.filter, hlt.trans_le hle]
  | collect p => exact ⟨d₀, hd₀, hle⟩

/-! ## Floors -/

/-- The slot `k` holds a record at least as new as `v`. -/
def Holds (o : Overlay S T) (k : κ) (v : V) : Prop :=
  ∃ m, o.records.get? k = some m ∧ v ≤ S.version m

theorem Holds.act {v : V} (h : o.Holds k v)
    (hevict : ∀ origin d, a = .evict origin d → ∀ m, o.records.get? k = some m → S.origin m ≠ origin)
    (hcollect : ∀ p, a = .collect p → ∀ m, o.records.get? k = some m → p m = false) : (o.act own now a).Holds k v := by
  obtain ⟨m, hm, hle⟩ := h
  cases a with
  | offer r =>
    obtain ⟨m', hm', hle'⟩ := offer_mono own now hm r
    exact ⟨m', hm', hle.trans hle'⟩
  | lift | prune => exact ⟨m, hm, hle⟩
  | evict origin d =>
    refine ⟨m, ?_, hle⟩
    rw [Overlay.act, Table.get?_filter, hm]
    simp [Option.filter, hevict origin d rfl m hm]
  | collect p =>
    refine ⟨m, ?_, hle⟩
    rw [Overlay.act, Table.get?_filter, hm]
    simp [Option.filter, hcollect p rfl m hm]

end Overlay

end Lib
