-- SUMMARY: Which services a reservation claims: the first eligible ones by id, but one of them even when none are asked for.
import AgentProtocol.Register.Reservation

/-!
# The services that a reservation claims

A service is eligible when it is not leased, not unhealthy, matches the filters and has a row in
the output. The loop of `reserve_services` claims before it counts, so it claims at least one
service if there is one.
-/

namespace AgentProtocol.Register

open Lib

/-! ## What should be claimed -/

/-- The service can be claimed: its lease, if it has one, has expired, and both tables have it. -/
structure Eligible (leases : Reservations) (w : World) (dataset : String) (filters : Dict String String) (serviceId : String) :
    Prop where
  entry : ∃ e ∈ (w.entries dataset).rows, e.serviceId = serviceId ∧ entryMatchesFilters w.isPrintable e filters = true
  free : ∀ lease, leases.lookup (dataset, serviceId) = some lease → lease.expiresAt ≤ w.monotonic
  healthy : w.isUnhealthy dataset serviceId = false
  cached : ∃ row ∈ w.outputCache dataset, row.id = serviceId

/-- The first `n` of the strings that satisfy `P`, in ascending order; all of them if there are fewer. -/
def FirstOf (P : String → Prop) (n : ℕ) (ids : List String) : Prop :=
  ∃ eligible : List String, eligible.Pairwise (· < ·) ∧ (∀ id, id ∈ eligible ↔ P id) ∧ ids = eligible.take n

/-- The leases after the services of the dataset are leased anew: live leases stay, expired ones are gone. -/
def Leased (leases after : Reservations) (w : World) (dataset : String) (ids : List String) (lease : Reservation) : Prop :=
  ∀ key : ServiceKey, after.lookup key =
    if key.1 = dataset ∧ key.2 ∈ ids then some lease
    else (leases.lookup key).filter fun lease => w.monotonic < lease.expiresAt

/-- The call returns the output rows of the first `n` eligible services and leases exactly these. -/
def ClaimsExactly (leases : Reservations) (w : World) (dataset : String) (filters : Dict String String) (n ttlSeconds : ℤ)
    (holderId : Option String) (caller : Option AuthContext) (fresh : String) : Prop :=
  ∃ rows : List OutputRow, (∀ row ∈ rows, row ∈ w.outputCache dataset) ∧
    FirstOf (Eligible leases w dataset filters) n.toNat (rows.map (·.id)) ∧
    ∃ after : Reservations,
      leases.reserveServices w dataset filters n ttlSeconds holderId caller fresh =
        (.ok (Reservations.resolveHolder holderId caller fresh, w.time + ttlSeconds, rows), after) ∧
      Leased leases after w dataset (rows.map (·.id))
        { holderId := Reservations.resolveHolder holderId caller fresh, acquiredAt := w.monotonic
          expiresAt := w.monotonic + ttlSeconds }

namespace Reservations

variable {leases : Reservations} {w : World} {dataset : String} {filters : Dict String String} {n ttlSeconds : ℤ}
  {holderId : Option String} {caller : Option AuthContext} {fresh : String}

/-! ## The loop -/

theorem claim_eq_take (entries : List Entry) : ∀ claimed : List OutputRow, leases.claim w dataset filters n claimed entries =
      claimed ++ (entries.filterMap (leases.claimable w dataset filters)).take (max 1 (n.toNat - claimed.length)) := by
  induction entries with
  | nil =>
    intro claimed
    simp [claim]
  | cons e entries ih =>
    intro claimed
    unfold claim
    cases hrow : leases.claimable w dataset filters e with
    | none =>
      rw [List.filterMap_cons_none hrow]
      exact ih claimed
    | some row =>
      rw [List.filterMap_cons_some hrow]
      dsimp only
      split
      · rename_i hfull
        have hone : max 1 (n.toNat - claimed.length) = 1 := by omega
        rw [hone]
        rfl
      · rename_i hmore
        have hlength : (claimed ++ [row]).length = claimed.length + 1 := by simp
        have hsucc : max 1 (n.toNat - claimed.length) = max 1 (n.toNat - (claimed.length + 1)) + 1 := by omega
        rw [ih, hlength, hsucc, List.take_succ_cons, List.append_assoc]
        rfl

theorem pairwise_sorted (entries : Table Entry.serviceId) :
    (entries.rows.insertionSort fun a b => a.serviceId ≤ b.serviceId).Pairwise fun a b => a.serviceId < b.serviceId := by
  have hle : (entries.rows.insertionSort fun a b => a.serviceId ≤ b.serviceId).Pairwise fun a b => a.serviceId ≤ b.serviceId :=
    List.pairwise_insertionSort _ _
  have hperm := (List.perm_insertionSort (fun a b : Entry => a.serviceId ≤ b.serviceId) entries.rows).map Entry.serviceId
  have hne := List.pairwise_map.mp (hperm.nodup_iff.mpr entries.nodup)
  exact (hle.and hne).imp fun h => lt_of_le_of_ne h.1 h.2

/-! ## What the loop accepts -/

theorem mem_outputCache {serviceId : String} {row : OutputRow}
    (h : (Dict.ofList ((w.outputCache dataset).map fun row => (row.id, row))).lookup serviceId = some row) :
    row ∈ w.outputCache dataset := by
  rcases Table.mem_of_mem_insertAll (Dict.lookup_eq_some.mp h) with hmem | hmem
  · cases hmem
  obtain ⟨row', hrow', heq⟩ := List.mem_map.mp hmem
  obtain ⟨-, rfl⟩ := Prod.mk.inj heq
  exact hrow'

theorem isSome_cached {serviceId : String} :
    ((Dict.ofList ((w.outputCache dataset).map fun row => (row.id, row))).lookup serviceId).isSome = true ↔
      ∃ row ∈ w.outputCache dataset, row.id = serviceId := by
  refine Dict.contains_ofList.trans ?_
  simp

theorem contains_sweep_eq_false {key : ServiceKey} : (leases.sweep w.monotonic).contains key = false ↔
      ∀ lease, leases.lookup key = some lease → lease.expiresAt ≤ w.monotonic := by
  rw [contains_eq_false, lookup_sweep, Option.filter_eq_none_iff]
  simp

theorem isSome_claimable {e : Entry} (he : e ∈ (w.entries dataset).rows) :
    ((leases.sweep w.monotonic).claimable w dataset filters e).isSome = true ↔ Eligible leases w dataset filters e.serviceId := by
  constructor
  · intro h
    unfold claimable at h
    split at h
    · cases h
    rename_i hfree
    split at h
    · cases h
    rename_i hhealthy
    split at h
    · cases h
    rename_i hmatches
    exact
      { entry := ⟨e, he, rfl, by simpa using hmatches⟩
        free := contains_sweep_eq_false.mp (by simpa using hfree)
        healthy := by simpa using hhealthy
        cached := isSome_cached.mp h }
  · rintro ⟨⟨e', he', hid, hmatches⟩, hfree, hhealthy, hcached⟩
    -- ids are unique among the entries
    obtain rfl : e' = e := Table.eq_of_key he' he hid
    unfold claimable
    rw [contains_sweep_eq_false.mpr hfree, hhealthy, hmatches]
    exact isSome_cached.mpr hcached

/-! ## What a call claims -/

/-- The rows that the loop can claim, in its order. -/
def claimables (leases : Reservations) (w : World) (dataset : String) (filters : Dict String String) : List OutputRow :=
  ((w.entries dataset).rows.insertionSort fun a b => a.serviceId ≤ b.serviceId).filterMap
    ((leases.sweep w.monotonic).claimable w dataset filters)

theorem pairwise_claimables : ((leases.claimables w dataset filters).map (·.id)).Pairwise (· < ·) := by
  refine List.pairwise_map.mpr (List.pairwise_filterMap.mpr ((pairwise_sorted (w.entries dataset)).imp ?_))
  intro a b hlt row hrow row' hrow'
  rw [(claimable_eq_some hrow).1, (claimable_eq_some hrow').1]
  exact hlt

theorem mem_claimables {id : String} :
    id ∈ (leases.claimables w dataset filters).map (·.id) ↔ Eligible leases w dataset filters id := by
  have hsorted : ∀ e, e ∈ (w.entries dataset).rows.insertionSort (fun a b => a.serviceId ≤ b.serviceId) ↔
      e ∈ (w.entries dataset).rows := fun e => (List.perm_insertionSort _ _).mem_iff
  constructor
  · intro h
    obtain ⟨row, hrow, rfl⟩ := List.mem_map.mp h
    obtain ⟨e, he, hclaimable⟩ := List.mem_filterMap.mp hrow
    rw [(claimable_eq_some hclaimable).1]
    exact (isSome_claimable ((hsorted e).mp he)).mp (Option.isSome_of_eq_some hclaimable)
  · intro h
    obtain ⟨e, he, rfl, -⟩ := h.entry
    obtain ⟨row, hrow⟩ := Option.isSome_iff_exists.mp ((isSome_claimable he).mpr h)
    exact List.mem_map.mpr ⟨row, List.mem_filterMap.mpr ⟨e, (hsorted e).mpr he, hrow⟩, (claimable_eq_some hrow).1⟩

theorem mem_outputCache_of_claimables {row : OutputRow} (h : row ∈ leases.claimables w dataset filters) :
    row ∈ w.outputCache dataset := by
  obtain ⟨e, -, hrow⟩ := List.mem_filterMap.mp h
  unfold claimable at hrow
  split at hrow
  · cases hrow
  split at hrow
  · cases hrow
  split at hrow
  · cases hrow
  exact mem_outputCache hrow

theorem reserveServices_eq (leases : Reservations) (w : World) (dataset : String) (filters : Dict String String)
    (holderId : Option String) (caller : Option AuthContext) (fresh : String) (hn : 0 ≤ n) (httl : 1 ≤ ttlSeconds) :
    leases.reserveServices w dataset filters n ttlSeconds holderId caller fresh =
      (.ok (resolveHolder holderId caller fresh, w.time + ttlSeconds, (leases.claimables w dataset filters).take (max 1 n.toNat)),
        (leases.sweep w.monotonic).insertAll (((leases.claimables w dataset filters).take (max 1 n.toNat)).map fun row =>
          ((dataset, row.id), { holderId := resolveHolder holderId caller fresh, acquiredAt := w.monotonic
                                expiresAt := w.monotonic + ttlSeconds }))) := by
  unfold reserveServices
  rw [if_neg (not_lt.mpr hn), if_neg (not_lt.mpr httl)]
  dsimp only
  rw [claim_eq_take]
  rfl

theorem leased_insertAll (rows : List OutputRow) (lease : Reservation) :
    Leased leases ((leases.sweep w.monotonic).insertAll (rows.map fun row => ((dataset, row.id), lease))) w dataset
      (rows.map (·.id)) lease := by
  intro key
  split
  · rename_i hkey
    obtain ⟨rfl, hid⟩ := hkey
    obtain ⟨row, hrow, hid⟩ := List.mem_map.mp hid
    refine Dict.lookup_insertAll_of_mem (List.mem_map.mpr ⟨row, hrow, by rw [hid]⟩) ?_
    intro lease' hmem
    obtain ⟨row', -, heq⟩ := List.mem_map.mp hmem
    exact (Prod.mk.inj heq).2.symm
  · rename_i hkey
    rw [Dict.lookup_insertAll_of_notMem, lookup_sweep]
    · simp only [← not_lt, decide_not, Bool.not_not]
    · intro lease' hmem
      obtain ⟨row, hrow, heq⟩ := List.mem_map.mp hmem
      obtain ⟨hkey', -⟩ := Prod.mk.inj heq
      exact hkey ⟨by rw [← hkey'], List.mem_map.mpr ⟨row, hrow, by rw [← hkey']⟩⟩

end Reservations

end AgentProtocol.Register
