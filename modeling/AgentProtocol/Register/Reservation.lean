-- SUMMARY: Reservations of services: exclusive leases with lazy expiry, and who may extend or release them.
import AgentProtocol.Lib.Run
import AgentProtocol.Register.Registry

/-!
# Reservations

A reservation leases services to a holder until a deadline. Expired leases are dropped by the
next call that looks. Leases are for ids: what is registered under an id may change meanwhile, so
the entries, the output and the health of services are inputs of each call.
-/

namespace AgentProtocol.Register

open Lib

/-- `_Lease`. -/
structure Reservation where
  holderId : String
  acquiredAt : ℚ
  expiresAt : ℚ
  deriving DecidableEq

/-- A dataset and a service id. -/
abbrev ServiceKey := String × String

/-- `_leases`. -/
abbrev Reservations := Dict ServiceKey Reservation

/-- What the service holds besides the leases when a call is made, the clocks, and what `str.isprintable` says of characters
beyond ASCII. -/
structure World where
  entries : String → Table Entry.serviceId
  outputCache : String → List OutputRow
  isUnhealthy : String → String → Bool
  isPrintable : Char → Bool
  monotonic : ℚ
  time : ℚ

inductive ReservationFailure where
  | negativeCount (n : ℤ)
  | shortTtl (ttlSeconds : ℤ)
  | otherHolder (holderId : String)
  | heldByOther (serviceId : String)
  | noLiveLeases (holderId dataset : String)
  | notOwner (failure : Failure)
  deriving DecidableEq

/-! ## Filters -/

/-- The dump of a skill in a card, without further fields that are null. -/
def AgentSkill.dumped (s : AgentSkill) : Json := ({ s with extra := s.extra.filter (·.2 ≠ .null) } : AgentSkill).toJson

/-- The dump of the entry's model; a card is dumped without the fields that are null, and so are its skills. -/
def Entry.rawField (e : Entry) (key : String) : Option Json :=
  match e.payload with
  | .generic d => d.get? key
  | .a2a (some card) _ =>
    match key with
    | "skills" => some (.list (card.skills.map AgentSkill.dumped))
    | key => (card.get? key).filter (· ≠ .null)
  | .a2a none _ => none
  | .skill d =>
    match key with
    | "skill_path" => some (.str d.skillPath)
    | "files" => some (.strs d.files)
    | key => d.get? key

/-- `_entry_matches_filters`: a service without a status is online, and other fields are compared as `str` gives them. -/
def entryMatchesFilters (isPrintable : Char → Bool) (e : Entry) (filters : Dict String String) : Bool :=
  match e.payload with
  | .a2a none _ => false
  | _ => filters.rows.all fun p =>
      (p.1 = "status" && p.2 = "online" && (e.rawField "status").isNone) ||
        (e.rawField p.1).any fun v => v.pyStr isPrintable = p.2

namespace Reservations

def sweep (leases : Reservations) (now : ℚ) : Reservations := leases.filter fun p => !(p.2.expiresAt ≤ now)

def isLeased (leases : Reservations) (w : World) (dataset serviceId : String) : Bool × Reservations :=
  let leases := leases.sweep w.monotonic
  (leases.contains (dataset, serviceId), leases)

/-! ## Reserve -/

/-- The row of an entry that can be claimed. -/
def claimable (leases : Reservations) (w : World) (dataset : String) (filters : Dict String String) (e : Entry) :
    Option OutputRow :=
  if leases.contains (dataset, e.serviceId) then none
  else if w.isUnhealthy dataset e.serviceId then none
  else if !entryMatchesFilters w.isPrintable e filters then none
  else (Dict.ofList ((w.outputCache dataset).map fun row => (row.id, row))).lookup e.serviceId

/-- The loop over the entries. It stops after a claim, so at least one is made if there is any. -/
def claim (leases : Reservations) (w : World) (dataset : String) (filters : Dict String String) (n : ℤ) :
    List OutputRow → List Entry → List OutputRow
  | claimed, [] => claimed
  | claimed, e :: entries =>
    match claimable leases w dataset filters e with
    | none => claim leases w dataset filters n claimed entries
    | some row =>
      if n ≤ (claimed.length + 1 : ℕ) then claimed ++ [row]
      else claim leases w dataset filters n (claimed ++ [row]) entries

/-- The holder that a reservation is made for; `fresh` is a generated one. -/
def resolveHolder (holderId : Option String) (caller : Option AuthContext) (fresh : String) : String :=
  match caller with
  | some caller => caller.principalId
  | none => holderId.getD fresh

def reserveServices (leases : Reservations) (w : World) (dataset : String) (filters : Dict String String) (n ttlSeconds : ℤ)
    (holderId : Option String) (caller : Option AuthContext) (fresh : String) :
    Except ReservationFailure (String × ℚ × List OutputRow) × Reservations :=
  if n < 0 then (.error (.negativeCount n), leases)
  else if ttlSeconds < 1 then (.error (.shortTtl ttlSeconds), leases)
  else
    let holder := resolveHolder holderId caller fresh
    let leases := leases.sweep w.monotonic
    let claimed := leases.claim w dataset filters n [] ((w.entries dataset).rows.insertionSort fun a b => a.serviceId ≤ b.serviceId)
    let lease : Reservation := { holderId := holder, acquiredAt := w.monotonic, expiresAt := w.monotonic + ttlSeconds }
    (.ok (holder, w.time + ttlSeconds, claimed), leases.insertAll (claimed.map fun row => ((dataset, row.id), lease)))

/-! ## Release and extend -/

/-- Only admins may act for another holder; anonymous callers are not checked. -/
def actsFor (holderId : String) : Option AuthContext → Bool
  | none => true
  | some caller => caller.isAdmin || holderId = caller.principalId

/-- The loop over the ids to release; it ends at an id that somebody else holds. -/
def releaseEach (dataset holderId : String) :
    Reservations → List String → List String → Except ReservationFailure (List String) × Reservations
  | leases, released, [] => (.ok released, leases)
  | leases, released, sid :: sids =>
    match leases.lookup (dataset, sid) with
    | none => releaseEach dataset holderId leases released sids
    | some lease =>
      if lease.holderId ≠ holderId then (.error (.heldByOther sid), leases)
      else releaseEach dataset holderId (leases.erase (dataset, sid)) (released ++ [sid]) sids

def heldBy (dataset holderId : String) (p : ServiceKey × Reservation) : Bool := p.1.1 = dataset && p.2.holderId = holderId

def releaseReservation (leases : Reservations) (w : World) (dataset holderId : String) (serviceIds : Option (List String))
    (caller : Option AuthContext) : Except ReservationFailure (List String) × Reservations :=
  if !actsFor holderId caller then (.error (.otherHolder holderId), leases)
  else
    let leases := leases.sweep w.monotonic
    match serviceIds with
    | none => (.ok ((leases.rows.filter (heldBy dataset holderId)).map (·.1.2)), leases.filter fun p => !heldBy dataset holderId p)
    | some sids => releaseEach dataset holderId leases [] sids

/-- The check on the owner of the entry, if there is one. -/
def mayEvict (w : World) (dataset serviceId : String) : Option AuthContext → Except ReservationFailure Unit
  | none => .ok ()
  | some caller =>
    match (w.entries dataset).get? serviceId with
    | none => .ok ()
    | some entry => (assertOwner entry caller).mapError .notOwner

def releaseLeaseBySid (leases : Reservations) (w : World) (dataset serviceId : String) (caller : Option AuthContext) :
    Except ReservationFailure (Option String) × Reservations :=
  match mayEvict w dataset serviceId caller with
  | .error e => (.error e, leases)
  | .ok () =>
    let leases := leases.sweep w.monotonic
    (.ok ((leases.lookup (dataset, serviceId)).map (·.holderId)), leases.erase (dataset, serviceId))

def extendReservation (leases : Reservations) (w : World) (dataset holderId : String) (ttlSeconds : ℤ)
    (caller : Option AuthContext) : Except ReservationFailure ℚ × Reservations :=
  if ttlSeconds < 1 then (.error (.shortTtl ttlSeconds), leases)
  else if !actsFor holderId caller then (.error (.otherHolder holderId), leases)
  else
    let leases := leases.sweep w.monotonic
    if leases.rows.any (heldBy dataset holderId) then
      (.ok (w.time + ttlSeconds), leases.mapKeyed fun key lease =>
        if heldBy dataset holderId (key, lease) then { lease with expiresAt := w.monotonic + ttlSeconds } else lease)
    else (.error (.noLiveLeases holderId dataset), leases)

end Reservations

/-! ## Calls -/

inductive ReservationCall where
  | reserve (dataset : String) (filters : Dict String String) (n ttlSeconds : ℤ) (holderId : Option String)
      (caller : Option AuthContext) (fresh : String)
  | release (dataset holderId : String) (serviceIds : Option (List String)) (caller : Option AuthContext)
  | releaseBySid (dataset serviceId : String) (caller : Option AuthContext)
  | extend (dataset holderId : String) (ttlSeconds : ℤ) (caller : Option AuthContext)
  | isLeased (dataset serviceId : String)

abbrev ReservationEvent := ReservationCall × World

namespace Reservations

def step (leases : Reservations) (e : ReservationEvent) : Reservations :=
  match e.1 with
  | .reserve dataset filters n ttlSeconds holderId caller fresh =>
    (leases.reserveServices e.2 dataset filters n ttlSeconds holderId caller fresh).2
  | .release dataset holderId serviceIds caller => (leases.releaseReservation e.2 dataset holderId serviceIds caller).2
  | .releaseBySid dataset serviceId caller => (leases.releaseLeaseBySid e.2 dataset serviceId caller).2
  | .extend dataset holderId ttlSeconds caller => (leases.extendReservation e.2 dataset holderId ttlSeconds caller).2
  | .isLeased dataset serviceId => (leases.isLeased e.2 dataset serviceId).2

def returned (leases : Reservations) (e : ReservationEvent) : List ServiceKey :=
  match e.1 with
  | .reserve dataset filters n ttlSeconds holderId caller fresh =>
    match (leases.reserveServices e.2 dataset filters n ttlSeconds holderId caller fresh).1 with
    | .ok (_, _, rows) => rows.map fun row => (dataset, row.id)
    | .error _ => []
  | _ => []

def isRelease : ReservationCall → Bool
  | .release .. => true
  | .releaseBySid .. => true
  | _ => false

def Releases (leases : Reservations) (e : ReservationEvent) (key : ServiceKey) : Prop :=
  isRelease e.1 = true ∧ (leases.sweep e.2.monotonic).contains key = true ∧ (leases.step e).contains key = false

/-- The call may end or change the lease: the holder, somebody who acts for the holder, or, by the
id of the service, the owner of its entry. -/
def Permitted (e : ReservationEvent) (key : ServiceKey) (lease : Reservation) : Prop :=
  match e.1 with
  | .release dataset holderId _ caller => dataset = key.1 ∧ holderId = lease.holderId ∧ actsFor lease.holderId caller = true
  | .extend dataset holderId _ caller => dataset = key.1 ∧ holderId = lease.holderId ∧ actsFor lease.holderId caller = true
  | .releaseBySid dataset serviceId caller => (dataset, serviceId) = key ∧ mayEvict e.2 dataset serviceId caller = .ok ()
  | _ => False

end Reservations

/-! ## The time of a lease -/

/-- Who has a service, and until when, as the calls tell it. -/
structure Tenure where
  holderId : String
  endsAt : ℚ

namespace Tenure

/-- A lease that has not ended is extended by calls for its holder. -/
def step (key : ServiceKey) (t : Tenure) (e : ReservationEvent) : Tenure :=
  match e.1 with
  | .extend dataset holderId ttlSeconds caller =>
    if dataset = key.1 ∧ holderId = t.holderId ∧ 1 ≤ ttlSeconds ∧ Reservations.actsFor holderId caller = true ∧
        e.2.monotonic < t.endsAt then
      { t with endsAt := e.2.monotonic + ttlSeconds }
    else t
  | _ => t

/-- The tenure that a call of `reserve_services` gives. -/
def ofReserve (e : ReservationEvent) : Option Tenure :=
  match e.1 with
  | .reserve _ _ _ ttlSeconds holderId caller fresh =>
    some { holderId := Reservations.resolveHolder holderId caller fresh, endsAt := e.2.monotonic + ttlSeconds }
  | _ => none

end Tenure

namespace Reservations

variable {leases : Reservations} {key : ServiceKey} {lease : Reservation} {w : World}

/-! ## What a call does to a live lease -/

theorem lookup_sweep (leases : Reservations) (now : ℚ) (key : ServiceKey) :
    (leases.sweep now).lookup key = (leases.lookup key).filter fun lease => !(lease.expiresAt ≤ now) := by
  rw [sweep, Dict.lookup_filter]

variable {now : ℚ}

theorem lookup_sweep_eq_some :
    (leases.sweep now).lookup key = some lease ↔ leases.lookup key = some lease ∧ now < lease.expiresAt := by
  rw [lookup_sweep, Option.filter_eq_some_iff]
  simp

theorem contains_eq_true {d : Reservations} : d.contains key = true ↔ ∃ lease, d.lookup key = some lease :=
  Option.isSome_iff_exists

theorem contains_eq_false {d : Reservations} : d.contains key = false ↔ d.lookup key = none := by
  simp [Dict.contains]

section Claim

variable {dataset : String} {filters : Dict String String} {n : ℤ}

theorem claimable_eq_some {e : Entry} {row : OutputRow} (h : leases.claimable w dataset filters e = some row) :
    row.id = e.serviceId ∧ leases.lookup (dataset, row.id) = none := by
  unfold claimable at h
  split at h
  · cases h
  rename_i hfree
  split at h
  · cases h
  split at h
  · cases h
  have hid : row.id = e.serviceId := by
    have hmem := Dict.lookup_eq_some.mp h
    rcases Table.mem_of_mem_insertAll hmem with hmem | hmem
    · cases hmem
    obtain ⟨row', -, heq⟩ := List.mem_map.mp hmem
    obtain ⟨hid, rfl⟩ := Prod.mk.inj heq
    exact hid
  rw [hid]
  exact ⟨rfl, contains_eq_false.mp (by simpa using hfree)⟩

theorem mem_claim {entries : List Entry} {row : OutputRow} :
    ∀ {claimed : List OutputRow}, row ∈ leases.claim w dataset filters n claimed entries →
      row ∈ claimed ∨ ∃ e, leases.claimable w dataset filters e = some row := by
  induction entries with
  | nil => exact fun h => .inl h
  | cons e entries ih =>
    intro claimed h
    unfold claim at h
    split at h
    · exact ih h
    · rename_i row' hrow'
      have hnew : row ∈ claimed ++ [row'] → row ∈ claimed ∨ ∃ e, leases.claimable w dataset filters e = some row := by
        intro hmem
        rcases List.mem_append.mp hmem with hold | hnew
        · exact .inl hold
        · exact .inr ⟨e, List.mem_singleton.mp hnew ▸ hrow'⟩
      split at h
      · exact hnew h
      · rcases ih h with hmem | hclaimable
        · exact hnew hmem
        · exact .inr hclaimable

end Claim

section Reserve

variable {dataset : String} {filters : Dict String String} {n ttlSeconds : ℤ} {holderId : Option String}
  {caller : Option AuthContext} {fresh : String}

theorem reserveServices_cases (leases : Reservations) (w : World) (dataset : String) (filters : Dict String String)
    (n ttlSeconds : ℤ) (holderId : Option String) (caller : Option AuthContext) (fresh : String) :
    (∃ e, leases.reserveServices w dataset filters n ttlSeconds holderId caller fresh = (.error e, leases)) ∨
      ∃ rows : List OutputRow, 1 ≤ ttlSeconds ∧ (∀ row ∈ rows, (leases.sweep w.monotonic).lookup (dataset, row.id) = none) ∧
        leases.reserveServices w dataset filters n ttlSeconds holderId caller fresh =
          (.ok (resolveHolder holderId caller fresh, w.time + ttlSeconds, rows),
            (leases.sweep w.monotonic).insertAll (rows.map fun row => ((dataset, row.id),
              { holderId := resolveHolder holderId caller fresh, acquiredAt := w.monotonic
                expiresAt := w.monotonic + ttlSeconds }))) := by
  unfold reserveServices
  split
  · exact .inl ⟨_, rfl⟩
  · split
    · exact .inl ⟨_, rfl⟩
    · rename_i httl
      refine .inr ⟨_, by omega, fun row hrow => ?_, rfl⟩
      rcases mem_claim hrow with hmem | ⟨e, he⟩
      · cases hmem
      exact (claimable_eq_some he).2

theorem lookup_reserveServices (h : (leases.sweep w.monotonic).lookup key = some lease) :
    (leases.reserveServices w dataset filters n ttlSeconds holderId caller fresh).2.lookup key = some lease := by
  rcases reserveServices_cases leases w dataset filters n ttlSeconds holderId caller fresh with ⟨e, he⟩ | ⟨rows, -, hfree, hok⟩
  · rw [he]
    exact (lookup_sweep_eq_some.mp h).1
  · rw [hok]
    dsimp only
    rw [Dict.lookup_insertAll_of_notMem]
    · exact h
    · intro lease' hmem
      obtain ⟨row, hrow, heq⟩ := List.mem_map.mp hmem
      obtain ⟨hkey, -⟩ := Prod.mk.inj heq
      have hnone := hfree row hrow
      rw [hkey, h] at hnone
      cases hnone

end Reserve

section Release

variable {dataset holderId : String} {serviceIds : Option (List String)} {caller : Option AuthContext}

theorem lookup_releaseEach_none {sids : List String} :
    ∀ {leases : Reservations} {released : List String}, leases.lookup key = none →
      (releaseEach dataset holderId leases released sids).2.lookup key = none := by
  induction sids with
  | nil => exact fun h => h
  | cons sid sids ih =>
    intro leases released h
    unfold releaseEach
    split
    · exact ih h
    · split
      · exact h
      · apply ih
        rw [Dict.lookup_erase, h, ite_self]

theorem lookup_releaseEach {sids : List String} :
    ∀ {leases : Reservations} {released : List String}, leases.lookup key = some lease →
      (releaseEach dataset holderId leases released sids).2.lookup key = some lease ∨
      ((releaseEach dataset holderId leases released sids).2.lookup key = none ∧ dataset = key.1 ∧ holderId = lease.holderId) := by
  induction sids with
  | nil => exact fun h => .inl h
  | cons sid sids ih =>
    intro leases released h
    unfold releaseEach
    split
    · exact ih h
    · rename_i lease' hlease'
      split
      · exact .inl h
      · rename_i hholder
        by_cases hkey : key = (dataset, sid)
        · have hsame : lease' = lease := Option.some.inj (hlease'.symm.trans (hkey ▸ h))
          refine .inr ⟨?_, by rw [hkey], ?_⟩
          · apply lookup_releaseEach_none
            rw [Dict.lookup_erase, if_pos hkey]
          · rw [← hsame]
            exact (by simpa using hholder : lease'.holderId = holderId).symm
        · apply ih
          rw [Dict.lookup_erase, if_neg hkey]
          exact h

theorem lookup_releaseReservation (h : (leases.sweep w.monotonic).lookup key = some lease) :
    (leases.releaseReservation w dataset holderId serviceIds caller).2.lookup key = some lease ∨
      ((leases.releaseReservation w dataset holderId serviceIds caller).2.lookup key = none ∧
        dataset = key.1 ∧ holderId = lease.holderId ∧ actsFor lease.holderId caller = true) := by
  unfold releaseReservation
  split
  · exact .inl (lookup_sweep_eq_some.mp h).1
  · rename_i hacts
    have hacts : actsFor holderId caller = true := by simpa using hacts
    cases serviceIds with
    | none =>
      dsimp only
      rw [Dict.lookup_filter, h]
      cases hheld : heldBy dataset holderId (key, lease) with
      | false => exact .inl (by simp [Option.filter, hheld])
      | true =>
        obtain ⟨hdataset, hholder⟩ : key.1 = dataset ∧ lease.holderId = holderId := by simpa [heldBy] using hheld
        exact .inr ⟨by simp [Option.filter, hheld], hdataset.symm, hholder.symm, hholder ▸ hacts⟩
    | some sids =>
      have hloop : (releaseEach dataset holderId (leases.sweep w.monotonic) [] sids).2.lookup key = some lease ∨ _ :=
        lookup_releaseEach h
      rcases hloop with hkept | ⟨hgone, hdataset, hholder⟩
      · exact .inl hkept
      · exact .inr ⟨hgone, hdataset, hholder, hholder ▸ hacts⟩

theorem lookup_releaseLeaseBySid {serviceId : String} (h : (leases.sweep w.monotonic).lookup key = some lease) :
    (leases.releaseLeaseBySid w dataset serviceId caller).2.lookup key = some lease ∨
      ((leases.releaseLeaseBySid w dataset serviceId caller).2.lookup key = none ∧
        (dataset, serviceId) = key ∧ mayEvict w dataset serviceId caller = .ok ()) := by
  unfold releaseLeaseBySid
  cases hmay : mayEvict w dataset serviceId caller with
  | error e => exact .inl (lookup_sweep_eq_some.mp h).1
  | ok =>
    dsimp only
    rw [Dict.lookup_erase]
    split
    · rename_i hkey
      exact .inr ⟨rfl, hkey.symm, rfl⟩
    · exact .inl h

end Release

theorem lookup_extendReservation {dataset holderId : String} {ttlSeconds : ℤ} {caller : Option AuthContext}
    (h : (leases.sweep w.monotonic).lookup key = some lease) :
    (leases.extendReservation w dataset holderId ttlSeconds caller).2.lookup key =
      some (if dataset = key.1 ∧ holderId = lease.holderId ∧ 1 ≤ ttlSeconds ∧ actsFor holderId caller = true then
        { lease with expiresAt := w.monotonic + ttlSeconds } else lease) := by
  have hlease := (lookup_sweep_eq_some.mp h).1
  unfold extendReservation
  split
  · rename_i httl
    rw [if_neg (fun hall => by omega)]
    exact hlease
  · rename_i httl
    split
    · rename_i hacts
      have hnot : actsFor holderId caller ≠ true := by simpa using hacts
      rw [if_neg fun hall => hnot hall.2.2.2]
      exact hlease
    · rename_i hacts
      have hacts : actsFor holderId caller = true := by simpa using hacts
      dsimp only
      have hheld : heldBy dataset holderId (key, lease) = true ↔ dataset = key.1 ∧ holderId = lease.holderId := by
        rw [heldBy, Bool.and_eq_true, decide_eq_true_eq, decide_eq_true_eq]
        exact and_congr eq_comm eq_comm
      split
      · rw [Dict.lookup_mapKeyed, h, Option.map_some]
        congr 1
        by_cases hown : dataset = key.1 ∧ holderId = lease.holderId
        · rw [if_pos (hheld.mpr hown), if_pos ⟨hown.1, hown.2, by omega, hacts⟩]
        · rw [if_neg (mt hheld.mp hown), if_neg fun hall => hown ⟨hall.1, hall.2.1⟩]
      · rename_i hnone
        -- the holder has no lease at all, so not this one
        have hother : ¬ (dataset = key.1 ∧ holderId = lease.holderId) := fun hown =>
          hnone (List.any_eq_true.mpr ⟨(key, lease), Dict.lookup_eq_some.mp h, hheld.mpr hown⟩)
        rw [if_neg fun hall => hother ⟨hall.1, hall.2.1⟩]
        exact h

variable {e : ReservationEvent}

theorem permitted_of_changed (h : (leases.sweep e.2.monotonic).lookup key = some lease)
    (hchanged : (leases.step e).lookup key ≠ some lease) : Permitted e key lease := by
  obtain ⟨call, w⟩ := e
  cases call with
  | reserve dataset filters n ttlSeconds holderId caller fresh => exact absurd (lookup_reserveServices h) hchanged
  | release dataset holderId serviceIds caller =>
    exact ((lookup_releaseReservation h).resolve_left hchanged).2
  | releaseBySid dataset serviceId caller =>
    exact ((lookup_releaseLeaseBySid h).resolve_left hchanged).2
  | extend dataset holderId ttlSeconds caller =>
    have hextended : (leases.extendReservation w dataset holderId ttlSeconds caller).2.lookup key = _ :=
      lookup_extendReservation h
    by_cases hall : dataset = key.1 ∧ holderId = lease.holderId ∧ 1 ≤ ttlSeconds ∧ actsFor holderId caller = true
    · exact ⟨hall.1, hall.2.1, hall.2.1 ▸ hall.2.2.2⟩
    · rw [if_neg hall] at hextended
      exact absurd hextended hchanged
  | isLeased dataset serviceId => exact absurd h hchanged

/-! ## Exclusion -/

/-- The service is leased as the tenure says, or the tenure has ended. -/
def Held (key : ServiceKey) (t : Tenure) (now : ℚ) (leases : Reservations) : Prop :=
  t.endsAt ≤ now ∨ ∃ lease, leases.lookup key = some lease ∧ lease.holderId = t.holderId ∧ lease.expiresAt = t.endsAt

variable {t : Tenure}

theorem Tenure.step_of_ended (h : t.endsAt ≤ e.2.monotonic) : t.step key e = t := by
  unfold Tenure.step
  split
  · rw [if_neg fun hall => absurd hall.2.2.2.2 (not_lt.mpr h)]
  · rfl

theorem Held.step (h : Held key t now leases) (hnow : now ≤ e.2.monotonic)
    (hkept : ¬ leases.Releases e key) : Held key (t.step key e) e.2.monotonic (leases.step e) := by
  rcases le_or_gt t.endsAt e.2.monotonic with hended | hlive
  · rw [Tenure.step_of_ended hended]
    exact .inl hended
  · obtain ⟨lease, hlease, hholder, hends⟩ := h.resolve_left (not_le.mpr (lt_of_le_of_lt hnow hlive))
    have hswept : (leases.sweep e.2.monotonic).lookup key = some lease :=
      lookup_sweep_eq_some.mpr ⟨hlease, hends ▸ hlive⟩
    have hthere : (leases.sweep e.2.monotonic).contains key = true := contains_eq_true.mpr ⟨lease, hswept⟩
    obtain ⟨call, w⟩ := e
    cases call with
    | reserve dataset filters n ttlSeconds holderId caller fresh =>
      exact .inr ⟨lease, lookup_reserveServices hswept, hholder, hends⟩
    | release dataset holderId serviceIds caller =>
      rcases lookup_releaseReservation hswept with hsame | ⟨hgone, -⟩
      · exact .inr ⟨lease, hsame, hholder, hends⟩
      · exact absurd ⟨rfl, hthere, contains_eq_false.mpr hgone⟩ hkept
    | releaseBySid dataset serviceId caller =>
      rcases lookup_releaseLeaseBySid hswept with hsame | ⟨hgone, -⟩
      · exact .inr ⟨lease, hsame, hholder, hends⟩
      · exact absurd ⟨rfl, hthere, contains_eq_false.mpr hgone⟩ hkept
    | extend dataset holderId ttlSeconds caller =>
      refine .inr ⟨_, lookup_extendReservation hswept, ?_, ?_⟩
      · unfold Tenure.step
        dsimp only
        split <;> split <;> exact hholder
      · unfold Tenure.step
        dsimp only
        rw [hholder]
        by_cases hall : dataset = key.1 ∧ holderId = t.holderId ∧ 1 ≤ ttlSeconds ∧ actsFor holderId caller = true
        · rw [if_pos hall, if_pos ⟨hall.1, hall.2.1, hall.2.2.1, hall.2.2.2, hlive⟩]
        · rw [if_neg hall, if_neg fun h => hall ⟨h.1, h.2.1, h.2.2.1, h.2.2.2.1⟩]
          exact hends
    | isLeased dataset serviceId => exact .inr ⟨lease, hswept, hholder, hends⟩

theorem held_of_returned (h : key ∈ leases.returned e) : (leases.sweep e.2.monotonic).lookup key = none ∧
      ∃ t, Tenure.ofReserve e = some t ∧ Held key t e.2.monotonic (leases.step e) := by
  obtain ⟨call, w⟩ := e
  cases call with
  | reserve dataset filters n ttlSeconds holderId caller fresh =>
    rcases reserveServices_cases leases w dataset filters n ttlSeconds holderId caller fresh with
      ⟨failure, hfail⟩ | ⟨rows, -, hfree, hok⟩
    · simp [returned, hfail] at h
    · simp only [returned, hok] at h
      obtain ⟨row, hrow, rfl⟩ := List.mem_map.mp h
      refine ⟨hfree row hrow, _, rfl, .inr ⟨{ holderId := resolveHolder holderId caller fresh, acquiredAt := w.monotonic
                                              expiresAt := w.monotonic + ttlSeconds }, ?_, rfl, rfl⟩⟩
      dsimp only [step]
      rw [hok]
      refine Dict.lookup_insertAll_of_mem (List.mem_map.mpr ⟨row, hrow, rfl⟩) ?_
      intro lease hmem
      obtain ⟨row', -, heq⟩ := List.mem_map.mp hmem
      exact (Prod.mk.inj heq).2.symm
  | release | releaseBySid | extend | isLeased => cases h

/-- The times of the calls do not go back. -/
def Ordered (es : List ReservationEvent) : Prop := es.Pairwise fun a b => a.2.monotonic ≤ b.2.monotonic

theorem Held.run {es : List ReservationEvent} (h : Held key t now leases)
    (hordered : Ordered es) (hnow : ∀ e ∈ es, now ≤ e.2.monotonic) (hkept : Along Reservations.step (fun leases e => ¬ leases.Releases e key) leases es)
    {now' : ℚ} (hnow' : ∀ e ∈ es, e.2.monotonic ≤ now') (hle : now ≤ now') :
    Held key (Lib.run (Tenure.step key) t es) now' (Lib.run Reservations.step leases es) := by
  induction es generalizing leases t now with
  | nil => exact h.imp_left fun hended => hended.trans hle
  | cons e es ih =>
    obtain ⟨hfirst, hrest⟩ := List.pairwise_cons.mp hordered
    exact ih (h.step (hnow e (by simp)) hkept.1) hrest hfirst hkept.2 (fun e he => hnow' e (by simp [he]))
      (hnow' e (by simp))

def after (es : List ReservationEvent) : Reservations := Lib.run step ∅ es

/-- Reservations exclude each other, and leases are for their holders. -/
structure Exclusive (es : List ReservationEvent) : Prop where
  /-- A service that is returned again was released in between, or its lease had ended. -/
  exclusive : ∀ pre mid post e₁ e₂ key, es = pre ++ e₁ :: mid ++ e₂ :: post →
    key ∈ (after pre).returned e₁ → key ∈ (after (pre ++ e₁ :: mid)).returned e₂ →
    Along step (fun leases e => ¬ leases.Releases e key) (after (pre ++ [e₁])) mid →
    ∀ t, Tenure.ofReserve e₁ = some t → (Lib.run (Tenure.step key) t mid).endsAt ≤ e₂.2.monotonic
  /-- Only permitted calls change a live lease. -/
  permitted : ∀ pre post e key lease, es = pre ++ e :: post →
    ((after pre).sweep e.2.monotonic).lookup key = some lease → (after (pre ++ [e])).lookup key ≠ some lease →
    Permitted e key lease

/-- In every sequence of calls at times that do not go back, reservations are exclusive. -/
theorem reservations_exclusive (es : List ReservationEvent) (h : Ordered es) : Exclusive es where
  exclusive pre mid post e₁ e₂ key hes h₁ h₂ hkept t ht := by
    rw [hes, List.append_assoc] at h
    obtain ⟨-, htail, -⟩ := List.pairwise_append.mp h
    obtain ⟨hafter, hmid⟩ := List.pairwise_cons.mp htail
    obtain ⟨hordered, -, hbefore⟩ := List.pairwise_append.mp hmid
    obtain ⟨-, t', ht', hheld⟩ := held_of_returned h₁
    obtain rfl := Option.some.inj (ht.symm.trans ht')
    have hend := Held.run hheld hordered (fun e he => hafter e (List.mem_append_left _ he)) (by simpa [after] using hkept)
      (fun e he => hbefore e he e₂ (by simp)) (hafter e₂ (List.mem_append_right _ (by simp)))
    rcases hend with hended | ⟨lease, hlease, -, hexpires⟩
    · exact hended
    · -- the lease was swept, or the service would not have been returned
      have hfree := (held_of_returned h₂).1
      have hlookup : (after (pre ++ e₁ :: mid)).lookup key = some lease := by simpa [after] using hlease
      rw [lookup_sweep, hlookup] at hfree
      rw [← hexpires]
      simpa [Option.filter] using hfree
  permitted pre post e key lease _ hlive hchanged := by
    refine permitted_of_changed hlive ?_
    simpa [after] using hchanged

/-- A dataset with one service, at a time. -/
def oneService (now : ℚ) : World :=
  let entry : Entry := { serviceId := "svc", source := .ephemeral, payload := .generic { name := "first", description := "a service" } }
  { entries := fun _ => (∅ : Table Entry.serviceId).insert entry, outputCache := fun _ => [entry.toOutput]
    isUnhealthy := fun _ _ => false, isPrintable := fun _ => true, monotonic := now, time := now }

/-- The service is reserved, its lease is extended, and it is reserved again after that. -/
def reservedTwice : List ReservationEvent :=
  [(.reserve "ds" ∅ 1 10 (some "first") none "", oneService 0), (.extend "ds" "first" 10 none, oneService 5),
    (.reserve "ds" ∅ 1 10 (some "second") none "", oneService 12), (.reserve "ds" ∅ 1 10 (some "second") none "", oneService 15)]

theorem reservations_exclusive_sample : Exclusive reservedTwice ∧
      (after (reservedTwice.take 3)).returned (.reserve "ds" ∅ 1 10 (some "second") none "", oneService 15) = [("ds", "svc")] ∧
      (after (reservedTwice.take 2)).returned (.reserve "ds" ∅ 1 10 (some "second") none "", oneService 12) = [] := by
  refine ⟨reservations_exclusive reservedTwice ?_, by decide +kernel, by decide +kernel⟩
  simp [Ordered, reservedTwice, oneService]
  norm_num

end Reservations

end AgentProtocol.Register
