-- SUMMARY: When a release of reservations is all or nothing: the ids are released one after the other, and a lease of somebody else ends the call in between.
import AgentProtocol.Register.Reservation

namespace AgentProtocol.Register

open Lib

namespace Reservations

def LeasedTo (leases : Reservations) (dataset holderId sid : String) : Prop :=
  ∃ lease ∈ leases.lookup (dataset, sid), lease.holderId = holderId

def LeasedToOther (leases : Reservations) (dataset holderId sid : String) : Prop :=
  ∃ lease ∈ leases.lookup (dataset, sid), lease.holderId ≠ holderId

instance (leases : Reservations) (dataset holderId sid : String) : Decidable (leases.LeasedToOther dataset holderId sid) :=
  inferInstanceAs (Decidable (∃ lease ∈ leases.lookup (dataset, sid), lease.holderId ≠ holderId))

/-- The leases of the ids are gone, and the others are as they were. -/
def Removed (leases after : Reservations) (dataset : String) (ids : List String) : Prop :=
  ∀ key, after.lookup key = if key.1 = dataset ∧ key.2 ∈ ids then none else leases.lookup key

/-- All ids are asked for if none is listed. -/
def Requested : Option (List String) → String → Prop
  | none, _ => True
  | some sids, sid => sid ∈ sids

/-- A call that is refused ends no live lease; one that returns tells which leases it ended, and these are the
requested ones of the holder. -/
structure AllOrNothing (leases : Reservations) (w : World) (dataset holderId : String) (serviceIds : Option (List String))
    (caller : Option AuthContext) : Prop where
  refused : ∀ failure, (leases.releaseReservation w dataset holderId serviceIds caller).1 = .error failure →
    ∀ key lease, (leases.sweep w.monotonic).lookup key = some lease →
      (leases.releaseReservation w dataset holderId serviceIds caller).2.lookup key = some lease
  released : ∀ ids, (leases.releaseReservation w dataset holderId serviceIds caller).1 = .ok ids →
    ids.Nodup ∧
    (∀ sid, sid ∈ ids ↔ Requested serviceIds sid ∧ (leases.sweep w.monotonic).LeasedTo dataset holderId sid) ∧
    Removed (leases.sweep w.monotonic) (leases.releaseReservation w dataset holderId serviceIds caller).2 dataset ids

def NothingBefore (leases : Reservations) (dataset holderId : String) (sids : List String) : Prop :=
  ∀ pre sid post, sids = pre ++ sid :: post → leases.LeasedToOther dataset holderId sid →
    (∀ earlier ∈ pre, ¬ leases.LeasedToOther dataset holderId earlier) →
    ∀ earlier ∈ pre, ¬ leases.LeasedTo dataset holderId earlier

/-! ## The loop -/

section Loop

variable {leases : Reservations} {dataset holderId sid : String} {lease : Reservation}

theorem leasedTo_erase : LeasedTo (leases.erase (dataset, sid)) dataset holderId s ↔ s ≠ sid ∧ leases.LeasedTo dataset holderId s := by
  unfold LeasedTo
  rw [Dict.lookup_erase]
  by_cases hs : s = sid
  · simp [hs]
  · simp [hs]

theorem leasedToOther_of_erase {s : String} (h : LeasedToOther (leases.erase (dataset, sid)) dataset holderId s) :
    leases.LeasedToOther dataset holderId s := by
  obtain ⟨lease, hlease, hother⟩ := h
  rw [Option.mem_def, Dict.lookup_erase] at hlease
  split at hlease
  · cases hlease
  exact ⟨lease, hlease, hother⟩

theorem releaseEach_append {pre : List String} (hpre : ∀ sid ∈ pre, ¬ leases.LeasedToOther dataset holderId sid) :
    ∃ ids after, (∀ released rest, releaseEach dataset holderId leases released (pre ++ rest) =
        releaseEach dataset holderId after (released ++ ids) rest) ∧
      ids.Nodup ∧ (∀ sid, sid ∈ ids ↔ sid ∈ pre ∧ leases.LeasedTo dataset holderId sid) ∧ Removed leases after dataset ids := by
  induction pre generalizing leases with
  | nil => exact ⟨[], leases, fun released rest => by simp, List.nodup_nil, by simp, fun key => by simp⟩
  | cons sid pre ih =>
    obtain ⟨hsid, hpre⟩ := List.forall_mem_cons.mp hpre
    cases hlookup : leases.lookup (dataset, sid) with
    | none =>
      -- nobody has the id, and the loop goes on
      obtain ⟨ids, after, hloop, hnodup, hids, hremoved⟩ := ih hpre
      have hfree : ¬ leases.LeasedTo dataset holderId sid := by simp [LeasedTo, hlookup]
      refine ⟨ids, after, fun released rest => ?_, hnodup, fun s => ?_, hremoved⟩
      · rw [List.cons_append, releaseEach, hlookup]
        exact hloop released rest
      · rw [hids, List.mem_cons]
        constructor
        · rintro ⟨hmem, hheld⟩
          exact ⟨.inr hmem, hheld⟩
        · rintro ⟨rfl | hmem, hheld⟩
          · exact absurd hheld hfree
          · exact ⟨hmem, hheld⟩
    | some lease =>
      have hholder : lease.holderId = holderId := by
        by_contra hother
        exact hsid ⟨lease, hlookup, hother⟩
      obtain ⟨ids, after, hloop, hnodup, hids, hremoved⟩ :=
        @ih (leases.erase (dataset, sid)) fun s hs hother => hpre s hs (leasedToOther_of_erase hother)
      have hgone : sid ∉ ids := fun hmem => (leasedTo_erase.mp ((hids sid).mp hmem).2).1 rfl
      refine ⟨sid :: ids, after, fun released rest => ?_, List.nodup_cons.mpr ⟨hgone, hnodup⟩, fun s => ?_, fun key => ?_⟩
      · rw [List.cons_append, releaseEach, hlookup]
        dsimp only
        rw [if_neg (not_not.mpr hholder), hloop, List.append_assoc, List.singleton_append]
      · rw [List.mem_cons, List.mem_cons, hids, leasedTo_erase]
        by_cases hs : s = sid
        · subst hs
          simp only [true_or, true_and, true_iff]
          exact ⟨lease, hlookup, hholder⟩
        · simp [hs]
      · rw [hremoved key, Dict.lookup_erase]
        obtain ⟨d, s⟩ := key
        by_cases hd : d = dataset
        · by_cases hs : s = sid
          · simp [hd, hs]
          · simp [hd, hs]
        · simp [hd]

theorem firstOther_cases (leases : Reservations) (dataset holderId : String) (sids : List String) :
    (∀ sid ∈ sids, ¬ leases.LeasedToOther dataset holderId sid) ∨
      ∃ pre sid post, sids = pre ++ sid :: post ∧ leases.LeasedToOther dataset holderId sid ∧
        ∀ earlier ∈ pre, ¬ leases.LeasedToOther dataset holderId earlier := by
  cases hfind : sids.find? fun sid => leases.LeasedToOther dataset holderId sid with
  | none =>
    left
    intro sid hsid
    simpa using List.find?_eq_none.mp hfind sid hsid
  | some sid =>
    right
    obtain ⟨hother, pre, post, hsids, hpre⟩ := List.find?_eq_some_iff_append.mp hfind
    exact ⟨pre, sid, post, hsids, by simpa using hother, fun earlier hearlier => by simpa using hpre earlier hearlier⟩

theorem releaseEach_of_other (h : leases.LeasedToOther dataset holderId sid) (released rest : List String) :
    releaseEach dataset holderId leases released (sid :: rest) = (.error (.heldByOther sid), leases) := by
  obtain ⟨lease, hlease, hother⟩ := h
  rw [Option.mem_def] at hlease
  rw [releaseEach, hlease]
  dsimp only
  rw [if_pos hother]

theorem Removed.leasedToOther {after : Reservations} {ids : List String} (h : Removed leases after dataset ids)
    (hother : leases.LeasedToOther dataset holderId sid) (hsid : sid ∉ ids) : after.LeasedToOther dataset holderId sid := by
  obtain ⟨lease, hlease, hne⟩ := hother
  refine ⟨lease, ?_, hne⟩
  rw [Option.mem_def, h, if_neg fun hmem => hsid hmem.2]
  exact hlease

end Loop

/-! ## The call -/

section Call

variable {leases : Reservations} {w : World} {dataset holderId : String} {caller : Option AuthContext}

theorem releaseReservation_of_refused {serviceIds : Option (List String)} (h : actsFor holderId caller = false) :
    leases.releaseReservation w dataset holderId serviceIds caller = (.error (.otherHolder holderId), leases) := by
  simp [releaseReservation, h]

theorem releaseReservation_some {sids : List String} (h : actsFor holderId caller = true) :
    leases.releaseReservation w dataset holderId (some sids) caller = releaseEach dataset holderId (leases.sweep w.monotonic) [] sids := by
  simp [releaseReservation, h]

theorem leasedTo_iff_heldBy {live : Reservations} {sid : String} :
    live.LeasedTo dataset holderId sid ↔ sid ∈ (live.rows.filter (heldBy dataset holderId)).map (·.1.2) := by
  simp only [LeasedTo, Option.mem_def, Dict.lookup_eq_some, List.mem_map, List.mem_filter, heldBy, Bool.and_eq_true, decide_eq_true_eq]
  constructor
  · rintro ⟨lease, hmem, hholder⟩
    exact ⟨((dataset, sid), lease), ⟨hmem, rfl, hholder⟩, rfl⟩
  · rintro ⟨⟨⟨d, s⟩, lease⟩, ⟨hmem, rfl, hholder⟩, rfl⟩
    exact ⟨lease, hmem, hholder⟩

theorem releaseReservation_none (h : actsFor holderId caller = true) : AllOrNothing leases w dataset holderId none caller := by
  have hcall : leases.releaseReservation w dataset holderId none caller =
      (.ok (((leases.sweep w.monotonic).rows.filter (heldBy dataset holderId)).map (·.1.2)),
        (leases.sweep w.monotonic).filter fun p => !heldBy dataset holderId p) := by
    simp [releaseReservation, h]
  refine ⟨fun failure hfailure => ?_, fun ids hids => ?_⟩
  · rw [hcall] at hfailure
    cases hfailure
  · rw [hcall] at hids ⊢
    obtain rfl := Except.ok.inj hids
    generalize leases.sweep w.monotonic = live
    refine ⟨?_, fun sid => ?_, fun key => ?_⟩
    · -- ids are apart as the keys are, which all are of one dataset
      refine List.Nodup.map_on ?_ (live.nodup.of_map.filter _)
      rintro ⟨⟨d, s⟩, lease⟩ hp ⟨⟨d', s'⟩, lease'⟩ hp' rfl
      obtain ⟨hmem, hheld⟩ := List.mem_filter.mp hp
      obtain ⟨hmem', hheld'⟩ := List.mem_filter.mp hp'
      obtain ⟨rfl, -⟩ : d = dataset ∧ lease.holderId = holderId := by simpa [heldBy] using hheld
      obtain ⟨rfl, -⟩ : d' = d ∧ lease'.holderId = holderId := by simpa [heldBy] using hheld'
      exact Table.eq_of_key hmem hmem' rfl
    · rw [← leasedTo_iff_heldBy, Requested, true_and]
    · have hheld : ∀ lease, live.lookup key = some lease →
          (heldBy dataset holderId (key, lease) = true ↔
            key.1 = dataset ∧ key.2 ∈ (live.rows.filter (heldBy dataset holderId)).map (·.1.2)) := by
        intro lease hlookup
        rw [← leasedTo_iff_heldBy, heldBy, Bool.and_eq_true, decide_eq_true_eq, decide_eq_true_eq]
        refine and_congr_right fun hdataset => ⟨fun hholder => ⟨lease, hdataset ▸ hlookup, hholder⟩, ?_⟩
        rintro ⟨lease', hlease', hholder⟩
        obtain rfl := Option.some.inj (hlookup.symm.trans (hdataset ▸ hlease'))
        exact hholder
      dsimp only
      rw [Dict.lookup_filter]
      cases hlookup : live.lookup key with
      | none => simp
      | some lease =>
        split
        · rename_i hgone
          simp [Option.filter, (hheld lease hlookup).mpr hgone]
        · rename_i hkept
          simp [Option.filter, mt (hheld lease hlookup).mp hkept]

/-- A release is all or nothing exactly if the caller may not release for the holder, no ids are listed, or no id before
the first one that is leased to another holder is leased to the holder. -/
theorem releaseReservation_allOrNothing_iff (leases : Reservations) (w : World) (dataset holderId : String)
    (serviceIds : Option (List String)) (caller : Option AuthContext) : AllOrNothing leases w dataset holderId serviceIds caller ↔
      (actsFor holderId caller = true → ∀ sids, serviceIds = some sids → (leases.sweep w.monotonic).NothingBefore dataset holderId sids) := by
  constructor
  · rintro h hacts sids rfl pre sid post rfl hother hpre earlier hearlier hheld
    obtain ⟨ids, after, hloop, -, hids, hremoved⟩ := releaseEach_append hpre
    have hsid : sid ∉ ids := fun hmem => hpre sid ((hids sid).mp hmem).1 hother
    have hcall : leases.releaseReservation w dataset holderId (some (pre ++ sid :: post)) caller = (.error (.heldByOther sid), after) := by
      rw [releaseReservation_some hacts, hloop, releaseEach_of_other (hremoved.leasedToOther hother hsid)]
    obtain ⟨lease, hlease, -⟩ := id hheld
    have hkept := h.refused _ (congrArg Prod.fst hcall) _ lease hlease
    rw [hcall, hremoved, if_pos ⟨rfl, (hids earlier).mpr ⟨hearlier, hheld⟩⟩] at hkept
    cases hkept
  · intro h
    cases hacts : actsFor holderId caller with
    | false =>
      refine ⟨fun failure _ key lease hlive => ?_, fun ids hids => ?_⟩
      · rw [releaseReservation_of_refused hacts]
        exact (lookup_sweep_eq_some.mp hlive).1
      · rw [releaseReservation_of_refused hacts] at hids
        cases hids
    | true =>
      cases serviceIds with
      | none => exact releaseReservation_none hacts
      | some sids =>
        rcases firstOther_cases (leases.sweep w.monotonic) dataset holderId sids with hall | ⟨pre, sid, post, rfl, hother, hpre⟩
        · obtain ⟨ids, after, hloop, hnodup, hids, hremoved⟩ := releaseEach_append hall
          have hcall : leases.releaseReservation w dataset holderId (some sids) caller = (.ok ids, after) := by
            rw [releaseReservation_some hacts, ← List.append_nil sids, hloop, releaseEach, List.nil_append]
          refine ⟨fun failure hfailure => ?_, fun ids' hids' => ?_⟩
          · rw [hcall] at hfailure
            cases hfailure
          · rw [hcall] at hids' ⊢
            obtain rfl := Except.ok.inj hids'
            exact ⟨hnodup, hids, hremoved⟩
        · obtain ⟨ids, after, hloop, -, hids, hremoved⟩ := releaseEach_append hpre
          have hnothing := h hacts _ rfl pre sid post rfl hother hpre
          have hnone : ids = [] := by
            refine List.eq_nil_iff_forall_not_mem.mpr fun s hs => ?_
            obtain ⟨hmem, hheld⟩ := (hids s).mp hs
            exact hnothing s hmem hheld
          subst hnone
          have hcall : leases.releaseReservation w dataset holderId (some (pre ++ sid :: post)) caller = (.error (.heldByOther sid), after) := by
            rw [releaseReservation_some hacts, hloop, releaseEach_of_other (hremoved.leasedToOther hother List.not_mem_nil)]
          refine ⟨fun failure _ key lease hlive => ?_, fun ids hids => ?_⟩
          · rw [hcall]
            have hsame := hremoved key
            rw [if_neg fun hmem => absurd hmem.2 List.not_mem_nil] at hsame
            exact hsame.trans hlive
          · rw [hcall] at hids
            cases hids

/-- One lease is the holder's, the next is another's. -/
def twoHolders : Reservations :=
  Dict.ofList [(("ds", "mine"), { holderId := "me", acquiredAt := 0, expiresAt := 10 }),
    (("ds", "theirs"), { holderId := "other", acquiredAt := 0, expiresAt := 10 })]

/-- The call for both is refused, and the lease of the holder is gone. -/
theorem refused_release_removes : ¬ AllOrNothing twoHolders (oneService 1) "ds" "me" (some ["mine", "theirs"]) none := by
  intro h
  have hlost := h.refused (.heldByOther "theirs") (by decide +kernel) ("ds", "mine") { holderId := "me", acquiredAt := 0, expiresAt := 10 }
    (by decide +kernel)
  exact absurd hlost (by decide +kernel)

end Call

end Reservations

end AgentProtocol.Register
