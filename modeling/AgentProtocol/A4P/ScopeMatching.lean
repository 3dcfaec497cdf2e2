-- SUMMARY: Which calls an intent scope admits: globs as languages, and the matching of parameters against its specification.
import AgentProtocol.A4P.IntentService
import AgentProtocol.A4P.Mandate
import AgentProtocol.Lib.Glob

/-!
# Scope matching

A call is admitted if one of the actions with its name admits its parameters. What an action admits depends on when a value
satisfies a constraint, so that is a parameter here.
-/

namespace AgentProtocol.A4P

open Lib

/-! ## Globs -/

variable {pattern stuff rest : List Char}

theorem span_length {lead tail : List Char} (htail : tail.length ≤ pattern.length)
    (h : (match tail.span (· ≠ ']') with
      | (stuff, _ :: rest) => some (lead ++ stuff, rest)
      | (_, []) => none) = some (stuff, rest)) : rest.length < pattern.length := by
  rw [List.span_eq_takeWhile_dropWhile] at h
  split at h
  · rename_i close rest' hdrop
    obtain ⟨-, hclose⟩ := Prod.mk.inj hdrop
    obtain ⟨-, rfl⟩ := Prod.mk.inj (Option.some.inj h)
    have hsuffix := (List.dropWhile_suffix (l := tail) (· ≠ ']')).length_le
    rw [hclose, List.length_cons] at hsuffix
    omega
  · cases h

theorem bracket_length (h : bracket pattern = some (stuff, rest)) : rest.length < pattern.length := by
  unfold bracket at h
  split at h
  rename_i lead tail hlead
  refine span_length ?_ h
  split at hlead
  all_goals obtain ⟨-, rfl⟩ := Prod.mk.inj hlead
  · exact Nat.le_add_right _ 2
  · exact Nat.le_succ _
  · exact Nat.le_succ _
  · exact Nat.le_refl _

def globPieces : List Char → List (Glob.Piece Char)
  | [] => []
  | '*' :: pattern => .many :: globPieces pattern
  | '?' :: pattern => .one (fun _ => true) :: globPieces pattern
  | '[' :: pattern => match _h : bracket pattern with
    | some (stuff, rest) => .one (fun c => bracketMatches c stuff) :: globPieces rest
    | none => .one (fun c => c = '[') :: globPieces pattern
  | d :: pattern => .one (fun c => c = d) :: globPieces pattern
termination_by pattern => pattern.length
decreasing_by
  all_goals simp only [List.length_cons, Nat.lt_succ_self]
  have := bracket_length _h
  omega

def GlobMatches (text pattern : String) : Prop := text.toList ∈ Glob.language (globPieces pattern.toList)

theorem globPieces_bracket (h : bracket pattern = some (stuff, rest)) :
    globPieces ('[' :: pattern) = .one (fun c => bracketMatches c stuff) :: globPieces rest := by
  rw [globPieces]
  split
  · rename_i heq
    obtain ⟨rfl, rfl⟩ := Prod.mk.inj (Option.some.inj (heq.symm.trans h))
    rfl
  · rename_i heq
    exact nomatch heq.symm.trans h

theorem globPieces_unclosed {pattern : List Char} (h : bracket pattern = none) :
    globPieces ('[' :: pattern) = .one (fun c => c = '[') :: globPieces pattern := by
  rw [globPieces]
  split
  · rename_i heq
    exact nomatch heq.symm.trans h
  · rfl

theorem nil_not_mem_globPieces {d : Char} {pattern : List Char} (hd : d ≠ '*') : [] ∉ Glob.language (globPieces (d :: pattern)) := by
  intro hmem
  have hone : ∃ test rest, globPieces (d :: pattern) = .one test :: rest := by
    by_cases hquestion : d = '?'
    · exact ⟨_, _, by rw [hquestion, globPieces]⟩
    · by_cases hopen : d = '['
      · subst hopen
        cases hbracket : bracket pattern with
        | some parts => exact ⟨_, _, globPieces_bracket (show _ = some (parts.1, parts.2) from hbracket)⟩
        | none => exact ⟨_, _, globPieces_unclosed hbracket⟩
      · exact ⟨_, _, by rw [globPieces] <;> assumption⟩
  obtain ⟨test, rest, hpieces⟩ := hone
  rw [hpieces] at hmem
  obtain ⟨c, text, hnil, -⟩ := Glob.mem_language_one_cons.mp hmem
  cases hnil

theorem globMatch_iff {steps : ℕ} {pattern text : List Char} (h : pattern.length + text.length < steps) :
    globMatch steps pattern text = true ↔ text ∈ Glob.language (globPieces pattern) := by
  have hone : ∀ {test : Char → Bool} {pieces : List (Glob.Piece Char)} {c : Char} {text : List Char},
      c :: text ∈ Glob.language (.one test :: pieces) ↔ test c = true ∧ text ∈ Glob.language pieces := by
    intro test pieces c text
    rw [Glob.mem_language_one_cons]
    constructor
    · rintro ⟨c', text', heq, htest, hrest⟩
      obtain ⟨rfl, rfl⟩ := List.cons.inj heq
      exact ⟨htest, hrest⟩
    · rintro ⟨htest, hrest⟩
      exact ⟨c, text, rfl, htest, hrest⟩
  fun_induction globMatch steps pattern text with
  | case1 => omega
  | case2 => rw [globPieces, Glob.mem_language_nil, decide_eq_true_iff]
  | case3 steps pattern text ihrest ihstar =>
    simp only [List.length_cons] at h ihstar
    have hrest : globMatch steps pattern text = true ↔ text ∈ Glob.language (globPieces pattern) := ihrest (by omega)
    rw [globPieces, Glob.mem_language_many_cons_iff, Bool.or_eq_true, hrest]
    refine or_congr_right ?_
    cases text with
    | nil => simp
    | cons c text =>
      rw [List.length_cons] at h
      have hstar : globMatch steps ('*' :: pattern) text = true ↔ text ∈ Glob.language (globPieces ('*' :: pattern)) :=
        ihstar text (by omega)
      dsimp only
      rw [hstar, globPieces]
      constructor
      · exact fun hmem => ⟨c, text, rfl, hmem⟩
      · rintro ⟨c', text', heq, hmem⟩
        obtain ⟨rfl, rfl⟩ := List.cons.inj heq
        exact hmem
  | case4 steps d pattern hd => exact iff_of_false Bool.false_ne_true (nil_not_mem_globPieces hd)
  | case5 steps pattern c text ih =>
    simp only [List.length_cons] at h
    have hrest : globMatch steps pattern text = true ↔ text ∈ Glob.language (globPieces pattern) := ih (by omega)
    rw [globPieces, hone, hrest, and_iff_right rfl]
  | case6 steps pattern c text stuff rest hbracket ih =>
    have hlen := bracket_length hbracket
    simp only [List.length_cons] at h
    have hrest : globMatch steps rest text = true ↔ text ∈ Glob.language (globPieces rest) := ih (by omega)
    rw [globPieces_bracket hbracket, hone, Bool.and_eq_true, hrest]
  | case7 steps pattern c text hbracket ih =>
    simp only [List.length_cons] at h
    have hrest : globMatch steps pattern text = true ↔ text ∈ Glob.language (globPieces pattern) := ih (by omega)
    rw [globPieces_unclosed hbracket, hone, Bool.and_eq_true, hrest]
  | case8 steps d pattern c text hstar hquestion hopen ih =>
    simp only [List.length_cons] at h
    have hrest : globMatch steps pattern text = true ↔ text ∈ Glob.language (globPieces pattern) := ih (by omega)
    have hpieces : globPieces (d :: pattern) = .one (fun c => c = d) :: globPieces pattern := by
      rw [globPieces] <;> assumption
    rw [hpieces, hone, Bool.and_eq_true, hrest]

theorem fnmatchcase_iff {text pattern : String} : fnmatchcase text pattern = true ↔ GlobMatches text pattern := by
  unfold fnmatchcase GlobMatches
  refine globMatch_iff ?_
  rw [String.length_toList, String.length_toList]
  omega

/-! ## What a scope admits -/

/-- The value is the same JSON value as the constraint, or the constraint is a star or a glob that it matches. -/
def SatisfiesSame (actual expected : Value) : Prop :=
  actual.sorted = expected.sorted ∨ expected = .str "*" ∨ ∃ text pattern, actual = .str text ∧ expected = .str pattern ∧ GlobMatches text pattern

/-- The constraint is a star, or a glob that the text matches, or no text for a text and equal to the value in the language. -/
def SatisfiesEqual (actual expected : Value) : Prop :=
  expected = .str "*" ∨ (∃ text pattern, actual = .str text ∧ expected = .str pattern ∧ GlobMatches text pattern) ∨
    (∀ text pattern, actual = .str text → expected ≠ .str pattern) ∧ actual.eq expected = true

section Admits

variable (satisfies : Value → Value → Prop)

/-- The action takes any parameters, or each that it constrains is there and satisfies the constraint, and there are others
only if it allows them. -/
structure ActionSpec.Admits (allowed : ActionSpec) (params : Fields) : Prop where
  present : ∀ constraint ∈ allowed.params, ∀ entry ∈ constraint.toList, ∃ value ∈ params.get? entry.1, satisfies value entry.2
  declared : ∀ constraint ∈ allowed.params, allowed.allowExtraParams = false → ∀ key ∈ params.keys, key ∈ constraint.keys

def IntentScope.Admits (scope : IntentScope) (action : String) (params : Fields) : Prop :=
  ∃ allowed ∈ scope.actions, allowed.name = Text.strip action ∧ allowed.Admits satisfies params

end Admits

theorem paramValueMatches_iff {actual expected : Value} : paramValueMatches actual expected = true ↔ SatisfiesEqual actual expected := by
  unfold SatisfiesEqual paramValueMatches
  split
  · exact iff_of_true rfl (.inl rfl)
  · rename_i a e hstar
    rw [fnmatchcase_iff]
    constructor
    · exact fun hglob => .inr (.inl ⟨a, e, rfl, rfl, hglob⟩)
    · rintro (heq | ⟨text, pattern, hactual, hexpected, hglob⟩ | ⟨hother, -⟩)
      · exact absurd (Value.str.inj heq) hstar
      · obtain rfl := Value.str.inj hactual
        obtain rfl := Value.str.inj hexpected
        exact hglob
      · exact absurd rfl (hother a e rfl)
  · rename_i hstar hother
    constructor
    · exact fun heq => .inr (.inr ⟨fun text pattern hactual hexpected => hother text pattern hactual hexpected, heq⟩)
    · rintro (heq | ⟨text, pattern, hactual, hexpected, -⟩ | ⟨-, heq⟩)
      · exact absurd heq hstar
      · exact absurd hexpected (hother text pattern hactual)
      · exact heq

variable {p : Printer}

theorem mismatchReason_eq_none_iff {action : String} {params : Fields} {allowed : ActionSpec} {constraint : Fields}
    (h : allowed.params = some constraint) :
    mismatchReason p action params constraint allowed.allowExtraParams = none ↔ allowed.Admits SatisfiesEqual params := by
  have hvalues : (∀ entry ∈ constraint.toList, ∃ value ∈ params.get? entry.1, SatisfiesEqual value entry.2) ↔
      ∀ constraint ∈ allowed.params, ∀ entry ∈ constraint.toList, ∃ value ∈ params.get? entry.1, SatisfiesEqual value entry.2 := by
    simp [h]
  have hextra : (params.keys.filter (· ∉ constraint.keys)).insertionSort (· ≤ ·) = [] ↔ ∀ key ∈ params.keys, key ∈ constraint.keys := by
    rw [← List.length_eq_zero_iff, List.length_insertionSort, List.length_eq_zero_iff, List.filter_eq_nil_iff]
    simp
  unfold mismatchReason
  dsimp only
  split
  · rename_i hrefused
    refine iff_of_false (fun hsome => by cases hsome) fun hadmits => ?_
    simp only [Bool.and_eq_true, Bool.not_eq_true', decide_eq_true_iff] at hrefused
    exact hrefused.2 (hextra.mpr (hadmits.declared constraint h hrefused.1))
  · rename_i hnone
    simp only [Bool.and_eq_true, Bool.not_eq_true', decide_eq_true_iff, not_and, not_not] at hnone
    rw [List.findSome?_eq_none_iff]
    constructor
    · intro hreasons
      refine ⟨hvalues.mp fun entry hentry => ?_, fun constraint' hconstraint' hrefuses => ?_⟩
      · have hreason := hreasons entry hentry
        split at hreason
        · cases hreason
        rename_i value hvalue
        split at hreason
        · rename_i hmatches
          exact ⟨value, hvalue, paramValueMatches_iff.mp hmatches⟩
        · cases hreason
      · obtain rfl := Option.some.inj (h.symm.trans hconstraint')
        exact hextra.mp (hnone hrefuses)
    · intro hadmits entry hentry
      obtain ⟨value, hvalue, hsatisfies⟩ := hadmits.present constraint h entry hentry
      rw [Option.mem_def.mp hvalue]
      exact if_pos (paramValueMatches_iff.mpr hsatisfies)

theorem normalizeItems_name {p : Printer} : ∀ {items : Items} {actions : List ActionSpec}, normalizeItems p items = .ok actions →
    ∀ allowed ∈ actions, allowed.name ≠ ""
  | .nil, actions, h, allowed, hmem => by
    obtain rfl := Except.ok.inj h
    cases hmem
  | .cons item rest, actions, h, allowed, hmem => by
    obtain ⟨action, haction, h⟩ := bind_eq_ok.mp h
    obtain ⟨others, hothers, h⟩ := bind_eq_ok.mp h
    obtain rfl := Except.ok.inj h
    rcases List.mem_cons.mp hmem with rfl | hrest
    · exact (normalizeActionSpec_name haction).2
    · exact normalizeItems_name hothers allowed hrest

theorem normalizeActionSpecs_name {actions : Option Value} {specs : List ActionSpec}
    (h : normalizeActionSpecs p actions = .ok specs) : ∀ allowed ∈ specs, allowed.name ≠ "" := by
  unfold normalizeActionSpecs at h
  split at h
  · obtain ⟨found, hfound, h⟩ := bind_eq_ok.mp h
    split at h
    · cases h
    obtain rfl : found = specs := Except.ok.inj h
    exact normalizeItems_name hfound
  · cases h

theorem normalizeIntentScope_actions {intent : Fields} {scope : IntentScope}
    (h : normalizeIntentScope p (some (.obj intent)) = .ok scope) : normalizeActionSpecs p (intent.get? "actions") = .ok scope.actions := by
  obtain ⟨actions, hactions, h⟩ := bind_eq_ok.mp h
  split at h
  · obtain rfl := Except.ok.inj h
    exact hactions
  · obtain ⟨n, -, h⟩ := bind_eq_ok.mp h
    obtain rfl := Except.ok.inj h
    exact hactions

theorem reason_eq_none_iff {p : Printer} {action : String} {params : Fields} (allowed : ActionSpec) :
    (match allowed.params with
      | none => none
      | some constraint => mismatchReason p action params constraint allowed.allowExtraParams) = none ↔
      allowed.Admits SatisfiesEqual params := by
  cases hparams : allowed.params with
  | none =>
    refine iff_of_true rfl ⟨fun constraint hconstraint => ?_, fun constraint hconstraint => ?_⟩
    · cases hparams.symm.trans hconstraint
    · cases hparams.symm.trans hconstraint
  | some constraint => exact mismatchReason_eq_none_iff hparams

/-- The matching grants what the scope admits: an action of that name, and its parameters by globs and the equality of the
language. -/
theorem paramsMatchIntentScope_iff {p : Printer} {intent : Fields} {scope : IntentScope}
    (h : normalizeIntentScope p (some (.obj intent)) = .ok scope) (action : String) (params : Fields) :
    paramsMatchIntentScope p intent action params = none ↔ scope.Admits SatisfiesEqual action params := by
  have hactions := normalizeIntentScope_actions h
  unfold paramsMatchIntentScope
  dsimp only
  split
  · rename_i hblank
    refine iff_of_false (fun hsome => by cases hsome) ?_
    rintro ⟨allowed, hallowed, hname, -⟩
    exact normalizeActionSpecs_name hactions allowed hallowed (hname.trans hblank)
  · rw [hactions]
    split
    · rename_i heq
      cases heq
    rename_i actions heq
    obtain rfl : scope.actions = actions := Except.ok.inj heq
    split
    · rename_i hany
      refine iff_of_true rfl ?_
      obtain ⟨reason, hmem, hnone⟩ := List.any_eq_true.mp hany
      obtain ⟨allowed, hallowed, rfl⟩ := List.mem_map.mp hmem
      obtain ⟨hin, hname⟩ := List.mem_filter.mp hallowed
      exact ⟨allowed, hin, of_decide_eq_true hname, (reason_eq_none_iff allowed).mp (Option.isNone_iff_eq_none.mp hnone)⟩
    · rename_i hall
      refine iff_of_false ?_ ?_
      · -- the first of the reasons is one
        intro hfirst
        split at hfirst
        · rename_i reason hhead
          subst hfirst
          exact hall (List.any_eq_true.mpr ⟨none, List.mem_of_mem_head? hhead, rfl⟩)
        · cases hfirst
      · rintro ⟨allowed, hallowed, hname, hadmits⟩
        refine hall (List.any_eq_true.mpr ⟨_, List.mem_map.mpr ⟨allowed, List.mem_filter.mpr ⟨hallowed, ?_⟩, rfl⟩, ?_⟩)
        · exact decide_eq_true hname
        · exact Option.isNone_iff_eq_none.mpr ((reason_eq_none_iff allowed).mpr hadmits)

open TokenServers (plainPrinter)

def oneConstraint (action key : String) (constraint : Value) : Fields :=
  .ofList [("actions", listValue [.obj (.ofList [("name", .str action), ("params", .obj (.ofList [(key, constraint)]))])])]

/-- What is made of it. -/
def oneSpec (action key : String) (constraint : Value) : IntentScope :=
  { actions := [{ name := action, params := some (.ofList [(key, constraint)]), allowExtraParams := false }] }

theorem paramsMatchIntentScope_iff_sample :
    paramsMatchIntentScope plainPrinter (oneConstraint "read" "note" (.str "note-*")) " read " (.ofList [("note", .str "note-1")]) = none ↔
      (oneSpec "read" "note" (.str "note-*")).Admits SatisfiesEqual " read " (.ofList [("note", .str "note-1")]) :=
  paramsMatchIntentScope_iff (by decide +kernel) " read " (.ofList [("note", .str "note-1")])

/-- `true` is granted where the amount is to be 1, and the path `file[1]` is not where the path is to be `file[1]`. -/
theorem not_sameValue :
    normalizeIntentScope plainPrinter (some (.obj (oneConstraint "pay" "amount" (.int 1)))) = .ok (oneSpec "pay" "amount" (.int 1)) ∧
    ¬ (paramsMatchIntentScope plainPrinter (oneConstraint "pay" "amount" (.int 1)) "pay" (.ofList [("amount", .bool true)]) = none ↔
      (oneSpec "pay" "amount" (.int 1)).Admits SatisfiesSame "pay" (.ofList [("amount", .bool true)])) ∧
    normalizeIntentScope plainPrinter (some (.obj (oneConstraint "open" "path" (.str "file[1]")))) = .ok (oneSpec "open" "path" (.str "file[1]")) ∧
    ¬ (paramsMatchIntentScope plainPrinter (oneConstraint "open" "path" (.str "file[1]")) "open" (.ofList [("path", .str "file[1]")]) = none ↔
      (oneSpec "open" "path" (.str "file[1]")).Admits SatisfiesSame "open" (.ofList [("path", .str "file[1]")])) := by
  have hcode : normalizeIntentScope plainPrinter (some (.obj (oneConstraint "pay" "amount" (.int 1)))) = .ok (oneSpec "pay" "amount" (.int 1)) ∧
      paramsMatchIntentScope plainPrinter (oneConstraint "pay" "amount" (.int 1)) "pay" (.ofList [("amount", .bool true)]) = none ∧
      normalizeIntentScope plainPrinter (some (.obj (oneConstraint "open" "path" (.str "file[1]")))) = .ok (oneSpec "open" "path" (.str "file[1]")) ∧
      paramsMatchIntentScope plainPrinter (oneConstraint "open" "path" (.str "file[1]")) "open" (.ofList [("path", .str "file[1]")]) ≠ none ∧
      Text.strip "open" = "open" := by
    decide +kernel
  obtain ⟨hpay, hgranted, hopen, hrefused, hname⟩ := hcode
  refine ⟨hpay, fun hiff => ?_, hopen, fun hiff => ?_⟩
  · obtain ⟨allowed, hallowed, -, hadmits⟩ := hiff.mp hgranted
    obtain rfl := List.mem_singleton.mp hallowed
    obtain ⟨value, hvalue, hsatisfies⟩ := hadmits.present _ rfl ("amount", .int 1) List.mem_cons_self
    obtain rfl : Value.bool true = value := Option.some.inj hvalue
    rcases hsatisfies with hsame | hstar | ⟨text, pattern, htext, -⟩
    · cases hsame
    · cases hstar
    · cases htext
  · refine hrefused (hiff.mpr ⟨_, List.mem_cons_self, hname.symm, ⟨?_, ?_⟩⟩)
    · rintro constraint hconstraint entry hentry
      obtain rfl := Option.some.inj hconstraint
      obtain rfl := List.mem_singleton.mp hentry
      exact ⟨.str "file[1]", rfl, .inl rfl⟩
    · rintro constraint hconstraint - key hkey
      obtain rfl := Option.some.inj hconstraint
      exact hkey

end AgentProtocol.A4P
