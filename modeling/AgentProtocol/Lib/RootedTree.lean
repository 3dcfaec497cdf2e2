-- SUMMARY: Rooted trees given by a set of keys and the children of each key: they have no cycles, and they grow at leaves.
import Mathlib

/-!
# Rooted trees

A tree over keys, as a map of keys to their children would hold it: which keys there are, and
the list of children of each. That it has no cycles follows from the rest. A tree grows when
keys that are new become the children of a leaf.
-/

namespace Lib

open Relation

variable {κ : Type} {root : κ} {keys keys' : κ → Prop} {children children' : κ → List κ}

/-- The key is at the other one or below it. -/
abbrev Reaches (children : κ → List κ) : κ → κ → Prop := ReflTransGen fun a b => b ∈ children a

structure RootedTree (root : κ) (keys : κ → Prop) (children : κ → List κ) : Prop where
  root_mem : keys root
  child_mem : ∀ {a b}, keys a → b ∈ children a → keys b
  root_top : ∀ {a}, keys a → root ∉ children a
  /-- Every key but the root is the child of exactly one key. -/
  parent : ∀ {b}, keys b → b ≠ root → ∃! a, keys a ∧ b ∈ children a
  reached : ∀ {b}, keys b → Reaches children root b

namespace RootedTree

theorem single (h : children root = []) : RootedTree root (· = root) children where
  root_mem := rfl
  child_mem := by
    rintro a b rfl hb
    rw [h] at hb
    cases hb
  root_top := by
    rintro a rfl
    rw [h]
    exact List.not_mem_nil
  parent := fun hb hne => absurd hb hne
  reached := by
    rintro b rfl
    exact .refl

variable (h : RootedTree root keys children)
include h

theorem mem_of_reaches {a b : κ} (ha : keys a) (hab : Reaches children a b) : keys b := by
  induction hab with
  | refl => exact ha
  | tail _ hstep ih => exact h.child_mem ih hstep

theorem parent_unique {a a' b : κ} (ha : keys a) (hab : b ∈ children a) (ha' : keys a') (hab' : b ∈ children a') : a = a' := by
  have hne : b ≠ root := fun heq => h.root_top ha (heq ▸ hab)
  obtain ⟨p, -, hunique⟩ := h.parent (h.child_mem ha hab) hne
  exact (hunique a ⟨ha, hab⟩).trans (hunique a' ⟨ha', hab'⟩).symm

theorem acyclic {b : κ} (hb : keys b) : ¬ TransGen (fun a b => b ∈ children a) b b := by
  have hreach := h.reached hb
  clear hb
  induction hreach with
  | refl =>
    intro hcycle
    obtain ⟨a, hto, hstep⟩ := TransGen.tail'_iff.mp hcycle
    exact h.root_top (h.mem_of_reaches h.root_mem hto) hstep
  | @tail a b hra hab ih =>
    intro hcycle
    have ha : keys a := h.mem_of_reaches h.root_mem hra
    have hb : keys b := h.child_mem ha hab
    obtain ⟨c, hto, hstep⟩ := TransGen.tail'_iff.mp hcycle
    obtain rfl := h.parent_unique ha hab (h.mem_of_reaches hb hto) hstep
    exact ih (TransGen.head' hab hto)

theorem comparable {a b c : κ} (ha : keys a) (hb : keys b) (hac : Reaches children a c)
    (hbc : Reaches children b c) : Reaches children a b ∨ Reaches children b a := by
  induction hac with
  | refl => exact .inr hbc
  | tail hax hxy ih =>
    rcases ReflTransGen.cases_tail hbc with rfl | ⟨x', hbx', hx'y⟩
    · exact .inl (hax.tail hxy)
    · obtain rfl := h.parent_unique (h.mem_of_reaches ha hax) hxy (h.mem_of_reaches hb hbx') hx'y
      exact ih hbx'

theorem eq_of_reaches_sibling {p a b : κ} (hp : keys p) (ha : a ∈ children p) (hb : b ∈ children p)
    (hab : Reaches children a b) : a = b := by
  rcases ReflTransGen.cases_tail hab with heq | ⟨x, hax, hxb⟩
  · exact heq.symm
  · obtain rfl := h.parent_unique (h.mem_of_reaches (h.child_mem hp ha) hax) hxb hp hb
    exact absurd (TransGen.head' ha hax) (h.acyclic hp)

theorem eq_of_common {p a b c : κ} (hp : keys p) (ha : a ∈ children p) (hb : b ∈ children p)
    (hac : Reaches children a c) (hbc : Reaches children b c) : a = b := by
  rcases h.comparable (h.child_mem hp ha) (h.child_mem hp hb) hac hbc with hab | hba
  · exact h.eq_of_reaches_sibling hp ha hb hab
  · exact (h.eq_of_reaches_sibling hp hb ha hba).symm

omit h

/-- What a leaf `n` with the new children `cs` differs in from before. -/
structure Grown (keys keys' : κ → Prop) (children children' : κ → List κ) (n : κ) (cs : List κ) : Prop where
  leaf : children n = []
  new : ∀ c ∈ cs, ¬ keys c
  keys_iff : ∀ k, keys' k ↔ keys k ∨ k ∈ cs
  at_leaf : children' n = cs
  at_new : ∀ c ∈ cs, children' c = []
  at_old : ∀ k, keys k → k ≠ n → children' k = children k

section Grown

variable {n : κ} {cs : List κ}

variable (hg : Grown keys keys' children children' n cs)
include hg

theorem Grown.sub {a b : κ} (ha : keys a) (hb : b ∈ children a) : b ∈ children' a := by
  by_cases heq : a = n
  · subst heq
    rw [hg.leaf] at hb
    cases hb
  · rwa [hg.at_old a ha heq]

theorem Grown.reaches (h : RootedTree root keys children) {a b : κ} (ha : keys a)
    (hab : Reaches children a b) : Reaches children' a b := by
  induction hab with
  | refl => exact .refl
  | tail hto hstep ih => exact ih.tail (hg.sub (h.mem_of_reaches ha hto) hstep)

theorem Grown.mem_children {a b : κ} (ha : keys' a) (hb : b ∈ children' a) : (keys a ∧ b ∈ children a) ∨ (a = n ∧ b ∈ cs) := by
  by_cases heq : a = n
  · subst heq
    rw [hg.at_leaf] at hb
    exact .inr ⟨rfl, hb⟩
  · rcases (hg.keys_iff a).mp ha with hold | hnew
    · rw [hg.at_old a hold heq] at hb
      exact .inl ⟨hold, hb⟩
    · rw [hg.at_new a hnew] at hb
      cases hb

omit hg

theorem grow (h : RootedTree root keys children) (hn : keys n) (hg : Grown keys keys' children children' n cs) :
    RootedTree root keys' children' where
  root_mem := (hg.keys_iff root).mpr (.inl h.root_mem)
  child_mem := by
    intro a b ha hb
    rcases hg.mem_children ha hb with ⟨ha, hb⟩ | ⟨-, hb⟩
    · exact (hg.keys_iff b).mpr (.inl (h.child_mem ha hb))
    · exact (hg.keys_iff b).mpr (.inr hb)
  root_top := by
    intro a ha hroot
    rcases hg.mem_children ha hroot with ⟨ha, hroot⟩ | ⟨-, hroot⟩
    · exact h.root_top ha hroot
    · exact hg.new root hroot h.root_mem
  parent := by
    intro b hb hne
    rcases (hg.keys_iff b).mp hb with hold | hnew
    · obtain ⟨a, ⟨ha, hab⟩, hunique⟩ := h.parent hold hne
      refine ⟨a, ⟨(hg.keys_iff a).mpr (.inl ha), hg.sub ha hab⟩, ?_⟩
      rintro a' ⟨ha', hab'⟩
      rcases hg.mem_children ha' hab' with hbefore | ⟨-, hbnew⟩
      · exact hunique a' hbefore
      · exact absurd hold (hg.new b hbnew)
    · refine ⟨n, ⟨(hg.keys_iff n).mpr (.inl hn), hg.at_leaf ▸ hnew⟩, ?_⟩
      rintro a' ⟨ha', hab'⟩
      rcases hg.mem_children ha' hab' with ⟨ha, hab⟩ | ⟨heq, -⟩
      · exact absurd (h.child_mem ha hab) (hg.new b hnew)
      exact heq
  reached := by
    intro b hb
    rcases (hg.keys_iff b).mp hb with hold | hnew
    · exact hg.reaches h h.root_mem (h.reached hold)
    · have hleaf := hg.reaches h h.root_mem (h.reached hn)
      exact hleaf.tail (hg.at_leaf ▸ hnew)

end Grown

end RootedTree

end Lib
