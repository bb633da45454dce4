import Mathlib.Tactic

/-! Depth-first search: what is known of the nodes a search has finished, and of lists in
which every node comes after the nodes it needs. -/
namespace FuriOS.DepthFirst
open Relation
variable {ι : Type} {needs : ι → ι → Prop} {done : Set ι} {order : List ι} {i j : ι}

/-- A finished node has only finished nodes below it and lies on no cycle. -/
structure Finished (needs : ι → ι → Prop) (done : Set ι) : Prop where
  closed : ∀ i∈done, ∀ d, needs i d → d∈done
  acyclic : ∀ i∈done, ¬ TransGen needs i i

lemma finished_empty : Finished needs ∅ := by
  constructor
  · intro i hi
    exact hi.elim
  · intro i hi
    exact hi.elim

lemma Finished.mem_of_reaches (h : Finished needs done) (hi : i∈done)
    (hij : ReflTransGen needs i j) : j∈done := by
  induction hij with
  | refl => exact hi
  | tail _ hstep ih => exact h.closed _ ih _ hstep

lemma Finished.insert (h : Finished needs done) (hi : i∉done)
    (hd : ∀ d, needs i d → d∈done) : Finished needs (insert i done) := by
  constructor
  · intro j hj d hjd
    rcases hj with rfl | hj
    · exact .inr (hd d hjd)
    · exact .inr (h.closed j hj d hjd)
  · intro j hj hcycle
    rcases hj with rfl | hj
    · obtain ⟨d,hjd,hdj⟩ := TransGen.head'_iff.1 hcycle
      exact hi (h.mem_of_reaches (hd d hjd) hdj)
    · exact h.acyclic j hj hcycle

/-- Every node of the list comes after the nodes it needs. -/
def NeedsFirst (needs : ι → ι → Prop) (order : List ι) : Prop :=
  ∀ before i after, order=before++i::after → ∀ d, needs i d → d∈before

lemma needsFirst_nil : NeedsFirst needs [] := by
  intro before i after h
  simp at h

lemma NeedsFirst.concat (h : NeedsFirst needs order) (hi : ∀ d, needs i d → d∈order) :
    NeedsFirst needs (order++[i]) := by
  intro before j after heq d hd
  rcases List.eq_nil_or_concat after with rfl | ⟨after',k,rfl⟩
  · obtain ⟨rfl,hij⟩ := List.append_inj' heq rfl
    obtain rfl : i=j := by simpa using hij
    exact hi d hd
  · have hlast : order++[i]=(before++j::after')++[k] := by simpa using heq
    obtain ⟨rfl,_⟩ := List.append_inj' hlast rfl
    exact h before j after' rfl d hd

end FuriOS.DepthFirst
