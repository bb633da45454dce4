import Mathlib.Tactic

/-! Reference counts and named owners. Every owner points to at most one object, and a running
operation may hold further references in its local variables; the counter of an object is at
least the number of the references to it. -/
namespace FuriOS
open Function
namespace Owners
variable {O P : Type} [Fintype O] [DecidableEq O] [DecidableEq P]

/-- The number of owners of `p`. -/
def count (own : O → Option P) (p : P) : ℕ := ∑ o, if own o=some p then 1 else 0

/-- Every counter covers the owners and the held references. -/
def Counted (own : O → Option P) (held : List P) (refs : P → ℕ) : Prop :=
  ∀ p, count own p + held.count p≤refs p

variable {own own' : O → Option P} {held : List P} {refs : P → ℕ} {o o' : O} {p q : P}

lemma count_update (own : O → Option P) (o : O) (x : Option P) (p : P) :
    count (update own o x) p + (if own o=some p then 1 else 0)
      = count own p + if x=some p then 1 else 0 := by
  have hsplit (f : O → Option P) : count f p
      = (if f o=some p then 1 else 0) + ∑ i∈Finset.univ.erase o, if f i=some p then 1 else 0 :=
    (Finset.add_sum_erase _ _ (Finset.mem_univ o)).symm
  have hrest : (∑ i∈Finset.univ.erase o, if update own o x i=some p then 1 else 0)
      = ∑ i∈Finset.univ.erase o, if own i=some p then 1 else 0 := by
    refine Finset.sum_congr rfl fun i hi => ?_
    rw [update_of_ne (Finset.ne_of_mem_erase hi)]
  rw [hsplit (update own o x),hsplit own,hrest,update_self]
  omega

omit [DecidableEq O] in
lemma count_mono (h : ∀ i, own' i=own i ∨ own' i=none) : count own' p≤count own p := by
  refine Finset.sum_le_sum fun i _ => ?_
  rcases h i with hi | hi <;> rw [hi]
  simp

lemma one_le_count (h : own o=some p) : 1≤count own p := by
  have := count_update own o none p
  rw [if_pos h,if_neg (by simp)] at this
  omega

lemma two_le_count (hne : o≠o') (h : own o=some p) (h' : own o'=some p) : 2≤count own p := by
  have := count_update own o none p
  have hrest : 1≤count (update own o none) p :=
    one_le_count (o := o') (by rw [update_of_ne hne.symm,h'])
  rw [if_pos h,if_neg (by simp)] at this
  omega

omit [DecidableEq O] in
lemma count_le_one (h : ∀ o o', own o=some p → own o'=some p → o=o') : count own p≤1 := by
  rw [count,Finset.sum_boole]
  refine Finset.card_le_one.2 fun o ho o' ho' => ?_
  exact h o o' (Finset.mem_filter.1 ho).2 (Finset.mem_filter.1 ho').2

lemma count_split (own : O → Option P) {l : List O} (hl : l.Nodup) (p : P) :
    count own p=count (fun o => if o∈l then none else own o) p + (l.filterMap own).count p := by
  induction l with
  | nil => simp
  | cons o l ih =>
    obtain ⟨ho,hl⟩ := List.nodup_cons.1 hl
    have hown : (fun i => if i∈o::l then none else own i)
        = update (fun i => if i∈l then none else own i) o none := by
      funext i
      by_cases hi : i=o
      · subst hi
        simp
      · rw [update_of_ne hi]
        simp [hi]
    have hupd := count_update (fun i => if i∈l then none else own i) o none p
    rw [if_neg ho,if_neg (show (none : Option P)≠some p by simp)] at hupd
    rw [ih hl,hown]
    cases hox : own o with
    | none =>
      rw [List.filterMap_cons_none hox]
      rw [hox,if_neg (by simp)] at hupd
      omega
    | some q =>
      rw [List.filterMap_cons_some hox,List.count_cons]
      rw [hox] at hupd
      by_cases hq : q=p
      · subst hq
        simp at hupd ⊢
        omega
      · simp [hq] at hupd ⊢
        omega

namespace Counted

lemma pos (h : Counted own held refs) (ho : own o=some p) : 0<refs p := by
  have := h p
  have := one_le_count ho
  omega

omit [DecidableEq O] in
lemma pos_of_held (h : Counted own held refs) (hp : p∈held) : 0<refs p := by
  have := h p
  have := List.count_pos_iff.2 hp
  omega

lemma unique {a b : O} (h : Counted own held refs) (hr : refs p=1) (ha : own a=some p)
    (hb : own b=some p) : a=b := by
  by_contra hne
  have := h p
  have := two_le_count hne ha hb
  omega

lemma not_owned (h : Counted own (p::held) refs) (hr : refs p=1) (o : O) : own o≠some p := by
  intro ho
  have hp := h p
  have := one_le_count ho
  rw [List.count_cons_self] at hp
  omega

omit [DecidableEq O] in
lemma not_held (h : Counted own (p::held) refs) (hr : refs p=1) : p∉held := by
  intro hp
  have hle := h p
  have := List.count_pos_iff.2 hp
  rw [List.count_cons_self] at hle
  omega

omit [DecidableEq O] in
lemma mono (h : Counted own held refs) (hle : ∀ i, own' i=own i ∨ own' i=none) :
    Counted own' held refs := fun p => (Nat.add_le_add_right (count_mono hle) _).trans (h p)

omit [DecidableEq O] in
lemma forget (h : Counted own (p::held) refs) : Counted own held refs := by
  intro q
  have := h q
  rw [List.count_cons] at this
  omega

lemma take (h : Counted own (p::held) refs) (ho : own o=none) :
    Counted (update own o (some p)) held refs := by
  intro q
  have hq := h q
  have hu := count_update own o (some p) q
  rw [ho,if_neg (show (none : Option P)≠some q by simp)] at hu
  rw [List.count_cons] at hq
  by_cases hpq : p=q
  · subst hpq
    simp at hu hq
    omega
  · simp [hpq] at hu hq
    omega

lemma drop (h : Counted own held refs) (ho : own o=some p) :
    Counted (update own o none) (p::held) refs := by
  intro q
  have hq := h q
  have hu := count_update own o none q
  rw [ho,if_neg (show (none : Option P)≠some q by simp)] at hu
  rw [List.count_cons]
  by_cases hpq : p=q
  · subst hpq
    simp at hu ⊢
    omega
  · simp [hpq] at hu ⊢
    omega

lemma dropAll (h : Counted own held refs) {l : List O} (hl : l.Nodup) :
    Counted (fun o => if o∈l then none else own o) (l.filterMap own++held) refs := by
  intro p
  have hp := h p
  rw [count_split own hl p] at hp
  rw [List.count_append]
  omega

lemma takeAll {l : List O} (hl : l.Nodup)
    (h : Counted (fun o => if o∈l then none else own o) (l.filterMap own++held) refs) :
    Counted own held refs := by
  intro p
  have hp := h p
  rw [List.count_append] at hp
  rw [count_split own hl p]
  omega

omit [DecidableEq O] in
lemma freshAll (h : Counted own held refs) {l : List P} (hl : l.Nodup) (hz : ∀ p∈l, refs p=0)
    {refs' : P → ℕ} (hr : ∀ p, refs' p=if p∈l then 1 else refs p) :
    Counted own (l++held) refs' := by
  intro p
  have hp := h p
  rw [List.count_append,hr]
  split_ifs with hmem
  · rw [List.count_eq_one_of_mem hl hmem]
    have := hz p hmem
    omega
  · rw [List.count_eq_zero_of_not_mem hmem]
    omega

omit [DecidableEq O] in
lemma inc (h : Counted own held refs) (p : P) :
    Counted own (p::held) (update refs p (refs p+1)) := by
  intro q
  have hq := h q
  rw [List.count_cons]
  by_cases hpq : q=p
  · subst hpq
    simp
    omega
  · rw [update_of_ne hpq]
    simp [Ne.symm hpq]
    omega

omit [DecidableEq O] in
lemma dec (h : Counted own (p::held) refs) : Counted own held (update refs p (refs p-1)) := by
  intro q
  have hq := h q
  rw [List.count_cons] at hq
  by_cases hpq : q=p
  · subst hpq
    simp at hq ⊢
    omega
  · rw [update_of_ne hpq]
    omega

omit [DecidableEq O] in
lemma fresh (h : Counted own held refs) (hp : refs p=0) :
    Counted own (p::held) (update refs p 1) := by
  have := h.inc p
  rwa [hp] at this

end Counted
end Owners
end FuriOS
