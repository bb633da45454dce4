import Mathlib.Tactic

/-! Fixed arrays of slots that are free or hold a value, scanned from the first slot on. -/
namespace FuriOS
open Function

/-- An array of `n` slots; a free slot holds nothing. -/
abbrev Slots (n : ℕ) (α : Type) := Fin n → Option α

namespace Slots
variable {n : ℕ} {α : Type}

def empty : Slots n α := fun _ => none

def free? (s : Slots n α) : Option (Fin n) := (List.finRange n).find? fun i => (s i).isNone

/-- The first used slot whose value satisfies the condition, with its value. -/
def find? (p : α → Bool) (s : Slots n α) : Option (Fin n × α) :=
  (List.finRange n).findSome? fun i => (s i).bind fun a => if p a then some (i,a) else none

/-- Whether some used slot satisfies the condition. -/
def any (p : α → Bool) (s : Slots n α) : Bool := (List.finRange n).any fun i => (s i).any p

/-- The number of slots whose contents satisfy the condition. -/
def count (p : Option α → Bool) (s : Slots n α) : ℕ := (List.finRange n).countP fun i => p (s i)

def put (s : Slots n α) (i : Fin n) (a : α) : Slots n α := update s i (some a)

def clear (s : Slots n α) (i : Fin n) : Slots n α := update s i none

variable {s : Slots n α} {p : α → Bool} {i j : Fin n} {a b : α}

@[simp] lemma empty_apply : (empty : Slots n α) i=none := rfl

@[simp] lemma put_self : s.put i a i=some a := update_self ..

lemma put_of_ne (h : j≠i) : s.put i a j=s j := update_of_ne h ..

@[simp] lemma clear_self : s.clear i i=none := update_self ..

lemma clear_of_ne (h : j≠i) : s.clear i j=s j := update_of_ne h ..

lemma put_eq_some : s.put i a j=some b ↔ j=i ∧ a=b ∨ j≠i ∧ s j=some b := by
  by_cases h : j=i
  · subst h
    simp
  · simp [h,put_of_ne h]

lemma clear_eq_some : s.clear i j=some b ↔ j≠i ∧ s j=some b := by
  by_cases h : j=i
  · subst h
    simp
  · simp [h,clear_of_ne h]

lemma free?_eq_some (h : s.free?=some i) : s i=none := by
  have := List.find?_some h
  simpa using this

lemma free?_eq_none : s.free?=none ↔ ∀ i, ∃ a, s i=some a := by
  simp only [free?,List.find?_eq_none,List.mem_finRange,true_imp_iff,Option.isNone_iff_eq_none,
    ← ne_eq,Option.ne_none_iff_exists']

lemma exists_free? (h : s i=none) : ∃ k, s.free?=some k := by
  cases hf : s.free? with
  | some k => exact ⟨k,rfl⟩
  | none =>
    obtain ⟨a,ha⟩ := free?_eq_none.1 hf i
    rw [h] at ha
    cases ha

lemma find?_eq_some (h : s.find? p=some (i,a)) : s i=some a ∧ p a=true := by
  obtain ⟨k,-,hk⟩ := List.exists_of_findSome?_eq_some h
  cases hs : s k with
  | none => simp [hs] at hk
  | some b =>
    rw [hs,Option.bind_some] at hk
    by_cases hb : p b=true
    · rw [if_pos hb] at hk
      obtain ⟨rfl,rfl⟩ := Prod.mk.inj (Option.some.inj hk)
      exact ⟨hs,hb⟩
    · rw [if_neg hb] at hk
      cases hk

lemma find?_eq_none : s.find? p=none ↔ ∀ i a, s i=some a → p a=false := by
  simp only [find?,List.findSome?_eq_none_iff,List.mem_finRange,true_imp_iff]
  refine forall_congr' fun i => ?_
  cases s i with
  | none => simp
  | some b => by_cases hb : p b <;> simp [hb]

lemma find?_of_unique (hi : s i=some a) (hp : p a=true)
    (hu : ∀ j b, s j=some b → p b=true → j=i) : s.find? p=some (i,a) := by
  cases hf : s.find? p with
  | none => simp [find?_eq_none.1 hf i a hi] at hp
  | some jb =>
    obtain ⟨j,b⟩ := jb
    obtain ⟨hj,hb⟩ := find?_eq_some hf
    obtain rfl := hu j b hj hb
    rw [hi] at hj
    rw [Option.some.inj hj]

lemma countP_update (q : Option α → Bool) (x : Option α) {l : List (Fin n)} (hl : l.Nodup)
    (hi : i∈l) :
    (l.countP fun j => q (update s i x j)) + (q (s i)).toNat
      = (l.countP fun j => q (s j)) + (q x).toNat := by
  induction l with
  | nil => cases hi
  | cons k l ih =>
    obtain ⟨hk,hl⟩ := List.nodup_cons.1 hl
    simp only [List.countP_cons]
    by_cases h : i=k
    · -- the updated slot is the first: the rest of the list does not see the update
      subst h
      have hrest : (l.countP fun j => q (update s i x j))=l.countP fun j => q (s j) :=
        List.countP_congr fun j hj => by
          have hne : j≠i := fun e => hk (e ▸ hj)
          rw [update_of_ne hne]
      rw [hrest,update_self]
      cases q (s i) <;> cases q x <;> simp +arith
    · have := ih hl ((List.mem_cons.1 hi).resolve_left h)
      rw [update_of_ne (Ne.symm h)]
      omega

lemma count_update (q : Option α → Bool) (x : Option α) :
    count q (update s i x) + (q (s i)).toNat=count q s + (q x).toNat :=
  countP_update q x (List.nodup_finRange n) (List.mem_finRange i)

lemma count_pos {q : Option α → Bool} : 0<count q s ↔ ∃ i, q (s i)=true := by
  simp [count,List.countP_pos_iff]

-- A scan over many slots is never unfolded, only used through its lemmas.
attribute [irreducible] free? find?

end Slots
end FuriOS
