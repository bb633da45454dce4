import Mathlib.Tactic

/-! Redo logs with revokes: each transaction logs images of blocks and may revoke blocks, which
makes the images void that were logged for them so far. -/
namespace FuriOS

/-- What one transaction says about blocks `β` with contents `ι`. -/
structure Redo (β ι : Type) where
  images : List (β × ι)
  revokes : List β

namespace Redo
variable {β ι : Type} [DecidableEq β]

/-- The image that the transaction logs for the block: the last one, if it has several. -/
def image (t : Redo β ι) (b : β) : Option ι := (t.images.reverse.find? (·.1 == b)).map (·.2)

/-- The image of the latest transaction such that no transaction from it on revokes the block. -/
def lastImage : List (Redo β ι) → β → Option ι
  | [],_ => none
  | t::ts,b =>
    match lastImage ts b with
    | some i => some i
    | none => if ∃ u∈t::ts, b∈u.revokes then none else t.image b

variable {t : Redo β ι} {ts : List (Redo β ι)} {b : β}

lemma lastImage_none_of_revoked {l : List (Redo β ι)} (h : b∈t.revokes) :
    lastImage (l++[t]) b=none := by
  induction l with
  | nil => simp [lastImage,h]
  | cons u l ih =>
    rw [List.cons_append,lastImage,ih]
    have : ∃ v∈u::(l++[t]), b∈v.revokes := ⟨t,by simp,h⟩
    simp only [if_pos this]

lemma lastImage_append_single (ts : List (Redo β ι)) (t : Redo β ι) (b : β) :
    lastImage (ts++[t]) b=if b∈t.revokes then none else
      match t.image b with
      | some i => some i
      | none => lastImage ts b := by
  by_cases h : b∈t.revokes
  · rw [if_pos h,lastImage_none_of_revoked h]
  rw [if_neg h]
  induction ts with
  | nil =>
    simp only [List.nil_append,lastImage,List.mem_singleton,exists_eq_left,if_neg h]
    cases t.image b <;> rfl
  | cons u ts ih =>
    rw [List.cons_append,lastImage,ih]
    cases hi : t.image b with
    | some i => rfl
    | none =>
      simp only [lastImage]
      have hex : (∃ v∈u::(ts++[t]), b∈v.revokes) ↔ ∃ v∈u::ts, b∈v.revokes := by
        simp [h]
      simp only [hex]

end Redo
end FuriOS
