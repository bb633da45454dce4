import FuriOS.Task.Vma

/-! The array of mapped areas as a map from addresses to attributes: what splitting, cutting
and the protection loop change in that map, and that they keep the areas disjoint. -/
namespace FuriOS

/-- What a mapping says about one address. -/
structure PageAttr where
  inode : Option ℕ
  fileOffset : ℕ
  flags : ℕ
  prot : ℕ
  deriving DecidableEq

def VmArea.attr (v : VmArea) (p : ℕ) : PageAttr :=
  ⟨v.inode,(v.fileOffset+(p-v.start))%2^64,v.flags,v.prot⟩

namespace Vmas

def attr (vs : Vmas) (p : ℕ) : Option PageAttr := (taskVmaFind vs p).map fun iv => iv.2.attr p

/-- The areas are nonempty, page aligned and pairwise disjoint. -/
structure WellFormed (vs : Vmas) : Prop where
  nonempty : ∀ i v, vs i=some v → v.start<v.stop
  aligned : ∀ i v, vs i=some v → v.start%pageSize=0 ∧ v.stop%pageSize=0
  disjoint : ∀ i j v w, i≠j → vs i=some v → vs j=some w → v.stop≤w.start ∨ w.stop≤v.start

variable {vs vs' : Vmas} {i k : Fin maxVmas} {v : VmArea} {p addr start stop : ℕ}

lemma wellFormed_empty : WellFormed Slots.empty where
  nonempty _ _ hi := by cases hi
  aligned _ _ hi := by cases hi
  disjoint _ _ _ _ _ hi := by cases hi

lemma WellFormed.unique (h : WellFormed vs) {j : Fin maxVmas} {w : VmArea} (hi : vs i=some v)
    (hj : vs j=some w) (hv : v.Contains p) (hw : w.Contains p) : j=i := by
  by_contra hne
  have := h.disjoint j i w v hne hj hi
  simp only [VmArea.Contains] at hv hw
  omega

lemma find_of_contains (h : WellFormed vs) (hi : vs i=some v) (hv : v.Contains p) :
    taskVmaFind vs p=some (i,v) :=
  Slots.find?_of_unique hi (by simpa using hv) fun j w hj hw =>
    h.unique hi hj hv (by simpa using hw)

lemma find_eq_some (h : taskVmaFind vs p=some (i,v)) : vs i=some v ∧ v.Contains p := by
  obtain ⟨hi,hv⟩ := Slots.find?_eq_some h
  exact ⟨hi,by simpa using hv⟩

lemma find_eq_none : taskVmaFind vs p=none ↔ ∀ i v, vs i=some v → ¬v.Contains p := by
  simp [taskVmaFind,Slots.find?_eq_none]

lemma attr_eq_none : attr vs p=none ↔ ∀ i v, vs i=some v → ¬v.Contains p := by
  rw [attr,Option.map_eq_none_iff,find_eq_none]

lemma attr_of_contains (h : WellFormed vs) (hi : vs i=some v) (hv : v.Contains p) :
    attr vs p=some (v.attr p) := by
  rw [attr,find_of_contains h hi hv]
  rfl

lemma attr_congr (h : WellFormed vs) (h' : WellFormed vs')
    (hto : ∀ i v, vs i=some v → v.Contains p →
      ∃ j w, vs' j=some w ∧ w.Contains p ∧ w.attr p=v.attr p)
    (hfrom : ∀ j w, vs' j=some w → w.Contains p → ∃ i v, vs i=some v ∧ v.Contains p) :
    attr vs' p=attr vs p := by
  cases ha : taskVmaFind vs p with
  | none =>
    rw [attr_eq_none.2 (find_eq_none.1 ha),attr_eq_none]
    intro j w hj hw
    obtain ⟨i,v,hi,hv⟩ := hfrom j w hj hw
    exact find_eq_none.1 ha i v hi hv
  | some iv =>
    obtain ⟨hi,hv⟩ := find_eq_some ha
    obtain ⟨j,w,hj,hw,he⟩ := hto iv.1 iv.2 hi hv
    rw [attr_of_contains h' hj hw,attr_of_contains h hi hv,he]

lemma attr_dropTo (hv : v.start≤addr) (hp : addr≤p) : (v.dropTo addr).attr p=v.attr p := by
  simp only [VmArea.attr,VmArea.dropTo,PageAttr.mk.injEq,true_and,and_true]
  rw [Nat.mod_add_mod]
  congr 1
  omega

lemma attr_takeTo : (v.takeTo addr).attr p=v.attr p := rfl

section Edits
variable {w : VmArea}

section
variable (h : WellFormed vs)
include h

lemma wellFormed_clear : WellFormed (vs.clear i) where
  nonempty j w hj := h.nonempty j w (Slots.clear_eq_some.1 hj).2
  aligned j w hj := h.aligned j w (Slots.clear_eq_some.1 hj).2
  disjoint j j' w w' hne hj hj' :=
    h.disjoint j j' w w' hne (Slots.clear_eq_some.1 hj).2 (Slots.clear_eq_some.1 hj').2

lemma wellFormed_shrink (hi : vs i=some v) (hlt : w.start<w.stop)
    (hal : w.start%pageSize=0 ∧ w.stop%pageSize=0) (hl : v.start≤w.start)
    (hr : w.stop≤v.stop) : WellFormed (vs.put i w) where
  nonempty j u hj := by
    rcases Slots.put_eq_some.1 hj with ⟨-,rfl⟩ | ⟨-,hj⟩
    · exact hlt
    · exact h.nonempty j u hj
  aligned j u hj := by
    rcases Slots.put_eq_some.1 hj with ⟨-,rfl⟩ | ⟨-,hj⟩
    · exact hal
    · exact h.aligned j u hj
  disjoint j j' u u' hne hj hj' := by
    rcases Slots.put_eq_some.1 hj with ⟨rfl,rfl⟩ | ⟨-,hold⟩
    · rcases Slots.put_eq_some.1 hj' with ⟨rfl,-⟩ | ⟨-,hold'⟩
      · exact absurd rfl hne
      · have := h.disjoint _ _ _ _ hne hi hold'
        omega
    · rcases Slots.put_eq_some.1 hj' with ⟨rfl,rfl⟩ | ⟨-,hold'⟩
      · have := h.disjoint _ _ _ _ hne hold hi
        omega
      · exact h.disjoint _ _ _ _ hne hold hold'

lemma wellFormed_insert (hlt : w.start<w.stop) (hal : w.start%pageSize=0 ∧ w.stop%pageSize=0)
    (haway : ∀ j u, vs j=some u → u.stop≤w.start ∨ w.stop≤u.start) :
    WellFormed (vs.put k w) where
  nonempty j u hj := by
    rcases Slots.put_eq_some.1 hj with ⟨-,rfl⟩ | ⟨-,hj⟩
    · exact hlt
    · exact h.nonempty j u hj
  aligned j u hj := by
    rcases Slots.put_eq_some.1 hj with ⟨-,rfl⟩ | ⟨-,hj⟩
    · exact hal
    · exact h.aligned j u hj
  disjoint j j' u u' hne hj hj' := by
    rcases Slots.put_eq_some.1 hj with ⟨rfl,rfl⟩ | ⟨-,hold⟩
    · rcases Slots.put_eq_some.1 hj' with ⟨rfl,-⟩ | ⟨-,hold'⟩
      · exact absurd rfl hne
      · exact (haway _ _ hold').symm
    · rcases Slots.put_eq_some.1 hj' with ⟨rfl,rfl⟩ | ⟨-,hold'⟩
      · exact haway _ _ hold
      · exact h.disjoint _ _ _ _ hne hold hold'

lemma attr_clear (hi : vs i=some v) :
    attr (vs.clear i) p=if v.Contains p then none else attr vs p := by
  split_ifs with hv
  · rw [attr_eq_none]
    intro j w hj hw
    obtain ⟨hne,hj⟩ := Slots.clear_eq_some.1 hj
    exact hne (h.unique hi hj hv hw)
  · refine attr_congr h (wellFormed_clear h) ?_ ?_
    · intro j u hj hu
      have hne : j≠i := by
        rintro rfl
        rw [hi] at hj
        exact hv (Option.some.inj hj ▸ hu)
      exact ⟨j,u,Slots.clear_eq_some.2 ⟨hne,hj⟩,hu,rfl⟩
    · intro j u hj hu
      exact ⟨j,u,(Slots.clear_eq_some.1 hj).2,hu⟩

lemma attr_shrink (h' : WellFormed (vs.put i w)) (hi : vs i=some v)
    (hsub : w.Contains p → v.Contains p) (hattr : w.Contains p → w.attr p=v.attr p) :
    attr (vs.put i w) p=if v.Contains p ∧ ¬w.Contains p then none else attr vs p := by
  split_ifs with hv
  · rw [attr_eq_none]
    intro j u hj hu
    rcases Slots.put_eq_some.1 hj with ⟨-,rfl⟩ | ⟨hne,hj⟩
    · exact hv.2 hu
    · exact hne (h.unique hi hj hv.1 hu)
  · refine attr_congr h h' ?_ ?_
    · intro j u hj hu
      by_cases hne : j=i
      · subst hne
        obtain rfl := Option.some.inj (hi.symm.trans hj)
        have hw : w.Contains p := by
          by_contra hw
          exact hv ⟨hu,hw⟩
        exact ⟨j,w,Slots.put_self,hw,hattr hw⟩
      · exact ⟨j,u,Slots.put_eq_some.2 (.inr ⟨hne,hj⟩),hu,rfl⟩
    · intro j u hj hu
      rcases Slots.put_eq_some.1 hj with ⟨rfl,rfl⟩ | ⟨-,hj⟩
      · exact ⟨j,v,hi,hsub hu⟩
      · exact ⟨j,u,hj,hu⟩

lemma attr_insert (h' : WellFormed (vs.put k w)) (hk : vs k=none) :
    attr (vs.put k w) p=if w.Contains p then some (w.attr p) else attr vs p := by
  split_ifs with hw
  · exact attr_of_contains h' Slots.put_self hw
  · refine attr_congr h h' ?_ ?_
    · intro j u hj hu
      have hne : j≠k := by
        rintro rfl
        rw [hk] at hj
        cases hj
      exact ⟨j,u,Slots.put_eq_some.2 (.inr ⟨hne,hj⟩),hu,rfl⟩
    · intro j u hj hu
      rcases Slots.put_eq_some.1 hj with ⟨rfl,rfl⟩ | ⟨-,hj⟩
      · exact absurd hu hw
      · exact ⟨j,u,hj,hu⟩

end

/-- What cutting `[a,b)` out of the area `v` in slot `i` leaves. -/
structure CutOut (vs vs' : Vmas) (i : Fin maxVmas) (v : VmArea) (a b : ℕ) : Prop where
  wf : WellFormed vs'
  attr : ∀ p, attr vs' p=if a≤p ∧ p<b then none else vs.attr p
  /-- Only slot `i` and slots that were free change; they get the parts of `v` around the cut. -/
  slots : ∀ j w, vs' j=some w → j≠i ∧ vs j=some w ∨
    (v.start≤w.start ∧ w.stop≤a ∨ b≤w.start ∧ w.stop≤v.stop)
  used : ∀ j w, j≠i → vs j=some w → vs' j=some w

section
variable (h : WellFormed vs)
include h

lemma cutOut_clear (hi : vs i=some v) :
    CutOut vs (vs.clear i) i v v.start v.stop where
  wf := wellFormed_clear h
  attr _ := attr_clear h hi
  slots _ _ hj := .inl (Slots.clear_eq_some.1 hj)
  used _ _ hne hj := Slots.clear_eq_some.2 ⟨hne,hj⟩

lemma cutOut_drop (hi : vs i=some v) {b : ℕ} (hb : v.start≤b)
    (hbv : b<v.stop) (hal : b%pageSize=0) :
    CutOut vs (vs.put i (v.dropTo b)) i v v.start b := by
  have hwf : WellFormed (vs.put i (v.dropTo b)) :=
    wellFormed_shrink h hi hbv ⟨hal,(h.aligned i v hi).2⟩ hb le_rfl
  refine ⟨hwf,fun p => ?_,?_,?_⟩
  · rw [attr_shrink h hwf hi (fun hp => ⟨hb.trans hp.1,hp.2⟩) (fun hp => attr_dropTo hb hp.1)]
    refine if_congr ?_ rfl rfl
    simp only [VmArea.Contains,VmArea.dropTo]
    omega
  · intro j w hj
    rcases Slots.put_eq_some.1 hj with ⟨-,rfl⟩ | ⟨hne,hj⟩
    · exact .inr (.inr ⟨le_rfl,le_rfl⟩)
    · exact .inl ⟨hne,hj⟩
  · intro j w hne hj
    exact Slots.put_eq_some.2 (.inr ⟨hne,hj⟩)

lemma cutOut_take (hi : vs i=some v) {a : ℕ} (ha : v.start<a)
    (hav : a≤v.stop) (hal : a%pageSize=0) :
    CutOut vs (vs.put i (v.takeTo a)) i v a v.stop := by
  have hwf : WellFormed (vs.put i (v.takeTo a)) :=
    wellFormed_shrink h hi ha ⟨(h.aligned i v hi).1,hal⟩ le_rfl hav
  refine ⟨hwf,fun p => ?_,?_,?_⟩
  · rw [attr_shrink h hwf hi (fun hp => ⟨hp.1,hp.2.trans_le hav⟩) (fun _ => attr_takeTo)]
    refine if_congr ?_ rfl rfl
    simp only [VmArea.Contains,VmArea.takeTo]
    omega
  · intro j w hj
    rcases Slots.put_eq_some.1 hj with ⟨-,rfl⟩ | ⟨hne,hj⟩
    · exact .inr (.inl ⟨le_rfl,le_rfl⟩)
    · exact .inl ⟨hne,hj⟩
  · intro j w hne hj
    exact Slots.put_eq_some.2 (.inr ⟨hne,hj⟩)

lemma cutOut_middle (hi : vs i=some v) (hk : vs k=none) {a b : ℕ}
    (ha : v.start<a) (hab : a≤b) (hb : b<v.stop) (hala : a%pageSize=0)
    (halb : b%pageSize=0) :
    CutOut vs ((vs.put k (v.dropTo b)).put i (v.takeTo a)) i v a b := by
  have hik : i≠k := by
    rintro rfl
    rw [hk] at hi
    cases hi
  have hcomm : (vs.put k (v.dropTo b)).put i (v.takeTo a)
      = (vs.put i (v.takeTo a)).put k (v.dropTo b) := Function.update_comm hik.symm ..
  have hleft := cutOut_take h hi ha (hab.trans hb.le) hala
  have hkfree : vs.put i (v.takeTo a) k=none := by rw [Slots.put_of_ne hik.symm,hk]
  have hwf : WellFormed ((vs.put i (v.takeTo a)).put k (v.dropTo b)) := by
    refine wellFormed_insert hleft.wf hb ⟨halb,(h.aligned i v hi).2⟩ fun j u hj => ?_
    rcases Slots.put_eq_some.1 hj with ⟨-,rfl⟩ | ⟨hne,hj⟩
    · exact .inl hab
    · have := h.disjoint j i u v hne hj hi
      simp only [VmArea.dropTo]
      omega
  rw [hcomm]
  refine ⟨hwf,fun p => ?_,?_,?_⟩
  · rw [attr_insert hleft.wf hwf hkfree,hleft.attr]
    by_cases hp : (v.dropTo b).Contains p
    · have hp' := hp
      simp only [VmArea.Contains,VmArea.dropTo] at hp'
      rw [if_pos hp,if_neg (by omega),attr_dropTo (ha.le.trans hab) hp.1,
        attr_of_contains h hi ⟨by omega,hp'.2⟩]
    · rw [if_neg hp]
      simp only [VmArea.Contains,VmArea.dropTo] at hp
      exact if_congr (by omega) rfl rfl
  · intro j w hj
    rcases Slots.put_eq_some.1 hj with ⟨-,rfl⟩ | ⟨-,hj⟩
    · exact .inr (.inr ⟨le_rfl,le_rfl⟩)
    · rcases Slots.put_eq_some.1 hj with ⟨-,rfl⟩ | ⟨hne,hj⟩
      · exact .inr (.inl ⟨le_rfl,le_rfl⟩)
      · exact .inl ⟨hne,hj⟩
  · intro j w hne hj
    have hjk : j≠k := by
      rintro rfl
      rw [hk] at hj
      cases hj
    exact Slots.put_eq_some.2 (.inr ⟨hjk,Slots.put_eq_some.2 (.inr ⟨hne,hj⟩)⟩)

end

end Edits

end Vmas

namespace Vmas
variable {vs vs0 : Vmas} {i : Fin maxVmas} {v : VmArea} {start stop : ℕ}

lemma meets_eq_true : v.meets start stop=true ↔ v.start<stop ∧ start<v.stop := by
  simp [VmArea.meets]

lemma meets_eq_false : v.meets start stop=false ↔ stop≤v.start ∨ v.stop ≤ start := by
  simp [VmArea.meets]
  omega

/-- The array while `[start,stop)` is being cut out of it, slot by slot: only the slots of `todo`
may meet the range, and there is a free slot as long as some area still has to be split. -/
structure Cutting (vs0 vs : Vmas) (start stop : ℕ) (todo : List (Fin maxVmas)) : Prop where
  wf : WellFormed vs
  outside : ∀ p, ¬(start≤p ∧ p<stop) → attr vs p=vs0.attr p
  inside : ∀ p, start≤p → p<stop → attr vs p=none ∨ attr vs p=vs0.attr p
  clean : ∀ j, j∉todo → ∀ w, vs j=some w → w.meets start stop=false
  room : (∃ j w, vs j=some w ∧ w.start<start ∧ stop<w.stop) → ∃ k, vs k=none

lemma splitNeed_pos (hlt : start<stop) (hi : vs i=some v) (hs : v.start<start)
    (he : stop<v.stop) : 0<taskVmaSplitNeed vs start stop := by
  refine Slots.count_pos.2 ⟨i,?_⟩
  simp only [hi,Option.any_some,Bool.and_eq_true,meets_eq_true,decide_eq_true_eq]
  omega

lemma cutting_start (h : WellFormed vs) (hlt : start<stop)
    (hneed : taskVmaSplitNeed vs start stop≤taskVmaFreeSlots vs) :
    Cutting vs vs start stop (List.finRange maxVmas) where
  wf := h
  outside _ _ := rfl
  inside _ _ _ := .inr rfl
  clean j hj := absurd (List.mem_finRange j) hj
  room := by
    rintro ⟨j,w,hj,hs,he⟩
    obtain ⟨k,hk⟩ := Slots.count_pos.1 ((splitNeed_pos hlt hj hs he).trans_le hneed)
    exact ⟨k,Option.isNone_iff_eq_none.1 hk⟩

lemma Cutting.skip {todo : List (Fin maxVmas)} (h : Cutting vs0 vs start stop (i::todo))
    (hi : ∀ w, vs i=some w → w.meets start stop=false) : Cutting vs0 vs start stop todo := by
  refine {h with clean := fun j hj => ?_}
  by_cases hji : j=i
  · exact hji ▸ hi
  · exact h.clean j (List.not_mem_cons_of_ne_of_not_mem hji hj)

/-- Every case of the edit cuts the part of the area in the range out of it, and a free slot is
there when one is needed. -/
lemma taskVmaCut_eq (h : WellFormed vs) (hi : vs i=some v) (hm : v.meets start stop=true)
    (hlt : start<stop) (hals : start%pageSize=0) (hale : stop%pageSize=0)
    (hroom : v.start<start → stop<v.stop → ∃ k, vs k=none) :
    ∃ vs', taskVmaCut vs i v start stop=some vs' ∧
      CutOut vs vs' i v (max start v.start) (min stop v.stop) := by
  obtain ⟨hms,hme⟩ := meets_eq_true.1 hm
  have hv := h.nonempty i v hi
  rw [taskVmaCut]
  by_cases hl : start≤v.start
  · rw [max_eq_right hl]
    by_cases hr : v.stop ≤ stop
    · rw [min_eq_right hr,if_pos ⟨le_rfl,le_rfl⟩]
      exact ⟨_,rfl,cutOut_clear h hi⟩
    · rw [min_eq_left (by omega),if_neg (by omega),if_pos le_rfl]
      exact ⟨_,rfl,cutOut_drop h hi hms.le (by omega) hale⟩
  · rw [max_eq_left (by omega)]
    by_cases hr : v.stop ≤ stop
    · rw [min_eq_right hr,if_neg (by omega),if_neg (by omega),if_pos le_rfl]
      exact ⟨_,rfl,cutOut_take h hi (by omega) hme.le hals⟩
    · rw [min_eq_left (by omega),if_neg (by omega),if_neg (by omega),if_neg (by omega)]
      obtain ⟨k,hk⟩ := hroom (by omega) (by omega)
      obtain ⟨k,hk⟩ := Slots.exists_free? hk
      simp only [taskVmaSlot,hk]
      exact ⟨_,rfl,cutOut_middle h hi (Slots.free?_eq_some hk) (by omega) hlt.le (by omega)
        hals hale⟩

lemma Cutting.cut {todo : List (Fin maxVmas)} (h : Cutting vs0 vs start stop (i::todo))
    (hlt : start<stop) (hals : start%pageSize=0) (hale : stop%pageSize=0)
    (hi : vs i=some v) (hm : v.meets start stop=true) :
    ∃ vs', taskVmaCut vs i v start stop=some vs' ∧ Cutting vs0 vs' start stop todo := by
  obtain ⟨vs',he,hcut⟩ := taskVmaCut_eq h.wf hi hm hlt hals hale fun hs he => h.room ⟨i,v,hi,hs,he⟩
  have hnew : ∀ j w, vs' j=some w → j≠i ∧ vs j=some w ∨ w.stop ≤ start ∨ stop≤w.start := by
    intro j w hj
    have := hcut.wf.nonempty j w hj
    rcases hcut.slots j w hj with hold | hpart
    · exact .inl hold
    · right
      omega
  refine ⟨vs',he,hcut.wf,fun p hp => ?_,fun p hs he => ?_,fun j hj w hw => ?_,?_⟩
  · rw [hcut.attr,if_neg (by omega)]
    exact h.outside p hp
  · rw [hcut.attr]
    split_ifs with hin
    · exact .inl rfl
    · exact h.inside p hs he
  · rcases hnew j w hw with ⟨hne,hold⟩ | hpart
    · exact h.clean j (List.not_mem_cons_of_ne_of_not_mem hne hj) w hold
    · rw [meets_eq_false]
      omega
  · -- an area around the whole range would have overlapped the one just cut
    rintro ⟨j,w,hw,hs,he⟩
    obtain ⟨hms,hme⟩ := meets_eq_true.1 hm
    rcases hnew j w hw with ⟨hne,hold⟩ | hpart
    · have := h.wf.disjoint j i w v hne hold hi
      omega
    · omega

end Vmas

namespace Vmas
variable {vs vs1 vs2 : Vmas} {i : Fin maxVmas} {v : VmArea} {addr start stop prot : ℕ}

/-- No area lies on both sides of `addr`. -/
def SplitFree (vs : Vmas) (addr : ℕ) : Prop := ∀ i v, vs i=some v → addr≤v.start ∨ v.stop≤addr

/-- What a successful split does. -/
structure SplitTo (vs vs' : Vmas) (addr : ℕ) : Prop where
  wf : WellFormed vs'
  attr : ∀ p, attr vs' p=vs.attr p
  free : SplitFree vs' addr
  within : ∀ j w, vs' j=some w → ∃ i v, vs i=some v ∧ v.start≤w.start ∧ w.stop≤v.stop
  slots : ¬SplitFree vs addr → taskVmaFreeSlots vs' + 1=taskVmaFreeSlots vs
  same : SplitFree vs addr → vs'=vs

lemma find_split_eq_none :
    (vs.find? fun v => v.start<addr && addr<v.stop)=none ↔ SplitFree vs addr := by
  rw [Slots.find?_eq_none]
  refine forall_congr' fun i => forall_congr' fun v => imp_congr_right fun _ => ?_
  rw [Bool.eq_false_iff,ne_eq,Bool.and_eq_true,decide_eq_true_eq,decide_eq_true_eq]
  omega

lemma freeSlots_put (h : vs i=none) : taskVmaFreeSlots (vs.put i v) + 1=taskVmaFreeSlots vs := by
  have := Slots.count_update (s := vs) (i := i) Option.isNone (some v)
  simpa [h,taskVmaFreeSlots,Slots.put] using this

lemma freeSlots_put_used {w : VmArea} (h : vs i=some w) :
    taskVmaFreeSlots (vs.put i v)=taskVmaFreeSlots vs := by
  have := Slots.count_update (s := vs) (i := i) Option.isNone (some v)
  simpa [h,taskVmaFreeSlots,Slots.put] using this

lemma taskVmaSplitAt_eq (h : WellFormed vs) (hal : addr%pageSize=0)
    (hroom : ¬SplitFree vs addr → ∃ k, vs k=none) :
    ∃ vs', taskVmaSplitAt vs addr=some vs' ∧ SplitTo vs vs' addr := by
  rw [taskVmaSplitAt,if_neg (not_not.2 hal)]
  cases hf : vs.find? fun v => v.start<addr && addr<v.stop with
  | none =>
    have hfree := find_split_eq_none.1 hf
    exact ⟨vs,rfl,h,fun _ => rfl,hfree,fun j w hj => ⟨j,w,hj,le_rfl,le_rfl⟩,
      fun hn => absurd hfree hn,fun _ => rfl⟩
  | some iv =>
    obtain ⟨i,v⟩ := iv
    obtain ⟨hi,hv⟩ := Slots.find?_eq_some hf
    rw [Bool.and_eq_true,decide_eq_true_eq,decide_eq_true_eq] at hv
    have hn : ¬SplitFree vs addr := fun hfree => by
      have := hfree i v hi
      omega
    obtain ⟨k,hk⟩ := hroom hn
    obtain ⟨k,hk⟩ := Slots.exists_free? hk
    have hkn := Slots.free?_eq_some hk
    have hcut := cutOut_middle h hi hkn hv.1 le_rfl hv.2 hal hal
    simp only [taskVmaSlot,hk]
    refine ⟨_,rfl,hcut.wf,fun p => ?_,fun j w hj => ?_,fun j w hj => ?_,fun _ => ?_,
      fun hfree => absurd hfree hn⟩
    · rw [hcut.attr,if_neg (by omega)]
    · rcases hcut.slots j w hj with ⟨hne,hold⟩ | hpart
      · have := h.disjoint j i w v hne hold hi
        omega
      · omega
    · rcases hcut.slots j w hj with ⟨-,hold⟩ | hpart
      · exact ⟨j,w,hold,le_rfl,le_rfl⟩
      · exact ⟨i,v,hi,by omega,by omega⟩
    · have hik : i≠k := by
        rintro rfl
        rw [hkn] at hi
        cases hi
      rw [freeSlots_put_used (w := v) (by rw [Slots.put_of_ne hik,hi]),freeSlots_put hkn]

lemma SplitTo.splitFree (h : SplitTo vs vs1 addr) (hs : SplitFree vs start) : SplitFree vs1 start := by
  intro j w hj
  obtain ⟨i,v,hi,hl,hr⟩ := h.within j w hj
  have := hs i v hi
  omega

lemma need_pos_of_not_splitFree (h : ¬SplitFree vs addr) :
    0<vs.count fun o => o.any fun v => v.start<addr && addr<v.stop := by
  simp only [SplitFree,not_forall] at h
  obtain ⟨i,v,hi,hv⟩ := h
  refine Slots.count_pos.2 ⟨i,?_⟩
  simp only [hi,Option.any_some,Bool.and_eq_true,decide_eq_true_eq]
  omega

lemma exists_free_of_pos (h : 0<taskVmaFreeSlots vs) : ∃ k, vs k=none := by
  obtain ⟨k,hk⟩ := Slots.count_pos.1 h
  exact ⟨k,Option.isNone_iff_eq_none.1 hk⟩

lemma split_twice (h : WellFormed vs) (hals : start%pageSize=0) (hale : stop%pageSize=0)
    (hneed : mprotectNeed vs start stop≤taskVmaFreeSlots vs) :
    ∃ vs1 vs2, taskVmaSplitAt vs start=some vs1 ∧ taskVmaSplitAt vs1 stop=some vs2 ∧
      SplitTo vs vs1 start ∧ SplitTo vs1 vs2 stop := by
  rw [mprotectNeed] at hneed
  obtain ⟨vs1,he1,h1⟩ := taskVmaSplitAt_eq h hals fun hs => by
    have := need_pos_of_not_splitFree hs
    exact exists_free_of_pos (by omega)
  obtain ⟨vs2,he2,h2⟩ := taskVmaSplitAt_eq h1.wf hale fun hs1 => by
    have hs : ¬SplitFree vs stop := fun hs => hs1 (h1.splitFree hs)
    have := need_pos_of_not_splitFree hs
    by_cases hstart : SplitFree vs start
    · rw [h1.same hstart]
      exact exists_free_of_pos (by omega)
    · have := need_pos_of_not_splitFree hstart
      have := h1.slots hstart
      exact exists_free_of_pos (by omega)
  exact ⟨vs1,vs2,he1,he2,h1,h2⟩

lemma taskVmaSetProt_eq_some {w : VmArea} :
    taskVmaSetProt vs start stop prot i=some w ↔ ∃ v, vs i=some v ∧
      w=if start≤v.start ∧ v.stop ≤ stop then {v with prot := prot} else v := by
  simp only [taskVmaSetProt,Option.map_eq_some_iff]
  exact exists_congr fun v => and_congr_right fun _ => eq_comm

lemma wellFormed_of_bounds (h : WellFormed vs)
    (hb : ∀ j w, vs1 j=some w → ∃ v, vs j=some v ∧ w.start=v.start ∧ w.stop=v.stop) :
    WellFormed vs1 where
  nonempty j w hj := by
    obtain ⟨v,hv,hs,he⟩ := hb j w hj
    rw [hs,he]
    exact h.nonempty j v hv
  aligned j w hj := by
    obtain ⟨v,hv,hs,he⟩ := hb j w hj
    rw [hs,he]
    exact h.aligned j v hv
  disjoint j j' w w' hne hj hj' := by
    obtain ⟨v,hv,hs,he⟩ := hb j w hj
    obtain ⟨v',hv',hs',he'⟩ := hb j' w' hj'
    rw [hs,he,hs',he']
    exact h.disjoint j j' v v' hne hv hv'

lemma wellFormed_setProt (h : WellFormed vs) : WellFormed (taskVmaSetProt vs start stop prot) :=
  wellFormed_of_bounds h fun j w hj => by
    obtain ⟨v,hv,rfl⟩ := taskVmaSetProt_eq_some.1 hj
    refine ⟨v,hv,?_⟩
    split_ifs <;> exact ⟨rfl,rfl⟩

lemma attr_setProt (h : WellFormed vs) (hs : SplitFree vs start) (he : SplitFree vs stop) (p : ℕ) :
    attr (taskVmaSetProt vs start stop prot) p =
      if start≤p ∧ p<stop then (attr vs p).map fun a => {a with prot := prot}
      else attr vs p := by
  cases hf : taskVmaFind vs p with
  | none =>
    have hnone := attr_eq_none.2 (find_eq_none.1 hf)
    have : attr (taskVmaSetProt vs start stop prot) p=none := by
      rw [attr_eq_none]
      intro j w hj hw
      obtain ⟨v,hv,rfl⟩ := taskVmaSetProt_eq_some.1 hj
      refine find_eq_none.1 hf j v hv ?_
      split_ifs at hw <;> exact hw
    rw [this,hnone]
    split_ifs <;> rfl
  | some iv =>
    obtain ⟨i,v⟩ := iv
    obtain ⟨hi,hv⟩ := find_eq_some hf
    rw [attr_of_contains h hi hv]
    have hnew : taskVmaSetProt vs start stop prot i
        = some (if start≤v.start ∧ v.stop ≤ stop then {v with prot := prot} else v) :=
      taskVmaSetProt_eq_some.2 ⟨v,hi,rfl⟩
    have hcont : (if start≤v.start ∧ v.stop ≤ stop then {v with prot := prot} else v).Contains p := by
      split_ifs <;> exact hv
    rw [attr_of_contains (wellFormed_setProt h) hnew hcont]
    have h1 := hs i v hi
    have h2 := he i v hi
    obtain ⟨hvs,hve⟩ := hv
    by_cases hin : start≤p ∧ p<stop
    · rw [if_pos hin,if_pos (by omega)]
      rfl
    · rw [if_neg hin,if_neg (by omega)]

/-- Every area has the property `P`. -/
def All (P : VmArea → Prop) (vs : Vmas) : Prop := ∀ i v, vs i=some v → P v

section All
variable {P : VmArea → Prop} {w : VmArea}

lemma all_empty : All P Slots.empty := by simp [All]

section
variable (h : All P vs)
include h

lemma All.clear : All P (vs.clear i) :=
  fun j v hj => h j v (Slots.clear_eq_some.1 hj).2

lemma All.put (hw : P w) : All P (vs.put i w) := by
  intro j v hj
  obtain ⟨-,rfl⟩ | ⟨-,hj⟩ := Slots.put_eq_some.1 hj
  · exact hw
  · exact h j v hj

lemma All.cut (hd : ∀ a, P (v.dropTo a)) (ht : ∀ a, P (v.takeTo a))
    (hc : taskVmaCut vs i v start stop=some vs') : All P vs' := by
  unfold taskVmaCut at hc
  split_ifs at hc
  · exact Option.some.inj hc ▸ h.clear
  · exact Option.some.inj hc ▸ h.put (hd _)
  · exact Option.some.inj hc ▸ h.put (ht _)
  · split at hc
    · cases hc
    · exact Option.some.inj hc ▸ (h.put (hd _)).put (ht _)

lemma All.splitAt (hd : ∀ v a, P v → P (v.dropTo a)) (ht : ∀ v a, P v → P (v.takeTo a))
    (hs : taskVmaSplitAt vs addr=some vs') : All P vs' := by
  unfold taskVmaSplitAt at hs
  split_ifs at hs
  split at hs
  · exact Option.some.inj hs ▸ h
  · rename_i i v hf
    have hv : P v := h i v (Slots.find?_eq_some hf).1
    split at hs
    · cases hs
    · exact Option.some.inj hs ▸ (h.put (hd v _ hv)).put (ht v _ hv)

lemma All.setProt {prot : ℕ} (hp : ∀ v, P v → P {v with prot := prot}) :
    All P (taskVmaSetProt vs start stop prot) := by
  intro j w hj
  obtain ⟨v,hv,rfl⟩ := taskVmaSetProt_eq_some.1 hj
  split_ifs
  · exact hp v (h j v hv)
  · exact h j v hv

end

end All

end Vmas

end FuriOS
