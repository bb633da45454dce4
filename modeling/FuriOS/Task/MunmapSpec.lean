import FuriOS.Task.Frames
import FuriOS.Task.VmaSpec

/-! `munmap` and `mprotect` on the map from addresses to mapping attributes. The pages that the
calls unmap or change do not matter for the areas, so the calls are followed on the array of
areas alone. -/
namespace FuriOS
open Prog

variable {t : TaskIx} {s s' : System} {start stop addr len prot : ℕ}

lemma alignUp_mod (x : ℕ) : alignUp x%pageSize=0 := Nat.mul_mod_left ..

lemma vmas_eq_of_vmasOf (h : s'.vmasOf=s.vmasOf) : (s'.mm t).vmas=(s.mm t).vmas :=
  congrFun h t

lemma wp_unmapVmaSlot {vs0 : Vmas} {i : Fin maxVmas} {todo : List (Fin maxVmas)}
    (hlt : start<stop) (hals : start%pageSize=0) (hale : stop%pageSize=0)
    (h : Vmas.Cutting vs0 (s.mm t).vmas start stop (i::todo)) :
    wp (unmapVmaSlot t start stop i)
      (fun _ s' => Vmas.Cutting vs0 (s'.mm t).vmas start stop todo) (fun _ => False) s := by
  rw [unmapVmaSlot,wp_gets_bind]
  cases hi : (s.mm t).vmas i with
  | none => exact h.skip fun w hw => by rw [hi] at hw; cases hw
  | some v =>
    refine wp_when (fun hm => ?_) fun hm => ?_
    · obtain ⟨vs',hcut,hnext⟩ := h.cut hlt hals hale hi hm
      rw [wp_bind]
      refine wp_imp (Total.wp_keeps (.forEach (fun _ => .of_ignore _) _)
        (.of_preserves fun vs => .forEach (fun va => ((asidePages_vmasOf vs).unmapUserPage t va).ignore) _)) fun _ s1 hs1 => ?_
      rw [wp_gets_bind,vmas_eq_of_vmasOf hs1,hcut]
      simpa [modifyMm] using hnext
    · exact h.skip fun w hw => by
        rw [hi] at hw
        exact Option.some.inj hw ▸ hm

lemma vmas_recomputeHeapLimit (m : AddressSpace) : (taskRecomputeHeapLimit m).vmas=m.vmas := rfl

lemma wp_taskVmaUnmapRange (h : (s.mm t).vmas.WellFormed) (hlt : start<stop)
    (hals : start%pageSize=0) (hale : stop%pageSize=0)
    (hneed : taskVmaSplitNeed (s.mm t).vmas start stop≤taskVmaFreeSlots (s.mm t).vmas) :
    wp (taskVmaUnmapRange t start stop false) (fun _ s' => (s'.mm t).vmas.WellFormed ∧
      ∀ p, Vmas.attr (s'.mm t).vmas p =
        if start≤p ∧ p<stop then none else Vmas.attr (s.mm t).vmas p) (fun _ => False) s := by
  rw [taskVmaUnmapRange,wp_gets_bind]
  refine wp_require_bind (fun _ => ?_) (fun hf => by simp [hlt] at hf)
  refine wp_require_bind (fun _ => ?_) (fun hf => by simp at hf)
  refine wp_require_bind (fun _ => ?_) (fun hf => by simp [hneed] at hf)
  rw [wp_bind]
  refine wp_imp (wp_forEach (fun todo s' => Vmas.Cutting (s.mm t).vmas (s'.mm t).vmas start stop todo)
    (fun i l w hw => wp_unmapVmaSlot hlt hals hale hw) _ s (Vmas.cutting_start h hlt hneed)) ?_
  intro _ s' hcut
  rw [modifyMm,wp_modify,System.mm_setMm_self,vmas_recomputeHeapLimit]
  refine ⟨hcut.wf,fun p => ?_⟩
  split_ifs with hp
  · rw [Vmas.attr_eq_none]
    intro i v hi hv
    have := Vmas.meets_eq_false.1 (hcut.clean i List.not_mem_nil v hi)
    simp only [VmArea.Contains] at hv
    omega
  · exact hcut.outside p hp

lemma wp_currentTask {Q : TaskIx → System → Prop} {E : System → Prop}
    (hcur : s.current=some t) : wp currentTask Q E s ↔ Q t s := by
  rw [currentTask,wp_gets_bind,hcur]
  rfl

lemma wp_callRange {Q : ℕ → System → Prop} {E : System → Prop} (hE : E s)
    (hQ : addr%pageSize=0 → addr<alignUp ((addr+len)%2^64) →
      Q (alignUp ((addr+len)%2^64)) s) : wp (callRange addr len) Q E s := by
  rw [callRange]
  refine wp_require_bind (fun h1 => ?_) (fun _ => hE)
  refine wp_require_bind (fun _ => ?_) (fun _ => hE)
  refine wp_require_bind (fun h3 => ?_) (fun _ => hE)
  rw [Bool.and_eq_true,decide_eq_true_eq,decide_eq_true_eq] at h1
  exact hQ h1.2 (of_decide_eq_true h3)

lemma wp_taskMunmap (hcur : s.current=some t) (h : (s.mm t).vmas.WellFormed) :
    wp (taskMunmap addr len) (fun _ s' => (s'.mm t).vmas.WellFormed ∧
      ∀ p, Vmas.attr (s'.mm t).vmas p=if addr≤p ∧ p<alignUp ((addr+len)%2^64) then none
        else Vmas.attr (s.mm t).vmas p) (fun _ => True) s := by
  rw [taskMunmap,wp_bind,wp_currentTask hcur,wp_bind]
  refine wp_callRange trivial fun hal hlt => ?_
  by_cases hneed : taskVmaSplitNeed (s.mm t).vmas addr (alignUp ((addr+len)%2^64))
      ≤ taskVmaFreeSlots (s.mm t).vmas
  · exact wp_mono (wp_taskVmaUnmapRange h hlt hal (alignUp_mod _) hneed) (fun _ _ hp => hp)
      fun _ hf => hf.elim
  · rw [taskVmaUnmapRange,wp_gets_bind]
    refine wp_require_bind (fun _ => ?_) (fun _ => trivial)
    refine wp_require_bind (fun _ => ?_) (fun _ => trivial)
    exact wp_require_bind (fun hn => absurd (of_decide_eq_true hn) hneed) (fun _ => trivial)

lemma wp_mprotectVmas (h : (s.mm t).vmas.WellFormed) (hals : start%pageSize=0)
    (hale : stop%pageSize=0)
    (hneed : mprotectNeed (s.mm t).vmas start stop≤taskVmaFreeSlots (s.mm t).vmas) :
    wp (mprotectVmas t start stop prot) (fun _ s' => (s'.mm t).vmas.WellFormed ∧
      ∀ p, Vmas.attr (s'.mm t).vmas p =
        if start≤p ∧ p<stop then (Vmas.attr (s.mm t).vmas p).map fun a => {a with prot := prot}
        else Vmas.attr (s.mm t).vmas p) (fun _ => False) s := by
  obtain ⟨vs1,vs2,he1,he2,h1,h2⟩ := Vmas.split_twice h hals hale hneed
  rw [mprotectVmas,wp_gets_bind,he1]
  simp only [wp_bind,modifyMm,wp_modify,he2]
  rw [System.mm_setMm_self,AddressSpace.vmas_setVmas]
  refine ⟨Vmas.wellFormed_setProt h2.wf,fun p => ?_⟩
  rw [Vmas.attr_setProt h2.wf (h2.splitFree h1.free) h2.free,h2.attr,h1.attr]

lemma wp_taskMprotect (hcur : s.current=some t) (h : (s.mm t).vmas.WellFormed) :
    wp (taskMprotect addr len prot) (fun _ s' => (s'.mm t).vmas.WellFormed ∧
      ∀ p, Vmas.attr (s'.mm t).vmas p=if addr≤p ∧ p<alignUp ((addr+len)%2^64)
        then (Vmas.attr (s.mm t).vmas p).map fun a => {a with prot := prot}
        else Vmas.attr (s.mm t).vmas p) (fun _ => True) s := by
  rw [taskMprotect,wp_bind,wp_currentTask hcur]
  refine wp_require_bind (fun _ => ?_) (fun _ => trivial)
  rw [wp_bind]
  refine wp_callRange trivial fun hal hlt => ?_
  rw [wp_gets_bind]
  refine wp_require_bind (fun _ => ?_) (fun _ => trivial)
  refine wp_require_bind (fun _ => ?_) (fun _ => trivial)
  refine wp_require_bind (fun hneed => ?_) (fun _ => trivial)
  rw [wp_bind]
  refine wp_mono (wp_mprotectVmas h hal (alignUp_mod _) (of_decide_eq_true hneed)) ?_
    (fun _ hf => hf.elim)
  intro _ s1 hs1
  -- the page loop changes no area
  have hkeep := Preserves.forEach (fun va => (asidePages_vmasOf s1.vmasOf).mprotectPage t prot va)
    (pageRange addr (alignUp ((addr+len)%2^64)))
  refine wp_mono (hkeep.wp rfl) (fun _ s2 hs2 => ?_) fun _ _ => trivial
  rw [vmas_eq_of_vmasOf hs2]
  exact hs1

/-- A successful `munmap` removes exactly the pages of its range from the map of the areas, a
successful `mprotect` changes exactly their protection, and both keep the areas disjoint. When
the slot check passes, removing the range and splitting at its ends do not run out of slots. -/
theorem taskMunmap_taskMprotect_areas (hcur : s.current=some t) (h : (s.mm t).vmas.WellFormed) :
    (∀ addr len s', (taskMunmap addr len).run s=(some (),s') → (s'.mm t).vmas.WellFormed ∧
      ∀ p, Vmas.attr (s'.mm t).vmas p=if addr≤p ∧ p<alignUp ((addr+len)%2^64) then none
        else Vmas.attr (s.mm t).vmas p) ∧
    (∀ addr len prot s', (taskMprotect addr len prot).run s=(some (),s') →
      (s'.mm t).vmas.WellFormed ∧
      ∀ p, Vmas.attr (s'.mm t).vmas p=if addr≤p ∧ p<alignUp ((addr+len)%2^64)
        then (Vmas.attr (s.mm t).vmas p).map fun a => {a with prot := prot}
        else Vmas.attr (s.mm t).vmas p) ∧
    (∀ start stop, start<stop → start%pageSize=0 → stop%pageSize=0 →
      taskVmaSplitNeed (s.mm t).vmas start stop≤taskVmaFreeSlots (s.mm t).vmas →
      ∃ s', (taskVmaUnmapRange t start stop false).run s=(some (),s')) ∧
    (∀ start stop prot, start%pageSize=0 → stop%pageSize=0 →
      mprotectNeed (s.mm t).vmas start stop≤taskVmaFreeSlots (s.mm t).vmas →
      ∃ s', (mprotectVmas t start stop prot).run s=(some (),s')) := by
  refine ⟨fun addr len s' hr => ?_,fun addr len prot s' hr => ?_,?_,?_⟩
  · have hq := wp_some (wp_taskMunmap hcur h) hr
    exact hq
  · have hq := wp_some (wp_taskMprotect hcur h) hr
    exact hq
  · intro start stop hlt hals hale hneed
    obtain ⟨_,s',hr,-⟩ := wp_total (wp_taskVmaUnmapRange h hlt hals hale hneed)
    exact ⟨s',hr⟩
  · intro start stop prot hals hale hneed
    obtain ⟨_,s',hr,-⟩ := wp_total (wp_mprotectVmas h hals hale hneed)
    exact ⟨s',hr⟩

/-- An address space with one private anonymous area of three pages. -/
def threePages : AddressSpace :=
  AddressSpace.zero.setVmas (Slots.put .empty 0 ⟨0x500000,0x503000,0,none,3,34,false⟩)

lemma wellFormed_threePages : threePages.vmas.WellFormed :=
  Vmas.wellFormed_insert Vmas.wellFormed_empty (by decide) (by decide) fun _ _ h => by cases h

theorem taskMunmap_taskMprotect_areas_threePages : (System.single threePages).current=some 0 ∧
    (∀ addr len s', (taskMunmap addr len).run (System.single threePages)=(some (),s') →
      (s'.mm 0).vmas.WellFormed) ∧
    ∃ s', (taskVmaUnmapRange 0 0x501000 0x502000 false).run (System.single threePages)
      = (some (),s') := by
  have hwf : ((System.single threePages).mm 0).vmas.WellFormed := by
    rw [System.mm_single]
    exact wellFormed_threePages
  obtain ⟨hmunmap,-,hslots,-⟩ := taskMunmap_taskMprotect_areas (t := 0) rfl hwf
  refine ⟨rfl,fun addr len s' hr => (hmunmap addr len s' hr).1,
    hslots 0x501000 0x502000 (by decide) (by decide) (by decide) ?_⟩
  rw [System.mm_single]
  decide +kernel

end FuriOS
