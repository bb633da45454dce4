import FuriOS.PageCacheSpec
import FuriOS.Task.MunmapSpec

/-! The calls of a task with private mappings: page faults, unmapping, protection and the program
break keep all references counted and leave alone what the other tasks read. -/
namespace FuriOS
open Prog MemView

variable {m : AddressSpace} {va : ℕ}

def System.Unshared (s : System) : Prop := ∀ t i a, (s.mm t).vmas i=some a → a.shared=false

lemma vmaFind_unshared (h : ∀ i a, m.vmas i=some a → a.shared=false) {i : Fin maxVmas} {a : VmArea} (hf : taskVmaFind m.vmas va=some (i,a)) :
    a.shared=false := h i a (Slots.find?_eq_some hf).1

lemma writeprotectShared_unshared {I : System → Prop} (hI : ∀ s, I s → s.Unshared) (n off : ℕ) :
    Preserves I (taskPagecacheWriteprotectShared n off) := by
  refine .forEach (fun t => .gets fun st => .ite (fun _ => .of_pure _)
    fun _ => .forEach (fun i => ?_) _) _
  unfold writeprotectPage
  refine Preserves.of_ends fun s hs => Ends.gets_bind ?_
  split
  · exact hs
  split
  · exact hs
  · rename_i up _ j v hf
    have hv : v.shared=false := vmaFind_unshared (hI s hs t) hf
    rw [if_neg (by simp [hv])]
    exact hs

lemma wp_taskMapUserPage {p : ℕ} {w x c b : Bool} : wp (taskMapUserPage va p w x c b)
      (fun _ m' => ∃ i, m.pages i=none ∧ (∀ j up, m.pages j=some up → up.va≠va) ∧
        userPteOk m va=true ∧
        m'=m.place i va (mmuMakePage p (taskUserAttrs w x c)) (some ⟨va,p,b⟩))
      (fun m' => m'=m ∨ (∀ j up, m.pages j=some up → up.va≠va) ∧ m'=m.setPte va .zero) m := by
  rw [taskMapUserPage,wp_gets_bind]
  refine wp_require_bind (fun hfind => ?_) fun _ => .inl rfl
  have hva (j : Fin maxUserPages) (up : UserPage) (hj : m.pages j=some up) : up.va≠va := by
    simpa using Slots.find?_eq_none.1 (Option.isNone_iff_eq_none.1 hfind) j up hj
  rw [wp_bind,taskSetUserPte,wp_gets_bind]
  refine wp_require_bind (fun hok => ?_) fun _ => .inl rfl
  rw [wp_modify,wp_onFail,taskTrackPage,wp_gets_bind]
  split
  · rename_i i hi
    exact ⟨i,Slots.free?_eq_some hi,hva,hok,rfl⟩
  · have hl3 : taskL3ForVa m va≠0 := (userPteOk_iff.1 hok).2.2.2
    rw [wp_fail,if_pos (by rwa [taskL3ForVa_setPte])]
    exact .inr ⟨hva,by simp [AddressSpace.setPte]⟩

namespace MemView.Cow
variable {A : TaskIx → Prop} {r : Readings} {held : List ℕ}
variable {s : System} {t : TaskIx} {p : ℕ} {i : Fin maxUserPages} {up : UserPage}

lemma unshared (h : CowOf A r held s) : s.Unshared := fun t => (h.sound t).unshared

lemma memInv : MemInv (Cow A r) where
  ok h := h.ok.cacheOk
  perm h hp := ⟨h.ok.perm hp,h.sound,h.reads⟩
  handed h hp := h.handed hp
  free h := h.free
  refCached h hp := h.refCached hp
  writeHeld h hp hw := h.write (hw.ok h.ok.phys) hw.refs hw.outside (h.ok.aligned h.ok.refs_ne)
    fun _ _ _ hi => h.not_page hp hi
  writeCached h hp hw := by
    obtain ⟨j,c,hj,rfl⟩ := id hp
    exact h.write (hw.ok h.ok.phys) hw.refs hw.outside (h.ok.aligned (h.entry_refs hj))
      fun _ _ _ hi => h.cached_not_page hp hi
  setEntry h hj hc := h.setEntry hj hc
  takeEntry h hp hj := h.takeEntry hj fun _ _ _ hi => h.not_page hp hi
  dropEntry h hj := h.dropEntry hj
  protect := writeprotectShared_unshared (fun _ h => h.1.unshared) _ _

lemma mapUserPage {w : Bool} (x c b : Bool) (ht : A t → Maps r t) (h : Cow A r (p::held) s.memView)
    (hc : ¬s.memView.cached p) (hw : w=true → s.phys.pageRefs p=1) :
    wp (onMm t (taskMapUserPage va p w x c b)) (fun _ s' => Cow A r held s'.memView)
      (fun s' => Cow A r (p::held) s'.memView) s := by
  rw [onMm,wp_zoom]
  refine wp_mono wp_taskMapUserPage ?_ ?_
  · rintro - m ⟨i,hi,hva,-,rfl⟩
    rw [memView_setMm]
    exact h.mapPage ht hi hva hc hw x c b
  · rintro m (rfl | ⟨hva,rfl⟩)
    · rwa [memView_setMm,← memView_mm,setMm_self]
    · rw [memView_setMm]
      exact h.clearPte hva

lemma anonFaultPage (va : ℕ) (w x : Bool) (ht : A t → Maps r t) :
    Preserves (CowOf A r held) (taskMapUserAnonFaultPage t va w x) := by
  refine .of_wp fun s hs => ?_
  rw [taskMapUserAnonFaultPage,wp_bind]
  refine wp_mono (memInv.allocReserve hs) ?_ ?_
  · rintro p s1 ⟨ph,hp,rfl⟩
    have h1 : Cow A r (p::held) (s.setPhys ph).memView := hs.handed hp
    have hone : (s.setPhys ph).phys.pageRefs p=1 := by simp [hp.refs]
    rw [wp_onFail]
    exact wp_mono (h1.mapUserPage x false w ht (h1.not_cached hone) fun _ => hone)
      (fun _ _ h => h) fun s2 h2 => h2.free
  · rintro s1 rfl
    exact hs

lemma fileFaultPage {v : VmArea} (hv : v.shared=false) (va : ℕ) (w x : Bool) (ht : A t → Maps r t) :
    Preserves (CowOf A r held) (taskMapUserFileFaultPage t v va w x) := by
  refine .of_wp fun s hs => ?_
  unfold taskMapUserFileFaultPage
  split
  · exact hs
  · rename_i n _
    rw [if_neg (by simp [hv]),wp_bind]
    refine wp_imp (memInv.privateFilePage n _ hs) ?_
    rintro p s1 ⟨h1,hone,-⟩
    rw [wp_onFail]
    exact wp_mono (h1.mapUserPage x false w ht (h1.not_cached hone) fun _ => hone)
      (fun _ _ h => h) fun s2 h2 => h2.free

lemma writebackAt_run (h : ∀ i a, (s.mm t).vmas i=some a → a.shared=false) (up : UserPage) :
    (writebackAt t up).run s=(some (),s) := by
  rw [writebackAt,run_bind,run_gets]
  dsimp only
  cases hf : taskVmaFind (s.mm t).vmas up.va with
  | none => rfl
  | some iv =>
    obtain ⟨i,v⟩ := iv
    have hv : v.shared=false := vmaFind_unshared h hf
    dsimp only
    rw [taskVmaWritebackPage,run_bind,run_gets]
    dsimp only
    split
    · rfl
    · rw [hv]
      rfl

lemma unmapUserPage (va : ℕ) (ht : A t → Drops r t) :
    Preserves (CowOf A r held) (taskUnmapUserPage t va) := by
  refine .of_wp fun s hs => ?_
  rw [taskUnmapUserPage,wp_gets_bind]
  split
  · exact hs
  · rename_i i up hf
    obtain ⟨hi,hva⟩ := Slots.find?_eq_some hf
    have hva : up.va=va := of_decide_eq_true hva
    refine wp_require_bind (fun _ => wp_require_bind (fun _ => ?_) fun _ => hs) fun _ => hs
    rw [wp_bind]
    refine wp_of_run (writebackAt_run (hs.sound t).unshared up) ?_
    have hfree := (hs.unmapPage ht hi).free
    simp only [modifyMm,modifyPhys,wp_bind,wp_modify,CowOf,memView_setMm,memView_setPhys,System.mm_setPhys,
      System.mm_setMm_self,System.phys_setMm,setMm_setPhys,setMm_setMm]
    subst hva
    exact hfree

lemma setVmas {vs : Vmas} (h : CowOf A r held s) (hv : vs.All fun a => a.shared=false) :
    Cow A r held (s.setMm t ((s.mm t).setVmas vs)).memView := by
  rw [memView_setMm]
  exact h.setFields rfl rfl rfl hv

lemma recomputeHeapLimit (h : CowOf A r held s) :
    Cow A r held (s.setMm t (taskRecomputeHeapLimit (s.mm t))).memView := by
  rw [memView_setMm]
  exact h.setFields rfl rfl rfl (h.sound t).unshared

lemma unmapVmaSlot (start stop : ℕ) (i : Fin maxVmas) (ht : A t → Drops r t) :
    Preserves (CowOf A r held) (unmapVmaSlot t start stop i) := by
  unfold FuriOS.unmapVmaSlot
  refine Preserves.of_ends fun s hs => Ends.gets_bind ?_
  split
  · exact hs
  · rename_i v hi
    have hv : v.shared=false := (hs.sound t).unshared i v hi
    refine .of_preserves (.when fun _ => .bind (.forEach (fun va => (unmapUserPage va ht).ignore) _)
      fun _ => Preserves.of_ends fun s1 h1 => Ends.gets_bind ?_) hs
    split
    · exact h1
    · rename_i vs hcut
      refine .of_modify (h1.setVmas (Vmas.All.cut (h1.sound t).unshared ?_ ?_ hcut)) <;> exact fun _ => hv

lemma vmaUnmapRange (start stop : ℕ) (b : Bool) (ht : A t → Drops r t) :
    Preserves (CowOf A r held) (taskVmaUnmapRange t start stop b) := by
  unfold taskVmaUnmapRange
  exact .gets fun _ => .require fun _ => .require fun _ =>
    .require fun _ => .bind (.forEach (fun i => unmapVmaSlot start stop i ht) _) fun _ =>
    .of_modify fun _ hs => hs.recomputeHeapLimit

/-- What making a page the task's own leaves behind: the page itself if nobody else refers to it,
otherwise a copy in the same slot. -/
lemma unshare (h : CowOf A r held s) (hi : (s.mm t).pages i=some up) : wp (unsharePage t i up true)
    (fun p s' => p=up.pa ∧ s'=s ∧ s.phys.pageRefs p=1 ∨
      ∃ ph, Handed s.phys ph p ∧ s'=(s.setPhys (pmmFreePage up.pa (ph.copyPage p up.pa))).setMm t
        ((s.mm t).setPages ((s.mm t).pages.put i {up with pa := p})))
    (fun s' => s'=s) s := by
  have hrefs : pmmPageRefcount s.phys up.pa=s.phys.pageRefs up.pa :=
    if_pos (h.ok.phys.indexed (h.page_refs hi))
  rw [unsharePage,wp_gets_bind,hrefs]
  refine wp_require_of rfl fun hne => ?_
  split_ifs with hgt
  · rw [wp_bind]
    refine wp_mono (memInv.allocReserve h) ?_ fun _ he => he
    rintro p s1 ⟨ph,hp,rfl⟩
    rw [modifyPhys,wp_modify_bind,modifyPhys,wp_modify_bind,modifyMm,wp_modify_bind,wp_pure]
    exact .inr ⟨ph,hp,rfl⟩
  · rw [wp_pure]
    refine .inl ⟨rfl,rfl,?_⟩
    have hne : s.phys.pageRefs up.pa≠0 := by simpa using hne
    simp only [Bool.true_and,decide_eq_true_eq] at hgt
    omega

lemma replacePage {ph : Phys} {e : Pte} (h : CowOf A r held s) (hi : (s.mm t).pages i=some up)
    (he : taskGetUserPte (s.mm t) up.va=some e) (hv : e.valid=true) (hpa : e.pa=up.pa) (hp : Handed s.phys ph p)
    (w x c b : Bool) : Cow A r held ((s.memView.setPhys (pmmFreePage up.pa (ph.copyPage p up.pa))).setMm t
      ((s.mm t).place i up.va (mmuMakePage p (taskUserAttrs w x c)) (some ⟨up.va,p,b⟩))) := by
  have hone : ph.pageRefs p=1 := by simp [hp.refs]
  -- the old page is unmapped before the copy is mapped, so the task itself is looked at only at the end
  have hother : Cow (fun t' => A t' ∧ t'≠t) r held s.memView := ⟨h.ok,h.sound,fun t' ht' => h.reads t' ht'.1⟩
  have hnew := memInv.writeHeld (v := s.memView.setPhys ph) (hother.handed hp) hone (.copyPage (q := up.pa))
  have hunmap := hnew.unmapPage (t := t) (fun ht => absurd rfl ht.2) (i := i) hi
  have hfree := hunmap.free
  have hne : p≠up.pa := by
    rintro rfl
    exact h.page_refs hi hp.fresh
  have hrefs : (pmmFreePage up.pa (ph.copyPage p up.pa)).pageRefs p=1 := by
    rw [refs_pmmFreePage (m := ph.copyPage p up.pa) hunmap.ok.phys hunmap.ok.refs_ne,
      Function.update_of_ne hne]
    exact hone
  have hmap := hfree.mapPage (t := t) (fun ht => absurd rfl ht.2) (i := i) (by simp [AddressSpace.place])
    (fun j up' hj => (h.sound t).unmapped hi (by simpa using hj)) (hfree.not_cached hrefs)
    (fun _ => hrefs) x c b (w := w)
  have hcow : Cow (fun t' => A t' ∧ t'≠t) r held ((s.memView.setPhys (pmmFreePage up.pa
      (ph.copyPage p up.pa))).setMm t ((s.mm t).place i up.va (mmuMakePage p (taskUserAttrs w x c))
      (some ⟨up.va,p,b⟩))) := by simpa using hmap
  have hal : p%pageSize=0 := (pageIndexed_iff.1 hp.indexed).1
  have hout {q : ℕ} (hq : s.phys.pageRefs q≠0) : ph.mem.Agree s.phys.mem q pageSize ∧ q≠p ∧ q%pageSize=0 := by
    have hqp : q≠p := fun hc => hq (hc ▸ hp.fresh)
    exact ⟨hp.outside.agree hal (h.ok.aligned hq) hqp,hqp,h.ok.aligned hq⟩
  refine ⟨hcow.ok,hcow.sound,fun t' ht' va => ?_⟩
  by_cases het : t'=t
  · subst het
    refine (congrArg (r t' va) (h.userRead_remap he hv hpa hal mm_setMm_self (fun k hk => ?_)
      (fun j up' hj _ => ?_) va)).mpr (h.reads t' ht' va)
    · simp only [phys_setMm,phys_setPhys,mem_pmmFreePage,Phys.copyPage]
      rw [Buf.copy_of_inside (by omega),Nat.add_sub_cancel_left]
      exact (hout (h.page_refs hi)).1 _ (by omega) (by omega)
    · obtain ⟨hagree,hqp,hq⟩ := hout (h.page_refs hj)
      simp only [phys_setMm,phys_setPhys,mem_pmmFreePage]
      exact fun a hlo hhi => (Phys.sameOutside_copyPage.agree hal hq hqp a hlo hhi).trans (hagree a hlo hhi)
  · exact hcow.reads t' ⟨ht',het⟩ va

end MemView.Cow

section Pte
variable {s : System} {t : TaskIx} {m : AddressSpace} {up : UserPage} {va p : ℕ}
variable {i : Fin maxUserPages} {e : Pte}

lemma wp_setUserPte {a : PteAttrs} {Q : Unit → System → Prop} {E : System → Prop}
    (hok : userPteOk (s.mm t) va=true)
    (hQ : Q () (s.setMm t ((s.mm t).setPte va (mmuMakePage p a)))) :
    wp (onMm t (taskSetUserPte va p a)) Q E s := by
  rw [onMm,wp_zoom,taskSetUserPte,wp_gets_bind]
  exact wp_require_bind (fun _ => hQ) fun hno => by simp [hok] at hno

lemma userPteOk_of_validate {hw : HwBits} (h : taskPageValidateHw m up=some hw) :
    userPteOk m up.va=true := by
  by_contra hno
  simp [taskPageValidateHw,taskGetUserPte,hno] at h

lemma taskPageValidateHw_eq_some {hw : HwBits} (h : taskPageValidateHw m up=some hw) :
    ∃ e, taskGetUserPte m up.va=some e ∧
      e.valid=true ∧ e.pa=up.pa ∧ hw.writable=taskPteIsUserWritable e ∧
      (up.writableIntent=false ∨ hw.cow=true → taskPteIsUserWritable e=false) := by
  unfold taskPageValidateHw at h
  split at h
  · cases h
  rename_i e he
  split_ifs at h with hc
  obtain rfl := Option.some.inj h
  simp only [taskPteIsUserPage,Bool.and_eq_true,decide_eq_true_eq,Bool.not_eq_true',
    Bool.and_eq_false_iff,Bool.not_eq_false',Bool.or_eq_false_iff] at hc
  refine ⟨e,he,hc.1.1.1.1,hc.1.1.1.2,rfl,?_⟩
  rintro (hi | hcow)
  · rcases hc.1.1.2 with h | h
    · simp [hi] at h
    · exact h.1
  · rcases hc.1.2 with h | h
    · exact absurd (h.symm.trans hcow) (by decide)
    · exact h

lemma inShared_unshared (h : ∀ i a, m.vmas i=some a → a.shared=false) (va : ℕ) :
    m.inShared va=false := by
  rw [AddressSpace.inShared]
  cases hf : taskVmaFind m.vmas va with
  | none => rfl
  | some iv => exact vmaFind_unshared h hf

lemma place_put : (m.setPages (m.pages.put i up)).setPte va e=m.place i va e (some up) := rfl

lemma place_self (hi : m.pages i=some up) : m.place i va e (some up)=m.setPte va e := by
  rw [AddressSpace.place,← hi,Function.update_eq_self]
  rfl

end Pte

namespace MemView.Cow
variable {A : TaskIx → Prop} {r : Readings} {held : List ℕ}
variable {s : System} {t : TaskIx}

lemma permissionFault (va : ℕ) : Preserves (CowOf A r held) (permissionFault t va) := by
  refine .of_wp fun s hs => ?_
  rw [FuriOS.permissionFault,wp_gets_bind]
  split
  · exact hs
  rename_i i up hf
  obtain ⟨hi,hva⟩ := Slots.find?_eq_some hf
  obtain rfl : up.va=va := of_decide_eq_true hva
  split
  · exact hs
  rename_i hw hval
  have hok := userPteOk_of_validate hval
  obtain ⟨e,he,hv,hpa,-⟩ := taskPageValidateHw_eq_some hval
  refine wp_require_of hs fun _ => ?_
  split_ifs
  · rw [wp_bind]
    refine wp_mono (hs.unshare hi) ?_ ?_
    · rintro p s1 (⟨rfl,rfl,hone⟩ | ⟨ph,hp,rfl⟩)
      · refine wp_setUserPte hok ?_
        rw [CowOf,memView_setMm,← place_self hi]
        exact hs.protectPage hi he hv hpa (fun _ => hone) hw.executable false up.writableIntent
      · refine wp_setUserPte (by simpa using hok) ?_
        have hrep := hs.replacePage hi he hv hpa hp true hw.executable false up.writableIntent
        simpa [CowOf,place_put] using hrep
    · rintro s1 rfl
      exact hs
  · split
    · exact hs
    rename_i j v hv
    split
    · exact hs
    have hpriv : v.shared=false := vmaFind_unshared (hs.sound t).unshared hv
    exact wp_require_bind (fun hreq => by simp [hpriv] at hreq) fun _ => hs

lemma pageSetProt {i : Fin maxUserPages} {up : UserPage} (prot : ℕ)
    (h : CowOf A r held s) (hi : (s.mm t).pages i=some up) :
    wp (taskPageSetProt t i up prot) (fun _ s' => Cow A r held s'.memView)
      (fun s' => Cow A r held s'.memView) s := by
  rw [taskPageSetProt,wp_gets_bind]
  refine wp_require_of h fun hval => ?_
  obtain ⟨hw,hval⟩ := Option.isSome_iff_exists.1 hval
  have hok := userPteOk_of_validate hval
  obtain ⟨e,he,hv,hpa,-⟩ := taskPageValidateHw_eq_some hval
  rw [inShared_unshared (m := s.mm t) (h.sound t).unshared]
  split_ifs
  · rw [Bool.not_false,wp_bind]
    refine wp_mono (h.unshare hi) ?_ ?_
    · rintro p s1 (⟨rfl,rfl,hone⟩ | ⟨ph,hp,rfl⟩)
      · rw [modifyMm,wp_modify_bind]
        refine wp_setUserPte (by simpa using hok) ?_
        have hprot := h.protectPage hi he hv hpa (w := true) (fun _ => hone) (hasBits prot protExec) false true
        simpa [CowOf,place_put] using hprot
      · rw [modifyMm,wp_modify_bind]
        refine wp_setUserPte (by simpa using hok) ?_
        have hrep := h.replacePage hi he hv hpa hp true (hasBits prot protExec) false true
        simpa [AddressSpace.place,AddressSpace.setPages,AddressSpace.setPte,Slots.put] using hrep
    · rintro s1 rfl
      exact h
  · rw [modifyMm,wp_modify_bind]
    refine wp_setUserPte (by simpa using hok) ?_
    have hprot := h.protectPage hi he hv hpa (w := false) (by simp) (hasBits prot protExec) false false
    simpa [CowOf,place_put] using hprot

lemma mprotectPage (prot va : ℕ) : Preserves (CowOf A r held) (mprotectPage t prot va) := by
  refine .of_wp fun s hs => ?_
  rw [FuriOS.mprotectPage,wp_gets_bind]
  split
  · exact hs
  · rename_i i up hf
    exact hs.pageSetProt prot (Slots.find?_eq_some hf).1

lemma mprotectVmas (start stop prot : ℕ) :
    Preserves (CowOf A r held) (mprotectVmas t start stop prot) := by
  refine .of_wp fun s hs => ?_
  rw [FuriOS.mprotectVmas,wp_gets_bind]
  split
  · exact hs
  rename_i vs1 h1
  have hall := Vmas.All.splitAt (hs.sound t).unshared (fun _ _ h => h) (fun _ _ h => h) h1
  have hs1 := hs.setVmas (t := t) hall
  rw [modifyMm,wp_modify_bind]
  split
  · exact hs1
  rename_i vs2 h2
  rw [modifyMm,wp_modify]
  exact hs1.setVmas ((hall.splitAt (fun _ _ h => h) (fun _ _ h => h) h2).setProt fun _ h => h)

lemma callRange (addr len : ℕ) : Keeps id (callRange addr len) :=
  .require fun _ => .require fun _ => .require fun _ => .of_pure _

lemma growStack (bottom : ℕ) (ht : A t → Maps r t) (fuel : ℕ) :
    Preserves (CowOf A r held) (growStack t bottom fuel) := by
  induction fuel with
  | zero => exact .of_pure _
  | succ fuel ih =>
    unfold FuriOS.growStack
    have hset (b : ℕ) : Preserves (CowOf A r held)
        (modifyMm t fun m => {m with stackMappedBottom := b}) := by
      refine .of_modify fun s hs => ?_
      rw [CowOf,memView_setMm]
      exact hs.setFields rfl rfl rfl (hs.sound t).unshared
    exact .gets fun low => .when fun _ => .bind (anonFaultPage _ _ _ ht) fun _ =>
      .bind (hset _) fun _ => ih

lemma stackFault (faultVa userSp : ℕ) (ht : A t → Maps r t) :
    Preserves (CowOf A r held) (stackFault t faultVa userSp) := by
  unfold FuriOS.stackFault
  exact .gets fun _ => .require fun _ => .require fun _ =>
    .require fun _ => .require fun _ => .require fun _ =>
    growStack _ ht _

lemma translationFault (faultVa : ℕ) (w x : Bool) (userSp : ℕ) (ht : A t → Maps r t) :
    Preserves (CowOf A r held) (translationFault t faultVa w x userSp) := by
  unfold FuriOS.translationFault
  refine Preserves.of_ends fun s hs => Ends.gets_bind ?_
  refine .of_preserves (.require fun _ => .require fun _ => ?_) hs
  split
  · rename_i j v hf
    have hv : v.shared=false := vmaFind_unshared (hs.sound t).unshared hf
    exact .require fun _ => .require fun _ => .require fun _ =>
      .ite (fun _ => fileFaultPage hv _ _ _ ht) fun _ => anonFaultPage _ _ _ ht
  · exact .require fun _ => .ite (fun _ => anonFaultPage _ _ _ ht) fun _ =>
      .ite (fun _ => stackFault _ _ ht) fun _ => .of_fail

lemma mmapFile (mapLen prot flags : ℕ) (fd : ℤ) (offset : ℕ) :
    Keeps id (mmapFile t mapLen prot flags fd offset) := by
  unfold FuriOS.mmapFile
  refine .gets fun s => .ite (.require fun _ => .of_pure _) ?_
  split
  · exact .of_fail
  split_ifs
  · split
    · exact .of_fail
    split
    · exact .of_fail
    exact .require fun _ => .require fun _ => .require fun _ =>
      .require fun _ => .of_pure _
  · exact .of_fail

lemma mmapPlace (addr mapLen flags floor top : ℕ) (ht : A t → Drops r t) :
    Preserves (CowOf A r held) (mmapPlace t addr mapLen flags floor top) := by
  unfold FuriOS.mmapPlace
  refine .ite (fun _ => ?_) fun _ => .gets fun vs => ?_
  · exact .require fun _ => .require fun _ =>
      .bind (vmaUnmapRange _ _ _ ht) fun _ => .of_pure _
  · split
    · exact .of_fail
    · exact .of_pure _

section Calls

lemma of_current {α : Type} {P : TaskIx → Prop} (hcur : ∀ t, s.current=some t → P t)
    (h : CowOf A r held s) {f : TaskIx → TaskM α}
    (hf : ∀ t, P t → Preserves (CowOf A r held) (f t)) :
    Ends (CowOf A r held) (currentTask >>= f) s := by
  cases ht : s.current with
  | none =>
    refine .of_wp ?_
    rw [wp_bind,currentTask,wp_gets_bind,ht]
    exact h
  | some t =>
    refine .of_wp ?_
    rw [wp_bind,wp_currentTask ht]
    exact (hf t (hcur t ht)).wp h

lemma mprotect (h : CowOf A r held s) (addr len prot : ℕ) :
    Ends (CowOf A r held) (taskMprotect addr len prot) s :=
  of_current (fun _ _ => trivial) h fun _ _ => .require fun _ =>
    .bind (.of_keeps (P := CowOf A r held) (callRange addr len)) fun _ =>
    .gets fun _ => .require fun _ => .require fun _ =>
    .require fun _ => .bind (mprotectVmas _ _ _) fun _ =>
    .forEach (fun va => mprotectPage prot va) _

lemma pageFault (hcur : ∀ t, s.current=some t → A t → Maps r t) (h : CowOf A r held s)
    (faultVa : ℕ) (w tr x : Bool) (userSp : ℕ) :
    Ends (CowOf A r held) (taskHandlePageFault faultVa w tr x userSp) s :=
  of_current hcur h fun _ ht => .require fun _ =>
    .ite (fun _ => translationFault _ _ _ _ ht) fun _ => .require fun _ => permissionFault _

variable (hcur : ∀ t, s.current=some t → A t → Drops r t) (h : CowOf A r held s)
include hcur h

lemma munmap (addr len : ℕ) : Ends (CowOf A r held) (taskMunmap addr len) s :=
  of_current hcur h fun _ ht => .bind (.of_keeps (P := CowOf A r held) (callRange addr len))
    fun _ => vmaUnmapRange _ _ _ ht

lemma brk (newBreak : ℕ) : Ends (CowOf A r held) (taskBrk newBreak) s := by
  refine of_current hcur h fun t ht => .gets fun m => .ite (fun _ => .of_pure _) fun _ =>
    .require fun _ => .bind (.of_modify fun s hs => ?_) fun _ =>
    .bind (.forEach (fun va => (unmapUserPage va ht).ignore) _) fun _ => .of_pure _
  rw [CowOf,memView_setMm]
  exact hs.setFields rfl rfl rfl (hs.sound t).unshared

lemma mmap (addr len prot : ℕ) {flags : ℕ} (hflags : hasBits flags mapShared=false) (fd : ℤ)
    (offset : ℕ) : Ends (CowOf A r held) (taskMmap addr len prot flags fd offset) s := by
  refine of_current hcur h fun t ht => .require fun _ => .require fun _ =>
    .bind (.of_keeps (P := CowOf A r held) (mmapFile _ _ _ _ _)) fun file =>
    .gets fun m => .require fun _ => .bind (mmapPlace _ _ _ _ _ ht) fun start =>
    .gets fun vs => ?_
  split
  · exact .of_fail
  · refine .bind (.of_modify fun s hs => ?_) fun _ => .of_pure _
    rw [CowOf,memView_setMm]
    exact hs.setFields rfl rfl rfl (Vmas.All.put (hs.sound t).unshared hflags)

end Calls

end MemView.Cow
end FuriOS
