import FuriOS.FileContent
import FuriOS.Task.ExecCall
import FuriOS.Task.ExecSpec
import FuriOS.Task.IsolationSpec

/-! Loading a program builds an address space in which every page has a frame of its own. The old
program is unmapped first; its pages are freed one by one while their slots still refer to them,
so the references are counted as if the slots were empty already. -/
namespace FuriOS
open Prog Owners MemView Function

section Unmap
variable {t : TaskIx} {held : List ℕ} {s : System} {v : MemView} {pa : ℕ}

/-- The references are counted with the page slots of the task taken as empty. -/
def Emptied (t : TaskIx) (held : List ℕ) (v : MemView) : Prop :=
  (v.setMm t (v.mm t).forgetPages).Ok held

lemma ok_congr {u : MemView} (h : v.Ok held) (hph : u.phys=v.phys) (hk : u.kstack=v.kstack)
    (he : u.entries=v.entries) (hp : ∀ t, (u.mm t).pages=(v.mm t).pages)
    (ht : ∀ t, (u.mm t).table=(v.mm t).table) : u.Ok held := by
  have hown : u.own=v.own := by
    funext o
    cases o with
    | page t i => simp only [own,hp]
    | table t k => simp only [own,ht]
    | stack t k => simp only [own,hk]
    | cache j => simp only [own,he]
  refine ⟨hph ▸ h.phys,?_⟩
  rw [hown,hph]
  exact h.counted

lemma Emptied.setPte (h : Emptied t held v) (t' : TaskIx) (va : ℕ) (e : Pte) :
    Emptied t held (v.setMm t' ((v.mm t').setPte va e)) := by
  refine ok_congr h rfl rfl rfl ?_ ?_
  · intro u
    by_cases hu : u=t
    · subst hu
      simp [AddressSpace.forgetPages]
    · rw [mm_setMm_of_ne hu,mm_setMm_of_ne hu]
      by_cases hu' : u=t'
      · subst hu'
        simp [AddressSpace.setPte]
      · rw [mm_setMm_of_ne hu']
  · intro u
    by_cases hu : u=t
    · subst hu
      by_cases hu' : u=t'
      · subst hu'
        simp [AddressSpace.forgetPages,AddressSpace.table,AddressSpace.setPte]
      · simp [mm_setMm_of_ne hu',AddressSpace.forgetPages,AddressSpace.table]
    · rw [mm_setMm_of_ne hu,mm_setMm_of_ne hu]
      by_cases hu' : u=t'
      · subst hu'
        simp [AddressSpace.table,AddressSpace.setPte]
      · rw [mm_setMm_of_ne hu']

lemma memInv_emptied (t : TaskIx) : MemInv (Emptied t) where
  ok h := ⟨_,h⟩
  perm h hp := memInv_ok.perm h hp
  handed h hp := memInv_ok.handed h hp
  free h := memInv_ok.free h
  refCached h hp := memInv_ok.refCached h hp
  writeHeld h hp hw := memInv_ok.writeHeld h hp hw
  writeCached h hp hw := memInv_ok.writeCached h hp hw
  setEntry h hj hc := memInv_ok.setEntry h hj hc
  takeEntry h hp hj := memInv_ok.takeEntry h hp hj
  dropEntry h hj := memInv_ok.dropEntry h hj
  protect := preserves_writeprotect (fun _ t' va e h => ⟨memView_setMm ▸ h.1.setPte t' va e,h.2⟩) _ _

lemma Emptied.setMem (h : Emptied t held v) (b : Buf) :
    Emptied t held (v.setPhys {v.phys with mem := b}) :=
  h.congr_phys ⟨h.phys.nodup,h.phys.free,h.phys.used,h.phys.low,h.phys.curHigh,h.phys.high⟩ rfl

lemma Emptied.share {c : PageCacheEntry} {i : CacheIx}
    (h : Emptied t (c.pa::held) v) (hi : v.entries i=none) :
    Emptied t (c.pa::held) ((v.setEntries (v.entries.put i c)).setPhys (pmmRefPage c.pa v.phys)) := by
  have href := h.ref h.refs_ne
  refine ⟨href.phys,?_⟩
  have htake := href.counted.take (o := .cache i) (by simp [own,hi])
  rw [own_setPhys,← own_put] at htake
  exact htake

lemma Emptied.takePage (n off len : ℕ) (h : Emptied t (pa::held) s.memView) :
    wp (pagecacheTakePage n off pa len)
      (fun hit s' => Emptied t (pa::held) s'.memView ∧ s'.cache.entries hit.1=some hit.2)
      (fun s' => Emptied t (pa::held) s'.memView) s := by
  rw [pagecacheTakePage,wp_gets_bind]
  split
  · rename_i i hit hf
    have hi : s.cache.entries i=some hit := (Slots.find?_eq_some hf).1
    rw [wp_bind]
    refine wp_when (fun _ => ?_) fun _ => ⟨h,hi⟩
    rw [modifyPhys,wp_modify]
    exact ⟨h.setMem _,hi⟩
  · rw [wp_bind]
    refine wp_imp ((memInv_emptied t).slot h) fun i s1 hs1 => ?_
    obtain ⟨h1,hi,-,-⟩ := hs1
    rw [wp_bind]
    refine wp_touchTick fun tick s2 hs2 => ?_
    have hentries : s2.cache.entries=s1.cache.entries := congrArg MemView.entries hs2
    rw [wp_modify_bind,modifyPhys,wp_modify_bind,wp_pure]
    rw [← hs2] at h1
    exact ⟨h1.share (c := ⟨n,off,pa,tick,false⟩) ((congrFun hentries i).trans hi),Slots.put_self⟩

lemma Emptied.writeback (n off len : ℕ) :
    Preserves (fun s => Emptied t (pa::held) s.memView) (pagecacheWriteback n off pa len) := by
  refine .gets fun ino => .require fun _ => .ite (fun _ => .of_pure _)
    fun _ => .of_wp fun s hs => ?_
  rw [wp_bind]
  refine wp_imp (hs.takePage n off _) fun hit s1 hs1 => ?_
  rw [wp_bind]
  -- clearing the rest of the page changes no entry
  have hclear : wp (.when (ino.type=.file) <| modifyPhys fun m =>
      m.zeroTail hit.2.pa (pagecacheValidBytes ino off len))
      (fun _ s2 => Emptied t (pa::held) s2.memView ∧ s2.cache.entries hit.1=some hit.2)
      (fun s2 => Emptied t (pa::held) s2.memView) s1 := by
    refine wp_when (fun _ => ?_) fun _ => hs1
    rw [modifyPhys,wp_modify]
    exact ⟨hs1.1.setMem _,hs1.2⟩
  refine wp_imp hclear fun _ s2 hs2 => ?_
  rw [wp_bind]
  refine wp_touchTick fun tick s3 hs3 => ?_
  rw [wp_modify]
  rw [← hs3] at hs2
  have hi : s3.cache.entries hit.1=some hit.2 := (congrFun (congrArg MemView.entries hs3) _).trans hs2.2
  exact (memInv_emptied t).setEntry hs2.1 hi rfl

lemma Emptied.writebackAt (up : UserPage) (t' : TaskIx) :
    Preserves (fun s => Emptied t (up.pa::held) s.memView) (writebackAt t' up) := by
  refine .gets fun vs => ?_
  split
  · exact .of_pure _
  refine .gets fun s => ?_
  split
  · exact .of_pure _
  refine .when fun _ => .require fun _ => ?_
  split
  · exact .of_fail
  · exact .require fun _ => .when fun _ => Emptied.writeback _ _ _

lemma wp_unmapUser (h : s.memView.Ok held) : wp (taskUnmapUser t)
    (fun _ s' => s'.memView.Ok held ∧ s'.mm t=(s.mm t).forgetPages) (fun _ => True) s := by
  have hstart : Emptied t ((List.finRange maxUserPages).filterMap
      (fun i => s.memView.own (.page t i))++held) s.memView := h.forgetPages
  rw [taskUnmapUser,wp_bind]
  refine wp_imp (wp_forEach (fun rest s' => s'.mm t=s.mm t ∧
      Emptied t (rest.filterMap (fun i => s.memView.own (.page t i))++held) s'.memView) ?_ _ s
      ⟨rfl,hstart⟩) fun _ s' hs' => ?_
  · rintro i rest s' ⟨hmm,hs'⟩
    rw [wp_gets_bind,hmm]
    cases hi : (s.mm t).pages i with
    | none =>
      rw [List.filterMap_cons_none (by simp [own,hi])] at hs'
      exact ⟨hmm,hs'⟩
    | some up =>
      rw [List.filterMap_cons_some (b := up.pa) (by simp [own,hi])] at hs'
      dsimp only
      rw [wp_bind,wp_ignore,modifyPhys,wp_modify]
      exact ⟨(aside_mm t fun m => m=s.mm t).writebackAt t up s' hmm,
        (memInv_emptied t).free (Emptied.writebackAt up t s' hs')⟩
  · rw [modifyMm,wp_modify,memView_setMm,hs'.1]
    refine ⟨?_,System.mm_setMm_self⟩
    have := hs'.2
    rwa [Emptied,memView_mm,hs'.1] at this

end Unmap

/-- An address space as loading builds it: the references to the pages are counted, and every page
has a frame of its own and a descriptor that lets the program read it. -/
structure Loaded (t : TaskIx) (s : System) : Prop where
  ok : s.memView.Ok []
  mapped : ∀ i up, (s.mm t).pages i=some up →
    ∃ e, taskGetUserPte (s.mm t) up.va=some e ∧ e.userReadable=true ∧ e.pa=up.pa
  unique : ∀ i j up up', (s.mm t).pages i=some up → (s.mm t).pages j=some up' → up.va=up'.va → i=j
  apart : ∀ i j up up', (s.mm t).pages i=some up → (s.mm t).pages j=some up' → up.pa=up'.pa → i=j

namespace Loaded
variable {t : TaskIx} {s : System}
variable {m : AddressSpace} {i : Fin maxUserPages} {up : UserPage} {ph : Phys} {p : ℕ}

lemma of_forgetPages (hs : s.memView.Ok []) (hm : s.mm t=m.forgetPages) : Loaded t s := by
  have hnone (i : Fin maxUserPages) : (s.mm t).pages i=none := by
    rw [hm]
    rfl
  exact ⟨hs,by simp [hnone],by simp [hnone],by simp [hnone]⟩

section
variable (h : Loaded t s)
include h

lemma used (hi : (s.mm t).pages i=some up) : s.phys.pageRefs up.pa≠0 :=
  h.ok.refs_own (o := .page t i) (by simp [own,hi])

lemma aligned (hi : (s.mm t).pages i=some up) : up.pa%pageSize=0 := h.ok.aligned (h.used hi)

lemma congr {s' : System} (hok : s'.memView.Ok [])
    (hpages : ∀ i up', (s'.mm t).pages i=some up' →
      ∃ up, (s.mm t).pages i=some up ∧ up'.va=up.va ∧ up'.pa=up.pa)
    (hptes : ∀ i up, (s.mm t).pages i=some up → ∃ e, taskGetUserPte (s'.mm t) up.va=some e ∧
      e.userReadable=true ∧ e.pa=up.pa) : Loaded t s' := by
  refine ⟨hok,fun i up' hi => ?_,fun i j up1 up2 hi hj hva => ?_,fun i j up1 up2 hi hj hpa => ?_⟩
  · obtain ⟨up,hup,hv,hp⟩ := hpages i up' hi
    obtain ⟨e,he,hr,hpa⟩ := hptes i up hup
    exact ⟨e,hv ▸ he,hr,hpa.trans hp.symm⟩
  · obtain ⟨a,ha,hva1,-⟩ := hpages i up1 hi
    obtain ⟨b,hb,hva2,-⟩ := hpages j up2 hj
    exact h.unique i j a b ha hb (hva1.symm.trans (hva.trans hva2))
  · obtain ⟨a,ha,-,hpa1⟩ := hpages i up1 hi
    obtain ⟨b,hb,-,hpa2⟩ := hpages j up2 hj
    exact h.apart i j a b ha hb (hpa1.symm.trans (hpa.trans hpa2))

lemma setMem (b : Buf) : Loaded t (s.setPhys {s.phys with mem := b}) :=
  have hph := h.ok.phys
  h.congr (h.ok.congr_phys ⟨hph.nodup,hph.free,hph.used,hph.low,hph.curHigh,hph.high⟩ rfl)
    (fun _ up hi => ⟨up,hi,rfl,rfl⟩) h.mapped

lemma setPte (hi : (s.mm t).pages i=some up) (w x c : Bool) :
    Loaded t (s.setMm t ((s.mm t).setPte up.va (mmuMakePage up.pa (taskUserAttrs w x c)))) := by
  refine h.congr ⟨h.ok.phys,?_⟩ (fun j up' hj => ⟨up',?_,rfl,rfl⟩) fun j up' hj => ?_
  · rw [memView_setMm,← memView_mm,own_setPte]
    exact h.ok.counted
  · rw [System.mm_setMm_self] at hj
    exact hj
  · rw [System.mm_setMm_self]
    obtain ⟨e,he,hr,hpa⟩ := h.mapped j up' hj
    by_cases hva : up'.va=up.va
    · obtain rfl := h.unique j i up' up hj hi hva
      obtain rfl := Option.some.inj (hj.symm.trans hi)
      refine ⟨mmuMakePage up'.pa (taskUserAttrs w x c),?_,userReadable_make,
        mmuMakePage_pa (h.aligned hj)⟩
      rw [taskGetUserPte,Option.ite_none_right_eq_some] at he
      rw [taskGetUserPte,userPteOk_setPte,if_pos he.1,AddressSpace.ptes_setPte_self]
    · exact ⟨e,(taskGetUserPte_setPte_of_ne hva).trans he,hr,hpa⟩

lemma setIntent (hi : (s.mm t).pages i=some up) (b : Bool) : Loaded t (s.setMm t
      ((s.mm t).setPages ((s.mm t).pages.put i {up with writableIntent := b}))) := by
  refine h.congr ⟨h.ok.phys,?_⟩ (fun j up' hj => ?_) fun j up' hj => ?_
  · rw [memView_setMm,own_setMm_put (i := i) (o := some {up with writableIntent := b}),
      update_eq_self_iff.2 (by simp [own,hi])]
    · exact h.ok.counted
    all_goals rfl
  · rw [System.mm_setMm_self] at hj
    change (s.mm t).pages.put i {up with writableIntent := b} j=some up' at hj
    by_cases hji : j=i
    · subst hji
      rw [Slots.put_self] at hj
      obtain rfl := Option.some.inj hj
      exact ⟨up,hi,rfl,rfl⟩
    · rw [Slots.put_of_ne hji] at hj
      exact ⟨up',hj,rfl,rfl⟩
  · rw [System.mm_setMm_self,taskGetUserPte_setPages]
    exact h.mapped j up' hj

lemma place {va : ℕ} (hp : Handed s.phys ph p) (hi : (s.mm t).pages i=none)
    (hva : ∀ j up, (s.mm t).pages j=some up → up.va≠va) (hok : userPteOk (s.mm t) va=true)
    (w x c b : Bool) : Loaded t ((s.setPhys ph).setMm t
      ((s.mm t).place i va (mmuMakePage p (taskUserAttrs w x c)) (some ⟨va,p,b⟩))) := by
  have hheld := h.ok.handed hp
  have hne (j : Fin maxUserPages) (up : UserPage) (hj : (s.mm t).pages j=some up) : up.pa≠p :=
    fun he => h.used hj (he ▸ hp.fresh)
  have hpages (j : Fin maxUserPages) (up : UserPage) (hj : (((s.setPhys ph).setMm t ((s.mm t).place i va
      (mmuMakePage p (taskUserAttrs w x c)) (some ⟨va,p,b⟩))).mm t).pages j=some up) :
      j=i ∧ up=⟨va,p,b⟩ ∨ j≠i ∧ (s.mm t).pages j=some up := by
    rw [System.mm_setMm_self] at hj
    change update (s.mm t).pages i (some ⟨va,p,b⟩) j=some up at hj
    by_cases hji : j=i
    · subst hji
      rw [update_self] at hj
      exact .inl ⟨rfl,(Option.some.inj hj).symm⟩
    · rw [update_of_ne hji] at hj
      exact .inr ⟨hji,hj⟩
  refine ⟨⟨hp.ok,?_⟩,fun j up hj => ?_,fun j k up up' hj hk he => ?_,
    fun j k up up' hj hk he => ?_⟩
  · rw [memView_setMm]
    exact (congrArg (Counted · _ _) own_place).mpr (hheld.counted.take (by simp [own,hi]))
  · rw [System.mm_setMm_self]
    obtain ⟨-,rfl⟩ | ⟨-,hj⟩ := hpages j up hj
    · refine ⟨mmuMakePage p (taskUserAttrs w x c),?_,userReadable_make,
        mmuMakePage_pa (hheld.aligned hheld.refs_ne)⟩
      rw [AddressSpace.place,taskGetUserPte_setPages,taskGetUserPte,userPteOk_setPte,if_pos hok,
        AddressSpace.ptes_setPte_self]
    · obtain ⟨e,he,hr,hpa⟩ := h.mapped j up hj
      refine ⟨e,?_,hr,hpa⟩
      rw [AddressSpace.place,taskGetUserPte_setPages,taskGetUserPte_setPte_of_ne (hva j up hj),he]
  · obtain ⟨hji,hup⟩ | ⟨-,hj'⟩ := hpages j up hj
    · obtain ⟨hki,-⟩ | ⟨-,hk'⟩ := hpages k up' hk
      · exact hji.trans hki.symm
      · exact absurd (he.symm.trans (congrArg UserPage.va hup)) (hva k up' hk')
    · obtain ⟨-,hup'⟩ | ⟨-,hk'⟩ := hpages k up' hk
      · exact absurd (he.trans (congrArg UserPage.va hup')) (hva j up hj')
      · exact h.unique j k up up' hj' hk' he
  · obtain ⟨hji,hup⟩ | ⟨-,hj'⟩ := hpages j up hj
    · obtain ⟨hki,-⟩ | ⟨-,hk'⟩ := hpages k up' hk
      · exact hji.trans hki.symm
      · exact absurd (he.symm.trans (congrArg UserPage.pa hup)) (hne k up' hk')
    · obtain ⟨-,hup'⟩ | ⟨-,hk'⟩ := hpages k up' hk
      · exact absurd (he.trans (congrArg UserPage.pa hup')) (hne j up hj')
      · exact h.apart j k up up' hj' hk' he

lemma wp_allocAboveReserve {Q : ℕ → System → Prop}
    (hQ : ∀ p ph, Handed s.phys ph p → Q p (s.setPhys ph)) :
    wp allocAboveReserve Q (fun _ => True) s := by
  rw [allocAboveReserve,wp_gets_bind]
  refine wp_require_of trivial fun _ => ?_
  rw [onPhys,wp_zoom]
  exact wp_mono (wp_pmmAllocPage h.ok.phys) hQ fun _ _ => trivial

lemma mapUserPage (hp : Handed s.phys ph p) (va : ℕ)
    (w x b : Bool) : wp (onMm t (taskMapUserPage va p w x false b)) (fun _ s' => Loaded t s')
      (fun _ => True) (s.setPhys ph) := by
  rw [onMm,wp_zoom]
  refine wp_mono wp_taskMapUserPage ?_ fun _ _ => trivial
  rintro - m ⟨i,hi,hva,hok,rfl⟩
  exact h.place hp hi hva hok w x false b

lemma mapSegmentPage (w x : Bool) (va : ℕ) :
    wp (mapSegmentPage t w x va) (fun _ s' => Loaded t s') (fun _ => True) s := by
  rw [FuriOS.mapSegmentPage,wp_gets_bind]
  split
  · rename_i i up hf
    obtain ⟨hi,hva⟩ := Slots.find?_eq_some hf
    have hva : up.va=va := of_decide_eq_true hva
    split
    · trivial
    · rename_i hw hv
      rw [wp_bind]
      refine wp_setUserPte (hva ▸ userPteOk_of_validate hv) ?_
      rw [modifyMm,wp_modify,← hva]
      have hpte := h.setPte hi (hw.writable || w) (hw.executable || x) (hw.cow && !(hw.writable || w))
      exact hpte.setIntent (by rw [System.mm_setMm_self]; exact hi) _
  · rw [wp_bind]
    exact h.wp_allocAboveReserve fun p ph hp => h.mapUserPage hp va w x w

lemma storeUserByte (va : ℕ) (b : UInt8) :
    wp (storeUserByte t va b) (fun _ s' => Loaded t s') (fun _ => True) s := by
  rw [FuriOS.storeUserByte,wp_gets_bind]
  split
  · trivial
  · rw [modifyPhys,wp_modify]
    exact h.setMem _

lemma copyToUserVa (dst : ℕ) (src : Buf) (len : ℕ) :
    wp (taskCopyToUserVa t dst src len) (fun _ s' => Loaded t s') (fun _ => True) s :=
  wp_forEach (fun _ s => Loaded t s) (fun _ _ _ h => h.storeUserByte _ _) _ s h

lemma loadSegment (elf : Buf) (ph : Phdr) :
    wp (loadSegment t elf ph) (fun _ s' => Loaded t s') (fun _ => True) s := by
  refine wp_when (fun _ => ?_) fun _ => h
  rw [wp_bind]
  refine wp_imp (wp_forEach (fun _ s => Loaded t s) (fun _ _ _ h => h.mapSegmentPage _ _ _) _ s h)
    fun _ s1 h1 => ?_
  rw [wp_bind]
  exact wp_imp (h1.copyToUserVa _ _ _) fun _ s2 h2 => h2.copyToUserVa _ _ _

lemma loadEntry (entry : ℕ) :
    wp (loadEntry t entry) (fun _ s' => Loaded t s') (fun _ => True) s := by
  rw [FuriOS.loadEntry,wp_gets_bind]
  split
  · trivial
  rename_i i up hf
  obtain ⟨hi,hva⟩ := Slots.find?_eq_some hf
  have hva : up.va=alignDown entry := of_decide_eq_true hva
  split
  · trivial
  rename_i hw hv
  refine wp_when (fun _ => ?_) fun _ => h
  refine wp_setUserPte (hva ▸ userPteOk_of_validate hv) ?_
  rw [← hva]
  exact h.setPte hi hw.writable true hw.cow

lemma setMm (hp : m.pages=(s.mm t).pages) (ht : m.table=(s.mm t).table)
    (he : m.ptes=(s.mm t).ptes) : Loaded t (s.setMm t m) := by
  refine h.congr ⟨h.ok.phys,?_⟩ (fun i up hi => ⟨up,?_,rfl,rfl⟩) fun i up hi => ?_
  · rw [memView_setMm,own_setMm_same ht hp]
    exact h.ok.counted
  · rwa [System.mm_setMm_self,hp] at hi
  · rw [System.mm_setMm_self,taskGetUserPte_congr (congrFun ht 2) (congrFun ht 3) (congrFun he _)]
    exact h.mapped i up hi

lemma loadStack (maxLoadEnd : ℕ) :
    wp (loadStack t maxLoadEnd) (fun _ s' => Loaded t s') (fun _ => True) s := by
  rw [FuriOS.loadStack,wp_bind,taskMapUserAnonFaultPage,wp_bind]
  refine h.wp_allocAboveReserve fun p ph hp => ?_
  rw [wp_onFail]
  refine wp_mono (h.mapUserPage hp _ true false true) (fun _ s1 h1 => ?_) fun _ _ => trivial
  rw [modifyMm,wp_modify_bind,wp_gets_bind,wp_require]
  have h2 := h1.setMm (m := taskRecomputeHeapLimit {s1.mm t with
    stackBase := userStackTop-userStackPages*pageSize
    stackMappedBottom := userStackTop-pageSize
    heapBase := alignUp maxLoadEnd
    heapEnd := alignUp maxLoadEnd}) rfl rfl rfl
  split_ifs
  exact h2

end

lemma beforeStack {α : Type} {k : TaskM α} {Q : α → System → Prop} (h : s.memView.Ok []) (elf : Buf)
    (maxLoadEnd : ℕ) (hk : ∀ s', Loaded t s' → wp k Q (fun _ => True) s') : wp (do
      taskUnmapUser t
      Prog.forEach (FuriOS.loadSegment t elf) (programHeaders elf (Ehdr.read elf))
      FuriOS.loadEntry t (Ehdr.read elf).eEntry
      FuriOS.loadStack t maxLoadEnd
      k) Q (fun _ => True) s := by
  rw [wp_bind]
  refine wp_imp (wp_unmapUser h) fun _ s1 h1 => ?_
  rw [wp_bind]
  refine wp_imp (wp_forEach (fun _ s => Loaded t s) (fun _ _ _ h => h.loadSegment _ _) _ s1
    (of_forgetPages h1.1 h1.2)) fun _ s2 h2 => ?_
  rw [wp_bind]
  refine wp_imp (h2.loadEntry _) fun _ s3 h3 => ?_
  rw [wp_bind]
  exact wp_imp (h3.loadStack _) fun _ s4 h4 => hk s4 h4

end Loaded
end FuriOS
