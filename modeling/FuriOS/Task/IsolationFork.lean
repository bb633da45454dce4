import FuriOS.Task.IsolationExit

/-! Fork of a task with private mappings: whether it succeeds or fails at some page, every other
task, the parent among them, reads what it read before, and a child that is returned reads what
the parent reads. -/
namespace FuriOS
open Prog Owners MemView

namespace MemView.Cow
variable {A : TaskIx → Prop} {r : Readings} {held : List ℕ}
variable {s : System} {t : TaskIx} {v : MemView} {ph : Phys}

lemma handedRun {base n : ℕ} (h : Cow A r held v) (hp : HandedRun v.phys ph base n) :
    Cow A r (pageRun base n++held) (v.setPhys ph) := by
  have hnot (t : TaskIx) (i : Fin maxUserPages) (up : UserPage)
      (hi : (v.mm t).pages i=some up) : up.pa∉pageRun base n :=
    fun hin => h.page_refs hi (hp.fresh _ hin)
  refine h.setPhys ⟨hp.ok,?_⟩ (fun t i up hi hr => ?_) fun t i up hi a hlo hhi => hp.outside a ?_
  · rw [own_setPhys]
    exact h.ok.counted.freshAll (nodup_pageRun base n) hp.fresh hp.refs
  · rw [hp.refs,if_neg (hnot t i up hi),hr]
  · have hout := hnot t i up hi
    have hal := h.ok.aligned (h.page_refs hi)
    have hbase := hp.aligned
    rw [mem_pageRun hbase] at hout
    simp only [pageSize] at *
    omega

lemma takeStack {base : ℕ} (h : Cow A r (pageRun base 16++held) v) (hk : v.kstack t=0)
    (hb : base≠0) : Cow A r held (v.setKstack t base) := by
  refine ⟨⟨h.ok.phys,?_⟩,h.sound,h.reads⟩
  refine Counted.takeAll (l := (List.finRange 16).map (Owner.stack t))
    ((List.nodup_finRange 16).map fun _ _ he => (Owner.stack.inj he).2) ?_
  have hlist : ((List.finRange 16).map (Owner.stack t)).filterMap (v.setKstack t base).own
      = pageRun base 16 := by
    rw [List.filterMap_map,show pageRun base 16
      = (List.finRange 16).map fun k : Fin 16 => base+k.val*pageSize from rfl,← List.filterMap_eq_map]
    refine List.filterMap_congr fun k _ => ?_
    simp [own,setKstack,nonNull,hb]
  have hown : (fun o => if o∈(List.finRange 16).map (Owner.stack t) then none
      else (v.setKstack t base).own o)=v.own := by
    funext o
    cases o with
    | stack t' k =>
      by_cases he : t'=t
      · subst he
        simp [own,nonNull,hk]
      · simp [own,setKstack,he,Ne.symm he]
    | _ => simp [own]
  rw [hlist,hown]
  exact h.ok.counted

lemma takeTables {m : AddressSpace} (ht : ¬A t)
    (h : Cow A r ([m.l1,m.l2Low,m.l3UserA,m.l3UserB].filterMap nonNull++held) v)
    (hz : (v.mm t).table=0) (hp : m.pages=(v.mm t).pages)
    (hs : m.Sound v.phys.pageRefs v.cached) : Cow A r held (v.setMm t m) := by
  refine h.setMm ⟨h.ok.phys,?_⟩ hs fun hA => absurd hA ht
  refine Counted.takeAll (l := (List.finRange 4).map (Owner.table t))
    ((List.nodup_finRange 4).map fun _ _ he => (Owner.table.inj he).2) ?_
  have hlist : ((List.finRange 4).map (Owner.table t)).filterMap (v.setMm t m).own
      = [m.l1,m.l2Low,m.l3UserA,m.l3UserB].filterMap nonNull := by
    rw [List.filterMap_map,show [m.l1,m.l2Low,m.l3UserA,m.l3UserB]
      = (List.finRange 4).map m.table from rfl,List.filterMap_map]
    refine List.filterMap_congr fun k _ => ?_
    simp [own]
  have hown : (fun o => if o∈(List.finRange 4).map (Owner.table t) then none
      else (v.setMm t m).own o)=v.own := by
    funext o
    cases o with
    | page t' i =>
      by_cases he : t'=t
      · subst he
        simp [own,hp]
      · simp [own,mm_setMm_of_ne he]
    | table t' k =>
      by_cases he : t'=t
      · subst he
        simp [own,nonNull,hz]
      · simp [own,mm_setMm_of_ne he,Ne.symm he]
    | _ => simp [own]
  rw [hlist,hown]
  exact h.ok.counted

lemma taskAlloc (hA : ∀ t, A t → (s.tasks t).state≠.unused) (h : CowOf A r held s) :
    wp taskAlloc (fun c s' => (s.tasks c).state=.unused ∧ Cow A r held s'.memView ∧
      s'.mm c=.zero ∧ ∀ t, t≠c → s'.tasks t=s.tasks t) (fun s' => Cow A r held s'.memView) s := by
  rw [FuriOS.taskAlloc,wp_gets_bind]
  refine wp_require_of h fun _ => ?_
  split
  · exact h
  rename_i c hc
  have hfree : (s.tasks c).state=.unused := by simpa using List.find?_some hc
  have hcA : ¬A c := fun ha => hA c ha hfree
  rw [modifyTask,wp_modify_bind,wp_bind,onPhys,wp_zoom,show taskKstackSize=16*pageSize from rfl]
  have hreset : Cow A r held (s.setTask c fun _ => Task.zero).memView := by
    rw [memView_setTask]
    exact h.reset hcA
  refine wp_mono (wp_pmmAlloc_run hreset.ok.phys 16) (fun base ph hp => ?_) fun ph hph => ?_
  · have hzero : (s.setTask c fun _ => Task.zero).tasks c=Task.zero := System.setTask_self
    have hk : ((s.setTask c fun _ => Task.zero).tasks c).kstackBase=0 := by rw [hzero]; rfl
    have hm : (s.setTask c fun _ => Task.zero).memView.mm c=.zero := by
      rw [memView_mm,System.mm,hzero]
      rfl
    have hstack := (hreset.handedRun hp).takeStack (t := c) hk hp.nonNull
    rw [modifyTask,wp_modify_bind,wp_modify_bind,wp_pure]
    refine ⟨hfree,?_,?_,fun t ht => ?_⟩
    · have hview : (((s.setTask c fun _ => Task.zero).setPhys ph).setTask c
          fun _ => Task.fresh s.nextPid base).memView
          = ((s.setTask c fun _ => Task.zero).memView.setPhys ph).setKstack c base := by
        rw [memView_setTask,memView_setPhys,show (Task.fresh s.nextPid base).mm=.zero from rfl,
          setMm_setPhys,← hm,setMm_self]
        rfl
      rw [← hview] at hstack
      exact hstack
    · simp [System.mm,System.setTask,Task.fresh,Task.zero]
    · simp [System.setTask,ht]
  · rw [hph]
    exact hreset

lemma allocTable {l : List ℕ} {Q : ℕ → System → Prop} {E : System → Prop}
    (h : Cow A r (l.filterMap nonNull++held) s.memView)
    (hQ : ∀ p ph, Cow A r ((p::l).filterMap nonNull++held) (s.setPhys ph).memView →
      Q p (s.setPhys ph)) : wp allocTable Q E s := by
  rw [FuriOS.allocTable,wp_bind,wp_attempt]
  refine wp_mono (memInv.alloc h) ?_ ?_
  · rintro p s' ⟨ph,hp,rfl⟩
    have hne : p≠0 := by
      rintro rfl
      simpa [pageIndexed] using hp.indexed
    refine hQ p ph ?_
    rw [List.filterMap_cons_some (b := p) (by simp [nonNull,hne])]
    exact h.handed hp
  · rintro s' rfl
    refine hQ 0 s'.phys ?_
    rw [List.filterMap_cons_none (by simp [nonNull])]
    exact h

lemma ptSetup (hc : ¬A t) (h : CowOf A r held s) (hz : s.mm t=.zero) :
    wp (taskPtSetup t) (fun _ s' => Cow A r held s'.memView ∧ (s'.mm t).pages=.empty ∧
      (∀ va, (s'.mm t).ptes va=.zero) ∧ ∀ t', t'≠t → s'.tasks t'=s.tasks t')
      (fun s' => Cow A r held s'.memView) s := by
  rw [taskPtSetup,wp_gets_bind]
  refine wp_require_of h fun _ => ?_
  rw [wp_bind]
  refine allocTable (l := []) h fun a ph1 h1 => ?_
  rw [wp_bind]
  refine allocTable h1 fun b ph2 h2 => ?_
  rw [wp_bind]
  refine allocTable h2 fun c ph3 h3 => ?_
  rw [wp_bind]
  refine allocTable h3 fun d ph4 h4 => ?_
  have hperm : ([d,c,b,a].filterMap nonNull++held).Perm ([a,b,c,d].filterMap nonNull++held) :=
    ((List.reverse_perm [a,b,c,d]).filterMap nonNull).append_right held
  have hsound (m : AddressSpace) (hp : m.pages=.empty) (he : ∀ va, m.ptes va=.zero)
      (hv : m.vmas=.empty) {refs : ℕ → ℕ} {cached : ℕ → Prop} : m.Sound refs cached := by
    refine .unmapped_all (fun va e h => ?_) (by simp [hp]) (by simp [hv]) (by simp [hp])
    simp only [taskGetUserPte,Option.ite_none_right_eq_some,Option.some.injEq] at h
    rw [← h.2,he]
    rfl
  have htab : AddressSpace.zero.table=0 := by
    funext k
    fin_cases k <;> rfl
  have hset := (memInv.perm h4 hperm).takeTables (t := t) hc
    (m := {AddressSpace.zero with l1 := a, l2Low := b, l3UserA := c, l3UserB := d})
    (by rw [memView_mm,System.mm_setPhys]; exact hz ▸ htab)
    (by rw [memView_mm,System.mm_setPhys]; exact hz ▸ rfl) (hsound _ rfl (fun _ => rfl) rfl)
  rw [modifyMm,wp_modify_bind]
  have hstate : {((((s.setPhys ph1).setPhys ph2).setPhys ph3).setPhys ph4).mm t with
      l1 := a, l2Low := b, l3UserA := c, l3UserB := d}
      = {AddressSpace.zero with l1 := a, l2Low := b, l3UserA := c, l3UserB := d} := by
    rw [← hz]
    rfl
  rw [hstate]
  refine wp_require_bind (fun _ => ?_) fun _ => by rwa [memView_setMm]
  rw [modifyMm,wp_modify]
  refine ⟨?_,by rw [System.mm_setMm_self,System.mm_setMm_self]; rfl,fun va => by rw [System.mm_setMm_self],
    fun t' ht' => (System.setTask_of_ne ht').trans (System.setTask_of_ne ht')⟩
  rw [memView_setMm,System.mm_setMm_self,memView_setMm]
  exact hset.setFields (by rw [mm_setMm_self]; rfl) (by rw [mm_setMm_self]; rfl)
    (by rw [mm_setMm_self]) (by simp [AddressSpace.zero])

lemma writeProtect {i : Fin maxUserPages} {up : UserPage} {e : Pte} (x c : Bool)
    (h : Cow A r held v) (hi : (v.mm t).pages i=some up)
    (he : taskGetUserPte (v.mm t) up.va=some e) (hv : e.valid=true) (hpa : e.pa=up.pa) :
    Cow A r held (v.setMm t ((v.mm t).setPte up.va (mmuMakePage up.pa (taskUserAttrs false x c)))) := by
  rw [← place_self hi]
  exact h.protectPage hi he hv hpa (by simp) x c up.writableIntent

end MemView.Cow

lemma wp_sharePage {s : System} {child : TaskIx} {pp : UserPage} {w x c : Bool} :
    wp (sharePage child pp w x c) (fun _ s' => ∃ k, (s.mm child).pages k=none ∧
        (∀ j up, (s.mm child).pages j=some up → up.va≠pp.va) ∧
        userPteOk (s.mm child) pp.va=true ∧
        s'=(s.setPhys (pmmRefPage pp.pa s.phys)).setMm child ((s.mm child).place k pp.va
          (mmuMakePage pp.pa (taskUserAttrs w x c)) (some pp)))
      (fun s' => ∃ m, (m=s.mm child ∨ (∀ j up, (s.mm child).pages j=some up → up.va≠pp.va) ∧
          m=(s.mm child).setPte pp.va .zero) ∧
        s'=(s.setMm child m).setPhys (pmmFreePage pp.pa (pmmRefPage pp.pa s.phys))) s := by
  rw [sharePage,modifyPhys,wp_modify_bind,wp_onFail,onMm,wp_zoom]
  refine wp_mono wp_taskMapUserPage ?_ ?_
  · rintro - m ⟨k,hk,hva,hok,rfl⟩
    exact ⟨k,hk,hva,hok,rfl⟩
  · intro m hm
    exact ⟨m,hm,rfl⟩

/-- The pages of the parent's slots that are not on the list are mapped in the child, and no
others. -/
structure Copied (parent child : AddressSpace) (todo : List (Fin maxUserPages)) : Prop where
  there : ∀ i up, i∉todo → parent.pages i=some up →
    ∃ e e', taskGetUserPte parent up.va=some e ∧ e.valid=true ∧
      taskGetUserPte child up.va=some e' ∧ e'.userReadable=true ∧ e'.pa=up.pa
  only : ∀ va e, taskGetUserPte child va=some e → e.valid=true →
    ∃ i up, i∉todo ∧ parent.pages i=some up ∧ up.va=va

namespace Copied
variable {m c : AddressSpace} {i : Fin maxUserPages} {todo : List (Fin maxUserPages)} {pp : UserPage}

lemma skip (h : Copied m c (i::todo)) (hi : m.pages i=none) : Copied m c todo where
  there j up hj hup := by
    refine h.there j up (fun hmem => ?_) hup
    rcases List.mem_cons.1 hmem with rfl | hmem
    · rw [hi] at hup
      cases hup
    · exact hj hmem
  only va e he hv := by
    obtain ⟨j,up,hj,hup,hva⟩ := h.only va e he hv
    exact ⟨j,up,fun hmem => hj (List.mem_cons_of_mem i hmem),hup,hva⟩

lemma map (h : Copied m c (i::todo)) (hnot : i∉todo)
    (hu : ∀ i j up up', m.pages i=some up → m.pages j=some up' → up.va=up'.va → i=j)
    (hi : m.pages i=some pp) {e : Pte} (he : taskGetUserPte m pp.va=some e) (hv : e.valid=true)
    (hok : userPteOk c pp.va=true) (hp : pp.pa%pageSize=0) (k : Fin maxUserPages)
    (w x b : Bool) :
    Copied m (c.place k pp.va (mmuMakePage pp.pa (taskUserAttrs w x b)) (some pp)) todo where
  there j up hj hup := by
    by_cases hji : j=i
    · subst hji
      rw [hi] at hup
      obtain rfl := Option.some.inj hup
      refine ⟨e,mmuMakePage pp.pa (taskUserAttrs w x b),he,hv,?_,userReadable_make,mmuMakePage_pa hp⟩
      simp [AddressSpace.place,taskGetUserPte,hok]
    · obtain ⟨e1,e2,h1,h2,h3,h4⟩ := h.there j up (by simp [hji,hj]) hup
      have hne : up.va≠pp.va := fun heq => hji (hu j i up pp hup hi heq)
      refine ⟨e1,e2,h1,h2,?_,h4⟩
      rw [AddressSpace.place,taskGetUserPte_setPages,taskGetUserPte_setPte_of_ne hne]
      exact h3
  only va e' he' hv' := by
    by_cases hva : va=pp.va
    · exact ⟨i,pp,hnot,hi,hva.symm⟩
    · rw [AddressSpace.place,taskGetUserPte_setPages,taskGetUserPte_setPte_of_ne hva] at he'
      obtain ⟨j,up,hj,hup,hup'⟩ := h.only va e' he' hv'
      exact ⟨j,up,fun hmem => hj (List.mem_cons_of_mem i hmem),hup,hup'⟩

lemma protect (h : Copied m c todo) {va : ℕ} {e : Pte} (he : e.valid=true)
    (hok : userPteOk m va=true) : Copied (m.setPte va e) c todo where
  there j up hj hup := by
    obtain ⟨e1,e2,h1,h2,h3⟩ := h.there j up hj hup
    by_cases hva : up.va=va
    · refine ⟨e,e2,?_,he,h3⟩
      rw [hva]
      simp [taskGetUserPte,hok]
    · exact ⟨e1,e2,by rwa [taskGetUserPte_setPte_of_ne hva],h2,h3⟩
  only := h.only

end Copied

namespace MemView.Cow
variable {A : TaskIx → Prop} {r : Readings} {held : List ℕ}
variable {s : System} {v : MemView} {parent child : TaskIx} {i : Fin maxUserPages} {pp : UserPage}

lemma share {k : Fin maxUserPages} (x c : Bool) (hc : ¬A child) (h : Cow A r held v)
    (hi : (v.mm parent).pages i=some pp)
    (hro : ∀ e, taskGetUserPte (v.mm parent) pp.va=some e → taskPteIsUserWritable e=false)
    (hk : (v.mm child).pages k=none)
    (hva : ∀ j up, (v.mm child).pages j=some up → up.va≠pp.va) :
    Cow A r held ((v.setPhys (pmmRefPage pp.pa v.phys)).setMm child ((v.mm child).place k pp.va
      (mmuMakePage pp.pa (taskUserAttrs false x c)) (some pp))) := by
  have hrefs := h.page_refs hi
  refine (h.ref hrefs fun t va e he hv hpa => ?_).mapPage (fun hA => absurd hA hc) hk hva ((h.sound parent).apart i pp hi)
    (by simp) x c pp.writableIntent
  by_contra hw
  -- a page that some task may write has one owner, so it is the page of the parent's slot
  obtain ⟨j,up,hj,hup,hupa⟩ := (h.sound t).mapped va e he hv
  have hone := (h.sound t).alone va e he hv (by simpa using hw)
  have howner := h.ok.counted.unique (a := .page t j) (b := .page parent i) (p := pp.pa) (hpa ▸ hone)
    (by simp [own,hj,hupa,hpa]) (by simp [own,hi])
  obtain ⟨rfl,rfl⟩ := Owner.page.inj howner
  rw [hi] at hj
  obtain rfl := Option.some.inj hj
  subst hup
  exact hw (hro e he)

lemma unref {p : ℕ} (h : Cow A r held v) (hp : v.phys.pageRefs p≠0) :
    Cow A r held (v.setPhys (pmmFreePage p (pmmRefPage p v.phys))) := by
  have hok := h.ok.phys.refPage hp
  have hne : (pmmRefPage p v.phys).pageRefs p≠0 := by
    rw [refs_pmmRefPage h.ok.phys hp,Function.update_self]
    omega
  have hsame : (pmmFreePage p (pmmRefPage p v.phys)).pageRefs=v.phys.pageRefs := by
    rw [refs_pmmFreePage hok hne,refs_pmmRefPage h.ok.phys hp]
    simp
  refine h.setPhys (h.ok.congr_phys (hok.freePage hne) hsame) (fun t i up hi hr => ?_) fun t i up hi => ?_
  · rw [hsame,hr]
  · rw [mem_pmmFreePage,mem_pmmRefPage]
    exact fun _ _ _ => rfl

lemma forkPage {todo : List (Fin maxUserPages)} (hne : parent≠child) (hc : ¬A child) (hnot : i∉todo)
    (h : CowOf A r held s) (hcop : Copied (s.mm parent) (s.mm child) (i::todo)) :
    wp (forkPage parent child i)
      (fun _ s' => Cow A r held s'.memView ∧ Copied (s'.mm parent) (s'.mm child) todo)
      (fun s' => Cow A r held s'.memView) s := by
  rw [FuriOS.forkPage,wp_gets_bind]
  split
  · rename_i hi
    exact ⟨h,hcop.skip hi⟩
  rename_i pp hi
  split
  · exact h
  rename_i hw hval
  obtain ⟨e,he,hv,hpa,hwr,hro⟩ := taskPageValidateHw_eq_some hval
  refine wp_require_bind (fun _ => wp_require_bind (fun _ => wp_require_bind (fun _ => ?_)
    fun _ => h) fun _ => h) fun _ => h
  rw [if_neg (by rw [inShared_unshared (m := s.mm parent) (h.sound parent).unshared]; simp),wp_bind]
  have hal := h.ok.aligned (h.page_refs hi)
  have hu := (h.sound parent).unique
  refine wp_mono wp_sharePage ?_ ?_
  · rintro - s1 ⟨k,hk,hva,hok,rfl⟩
    have hcop' := hcop.map hnot hu hi he hv hok hal k false hw.executable pp.writableIntent
    refine wp_when (fun hcow => ?_) fun hcow => ?_
    · have hokp := userPteOk_of_validate hval
      refine wp_setUserPte (by rw [System.mm_setMm_of_ne hne]; exact hokp) ?_
      have hprot := h.writeProtect hw.executable true hi he hv hpa
      have hi' : ((s.memView.setMm parent ((s.mm parent).setPte pp.va
          (mmuMakePage pp.pa (taskUserAttrs false hw.executable true)))).mm parent).pages i=some pp := by
        simpa using hi
      have hshare := hprot.share (k := k) hw.executable pp.writableIntent hc hi' (fun e' he' => by
          rw [mm_setMm_self] at he'
          rw [← taskGetUserPte_setPte_self he',taskPteIsUserWritable_make])
        (by rw [mm_setMm_of_ne hne.symm]; exact hk) (by rw [mm_setMm_of_ne hne.symm]; exact hva)
      rw [mm_setMm_of_ne hne.symm] at hshare
      refine ⟨?_,?_⟩
      · rw [memView_setMm,memView_setMm,System.mm_setMm_of_ne hne,setMm_comm hne.symm]
        exact hshare
      · rw [System.mm_setMm_self,System.mm_setMm_of_ne hne.symm,System.mm_setMm_of_ne hne,
          System.mm_setMm_self]
        exact hcop'.protect rfl hokp
    · have hro : taskPteIsUserWritable e=false := by
        refine hro ?_
        cases hb : pp.writableIntent with
        | false => exact .inl rfl
        | true => exact .inr (by simpa [hb] using hcow)
      refine ⟨?_,?_⟩
      · rw [memView_setMm]
        refine h.share hw.executable pp.writableIntent hc hi (fun e' he' => ?_) hk hva
        rw [memView_mm,he] at he'
        rwa [← Option.some.inj he']
      · rw [System.mm_setMm_self,System.mm_setMm_of_ne hne]
        exact hcop'
  · rintro s1 ⟨m,hm,rfl⟩
    have hset : Cow A r held (s.setMm child m).memView := by
      rw [memView_setMm]
      rcases hm with rfl | ⟨hva,rfl⟩
      · rwa [← memView_mm,setMm_self]
      · exact h.clearPte hva
    exact hset.unref (h.page_refs hi)

lemma forkPages (hne : parent≠child) (hc : ¬A child) (h : CowOf A r held s)
    (hz : s.mm child=.zero) : wp (forkPages parent child)
      (fun _ s' => Cow A r held s'.memView ∧ Copied (s'.mm parent) (s'.mm child) [])
      (fun s' => Cow A r held s'.memView) s := by
  rw [FuriOS.forkPages,wp_bind]
  refine wp_imp (ptSetup hc h hz) ?_
  rintro - s1 ⟨h1,hpages,hptes,-⟩
  have hstart : Copied (s1.mm parent) (s1.mm child) (List.finRange maxUserPages) := by
    refine ⟨fun i _ hi => absurd (List.mem_finRange i) hi,fun va e he hv => ?_⟩
    simp only [taskGetUserPte,Option.ite_none_right_eq_some,Option.some.injEq] at he
    rw [← he.2,hptes] at hv
    cases hv
  refine wp_imp (wp_forEach (fun todo s' => Cow A r held s'.memView ∧
    Copied (s'.mm parent) (s'.mm child) todo ∧ todo.Nodup) ?_ _ s1
    ⟨h1,hstart,List.nodup_finRange _⟩) fun _ s' hs' => ⟨hs'.1,hs'.2.1⟩
  rintro i todo s' ⟨h',hcop,hnod⟩
  obtain ⟨hi,hnod⟩ := List.nodup_cons.1 hnod
  exact wp_imp (forkPage hne hc hi h' hcop) fun _ s'' hs'' => ⟨hs''.1,hs''.2,hnod⟩

lemma reads_eq (h : Cow A r held v) (hcop : Copied (v.mm parent) (v.mm child) []) (va : ℕ) :
    v.userRead child va=v.userRead parent va := by
  by_cases hp : ∃ e, taskGetUserPte (v.mm parent) (alignDown va)=some e ∧ e.valid=true
  · obtain ⟨e,he,hv⟩ := hp
    obtain ⟨i,up,hi,hup,hpa⟩ := (h.sound parent).mapped _ e he hv
    obtain ⟨-,e',-,-,he',hr,hpa'⟩ := hcop.there i up List.not_mem_nil hi
    rw [userRead_of_pte he ((h.sound parent).legible _ e he hv),
      userRead_of_pte (hup ▸ he') hr,hpa',hpa]
  · have hparent (e : Pte) (he : taskGetUserPte (v.mm parent) (alignDown va)=some e) :
        e.valid=false := by simpa using fun hv => hp ⟨e,he,hv⟩
    have hchild (e : Pte) (he : taskGetUserPte (v.mm child) (alignDown va)=some e) :
        e.valid=false := by
      by_contra hv
      obtain ⟨i,up,-,hi,hup⟩ := hcop.only _ e he (by simpa using hv)
      obtain ⟨e',-,he',hv',-⟩ := hcop.there i up List.not_mem_nil hi
      exact hp ⟨e',hup ▸ he',hv'⟩
    rw [userRead_eq_none hparent,userRead_eq_none hchild]

lemma memView_refFds (fds : Slots maxFds Fd) (s : System) : (refFds fds s).memView=s.memView := by
  rw [refFds_eq]
  rfl

/-- After a fork, whatever its outcome, the tasks there were read what they read before; a child
that is returned reads what the parent reads. -/
lemma fork (tf : TrapFrame) (hcur : s.current=some parent) (hlive : (s.tasks parent).state≠.unused)
    (hA : ∀ t, A t → (s.tasks t).state≠.unused) (h : CowOf A r held s) :
    wp (taskFork tf) (fun child s' => Cow A r held s'.memView ∧ (s.tasks child).state=.unused ∧
        ∀ va, s'.memView.userRead child va=s'.memView.userRead parent va)
      (fun s' => Cow A r held s'.memView) s := by
  rw [taskFork,wp_bind,wp_currentTask hcur,wp_gets_bind]
  refine wp_require_of h fun _ => ?_
  rw [wp_bind]
  refine wp_imp (taskAlloc hA h) ?_
  rintro child s1 ⟨hfree,h1,hz,-⟩
  have hne : parent≠child := fun e => hlive (e ▸ hfree)
  have hc : ¬A child := fun ha => hA child ha hfree
  rw [wp_gets_bind,modifyTask,wp_modify_bind,wp_bind,wp_attempt]
  have h2 : Cow A r held (s1.setTask child fun k => {k with
      ppid := (s1.tasks parent).pid, pgid := (s1.tasks parent).pgid}).memView := by
    rwa [memView_setTask_of_eq rfl rfl]
  refine wp_mono (forkPages hne hc h2 ?_) (fun _ s3 h3 => ?_) fun s3 h3 => ?_
  · rw [System.mm,System.setTask_self]
    exact hz
  · obtain ⟨h3,hcop⟩ := h3
    rw [wp_gets_bind,modifyTask,wp_modify_bind,wp_modify_bind,wp_pure,memView_refFds,
      memView_setTask_mm rfl]
    refine ⟨h3.setFields rfl rfl rfl (h3.sound parent).unshared,hfree,fun va => ?_⟩
    rw [userRead_setMm_of_ne hne]
    refine Eq.trans (userRead_setMm ?_ ?_ ?_ va) (h3.reads_eq hcop va) <;> rfl
  · rw [wp_bind]
    exact wp_mono ((reapSlot hc).wp h3) (fun _ _ h => h) fun _ h => h

end MemView.Cow
end FuriOS
