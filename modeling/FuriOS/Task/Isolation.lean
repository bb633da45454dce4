import FuriOS.Task.Ownership

/-! Address spaces without shared mappings. A page that a descriptor lets the task write has no
other reference, so a store can reach no other address space; pages with several references are
read-only until they are copied. -/
namespace FuriOS
open Owners Function

variable {p : ℕ} {w x c : Bool}

/-- The descriptor lets the task read the page. -/
def Pte.userReadable (e : Pte) : Bool :=
  e.valid && (e.attrs.ap=.el0Rw || e.attrs.ap=.el0Ro)

@[simp] lemma taskPteIsUserWritable_make :
    taskPteIsUserWritable (mmuMakePage p (taskUserAttrs w x c))=w := by
  cases w <;> cases x <;> rfl

@[simp] lemma userReadable_make : (mmuMakePage p (taskUserAttrs w x c)).userReadable=true := by
  cases w <;> cases x <;> rfl

lemma mmuMakePage_pa {a : PteAttrs} (hp : p%pageSize=0) : (mmuMakePage p a).pa=p := by
  simp only [mmuMakePage,alignDown,pageSize] at *
  omega

namespace AddressSpace

/-- Descriptors and tracked pages agree, a page is writable only with the one reference to it,
no area is shared and no page belongs to the page cache. -/
structure Sound (m : AddressSpace) (refs : ℕ → ℕ) (cached : ℕ → Prop) : Prop where
  mapped : ∀ va e, taskGetUserPte m va=some e → e.valid=true →
    ∃ i up, m.pages i=some up ∧ up.va=va ∧ up.pa=e.pa
  alone : ∀ va e, taskGetUserPte m va=some e → e.valid=true →
    taskPteIsUserWritable e=true → refs e.pa=1
  legible : ∀ va e, taskGetUserPte m va=some e → e.valid=true → e.userReadable=true
  unique : ∀ i j up up', m.pages i=some up → m.pages j=some up' → up.va=up'.va → i=j
  unshared : ∀ i a, m.vmas i=some a → a.shared=false
  apart : ∀ i up, m.pages i=some up → ¬cached up.pa

/-- Set the descriptor of a page and its slot. -/
def place (m : AddressSpace) (i : Fin maxUserPages) (va : ℕ) (e : Pte) (o : Option UserPage) :
    AddressSpace := (m.setPte va e).setPages (update m.pages i o)

@[simp] lemma place_place {m : AddressSpace} {i : Fin maxUserPages} {va : ℕ} {e e' : Pte}
    {o o' : Option UserPage} : (m.place i va e o).place i va e' o'=m.place i va e' o' := by
  simp [place,setPte,setPages]

namespace Sound
variable {m m' : AddressSpace} {refs refs' : ℕ → ℕ} {cached cached' : ℕ → Prop}
variable {i : Fin maxUserPages} {up : UserPage} {va p : ℕ}

lemma unmapped_all (he : ∀ va e, taskGetUserPte m va=some e → e.valid=false)
    (hu : ∀ i j up up', m.pages i=some up → m.pages j=some up' → up.va=up'.va → i=j)
    (hv : ∀ i a, m.vmas i=some a → a.shared=false)
    (ha : ∀ i up, m.pages i=some up → ¬cached up.pa) : m.Sound refs cached := by
  refine ⟨fun va e h hv => ?_,fun va e h hv => ?_,fun va e h hv => ?_,hu,hv,ha⟩
  · simp [he va e h] at hv
  · simp [he va e h] at hv
  · simp [he va e h] at hv

lemma zero : AddressSpace.zero.Sound refs cached := by
  refine unmapped_all (fun va e h => ?_) (by simp [AddressSpace.zero]) (by simp [AddressSpace.zero])
    (by simp [AddressSpace.zero])
  simp only [taskGetUserPte,Option.ite_none_right_eq_some,Option.some.injEq] at h
  rw [← h.2]
  rfl

section
variable (h : m.Sound refs cached)
include h

lemma forgetPages : m.forgetPages.Sound refs cached := by
  refine unmapped_all (fun va e he => ?_) (by simp [AddressSpace.forgetPages]) h.unshared
    (by simp [AddressSpace.forgetPages])
  have hl3 : taskL3ForVa m.forgetPages va=taskL3ForVa m va := taskL3ForVa_congr rfl rfl
  simp only [taskGetUserPte,Option.ite_none_right_eq_some,userPteOk_iff,hl3,Option.some.injEq] at he
  obtain ⟨⟨-,-,-,hne⟩,rfl⟩ := he
  simp [AddressSpace.forgetPages,hne,Pte.zero]

lemma dropTables : m.dropTables.Sound refs cached := by
  refine unmapped_all (fun va e he => ?_) h.unique h.unshared h.apart
  have hl3 : taskL3ForVa m.dropTables va=0 := by
    simp [taskL3ForVa,AddressSpace.dropTables]
  simp only [taskGetUserPte,Option.ite_none_right_eq_some,userPteOk_iff,hl3] at he
  exact absurd rfl he.1.2.2.2

lemma congr (ha : m'.l3UserA=m.l3UserA) (hb : m'.l3UserB=m.l3UserB)
    (he : m'.ptes=m.ptes) (hp : m'.pages=m.pages)
    (hv : ∀ i a, m'.vmas i=some a → a.shared=false) : m'.Sound refs cached := by
  have hget (va : ℕ) : taskGetUserPte m' va=taskGetUserPte m va :=
    taskGetUserPte_congr ha hb (he ▸ rfl)
  exact ⟨fun va e h' => hp ▸ h.mapped va e (hget va ▸ h'),fun va e h' => h.alone va e (hget va ▸ h'),
    fun va e h' => h.legible va e (hget va ▸ h'),hp ▸ h.unique,hv,hp ▸ h.apart⟩

lemma refs_congr (hr : ∀ i up, m.pages i=some up → refs up.pa=1 → refs' up.pa=1) : m.Sound refs' cached where
  mapped := h.mapped
  alone va e he hv hw := by
    obtain ⟨i,up,hi,-,hpa⟩ := h.mapped va e he hv
    rw [← hpa]
    exact hr i up hi (hpa ▸ h.alone va e he hv hw)
  legible := h.legible
  unique := h.unique
  unshared := h.unshared
  apart := h.apart

lemma cached_congr (hc : ∀ i up, m.pages i=some up → ¬cached' up.pa) :
    m.Sound refs cached' := ⟨h.mapped,h.alone,h.legible,h.unique,h.unshared,hc⟩

lemma clearPte (va : ℕ) : (m.setPte va .zero).Sound refs cached := by
  have hget (va' : ℕ) (e : Pte) (he : taskGetUserPte (m.setPte va .zero) va'=some e)
      (hv : e.valid=true) : taskGetUserPte m va'=some e := by
    by_cases hne : va'=va
    · subst hne
      rw [← taskGetUserPte_setPte_self he] at hv
      cases hv
    · rwa [taskGetUserPte_setPte_of_ne hne] at he
  exact ⟨fun va' e he hv => h.mapped va' e (hget va' e he hv) hv,
    fun va' e he hv => h.alone va' e (hget va' e he hv) hv,
    fun va' e he hv => h.legible va' e (hget va' e he hv) hv,h.unique,h.unshared,h.apart⟩

lemma unmap (hi : m.pages i=some up) : (m.place i up.va .zero none).Sound refs cached := by
  have hsame (j : Fin maxUserPages) (up' : UserPage)
      (hj : update m.pages i none j=some up') : j≠i ∧ m.pages j=some up' :=
    Slots.clear_eq_some.1 hj
  have hclear := h.clearPte up.va
  refine ⟨fun va e he hv => ?_,fun va e he => ?_,fun va e he => ?_,fun j k up1 up2 hj hk => ?_,
    h.unshared,fun j up' hj => h.apart j up' (hsame j up' hj).2⟩
  · rw [place,taskGetUserPte_setPages] at he
    obtain ⟨j,up',hj,hva,hpa⟩ := hclear.mapped va e he hv
    refine ⟨j,up',?_,hva,hpa⟩
    -- the page of another slot has another address, so its descriptor is still there
    have hne : j≠i := by
      rintro rfl
      rw [pages_setPte,hi] at hj
      obtain rfl := Option.some.inj hj
      subst hva
      rw [← taskGetUserPte_setPte_self he] at hv
      cases hv
    exact Slots.clear_eq_some.2 ⟨hne,hj⟩
  · rw [place,taskGetUserPte_setPages] at he
    exact hclear.alone va e he
  · rw [place,taskGetUserPte_setPages] at he
    exact hclear.legible va e he
  · exact h.unique j k up1 up2 (hsame j up1 hj).2 (hsame k up2 hk).2

lemma map (hi : m.pages i=none)
    (hva : ∀ j up, m.pages j=some up → up.va≠va) (hp : p%pageSize=0) (hc : ¬cached p) (hw : w=true → refs p=1) (x c b : Bool) :
    (m.place i va (mmuMakePage p (taskUserAttrs w x c)) (some ⟨va,p,b⟩)).Sound refs cached := by
  have hput (j : Fin maxUserPages) (up : UserPage)
      (hj : update m.pages i (some ⟨va,p,b⟩) j=some up) :
      j=i ∧ UserPage.mk va p b=up ∨ j≠i ∧ m.pages j=some up := Slots.put_eq_some.1 hj
  have hget (va' : ℕ) (e : Pte)
      (he : taskGetUserPte (m.place i va (mmuMakePage p (taskUserAttrs w x c)) (some ⟨va,p,b⟩)) va'
        = some e) : va'=va ∧ mmuMakePage p (taskUserAttrs w x c)=e
          ∨ va'≠va ∧ taskGetUserPte m va'=some e := by
    rw [place,taskGetUserPte_setPages] at he
    by_cases hne : va'=va
    · subst hne
      exact .inl ⟨rfl,taskGetUserPte_setPte_self he⟩
    · rw [taskGetUserPte_setPte_of_ne hne] at he
      exact .inr ⟨hne,he⟩
  refine ⟨fun va' e he hv => ?_,fun va' e he hv hwr => ?_,fun va' e he hv => ?_,
    fun j k up1 up2 hj hk heq => ?_,h.unshared,fun j up hj => ?_⟩
  · obtain ⟨rfl,rfl⟩ | ⟨hne,he⟩ := hget va' e he
    · exact ⟨i,_,Slots.put_self,rfl,(mmuMakePage_pa hp).symm⟩
    · obtain ⟨j,up,hj,hup,hpa⟩ := h.mapped va' e he hv
      have hji : j≠i := by
        rintro rfl
        rw [hi] at hj
        cases hj
      exact ⟨j,up,Slots.put_eq_some.2 (.inr ⟨hji,hj⟩),hup,hpa⟩
  · obtain ⟨rfl,rfl⟩ | ⟨-,he⟩ := hget va' e he
    · rw [mmuMakePage_pa hp]
      exact hw (by simpa using hwr)
    · exact h.alone va' e he hv hwr
  · obtain ⟨rfl,rfl⟩ | ⟨-,he⟩ := hget va' e he
    · exact userReadable_make
    · exact h.legible va' e he hv
  · obtain ⟨rfl,rfl⟩ | ⟨-,hj'⟩ := hput j up1 hj
    · obtain ⟨rfl,rfl⟩ | ⟨-,hk⟩ := hput k up2 hk
      · rfl
      · exact absurd heq.symm (hva k up2 hk)
    · obtain ⟨rfl,rfl⟩ | ⟨-,hk⟩ := hput k up2 hk
      · exact absurd heq (hva j up1 hj')
      · exact h.unique j k up1 up2 hj' hk heq
  · obtain ⟨rfl,rfl⟩ | ⟨-,hj⟩ := hput j up hj
    · exact hc
    · exact h.apart j up hj

lemma unmapped (hi : m.pages i=some up) {j : Fin maxUserPages}
    {up' : UserPage} (hj : (m.place i up.va .zero none).pages j=some up') : up'.va≠up.va := by
  obtain ⟨hne,hj⟩ := Slots.clear_eq_some.1 hj
  exact fun heq => hne (h.unique j i up' up hj hi heq)

lemma remap (hi : m.pages i=some up) (hp : p%pageSize=0)
    (hc : ¬cached p) (hw : w=true → refs p=1) (x c b : Bool) :
    (m.place i up.va (mmuMakePage p (taskUserAttrs w x c)) (some ⟨up.va,p,b⟩)).Sound refs cached := by
  have hmap := (h.unmap hi).map (i := i) (by simp [place]) (fun j up' hj => h.unmapped hi hj) hp hc
    hw x c b
  rwa [place_place] at hmap

end

end Sound
end AddressSpace

namespace MemView

variable {v : MemView} {t : TaskIx} {va : ℕ} {e : Pte} {m : AddressSpace}

lemma own_place {i : Fin maxUserPages}
    {o : Option UserPage} : (v.setMm t ((v.mm t).place i va e o)).own
      = update v.own (.page t i) (o.map UserPage.pa) := by
  refine own_setMm_put ?_ ?_ <;> rfl

lemma own_setPte : (v.setMm t ((v.mm t).setPte va e)).own=v.own := by
  refine own_setMm_same ?_ ?_ <;> rfl

/-- The byte that task `t` reads at `va` without a fault. -/
def userRead (v : MemView) (t : TaskIx) (va : ℕ) : Option UInt8 :=
  (taskGetUserPte (v.mm t) (alignDown va)).bind fun e =>
    if e.userReadable then some (v.phys.mem (e.pa+va%pageSize)) else none

lemma userRead_setMm (ha : m.l3UserA=(v.mm t).l3UserA) (hb : m.l3UserB=(v.mm t).l3UserB)
    (he : m.ptes=(v.mm t).ptes) (va : ℕ) : (v.setMm t m).userRead t va=v.userRead t va := by
  simp only [userRead,mm_setMm_self,phys_setMm]
  rw [taskGetUserPte_congr ha hb (congrFun he _)]

lemma userRead_setMm_of_ne {t' : TaskIx} (h : t'≠t) (va : ℕ) :
    (v.setMm t m).userRead t' va=v.userRead t' va := by
  simp only [userRead,mm_setMm_of_ne h,phys_setMm]

lemma userRead_of_pte (he : taskGetUserPte (v.mm t) (alignDown va)=some e) (hr : e.userReadable=true) :
    v.userRead t va=some (v.phys.mem (e.pa+va%pageSize)) := by
  simp [userRead,he,hr]

lemma userRead_eq_none (h : ∀ e, taskGetUserPte (v.mm t) (alignDown va)=some e → e.valid=false) :
    v.userRead t va=none := by
  unfold userRead
  cases he : taskGetUserPte (v.mm t) (alignDown va) with
  | none => rfl
  | some e => simp [Pte.userReadable,h e he]

lemma userRead_setPte_of_ne {va' : ℕ} (h : alignDown va'≠va) :
    (v.setMm t ((v.mm t).setPte va e)).userRead t va'=v.userRead t va' := by
  simp only [userRead,mm_setMm_self,taskGetUserPte_setPte_of_ne h,phys_setMm]

lemma userRead_clearPte {va' : ℕ} (h : alignDown va'=va) :
    (v.setMm t ((v.mm t).setPte va .zero)).userRead t va'=none := by
  refine userRead_eq_none fun e he => ?_
  rw [mm_setMm_self,h] at he
  rw [← taskGetUserPte_setPte_self he]
  rfl

lemma userRead_place {va' : ℕ} {i : Fin maxUserPages} {o : Option UserPage} :
    (v.setMm t ((v.mm t).place i va e o)).userRead t va'=(v.setMm t ((v.mm t).setPte va e)).userRead t va' := by
  simp only [userRead,mm_setMm_self,AddressSpace.place,taskGetUserPte_setPages,phys_setMm]

def cached (v : MemView) (p : ℕ) : Prop := ∃ j c, v.entries j=some c ∧ c.pa=p

/-- What each task may read at each address. -/
abbrev Readings : Type := TaskIx → ℕ → Option UInt8 → Prop

/-- All references are counted, every address space is sound, and the tasks in `A` read what `r`
allows. -/
structure Cow (A : TaskIx → Prop) (r : Readings) (held : List ℕ) (v : MemView) : Prop where
  ok : v.Ok held
  sound : ∀ t, (v.mm t).Sound v.phys.pageRefs v.cached
  reads : ∀ t, A t → ∀ va, r t va (v.userRead t va)

abbrev CowOf (A : TaskIx → Prop) (r : Readings) (held : List ℕ) (s : System) : Prop :=
  Cow A r held s.memView

/-- Where task `t` reads nothing, it may come to read anything. -/
def Maps (r : Readings) (t : TaskIx) : Prop :=
  ∀ va b, r t va none → r t va b

/-- Task `t` may come to read nothing. -/
def Drops (r : Readings) (t : TaskIx) : Prop :=
  ∀ va b, r t va b → r t va none

namespace Cow
variable {A : TaskIx → Prop} {r : Readings} {held : List ℕ}
variable {v : MemView} {t : TaskIx} {m : AddressSpace} {p : ℕ} {ph : Phys}
variable {i : Fin maxUserPages} {up : UserPage} {j : CacheIx} {held' : List ℕ}

section
variable (h : Cow A r held v)
include h

lemma page_refs (hi : (v.mm t).pages i=some up) : v.phys.pageRefs up.pa≠0 :=
  h.ok.refs_own (o := .page t i) (by simp [own,hi])

lemma entry_refs {c : PageCacheEntry} (hj : v.entries j=some c) : v.phys.pageRefs c.pa≠0 :=
  h.ok.refs_own (o := .cache j) (by simp [own,hj])

lemma userRead_congr {u : MemView} (hm : u.mm t=v.mm t)
    (hmem : ∀ i up, (v.mm t).pages i=some up → u.phys.mem.Agree v.phys.mem up.pa pageSize)
    (va : ℕ) : u.userRead t va=v.userRead t va := by
  unfold userRead
  rw [hm]
  cases he : taskGetUserPte (v.mm t) (alignDown va) with
  | none => rfl
  | some e =>
    simp only [Option.bind_some]
    split_ifs with hr
    · have hv : e.valid=true := (Bool.and_eq_true_iff.1 hr).1
      obtain ⟨i,up,hi,-,hpa⟩ := (h.sound t).mapped _ e he hv
      have hlt : va%pageSize<pageSize := Nat.mod_lt _ (by decide)
      rw [← hpa,hmem i up hi (up.pa+va%pageSize) (by omega) (by omega)]
    · rfl

lemma setPhys (hok : (v.setPhys ph).Ok held')
    (hrefs : ∀ t i up, (v.mm t).pages i=some up → v.phys.pageRefs up.pa=1 → ph.pageRefs up.pa=1)
    (hmem : ∀ t i up, (v.mm t).pages i=some up → ph.mem.Agree v.phys.mem up.pa pageSize) :
    Cow A r held' (v.setPhys ph) where
  ok := hok
  sound t := (h.sound t).refs_congr (hrefs t)
  reads t ht va := by
    rw [h.userRead_congr (u := v.setPhys ph) rfl (hmem t) va]
    exact h.reads t ht va

lemma handed (hp : Handed v.phys ph p) : Cow A r (p::held) (v.setPhys ph) := by
  have hne (t : TaskIx) (i : Fin maxUserPages) (up : UserPage)
      (hi : (v.mm t).pages i=some up) : up.pa≠p := fun e => h.page_refs hi (e ▸ hp.fresh)
  refine h.setPhys (h.ok.handed hp) (fun t i up hi hr => ?_) fun t i up hi => ?_
  · rw [hp.refs,update_of_ne (hne t i up hi),hr]
  · exact hp.outside.agree (pageIndexed_iff.1 hp.indexed).1 (h.ok.aligned (h.page_refs hi))
      (hne t i up hi)

end

lemma free (h : Cow A r (p::held) v) : Cow A r held (v.setPhys (pmmFreePage p v.phys)) := by
  refine h.setPhys h.ok.free (fun t i up hi hr => ?_) fun t i up hi => ?_
  · -- a page that is held and owned has two references
    have hne : up.pa≠p := by
      intro e
      refine h.ok.counted.not_owned (e ▸ hr) (.page t i) ?_
      simp [own,hi,e]
    rw [refs_pmmFreePage h.ok.phys h.ok.refs_ne,update_of_ne hne,hr]
  · rw [mem_pmmFreePage]
    exact fun _ _ _ => rfl

lemma ref (h : Cow A r held v) (hp : v.phys.pageRefs p≠0)
    (hw : ∀ t va e, taskGetUserPte (v.mm t) va=some e → e.valid=true → e.pa=p →
      taskPteIsUserWritable e=false) : Cow A r (p::held) (v.setPhys (pmmRefPage p v.phys)) where
  ok := h.ok.ref hp
  sound t := by
    refine ⟨(h.sound t).mapped,fun va e he hv hwr => ?_,(h.sound t).legible,(h.sound t).unique,
      (h.sound t).unshared,(h.sound t).apart⟩
    have hne : e.pa≠p := fun hpa => by simp [hw t va e he hv hpa] at hwr
    rw [phys_setPhys,refs_pmmRefPage h.ok.phys hp,update_of_ne hne]
    exact (h.sound t).alone va e he hv hwr
  reads t ht va := by
    rw [h.userRead_congr (u := v.setPhys (pmmRefPage p v.phys)) rfl (fun i up hi => ?_) va]
    · exact h.reads t ht va
    · rw [phys_setPhys,mem_pmmRefPage]
      exact fun _ _ _ => rfl

lemma refCached (h : Cow A r held v) (hp : v.cached p) :
    Cow A r (p::held) (v.setPhys (pmmRefPage p v.phys)) := by
  obtain ⟨j,c,hj,rfl⟩ := hp
  refine h.ref (h.entry_refs hj) fun t va e he hv hpa => ?_
  obtain ⟨i,up,hi,-,hup⟩ := (h.sound t).mapped va e he hv
  exact absurd ⟨j,c,hj,hpa.symm.trans hup.symm⟩ ((h.sound t).apart i up hi)

lemma write (h : Cow A r held v) (hok : ph.Ok) (hrefs : ph.pageRefs=v.phys.pageRefs)
    (hout : v.phys.SameOutside ph p) (hp : p%pageSize=0)
    (hne : ∀ t i up, (v.mm t).pages i=some up → up.pa≠p) : Cow A r held (v.setPhys ph) := by
  refine h.setPhys (h.ok.congr_phys hok hrefs) (fun t i up hi hr => ?_) fun t i up hi => ?_
  · rw [hrefs,hr]
  · exact hout.agree hp (h.ok.aligned (h.page_refs hi)) (hne t i up hi)

lemma not_page (h : Cow A r (p::held) v) (hp : v.phys.pageRefs p=1) (hi : (v.mm t).pages i=some up) : up.pa≠p := by
  rintro rfl
  exact h.ok.counted.not_owned hp (.page t i) (by simp [own,hi])

lemma not_cached (h : Cow A r (p::held) v) (hp : v.phys.pageRefs p=1) : ¬v.cached p := by
  rintro ⟨j,c,hj,rfl⟩
  exact h.ok.counted.not_owned hp (.cache j) (by simp [own,hj])

section
variable (h : Cow A r held v)
include h

lemma cached_not_page (hp : v.cached p)
    (hi : (v.mm t).pages i=some up) : up.pa≠p := fun e => (h.sound t).apart i up hi (e ▸ hp)

lemma setMm_sound (hs : m.Sound v.phys.pageRefs v.cached) (t' : TaskIx) :
    ((v.setMm t m).mm t').Sound v.phys.pageRefs v.cached := by
  by_cases he : t'=t
  · subst he
    rwa [mm_setMm_self]
  · rw [mm_setMm_of_ne he]
    exact h.sound t'

lemma setMm (hok : (v.setMm t m).Ok held') (hs : m.Sound v.phys.pageRefs v.cached)
    (hr : A t → ∀ va, r t va ((v.setMm t m).userRead t va)) : Cow A r held' (v.setMm t m) where
  ok := hok
  sound := h.setMm_sound hs
  reads t' ht' va := by
    by_cases he : t'=t
    · subst he
      exact hr ht' va
    · rw [userRead_setMm_of_ne he]
      exact h.reads t' ht' va

lemma setMm_read (hok : (v.setMm t m).Ok held) (hs : m.Sound v.phys.pageRefs v.cached)
    (hr : ∀ va, (v.setMm t m).userRead t va=v.userRead t va) : Cow A r held (v.setMm t m) :=
  h.setMm hok hs fun ht va => hr va ▸ h.reads t ht va

lemma setFields (htab : m.table=(v.mm t).table)
    (he : m.ptes=(v.mm t).ptes) (hp : m.pages=(v.mm t).pages)
    (hv : ∀ i a, m.vmas i=some a → a.shared=false) : Cow A r held (v.setMm t m) := by
  have ha : m.l3UserA=(v.mm t).l3UserA := congrFun htab 2
  have hb : m.l3UserB=(v.mm t).l3UserB := congrFun htab 3
  refine h.setMm_read ⟨h.ok.phys,?_⟩ ((h.sound t).congr ha hb he hp hv) fun va => ?_
  · rw [own_setMm_same htab hp]
    exact h.ok.counted
  · exact userRead_setMm ha hb he va

lemma unread (hva : ∀ j up, (v.mm t).pages j=some up → up.va≠va) {va' : ℕ}
    (he : alignDown va'=va) : v.userRead t va'=none := by
  refine userRead_eq_none fun e hget => ?_
  by_contra hv
  obtain ⟨j,up,hj,hup,-⟩ := (h.sound t).mapped _ e hget (by simpa using hv)
  exact hva j up hj (hup.trans he)

end

lemma mapPage (h : Cow A r (p::held) v) (ht : A t → Maps r t)
    (hi : (v.mm t).pages i=none) (hva : ∀ j up, (v.mm t).pages j=some up → up.va≠va)
    (hc : ¬v.cached p) (hw : w=true → v.phys.pageRefs p=1) (x c b : Bool) :
    Cow A r held (v.setMm t
      ((v.mm t).place i va (mmuMakePage p (taskUserAttrs w x c)) (some ⟨va,p,b⟩))) := by
  refine h.setMm ⟨h.ok.phys,?_⟩
    ((h.sound t).map hi hva (h.ok.aligned h.ok.refs_ne) hc hw x c b) fun hA va' => ?_
  · rw [own_place]
    exact h.ok.counted.take (by simp [own,hi])
  · have hr := h.reads t hA va'
    by_cases he : alignDown va'=va
    · rw [h.unread hva he] at hr
      exact ht hA va' _ hr
    · rwa [userRead_place,userRead_setPte_of_ne he]

section
variable (h : Cow A r held v)
include h

/-- Clearing a descriptor that no tracked page belongs to changes nothing. -/
lemma clearPte (hva : ∀ j up, (v.mm t).pages j=some up → up.va≠va) :
    Cow A r held (v.setMm t ((v.mm t).setPte va .zero)) := by
  refine h.setMm_read ⟨h.ok.phys,?_⟩ ((h.sound t).clearPte va) fun va' => ?_
  · rw [own_setPte]
    exact h.ok.counted
  · by_cases he : alignDown va'=va
    · rw [userRead_clearPte he,h.unread hva he]
    · exact userRead_setPte_of_ne he

lemma unmapPage (ht : A t → Drops r t) (hi : (v.mm t).pages i=some up) :
    Cow A r (up.pa::held) (v.setMm t ((v.mm t).place i up.va .zero none)) := by
  refine h.setMm ⟨h.ok.phys,?_⟩ ((h.sound t).unmap hi) fun hA va' => ?_
  · rw [own_place]
    exact h.ok.counted.drop (by simp [own,hi])
  · rw [userRead_place]
    by_cases he : alignDown va'=up.va
    · rw [userRead_clearPte he]
      exact ht hA va' _ (h.reads t hA va')
    · rw [userRead_setPte_of_ne he]
      exact h.reads t hA va'

/-- A page that takes the place of a mapped one and holds the same bytes is read in the same way. -/
lemma userRead_remap {u : MemView} {e : Pte} {o : Option UserPage}
    (he : taskGetUserPte (v.mm t) up.va=some e) (hv : e.valid=true) (hpa : e.pa=up.pa) (hp : p%pageSize=0)
    (hu : u.mm t=(v.mm t).place i up.va (mmuMakePage p (taskUserAttrs w x c)) o)
    (hnew : ∀ k, k<pageSize → u.phys.mem (p+k)=v.phys.mem (up.pa+k))
    (hold : ∀ j up', (v.mm t).pages j=some up' → up'.va≠up.va → u.phys.mem.Agree v.phys.mem up'.pa pageSize)
    (va : ℕ) : u.userRead t va=v.userRead t va := by
  have hlt : va%pageSize<pageSize := Nat.mod_lt _ (by decide)
  by_cases hva : alignDown va=up.va
  · have hget : taskGetUserPte (u.mm t) (alignDown va)=some (mmuMakePage p (taskUserAttrs w x c)) := by
      have hok : userPteOk (v.mm t) up.va=true := by
        by_contra hno
        simp [taskGetUserPte,hno] at he
      rw [hu,hva]
      simp [AddressSpace.place,taskGetUserPte,hok]
    rw [userRead_of_pte hget userReadable_make,userRead_of_pte (hva ▸ he) ((h.sound t).legible _ e he hv),
      mmuMakePage_pa hp,hpa,hnew _ hlt]
  · have hget : taskGetUserPte (u.mm t) (alignDown va)=taskGetUserPte (v.mm t) (alignDown va) := by
      rw [hu,AddressSpace.place,taskGetUserPte_setPages,taskGetUserPte_setPte_of_ne hva]
    unfold userRead
    rw [hget]
    cases he' : taskGetUserPte (v.mm t) (alignDown va) with
    | none => rfl
    | some e' =>
      simp only [Option.bind_some]
      split_ifs with hr
      · obtain ⟨j,up',hj,hup,hpa'⟩ := (h.sound t).mapped _ e' he' (Bool.and_eq_true_iff.1 hr).1
        rw [← hpa',hold j up' hj (hup ▸ hva) (up'.pa+va%pageSize) (by omega) (by omega)]
      · rfl

lemma protectPage {e : Pte} (hi : (v.mm t).pages i=some up)
    (he : taskGetUserPte (v.mm t) up.va=some e) (hv : e.valid=true) (hpa : e.pa=up.pa)
    (hw : w=true → v.phys.pageRefs up.pa=1) (x c b : Bool) : Cow A r held (v.setMm t ((v.mm t).place i up.va
      (mmuMakePage up.pa (taskUserAttrs w x c)) (some ⟨up.va,up.pa,b⟩))) := by
  have hal := h.ok.aligned (h.page_refs hi)
  refine h.setMm_read ⟨h.ok.phys,?_⟩ ((h.sound t).remap hi hal ((h.sound t).apart i up hi) hw x c b)
    (h.userRead_remap he hv hpa hal mm_setMm_self (fun _ _ => rfl) fun _ _ _ _ _ _ _ => rfl)
  rw [own_place]
  have hsame : update v.own (.page t i) ((some (UserPage.mk up.va up.pa b)).map UserPage.pa)
      = v.own := by
    rw [update_eq_self_iff]
    simp [own,hi]
  rw [hsame]
  exact h.ok.counted

lemma setEntry {c c' : PageCacheEntry} (hj : v.entries j=some c) (hpa : c'.pa=c.pa) :
    Cow A r held (v.setEntries (v.entries.put j c')) := by
  have hcached (p : ℕ) (hp : (v.setEntries (v.entries.put j c')).cached p) : v.cached p := by
    obtain ⟨k,d,hk,rfl⟩ := hp
    obtain ⟨rfl,rfl⟩ | ⟨-,hk⟩ := Slots.put_eq_some.1 hk
    · exact ⟨k,c,hj,hpa.symm⟩
    · exact ⟨k,d,hk,rfl⟩
  refine ⟨⟨h.ok.phys,?_⟩,fun t => ?_,h.reads⟩
  · rw [own_put]
    have hsame : update v.own (.cache j) (some c'.pa)=v.own := by
      rw [update_eq_self_iff]
      simp [own,hj,hpa]
    rw [hsame]
    exact h.ok.counted
  · exact (h.sound t).cached_congr fun i up hi hp => (h.sound t).apart i up hi (hcached _ hp)

end

lemma takeEntry {c : PageCacheEntry} (h : Cow A r (c.pa::held) v) (hj : v.entries j=none)
    (hne : ∀ t i up, (v.mm t).pages i=some up → up.pa≠c.pa) :
    Cow A r held (v.setEntries (v.entries.put j c)) := by
  refine ⟨⟨h.ok.phys,?_⟩,fun t => (h.sound t).cached_congr fun i up hi hp => ?_,h.reads⟩
  · rw [own_put]
    exact h.ok.counted.take (by simp [own,hj])
  · obtain ⟨k,d,hk,hd⟩ := hp
    obtain ⟨rfl,rfl⟩ | ⟨-,hk⟩ := Slots.put_eq_some.1 hk
    · exact hne t i up hi hd.symm
    · exact (h.sound t).apart i up hi ⟨k,d,hk,hd⟩

lemma dropEntry (h : Cow A r held v) {c : PageCacheEntry}
    (hj : v.entries j=some c) : Cow A r (c.pa::held) (v.setEntries (v.entries.clear j)) := by
  refine ⟨⟨h.ok.phys,?_⟩,fun t => (h.sound t).cached_congr fun i up hi hp => ?_,h.reads⟩
  · rw [own_clear]
    exact h.ok.counted.drop (by simp [own,hj])
  · obtain ⟨k,d,hk,hd⟩ := hp
    exact (h.sound t).apart i up hi ⟨k,d,(Slots.clear_eq_some.1 hk).2,hd⟩

end Cow
end MemView
end FuriOS
