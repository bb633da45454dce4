import FuriOS.Lib.Owners
import FuriOS.PmmSpec
import FuriOS.Task.Fork

/-! The references to physical pages: tracked user pages, translation tables, kernel stacks and
page cache entries. In a consistent state the count of every page covers its owners and the
references that a running function holds. -/
namespace FuriOS
open Owners Function

/-- The part of the system that refers to physical pages, with the pages. -/
structure MemView where
  phys : Phys
  entries : Slots maxFileCachePages PageCacheEntry
  mm : TaskIx → AddressSpace
  kstack : TaskIx → ℕ

def System.memView (s : System) : MemView :=
  ⟨s.phys,s.cache.entries,s.mm,fun t => (s.tasks t).kstackBase⟩

/-- The places that own a reference to a page. -/
inductive Owner
  | page (t : TaskIx) (i : Fin maxUserPages)
  | table (t : TaskIx) (k : Fin 4)
  | stack (t : TaskIx) (k : Fin 16)
  | cache (i : CacheIx)
  deriving DecidableEq, Fintype

def nonNull (p : ℕ) : Option ℕ := if p=0 then none else some p

def AddressSpace.table (m : AddressSpace) : Fin 4 → ℕ := ![m.l1,m.l2Low,m.l3UserA,m.l3UserB]

namespace MemView

def setPhys (v : MemView) (m : Phys) : MemView := {v with phys := m}

def setEntries (v : MemView) (es : Slots maxFileCachePages PageCacheEntry) : MemView :=
  {v with entries := es}

def setMm (v : MemView) (t : TaskIx) (m : AddressSpace) : MemView :=
  {v with mm := update v.mm t m}

def setKstack (v : MemView) (t : TaskIx) (base : ℕ) : MemView :=
  {v with kstack := update v.kstack t base}

def own (v : MemView) : Owner → Option ℕ
  | .page t i => ((v.mm t).pages i).map UserPage.pa
  | .table t k => nonNull ((v.mm t).table k)
  | .stack t k => (nonNull (v.kstack t)).map (· + k*pageSize)
  | .cache i => (v.entries i).map PageCacheEntry.pa

/-- The allocator is consistent and every reference is counted. -/
structure Ok (v : MemView) (held : List ℕ) : Prop where
  phys : v.phys.Ok
  counted : Counted v.own held v.phys.pageRefs

end MemView

section View
variable {s : System} {t : TaskIx} {m : AddressSpace} {f : Task → Task}

@[simp] lemma memView_phys : s.memView.phys=s.phys := rfl

@[simp] lemma memView_mm : s.memView.mm t=s.mm t := rfl

@[simp] lemma memView_entries : s.memView.entries=s.cache.entries := rfl

@[simp] lemma memView_setPhys {ph : Phys} : (s.setPhys ph).memView=s.memView.setPhys ph := rfl

@[simp] lemma memView_setCache {c : PageCache} :
    (s.setCache c).memView=s.memView.setEntries c.entries := rfl

lemma memView_setTask :
    (s.setTask t f).memView=(s.memView.setMm t (f (s.tasks t)).mm).setKstack t (f (s.tasks t)).kstackBase := by
  have hmm : (s.setTask t f).mm=update s.mm t (f (s.tasks t)).mm := by
    funext t'
    by_cases h : t'=t
    · subst h
      simp [System.mm]
    · simp [System.mm,System.setTask_of_ne h,h]
  have hk : (fun t' => ((s.setTask t f).tasks t').kstackBase)
      = update (fun t' => (s.tasks t').kstackBase) t (f (s.tasks t)).kstackBase := by
    funext t'
    by_cases h : t'=t
    · subst h
      simp
    · simp [System.setTask_of_ne h,h]
  simp only [System.memView,MemView.setMm,MemView.setKstack,hmm,hk]
  rfl

lemma memView_setTask_mm (hk : (f (s.tasks t)).kstackBase=(s.tasks t).kstackBase) :
    (s.setTask t f).memView=s.memView.setMm t (f (s.tasks t)).mm := by
  rw [memView_setTask,hk]
  simp only [MemView.setKstack,MemView.setMm,System.memView]
  rw [update_eq_self]

@[simp] lemma memView_setMm : (s.setMm t m).memView=s.memView.setMm t m := memView_setTask_mm rfl

lemma memView_setTask_of_eq (hm : (f (s.tasks t)).mm=(s.tasks t).mm)
    (hk : (f (s.tasks t)).kstackBase=(s.tasks t).kstackBase) : (s.setTask t f).memView=s.memView := by
  rw [memView_setTask_mm hk,hm,show (s.tasks t).mm=s.mm t from rfl]
  simp only [MemView.setMm,System.memView]
  rw [update_eq_self]

end View

namespace MemView
variable {v : MemView} {t t' : TaskIx} {m : AddressSpace} {held : List ℕ} {p : ℕ}
variable {ph : Phys} {m' : AddressSpace} {es : Slots maxFileCachePages PageCacheEntry} {base : ℕ}
variable {i : CacheIx}

@[simp] lemma phys_setPhys : (v.setPhys ph).phys=ph := rfl

@[simp] lemma mm_setPhys : (v.setPhys ph).mm=v.mm := rfl

@[simp] lemma entries_setPhys : (v.setPhys ph).entries=v.entries := rfl

@[simp] lemma own_setPhys : (v.setPhys ph).own=v.own := by
  funext o
  cases o <;> rfl

@[simp] lemma phys_setMm : (v.setMm t m).phys=v.phys := rfl

@[simp] lemma entries_setMm : (v.setMm t m).entries=v.entries := rfl

@[simp] lemma kstack_setMm : (v.setMm t m).kstack=v.kstack := rfl

@[simp] lemma mm_setMm_self : (v.setMm t m).mm t=m := update_self ..

lemma mm_setMm_of_ne (h : t'≠t) : (v.setMm t m).mm t'=v.mm t' := update_of_ne h ..

@[simp] lemma setMm_setMm : (v.setMm t m).setMm t m'=v.setMm t m' := by
  simp [setMm]

lemma setMm_comm (h : t≠t') : (v.setMm t m).setMm t' m'=(v.setMm t' m').setMm t m := by
  simp only [setMm]
  rw [update_comm h]

@[simp] lemma setMm_setPhys : (v.setPhys ph).setMm t m=(v.setMm t m).setPhys ph := rfl

@[simp] lemma setPhys_setPhys {ph' : Phys} : (v.setPhys ph).setPhys ph'=v.setPhys ph' := rfl

@[simp] lemma phys_setEntries : (v.setEntries es).phys=v.phys := rfl

@[simp] lemma mm_setEntries : (v.setEntries es).mm=v.mm := rfl

@[simp] lemma phys_setKstack : (v.setKstack t base).phys=v.phys := rfl

@[simp] lemma mm_setKstack : (v.setKstack t base).mm=v.mm := rfl

@[simp] lemma entries_setKstack : (v.setKstack t base).entries=v.entries := rfl

lemma setMm_self : v.setMm t (v.mm t)=v := by simp [setMm]

section
variable (ht : m.table=(v.mm t).table)
include ht

lemma own_setMm : (v.setMm t m).own=fun o => match o with
      | .page t' i => if t'=t then (m.pages i).map UserPage.pa else v.own (.page t' i)
      | o => v.own o := by
  funext o
  cases o with
  | page t' i =>
    by_cases h : t'=t
    · subst h
      simp [own]
    · simp [own,mm_setMm_of_ne h,h]
  | table t' k =>
    by_cases h : t'=t
    · subst h
      simp [own,ht]
    · simp [own,mm_setMm_of_ne h]
  | stack t' k => rfl
  | cache i => rfl

lemma own_setMm_same (hp : m.pages=(v.mm t).pages) :
    (v.setMm t m).own=v.own := by
  rw [own_setMm ht]
  funext o
  cases o with
  | page t' i =>
    by_cases h : t'=t
    · subst h
      simp [own,hp]
    · simp [h]
  | _ => rfl

lemma own_setMm_put {i : Fin maxUserPages} {o : Option UserPage}
    (hp : m.pages=update (v.mm t).pages i o) :
    (v.setMm t m).own=update v.own (.page t i) (o.map UserPage.pa) := by
  rw [own_setMm ht]
  funext w
  by_cases hw : w=.page t i
  · subst hw
    simp [hp]
  · rw [update_of_ne hw]
    cases w with
    | page t' j =>
      by_cases h : t'=t
      · subst h
        have hj : j≠i := fun e => hw (e ▸ rfl)
        simp [hp,update_of_ne hj,own]
      · simp [h]
    | _ => rfl

end

lemma own_setEntries {o : Option PageCacheEntry} : (v.setEntries (update v.entries i o)).own
      = update v.own (.cache i) (o.map PageCacheEntry.pa) := by
  funext w
  by_cases hw : w=.cache i
  · subst hw
    simp [own,setEntries]
  · rw [update_of_ne hw]
    cases w with
    | cache j =>
      have hj : j≠i := fun e => hw (e ▸ rfl)
      simp [own,setEntries,update_of_ne hj]
    | _ => rfl

lemma own_put {c : PageCacheEntry} :
    (v.setEntries (v.entries.put i c)).own=update v.own (.cache i) (some c.pa) :=
  own_setEntries

lemma own_clear : (v.setEntries (v.entries.clear i)).own=update v.own (.cache i) none :=
  own_setEntries

namespace Ok

lemma perm {held' : List ℕ} (h : v.Ok held) (hp : held.Perm held') : v.Ok held' :=
  ⟨h.phys,fun p => hp.count_eq p ▸ h.counted p⟩

lemma handed (h : v.Ok held) (hp : Handed v.phys ph p) : (v.setPhys ph).Ok (p::held) := by
  refine ⟨hp.ok,?_⟩
  rw [own_setPhys,phys_setPhys,hp.refs]
  exact h.counted.fresh hp.fresh

lemma refs_ne (h : v.Ok (p::held)) : v.phys.pageRefs p≠0 :=
  (h.counted.pos_of_held List.mem_cons_self).ne'

lemma refs_own (h : v.Ok held) {o : Owner} (ho : v.own o=some p) : v.phys.pageRefs p≠0 :=
  (h.counted.pos ho).ne'

lemma free (h : v.Ok (p::held)) : (v.setPhys (pmmFreePage p v.phys)).Ok held := by
  refine ⟨h.phys.freePage h.refs_ne,?_⟩
  rw [own_setPhys,phys_setPhys,refs_pmmFreePage h.phys h.refs_ne]
  exact h.counted.dec

lemma ref (h : v.Ok held) (hp : v.phys.pageRefs p≠0) :
    (v.setPhys (pmmRefPage p v.phys)).Ok (p::held) := by
  refine ⟨h.phys.refPage hp,?_⟩
  rw [own_setPhys,phys_setPhys,refs_pmmRefPage h.phys hp]
  exact h.counted.inc p

lemma congr_phys (h : v.Ok held) (hok : ph.Ok) (hr : ph.pageRefs=v.phys.pageRefs) :
    (v.setPhys ph).Ok held := by
  refine ⟨hok,?_⟩
  rw [own_setPhys,phys_setPhys,hr]
  exact h.counted

lemma aligned (h : v.Ok held) (hp : v.phys.pageRefs p≠0) : p%pageSize=0 :=
  (pageIndexed_iff.1 (h.phys.indexed hp)).1

lemma forgetPages (h : v.Ok held) : (v.setMm t (v.mm t).forgetPages).Ok
      ((List.finRange maxUserPages).filterMap (fun i => v.own (.page t i))++held) := by
  refine ⟨h.phys,?_⟩
  have hdrop := h.counted.dropAll (l := (List.finRange maxUserPages).map (Owner.page t))
    ((List.nodup_finRange _).map fun _ _ he => (Owner.page.inj he).2)
  rw [List.filterMap_map] at hdrop
  have hown : (v.setMm t (v.mm t).forgetPages).own
      = fun o => if o∈(List.finRange maxUserPages).map (Owner.page t) then none else v.own o := by
    rw [own_setMm (show (v.mm t).forgetPages.table=(v.mm t).table from rfl)]
    funext o
    cases o with
    | page t' i =>
      by_cases he : t'=t
      · subst he
        simp [AddressSpace.forgetPages]
      · simp [he,Ne.symm he]
    | _ => simp
  rw [hown]
  exact hdrop

end Ok

/-- The references are counted as far as the page cache sees them; the pages that the address
spaces track may be others. -/
def CacheOk (v : MemView) (held : List ℕ) : Prop := ∃ mm, MemView.Ok {v with mm := mm} held

lemma Ok.cacheOk (h : v.Ok held) : v.CacheOk held := ⟨v.mm,h⟩

namespace CacheOk

lemma phys (h : v.CacheOk held) : v.phys.Ok := h.elim fun _ hok => hok.phys

lemma forget (h : v.CacheOk (p::held)) : v.CacheOk held :=
  h.imp fun _ hok => ⟨hok.phys,hok.counted.forget⟩

lemma aligned (h : v.CacheOk held) (hp : v.phys.pageRefs p≠0) : p%pageSize=0 :=
  h.elim fun _ hok => hok.aligned hp

lemma refs_ne (h : v.CacheOk (p::held)) : v.phys.pageRefs p≠0 := h.elim fun _ hok => hok.refs_ne

lemma not_held (h : v.CacheOk (p::held)) (hp : v.phys.pageRefs p=1) : p∉held :=
  h.elim fun _ hok => hok.counted.not_held hp

variable {j : CacheIx} {c : PageCacheEntry}

lemma refs_entry (h : v.CacheOk held) (hj : v.entries j=some c) : v.phys.pageRefs c.pa≠0 :=
  h.elim fun _ hok => hok.refs_own (o := .cache j) (by simp [own,hj])

lemma not_entry (h : v.CacheOk (p::held)) (hp : v.phys.pageRefs p=1) (hj : v.entries j=some c) :
    c.pa≠p := by
  obtain ⟨mm,hok⟩ := h
  rintro rfl
  exact hok.counted.not_owned hp (.cache j) (by simp [own,hj])

end CacheOk
end MemView
end FuriOS
