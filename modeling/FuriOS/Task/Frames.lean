import FuriOS.Task.Mmap

/-! What the page cache and the page functions leave alone. A property that does not see the
contents of physical memory, the page cache, the files and the page descriptors is kept by
everything the page cache does. -/
namespace FuriOS
open Prog

/-- A function on physical memory that leaves the bump region as it is. -/
class Phys.Still (f : Phys → Phys) : Prop where
  still : ∀ m, (f m).cur=m.cur ∧ (f m).limit=m.limit

namespace Phys.Still

instance freePage (p : ℕ) : Still (pmmFreePage p) where
  still m := by
    unfold pmmFreePage
    split_ifs <;> exact ⟨rfl,rfl⟩

instance refPage (p : ℕ) : Still (pmmRefPage p) where
  still m := by
    unfold pmmRefPage
    split_ifs <;> exact ⟨rfl,rfl⟩

instance zeroPage (p : ℕ) : Still fun m => m.zeroPage p := ⟨fun _ => ⟨rfl,rfl⟩⟩

instance zeroTail (p n : ℕ) : Still fun m => m.zeroTail p n := ⟨fun _ => ⟨rfl,rfl⟩⟩

instance copyPage (p q : ℕ) : Still fun m => m.copyPage p q := ⟨fun _ => ⟨rfl,rfl⟩⟩

instance copyIn (p : ℕ) (src : Phys → Buf) (a n : ℕ) : Still fun m => m.copyIn p (src m) a n := ⟨fun _ => ⟨rfl,rfl⟩⟩

instance store (a : ℕ) (b : UInt8) : Still fun m => {m with mem := Function.update m.mem a b} :=
  ⟨fun _ => ⟨rfl,rfl⟩⟩

end Phys.Still

/-- A property away from page cache and files, which sees of the memory at most the bump region. -/
structure Aside (I : System → Prop) : Prop where
  phys : ∀ s m, m.cur=s.phys.cur → m.limit=s.phys.limit → I s → I (s.setPhys m)
  alloc : ∀ s, I s → I (s.setPhys (pmmAllocPage.run s.phys).2)
  cache : ∀ s c, I s → I (s.setCache c)
  inode : ∀ s n f, I s → I (s.setInode n f)
  backing : ∀ s b, I s → I {s with backing := b}
  io : ∀ s n, I s → I {s with ioCount := n}

/-- A property that does not see the page descriptors either. -/
structure AsidePtes (I : System → Prop) : Prop extends Aside I where
  pte : ∀ s t va e, I s → I (s.setMm t ((s.mm t).setPte va e))

/-- A property that sees no pages at all. -/
structure AsidePages (I : System → Prop) : Prop extends AsidePtes I where
  pages : ∀ s t ps, I s → I (s.setMm t ((s.mm t).setPages ps))

/-- A property that sees no part of an address space. -/
structure AsideMm (I : System → Prop) : Prop extends Aside I where
  mm : ∀ s t m, I s → I (s.setMm t m)

namespace Aside
variable {I : System → Prop} (h : Aside I)
include h

lemma still (f : Phys → Phys) [hf : Phys.Still f] {s : System} (hs : I s) : I (s.setPhys (f s.phys)) :=
  h.phys s _ (hf.still _).1 (hf.still _).2 hs

lemma modifyPhys (f : Phys → Phys) [Phys.Still f] : Preserves I (modifyPhys f) :=
  .of_modify fun _ => h.still f

lemma backingTransfer : Preserves I backingTransfer :=
  (Preserves.of_gets _).bind fun _ => (Preserves.of_modify fun s => h.io s _).bind fun _ => .of_require _

lemma allocPage : Preserves I (onPhys pmmAllocPage) := h.alloc

lemma allocAboveReserve : Preserves I allocAboveReserve :=
  .gets fun _ => .require fun _ => h.allocPage

lemma touchTick : Preserves I pagecacheTouchTick :=
  (Preserves.of_modify fun s => h.cache s _).bind fun _ => .of_gets _

lemma setEntry (i : CacheIx) (e : PageCacheEntry) :
    Preserves I (.modify fun s => s.setEntry i e) := .of_modify fun s => h.cache s _

lemma noting {p : TaskM Unit} (hp : Preserves I p) : Preserves I (notingResult p) :=
  (hp.onFail fun s => h.cache s _).bind fun _ => .of_modify fun s => h.cache s _

lemma storeBytes (n off src len : ℕ) : Preserves I (.modify (storeBytes n off src len)) :=
  .of_modify fun s => h.backing s _

lemma storePage (n off src len : ℕ) : Preserves I (pagecacheStorePage n off src len) := by
  unfold pagecacheStorePage
  refine .gets fun ino => .require fun _ => .ite (fun _ => ?_) fun _ =>
    .ite (fun _ => .ite (fun _ => ?_) fun _ => ?_) fun _ => ?_
  · exact (Preserves.of_require _).bind fun _ => (Preserves.of_require _).bind fun _ => h.backingTransfer.bind fun _ =>
      (h.storeBytes _ _ _ _).bind fun _ => .of_modify fun s => h.inode s _ _
  · exact .of_pure _
  · exact (h.storeBytes _ _ _ _).bind fun _ => .of_modify fun s => h.inode s _ _
  · exact h.backingTransfer.bind fun _ => (Preserves.of_require _).bind fun _ =>
      (Preserves.of_modify fun s => h.inode s _ _).bind fun _ => h.backingTransfer.bind fun _ =>
      (h.storeBytes _ _ _ _).bind fun _ => .of_modify fun s => h.inode s _ _

lemma slot : Preserves I pagecacheSlot := by
  unfold pagecacheSlot
  refine .gets fun es => ?_
  split
  · exact .of_pure _
  refine .gets fun s => ?_
  split
  · exact .of_fail
  exact (Preserves.when fun _ => (h.noting (h.storePage _ _ _ _))).bind fun _ => (h.modifyPhys _).bind fun _ =>
    (Preserves.of_modify fun s => h.cache s _).bind fun _ => .of_pure _

lemma takePage (n off pa len : ℕ) : Preserves I (pagecacheTakePage n off pa len) := by
  unfold pagecacheTakePage
  refine .gets fun s => ?_
  split
  · exact (Preserves.when fun _ => h.modifyPhys _).bind fun _ => .of_pure _
  · exact h.slot.bind fun _ => h.touchTick.bind fun _ => (h.setEntry _ _).bind fun _ =>
      (h.modifyPhys _).bind fun _ => .of_pure _

lemma writeback (n off pa len : ℕ) : Preserves I (pagecacheWriteback n off pa len) := by
  unfold pagecacheWriteback
  refine .gets fun ino => .require fun _ => .ite (fun _ => .of_pure _) fun _ => ?_
  exact (h.takePage _ _ _ _).bind fun _ => (Preserves.when fun _ => h.modifyPhys _).bind fun _ =>
    h.touchTick.bind fun _ => h.setEntry _ _

lemma vmaWriteback (t : TaskIx) (v : VmArea) (up : UserPage) :
    Preserves I (taskVmaWritebackPage t v up) := by
  unfold taskVmaWritebackPage
  refine .gets fun s => ?_
  split
  · exact .of_pure _
  refine .when fun _ => .require fun _ => ?_
  split
  · exact .of_fail
  · exact (Preserves.of_require _).bind fun _ => .when fun _ => h.writeback _ _ _ _

lemma writebackAt (t : TaskIx) (up : UserPage) : Preserves I (writebackAt t up) := by
  unfold FuriOS.writebackAt
  refine .gets fun vs => ?_
  split
  · exact .of_pure _
  · exact h.vmaWriteback t _ up

end Aside

section
variable {I : System → Prop} (hI : ∀ s t va e, I s → I (s.setMm t ((s.mm t).setPte va e)))
include hI

lemma preserves_setUserPte (t : TaskIx) (va pa : ℕ) (a : PteAttrs) :
    Preserves I (onMm t (taskSetUserPte va pa a)) := by
  intro s hs
  simp only [onMm,zoom,taskSetUserPte,run_bind,run_gets,Prog.require,run_modify]
  split_ifs
  · exact hI s t va _ hs
  · have := hI s t va ((s.mm t).ptes va) hs
    simpa [AddressSpace.setPte] using this

lemma preserves_writeprotect (n off : ℕ) : Preserves I (taskPagecacheWriteprotectShared n off) := by
  refine .forEach (fun t => .gets fun st => .ite (fun _ => .of_pure _)
    fun _ => .forEach (fun i => ?_) _) _
  unfold writeprotectPage
  refine .gets fun s => ?_
  split
  · exact .of_pure _
  split
  · exact .of_pure _
  refine .ite (fun _ => ?_) fun _ => .of_pure _
  split
  · exact .of_fail
  · exact .ite (fun _ => .of_fail) fun _ =>
      .ite (fun _ => preserves_setUserPte hI _ _ _ _) fun _ => .of_pure _

end

namespace AsidePtes
variable {I : System → Prop} (h : AsidePtes I)
include h

lemma setUserPte (t : TaskIx) (va pa : ℕ) (a : PteAttrs) :
    Preserves I (onMm t (taskSetUserPte va pa a)) := preserves_setUserPte h.pte t va pa a

lemma writeprotect (n off : ℕ) : Preserves I (taskPagecacheWriteprotectShared n off) :=
  preserves_writeprotect h.pte n off

lemma entryWriteback (i : CacheIx) (e : PageCacheEntry) :
    Preserves I (pagecacheEntryWriteback i e) := by
  have hclean : Preserves I (entryClean i e) := h.touchTick.bind fun _ => h.setEntry _ _
  unfold pagecacheEntryWriteback
  refine .gets fun len => .gets fun isFile => .ite (fun _ => ?_) fun _ => ?_
  · exact (Preserves.when fun _ => (h.modifyPhys _).bind fun _ => h.writeprotect _ _).bind fun _ => hclean
  · exact (h.storePage _ _ _ _).bind fun _ => (Preserves.when fun _ => h.modifyPhys _).bind fun _ =>
      (h.writeprotect _ _).bind fun _ => hclean

lemma flushMatch (sel : System → PageCacheEntry → Bool) (budget : ℕ) :
    Preserves I (pagecacheFlushMatch sel budget) := by
  induction budget with
  | zero => exact .of_pure _
  | succ budget ih =>
    unfold pagecacheFlushMatch
    refine .gets fun s => ?_
    split
    · exact .of_pure _
    · exact (h.noting (h.entryWriteback _ _)).bind fun _ => ih

end AsidePtes

namespace AsidePages
variable {I : System → Prop} (h : AsidePages I)
include h

lemma unmapUserPage (t : TaskIx) (va : ℕ) : Preserves I (taskUnmapUserPage t va) := by
  unfold taskUnmapUserPage
  refine .gets fun m => ?_
  split
  · exact .of_fail
  · exact (Preserves.of_require _).bind fun _ => (Preserves.of_require _).bind fun _ =>
      (h.writebackAt t _).bind fun _ => (Preserves.of_modify fun s => h.pte s t va .zero).bind fun _ =>
      (h.modifyPhys _).bind fun _ => .of_modify fun s => h.pages s t _

lemma unsharePage (t : TaskIx) (i : Fin maxUserPages) (up : UserPage) (split : Bool) :
    Preserves I (unsharePage t i up split) := by
  unfold FuriOS.unsharePage
  refine .gets fun refs => .require fun _ => .ite (fun _ => ?_) fun _ => .of_pure _
  exact h.allocAboveReserve.bind fun _ => (h.modifyPhys _).bind fun _ => (h.modifyPhys _).bind
    fun _ => (Preserves.of_modify fun s => h.pages s t _).bind fun _ => .of_pure _

lemma pageSetProt (t : TaskIx) (i : Fin maxUserPages) (up : UserPage) (prot : ℕ) :
    Preserves I (taskPageSetProt t i up prot) := by
  unfold taskPageSetProt
  refine .gets fun m => .require fun _ => .ite (fun _ => ?_) fun _ => ?_
  · exact (h.unsharePage t i up _).bind fun _ => (Preserves.of_modify fun s => h.pages s t _).bind
      fun _ => h.setUserPte t _ _ _
  · exact (Preserves.of_modify fun s => h.pages s t _).bind fun _ => h.setUserPte t _ _ _

lemma mprotectPage (t : TaskIx) (prot va : ℕ) : Preserves I (mprotectPage t prot va) := by
  unfold FuriOS.mprotectPage
  refine .gets fun m => ?_
  split
  · exact .of_pure _
  · exact h.pageSetProt t _ _ prot

end AsidePages

namespace AsideMm
variable {I : System → Prop} (h : AsideMm I)
include h

lemma toAsidePages : AsidePages I := ⟨⟨h.toAside,fun _ _ _ _ => h.mm _ _ _⟩,fun _ _ _ => h.mm _ _ _⟩

lemma onMm {α : Type} (t : TaskIx) (p : Prog AddressSpace α) : Preserves I (onMm t p) :=
  .of_zoom p fun _ _ => h.mm _ _ _

lemma modifyMm (t : TaskIx) (f : AddressSpace → AddressSpace) : Preserves I (modifyMm t f) :=
  .of_modify fun _ => h.mm _ _ _

end AsideMm

/-- The system without its memory side. -/
structure ProcView where
  pipes : ℕ → Pipe
  tasks : TaskIx → Task
  current : Option TaskIx
  nextPid : ℤ
  initPid : ℤ
  ticks : ℕ
  currentReaped : Bool

def System.procView (s : System) : ProcView :=
  ⟨s.pipes,fun t => {s.tasks t with mm := .zero},s.current,s.nextPid,s.initPid,s.ticks,s.currentReaped⟩

lemma procView_setMm (s : System) (t : TaskIx) (m : AddressSpace) :
    (s.setMm t m).procView=s.procView := by
  have htasks : ∀ t', {(s.setMm t m).tasks t' with mm := AddressSpace.zero}
      = {s.tasks t' with mm := AddressSpace.zero} := by
    intro t'
    by_cases ht : t'=t
    · subst ht
      simp [System.setMm]
    · simp [System.setMm,System.setTask_of_ne ht]
  simp only [System.procView,ProcView.mk.injEq]
  exact ⟨rfl,funext htasks,rfl,rfl,rfl,rfl,rfl⟩

lemma AsideMm.of_view {I : System → Prop} (view : ∀ s s', s'.procView=s.procView → I s → I s') : AsideMm I where
  phys _ _ _ _ := view _ _ rfl
  alloc _ := view _ _ rfl
  cache _ _ := view _ _ rfl
  inode _ _ _ := view _ _ rfl
  backing _ _ := view _ _ rfl
  io _ _ := view _ _ rfl
  mm _ _ _ := view _ _ (procView_setMm ..)

lemma asideMm_procView (v : ProcView) : AsideMm fun s => s.procView=v := .of_view fun _ _ h hs => h.trans hs

def System.vmasOf (s : System) : TaskIx → Vmas := fun t => (s.mm t).vmas

lemma vmasOf_setMm (s : System) (t : TaskIx) {m : AddressSpace} (h : m.vmas=(s.mm t).vmas) :
    (s.setMm t m).vmasOf=s.vmasOf := by
  funext t'
  by_cases ht : t'=t
  · subst ht
    simp [System.vmasOf,h]
  · simp [System.vmasOf,System.mm_setMm_of_ne ht]

lemma asidePages_vmasOf (vs : TaskIx → Vmas) : AsidePages fun s => s.vmasOf=vs where
  phys _ _ _ _ h := h
  alloc _ h := h
  cache _ _ h := h
  inode _ _ _ h := h
  backing _ _ h := h
  io _ _ h := h
  pte s t va e h := (vmasOf_setMm s t (m := (s.mm t).setPte va e) rfl).trans h
  pages s t ps h := (vmasOf_setMm s t (m := (s.mm t).setPages ps) rfl).trans h

end FuriOS
