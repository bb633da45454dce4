import FuriOS.Task.Exec
import FuriOS.Task.MunmapSpec

/-! What exec leaves of the old program. Loading forgets all pages before it maps the first page
of the new image, and it never touches the areas; an area of the old program therefore survives,
and the pages of the new program under it are written back to the old file. -/
namespace FuriOS
open Prog

variable {t : TaskIx} {I : AddressSpace → Prop}

lemma Prog.Preserves.onMm {α : Type} {p : Prog AddressSpace α} (h : Preserves I p) : Preserves (fun s => I (s.mm t)) (onMm t p) := by
  intro s hs
  simpa [FuriOS.onMm,zoom] using h _ hs

lemma Prog.Preserves.modifyMm {f : AddressSpace → AddressSpace} (h : ∀ m, I m → I (f m)) :
    Preserves (fun s => I (s.mm t)) (modifyMm t f) := by
  intro s hs
  simpa [FuriOS.modifyMm] using h _ hs

namespace Aside
variable {J : System → Prop} (h : Aside J) (t : TaskIx)
include h

lemma copyToUserVa (dst : ℕ) (src : Buf) (len : ℕ) : Preserves J (taskCopyToUserVa t dst src len) := by
  refine .forEach (fun i => .gets fun m => ?_) _
  split
  · exact .of_fail
  · exact h.modifyPhys _

lemma pushArgs (args : List Bytes) (sp : ℕ) : Preserves J (pushArgs t args sp) := by
  induction args with
  | nil => exact .of_pure _
  | cons a rest ih => exact ih.bind fun _ => (h.copyToUserVa t _ _ _).bind fun _ => .of_pure _

lemma buildStack (eh : Ehdr) (phdrAddr : ℕ) (args : List Bytes) (random : Buf) :
    Preserves J (buildStack t eh phdrAddr args random) :=
  (h.pushArgs t _ _).bind fun _ => (h.copyToUserVa t _ _ _).bind fun _ =>
    (h.copyToUserVa t _ _ _).bind fun _ => .of_pure _

end Aside

lemma aside_mm (t : TaskIx) (I : AddressSpace → Prop) : Aside fun s => I (s.mm t) :=
  ⟨fun _ _ _ _ h => h,fun _ h => h,fun _ _ h => h,fun _ _ _ h => h,fun _ _ h => h,fun _ _ h => h⟩

/-- All pages of the address space are among `S` and its areas are `vs`. -/
structure Within (S : ℕ → Prop) (vs : Vmas) (m : AddressSpace) : Prop where
  tracked : ∀ i up, m.pages i=some up → S up.va
  mapped : ∀ va e, taskGetUserPte m va=some e → e.valid=true → S va
  vmas : m.vmas=vs

namespace Within
variable {S : ℕ → Prop} {vs : Vmas} {m : AddressSpace} {va : ℕ}

lemma forgetPages (h : m.vmas=vs) : Within S vs m.forgetPages where
  tracked i up hi := by simp [AddressSpace.forgetPages] at hi
  mapped va e he hv := by
    have hl3 : taskL3ForVa m.forgetPages va=taskL3ForVa m va :=
      taskL3ForVa_congr rfl rfl
    simp only [taskGetUserPte,Option.ite_none_right_eq_some,userPteOk_iff,hl3,
      Option.some.injEq] at he
    obtain ⟨⟨-,-,-,hne⟩,rfl⟩ := he
    simp [AddressSpace.forgetPages,hne,Pte.zero] at hv
  vmas := h

lemma setPte (h : Within S vs m) (hva : S va) (e : Pte) : Within S vs (m.setPte va e) where
  tracked := h.tracked
  mapped va' e' he hv := by
    by_cases hne : va'=va
    · exact hne ▸ hva
    · rw [taskGetUserPte_setPte_of_ne hne] at he
      exact h.mapped va' e' he hv
  vmas := h.vmas

lemma put (h : Within S vs m) {up : UserPage} (hup : S up.va) (i : Fin maxUserPages) :
    Within S vs (m.setPages (m.pages.put i up)) where
  tracked j up' hj := by
    obtain ⟨-,rfl⟩ | ⟨-,hj⟩ := Slots.put_eq_some.1 hj
    · exact hup
    · exact h.tracked j up' hj
  mapped va e he hv := h.mapped va e (by rwa [taskGetUserPte_setPages] at he) hv
  vmas := h.vmas

lemma setUserPte (hva : S va) (pa : ℕ) (a : PteAttrs) :
    Preserves (Within S vs) (taskSetUserPte va pa a) :=
  .gets fun _ => .require fun _ => .of_modify fun _ h => h.setPte hva _

lemma mapUserPage (hva : S va) (pa : ℕ) (w x c i : Bool) :
    Preserves (Within S vs) (taskMapUserPage va pa w x c i) := by
  unfold taskMapUserPage
  refine .gets fun _ => .require fun _ =>
    .bind (setUserPte hva _ _) fun _ => .of_wp fun m h => ?_
  rw [wp_onFail,taskTrackPage,wp_gets_bind]
  split
  · exact h.put hva _
  · rw [wp_fail]
    split
    · exact h.setPte hva _
    · exact h

end Within

section Load
variable {S : ℕ → Prop} {vs : Vmas} {t : TaskIx}
variable {va elfSize : ℕ} {s s' : System} {elf random : Buf} {argv : List Bytes}

lemma allocAboveReserve_within : Preserves (fun s => Within S vs (s.mm t)) allocAboveReserve :=
  (aside_mm t _).allocAboveReserve

lemma taskFindPage_within {m : AddressSpace} {r : Fin maxUserPages × UserPage}
    (h : Within S vs m) (hr : taskFindPage m va=some r) : S va ∧ r.2.va=va := by
  obtain ⟨hi,hp⟩ := Slots.find?_eq_some hr
  have hva : r.2.va=va := of_decide_eq_true hp
  exact ⟨hva ▸ h.tracked _ _ hi,hva⟩

lemma mapSegmentPage_within (w x : Bool) (hva : S va) :
    Preserves (fun s => Within S vs (s.mm t)) (mapSegmentPage t w x va) := by
  unfold mapSegmentPage
  refine .gets_bind fun s hs => ?_
  cases hf : taskFindPage (s.mm t) va with
  | none =>
    exact Preserves.bind allocAboveReserve_within
      (fun page => .onMm (Within.mapUserPage hva page w x false w)) s hs
  | some r =>
    obtain ⟨-,hr⟩ := taskFindPage_within hs hf
    dsimp only
    split
    · exact hs
    · refine Preserves.bind (.onMm (Within.setUserPte hva _ _)) (fun _ => ?_) s hs
      exact .modifyMm fun m h => h.put (hr ▸ hva) _

lemma loadSegment_within (elf : Buf) {ph : Phdr} (hS : ph.loadable → ∀ va∈ph.pages, S va) :
    Preserves (fun s => Within S vs (s.mm t)) (loadSegment t elf ph) := by
  refine .when fun hl => .bind (.forEach_mem _ fun va hva => ?_) fun _ => .bind ?_ fun _ => ?_
  · exact mapSegmentPage_within _ _ (hS hl va hva)
  · exact (aside_mm t _).copyToUserVa t _ _ _
  · exact (aside_mm t _).copyToUserVa t _ _ _

lemma loadEntry_within (entry : ℕ) :
    Preserves (fun s => Within S vs (s.mm t)) (loadEntry t entry) := by
  unfold loadEntry
  refine .gets_bind fun s hs => ?_
  cases hf : taskFindPage (s.mm t) (alignDown entry) with
  | none => exact hs
  | some r =>
    obtain ⟨hS,-⟩ := taskFindPage_within hs hf
    dsimp only
    split
    · exact hs
    · exact Preserves.when (fun _ => .onMm (Within.setUserPte hS _ _)) s hs

lemma mapUserAnonFaultPage_within (hva : S va) (w x : Bool) :
    Preserves (fun s => Within S vs (s.mm t)) (taskMapUserAnonFaultPage t va w x) :=
  .bind allocAboveReserve_within fun page =>
    .onFail (.onMm (Within.mapUserPage hva page w x false w)) fun _ h => h

lemma loadStack_within (maxLoadEnd : ℕ) (hS : S (userStackTop-pageSize)) :
    Preserves (fun s => Within S vs (s.mm t)) (loadStack t maxLoadEnd) := by
  unfold loadStack
  refine .bind (mapUserAnonFaultPage_within hS _ _) fun _ => .bind (.modifyMm fun m h => ?_)
    fun _ => .gets fun _ => .of_require _
  refine ⟨h.tracked,fun va e he hv => h.mapped va e ?_ hv,h.vmas⟩
  rw [← he]
  exact taskGetUserPte_congr rfl rfl rfl

lemma modifyTask_mm {f : Task → Task} (hf : ∀ k, (f k).mm=k.mm) :
    Keeps (fun s => s.mm t) (modifyTask t f) :=
  .of_modify fun s => by simp [System.mm,hf]

lemma unmapUser_within (h : (taskUnmapUser t).run s=(some (),s')) :
    Within S (s.mm t).vmas (s'.mm t) := by
  unfold taskUnmapUser at h
  obtain ⟨⟨⟩,s1,h1,h2⟩ := run_bind_eq_some.1 h
  have hloop : s1.mm t=s.mm t := by
    have haside := aside_mm t fun m => m=s.mm t
    refine Preserves.of_some (I := fun s' => s'.mm t=s.mm t) (.forEach (fun i => .gets fun o => ?_) _) h1 rfl
    split
    · exact .of_pure _
    · exact (haside.writebackAt t _).ignore.bind fun _ => haside.modifyPhys _
  obtain ⟨-,rfl⟩ := Prod.mk.inj h2
  rw [System.mm_setMm_self,hloop]
  exact .forgetPages rfl

/-- The page addresses of a program image and of its first stack page. -/
def ImagePage (phs : List Phdr) (va : ℕ) : Prop :=
  (∃ ph∈phs, ph.loadable ∧ va∈ph.pages) ∨ va=userStackTop-pageSize

lemma installElf_within {maxLoadEnd : ℕ}
    (h : (installElf t elf elfSize maxLoadEnd argv random).run s=(some (),s')) :
    Within (ImagePage (programHeaders elf (Ehdr.read elf))) (s.mm t).vmas (s'.mm t) := by
  unfold installElf at h
  obtain ⟨⟨⟩,s1,h1,h2⟩ := run_bind_eq_some.1 h
  refine Preserves.of_some (I := fun s' => Within (ImagePage (programHeaders elf (Ehdr.read elf)))
    (s.mm t).vmas (s'.mm t)) ?_ h2 (unmapUser_within h1)
  refine .bind (.forEach_mem _ fun ph hph => ?_) fun _ => .bind (loadEntry_within _) fun _ =>
    .bind (loadStack_within _ (.inr rfl)) fun _ => .bind ((aside_mm t _).buildStack t _ _ _ _)
    fun _ => .of_keeps (modifyTask_mm fun _ => rfl)
  exact loadSegment_within elf fun hl va hva => .inl ⟨ph,hph,hl,hva⟩

lemma taskLoadElf_within (h : (taskLoadElf t elf elfSize argv random).run s=(some (),s')) :
    Within (ImagePage (programHeaders elf (Ehdr.read elf))) (s.mm t).vmas (s'.mm t) := by
  unfold taskLoadElf at h
  obtain ⟨⟨⟩,s1,h1,h2⟩ := run_bind_eq_some.1 h
  obtain ⟨-,rfl⟩ := run_require_eq_some.1 h1
  split at h2
  · cases h2
  · obtain ⟨ph,s2,h3,h4⟩ := run_bind_eq_some.1 h2
    obtain ⟨-,rfl⟩ := Prod.mk.inj h3
    obtain ⟨⟨⟩,s3,h5,h6⟩ := run_bind_eq_some.1 h4
    obtain ⟨-,rfl⟩ := run_require_eq_some.1 h5
    exact installElf_within h6

lemma taskExec_within (h : (taskExec t elf elfSize argv random).run s=(some (),s')) :
    Within (ImagePage (programHeaders elf (Ehdr.read elf))) (s.mm t).vmas (s'.mm t) := by
  obtain ⟨⟨⟩,s1,h1,h2⟩ := run_bind_eq_some.1 h
  have hmm : s'.mm t=s1.mm t := by
    obtain ⟨-,rfl⟩ := Prod.mk.inj h2
    simp [System.mm,Task.setSig]
  exact hmm ▸ taskLoadElf_within h1

end Load

def System.files (s : System) : PageCache × (FileId → Buf) × (ℕ → Inode) :=
  (s.cache,s.backing,s.inodes)

/-- The task is current, holds no area, and the page cache and the files are `F`. -/
structure NoAreas (t : TaskIx) (F : PageCache × (FileId → Buf) × (ℕ → Inode)) (s : System) :
    Prop where
  current : s.current=some t
  vmas : (s.mm t).vmas=.empty
  files : s.files=F

namespace NoAreas
variable {α : Type} {t : TaskIx} {F : PageCache × (FileId → Buf) × (ℕ → Inode)} {s : System}

lemma find (h : NoAreas t F s) (va : ℕ) : taskVmaFind (s.mm t).vmas va=none := by
  rw [h.vmas,Vmas.find_eq_none]
  exact fun i v hi => nomatch hi

lemma onMm {p : Prog AddressSpace α} (hp : Keeps AddressSpace.vmas p) :
    Preserves (NoAreas t F) (onMm t p) := by
  intro s hs
  refine ⟨hs.current,?_,hs.files⟩
  simpa [FuriOS.onMm,zoom] using (hp (s.mm t)).trans hs.vmas

lemma modifyMm {f : AddressSpace → AddressSpace} (hf : ∀ m, (f m).vmas=m.vmas) :
    Preserves (NoAreas t F) (modifyMm t f) := by
  intro s hs
  refine ⟨hs.current,?_,hs.files⟩
  simpa [FuriOS.modifyMm] using (hf (s.mm t)).trans hs.vmas

lemma onPhys (p : Prog Phys α) : Preserves (NoAreas t F) (onPhys p) :=
  fun _ hs => ⟨hs.current,hs.vmas,hs.files⟩

lemma modifyPhys (f : Phys → Phys) : Preserves (NoAreas t F) (modifyPhys f) :=
  fun _ hs => ⟨hs.current,hs.vmas,hs.files⟩

lemma writebackAt (up : UserPage) : Preserves (NoAreas t F) (writebackAt t up) := by
  refine .gets_bind fun s hs => ?_
  rw [hs.find]
  exact hs

lemma allocAboveReserve : Preserves (NoAreas t F) allocAboveReserve :=
  .gets fun _ => .require fun _ => onPhys _

lemma setUserPte (va pa : ℕ) (a : PteAttrs) :
    Preserves (NoAreas t F) (FuriOS.onMm t (taskSetUserPte va pa a)) :=
  onMm (.gets fun _ => .require fun _ => .of_modify fun _ => rfl)

lemma keeps_vmas_mapUserPage (va pa : ℕ) (w x c i : Bool) :
    Keeps AddressSpace.vmas (taskMapUserPage va pa w x c i) := by
  unfold taskMapUserPage
  refine .gets fun _ => .require fun _ => .bind ?_ fun _ => .onFail ?_ ?_
  · exact .gets fun _ => .require fun _ => .of_modify fun _ => rfl
  · refine .gets fun ps => ?_
    split
    · exact .of_modify fun _ => rfl
    · exact .of_fail
  · intro m
    split <;> rfl

lemma mapUserAnonFaultPage (va : ℕ) (w x : Bool) :
    Preserves (NoAreas t F) (taskMapUserAnonFaultPage t va w x) :=
  .bind allocAboveReserve fun page => .onFail (onMm (keeps_vmas_mapUserPage va page w x false w))
    fun _ h => ⟨h.current,h.vmas,h.files⟩

lemma unsharePage (i : Fin maxUserPages) (up : UserPage) (split : Bool) :
    Preserves (NoAreas t F) (unsharePage t i up split) := by
  unfold FuriOS.unsharePage
  refine .gets fun _ => .require fun _ => .ite (fun _ => ?_) fun _ => .of_pure _
  exact .bind allocAboveReserve fun _ => .bind (modifyPhys _) fun _ => .bind (modifyPhys _)
    fun _ => .bind (modifyMm fun _ => rfl) fun _ => .of_pure _

lemma growStack (bottom fuel : ℕ) : Preserves (NoAreas t F) (growStack t bottom fuel) := by
  induction fuel with
  | zero => exact .of_pure _
  | succ fuel ih =>
    unfold FuriOS.growStack
    exact .gets fun _ => .when fun _ => .bind (mapUserAnonFaultPage _ _ _)
      fun _ => .bind (modifyMm fun _ => rfl) fun _ => ih

lemma stackFault (va sp : ℕ) : Preserves (NoAreas t F) (stackFault t va sp) := by
  unfold FuriOS.stackFault
  exact .gets fun _ => .require fun _ => .require fun _ => .require fun _ => .require fun _ => .require fun _ => growStack _ _

lemma translationFault (va : ℕ) (w x : Bool) (sp : ℕ) :
    Preserves (NoAreas t F) (translationFault t va w x sp) := by
  refine .gets_bind fun s hs => ?_
  simp only [hs.find]
  refine (show Preserves (NoAreas t F) _ from ?_) s hs
  exact .require fun _ => .require fun _ => .require fun _ => .ite (fun _ => mapUserAnonFaultPage _ _ _)
    fun _ => .ite (fun _ => stackFault _ _) fun _ => .of_fail

lemma permissionFault (va : ℕ) : Preserves (NoAreas t F) (permissionFault t va) := by
  refine .gets_bind fun s hs => ?_
  simp only [hs.find]
  split
  · exact hs
  split
  · exact hs
  refine Preserves.bind (.of_require _) (fun _ => .ite (fun _ => ?_) fun _ => .of_fail) s hs
  exact .bind (unsharePage _ _ _) fun _ => setUserPte _ _ _

lemma unmapUserPage (va : ℕ) : Preserves (NoAreas t F) (taskUnmapUserPage t va) := by
  unfold taskUnmapUserPage
  refine .gets fun m => ?_
  split
  · exact .of_fail
  · exact .require fun _ => .require fun _ => .bind (writebackAt _)
      fun _ => .bind (modifyMm fun _ => rfl) fun _ => .bind (modifyPhys _)
      fun _ => modifyMm fun _ => rfl

lemma unmapUser : Preserves (NoAreas t F) (taskUnmapUser t) := by
  refine .bind (.forEach (fun i => .gets fun o => ?_) _) fun _ => modifyMm fun _ => rfl
  split
  · exact .of_pure _
  · exact .bind (writebackAt _).ignore fun _ => modifyPhys _

lemma currentTask_bind {β : Type} {f : TaskIx → TaskM β} (h : Preserves (NoAreas t F) (f t)) :
    Preserves (NoAreas t F) (currentTask >>= f) := by
  intro s hs
  simp only [currentTask,run_bind,run_gets,hs.current,run_pure]
  exact h s hs

lemma callRange (addr len : ℕ) : Preserves (NoAreas t F) (callRange addr len) :=
  .require fun _ => .require fun _ => .require fun _ => .of_pure _

lemma vmaUnmapRange (start stop : ℕ) (r : Bool) :
    Preserves (NoAreas t F) (taskVmaUnmapRange t start stop r) := by
  unfold taskVmaUnmapRange
  refine .gets fun vs => .require fun _ => .require fun _ =>
    .require fun _ => .bind (.forEach (fun i => .gets_bind fun s hs => ?_) _)
    fun _ => modifyMm vmas_recomputeHeapLimit
  rw [hs.vmas]
  exact hs

lemma rangeMapped (h : NoAreas t F s) (start stop : ℕ) :
    taskVmaRangeMapped (s.mm t).vmas start stop=false := by
  rw [taskVmaRangeMapped]
  split
  · rfl
  · obtain ⟨n,hn⟩ : ∃ n, stop-start=n+1 := ⟨stop-start-1,by omega⟩
    rw [hn,rangeMappedLoop,if_neg ‹_›,h.find]

lemma msync (addr len flags : ℕ) : Preserves (NoAreas t F) (taskMsync addr len flags) := by
  refine .of_wp fun s hs => ?_
  rw [taskMsync,wp_bind,wp_currentTask hs.current]
  refine wp_require_of hs fun _ => ?_
  refine wp_require_of hs fun _ => ?_
  rw [wp_bind]
  refine wp_callRange hs fun _ _ => ?_
  rw [wp_gets_bind,hs.rangeMapped]
  exact hs

lemma mprotect (addr len prot : ℕ) : Preserves (NoAreas t F) (taskMprotect addr len prot) := by
  refine .of_wp fun s hs => ?_
  rw [taskMprotect,wp_bind,wp_currentTask hs.current]
  refine wp_require_of hs fun _ => ?_
  rw [wp_bind]
  refine wp_callRange hs fun _ _ => ?_
  rw [wp_gets_bind,id,hs.rangeMapped]
  exact hs

lemma brk (newBreak : ℕ) : Preserves (NoAreas t F) (taskBrk newBreak) := by
  refine currentTask_bind (.gets fun m => .ite (fun _ => .of_pure _) fun _ => ?_)
  exact .require fun _ => .bind (modifyMm fun _ => rfl) fun _ =>
    .bind (.forEach (fun va => (unmapUserPage va).ignore) _) fun _ => .of_pure _

lemma handlePageFault (va : ℕ) (w tr x : Bool) (sp : ℕ) :
    Preserves (NoAreas t F) (taskHandlePageFault va w tr x sp) := by
  refine currentTask_bind (.require fun _ => .ite (fun _ => ?_) fun _ => ?_)
  · exact translationFault va w x sp
  · exact .require fun _ => permissionFault _

end NoAreas

/-- What a program does to its address space without mapping anything; `exit` is the part of
exit that gives up the pages. -/
inductive MmCall
  | fault (va : ℕ) (isWrite isTranslation isInstruction : Bool) (userSp : ℕ)
  | msync (addr len flags : ℕ)
  | munmap (addr len : ℕ)
  | mprotect (addr len prot : ℕ)
  | brk (newBreak : ℕ)
  | exit

def MmCall.perform (t : TaskIx) : MmCall → TaskM Unit
  | .fault va w tr x sp => (taskHandlePageFault va w tr x sp).ignore
  | .msync addr len flags => (taskMsync addr len flags).ignore
  | .munmap addr len => (taskMunmap addr len).ignore
  | .mprotect addr len prot => (taskMprotect addr len prot).ignore
  | .brk newBreak => (taskBrk newBreak).ignore
  | .exit => taskUnmapUser t

lemma NoAreas.perform {F : PageCache × (FileId → Buf) × (ℕ → Inode)}
    (c : MmCall) : Preserves (NoAreas t F) (c.perform t) := by
  cases c with
  | fault va w tr x sp => exact (NoAreas.handlePageFault va w tr x sp).ignore
  | msync addr len flags => exact (NoAreas.msync addr len flags).ignore
  | munmap addr len =>
    exact (NoAreas.currentTask_bind (.bind (NoAreas.callRange addr len) fun _ =>
      NoAreas.vmaUnmapRange _ _ _)).ignore
  | mprotect addr len prot => exact (NoAreas.mprotect addr len prot).ignore
  | brk newBreak => exact (NoAreas.brk newBreak).ignore
  | exit => exact NoAreas.unmapUser

/-- The address space of the task consists of the program with the headers `phs`, and nothing it
does without mapping a file first reaches the page cache or a file. -/
structure OnlyProgram (phs : List Phdr) (t : TaskIx) (s : System) : Prop where
  tracked : ∀ i up, (s.mm t).pages i=some up → ImagePage phs up.va
  mapped : ∀ va e, taskGetUserPte (s.mm t) va=some e → e.valid=true → ImagePage phs va
  noVmas : ∀ i, (s.mm t).vmas i=none
  files : s.current=some t → ∀ calls,
    ((Prog.forEach (MmCall.perform t) calls).run s).2.files=s.files

/-- A successful exec leaves exactly the new program if and only if the old one held no area. -/
theorem taskExec_onlyProgram_iff {t : TaskIx} {s s' : System} {elf : Buf} {elfSize : ℕ}
    {argv : List Bytes} {random : Buf}
    (h : (taskExec t elf elfSize argv random).run s=(some (),s')) :
    OnlyProgram (programHeaders elf (Ehdr.read elf)) t s' ↔ ∀ i, (s.mm t).vmas i=none := by
  have hw := taskExec_within h
  constructor
  · intro ho i
    rw [← hw.vmas]
    exact ho.noVmas i
  · intro hnone
    have hvmas : (s'.mm t).vmas=.empty := hw.vmas.trans (funext hnone)
    refine ⟨hw.tracked,hw.mapped,fun i => by rw [hvmas]; rfl,fun hcur calls => ?_⟩
    have hrun := Preserves.forEach (I := NoAreas t s'.files) NoAreas.perform calls s'
      ⟨hcur,hvmas,rfl⟩
    exact hrun.files

/-- An executable with one writable page at 0x600000, where it starts. -/
def onePageElf : Buf := wordBytes [0x00010102464c457f,0,0x0000000100b70002,0x600000,64,0,
  0x0038004000000000,1,0x0000000700000001,0,0x600000,0,8,8,0]

/-- An address space with its tables and nothing mapped. -/
def bareSpace : AddressSpace :=
  ⟨0x40100000,0x40101000,0x40102000,0x40103000,fun _ => .zero,.empty,0,0,0,0,0,.empty⟩

theorem taskExec_onlyProgram_iff_bareSpace :
    OnlyProgram (programHeaders onePageElf (Ehdr.read onePageElf)) 0
      ((taskExec 0 onePageElf 120 [] Buf.zero).run (System.single bareSpace)).2 := by
  have hrun : ((taskExec 0 onePageElf 120 [] Buf.zero).run (System.single bareSpace)).1=some () := by
    decide +kernel
  refine (taskExec_onlyProgram_iff (run_of_fst hrun)).2 fun i => ?_
  rw [System.mm_single]
  rfl

/-- The page at 0x600000 is a shared mapping of the first page of a writable file. -/
def sharedAt600000 : System :=
  (System.single (bareSpace.setVmas (Slots.empty.put 0
    ⟨0x600000,0x601000,0,some 0,protRead ||| protWrite,mapShared,true⟩))).setInode 0 fun ino =>
      {ino with writable := true, hasData := true, size := 4096, capacity := 4096}

/-- A shared mapping outlives exec: the page of the new program at its address goes into the
page cache as a changed page of the file when the new program exits. -/
theorem taskExec_sharedMapping_survives :
    ((taskExec 0 onePageElf 120 [] Buf.zero).run sharedAt600000).1=some () ∧
    ¬OnlyProgram (programHeaders onePageElf (Ehdr.read onePageElf)) 0
      ((taskExec 0 onePageElf 120 [] Buf.zero).run sharedAt600000).2 ∧
    (((taskExec 0 onePageElf 120 [] Buf.zero >>= fun _ => MmCall.exit.perform 0).run
      sharedAt600000).2.cache.entries 0).map (fun e => (e.inode,e.fileOff,e.dirty))
      = some (0,0,true) := by
  have hrun : ((taskExec 0 onePageElf 120 [] Buf.zero).run sharedAt600000).1=some () := by
    decide +kernel
  refine ⟨hrun,fun ho => ?_,by decide +kernel⟩
  have hnone := ho.noVmas 0
  rw [(taskExec_within (run_of_fst hrun)).vmas] at hnone
  exact absurd (congrArg Option.isNone hnone) (by decide +kernel)

end FuriOS
