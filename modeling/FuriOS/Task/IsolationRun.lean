import FuriOS.Task.IsolationFork

/-! Runs of tasks with private mappings: copy-on-write is an eager copy of the address space. -/
namespace FuriOS
open Prog Owners MemView Function

/-- A store instruction of task `t`, on a page that its descriptor lets it write. -/
def userStore (t : TaskIx) (va : ℕ) (b : UInt8) : TaskM Unit := do
  match taskGetUserPte (← .gets fun s => s.mm t) (alignDown va) with
  | none => .fail
  | some e =>
    .require (e.valid && taskPteIsUserWritable e)
    modifyPhys fun m => {m with mem := update m.mem (e.pa+va%pageSize) b}

/-- What a task does to its memory; a store that faults is a fault followed by a store. -/
inductive UserAct
  | store (va : ℕ) (b : UInt8)
  | fault (faultVa : ℕ) (isWrite isTranslation isInstruction : Bool) (userSp : ℕ)
  | mmap (addr len prot flags : ℕ) (fd : ℤ) (offset : ℕ)
  | munmap (addr len : ℕ)
  | mprotect (addr len prot : ℕ)
  | brk (newBreak : ℕ)
  | fork (f : TrapFrame)

/-- The act of the current task `t`. -/
def UserAct.perform (t : TaskIx) : UserAct → TaskM Unit
  | .store va b => userStore t va b
  | .fault faultVa isWrite isTranslation isInstruction userSp =>
    taskHandlePageFault faultVa isWrite isTranslation isInstruction userSp
  | .mmap addr len prot flags fd offset => (taskMmap addr len prot flags fd offset).ignore
  | .munmap addr len => taskMunmap addr len
  | .mprotect addr len prot => taskMprotect addr len prot
  | .brk newBreak => (taskBrk newBreak).ignore
  | .fork f => (taskFork f).ignore

/-- The act does not create a shared mapping. -/
def UserAct.Private : UserAct → Prop
  | .mmap _ _ _ flags _ _ => hasBits flags mapShared=false
  | _ => True

/-- What the task may read after its act where it read `old`: of the acts only a store writes, a fault
makes more addresses readable, and unmapping, which `mmap` and `brk` do as well, makes fewer. -/
def UserAct.After (old new : Option UInt8) : UserAct → Prop
  | .store .. => True
  | .fault .. => old=none ∨ new=old
  | .mmap .. | .munmap .. | .brk _ => new=none ∨ new=old
  | .mprotect .. | .fork _ => new=old

lemma UserAct.After.refl (a : UserAct) (old : Option UInt8) : a.After old old := by
  cases a <;> simp [UserAct.After]

def Task.Alive (k : Task) : Prop := k.state≠.unused ∧ k.state≠.zombie

instance (k : Task) : Decidable k.Alive := inferInstanceAs (Decidable (_ ∧ _))

/-- A step of task `t`: an act while it is the current task, its end, its slot being freed, or
the switch to it. -/
inductive TaskStep (t : TaskIx) : System → System → Prop
  | act {s : System} (a : UserAct) (hcur : s.current=some t) (halive : (s.tasks t).Alive)
      (ha : a.Private) : TaskStep t s ((a.perform t).run s).2
  | exit {s : System} (code : ℤ) (halive : (s.tasks t).Alive) :
      TaskStep t s ((taskForceExit t code).run s).2
  | reap {s : System} (hz : (s.tasks t).state=.zombie) : TaskStep t s ((taskReapSlot t).run s).2
  | switch {s : System} : TaskStep t s {s with current := some t}

/-- All references to pages are counted and all address spaces are sound. -/
structure System.Private (s : System) : Prop where
  ok : s.memView.Ok []
  sound : ∀ t, (s.mm t).Sound s.phys.pageRefs s.memView.cached

/-- The byte that task `t` reads at `va` without a fault. -/
def System.userRead (s : System) (t : TaskIx) (va : ℕ) : Option UInt8 := s.memView.userRead t va

section Steps
variable {s s' : System} {t : TaskIx} {A : TaskIx → Prop}

/-- Every task reads what it reads in `s`, except that `t` has made the act. -/
def System.ReadsAfter (s : System) (t : TaskIx) (a : UserAct) (t' : TaskIx) (va : ℕ)
    (b : Option UInt8) : Prop := if t'=t then a.After (s.userRead t va) b else b=s.userRead t' va

lemma System.Private.cow (h : s.Private) (A : TaskIx → Prop) :
    Cow A (fun t va b => b=s.userRead t va) [] s.memView := ⟨h.ok,h.sound,fun _ _ _ => rfl⟩

lemma MemView.Cow.isPrivate {r : Readings} (h : Cow A r [] s.memView) :
    s.Private := ⟨h.ok,h.sound⟩

lemma System.Private.written (h : s.Private) {va : ℕ} {e : Pte} {i : Fin maxUserPages} {up : UserPage}
    (he : taskGetUserPte (s.mm t) va=some e) (hv : e.valid=true)
    (hw : taskPteIsUserWritable e=true) {t' : TaskIx}
    (hi : (s.mm t').pages i=some up) (hpa : up.pa=e.pa) : t'=t ∧ up.va=va := by
  obtain ⟨j,up',hj,hva,hpa'⟩ := (h.sound t).mapped va e he hv
  have howner := h.ok.counted.unique (a := .page t' i) (b := .page t j)
    ((h.sound t).alone va e he hv hw) (by simp [own,hi,hpa]) (by simp [own,hj,hpa'])
  obtain ⟨rfl,rfl⟩ := Owner.page.inj howner
  rw [hj] at hi
  exact ⟨rfl,(Option.some.inj hi) ▸ hva⟩

lemma System.Private.same_byte (h : s.Private) {va va' : ℕ} {e e' : Pte} {t' : TaskIx}
    (he : taskGetUserPte (s.mm t) (alignDown va)=some e) (hv : e.valid=true)
    (hw : taskPteIsUserWritable e=true)
    (he' : taskGetUserPte (s.mm t') (alignDown va')=some e') (hv' : e'.valid=true)
    (heq : e'.pa+va'%pageSize=e.pa+va%pageSize) : t'=t ∧ va'=va := by
  obtain ⟨i,up,hi,-,hpa⟩ := (h.sound t).mapped _ e he hv
  obtain ⟨j,up',hj,hva',hpa'⟩ := (h.sound t').mapped _ e' he' hv'
  have hal : e.pa%pageSize=0 := hpa ▸ h.ok.aligned ((h.cow fun _ => True).page_refs hi)
  have hal' : e'.pa%pageSize=0 := hpa' ▸ h.ok.aligned ((h.cow fun _ => True).page_refs hj)
  simp only [pageSize] at hal hal' heq
  have hsame : e'.pa=e.pa := by omega
  obtain ⟨ht,hup⟩ := h.written he hv hw hj (hpa'.trans hsame)
  refine ⟨ht,?_⟩
  have hdown := hva'.symm.trans hup
  simp only [alignDown,pageSize] at hdown
  omega

lemma System.Private.store (h : s.Private) {va : ℕ} {e : Pte} {b : UInt8}
    (he : taskGetUserPte (s.mm t) (alignDown va)=some e) (hv : e.valid=true)
    (hw : taskPteIsUserWritable e=true)
    (hs' : s'=s.setPhys {s.phys with mem := update s.phys.mem (e.pa+va%pageSize) b}) :
    s'.Private ∧ (∀ t' va', t'≠t ∨ va'≠va → s'.userRead t' va'=s.userRead t' va') ∧
      s'.userRead t va=some b := by
  subst hs'
  have hphys : Phys.Ok {s.phys with mem := update s.phys.mem (e.pa+va%pageSize) b} :=
    {h.ok.phys with}
  refine ⟨⟨h.ok.congr_phys hphys rfl,h.sound⟩,fun t' va' hne => ?_,?_⟩
  · change ((taskGetUserPte (s.mm t') (alignDown va')).bind _)
      = (taskGetUserPte (s.mm t') (alignDown va')).bind _
    cases he' : taskGetUserPte (s.mm t') (alignDown va') with
    | none => rfl
    | some e' =>
      simp only [Option.bind_some]
      split_ifs with hr
      · have hv' : e'.valid=true := (Bool.and_eq_true_iff.1 hr).1
        have hbyte : e'.pa+va'%pageSize≠e.pa+va%pageSize := by
          intro heq
          obtain ⟨rfl,rfl⟩ := h.same_byte he hv hw he' hv' heq
          simp at hne
        exact congrArg some (update_of_ne hbyte _ _)
      · rfl
  · have hread (ph : Phys) : (s.setPhys ph).userRead t va=some (ph.mem (e.pa+va%pageSize)) :=
      userRead_of_pte (v := s.memView.setPhys ph) he ((h.sound t).legible _ e he hv)
    exact (hread _).trans (congrArg some (update_self _ _ _))

lemma userStore_eq_some {va : ℕ} {b : UInt8} (hrun : (userStore t va b).run s=(some (),s')) :
    ∃ e, taskGetUserPte (s.mm t) (alignDown va)=some e ∧ e.valid=true ∧
      taskPteIsUserWritable e=true ∧
      s'=s.setPhys {s.phys with mem := update s.phys.mem (e.pa+va%pageSize) b} := by
  cases he : taskGetUserPte (s.mm t) (alignDown va) with
  | none => simp [userStore,run_bind,he] at hrun
  | some e =>
    cases hc : e.valid && taskPteIsUserWritable e with
    | false =>
      simp only [userStore,run_bind,run_gets,he,hc] at hrun
      exact nomatch (Prod.ext_iff.1 hrun).1
    | true =>
      obtain ⟨hv,hw⟩ := Bool.and_eq_true_iff.1 hc
      refine ⟨e,rfl,hv,hw,?_⟩
      simp only [userStore,run_bind,run_gets,he,hc] at hrun
      exact (Prod.ext_iff.1 hrun).2.symm

/-- The tasks that a step of `t` must not disturb. -/
def Others (t : TaskIx) (s : System) (t' : TaskIx) : Prop := t'≠t ∧ (s.tasks t').Alive

lemma userStore_cow (h : s.Private) (va : ℕ) (b : UInt8) :
    Ends (fun s' => Cow A (s.ReadsAfter t (.store va b)) [] s'.memView) (userStore t va b) s := by
  have hstart : Cow A (s.ReadsAfter t (.store va b)) [] s.memView :=
    ⟨h.ok,h.sound,fun t' _ va' => by
      unfold System.ReadsAfter
      split_ifs
      · exact trivial
      · rfl⟩
  refine .of_wp ?_
  rw [userStore,wp_gets_bind]
  cases he : taskGetUserPte (s.mm t) (alignDown va) with
  | none => exact hstart
  | some e =>
    refine wp_require_of hstart fun hc => ?_
    obtain ⟨hv,hw⟩ := Bool.and_eq_true_iff.1 hc
    obtain ⟨hp,hreads,-⟩ := h.store (b := b) he hv hw rfl
    refine ⟨hp.ok,hp.sound,fun t' _ va' => ?_⟩
    unfold System.ReadsAfter
    split_ifs with hne
    · exact trivial
    · exact hreads t' va' (.inl hne)

lemma UserAct.cow (a : UserAct) (ha : a.Private) (hcur : s.current=some t)
    (halive : (s.tasks t).Alive) (h : s.Private) :
    Ends (fun s' => Cow (fun t' => (s.tasks t').Alive) (s.ReadsAfter t a) [] s'.memView) (a.perform t) s := by
  have hstart : Cow (fun t' => (s.tasks t').Alive) (s.ReadsAfter t a) [] s.memView :=
    ⟨h.ok,h.sound,fun t' _ va => by
      unfold System.ReadsAfter
      split_ifs with he
      · exact he ▸ .refl a _
      · rfl⟩
  have hself {r : TaskIx → Prop} (hr : r t) (t' : TaskIx) (ht' : s.current=some t')
      (_ : (s.tasks t').Alive) : r t' := Option.some.inj (hcur.symm.trans ht') ▸ hr
  have hat {a : UserAct} {va : ℕ} {b : Option UInt8} : s.ReadsAfter t a t va b ↔ a.After (s.userRead t va) b := by
    rw [System.ReadsAfter,if_pos rfl]
  have hdrops (hd : ∀ old b, a.After old b → a.After old none) : Drops (s.ReadsAfter t a) t :=
    fun va b hb => hat.2 (hd _ b (hat.1 hb))
  cases a with
  | store va b => exact userStore_cow h va b
  | fault faultVa w tr x userSp =>
    refine Cow.pageFault (hself fun va b hb => ?_) hstart faultVa w tr x userSp
    have hold : s.userRead t va=none := (hat.1 hb).elim id Eq.symm
    exact hat.2 (show UserAct.After _ _ (.fault ..) from .inl hold)
  | mmap addr len prot flags fd offset =>
    exact Cow.mmap (hself (hdrops fun _ _ _ => .inl rfl)) hstart addr len prot ha fd offset
  | munmap addr len => exact Cow.munmap (hself (hdrops fun _ _ _ => .inl rfl)) hstart addr len
  | mprotect addr len prot => exact hstart.mprotect addr len prot
  | brk newBreak => exact Cow.brk (hself (hdrops fun _ _ _ => .inl rfl)) hstart newBreak
  | fork f =>
    have hfork : Ends (fun s' => Cow (fun t' => (s.tasks t').Alive) (s.ReadsAfter t (.fork f)) [] s'.memView)
        (taskFork f) s :=
      .of_wp (wp_mono (Cow.fork f hcur halive.1 (fun t' ht' => ht'.1) hstart) (fun _ _ hq => hq.1)
        fun _ he => he)
    exact hfork

lemma TaskStep.cow (hstep : TaskStep t s s') (h : s.Private) :
    Cow (Others t s) (fun t' va b => b=s.userRead t' va) [] s'.memView := by
  have hself : ¬Others t s t := fun ht => ht.1 rfl
  have hawake : s.Awake (Others t s) := fun t' ht' => ht'.2.2
  cases hstep with
  | act a hcur halive ha =>
    have hact := a.cow ha hcur halive h
    refine ⟨hact.ok,hact.sound,fun t' ht' va => ?_⟩
    have hread := hact.reads t' ht'.2 va
    rwa [System.ReadsAfter,if_neg ht'.1] at hread
  | exit code halive => exact (Cow.forceExit code hself s ⟨h.cow _,hawake⟩).1
  | reap hz => exact (Cow.guarded_reapSlot hself s ⟨h.cow _,hawake⟩).1
  | switch => exact h.cow _

/-- Any interleaving of the tasks' steps. -/
abbrev Interleaving : System → System → Prop := Relation.ReflTransGen fun s s' => ∃ t, TaskStep t s s'

lemma Interleaving.isPrivate (hrun : Interleaving s s') (h : s.Private) : s'.Private := by
  induction hrun with
  | refl => exact h
  | tail _ hstep ih =>
    obtain ⟨t,hstep⟩ := hstep
    exact (hstep.cow ih).isPrivate

lemma System.Private.fork (h : s.Private) {f : TrapFrame} {child : TaskIx}
    (hcur : s.current=some t) (halive : (s.tasks t).Alive)
    (hrun : (taskFork f).run s=(some child,s')) :
    s'.userRead child=s.userRead t ∧ s'.userRead t=s.userRead t := by
  have hfork := Cow.fork f hcur halive.1 (fun _ ha => ha) (h.cow fun t' => (s.tasks t').state≠.unused)
  rw [wp,hrun] at hfork
  obtain ⟨hcow,-,hchild⟩ := hfork
  have hparent : s'.userRead t=s.userRead t := funext (hcow.reads t halive.1)
  exact ⟨(funext hchild).trans hparent,hparent⟩

/-- Copy-on-write is an eager copy: in every interleaving no step of a task changes a byte that
another task reads, a store changes exactly its byte for the task itself, faults, protection, fork
and unmapping change no byte that the task goes on to read, and a forked child starts with what the
parent reads. -/
theorem copyOnWrite_eager {s0 : System} (h0 : s0.Private) (hrun : Interleaving s0 s) :
    (∀ t s' t', TaskStep t s s' → t'≠t → (s.tasks t').Alive → s'.userRead t'=s.userRead t') ∧
    (∀ t s' va b, (userStore t va b).run s=(some (),s') →
      s'.userRead t=update (s.userRead t) va (some b)) ∧
    (∀ t (a : UserAct), s.current=some t → (s.tasks t).Alive → a.Private → ∀ va,
      a.After (s.userRead t va) (((a.perform t).run s).2.userRead t va)) ∧
    ∀ t s' f child, s.current=some t → (s.tasks t).Alive → (taskFork f).run s=(some child,s') →
      s'.userRead child=s.userRead t ∧ s'.userRead t=s.userRead t := by
  have h := hrun.isPrivate h0
  refine ⟨fun t s' t' hstep hne halive => ?_,fun t s' va b hrun => ?_,fun t a hcur halive ha va => ?_,
    fun t s' f child hcur halive hrun => h.fork hcur halive hrun⟩
  · exact funext ((hstep.cow h).reads t' ⟨hne,halive⟩)
  · obtain ⟨e,he,hv,hw,hs'⟩ := userStore_eq_some hrun
    obtain ⟨-,hreads,hbyte⟩ := h.store he hv hw hs'
    funext va'
    by_cases hva : va'=va
    · subst hva
      rw [hbyte,update_self]
    · rw [hreads t va' (.inr hva),update_of_ne hva]
  · have hread := (a.cow ha hcur halive h).reads t halive va
    rwa [System.ReadsAfter,if_pos rfl] at hread

lemma private_single : (System.single .zero).Private := by
  have hmm (t : TaskIx) : (System.single .zero).mm t=.zero := by
    by_cases ht : t=0
    · subst ht
      rfl
    · simp [System.mm,System.single,ht,Task.zero]
  refine ⟨⟨?_,fun p => ?_⟩,fun t => ?_⟩
  · refine ⟨List.nodup_nil,fun p hp => absurd hp List.not_mem_nil,fun p hp => absurd rfl hp,?_,?_,?_⟩ <;>
      decide
  · have hown (o : Owner) : (System.single .zero).memView.own o=none := by
      cases o with
      | page t i =>
        rw [own,memView_mm,hmm]
        rfl
      | table t k =>
        rw [own,memView_mm,hmm]
        fin_cases k <;> rfl
      | stack t k =>
        by_cases ht : t=0
        · subst ht
          rfl
        · simp [own,System.memView,System.single,ht,Task.zero,nonNull]
      | cache i => rfl
    simp [Owners.count,hown]
  · rw [hmm]
    exact .zero

/-- The switch to task `t` and its act. -/
def System.turn (s : System) (t : TaskIx) (a : UserAct) : System :=
  ((a.perform t).run {s with current := some t}).2

lemma Interleaving.turn {s0 : System} (hrun : Interleaving s0 s) (a : UserAct) (ha : a.Private)
    (halive : (s.tasks t).Alive) : Interleaving s0 (s.turn t a) :=
  (hrun.tail ⟨t,.switch⟩).tail ⟨t,.act a rfl halive ha⟩

/-- Task 1, forked from the first task, maps a page, writes to it and forks task 2. -/
def System.sharedPage : System :=
  ((((System.single .zero).turn 0 (.fork .zero)).turn 1
    (.mmap 0x400000 4096 (protRead ||| protWrite) (mapPrivate ||| mapAnonymous ||| mapFixed) (-1) 0)).turn 1
    (.fault 0x400005 true true false 0)).turn 1 (.store 0x400005 7) |>.turn 1 (.fork .zero)

lemma interleaving_sharedPage : Interleaving (System.single .zero) System.sharedPage := by
  have h1 : Interleaving (System.single .zero) ((System.single .zero).turn 0 (.fork .zero)) :=
    .turn .refl _ trivial (by decide +kernel)
  refine .turn (.turn (.turn (.turn h1 _ ?_ ?_) _ ?_ ?_) _ ?_ ?_) _ ?_ ?_
  · exact (by decide : hasBits (mapPrivate ||| mapAnonymous ||| mapFixed) mapShared=false)
  all_goals first | exact trivial | decide +kernel

theorem copyOnWrite_eager_sharedPage :
    ∃ s, Interleaving (System.single .zero) s ∧ s.userRead 1 0x400005=some 7 ∧
      s.userRead 2 0x400005=some 7 ∧ ∃ s', (taskHandlePageFault 0x400005 true false false 0).run s=(some (),s') ∧
        s'.userRead 1 0x400005=some 7 ∧ s'.userRead 2=s.userRead 2 := by
  obtain ⟨s,hrun,h1,h2,hcur,halive1,halive2,hfault⟩ : ∃ s, Interleaving (System.single .zero) s ∧
      s.userRead 1 0x400005=some 7 ∧ s.userRead 2 0x400005=some 7 ∧ s.current=some 1 ∧
      (s.tasks 1).Alive ∧ (s.tasks 2).Alive ∧
      ((taskHandlePageFault 0x400005 true false false 0).run s).1=some () :=
    ⟨_,interleaving_sharedPage,by decide +kernel⟩
  obtain ⟨hother,-,hself,-⟩ := copyOnWrite_eager private_single hrun
  refine ⟨s,hrun,h1,h2,_,Prod.ext hfault rfl,?_,?_⟩
  · rcases hself 1 (.fault 0x400005 true false false 0) hcur halive1 trivial 0x400005 with hnone | hkept
    · rw [h1] at hnone
      cases hnone
    · exact hkept.trans h1
  · exact hother 1 _ 2 (.act (.fault 0x400005 true false false 0) hcur halive1 trivial) (by decide) halive2

/-- In every interleaving a page that a task may write is mapped at no other address and by no other
task, and no page that has an owner is free. -/
theorem interleaving_pages {s0 : System} (h0 : s0.Private) (hrun : Interleaving s0 s) :
    (∀ t t' va va' e e', taskGetUserPte (s.mm t) va=some e → e.valid=true →
      taskPteIsUserWritable e=true → taskGetUserPte (s.mm t') va'=some e' → e'.valid=true →
      e'.pa=e.pa → t'=t ∧ va'=va) ∧
    ∀ o p, s.memView.own o=some p → p∉s.phys.freePages := by
  have h := hrun.isPrivate h0
  constructor
  · intro t t' va va' e e' he hv hw he' hv' hpa
    obtain ⟨i,up,hi,hva,hup⟩ := (h.sound t').mapped va' e' he' hv'
    obtain ⟨ht,hsame⟩ := h.written he hv hw hi (hup.trans hpa)
    exact ⟨ht,hva.symm.trans hsame⟩
  · intro o p ho hfree
    have hone := one_le_count ho
    have hcount := h.ok.counted p
    rw [(h.ok.phys.free p hfree).2.1] at hcount
    omega

/-- Task 1 writes its copy of the page, and task 2 unmaps the page. -/
def System.copiedPage : System :=
  ((System.sharedPage.turn 1 (.fault 0x400005 true false false 0)).turn 1 (.store 0x400005 9)).turn 2
    (.munmap 0x400000 4096)

lemma interleaving_copiedPage : Interleaving (System.single .zero) System.copiedPage := by
  refine .turn (.turn (.turn interleaving_sharedPage _ ?_ ?_) _ ?_ ?_) _ ?_ ?_
  all_goals first | exact trivial | decide +kernel

theorem interleaving_pages_copied :
    ∃ s e p, Interleaving (System.single .zero) s ∧ taskGetUserPte (s.mm 1) 0x400000=some e ∧
      s.phys.freePages=[p] ∧ (∀ o, s.memView.own o≠some p) ∧
      ∀ t va e', taskGetUserPte (s.mm t) va=some e' → e'.valid=true → e'.pa=e.pa → t=1 ∧ va=0x400000 := by
  obtain ⟨s,hrun,e,p,he,hv,hw,hp⟩ : ∃ s, Interleaving (System.single .zero) s ∧ ∃ e p,
      taskGetUserPte (s.mm 1) 0x400000=some e ∧ e.valid=true ∧ taskPteIsUserWritable e=true ∧
      s.phys.freePages=[p] :=
    ⟨_,interleaving_copiedPage,⟨true,1078104064,⟨.el0Rw,true,false⟩⟩,1078018048,by decide +kernel⟩
  obtain ⟨hwritten,hfree⟩ := interleaving_pages private_single hrun
  refine ⟨s,e,p,hrun,he,hp,fun o ho => ?_,fun t va e' he' hv' hpa => ?_⟩
  · exact hfree o p ho (hp ▸ List.mem_singleton_self p)
  · exact hwritten 1 t 0x400000 va e e' he hv hw he' hv' hpa

end Steps
end FuriOS
