import FuriOS.Task.Frames
import FuriOS.Task.Calls

/-! Properties that survive closing descriptors and freeing slots. A property of the process side
only has to survive the few changes these functions make there; the memory side is framed away. -/
namespace FuriOS
open Prog

instance still_freeTaskPages (k : Task) : Phys.Still (freeTaskPages k) where
  still m := by
    have hfree (p : ℕ) (m : Phys) := (Phys.Still.freePage p).still m
    unfold freeTaskPages
    dsimp only
    split_ifs
    · simp only [hfree,and_self]
    · generalize pageRange _ _=l
      induction l using List.reverseRecOn with
      | nil => simp only [List.foldl_nil,hfree,and_self]
      | append_singleton l p ih => simpa only [List.foldl_append,List.foldl_cons,List.foldl_nil,hfree] using ih

namespace AsideMm
variable {I : System → Prop} (h : AsideMm I)
include h

lemma unmapUser (t : TaskIx) : Preserves I (taskUnmapUser t) := by
  refine (Preserves.forEach (fun i => ?_) _).bind fun _ => h.modifyMm t _
  refine .gets fun o => ?_
  split
  · exact .of_pure _
  · exact (h.writebackAt t _).ignore.bind fun _ => h.modifyPhys _

lemma fdFlush (f : Fd) : Preserves I (fdFlush f) := by
  unfold FuriOS.fdFlush
  refine .gets fun s => ?_
  split
  · exact h.toAsidePages.flushMatch _ _
  · exact .of_pure _

end AsideMm

/-- A property of the process side that survives the end of a descriptor. -/
structure ProcInv (I : System → Prop) : Prop extends AsideMm I where
  close : ∀ s t fd f, (s.tasks t).fds fd=some f → I s → I (wakeFd f (clearFd t fd f s))

lemma ProcInv.of_parts {I : System → Prop} (aside : AsideMm I)
    (pipes : ∀ s p, I s → I {s with pipes := p})
    (fds : ∀ s t fd, I s → I (s.setTask t fun k => {k with fds := k.fds.clear fd}))
    (wake : ∀ s p, I s → I (taskWakePipe p s)) : ProcInv I where
  toAsideMm := aside
  close s t fd f _ hs := by
    have hdrop : I (taskFdDrop f s) := by
      unfold taskFdDrop
      split
      · exact pipes s _ hs
      · exact pipes s _ hs
      · exact hs
    have hclear : I (clearFd t fd f s) := fds _ t fd hdrop
    unfold wakeFd
    split_ifs
    · cases f.pipe with
      | none => exact hclear
      | some p => exact wake _ p hclear
    · exact hclear

namespace ProcInv
variable {I : System → Prop} (h : ProcInv I)
include h

lemma fdClose {s : System} {t : TaskIx} {fd : Fin maxFds} {f : Fd} (hs : I s)
    (hf : (s.tasks t).fds fd=some f) : Ends I (taskFdClose t fd f) s := by
  have hflush : Ends (fun s' => I s' ∧ s'.procView=s.procView) (FuriOS.fdFlush f).attempt s :=
    ⟨h.fdFlush f s hs,(asideMm_procView s.procView).fdFlush f s rfl⟩
  refine .bind hflush (fun s' h' => h'.1) fun ok s' h' => ?_
  have hf' : (s'.tasks t).fds fd=some f := by
    have := congrArg (fun v : ProcView => (v.tasks t).fds fd) h'.2
    exact this.trans hf
  exact h.close s' t fd f hf' h'.1

lemma closeAllFds (t : TaskIx) : Preserves I (closeAllFds t) := by
  refine .forEach (fun fd => .gets_bind fun s hs => ?_) _
  cases hf : (s.tasks t).fds fd with
  | none => exact hs
  | some f => exact h.fdClose hs hf

end ProcInv

/-- A property that also survives freeing slot `i`. -/
structure ReapInv (I : System → Prop) (i : TaskIx) : Prop extends ProcInv I where
  initGone : ∀ s, I s → (s.tasks i).pid=s.initPid → I {s with initPid := -1}
  reaped : ∀ s, I s → s.current=some i → I {s with currentReaped := true}
  release : ∀ s, I s →
    I (s.setTask i fun k => {k with mm := k.mm.dropTables, kstackBase := 0, tf := .zero})
  zero : ∀ s, I s → I (s.setTask i fun _ => Task.zero)

namespace ReapInv
variable {I : System → Prop} {i : TaskIx} (h : ReapInv I i)
include h

lemma reapSlot : Preserves I (taskReapSlot i) := by
  have hrelease : Preserves I (taskRelease i) :=
    (h.closeAllFds i).bind fun _ => (h.unmapUser i).bind fun _ => (h.modifyMm i _).bind fun _ =>
    (Preserves.of_gets _).bind fun k => (h.modifyPhys (freeTaskPages k)).bind fun _ =>
    .of_modify fun s hs => h.release s hs
  refine (Preserves.of_modify fun s hs => ?_).bind fun _ => (Preserves.of_modify fun s hs => ?_).bind
    fun _ => hrelease.bind fun _ => .of_modify fun s hs => h.zero s hs
  · split_ifs with hp
    · exact h.initGone s hs hp
    · exact hs
  · split_ifs with hc
    · exact h.reaped s hs hc
    · exact hs

end ReapInv

/-- A property that survives the end of any task. -/
structure ExitInv (I : System → Prop) : Prop extends ProcInv I where
  reap : ∀ i, Preserves I (taskReapSlot i)
  exited : ∀ s t code, I s → I (s.setTask t fun k => k.exited code)
  ppid : ∀ s t p, I s → I (s.setTask t fun k => {k with ppid := p})
  notify : ∀ s t ev, I s → I (taskNotifySigchld t ev s)
  wake : ∀ s pid, I s → I (taskWakeWaiters pid s)

namespace ExitInv
variable {I : System → Prop} (h : ExitInv I)
include h

lemma reparentChildren (old : ℤ) : Preserves I (taskReparentChildren old) := by
  have htell (pid : ℤ) (i : TaskIx) (ev : ChildEvent) :
      Preserves I (Prog.modify fun s => taskWakeWaiters pid (taskNotifySigchld i ev s)) :=
    .of_modify fun s hs => h.wake _ _ (h.notify s i ev hs)
  unfold taskReparentChildren reparentChild
  refine .gets fun _ => .when fun _ => .forEach (fun i => .gets fun child =>
    .when fun _ => .bind (.of_modify fun s hs => h.ppid s i _ hs) fun _ => .when fun _ => ?_) _
  exact .ite (fun _ => .gets fun _ => .ite (fun _ => h.reap i) fun _ => htell _ _ _)
    fun _ => .ite (fun _ => htell _ _ _) fun _ => .when fun _ => htell _ _ _

lemma forceExit (t : TaskIx) (code : ℤ) : Preserves I (taskForceExit t code) := by
  unfold taskForceExit
  exact .gets fun _ => .when fun _ => .bind (h.closeAllFds t) fun _ =>
    .bind (.of_modify fun s hs => h.exited s t code hs) fun _ =>
    .bind (.of_modify fun s hs => h.notify s t _ hs) fun _ => .bind (h.reparentChildren _) fun _ =>
    .bind (.of_modify fun s hs => h.wake s _ hs) fun _ => .when fun _ => h.reap t

end ExitInv

/-- A property of the bump region and of the next number only. -/
structure CountInv (I : System → Prop) : Prop where
  rest : ∀ s s', s'.phys=s.phys → s'.nextPid=s.nextPid → I s → I s'
  phys : ∀ s m, m.cur=s.phys.cur → m.limit=s.phys.limit → I s → I (s.setPhys m)
  alloc : ∀ s, I s → I (s.setPhys (pmmAllocPage.run s.phys).2)

namespace CountInv
variable {I : System → Prop} (h : CountInv I)
include h

lemma notify (s : System) (t : TaskIx) (ev : ChildEvent) (hs : I s) : I (taskNotifySigchld t ev s) := by
  unfold taskNotifySigchld
  split
  · exact hs
  dsimp only
  split_ifs <;> exact h.rest s _ rfl rfl hs

lemma wake (s : System) (pid : ℤ) (hs : I s) : I (taskWakeWaiters pid s) := by
  unfold taskWakeWaiters
  split <;> exact h.rest s _ rfl rfl hs

lemma asideMm : AsideMm I :=
  ⟨⟨h.phys,h.alloc,fun s _ => h.rest s _ rfl rfl,fun s _ _ => h.rest s _ rfl rfl,
    fun s _ => h.rest s _ rfl rfl,fun s _ => h.rest s _ rfl rfl⟩,fun s _ _ => h.rest s _ rfl rfl⟩

lemma exitInv : ExitInv I := by
  have hproc : ProcInv I := .of_parts h.asideMm (fun s _ => h.rest s _ rfl rfl)
    (fun s _ _ => h.rest s _ rfl rfl) fun s _ => h.rest s _ rfl rfl
  exact ⟨hproc,fun i => ReapInv.reapSlot ⟨hproc,fun s hs _ => h.rest s _ rfl rfl hs,
    fun s hs _ => h.rest s _ rfl rfl hs,fun s => h.rest s _ rfl rfl,fun s => h.rest s _ rfl rfl⟩,
    fun s _ _ => h.rest s _ rfl rfl,fun s _ _ => h.rest s _ rfl rfl,h.notify,h.wake⟩

end CountInv

/-! None of the functions that end a task returns with failure. -/

lemma total_closeAllFds (t : TaskIx) : Total (closeAllFds t) := by
  refine .forEach (fun fd => .gets fun o => ?_) _
  split
  · exact .of_pure _
  · exact .of_ignore _

lemma total_taskRelease (t : TaskIx) : Total (taskRelease t) := by
  have hunmap : Total (taskUnmapUser t) := by
    unfold taskUnmapUser
    refine .bind (.forEach (fun i => ?_) _) fun _ => .of_modify _
    refine .gets fun o => ?_
    split
    · exact .of_pure _
    · exact .bind (.of_ignore _) fun _ => .of_modify _
  unfold taskRelease
  exact .bind (total_closeAllFds t) fun _ => .bind hunmap fun _ => .bind (.of_modify _) fun _ =>
    .gets fun _ => .bind (.of_modify _) fun _ => .of_modify _

lemma total_taskReapSlot (t : TaskIx) : Total (taskReapSlot t) := by
  unfold taskReapSlot
  exact .bind (.of_modify _) fun _ => .bind (.of_modify _) fun _ => .bind (total_taskRelease t) fun _ =>
    .of_modify _

lemma total_taskReapOrphanZombies (e : Option TaskIx) : Total (taskReapOrphanZombies e) :=
  (Total.of_gets _).bind fun _ => .when (.forEach (fun i => (Total.of_gets _).bind fun _ =>
    .when (total_taskReapSlot i)) _)

lemma total_taskForceExit (t : TaskIx) (code : ℤ) : Total (taskForceExit t code) := by
  have hchild (old : ℤ) (init : Option TaskIx) (new : ℤ) (i : TaskIx) :
      Total (reparentChild old init new i) := by
    unfold reparentChild
    exact .gets fun _ => .when (.bind (.of_modify _) fun _ => .when (.ite
      (.gets fun _ => .ite (total_taskReapSlot i) (.of_modify _))
      (.ite (.of_modify _) (.when (.of_modify _)))))
  have hchildren (pid : ℤ) : Total (taskReparentChildren pid) := by
    unfold taskReparentChildren
    exact .gets fun _ => .when (.forEach (hchild _ _ _) _)
  unfold taskForceExit
  exact .gets fun _ => .when (.bind (total_closeAllFds t) fun _ => .bind (.of_modify _)
    fun _ => .bind (.of_modify _) fun _ => .bind (hchildren _) fun _ => .bind (.of_modify _) fun _ =>
    .when (total_taskReapSlot t))

end FuriOS
