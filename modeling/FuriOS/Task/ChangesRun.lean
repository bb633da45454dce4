import FuriOS.Task.Changes
import FuriOS.Task.TableExit

/-! The calls of the current task and the scheduler as sequences of changes. -/
namespace FuriOS
open Prog

/-- A row that belongs to the same task as before. -/
structure Row.SameTask (r r' : Row) : Prop where
  pid : r'.pid=r.pid
  ppid : r'.ppid=r.ppid
  pgid : r'.pgid=r.pgid
  unused : r'.phase=.unused ↔ r.phase=.unused

namespace Row.SameTask

lemma refl (r : Row) : SameTask r r := ⟨rfl,rfl,rfl,Iff.rfl⟩

lemma trans {r r' r'' : Row} (h : SameTask r r') (h' : SameTask r' r'') : SameTask r r'' :=
  ⟨h'.pid.trans h.pid,h'.ppid.trans h.ppid,h'.pgid.trans h.pgid,h'.unused.trans h.unused⟩

lemma of_woken {r r' : Row} (h : r.Woken r') : SameTask r r' := ⟨h.pid,h.ppid,h.pgid,h.unused⟩

end Row.SameTask

section Same
variable {s s' : System} {self t v i : TaskIx} {sig : ℕ} {pid : ℤ}

/-- The same tasks with the same numbers. -/
structure SameTasks (s s' : System) : Prop where
  initPid : s'.initPid=s.initPid
  rows : ∀ j, (s.tasks j).row.SameTask (s'.tasks j).row

lemma SameTasks.refl (s : System) : SameTasks s s := ⟨rfl,fun _ => .refl _⟩

lemma SameTasks.trans {s'' : System} (h : SameTasks s s') (h' : SameTasks s' s'') : SameTasks s s'' :=
  ⟨h'.initPid.trans h.initPid,fun j => (h.rows j).trans (h'.rows j)⟩

lemma SameTasks.of_table {T : ProcTable} (h : s'.procTable=T) (hi : T.initPid=s.initPid)
    (hr : ∀ j, (s.tasks j).row.SameTask (T.rows j)) : SameTasks s s' := by
  subst h
  exact ⟨hi,hr⟩

lemma SameTasks.set {r : Row} (h : s'.procTable=s.procTable.set t r ∨
    ∃ pid, s'.procTable=(s.procTable.set t r).wakeWaiters pid) (hr : (s.tasks t).row.SameTask r) :
    SameTasks s s' := by
  have hset (j : TaskIx) : (s.tasks j).row.SameTask ((s.procTable.set t r).rows j) := by
    by_cases hj : j=t
    · subst hj
      rwa [ProcTable.set_self]
    · rw [ProcTable.set_of_ne hj]
      exact .refl _
  rcases h with h | ⟨pid,h⟩
  · exact .of_table h rfl hset
  · exact .of_table h (ProcTable.wakeWaiters_initPid pid)
      fun j => (hset j).trans (.of_woken (ProcTable.wakeWaiters_woken pid j))

lemma sameTasks_setSig {f : SignalState → SignalState} (h : (f (s.tasks t).sig).actions=(s.tasks t).sig.actions) :
    SameTasks s (s.setTask t fun k => k.setSig (f k.sig)) :=
  .of_table (procTable_setTask_same (row_setSig h)) rfl fun _ => .refl _

lemma sameTasks_stopTask (h : (s.tasks t).state≠.unused) : SameTasks s (stopTask t sig s) :=
  .set (.inr ⟨_,procTable_stopTask sig⟩) ⟨rfl,rfl,rfl,by simpa [Task.row] using h⟩

lemma sameTasks_continueTask (h : (s.tasks t).state≠.unused) : SameTasks s (continueTask t s) :=
  .set (.inr ⟨_,procTable_continueTask⟩) ⟨rfl,rfl,rfl,by simpa [Task.row] using h⟩

lemma sameTasks_wake (r : Bool) : SameTasks s (s.setTask t fun k => taskSignalWakeWaiter k r) :=
  .set (.inl procTable_setTask) (.of_woken (row_signalWakeWaiter _ r))

lemma sameTasks_signalQueued : SameTasks s (signalQueued v sig s) :=
  sameTasks_setSig (f := fun g => g.enqueue sig) SignalState.actions_enqueue

lemma SameTasks.used (h : SameTasks s s') (hu : (s.tasks v).state≠.unused) :
    (s'.tasks v).state≠.unused := by
  have := (h.rows v).unused
  simpa [Task.row,hu] using this

lemma sameTasks_signalCont (hu : (s.tasks v).state≠.unused) : SameTasks s (signalCont v s) := by
  unfold signalCont
  have hclear : SameTasks s (s.setTask v fun k => k.setSig (k.sig.clearPending sigstop)) :=
    sameTasks_setSig SignalState.actions_clearPending
  dsimp only
  split_ifs
  · exact (hclear.trans (sameTasks_continueTask (hclear.used hu))).trans (sameTasks_wake _)
  · exact hclear.trans (sameTasks_wake _)

lemma sameTasks_signalStop (hu : (s.tasks v).state≠.unused) : SameTasks s (signalStop v s) := by
  unfold signalStop
  have hclear : SameTasks s (s.setTask v fun k => k.setSig (k.sig.clearPending sigcont)) :=
    sameTasks_setSig SignalState.actions_clearPending
  dsimp only
  split_ifs
  · exact hclear.trans (sameTasks_stopTask (hclear.used hu))
  · exact hclear

lemma Signalled.sameTasks {hit : Bool} (h : Signalled self v sig s hit s') (hsig : sig≠sigkill) :
    SameTasks s s' := by
  cases h with
  | refused => exact .refl s
  | ignored => exact .refl s
  | killed hv hs he => exact absurd he hsig
  | queued hv => exact sameTasks_signalQueued
  | continued hv =>
    exact sameTasks_signalQueued.trans (sameTasks_signalCont (sameTasks_signalQueued.used hv.1))
  | stopped hv =>
    exact sameTasks_signalQueued.trans (sameTasks_signalStop (sameTasks_signalQueued.used hv.1))
  | woken hv => exact sameTasks_signalQueued.trans (sameTasks_wake _)

lemma killSelects_eq (h : SameTasks s s') : killSelects s' self pid (s'.tasks i)
    = killSelects s self pid (s.tasks i) := by
  have hu : decide ((s'.tasks i).state≠.unused)=decide ((s.tasks i).state≠.unused) := by
    have := (h.rows i).unused
    simpa [Task.row] using this
  have hgi : (s'.tasks i).pgid=(s.tasks i).pgid := (h.rows i).pgid
  have hgs : (s'.tasks self).pgid=(s.tasks self).pgid := (h.rows self).pgid
  have hp : (s'.tasks i).pid=(s.tasks i).pid := (h.rows i).pid
  rw [killSelects,killSelects,hu,hgi,hgs,hp,h.initPid]

end Same

section Signals
variable {L : Licence} {s s' s0 : System} {self v t : TaskIx} {sig : ℕ} {pid : ℤ}

lemma Reach.signalQueued (h : Reach L s0 s) : Reach L s0 (signalQueued v sig s) :=
  h.edit v (fun g => g.enqueue sig) (.enqueue _ sig)

lemma Reach.signalCont (h : Reach L s0 s) (hl : L.cont v) : Reach L s0 (signalCont v s) := by
  unfold FuriOS.signalCont
  have hclear := h.edit v (fun g => g.clearPending sigstop) (.clear _ sigstop)
  dsimp only
  split_ifs with hst
  · exact (hclear.step (.cont _ v hst hl)).step (.wake _ v true)
  · exact hclear.step (.wake _ v true)

lemma Reach.signalStop (h : Reach L s0 s) (hv : (s.tasks v).alive) : Reach L s0 (signalStop v s) := by
  unfold FuriOS.signalStop
  have hclear := h.edit v (fun g => g.clearPending sigcont) (.clear _ sigcont)
  dsimp only
  split_ifs
  · refine hclear.step (.stop _ v sigstop ?_)
    simpa [Task.alive,Task.setSig] using hv
  · exact hclear

lemma Signalled.reach {hit : Bool} (h : Signalled self v sig s hit s') (hr : Reach L s0 s)
    (ha : ¬L.acts) (hl : sig=sigcont → L.cont v) : Reach L s0 s' := by
  cases h with
  | refused => exact hr
  | ignored => exact hr
  | killed hv => exact hr.step (.exit s v _ hv ha)
  | queued => exact hr.signalQueued
  | continued _ _ he => exact hr.signalQueued.signalCont (hl he)
  | stopped hv => exact hr.signalQueued.signalStop (by simpa [Task.alive,Task.setSig,FuriOS.signalQueued] using hv)
  | woken => exact hr.signalQueued.step (.wake _ v _)

lemma ends_taskSignalOne (hr : Reach L s0 s) (ha : ¬L.acts) (hl : sig=sigcont → L.cont v) :
    Ends (Reach L s0) (taskSignalOne self v sig) s := by
  obtain ⟨hit,s',hrun,hsig⟩ := wp_total (taskSignalOne_signalled self v sig s)
  rw [Ends,hrun]
  exact hsig.reach hr ha hl

lemma ends_killGroup (s1 : System) (ha : ¬L.acts)
    (hl : sig=sigcont → ∀ v, killSelects s1 self pid (s1.tasks v)=true → L.cont v)
    (l : List TaskIx) : ∀ s, Reach L s0 s → (sig=sigcont → SameTasks s1 s) →
    Ends (Reach L s0) (killGroup self pid sig l) s := by
  induction l with
  | nil => exact fun s hr _ => hr
  | cons i l ih =>
    intro s hr hsame
    obtain ⟨hit,s',hrun,hsig⟩ := wp_total (taskSignalOne_signalled self i sig s)
    rw [killGroup]
    refine Ends.gets_bind ?_
    dsimp only [id]
    split_ifs with hsel
    · have hr' : Reach L s0 s' := by
        refine hsig.reach hr ha fun he => hl he i ?_
        rw [← killSelects_eq (hsame he)]
        exact hsel
      have hsame' : sig=sigcont → SameTasks s1 s' := fun he =>
        (hsame he).trans (hsig.sameTasks (by rw [he]; decide))
      have hnext := ih s' hr' hsame'
      unfold Ends at hnext ⊢
      rw [run_bind,hrun]
      dsimp only
      rw [run_bind]
      rcases hl : (killGroup self pid sig l).run s' with ⟨_ | n,s''⟩ <;> rw [hl] at hnext <;> exact hnext
    · exact ih s hr hsame

def killTargets (s : System) (self : TaskIx) (pid : ℤ) (v : TaskIx) : Prop :=
  if 0<pid then taskByPid s pid=some v else killSelects s self pid (s.tasks v)=true

lemma ends_taskKill {sig : ℤ} (hr : Reach L s0 s) (ha : ¬L.acts) (hl : sig=sigcont → ∀ self v,
    s.current=some self → killTargets s self pid v → L.cont v) : Ends (Reach L s0) (taskKill pid sig) s := by
  have hnat (h : sig.toNat=sigcont) : sig=sigcont := by
    change sig.toNat=18 at h
    change sig=18
    omega
  unfold taskKill
  refine Ends.gets_bind ?_
  cases hc : s.current with
  | none => exact hr
  | some self =>
    dsimp only
    split_ifs with hsup hpid
    · exact hr
    · refine Ends.gets_bind ?_
      dsimp only [id]
      cases hv : taskByPid s pid with
      | none => exact hr
      | some v =>
        refine (ends_taskSignalOne hr ha fun he => hl (hnat he) self v hc ?_).bind (fun _ h => h) fun _ _ h => h
        rw [killTargets,if_pos hpid]
        exact hv
    · refine (ends_killGroup s ha (fun he v hsel => hl (hnat he) self v hc ?_) _ s hr fun _ => .refl s).bind
        (fun _ h => h) fun _ _ h => h
      rw [killTargets,if_neg hpid]
      exact hsel

lemma preserves_taskForceExit (ha : ¬L.acts) (code : ℤ) : Preserves (Reach L s0) (taskForceExit t code) := by
  intro s hr
  by_cases h : (s.tasks t).alive
  · exact hr.step (.exit s t code h ha)
  · have hrun : (taskForceExit t code).run s=(some (),s) := by
      have hc : ((s.tasks t).state≠.unused && (s.tasks t).state≠.zombie : Bool)=false := by
        simpa [Task.alive] using h
      rw [taskForceExit,run_bind,run_gets]
      dsimp only [id]
      rw [hc]
      rfl
    rwa [hrun]

end Signals

section Scheduling
variable {L : Licence} {s s' s0 : System} {t i c : TaskIx}

def Choosable (r : Option TaskIx) (s : System) : Prop :=
  ∀ i, r=some i → (s.tasks i).state=.runnable

/-- Delivery to a runnable task never meets a stopped one, so it continues nobody; a task that may
run is still runnable. -/
lemma wp_deliverLoop_reach (ha : ¬L.acts) (fuel : ℕ) : ∀ s, Reach L s0 s → (s.tasks t).state=.runnable →
    wp (deliverLoop t fuel) (fun ok s' => Reach L s0 s' ∧ (ok=true → (s'.tasks t).state=.runnable))
      (Reach L s0) s := by
  induction fuel with
  | zero => exact fun s hr hst => ⟨hr,fun _ => hst⟩
  | succ fuel ih =>
    intro s hr hst
    rw [deliverLoop,wp_gets_bind,wp_bind,modifyTask,wp_modify]
    obtain ⟨s1,hs1⟩ : ∃ s1, s1=s.setTask t fun k => k.setSig k.sig.pickPending.2 := ⟨_,rfl⟩
    have hr1 : Reach L s0 s1 := hs1 ▸ hr.edit t (fun g => g.pickPending.2) (.pick _)
    have hst1 : (s1.tasks t).state=.runnable := by
      rw [hs1]
      simpa [Task.setSig] using hst
    rw [← hs1]
    have hexit (code : ℤ) : wp (do
        taskForceExit t code
        pure false) (fun ok s' => Reach L s0 s' ∧ (ok=true → (s'.tasks t).state=.runnable))
        (Reach L s0) s1 := by
      rw [wp_bind]
      exact wp_imp ((preserves_taskForceExit ha code).wp hr1) fun _ s' h' => ⟨h',by simp⟩
    split
    · exact ⟨hr1,fun _ => hst1⟩
    rename_i sig _
    split
    · exact ih _ hr1 hst1
    split
    · split
      · rw [wp_modify_bind,if_neg (by simp [hst1])]
        exact ih _ hr1 hst1
      · rw [wp_modify_bind,wp_pure,if_pos (by simp [hst1])]
        exact ⟨hr1.step (.stop _ t sig ⟨by simp [hst1],by simp [hst1]⟩),by simp⟩
      · exact hexit _
    split
    · refine ⟨hr1.edit t (fun g => g.enqueue sig) (.enqueue _ sig),fun _ => ?_⟩
      simpa [Task.setSig] using hst1
    split
    · exact hexit _
    · refine ⟨hr1.step (.enter _ t sig),fun _ => ?_⟩
      simpa [Task.enterHandler] using hst1

lemma wp_runnableLoop_reach (ha : ¬L.acts) (fuel : ℕ) : ∀ r s, Reach L s0 s → Choosable r s →
    wp (runnableLoop fuel r) (fun r' s' => Reach L s0 s' ∧ Choosable r' s') (Reach L s0) s := by
  induction fuel with
  | zero => exact fun r s hr _ => hr
  | succ fuel ih =>
    intro r s hr hch
    cases r with
    | none => exact ⟨hr,hch⟩
    | some next =>
      have hst := hch next rfl
      rw [runnableLoop,wp_bind,taskDeliverPendingSignal,wp_gets_bind,if_neg (by simp [hst])]
      refine wp_imp (wp_deliverLoop_reach ha 32 s hr hst) fun ok s' h' => ?_
      rw [wp_gets_bind]
      split
      · rename_i hok
        simp only [Bool.and_eq_true] at hok
        refine ⟨h'.1,fun i hi => ?_⟩
        obtain rfl := Option.some.inj hi
        exact h'.2 hok.1.1.1
      · exact ih _ s' h'.1 fun i hi => runnable_next hi

lemma wp_orIdle_reach (late : ℕ) {r : Option TaskIx} (hr : Reach L s0 s) (hch : Choosable r s) :
    wp (orIdle late r) (fun i s' => Reach L s0 s' ∧ (s'.tasks i).state=.runnable) (Reach L s0) s := by
  cases r with
  | some next => exact ⟨hr,hch next rfl⟩
  | none =>
    rw [orIdle,idleLoop,wp_gets_bind]
    split
    · exact hr
    · rw [wp_modify_bind,wp_modify_bind,wp_gets_bind]
      generalize hs1 : taskWakeSleepers _ _=s1
      have hr1 : Reach L s0 s1 := hs1 ▸ (hr.step (.ticks s _)).step (.quiet _ _ (quiet_wakeSleepers _))
      cases hn : (taskNextRunnable s1 s1.current).or (currentRunnable s1) with
      | none => exact hr1
      | some next => exact ⟨hr1,runnable_next hn⟩

lemma Reach.saveTrap (h : Reach L s0 s) (f : TrapFrame) : Reach L s0 (saveTrap f s) := by
  unfold FuriOS.saveTrap
  split
  · exact h
  · rename_i c _
    refine h.quiet ?_
    by_cases hrun : (s.tasks c).state=.running
    · exact ⟨by simp [Task.row,Task.phase,hrun],rfl,.inr ⟨by simp [hrun],.inr hrun⟩⟩
    · exact ⟨by simp [Task.row,Task.phase,hrun],rfl,.inl (by simp [hrun])⟩

lemma preserves_reapOrphans {e : Option TaskIx} (he : ∀ i, L.holds i → e=some i) :
    Preserves (Reach L s0) (taskReapOrphanZombies e) := by
  refine .gets fun _ => .when fun _ => .forEach (fun i => .gets_bind fun s hr => ?_) _
  dsimp only [id]
  cases hc : (some i≠e && (s.tasks i).state=.zombie && !taskParentAlive s (s.tasks i) : Bool) with
  | false => exact hr
  | true =>
    simp only [Bool.and_eq_true,decide_eq_true_eq,Bool.not_eq_true'] at hc
    exact hr.step (.reapOrphan s i hc.1.2 hc.2 fun hh => hc.1.1 (he i hh).symm)

lemma wp_taskScheduleFromTrap_reach (hr : Reach L s0 s) (ha : ¬L.acts)
    (hh : ∀ i, L.holds i → s.current=some i) (f : TrapFrame) (force : Bool) (late : ℕ × ℕ) :
    wp (taskScheduleFromTrap f force late) (fun _ s' => ∃ s1 next, Reach L s0 s1 ∧
      (s1.tasks next).state=.runnable ∧ s'=switchTo next s1) (Reach L s0) s := by
  have hcur : (FuriOS.saveTrap f s).current=s.current := by
    unfold FuriOS.saveTrap
    split <;> rfl
  rw [taskScheduleFromTrap,wp_modify_bind,wp_gets_bind,wp_bind]
  refine wp_imp ((preserves_reapOrphans fun i hi => hcur.trans (hh i hi)).wp (hr.saveTrap f)) fun _ s1 h1 => ?_
  rw [wp_gets_bind,wp_bind]
  refine wp_imp (wp_orIdle_reach late.1 h1 fun i hi => runnable_first hi) fun first s2 h2 => ?_
  rw [wp_bind]
  refine wp_imp (wp_runnableLoop_reach ha _ _ s2 h2.1 fun i hi => ?_) fun r s3 h3 => ?_
  · obtain rfl := Option.some.inj hi
    exact h2.2
  rw [wp_bind]
  refine wp_imp (wp_orIdle_reach late.2 h3.1 h3.2) fun next s4 h4 => ?_
  rw [wp_modify_bind,wp_gets]
  exact ⟨s4,next,h4.1,h4.2,rfl⟩

end Scheduling

section Calls
variable {L : Licence} {s s' s0 : System} {t i c : TaskIx}

/-- The current task is `c` and may make calls, it is not a child of itself, and a new number is not
that of init. -/
structure Caller (L : Licence) (c : TaskIx) (s : System) : Prop extends MayCall L c s where
  apart : (s.tasks c).ppid≠(s.tasks c).pid
  nextPid : 0<s.nextPid
  initPid : s.initPid<s.nextPid
  holds : ∀ i, L.holds i → i=c

lemma Caller.of_task (h : Caller L c s) (hcur : s'.current=s.current)
    (hu : (s.tasks c).state≠.unused → (s'.tasks c).state≠.unused)
    (hr : (s.tasks c).state=.running → (s'.tasks c).state=.running)
    (hpid : (s'.tasks c).pid=(s.tasks c).pid) (hppid : (s'.tasks c).ppid=(s.tasks c).ppid)
    (hnext : s'.nextPid=s.nextPid) (hinit : s'.initPid<s.nextPid) : Caller L c s' where
  current := hcur.trans h.current
  used := hu h.used
  running hl := hr (h.running hl)
  apart := by
    rw [hpid,hppid]
    exact h.apart
  nextPid := hnext ▸ h.nextPid
  initPid := hnext ▸ hinit
  holds := h.holds

lemma Caller.of_procView (h : Caller L c s) (hv : s'.procView=s.procView) : Caller L c s' := by
  have hproc {α : Type} (f : ProcView → α) : f s'.procView=f s.procView := congrArg f hv
  have hstate : (s'.tasks c).state=(s.tasks c).state := hproc fun v => (v.tasks c).state
  have hinit : s'.initPid=s.initPid := hproc ProcView.initPid
  exact h.of_task (hproc ProcView.current) (fun hu => hstate ▸ hu) (fun hr => hstate.trans hr)
    (hproc fun v => (v.tasks c).pid) (hproc fun v => (v.tasks c).ppid) (hproc ProcView.nextPid)
    (hinit ▸ h.initPid)

lemma Caller.setTask {f : Task → Task} (h : Caller L c s) (hf : t=c →
    (f (s.tasks t)).state=(s.tasks t).state ∧ (f (s.tasks t)).pid=(s.tasks t).pid
      ∧ (f (s.tasks t)).ppid=(s.tasks t).ppid) : Caller L c (s.setTask t f) := by
  have hsame : ((s.setTask t f).tasks c).state=(s.tasks c).state ∧
      ((s.setTask t f).tasks c).pid=(s.tasks c).pid ∧ ((s.setTask t f).tasks c).ppid=(s.tasks c).ppid := by
    by_cases ht : c=t
    · subst ht
      rw [System.setTask_self]
      exact hf rfl
    · rw [System.setTask_of_ne ht]
      exact ⟨rfl,rfl,rfl⟩
  exact h.of_task rfl (fun hu => hsame.1 ▸ hu) (fun hr => hsame.1.trans hr) hsame.2.1 hsame.2.2 rfl h.initPid

lemma reapInv_caller (hi : i≠c) : ReapInv (Caller L c) i where
  toProcInv := .of_parts (.of_view fun _ _ hv h => h.of_procView hv)
    (fun _ _ h => h.of_task rfl id id rfl rfl rfl h.initPid) (fun _ _ _ h => h.setTask fun _ => ⟨rfl,rfl,rfl⟩)
    fun s p h => by
      refine h.of_task rfl (fun hu => ?_) (fun hr => ?_) ?_ ?_ rfl h.initPid <;> unfold taskWakePipe <;> dsimp only
      · split_ifs
        · simp
        · exact hu
      · rw [if_neg (by simp [hr])]
        exact hr
      · split_ifs <;> rfl
      · split_ifs <;> rfl
  initGone s h _ := h.of_task rfl id id rfl rfl rfl (lt_trans (show (-1 : ℤ)<0 by decide) h.nextPid)
  reaped s h hc := absurd (Option.some.inj (hc.symm.trans h.current)) hi
  release _ h := h.setTask fun _ => ⟨rfl,rfl,rfl⟩
  zero s h := h.setTask fun he => absurd he hi

lemma Caller.ne_of_child (h : Caller L c s) (hp : (s.tasks i).ppid=(s.tasks c).pid) : i≠c := by
  rintro rfl
  exact h.apart hp

lemma Reach.settleSigchld (h : Reach L s0 s) (self : TaskIx) :
    Reach L s0 (settleSigchld self s) := by
  unfold FuriOS.settleSigchld
  split
  · exact h
  · exact h.edit self (fun g => g.clearPending sigchld) (.clear _ sigchld)

lemma ends_waitReport (hr : Reach L s0 s) (hc : Caller L c s)
    (hp : (s.tasks i).ppid=(s.tasks c).pid) (options : ℕ) :
    Ends (Reach L s0) (waitReport c i options) s := by
  unfold waitReport
  refine Ends.gets_bind ?_
  have hsettle (r : ℤ × ℤ) (s : System) (h : Reach L s0 s) :
      Ends (Reach L s0) (Prog.modify (settleSigchld c) >>= fun _ => pure r) s := h.settleSigchld c
  split
  · rename_i hz
    have hreap : Ends (Reach L s0) (taskReapSlot i) s :=
      hr.step (.reapChild s i c hc.toMayCall (hc.ne_of_child hp) hp (.inl hz) fun hh =>
        hc.ne_of_child hp (hc.holds i hh))
    exact hreap.bind (fun _ h => h) fun _ s' h => hsettle _ s' h
  split
  · exact Ends.modify_bind (hsettle _ _ (hr.edit i (fun g => {g with stopReportPending := false})
      (.report _ false _ _)))
  · exact Ends.modify_bind (hsettle _ _ (hr.edit i (fun g => {g with contReportPending := false})
      (.report _ _ false _)))

lemma ends_taskWait (hr : Reach L s0 s) (hc : Caller L c s) (hl : L.running ∨ L.acts) (pid : ℤ) (options : ℕ) :
    Ends (Reach L s0) (taskWait pid options) s := by
  unfold taskWait
  refine Ends.gets_bind ?_
  rw [hc.current]
  dsimp only
  split
  · exact hr
  refine Ends.gets_bind ?_
  dsimp only [id]
  split
  · rename_i i hfind
    have hmine := findTask_eq_some hfind
    simp only [Bool.and_eq_true,taskWaitMatchesFilter,decide_eq_true_eq] at hmine
    exact ends_waitReport hr hc hmine.1.2.1 options
  rename_i hnone
  split
  · exact Ends.modify_bind (.of_pure (hr.edit c (fun g => g.clearPending sigchld) (.clear _ sigchld)))
  rename_i hany
  split
  · exact hr
  · refine Ends.modify_bind (.of_pure ?_)
    refine hr.step (.wait s c hc.toMayCall hl pid ?_ ?_)
    · intro j hj hz
      have := List.find?_eq_none.1 hnone j (List.mem_finRange j)
      simp [waitReports,hj.2,hz] at this
    · rw [Bool.not_eq_true,Option.isNone_eq_false_iff] at hany
      obtain ⟨j,hj⟩ := Option.isSome_iff_exists.1 hany
      have := findTask_eq_some hj
      simp only [Bool.and_eq_true,decide_eq_true_eq] at this
      exact ⟨j,this⟩

lemma preserves_reapSigchldZombies :
    Preserves (fun s => Reach L s0 s ∧ Caller L c s) (taskReapSigchldZombies c) := by
  refine .gets fun _ => .when fun _ => .forEach (fun i => .gets_bind fun s hs => ?_) _
  dsimp only [id]
  cases hi : ((s.tasks i).state=.zombie && (s.tasks i).ppid=(s.tasks c).pid : Bool) with
  | false => exact hs
  | true =>
    simp only [Bool.and_eq_true,decide_eq_true_eq] at hi
    have hne := hs.2.ne_of_child hi.2
    exact ⟨hs.1.step (.reapChild s i c hs.2.toMayCall hne hi.2 (.inl hi.1) fun hh => hne (hs.2.holds i hh)),
      (reapInv_caller hne).reapSlot s hs.2⟩

section
variable (hr : Reach L s0 s)
include hr

lemma ends_taskSigaction (hc : Caller L c s) (ha : L.acts) (sig : ℤ)
    (act : Option SigAct) : Ends (Reach L s0) (taskSigaction sig act) s := by
  unfold taskSigaction
  refine Ends.gets_bind ?_
  rw [hc.current]
  dsimp only
  split
  · exact hr
  split
  · exact hr
  rename_i a
  split
  · exact hr
  refine Ends.modify_bind ?_
  have hr' := hr.edit c (fun g => g.setAction sig.toNat a) (.action _ _ a ha)
  have hc' : Caller L c (s.setTask c fun k => k.setSig (k.sig.setAction sig.toNat a)) :=
    hc.setTask fun _ => ⟨rfl,rfl,rfl⟩
  refine Ends.bind (I := Reach L s0) ?_ (fun _ h => h) fun _ _ h => h
  refine Ends.when (fun _ => ?_) fun _ => hr'
  refine (Ends.of_preserves preserves_reapSigchldZombies ⟨hr',hc'⟩).bind (fun _ h => h.1) fun _ s1 h1 => ?_
  exact Ends.of_modify (h1.1.settleSigchld c)

lemma ends_taskSetpgid (pid pgid : ℤ)
    (hl : ∀ self t, s.current=some self → taskByPid s (if pid=0 then (s.tasks self).pid else pid)=some t →
      L.regroup s.procTable t (if pgid=0 then (s.tasks t).pid else pgid)) : Ends (Reach L s0) (taskSetpgid pid pgid) s := by
  unfold taskSetpgid
  refine Ends.gets_bind ?_
  cases hc : s.current with
  | none => exact hr
  | some self =>
    refine Ends.gets_bind ?_
    dsimp only [id]
    split
    · exact hr
    cases ht : taskByPid s (if pid=0 then (s.tasks self).pid else pid) with
    | none => exact hr
    | some t =>
      have hlt := hl self t hc ht
      dsimp only
      generalize (if pgid=0 then (s.tasks t).pid else pgid)=pgid at hlt ⊢
      split
      · exact hr
      · rename_i hok
        have halive : (s.tasks t).alive := by
          have hu := findTask_eq_some ht
          simp only [Bool.and_eq_true,decide_eq_true_eq] at hu
          simp only [Bool.or_eq_true,decide_eq_true_eq,not_or] at hok
          exact ⟨hu.1,hok.1.1⟩
        refine Ends.modify_bind (.of_pure ?_)
        exact hr.step (.regroup s t _ halive hlt)

lemma ends_taskSigprocmask (how : ℤ) (set : BitVec 32) :
    Ends (Reach L s0) (taskSigprocmask how set) s := by
  unfold taskSigprocmask
  refine Ends.gets_bind ?_
  cases s.current with
  | none => exact hr
  | some self =>
    dsimp only
    split_ifs
    · exact hr
    · refine Ends.modify_bind (.of_pure ?_)
      exact hr.edit self (fun g => {g with signalMask := newMask how set g.signalMask}) (.mask _ how set)

lemma ends_taskSigreturn (f : TrapFrame) :
    Ends (Reach L s0) (taskSigreturn f) s := by
  unfold taskSigreturn
  refine Ends.gets_bind ?_
  cases s.current with
  | none => exact hr
  | some self =>
    refine Ends.gets_bind ?_
    dsimp only
    split_ifs
    · exact hr
    · refine Ends.modify_bind (.of_pure ?_)
      exact hr.edit self (fun g => {g with
        signalMask := (s.tasks self).sig.savedMask, active := false, activeNum := 0, savedMask := 0})
        (.sigreturn _)

end

lemma preserves_execCurrent (elf : Buf) (elfSize : ℕ) (argv : List Bytes) (random : Buf) :
    Preserves (Reach L s0) (execCurrent elf elfSize argv random) := by
  unfold execCurrent currentTask
  refine .bind (.gets fun o => ?_) fun t => ?_
  · split
    · exact .of_pure _
    · exact .of_fail
  · refine .bind ((AsideMm.of_view fun _ _ hv h => h.step (.aside hv)).loadElf
      (fun _ _ h => h.quiet ⟨rfl,rfl,.inl rfl⟩) _ _ _ _) fun _ => .of_modify fun s h => ?_
    exact h.edit t SignalState.resetForExec (.exec _)

lemma ends_taskBlockOn (hr : Reach L s0 s) (hc : Caller L c s) (hl : L.running ∨ L.acts) {kind : WaitKind}
    (hk : kind≠.child) (obj : Option ℕ) (wakeTick : ℕ) : Ends (Reach L s0) (taskBlockOn kind obj wakeTick) s := by
  unfold taskBlockOn
  refine Ends.gets_bind ?_
  rw [hc.current]
  exact Ends.of_modify (hr.step (.block s c hc.toMayCall hl kind hk obj wakeTick))

lemma ends_taskMarkExit (hr : Reach L s0 s) (ha : ¬L.acts) (code : ℤ) : Ends (Reach L s0) (taskMarkExit code) s := by
  unfold taskMarkExit
  refine Ends.gets_bind ?_
  cases s.current with
  | none => exact hr
  | some self => exact preserves_taskForceExit ha _ s hr

/-- A new slot: it is not the current one, and nobody's child yet. -/
structure NewSlot (L : Licence) (c i : TaskIx) (s : System) : Prop where
  caller : Caller L c s
  ne : i≠c
  state : (s.tasks i).state=.runnable
  ppid : (s.tasks i).ppid=0
  notInit : (s.tasks i).pid≠s.initPid

lemma wp_taskAlloc_reach (hr : Reach L s0 s) (hc : Caller L c s) :
    wp taskAlloc (fun i s' => Reach L s0 s' ∧ NewSlot L c i s') (Reach L s0) s := by
  rw [taskAlloc,wp_gets_bind]
  refine wp_require_of hr fun _ => ?_
  split
  · exact hr
  rename_i i hfind
  have hst : (s.tasks i).state=.unused := by simpa using findTask_eq_some hfind
  have hne : i≠c := by
    rintro rfl
    exact hc.used hst
  rw [wp_bind,modifyTask,wp_modify,wp_bind]
  have hr1 : Reach L s0 (s.setTask i fun _ => Task.zero) := hr.step (.clear s i hst)
  have hc1 : Caller L c (s.setTask i fun _ => Task.zero) := hc.setTask fun he => absurd he hne
  have hview : Keeps System.procView (onPhys (pmmAlloc taskKstackSize pageSize)) := .of_zoom _ fun _ _ => rfl
  refine wp_mono hview.wp (fun kstack s2 h2 => ?_) fun s2 h2 => hr1.step (.aside h2)
  have hr2 : Reach L s0 s2 := hr1.step (.aside h2)
  have hc2 : Caller L c s2 := hc1.of_procView h2
  have hst2 : (s2.tasks i).state=.unused := by
    have : (s2.tasks i).state=((s.setTask i fun _ => Task.zero).tasks i).state :=
      congrArg (fun v : ProcView => (v.tasks i).state) h2
    rw [this,System.setTask_self]
    rfl
  have hnext : (id s).nextPid=s2.nextPid := (congrArg ProcView.nextPid h2).symm
  rw [hnext,wp_bind,modifyTask,wp_modify,wp_modify_bind,wp_pure]
  have hc3 : Caller L c (s2.setTask i fun _ => Task.fresh s2.nextPid kstack) :=
    hc2.setTask fun he => absurd he hne
  have hself : (s2.setTask i fun _ => Task.fresh s2.nextPid kstack).tasks i
      = Task.fresh s2.nextPid kstack := System.setTask_self ..
  have hnext2 := hc2.nextPid
  have hinit2 := hc2.initPid
  refine ⟨hr2.step (.spawn s2 i kstack hst2),⟨⟨hc3.current,hc3.used,hc3.running⟩,hc3.apart,?_,?_,hc3.holds⟩,
    hne,?_,?_,?_⟩
  · change 0<s2.nextPid+1
    omega
  · change s2.initPid<s2.nextPid+1
    omega
  · exact congrArg Task.state hself
  · exact congrArg Task.ppid hself
  · have hpid : ((s2.setTask i fun _ => Task.fresh s2.nextPid kstack).tasks i).pid=s2.nextPid :=
      congrArg Task.pid hself
    change ((s2.setTask i fun _ => Task.fresh s2.nextPid kstack).tasks i).pid≠s2.initPid
    omega

lemma ends_taskFork (hr : Reach L s0 s) (hc : Caller L c s) (ha : L.acts) (tf : TrapFrame) :
    Ends (Reach L s0) (taskFork tf) s := by
  refine Ends.of_wp ?_
  rw [taskFork,wp_bind,currentTask,wp_gets_bind,hc.current,wp_pure,wp_gets_bind]
  refine wp_require_of hr fun _ => ?_
  rw [wp_bind]
  refine wp_imp (wp_taskAlloc_reach hr hc) fun i s1 h1 => ?_
  obtain ⟨hr1,hnew⟩ := h1
  rw [wp_gets_bind,wp_bind,modifyTask,wp_modify]
  obtain ⟨s2,hs2⟩ : ∃ s2, s2=s1.setTask i fun k =>
    {k with ppid := (s1.tasks c).pid, pgid := (s1.tasks c).pgid} := ⟨_,rfl⟩
  have hr2 : Reach L s0 s2 := hs2 ▸ hr1.step (.adopt s1 i c ha hnew.caller.toMayCall hnew.ne hnew.state
    hnew.ppid hnew.notInit)
  have hc2 : Caller L c s2 := hs2 ▸ hnew.caller.setTask fun he => absurd he hnew.ne
  have hchild : (s2.tasks i).state=.runnable ∧ (s2.tasks i).ppid=(s2.tasks c).pid := by
    subst hs2
    rw [System.setTask_self,System.setTask_of_ne hnew.ne.symm]
    exact ⟨hnew.state,rfl⟩
  rw [← hs2,wp_bind,wp_attempt]
  refine wp_mono (((asideMm_procView s2.procView).forkPages c i).wp rfl) (fun _ s3 h3 => ?_) fun s3 h3 => ?_
  · have hr3 : Reach L s0 s3 := hr2.step (.aside h3)
    have hst3 : (s3.tasks i).state=.runnable :=
      (congrArg (fun v : ProcView => (v.tasks i).state) h3).trans hchild.1
    rw [wp_gets_bind,wp_bind,modifyTask,wp_modify,wp_modify_bind,wp_pure,refFds_eq]
    exact (hr3.step (.inherit s3 i c tf ha hst3)).step (.pipes _ _)
  · have hr3 : Reach L s0 s3 := hr2.step (.aside h3)
    have hp3 : (s3.tasks i).ppid=(s3.tasks c).pid := by
      have hi : (s3.tasks i).ppid=(s2.tasks i).ppid := congrArg (fun v : ProcView => (v.tasks i).ppid) h3
      have hcur : (s3.tasks c).pid=(s2.tasks c).pid := congrArg (fun v : ProcView => (v.tasks c).pid) h3
      rw [hi,hcur,hchild.2]
    have hst3 : (s3.tasks i).state=.runnable :=
      (congrArg (fun v : ProcView => (v.tasks i).state) h3).trans hchild.1
    have hreap : Ends (Reach L s0) (taskReapSlot i) s3 :=
      hr3.step (.reapChild s3 i c (hc2.of_procView h3).toMayCall hnew.ne hp3 (.inr hst3) fun hh =>
        hnew.ne (hc2.holds i hh))
    rw [wp_bind]
    exact wp_imp hreap.wp fun _ _ h => h

end Calls

end FuriOS
