import FuriOS.Task.ProcRun

/-! Stopping and continuing. A kill signals each of its targets once; what the other targets get
leaves a task as it is, apart from a wait that may end. So the effect of `SIGCONT` and of
`SIGSTOP` on a task is that of the one signal, and a stopped task stays so in every run until the
next `SIGCONT` for it. -/
namespace FuriOS
open Prog Relation

/-- What decides about stopping and continuing the task is as before; at most a wait has ended. -/
structure Untouched (v : TaskIx) (s s' : System) : Prop where
  state : (s'.tasks v).state=(s.tasks v).state ∨
    (s.tasks v).state=.waiting ∧ (s'.tasks v).state=.runnable
  stop : (s'.tasks v).sig.isPending sigstop=(s.tasks v).sig.isPending sigstop
  handler : (s'.tasks v).sig.handler sigcont=(s.tasks v).sig.handler sigcont
  mask : (s'.tasks v).sig.signalMask=(s.tasks v).sig.signalMask

section One
variable {s s' s'' : System} {self u v : TaskIx} {sig : ℕ} {hit : Bool}

namespace Untouched

lemma of_eq (h : s'.tasks v=s.tasks v) : Untouched v s s' := by
  constructor <;> rw [h]
  exact .inl rfl

lemma refl (s : System) : Untouched v s s := of_eq rfl

lemma trans (h : Untouched v s s') (h' : Untouched v s' s'') : Untouched v s s'' := by
  refine ⟨?_,h'.stop.trans h.stop,h'.handler.trans h.handler,h'.mask.trans h.mask⟩
  rcases h.state with hs | ⟨hw,hs⟩
  · rw [← hs]
    exact h'.state
  · rcases h'.state with hs' | ⟨hw',-⟩
    · exact .inr ⟨hw,hs'.trans hs⟩
    · rw [hs] at hw'
      cases hw'

lemma setTask (f : Task → Task) (hu : u≠v) : Untouched v s (s.setTask u f) :=
  of_eq (System.setTask_of_ne hu.symm)

lemma state_eq (h : Untouched v s s') (hw : (s.tasks v).state≠.waiting) :
    (s'.tasks v).state=(s.tasks v).state := h.state.resolve_right fun hr => hw hr.1

lemma alive (h : Untouched v s s') (hv : (s.tasks v).alive) : (s'.tasks v).alive := by
  rcases h.state with hs | ⟨-,hs⟩
  · rw [Task.alive,hs]
    exact hv
  · rw [Task.alive,hs]
    decide

end Untouched

lemma isPending_enqueue_sigchld (g : SignalState) :
    (g.enqueue sigchld).isPending sigstop=g.isPending sigstop := by
  have hadd : g.enqueue sigchld=g.addPending sigchld := by
    rw [SignalState.enqueue,if_neg (by decide),if_neg (by decide),if_neg (by decide)]
  rw [hadd,SignalState.addPending]
  split_ifs
  · rfl
  · rw [SignalState.isPending_insert (by decide) (by decide)]
    simp
  · rw [SignalState.isPending_insert (by decide) (by decide) g.signalQueue]
    simp

lemma untouched_notify (ev : ChildEvent) : Untouched v s (taskNotifySigchld u ev s) := by
  unfold taskNotifySigchld
  split
  · exact .refl s
  · rename_i p _
    dsimp only
    split_ifs
    · exact .refl s
    · exact .refl s
    · by_cases hp : p=v
      · subst hp
        have ha : ((s.tasks p).sig.enqueue sigchld).actions=(s.tasks p).sig.actions :=
          SignalState.actions_enqueue
        obtain ⟨hh,hm,-⟩ := SignalState.eq_of_actions ha
        constructor <;> rw [System.setTask_self]
        · exact .inl rfl
        · exact isPending_enqueue_sigchld _
        · exact congrFun hh sigcont
        · exact hm
      · exact .setTask _ hp

lemma untouched_wakeWaiters (pid : ℤ) : Untouched v s (taskWakeWaiters pid s) := by
  unfold taskWakeWaiters
  split
  · exact .refl s
  · constructor <;> dsimp only <;> split_ifs with hw
    · simp only [Bool.and_eq_true,decide_eq_true_eq] at hw
      exact .inr ⟨hw.1.1,rfl⟩
    · exact .inl rfl
    all_goals rfl

lemma Signalled.untouched (h : Signalled self u sig s hit s') (hsig : sig≠sigkill) (hu : u≠v) :
    Untouched v s s' := by
  have htold {s1 : System} (f : Task → Task) (ev : ChildEvent) (pid : ℤ) :
      Untouched v s1 (taskWakeWaiters pid (taskNotifySigchld u ev (s1.setTask u f))) :=
    ((Untouched.setTask f hu).trans (untouched_notify ev)).trans (untouched_wakeWaiters pid)
  have hqueued : Untouched v s (signalQueued u sig s) := .setTask _ hu
  cases h with
  | refused => exact .refl s
  | ignored => exact .refl s
  | killed _ _ he => exact absurd he hsig
  | queued => exact hqueued
  | continued =>
    refine hqueued.trans ?_
    unfold signalCont
    dsimp only
    split_ifs
    · exact ((Untouched.setTask _ hu).trans (htold _ _ _)).trans (.setTask _ hu)
    · exact (Untouched.setTask _ hu).trans (.setTask _ hu)
  | stopped =>
    refine hqueued.trans ?_
    unfold signalStop
    dsimp only
    split_ifs
    · exact (Untouched.setTask _ hu).trans (htold _ _ _)
    · exact .setTask _ hu
  | woken => exact hqueued.trans (.setTask _ hu)

/-- The task goes on, and no `SIGSTOP` is left for it. -/
def Continued (v : TaskIx) (s : System) : Prop :=
  (s.tasks v).state≠.stopped ∧ (s.tasks v).sig.isPending sigstop=false

/-- `SIGCONT` is neither ignored nor blocked. -/
def TakesCont (k : Task) : Prop := k.sig.handler sigcont≠sigIgn ∧ k.sig.blocked sigcont=false

lemma Untouched.continued_iff (h : Untouched v s s') : Continued v s' ↔ Continued v s := by
  rw [Continued,Continued,h.stop]
  rcases h.state with hs | ⟨hw,hs⟩
  · rw [hs]
  · simp [hw,hs]

lemma Untouched.takesCont_iff (h : Untouched v s s') : TakesCont (s'.tasks v) ↔ TakesCont (s.tasks v) := by
  rw [TakesCont,TakesCont,h.handler,SignalState.blocked,SignalState.blocked,h.mask]

lemma continued_signalCont (h : (s.tasks v).state=.stopped) : Continued v (signalCont v s) := by
  unfold signalCont
  dsimp only
  obtain ⟨s1,hs1⟩ : ∃ s1, s1=s.setTask v fun k => k.setSig (k.sig.clearPending sigstop) := ⟨_,rfl⟩
  have hst : (s1.tasks v).state=.stopped := by
    rw [hs1,System.setTask_self]
    exact h
  have hpend : (s1.tasks v).sig.isPending sigstop=false := by
    rw [hs1,System.setTask_self]
    change ((s.tasks v).sig.clearPending sigstop).isPending sigstop=false
    rw [Stamped.Ordered.isPending_clear _ (by decide) rfl]
    simp
  rw [← hs1,if_pos hst]
  -- the task is runnable, and telling its parent does not touch it
  have hcont : Untouched v (s1.setTask v fun k => {k with
      state := .runnable
      sig := {k.sig with contReportPending := true, stopReportPending := false, stopSignal := 0}})
      (continueTask v s1) := (untouched_notify .cont).trans (untouched_wakeWaiters _)
  have hrun : ((continueTask v s1).tasks v).state=.runnable := by
    rw [hcont.state_eq (by simp),System.setTask_self]
  have hstop : ((continueTask v s1).tasks v).sig.isPending sigstop=false := by
    rw [hcont.stop,System.setTask_self]
    exact hpend
  have hsame : taskSignalWakeWaiter ((continueTask v s1).tasks v) true=(continueTask v s1).tasks v := by
    rw [taskSignalWakeWaiter,if_pos (by rw [hrun]; decide)]
  rw [Continued,System.setTask_self,hsame,hrun]
  exact ⟨by decide,hstop⟩

lemma Signalled.cont_iff (h : Signalled self v sigcont s hit s') (hst : (s.tasks v).state=.stopped)
    (hs : ¬shielded s self v) : hit=true ∧ (Continued v s' ↔ TakesCont (s.tasks v)) := by
  have hstays {s' : System} (h' : (s'.tasks v).state=.stopped) : ¬Continued v s' := fun hc => hc.1 h'
  cases h with
  | refused hr => exact absurd hr (by simp [hst,hs])
  | ignored _ _ hi =>
    have hign : (s.tasks v).sig.handler sigcont=sigIgn := by
      rcases hi with hi | hi | hi
      · exact absurd hi (by decide)
      · rw [hst] at hi
        cases hi
      · exact hi.2.1
    exact ⟨rfl,fun hc => absurd hc (hstays hst),fun ht => absurd hign ht.1⟩
  | killed _ _ he => exact absurd he (by decide)
  | queued _ _ hb =>
    refine ⟨rfl,fun hc => absurd hc (hstays ?_),fun ht => absurd ht.2 (by simp [hb])⟩
    rw [signalQueued,System.setTask_self]
    exact hst
  | continued _ _ _ hh hb =>
    refine ⟨rfl,fun _ => ⟨hh,hb⟩,fun _ => continued_signalCont ?_⟩
    rw [signalQueued,System.setTask_self]
    exact hst
  | stopped _ _ he => exact absurd he (by decide)
  | woken _ _ he => exact absurd rfl he.2.1

lemma Signalled.stop (h : Signalled self v sigstop s hit s') (hv : (s.tasks v).alive)
    (hs : ¬shielded s self v) : hit=true ∧ (s'.tasks v).state=.stopped := by
  cases h with
  | refused hr => exact absurd hr (by simp [hv.1,hs])
  | ignored _ _ hi => exact absurd hi (by simp [hv.2])
  | killed _ _ he => exact absurd he (by decide)
  | queued _ _ hb => exact absurd hb (by simp [SignalState.blocked])
  | continued _ _ he => exact absurd he (by decide)
  | woken _ _ he => exact absurd rfl he.2.2
  | stopped =>
    refine ⟨rfl,?_⟩
    unfold signalStop
    dsimp only
    split_ifs with hst
    · generalize (signalQueued v sigstop s).setTask v _=s1
      have hstop : Untouched v (s1.setTask v fun k => {k.endWait with
          state := .stopped
          sig := {k.sig with contReportPending := false, stopReportPending := true, stopSignal := sigstop}})
          (stopTask v sigstop s1) := (untouched_notify .stop).trans (untouched_wakeWaiters _)
      rw [hstop.state_eq (by simp),System.setTask_self]
    · simpa using hst

end One

/-! ### Kill -/

section Kill
variable {s s' s0 : System} {self v : TaskIx} {sig : ℕ} {pid : ℤ}

/-- A task gets the signal once: before and after it others do. -/
structure SignalledOnce (self v : TaskIx) (sig : ℕ) (s : System) (hit : Bool) (s' : System) : Prop where
  once : ∃ s1 s2, SameTasks s s1 ∧ Untouched v s s1 ∧ Signalled self v sig s1 hit s2 ∧ Untouched v s2 s'

lemma killGroup_untouched (hsig : sig≠sigkill) (l : List TaskIx) (hv : v∉l) :
    ∀ s, ∃ n s', (killGroup self pid sig l).run s=(some n,s') ∧ Untouched v s s' := by
  induction l with
  | nil => exact fun s => ⟨0,s,rfl,.refl s⟩
  | cons i l ih =>
    intro s
    rw [List.mem_cons,not_or] at hv
    obtain ⟨hi,hl⟩ := hv
    rw [killGroup,run_bind,run_gets]
    dsimp only [id]
    split
    · obtain ⟨hit,s1,hrun,hone⟩ := wp_total (taskSignalOne_signalled self i sig s)
      obtain ⟨n,s2,hrest,hun⟩ := ih hl s1
      refine ⟨hit.toNat+n,s2,?_,(hone.untouched hsig (Ne.symm hi)).trans hun⟩
      rw [run_bind,hrun]
      dsimp only
      rw [run_bind,hrest]
      rfl
    · exact ih hl s

lemma killGroup_once (hsig : sig≠sigkill) (l : List TaskIx) (hnd : l.Nodup) (hv : v∈l) :
    ∀ s, SameTasks s0 s → killSelects s0 self pid (s0.tasks v)=true →
    ∃ n hit s', (killGroup self pid sig l).run s=(some n,s') ∧ SignalledOnce self v sig s hit s' ∧
      (hit=true → n≠0) := by
  induction l with
  | nil => cases hv
  | cons i l ih =>
    intro s hsame hsel
    obtain ⟨hi,hnd⟩ := List.nodup_cons.1 hnd
    obtain ⟨hit,s1,hrun,hone⟩ := wp_total (taskSignalOne_signalled self i sig s)
    rw [killGroup,run_bind,run_gets]
    dsimp only [id]
    by_cases hvi : v=i
    · subst hvi
      obtain ⟨n,s2,hrest,hun⟩ : ∃ n s', (killGroup self pid sig l).run s1=(some n,s') ∧ Untouched v s1 s' :=
        killGroup_untouched hsig l hi s1
      have hnow : killSelects s self pid (s.tasks v)=true := (killSelects_eq hsame).trans hsel
      refine ⟨hit.toNat+n,hit,s2,?_,⟨s,s1,.refl s,.refl s,hone,hun⟩,?_⟩
      · rw [if_pos hnow,run_bind,hrun]
        dsimp only
        rw [run_bind,hrest]
        rfl
      · rintro rfl
        simp
    · have hl := (List.mem_cons.1 hv).resolve_left hvi
      split
      · obtain ⟨n,hit',s2,hrest,⟨s3,s4,hsame',hun,hone',hun'⟩,hn⟩ :=
          ih hnd hl s1 (hsame.trans (hone.sameTasks hsig)) hsel
        refine ⟨hit.toNat+n,hit',s2,?_,⟨s3,s4,(hone.sameTasks hsig).trans hsame',
          (hone.untouched hsig (Ne.symm hvi)).trans hun,hone',hun'⟩,fun hh => ?_⟩
        · rw [run_bind,hrun]
          dsimp only
          rw [run_bind,hrest]
          rfl
        · have := hn hh
          omega
      · exact ih hnd hl s hsame hsel

lemma taskKill_once (sig : ℕ) (hsup : taskSignalSupported sig=true) (hsig : sig≠sigkill)
    (hc : s.current=some self) (ht : killTargets s self pid v) :
    ∃ r hit s', (taskKill pid sig).run s=(some r,s') ∧ SignalledOnce self v sig s hit s' ∧
      (hit=true → r=0) := by
  rw [taskKill,run_bind,run_gets,hc]
  dsimp only
  rw [hsup,Bool.not_true,if_neg (by decide)]
  unfold killTargets at ht
  by_cases hpid : 0<pid
  · rw [if_pos hpid] at ht
    obtain ⟨hit,s',hrun,hone⟩ := wp_total (taskSignalOne_signalled self v sig s)
    refine ⟨if hit then 0 else kerrEsrch,hit,s',?_,⟨s,s',.refl s,.refl s,hone,.refl s'⟩,?_⟩
    · rw [if_pos hpid,run_bind,run_gets]
      dsimp only [id]
      rw [ht]
      dsimp only
      rw [run_bind,Int.toNat_natCast,hrun]
      rfl
    · rintro rfl
      rfl
  · rw [if_neg hpid] at ht
    obtain ⟨n,hit,s',hrun,hone,hn⟩ := killGroup_once hsig (List.finRange maxTasks)
      (List.nodup_finRange _) (List.mem_finRange v) s (.refl s) ht
    refine ⟨if n=0 then kerrEsrch else 0,hit,s',?_,hone,fun hh => if_neg (hn hh)⟩
    rw [if_neg hpid,run_bind,Int.toNat_natCast,hrun]
    rfl

lemma SameTasks.shielded_iff (h : SameTasks s s') : shielded s' self v ↔ shielded s self v := by
  have hpid (i : TaskIx) : (s'.tasks i).pid=(s.tasks i).pid := (h.rows i).pid
  rw [shielded,shielded,hpid,hpid,h.initPid]

end Kill

/-! ### Runs -/

def Phase.halted (p : Phase) : Prop := p=.stopped ∨ p=.zombie

section Rows
variable {L : Licence} {T T' : ProcTable} {n n' : ℤ} {t i : TaskIx}

lemma Row.Soft.halted {r r' : Row} (h : r.Soft r') (hr : r.phase.halted) : r'.phase.halted :=
  hr.imp h.stopped.2 h.zombie.2

/-- What a change of the table can do to a row: it is cleared, it belongs to a new task, or it
keeps its number and, unless there is a licence, stays halted. -/
def RowStep (L : Licence) (n : ℤ) (i : TaskIx) (r r' : Row) : Prop :=
  r'.pid=0 ∨ r'.pid=n ∨ r'.pid=r.pid ∧ (r.phase.halted → r'.phase.halted ∨ L.cont i)

lemma rowStep_soft {r r' : Row} (h : r.Soft r') : RowStep L n i r r' :=
  .inr (.inr ⟨h.pid,fun hr => .inl (h.halted hr)⟩)

lemma rowStep_set {r : Row} {pid : ℤ} (hpid : r.pid=(T.rows t).pid)
    (hr : (T.rows t).phase.halted → r.phase.halted ∨ L.cont t) :
    RowStep L n i (T.rows i) (((T.set t r).wakeWaiters pid).rows i) := by
  have hw := ProcTable.wakeWaiters_woken (T := T.set t r) pid i
  by_cases hi : i=t
  · subst hi
    rw [ProcTable.set_self] at hw
    have hsoft : r.Soft (((T.set i r).wakeWaiters pid).rows i) := .of_woken hw
    exact .inr (.inr ⟨hsoft.pid.trans hpid,fun h => (hr h).imp hsoft.halted id⟩)
  · rw [ProcTable.set_of_ne hi] at hw
    exact rowStep_soft (.of_woken hw)

lemma rowStep_reap (j : TaskIx) : RowStep L n i (T.rows i) ((T.reap j).rows i) := by
  have hrows : (T.reap j).rows=(T.set j .zero).rows := rfl
  rw [hrows]
  by_cases hi : i=j
  · subst hi
    rw [ProcTable.set_self]
    exact .inl rfl
  · rw [ProcTable.set_of_ne hi]
    exact rowStep_soft (.refl _)

lemma ProcTable.Exited.rowStep (h : T.Exited t T') : RowStep L n i (T.rows i) (T'.rows i) := by
  by_cases hi : i=t
  · subst hi
    rw [h.self]
    split_ifs
    · exact .inl rfl
    · exact .inr (.inr ⟨rfl,fun _ => .inl (.inr rfl)⟩)
  · have ha := h.others i hi
    unfold ProcTable.Adopted at ha
    split_ifs at ha
    · rw [ha]
      exact .inl rfl
    · have hsoft := Row.Soft.of_woken ha
      exact .inr (.inr ⟨hsoft.pid,fun hr => .inl (hsoft.halted hr)⟩)
    · exact rowStep_soft (.of_woken ha)

lemma rowStep_active {r : Row} (ht : (T.rows t).phase=.active) (hpid : r.pid=(T.rows t).pid) :
    RowStep L n i (T.rows i) ((T.set t r).rows i) := by
  by_cases hi : i=t
  · subst hi
    rw [ProcTable.set_self]
    refine .inr (.inr ⟨hpid,fun hr => ?_⟩)
    rw [ht] at hr
    rcases hr with hr | hr <;> cases hr
  · rw [ProcTable.set_of_ne hi]
    exact rowStep_soft (.refl _)

lemma TableChange.rowStep (h : TableChange L T n T' n') (hl : L.running) (ho : T.InOrder n) (i : TaskIx) :
    RowStep L n i (T.rows i) (T'.rows i) := by
  cases h with
  | soft _ hr _ => exact rowStep_soft (hr i)
  | stop t _ => exact rowStep_set rfl fun _ => .inl (.inl rfl)
  | cont t _ hl => exact rowStep_set rfl fun _ => .inr hl
  | exit t ht _ => exact (ProcTable.exit_exited ho.toNumbered ht).rowStep
  | reapChild j c _ _ _ _ => exact rowStep_reap j
  | reapOrphan j _ _ _ => exact rowStep_reap j
  | wait c filter hc _ _ => exact rowStep_active hc rfl
  | rouse c p hr _ _ _ => exact absurd hl hr
  | regroup t pgid ht _ =>
    by_cases hi : i=t
    · subst hi
      rw [ProcTable.set_self]
      exact .inr (.inr ⟨rfl,fun hr => .inl hr⟩)
    · rw [ProcTable.set_of_ne hi]
      exact rowStep_soft (.refl _)
  | clear j _ =>
    by_cases hi : i=j
    · subst hi
      rw [ProcTable.set_self]
      exact .inl rfl
    · rw [ProcTable.set_of_ne hi]
      exact rowStep_soft (.refl _)
  | spawn j _ =>
    by_cases hi : i=j
    · subst hi
      rw [ProcTable.set_self]
      exact .inr (.inl rfl)
    · rw [ProcTable.set_of_ne hi]
      exact rowStep_soft (.refl _)
  | adopt j c _ _ _ hst _ _ => exact rowStep_active hst rfl

lemma TableChange.next_le (h : TableChange L T n T' n') : n≤n' := by
  cases h <;> omega

end Rows

section Runs
variable {L : Licence} {s s' s0 s1 : System} {c v i : TaskIx} {p : ℤ}

/-- The call is no `SIGCONT` for the process. -/
def sparing (p : ℤ) (s : System) : ProcCall → Prop
  | .kill pid sig => sig=sigcont → ∀ c v, s.current=some c → killTargets s c pid v → (s.tasks v).pid≠p
  | _ => True

/-- The process, if it is still there, is stopped or has ended. -/
structure Halted (p : ℤ) (s : System) : Prop where
  order : s.procTable.InOrder s.nextPid
  old : p<s.nextPid
  phase : ∀ i, (s.tasks i).pid=p → (s.tasks i).phase.halted

lemma Reach.pid_old (h : Reach L s0 s) (hl : L.running) (ho : s0.procTable.InOrder s0.nextPid) (hp : 0<p)
    (hold : p<s0.nextPid) : p<s.nextPid ∧ ((s.tasks i).pid=p → (s0.tasks i).pid=p) := by
  induction h with
  | refl => exact ⟨hold,id⟩
  | tail hr hc ih =>
    refine ⟨ih.1.trans_le hc.table.next_le,fun hpid => ih.2 ?_⟩
    rcases hc.table.rowStep hl (Reach.inOrder hr ho) i with h0 | hn | ⟨hsame,-⟩
    · exact absurd (h0.symm.trans hpid) (by omega)
    · exact absurd (hn.symm.trans hpid) (by omega)
    · exact hsame.symm.trans hpid

lemma Licensed.spares (h : Licensed (sparing p) s L) (hl : L.cont i) : (s.tasks i).pid≠p := by
  rcases h with rfl | ⟨c,call,hc,hok,rfl⟩
  · cases hl
  · cases call with
    | kill pid sig => exact hok hl.1 c i hc.1 hl.2
    | _ => cases hl

lemma Halted.run (h : Halted p s) (hp : 0<p) (hrun : ReflTransGen (ProcStep (sparing p)) s s') :
    Halted p s' := by
  refine ProcStep.run_preserves (fun s0 L hL h0 s s' hr ho hs hc => ?_) hrun h.order h
  refine ⟨hc.table.inOrder ho,hs.old.trans_le hc.table.next_le,fun i hpid => ?_⟩
  rcases hc.table.rowStep hL.running.1 ho i with hz | hn | ⟨hsame,hkeep⟩
  · exact absurd (hz.symm.trans hpid) (by omega)
  · have := hs.old
    exact absurd (hn.symm.trans hpid) (by omega)
  · have hpid' : (s.tasks i).pid=p := hsame.symm.trans hpid
    refine (hkeep (hs.phase i hpid')).resolve_right fun hl => ?_
    exact hL.spares hl ((hr.pid_old hL.running.1 h0.order hp h0.old).2 hpid')

lemma taskKill_cont {pid : ℤ} (hc : s.current=some c) (hst : (s.tasks v).state=.stopped)
    (hinit : (s.tasks v).pid≠s.initPid) (ht : killTargets s c pid v) :
    ((taskKill pid sigcont).run s).1=some 0 ∧
      (Continued v ((taskKill pid sigcont).run s).2 ↔ TakesCont (s.tasks v)) := by
  obtain ⟨r,hit,s',hrun,⟨s1,s2,hsame,hun,hone,hun'⟩,hr⟩ :=
    taskKill_once sigcont (by decide) (by decide) hc ht
  have hst1 : (s1.tasks v).state=.stopped := (hun.state_eq (by rw [hst]; decide)).trans hst
  obtain ⟨hhit,hiff⟩ := hone.cont_iff hst1 fun hs => hinit (hsame.shielded_iff.1 hs).1
  rw [hrun]
  exact ⟨congrArg some (hr hhit),hun'.continued_iff.trans (hiff.trans hun.takesCont_iff)⟩

lemma taskKill_stop {pid : ℤ} (hc : s.current=some c) (hv : (s.tasks v).alive)
    (hs : ¬shielded s c v) (ht : killTargets s c pid v) :
    ((taskKill pid sigstop).run s).1=some 0 ∧
      (((taskKill pid sigstop).run s).2.tasks v).state=.stopped := by
  obtain ⟨r,hit,s',hrun,⟨s1,s2,hsame,hun,hone,hun'⟩,hr⟩ :=
    taskKill_once sigstop (by decide) (by decide) hc ht
  obtain ⟨hhit,hst⟩ := hone.stop (hun.alive hv) fun h => hs (hsame.shielded_iff.1 h)
  rw [hrun]
  exact ⟨congrArg some (hr hhit),(hun'.state_eq (by rw [hst]; decide)).trans hst⟩

/-- A stopped task goes on after a `SIGCONT` for it exactly if it neither ignores nor blocks the
signal. `SIGSTOP` stops every task that it reaches, and the task stays stopped in every run until
it ends or there is a `SIGCONT` for it. -/
theorem kill_cont_iff (hb : Booted s0) (hrun : ReflTransGen (ProcStep anyCall) s0 s) (hc : Runs c s) :
    (∀ v pid, (s.tasks v).state=.stopped → (s.tasks v).pid≠s.initPid → killTargets s c pid v →
      ((taskKill pid sigcont).run s).1=some 0 ∧
        (Continued v ((taskKill pid sigcont).run s).2 ↔ TakesCont (s.tasks v))) ∧
    ∀ v pid, (s.tasks v).alive → ¬shielded s c v → killTargets s c pid v →
      ((taskKill pid sigstop).run s).1=some 0 ∧
      (((taskKill pid sigstop).run s).2.tasks v).state=.stopped ∧
      ∀ s', ReflTransGen (ProcStep (sparing (s.tasks v).pid)) ((taskKill pid sigstop).run s).2 s' →
        ∀ i, (s'.tasks i).pid=(s.tasks v).pid → (s'.tasks i).state=.stopped ∨ (s'.tasks i).state=.zombie := by
  refine ⟨fun v pid hst hinit ht => taskKill_cont hc.1 hst hinit ht,fun v pid hv hs ht => ?_⟩
  have ho := ProcStep.run_inOrder hrun hb.inOrder
  obtain ⟨hok,hst⟩ := taskKill_stop hc.1 hv hs ht
  refine ⟨hok,hst,fun s' hrun' => ?_⟩
  obtain ⟨L,hL,hreach⟩ := ProcStep.reach (.call s c hc (.kill pid sigstop) trivial : ProcStep anyCall s _) ho
  have hused : (s.procTable.rows v).phase≠.unused := mt phase_unused.1 hv.1
  have hpos : 0<(s.tasks v).pid := ho.pid v hused
  have hbound : (s.tasks v).pid<s.nextPid := ho.bound v hused
  have hhalted : Halted (s.tasks v).pid ((taskKill pid sigstop).run s).2 := by
    refine ⟨hreach.inOrder ho,(hreach.pid_old (i := v) hL.running.1 ho hpos hbound).1,fun i hi => ?_⟩
    have hpid : (s.procTable.rows i).pid=(s.procTable.rows v).pid :=
      (hreach.pid_old hL.running.1 ho hpos hbound).2 hi
    have hiused : (s.procTable.rows i).phase≠.unused := fun hu => by
      have h0 := ho.free i hu
      rw [hpid] at h0
      exact absurd h0 (ne_of_gt hpos)
    obtain rfl := ho.unique i v hiused hused hpid
    exact .inl (phase_stopped.2 hst)
  intro i hi
  exact ((hhalted.run hpos hrun').phase i hi).imp phase_stopped.1 phase_zombie.1

end Runs

/-- Init sets the disposition of `SIGCONT`, forks and stops the child, which inherits it. -/
def stoppedChild (a : SigAct) : System :=
  ((ProcCall.kill 2 sigstop).perform.run ((ProcCall.fork .zero).perform.run
    ((ProcCall.sigaction sigcont (some a)).perform.run (System.single .zero)).2).2).2

/-- With the default disposition the child goes on, and another `SIGSTOP` stops it again. -/
theorem kill_cont_iff_child : ((stoppedChild ⟨sigDfl,0,0,0⟩).tasks 1).state=.stopped ∧
    Continued 1 ((taskKill 2 sigcont).run (stoppedChild ⟨sigDfl,0,0,0⟩)).2 ∧
    ∀ s', ReflTransGen (ProcStep (sparing 2)) ((taskKill 2 sigstop).run (stoppedChild ⟨sigDfl,0,0,0⟩)).2 s' →
      ∀ i, (s'.tasks i).pid=2 → (s'.tasks i).state=.stopped ∨ (s'.tasks i).state=.zombie := by
  have hst : ((stoppedChild ⟨sigDfl,0,0,0⟩).tasks 1).state=.stopped := by decide +kernel
  have hpid : ((stoppedChild ⟨sigDfl,0,0,0⟩).tasks 1).pid=2 := by decide +kernel
  have htarget : killTargets (stoppedChild ⟨sigDfl,0,0,0⟩) 0 2 1 := by
    rw [killTargets,if_pos (by decide)]
    decide +kernel
  have hrun : ReflTransGen (ProcStep anyCall) (System.single .zero) (stoppedChild ⟨sigDfl,0,0,0⟩) :=
    ((ReflTransGen.single (.call _ 0 (runs_single .zero) (.sigaction sigcont (some ⟨sigDfl,0,0,0⟩)) trivial)).tail
      (.call _ 0 (by decide +kernel) (.fork .zero) trivial)).tail
      (.call _ 0 (by decide +kernel) (.kill 2 sigstop) trivial)
  have h := kill_cont_iff (booted_single .zero) hrun (c := 0) (by decide +kernel)
  refine ⟨hst,((h.1 1 2 hst (by decide +kernel) htarget).2).2 ⟨by decide +kernel,by decide +kernel⟩,?_⟩
  have hstop := (h.2 1 2 ⟨by rw [hst]; decide,by rw [hst]; decide⟩ (by unfold shielded; decide +kernel) htarget).2.2
  rwa [hpid] at hstop

/-- The child ignores `SIGCONT`: the kill succeeds, and the child stays stopped. -/
theorem kill_cont_ignored : ∃ s0 s, Booted s0 ∧ ReflTransGen (ProcStep anyCall) s0 s ∧ Runs 0 s ∧
    (s.tasks 1).state=.stopped ∧ (s.tasks 1).pid≠s.initPid ∧ killTargets s 0 2 1 ∧
    ((taskKill 2 sigcont).run s).1=some 0 ∧ ¬Continued 1 ((taskKill 2 sigcont).run s).2 := by
  refine ⟨_,stoppedChild ⟨sigIgn,0,0,0⟩,booted_single .zero,
    ((ReflTransGen.single (.call _ 0 (runs_single .zero) (.sigaction sigcont (some ⟨sigIgn,0,0,0⟩)) trivial)).tail
      (.call _ 0 (by decide +kernel) (.fork .zero) trivial)).tail
      (.call _ 0 (by decide +kernel) (.kill 2 sigstop) trivial),?_,?_,?_,?_,?_,fun h => h.1 ?_⟩
  · decide +kernel
  · decide +kernel
  · decide +kernel
  · rw [killTargets,if_pos (by decide)]
    decide +kernel
  · decide +kernel
  · decide +kernel

end FuriOS
