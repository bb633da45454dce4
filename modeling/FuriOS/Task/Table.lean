import FuriOS.Task.ExitSpec
import FuriOS.Task.SignalQueue

/-! The process table as parents, waiters and process groups see it. Of a task only its numbers,
its phase of life and the few flags that exit looks at are left; on these the end of a task with
all that follows from it is a function, and `task_force_exit` computes it. -/
namespace FuriOS
open Prog Function

/-- The phases of life of a task. `waiting` is a wait for a child with its filter; a task that
waits for something else counts as active. -/
inductive Phase
  | unused | active | stopped | zombie
  | waiting (filter : ℤ)
  deriving DecidableEq

/-- A row of the table. `reaps` is the disposition of `SIGCHLD` that makes the system free the
children of the task at once. -/
structure Row where
  pid : ℤ
  ppid : ℤ
  pgid : ℤ
  phase : Phase
  reaps : Bool
  stopReport : Bool
  contReport : Bool
  deriving DecidableEq

def Row.zero : Row := ⟨0,0,0,.unused,false,false,false⟩

/-- The row belongs to a task that has not ended. -/
def Row.alive (r : Row) : Bool := r.phase≠.unused && r.phase≠.zombie

structure ProcTable where
  rows : TaskIx → Row
  initPid : ℤ

namespace ProcTable

def set (T : ProcTable) (t : TaskIx) (r : Row) : ProcTable :=
  {T with rows := update T.rows t r}

@[simp] lemma set_self (T : ProcTable) (t : TaskIx) (r : Row) : (T.set t r).rows t=r :=
  update_self ..

lemma set_of_ne {T : ProcTable} {t i : TaskIx} {r : Row} (h : i≠t) :
    (T.set t r).rows i=T.rows i := update_of_ne h ..

def find (T : ProcTable) (p : Row → Bool) : Option TaskIx :=
  (List.finRange maxTasks).find? fun i => p (T.rows i)

def byPid (T : ProcTable) (pid : ℤ) : Option TaskIx :=
  T.find fun r => r.phase≠.unused && r.pid=pid

def liveInit (T : ProcTable) : Option TaskIx :=
  if T.initPid≤0 then none
  else (T.find fun r => r.pid=T.initPid).filter fun i => (T.rows i).alive

def parentOf (T : ProcTable) (r : Row) : Option TaskIx :=
  if r.ppid≤0 then none else T.byPid r.ppid

/-- The parent lives and frees its children at once. -/
def autoReaps (T : ProcTable) (p : Option TaskIx) : Bool :=
  p.any fun p => (T.rows p).alive && (T.rows p).reaps

end ProcTable

/-- The child is one that the parent waits for. -/
def Row.matches (parent child : Row) (filter : ℤ) : Bool :=
  child.ppid=parent.pid && if 0<filter then child.pid=filter else if filter = -1 then true
    else if filter=0 then child.pgid=parent.pgid
    else child.pgid = -filter

def Row.ended (r : Row) : Row :=
  {r with phase := .zombie, stopReport := false, contReport := false}

def Row.wakeFor (child r : Row) : Row :=
  match r.phase with
  | .waiting filter => if r.matches child filter then {r with phase := .active} else r
  | _ => r

lemma Row.alive_iff {r : Row} : r.alive=true ↔ r.phase≠.unused ∧ r.phase≠.zombie := by
  simp [Row.alive]

/-- A row that is left as it is, or whose wait for a child has ended. -/
def Row.Woken (r r' : Row) : Prop :=
  r'=r ∨ (∃ filter, r.phase=.waiting filter) ∧ r'={r with phase := .active}

namespace Row.Woken
variable {r r' r'' : Row}

lemma refl (r : Row) : Woken r r := .inl rfl

section
variable (h : Woken r r')
include h

lemma trans (h' : Woken r' r'') : Woken r r'' := by
  rcases h with rfl | ⟨hw,rfl⟩
  · exact h'
  · rcases h' with rfl | ⟨⟨filter,hf⟩,-⟩
    · exact .inr ⟨hw,rfl⟩
    · cases hf

lemma pid : r'.pid=r.pid := by
  rcases h with rfl | ⟨-,rfl⟩ <;> rfl

lemma ppid : r'.ppid=r.ppid := by
  rcases h with rfl | ⟨-,rfl⟩ <;> rfl

lemma pgid : r'.pgid=r.pgid := by
  rcases h with rfl | ⟨-,rfl⟩ <;> rfl

lemma reaps : r'.reaps=r.reaps := by
  rcases h with rfl | ⟨-,rfl⟩ <;> rfl

lemma phase_iff {p : Phase} (hp : p≠.active) (hw : ∀ filter, p≠.waiting filter) :
    r'.phase=p ↔ r.phase=p := by
  rcases h with rfl | ⟨⟨filter,hf⟩,rfl⟩
  · rfl
  · simp only [hf]
    exact ⟨fun he => absurd he.symm hp,fun he => absurd he.symm (hw filter)⟩

lemma unused : r'.phase=.unused ↔ r.phase=.unused :=
  h.phase_iff (by decide) fun _ => by simp

lemma zombie : r'.phase=.zombie ↔ r.phase=.zombie :=
  h.phase_iff (by decide) fun _ => by simp

lemma alive : r'.alive=r.alive := by
  simp only [Row.alive,h.unused,h.zombie,ne_eq]

lemma waiting {filter : ℤ} (hw : r'.phase=.waiting filter) : r'=r := by
  rcases h with rfl | ⟨-,rfl⟩
  · rfl
  · cases hw

end

end Row.Woken

/-- A task that lives stays alive with its numbers; a zombie may be freed. -/
structure Row.Kept (r r' : Row) : Prop where
  alive : r'.alive=r.alive
  used : r'.phase≠.unused → r.phase≠.unused ∧ r'.pid=r.pid ∧ r'.pgid=r.pgid ∧ r'.reaps=r.reaps

lemma Row.Woken.kept {r r' : Row} (h : r.Woken r') : r.Kept r' :=
  ⟨h.alive,fun hu => ⟨mt h.unused.2 hu,h.pid,h.pgid,h.reaps⟩⟩

namespace ProcTable

def wakeWaiters (pid : ℤ) (T : ProcTable) : ProcTable :=
  match T.byPid pid with
  | none => T
  | some c => {T with rows := fun i => (T.rows c).wakeFor (T.rows i)}

def reap (t : TaskIx) (T : ProcTable) : ProcTable :=
  {T.set t .zero with initPid := if (T.rows t).pid=T.initPid then -1 else T.initPid}

/-- A child gets a new parent, and what it has to report is reported there. -/
def reparentChild (oldPpid : ℤ) (init : Option TaskIx) (newPpid : ℤ) (T : ProcTable)
    (i : TaskIx) : ProcTable :=
  let child := T.rows i
  if child.phase≠.unused && child.ppid=oldPpid then
    let T := T.set i {child with ppid := newPpid}
    if newPpid≤0 then T
    else if child.phase=.zombie then
      if T.autoReaps init then T.reap i else T.wakeWaiters child.pid
    else if child.phase=.stopped && child.stopReport || child.contReport then
      T.wakeWaiters child.pid
    else T
  else T

def reparent (oldPpid : ℤ) (T : ProcTable) : ProcTable :=
  if oldPpid≤0 then T
  else (List.finRange maxTasks).foldl
    (reparentChild oldPpid T.liveInit (T.liveInit.elim (-1) fun i => (T.rows i).pid)) T

def exit (t : TaskIx) (T : ProcTable) : ProcTable :=
  let r := T.rows t
  let T' := ((T.set t r.ended).reparent r.pid).wakeWaiters r.pid
  if T.autoReaps (T.parentOf r) then T'.reap t else T'

/-- A task is stopped, and who waits for it looks again. -/
def stop (t : TaskIx) (T : ProcTable) : ProcTable :=
  (T.set t {T.rows t with phase := .stopped, stopReport := true, contReport := false}).wakeWaiters
    (T.rows t).pid

def cont (t : TaskIx) (T : ProcTable) : ProcTable :=
  (T.set t {T.rows t with phase := .active, stopReport := false, contReport := true}).wakeWaiters
    (T.rows t).pid

end ProcTable

/-! ### The table of a system -/

def Task.phase (k : Task) : Phase :=
  match k.state with
  | .unused => .unused
  | .runnable => .active
  | .running => .active
  | .waiting => if k.waitKind=.child then .waiting k.waitPid else .active
  | .stopped => .stopped
  | .zombie => .zombie

/-- `task_sigchld_auto_reap` without the state of the task. -/
def SignalState.reaps (g : SignalState) : Bool :=
  g.handler sigchld=sigIgn || g.flags sigchld &&& saNocldwait != 0

def Task.row (k : Task) : Row :=
  ⟨k.pid,k.ppid,k.pgid,k.phase,k.sig.reaps,k.sig.stopReportPending,k.sig.contReportPending⟩

def System.procTable (s : System) : ProcTable := ⟨fun t => (s.tasks t).row,s.initPid⟩

section Phases
variable {k : Task}

@[simp] lemma phase_unused : k.phase=.unused ↔ k.state=.unused := by
  unfold Task.phase
  cases k.state <;> simp
  split <;> simp

@[simp] lemma phase_zombie : k.phase=.zombie ↔ k.state=.zombie := by
  unfold Task.phase
  cases k.state <;> simp
  split <;> simp

@[simp] lemma phase_stopped : k.phase=.stopped ↔ k.state=.stopped := by
  unfold Task.phase
  cases k.state <;> simp
  split <;> simp

@[simp] lemma phase_waiting {filter : ℤ} : k.phase=.waiting filter ↔
    k.state=.waiting ∧ k.waitKind=.child ∧ k.waitPid=filter := by
  unfold Task.phase
  cases k.state <;> simp
  split <;> simp_all

lemma alive_row : k.row.alive=true ↔ k.state≠.unused ∧ k.state≠.zombie := by
  simp [Row.alive,Task.row]

end Phases

section Steps
variable {s s' : System} {t i : TaskIx} {f : Task → Task}

lemma procTable_of_procView (h : s'.procView=s.procView) : s'.procTable=s.procTable := by
  have htable : ∀ s : System, s.procTable=⟨fun t => (s.procView.tasks t).row,s.procView.initPid⟩ :=
    fun _ => rfl
  rw [htable,htable,h]

lemma procTable_setTask : (s.setTask t f).procTable=s.procTable.set t (f (s.tasks t)).row := by
  simp only [System.procTable,ProcTable.set,ProcTable.mk.injEq]
  refine ⟨funext fun t' => ?_,rfl⟩
  by_cases h : t'=t
  · subst h
    simp
  · simp [System.setTask_of_ne h,update_of_ne h]

lemma procTable_congr {f : TaskIx → Task} (h : ∀ i, (f i).row=(s.tasks i).row) :
    System.procTable {s with tasks := f}=s.procTable := by
  have hf : (fun i => (f i).row)=fun i => (s.tasks i).row := funext h
  simp only [System.procTable,hf]

lemma procTable_setTask_same (h : (f (s.tasks t)).row=(s.tasks t).row) :
    (s.setTask t f).procTable=s.procTable := by
  refine procTable_congr fun i => ?_
  by_cases hi : i=t
  · subst hi
    simpa using h
  · rw [update_of_ne hi]

lemma findTask_eq_find {p : Task → Bool} {q : Row → Bool} (h : ∀ k : Task, p k=q k.row) :
    s.findTask p=s.procTable.find q := by
  have hp : (fun i => p (s.tasks i))=fun i => q (s.procTable.rows i) := funext fun i => h _
  rw [System.findTask,hp]
  rfl

lemma taskByPid_eq (pid : ℤ) : taskByPid s pid=s.procTable.byPid pid :=
  findTask_eq_find fun _ => congrArg (· && _) (decide_eq_decide.2 (not_congr phase_unused.symm))

lemma taskParentOf_eq (k : Task) : taskParentOf s k=s.procTable.parentOf k.row := by
  rw [taskParentOf,ProcTable.parentOf,taskByPid_eq]
  rfl

lemma sigchldAutoReap_eq (k : Task) : sigchldAutoReap k=(k.row.alive && k.row.reaps) := by
  rw [Bool.eq_iff_iff]
  simp [sigchldAutoReap,Row.alive,Task.row,SignalState.reaps]

lemma parentAutoReaps_eq (p : Option TaskIx) : parentAutoReaps s p=s.procTable.autoReaps p := by
  cases p with
  | none => rfl
  | some p => exact sigchldAutoReap_eq _

lemma taskFindLiveInit_eq : taskFindLiveInit s=s.procTable.liveInit := by
  have hfind : (s.findTask fun k => k.pid=s.initPid)
      = s.procTable.find fun r => r.pid=s.procTable.initPid := findTask_eq_find fun k => rfl
  have halive : (fun i => decide ((s.tasks i).state≠.unused) && decide ((s.tasks i).state≠.zombie))
      = fun i => (s.procTable.rows i).alive := by
    funext i
    rw [Bool.eq_iff_iff]
    simp [System.procTable,Row.alive,Task.row]
  rw [taskFindLiveInit,ProcTable.liveInit,hfind,halive]
  rfl

lemma taskWaitMatchesFilter_eq (parent child : Task) (filter : ℤ) :
    taskWaitMatchesFilter parent child filter=parent.row.matches child.row filter := rfl

lemma row_wakeFor (k c : Task) : (if k.state=.waiting && k.waitKind=.child
      && taskWaitMatchesFilter k c k.waitPid then {k.endWait with state := .runnable} else k).row
    = c.row.wakeFor k.row := by
  by_cases hw : k.state=.waiting ∧ k.waitKind=.child
  · have hphase : k.row.phase=.waiting k.waitPid := phase_waiting.2 ⟨hw.1,hw.2,rfl⟩
    rw [Row.wakeFor,hphase]
    dsimp only
    rw [← taskWaitMatchesFilter_eq]
    cases hm : taskWaitMatchesFilter k c k.waitPid with
    | false => simp
    | true => simp [hw,Task.row,Task.phase,Task.endWait]
  · rw [if_neg (by simp only [Bool.and_eq_true,decide_eq_true_eq]; tauto),Row.wakeFor]
    split
    · rename_i filter hphase
      have := phase_waiting.1 hphase
      tauto
    · rfl

lemma procTable_taskWakeWaiters (pid : ℤ) :
    (taskWakeWaiters pid s).procTable=s.procTable.wakeWaiters pid := by
  rw [taskWakeWaiters,ProcTable.wakeWaiters,← taskByPid_eq]
  cases taskByPid s pid with
  | none => rfl
  | some c =>
    simp only [System.procTable,ProcTable.mk.injEq,and_true]
    funext i
    exact row_wakeFor (s.tasks i) (s.tasks c)

lemma row_setSig {k : Task} {g : SignalState} (h : g.actions=k.sig.actions) :
    (k.setSig g).row=k.row := by
  have hrow (k : Task) : k.row=(k.setSig k.sig.actions).row := rfl
  rw [hrow k,← h]
  rfl

lemma procTable_taskNotifySigchld (ev : ChildEvent) :
    (taskNotifySigchld t ev s).procTable=s.procTable := by
  unfold taskNotifySigchld
  split
  · rfl
  dsimp only
  split_ifs
  · rfl
  · rfl
  · exact procTable_setTask_same (row_setSig SignalState.actions_enqueue)

lemma procTable_taskWakePipe (p : ℕ) : (taskWakePipe p s).procTable=s.procTable := by
  refine procTable_congr fun i => ?_
  dsimp only
  split_ifs with h
  · simp only [Bool.and_eq_true,Bool.or_eq_true,decide_eq_true_eq] at h
    obtain ⟨⟨hw,hk | hk⟩,-⟩ := h <;> simp [Task.row,Task.phase,hw,hk]
  · rfl

lemma procInv_procTable (T : ProcTable) : ProcInv fun s => s.procTable=T :=
  .of_parts (.of_view fun _ _ hv h => (procTable_of_procView hv).trans h) (fun _ _ h => h)
    (fun _ _ _ h => (procTable_setTask_same rfl).trans h) fun _ _ h => (procTable_taskWakePipe _).trans h

lemma keeps_procTable_closeAllFds : Keeps System.procTable (closeAllFds t) :=
  fun s => (procInv_procTable s.procTable).closeAllFds t s rfl

lemma keeps_procTable_release : Keeps System.procTable (taskRelease t) := by
  refine .of_preserves fun T => ?_
  have h := procInv_procTable T
  exact (h.closeAllFds t).bind fun _ => (h.unmapUser t).bind fun _ => (h.modifyMm t _).bind fun _ =>
    (Preserves.of_gets _).bind fun k => (h.modifyPhys (freeTaskPages k)).bind fun _ =>
    .of_modify fun _ hT => (procTable_setTask_same rfl).trans hT

variable {E : System → Prop}

lemma wp_taskReapSlot : wp (taskReapSlot t) (fun _ s' => s'.procTable=s.procTable.reap t) E s := by
  have hinit : (if (s.tasks t).pid=s.initPid then {s with initPid := -1} else s : System).procTable
      = {s.procTable with initPid := if (s.tasks t).pid=s.initPid then -1 else s.initPid} := by
    split_ifs <;> rfl
  have hreaped (s : System) : (if s.current=some t then {s with currentReaped := true} else s :
      System).procTable=s.procTable := by
    split_ifs <;> rfl
  rw [taskReapSlot,wp_modify_bind,wp_modify_bind,wp_bind]
  refine wp_imp ((total_taskRelease t).wp_keeps keeps_procTable_release) fun _ s2 h2 => ?_
  rw [modifyTask,wp_modify,procTable_setTask,h2,hreaped,hinit]
  rfl

lemma wp_reparentReport {s1 : System} {k : Task} {init : Option TaskIx} : wp (do
      if k.state=.zombie then
        if parentAutoReaps (← .gets id) init then taskReapSlot i
        else .modify fun s => taskWakeWaiters k.pid (taskNotifySigchld i .exit s)
      else if k.state=.stopped && k.sig.stopReportPending then
        .modify fun s => taskWakeWaiters k.pid (taskNotifySigchld i .stop s)
      else .when k.sig.contReportPending <|
        .modify fun s => taskWakeWaiters k.pid (taskNotifySigchld i .cont s))
      (fun _ s' => s'.procTable = if k.row.phase=.zombie then
          if s1.procTable.autoReaps init then s1.procTable.reap i else s1.procTable.wakeWaiters k.pid
        else if k.row.phase=.stopped && k.row.stopReport || k.row.contReport then
          s1.procTable.wakeWaiters k.pid
        else s1.procTable) E s1 := by
  have htell (ev : ChildEvent) : (taskWakeWaiters k.pid (taskNotifySigchld i ev s1)).procTable
      = s1.procTable.wakeWaiters k.pid := by
    rw [procTable_taskWakeWaiters,procTable_taskNotifySigchld]
  have hz : k.row.phase=.zombie ↔ k.state=.zombie := phase_zombie
  have hst : k.row.phase=.stopped ↔ k.state=.stopped := phase_stopped
  by_cases hzombie : k.state=.zombie
  · rw [if_pos hzombie,if_pos (hz.2 hzombie),wp_gets_bind,id,parentAutoReaps_eq]
    split_ifs
    · exact wp_taskReapSlot
    · exact htell _
  · rw [if_neg hzombie,if_neg (mt hz.1 hzombie)]
    cases hstop : (k.state=.stopped && k.sig.stopReportPending : Bool) with
    | true =>
      rw [Bool.and_eq_true,decide_eq_true_eq] at hstop
      rw [if_pos rfl,if_pos (by simp [hst.2 hstop.1,show k.row.stopReport=true from hstop.2])]
      exact htell _
    | false =>
      have hstop' : (k.row.phase=.stopped && k.row.stopReport : Bool)=false := by
        rw [← hstop]
        exact congrArg (· && _) (decide_eq_decide.2 hst)
      rw [if_neg (by simp),hstop',Bool.false_or]
      change wp (Prog.when k.row.contReport _) _ _ _
      cases k.row.contReport with
      | true => exact htell _
      | false => rfl

lemma wp_reparentChild (old : ℤ) (init : Option TaskIx) (new : ℤ) :
    wp (reparentChild old init new i)
      (fun _ s' => s'.procTable=s.procTable.reparentChild old init new i) E s := by
  rw [reparentChild,wp_gets_bind,ProcTable.reparentChild]
  have hcond : ((s.tasks i).state≠.unused && (s.tasks i).ppid=old : Bool)
      = ((s.procTable.rows i).phase≠.unused && (s.procTable.rows i).ppid=old : Bool) :=
    congrArg (· && _) (decide_eq_decide.2 (not_congr phase_unused.symm))
  rw [← hcond]
  refine wp_when (fun hc => ?_) fun hc => ?_
  · rw [hc,if_pos rfl,modifyTask,wp_modify_bind]
    have hset : (s.setTask i fun k => {k with ppid := new}).procTable
        = s.procTable.set i {s.procTable.rows i with ppid := new} := procTable_setTask
    rw [← hset]
    generalize s.setTask i _=s1
    by_cases hn : new≤0
    · rw [if_pos hn]
      refine wp_when (fun h => ?_) fun _ => rfl
      have := of_decide_eq_true h
      omega
    · rw [if_neg hn]
      refine wp_when (fun _ => wp_reparentReport) fun h => ?_
      have := of_decide_eq_false h
      omega
  · rw [hc,if_neg (by simp)]

lemma wp_taskReparentChildren (old : ℤ) : wp (taskReparentChildren old)
    (fun _ s' => s'.procTable=s.procTable.reparent old) E s := by
  rw [taskReparentChildren,wp_gets_bind,ProcTable.reparent,id,taskFindLiveInit_eq]
  refine wp_when (fun h => ?_) fun h => ?_
  · rw [if_neg (by have := of_decide_eq_true h; omega)]
    exact wp_forEach_foldl (fun i s => wp_reparentChild _ _ _) _
  · rw [if_pos (by have := of_decide_eq_false h; omega)]

lemma wp_taskForceExit (code : ℤ) (h : (s.procTable.rows t).alive=true) : wp (taskForceExit t code)
    (fun _ s' => s'.procTable=s.procTable.exit t) E s := by
  have hlive : ((s.tasks t).state≠.unused && (s.tasks t).state≠.zombie : Bool)=true := by
    have := alive_row.1 h
    simpa using this
  have hrow (k : Task) : (k.exited code).row=k.row.ended := rfl
  rw [taskForceExit,wp_gets_bind,id,hlive,Prog.when,if_pos rfl,wp_bind]
  refine wp_imp ((total_closeAllFds t).wp_keeps keeps_procTable_closeAllFds) fun _ s1 h1 => ?_
  rw [wp_bind,modifyTask,wp_modify,wp_modify_bind,wp_bind]
  refine wp_imp (wp_taskReparentChildren _) fun _ s2 h2 => ?_
  rw [procTable_taskNotifySigchld,procTable_setTask,hrow,h1] at h2
  rw [wp_modify_bind,taskParentOf_eq,parentAutoReaps_eq]
  change wp (Prog.when (s.procTable.autoReaps (s.procTable.parentOf (s.procTable.rows t))) _) _ _ _
  have h3 : (taskWakeWaiters (s.tasks t).pid s2).procTable
      = ((s.procTable.set t (s.procTable.rows t).ended).reparent (s.tasks t).pid).wakeWaiters
        (s.tasks t).pid := by
    rw [procTable_taskWakeWaiters,h2,← h1]
    rfl
  rw [ProcTable.exit]
  refine wp_when (fun hr => ?_) fun hr => ?_
  · rw [if_pos hr]
    exact wp_imp wp_taskReapSlot fun _ s3 h => h.trans (congrArg _ h3)
  · rw [if_neg (by simp [hr])]
    exact h3

lemma procTable_stopTask (sig : ℕ) : (stopTask t sig s).procTable=s.procTable.stop t := by
  rw [stopTask,procTable_taskWakeWaiters,procTable_taskNotifySigchld,procTable_setTask,
    System.setTask_self]
  rfl

lemma procTable_continueTask : (continueTask t s).procTable=s.procTable.cont t := by
  rw [continueTask,procTable_taskWakeWaiters,procTable_taskNotifySigchld,procTable_setTask,
    System.setTask_self]
  rfl

lemma row_signalWakeWaiter (k : Task) (r : Bool) : k.row.Woken (taskSignalWakeWaiter k r).row := by
  have hwoken : ((taskSignalWakeWaiter k r).row=k.row ∨ k.state=.waiting ∧
      (taskSignalWakeWaiter k r).row={k.row with phase := .active}) := by
    unfold taskSignalWakeWaiter
    by_cases hw : k.state=.waiting
    · rw [if_neg (by simp [hw])]
      dsimp only
      split_ifs <;> exact .inr ⟨hw,rfl⟩
    · rw [if_pos hw]
      exact .inl rfl
  rcases hwoken with h | ⟨hw,h⟩
  · exact .inl h
  · by_cases hk : k.waitKind=.child
    · exact .inr ⟨⟨_,phase_waiting.2 ⟨hw,hk,rfl⟩⟩,h⟩
    · have hactive : k.row.phase=.active := by simp [Task.row,Task.phase,hw,hk]
      rw [h,← hactive]
      exact .inl rfl

end Steps

end FuriOS
