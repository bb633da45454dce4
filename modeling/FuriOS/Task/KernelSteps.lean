import FuriOS.Task.ExitSpec
import FuriOS.Task.ExecSpec

/-! The calls of the current task that reach the process table, and the steps of the kernel from
the booted system on. -/
namespace FuriOS
open Prog

section Frames
variable {s : System} {t i : TaskIx}

lemma findTask_eq_some {p : Task → Bool} (h : s.findTask p=some i) : p (s.tasks i)=true := by
  have := List.find?_some h
  simpa using this

lemma runnable_next {start : Option TaskIx}
    (h : (taskNextRunnable s start).or (currentRunnable s)=some i) : (s.tasks i).state=.runnable := by
  rcases Option.or_eq_some_iff.1 h with h | ⟨-,h⟩
  · have := List.find?_some h
    simpa using this
  · rw [currentRunnable,Option.filter_eq_some_iff] at h
    simpa using h.2

lemma runnable_first {force : Bool} (h : firstChoice force s=some i) : (s.tasks i).state=.runnable := by
  unfold firstChoice at h
  split at h
  · rw [currentRunnable,Option.filter_eq_some_iff] at h
    simpa using h.2
  · exact runnable_next h

namespace AsideMm
variable {I : System → Prop} (h : AsideMm I)
include h

lemma forkPages (parent child : TaskIx) : Preserves I (forkPages parent child) := by
  have htable : Preserves I allocTable := .bind h.allocPage.attempt fun _ => .of_pure _
  have hshare (pp : UserPage) (w x cow : Bool) : Preserves I (sharePage child pp w x cow) :=
    .bind (h.modifyPhys _) fun _ => .onFail (h.onMm _ _) fun _ => h.still (pmmFreePage _)
  refine .bind ?_ fun _ => .forEach (fun i => .gets fun m => ?_) _
  · unfold taskPtSetup
    exact .gets fun _ => .require fun _ => .bind htable fun _ =>
      .bind htable fun _ => .bind htable fun _ => .bind htable fun _ =>
      .bind (h.modifyMm _ _) fun _ => .require fun _ => h.modifyMm _ _
  · split
    · exact .of_pure _
    split
    · exact .of_fail
    refine .require fun _ => .require fun _ => .require fun _ =>
      .ite (fun _ => .require fun _ => hshare _ _ _ _) fun _ => ?_
    exact .bind (hshare _ _ _ _) fun _ => .when fun _ => h.onMm _ _

lemma loadElf (htf : ∀ s f, I s → I (s.setTask t fun k => {k with tf := f})) (elf : Buf) (elfSize : ℕ)
    (argv : List Bytes) (random : Buf) : Preserves I (taskLoadElf t elf elfSize argv random) := by
  have hpage (w x : Bool) (va : ℕ) : Preserves I (mapSegmentPage t w x va) := by
    unfold mapSegmentPage
    refine .gets fun m => ?_
    split
    · split
      · exact .of_fail
      · exact .bind (h.onMm _ _) fun _ => h.modifyMm _ _
    · exact .bind h.allocAboveReserve fun _ => h.onMm _ _
  have hseg (ph : Phdr) : Preserves I (loadSegment t elf ph) :=
    .when fun _ => .bind (.forEach (hpage _ _) _) fun _ => .bind (h.copyToUserVa _ _ _ _) fun _ =>
      h.copyToUserVa _ _ _ _
  have hentry (entry : ℕ) : Preserves I (loadEntry t entry) := by
    unfold loadEntry
    refine .gets fun m => ?_
    split
    · exact .of_fail
    split
    · exact .of_fail
    · exact .when fun _ => h.onMm _ _
  have hstack (e : ℕ) : Preserves I (loadStack t e) := by
    unfold loadStack taskMapUserAnonFaultPage
    exact .bind (.bind h.allocAboveReserve fun _ => .onFail (h.onMm _ _) fun _ => h.still (pmmFreePage _))
      fun _ => .bind (h.modifyMm _ _) fun _ => .gets fun _ => .of_require _
  unfold taskLoadElf
  refine .require fun _ => ?_
  split
  · exact .of_fail
  · unfold installElf
    exact .gets fun _ => .require fun _ => .bind (h.unmapUser t) fun _ =>
      .bind (.forEach hseg _) fun _ => .bind (hentry _) fun _ => .bind (hstack _) fun _ =>
      .bind (h.buildStack t _ _ _ _) fun _ => .of_modify fun s hs => htf s _ hs

end AsideMm

end Frames

def execCurrent (elf : Buf) (elfSize : ℕ) (argv : List Bytes) (random : Buf) : TaskM Unit := do
  let t ← currentTask
  taskExec t elf elfSize argv random

/-- The calls of the current task that reach the process table. -/
inductive ProcCall
  | exit (code : ℤ)
  | kill (pid sig : ℤ)
  | wait (pid : ℤ) (options : ℕ)
  | setpgid (pid pgid : ℤ)
  | sigaction (sig : ℤ) (act : Option SigAct)
  | sigprocmask (how : ℤ) (set : BitVec 32)
  | sigreturn (f : TrapFrame)
  | fork (f : TrapFrame)
  | exec (elf : Buf) (elfSize : ℕ) (argv : List Bytes) (random : Buf)
  | blockOnPipeRead (pipe : ℕ)
  | blockOnPipeWrite (pipe : ℕ)
  | blockOnSleep (wakeTick : ℕ)

def ProcCall.perform : ProcCall → TaskM Unit
  | .exit code => taskMarkExit code
  | .kill pid sig => (taskKill pid sig).ignore
  | .wait pid options => (taskWait pid options).ignore
  | .setpgid pid pgid => (taskSetpgid pid pgid).ignore
  | .sigaction sig act => (taskSigaction sig act).ignore
  | .sigprocmask how set => (taskSigprocmask how set).ignore
  | .sigreturn f => (taskSigreturn f).ignore
  | .fork f => (taskFork f).ignore
  | .exec elf elfSize argv random => (execCurrent elf elfSize argv random).ignore
  | .blockOnPipeRead pipe => taskBlockOnPipeRead pipe
  | .blockOnPipeWrite pipe => taskBlockOnPipeWrite pipe
  | .blockOnSleep wakeTick => taskBlockOnSleep wakeTick

/-- The part of a task that decides about reaping. -/
structure TaskCore where
  pid : ℤ
  ppid : ℤ
  used : Bool
  autoReap : Bool

def Task.core (k : Task) : TaskCore := ⟨k.pid,k.ppid,k.state≠.unused,sigchldAutoReap k⟩

/-- The part of the system that decides about reaping. -/
structure Core where
  tasks : TaskIx → TaskCore
  current : Option TaskIx
  nextPid : ℤ
  initPid : ℤ
  currentReaped : Bool

def System.core (s : System) : Core :=
  ⟨fun t => (s.tasks t).core,s.current,s.nextPid,s.initPid,s.currentReaped⟩

/-- What the system does between two states: a call of the current task, a pass through the
scheduler at the end of a trap, or anything else. The rest of the kernel and the programs work on
memory, files and descriptors and wake tasks that wait; they leave the numbers, the slots in use
and the disposition of `SIGCHLD` as they are. -/
inductive KernelStep : System → System → Prop
  | call (s : System) (c : ProcCall) : KernelStep s (c.perform.run s).2
  | schedule (s : System) (f : TrapFrame) (forceResched : Bool) (late : ℕ × ℕ) :
      KernelStep s ((taskScheduleFromTrap f forceResched late).run s).2
  | other (s s' : System) (h : s'.core=s.core) : KernelStep s s'

/-- The system as `kernel_main` starts it: init is the only task, and it runs. -/
structure Booted (s : System) : Prop where
  started : ∃ c, s.current=some c ∧ (s.tasks c).state=.running ∧ (s.tasks c).pid=1 ∧
    (s.tasks c).ppid=0 ∧ ∀ t, t≠c → (s.tasks t).state=.unused ∧ (s.tasks t).pid=0
  nextPid : s.nextPid=2
  initPid : s.initPid=1
  notReaped : s.currentReaped=false

/-- Neither the parent of the current task nor the live init task frees its children at once. -/
def ParentsWait (s : System) : Prop :=
  parentAutoReaps s (s.current.bind fun c => taskParentOf s (s.tasks c))=false ∧
    parentAutoReaps s (taskFindLiveInit s)=false

instance (s : System) : Decidable (ParentsWait s) := inferInstanceAs (Decidable (_ ∧ _))

lemma booted_single (m : AddressSpace) : Booted (System.single m) where
  started := by
    refine ⟨0,rfl,rfl,rfl,rfl,fun t ht => ?_⟩
    simp [System.single,Function.update_of_ne ht,Task.zero]
  nextPid := rfl
  initPid := rfl
  notReaped := rfl

end FuriOS
