import FuriOS.Task.Schedule

/-! The process and signal system calls of `kernel/task.c` with the way their results go back
to the trap frame in `syscall_dispatch` (`kernel/syscall.c`). -/
namespace FuriOS
open Function

abbrev wnohang : ℕ := 1
abbrev wuntraced : ℕ := 2
abbrev wcontinued : ℕ := 8
abbrev sigBlock : ℤ := 0
abbrev sigUnblock : ℤ := 1
abbrev sigSetmask : ℤ := 2

/-- The child that `task_wait` reports: it has ended, or has a stop or continue report that the
options ask for. -/
def waitReports (options : ℕ) (child : Task) : Bool :=
  child.state=.zombie
    || hasBits options wuntraced && child.state=.stopped && child.sig.stopReportPending
    || hasBits options wcontinued && child.sig.contReportPending

/-- Once no child has anything to report, `SIGCHLD` is no longer pending. -/
def settleSigchld (self : TaskIx) (s : System) : System :=
  if taskParentHasChildSigchldEvent s self then s
  else s.setTask self fun k => k.setSig (k.sig.clearPending sigchld)

def waitStatusStop (sig : ℕ) : ℤ := sig%256*256+127

abbrev waitStatusCont : ℤ := 0xFFFF

/-- Report the child `i`, and the status word that goes with it. -/
def waitReport (self i : TaskIx) (options : ℕ) : TaskM (ℤ × ℤ) := do
  let child ← .gets fun s => s.tasks i
  if child.state=.zombie then
    taskReapSlot i
    .modify (settleSigchld self)
    pure (child.pid,child.exitCode)
  else if hasBits options wuntraced && child.state=.stopped && child.sig.stopReportPending then
    modifyTask i fun k => k.setSig {k.sig with stopReportPending := false}
    .modify (settleSigchld self)
    pure (child.pid,waitStatusStop (if child.sig.stopSignal≠0 then child.sig.stopSignal else sigstop))
  else
    modifyTask i fun k => k.setSig {k.sig with contReportPending := false}
    .modify (settleSigchld self)
    pure (child.pid,waitStatusCont)

/-- `task_wait`: the return value and the status. -/
def taskWait (pid : ℤ) (options : ℕ) : TaskM (ℤ × ℤ) := do
  match (← .gets System.current) with
  | none => pure (-1,0)
  | some self =>
    if options &&& (wnohang ||| wuntraced ||| wcontinued)≠options then pure (kerrEinval,0)
    else
      let s ← .gets id
      let mine (k : Task) : Bool := k.state≠.unused && taskWaitMatchesFilter (s.tasks self) k pid
      match s.findTask fun k => mine k && waitReports options k with
      | some i => waitReport self i options
      | none =>
        if (s.findTask mine).isNone then do
          modifyTask self fun k => k.setSig (k.sig.clearPending sigchld)
          pure (kerrEchild,0)
        else if hasBits options wnohang then pure (0,0)
        else do
          modifyTask self fun k =>
            {k with state := .waiting, waitPid := pid, waitKind := .child, waitObj := none, wakeTick := 0}
          pure (-2,0)

def taskGroupExists (s : System) (pgid : ℤ) : Bool :=
  0<pgid && (s.findTask fun k => k.state≠.unused && k.pgid=pgid).isSome

def taskSetpgid (pid pgid : ℤ) : TaskM ℤ := do
  match (← .gets System.current) with
  | none => pure (-1)
  | some self =>
    let s ← .gets id
    if pid<0 ∨ pgid<0 then pure (-1)
    else match taskByPid s (if pid=0 then (s.tasks self).pid else pid) with
      | none => pure (-1)
      | some target =>
        let k := s.tasks target
        let pgid := if pgid=0 then k.pid else pgid
        if k.state=.zombie || target≠self && k.ppid≠(s.tasks self).pid
            || pgid≠k.pid && !taskGroupExists s pgid then pure (-1)
        else do
          modifyTask target fun k => {k with pgid := pgid}
          pure 0

/-- `fu_sigaction_t` -/
structure SigAct where
  handler : UInt64
  flags : BitVec 32
  restorer : UInt64
  mask : BitVec 32

def SignalState.setAction (g : SignalState) (sig : ℕ) (a : SigAct) : SignalState :=
  {g with
    handler := update g.handler sig a.handler
    flags := update g.flags sig (a.flags &&& (saRestart ||| saRestorer ||| saNodefer
      ||| saResethand ||| saNocldstop ||| saNocldwait))
    restorer := update g.restorer sig a.restorer
    actionMask := update g.actionMask sig (a.mask &&& 0x7FFFFFFF)}

/-- `task_sigaction`; the old action is read from the state before. -/
def taskSigaction (sig : ℤ) (act : Option SigAct) : TaskM ℤ := do
  match (← .gets System.current) with
  | none => pure kerrEinval
  | some self =>
    if sig≤0 ∨ 32 ≤ sig ∨ !taskSignalSupported sig then pure kerrEinval
    else match act with
      | none => pure 0
      | some a =>
        if (sig=sigkill ∨ sig=sigstop) ∧ a.handler≠sigDfl then pure kerrEinval
        else do
          modifyTask self fun k => k.setSig (k.sig.setAction sig.toNat a)
          .when (sig=sigchld) do
            taskReapSigchldZombies self
            .modify (settleSigchld self)
          pure 0

/-- The mask that `task_sigprocmask` sets. -/
def newMask (how : ℤ) (set old : BitVec 32) : BitVec 32 :=
  (if how=sigBlock then old ||| set else if how=sigUnblock then old &&& ~~~set else set)
    &&& ~~~(sigbit sigkill ||| sigbit sigstop)

def taskSigprocmask (how : ℤ) (set : BitVec 32) : TaskM ℤ := do
  match (← .gets System.current) with
  | none => pure kerrEinval
  | some self =>
    if how≠sigBlock ∧ how≠sigUnblock ∧ how≠sigSetmask then pure kerrEinval
    else do
      modifyTask self fun k => k.setSig {k.sig with signalMask := newMask how set k.sig.signalMask}
      pure 0

/-- `(int)v` as a 64-bit result: the low 32 bits with their sign. -/
def intResult (v : UInt64) : UInt64 := ⟨(v.toBitVec.setWidth 32).signExtend 64⟩

/-- `task_sigreturn` into the frame `f`: the frame it leaves there and the return value. -/
def taskSigreturn (f : TrapFrame) : TaskM (TrapFrame × UInt64) := do
  match (← .gets System.current) with
  | none => pure (f,UInt64.ofInt kerrEinval)
  | some self =>
    let g ← .gets fun s => (s.tasks self).sig
    if !g.active then pure (f,UInt64.ofInt kerrEinval)
    else do
      modifyTask self fun k => k.setSig {k.sig with
        signalMask := g.savedMask, active := false, activeNum := 0, savedMask := 0}
      pure (g.savedTf,intResult (g.savedTf.x 0))

/-- The current task has ended, so the dispatcher asks for another one. -/
def currentZombie (s : System) : Bool := s.current.any fun c => (s.tasks c).state=.zombie

/-- The `sigreturn` system call as `trap_handle_sync` runs it: the dispatcher stores the return
value in the frame, and the scheduler returns to a frame. -/
def trapSigreturn (f : TrapFrame) (late : ℕ × ℕ) : TaskM TrapFrame := do
  let r ← taskSigreturn f
  taskScheduleFromTrap (r.1.setX0 r.2) (currentZombie (← .gets id)) late

def taskBlockOn (kind : WaitKind) (obj : Option ℕ) (wakeTick : ℕ) : TaskM Unit := do
  match (← .gets System.current) with
  | none => pure ()
  | some self => modifyTask self fun k =>
    {k with state := .waiting, waitKind := kind, waitObj := obj, wakeTick := wakeTick}

def taskBlockOnPipeRead (pipe : ℕ) : TaskM Unit := taskBlockOn .pipeRead (some pipe) 0

def taskBlockOnPipeWrite (pipe : ℕ) : TaskM Unit := taskBlockOn .pipeWrite (some pipe) 0

def taskBlockOnSleep (wakeTick : ℕ) : TaskM Unit := taskBlockOn .sleep none wakeTick

end FuriOS
