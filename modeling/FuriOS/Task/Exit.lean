import FuriOS.Task.Mmap
import FuriOS.Task.Signal

/-! The end of a task in `kernel/task.c`: exit, notification of the parent, new parents for the
children, and freeing the slot. The reference counts of sockets are left out. -/
namespace FuriOS

def waitStatusExit (code : ℤ) : ℤ := code%256 * 256

def waitStatusSig (sig : ℕ) : ℤ := sig%128

def modifyTask (t : TaskIx) (f : Task → Task) : TaskM Unit := .modify fun s => s.setTask t f

/-- The first slot that satisfies the condition. -/
def System.findTask (s : System) (p : Task → Bool) : Option TaskIx :=
  (List.finRange maxTasks).find? fun i => p (s.tasks i)

def taskByPid (s : System) (pid : ℤ) : Option TaskIx :=
  s.findTask fun k => k.state≠.unused && k.pid=pid

def taskFindLiveInit (s : System) : Option TaskIx :=
  if s.initPid≤0 then none
  else (s.findTask fun k => k.pid=s.initPid).filter fun i =>
    (s.tasks i).state≠.unused && (s.tasks i).state≠.zombie

def taskWaitMatchesFilter (parent child : Task) (filter : ℤ) : Bool :=
  child.ppid=parent.pid && if 0<filter then child.pid=filter else if filter = -1 then true
    else if filter=0 then child.pgid=parent.pgid
    else child.pgid = -filter

def taskParentOf (s : System) (k : Task) : Option TaskIx :=
  if k.ppid≤0 then none else taskByPid s k.ppid

/-- `task_wake_waiters`: the tasks that wait for this child become runnable. -/
def taskWakeWaiters (childPid : ℤ) (s : System) : System :=
  match taskByPid s childPid with
  | none => s
  | some c => {s with tasks := fun i =>
      let waiter := s.tasks i
      if waiter.state=.waiting && waiter.waitKind=.child
          && taskWaitMatchesFilter waiter (s.tasks c) waiter.waitPid
      then {waiter.endWait with state := .runnable} else waiter}

inductive ChildEvent
  | exit | stop | cont
  deriving DecidableEq

def taskNotifySigchld (t : TaskIx) (ev : ChildEvent) (s : System) : System :=
  match taskParentOf s (s.tasks t) with
  | none => s
  | some p =>
    let parent := s.tasks p
    if parent.state=.zombie then s
    else if ev≠.exit && parent.sig.flags sigchld &&& saNocldstop != 0 then s
    else s.setTask p fun k => k.setSig (k.sig.enqueue sigchld)

/-- `task_sigchld_auto_reap` of the parent, if there is one -/
def parentAutoReaps (s : System) (parent : Option TaskIx) : Bool :=
  parent.any fun p => sigchldAutoReap (s.tasks p)

def taskWakePipe (pipe : ℕ) (s : System) : System :=
  {s with tasks := fun i =>
    let k := s.tasks i
    if k.state=.waiting && (k.waitKind=.pipeRead || k.waitKind=.pipeWrite) && k.waitObj=some pipe
    then {k with state := .runnable, waitKind := .none, waitObj := none, wakeTick := 0} else k}

/-- The inode that closing the descriptor writes back. -/
def fdWriteback (s : System) (f : Fd) : Option ℕ :=
  if f.kind=.inode && (taskFdMode f.flags=oWronly || taskFdMode f.flags=oRdwr) then
    f.inode.filter fun n => (s.inodes n).type=.file || fsIsBlockDev (s.inodes n)
  else none

/-- The write-back part of `task_fd_close`. -/
def fdFlush (f : Fd) : TaskM Unit := do
  match fdWriteback (← .gets id) f with
  | some n => pagecacheFlushInode n
  | none => pure ()

def System.setPipe (s : System) (p : ℕ) (f : Pipe → Pipe) : System :=
  {s with pipes := Function.update s.pipes p (f (s.pipes p))}

/-- `task_fd_drop` of a used descriptor -/
def taskFdDrop (f : Fd) (s : System) : System :=
  match f.kind,f.pipe with
  | .pipeR,some p => s.setPipe p Pipe.closeRead
  | .pipeW,some p => s.setPipe p Pipe.closeWrite
  | _,_ => s

def clearFd (t : TaskIx) (fd : Fin maxFds) (f : Fd) (s : System) : System :=
  (taskFdDrop f s).setTask t fun k => {k with fds := k.fds.clear fd}

/-- Who waits for the pipe of a closed descriptor looks again. -/
def wakeFd (f : Fd) (s : System) : System :=
  if f.kind=.pipeR || f.kind=.pipeW then f.pipe.elim s fun p => taskWakePipe p s else s

/-- `task_fd_close` of a used descriptor; the result tells whether the write-back worked. -/
def taskFdClose (t : TaskIx) (fd : Fin maxFds) (f : Fd) : TaskM Bool := do
  let ok ← (fdFlush f).attempt
  .modify (clearFd t fd f)
  .modify (wakeFd f)
  pure ok.isSome

def closeAllFds (t : TaskIx) : TaskM Unit :=
  Prog.forEach (fun fd => do
    match (← .gets fun s => (s.tasks t).fds fd) with
    | none => pure ()
    | some f => (taskFdClose t fd f).ignore) (List.finRange maxFds)

/-- The translation tables of a released address space. -/
def AddressSpace.dropTables (m : AddressSpace) : AddressSpace :=
  {m with l1 := 0, l2Low := 0, l3UserA := 0, l3UserB := 0}

/-- Give back the pages of the translation tables and of the kernel stack. -/
def freeTaskPages (k : Task) (m : Phys) : Phys :=
  let m := pmmFreePage k.mm.l3UserB (pmmFreePage k.mm.l3UserA (pmmFreePage k.mm.l2Low
    (pmmFreePage k.mm.l1 m)))
  if k.kstackBase=0 then m
  else (pageRange k.kstackBase (k.kstackBase+taskKstackSize)).foldl (fun m p => pmmFreePage p m) m

def taskRelease (t : TaskIx) : TaskM Unit := do
  closeAllFds t
  taskUnmapUser t
  modifyMm t taskClearVmas
  let k ← .gets fun s => s.tasks t
  modifyPhys (freeTaskPages k)
  modifyTask t fun k => {k with mm := k.mm.dropTables, kstackBase := 0, tf := .zero}

def taskReapSlot (t : TaskIx) : TaskM Unit := do
  .modify fun s => if (s.tasks t).pid=s.initPid then {s with initPid := -1} else s
  .modify fun s => if s.current=some t then {s with currentReaped := true} else s
  taskRelease t
  modifyTask t fun _ => Task.zero

/-- The round of `task_reparent_children` for one slot; `init` is the live init task. -/
def reparentChild (oldPpid : ℤ) (init : Option TaskIx) (newPpid : ℤ) (i : TaskIx) : TaskM Unit := do
  let child ← .gets fun s => s.tasks i
  .when (child.state≠.unused && child.ppid=oldPpid) do
    modifyTask i fun k => {k with ppid := newPpid}
    .when (0<newPpid) do
      if child.state=.zombie then
        if parentAutoReaps (← .gets id) init then taskReapSlot i
        else .modify fun s => taskWakeWaiters child.pid (taskNotifySigchld i .exit s)
      else if child.state=.stopped && child.sig.stopReportPending then
        .modify fun s => taskWakeWaiters child.pid (taskNotifySigchld i .stop s)
      else .when child.sig.contReportPending <|
        .modify fun s => taskWakeWaiters child.pid (taskNotifySigchld i .cont s)

def taskReparentChildren (oldPpid : ℤ) : TaskM Unit := do
  let s ← .gets id
  .when (0<oldPpid) <| Prog.forEach
    (reparentChild oldPpid (taskFindLiveInit s) ((taskFindLiveInit s).elim (-1) fun i => (s.tasks i).pid))
    (List.finRange maxTasks)

def Task.exited (k : Task) (code : ℤ) : Task :=
  {k.endWait with
    exitCode := code
    state := .zombie
    sig := {k.sig with
      pendingSignals := 0
      signalQueue := []
      signalMask := 0
      active := false
      activeNum := 0
      savedMask := 0
      stopReportPending := false
      contReportPending := false
      stopSignal := 0}}

def taskForceExit (t : TaskIx) (code : ℤ) : TaskM Unit := do
  let s ← .gets id
  .when ((s.tasks t).state≠.unused && (s.tasks t).state≠.zombie) do
    closeAllFds t
    modifyTask t fun k => k.exited code
    .modify (taskNotifySigchld t .exit)
    taskReparentChildren (s.tasks t).pid
    .modify (taskWakeWaiters (s.tasks t).pid)
    .when (parentAutoReaps s (taskParentOf s (s.tasks t))) <| taskReapSlot t

def taskParentAlive (s : System) (k : Task) : Bool :=
  0<k.ppid && (s.findTask fun p => p.pid=k.ppid && p.state≠.unused && p.state≠.zombie).isSome

def taskReapOrphanZombies (exclude : Option TaskIx) : TaskM Unit := do
  let s ← .gets id
  .when (taskFindLiveInit s).isNone <| Prog.forEach (fun i => do
    let s ← .gets id
    .when (some i≠exclude && (s.tasks i).state=.zombie && !taskParentAlive s (s.tasks i)) <|
      taskReapSlot i) (List.finRange maxTasks)

def taskReapSigchldZombies (t : TaskIx) : TaskM Unit := do
  let s ← .gets id
  .when (sigchldAutoReap (s.tasks t)) <| Prog.forEach (fun i => do
    let s ← .gets id
    .when ((s.tasks i).state=.zombie && (s.tasks i).ppid=(s.tasks t).pid) <| taskReapSlot i)
    (List.finRange maxTasks)

def taskParentHasChildSigchldEvent (s : System) (t : TaskIx) : Bool :=
  (s.findTask fun child => child.state≠.unused && child.ppid=(s.tasks t).pid &&
    (child.state=.zombie || !((s.tasks t).sig.flags sigchld &&& saNocldstop != 0)
        && (child.state=.stopped && child.sig.stopReportPending || child.sig.contReportPending))).isSome

/-- `task_mark_exit` -/
def taskMarkExit (code : ℤ) : TaskM Unit := do
  match (← .gets System.current) with
  | none => pure ()
  | some t => taskForceExit t (waitStatusExit code)

end FuriOS
