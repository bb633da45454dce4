import FuriOS.Task.Exit

/-! Signal delivery, the scheduler and the process system calls of `kernel/task.c`. -/
namespace FuriOS
open Function

def inUserRange (a : UInt64) : Bool := userVaBase≤a.toNat && a.toNat<userVaLimit

/-- A stopped task goes on, and its parent is told. -/
def continueTask (t : TaskIx) (s : System) : System :=
  let s := s.setTask t fun k => {k with
    state := .runnable
    sig := {k.sig with contReportPending := true, stopReportPending := false, stopSignal := 0}}
  taskWakeWaiters (s.tasks t).pid (taskNotifySigchld t .cont s)

/-- A task is stopped, and its parent is told. -/
def stopTask (t : TaskIx) (sig : ℕ) (s : System) : System :=
  let s := s.setTask t fun k => {k.endWait with
    state := .stopped
    sig := {k.sig with contReportPending := false, stopReportPending := true, stopSignal := sig}}
  taskWakeWaiters (s.tasks t).pid (taskNotifySigchld t .stop s)

/-- The frame that delivery saves: a blocked call that is not restarted returns interrupted. -/
def savedFrame (f : TrapFrame) (flags : BitVec 32) : TrapFrame :=
  if f.x 0=retBlocked && flags &&& saRestart == 0 then f.setX0 retInterrupted else f

def handlerFrame (f : TrapFrame) (sig : ℕ) (handler restorer : UInt64) : TrapFrame :=
  {f with
    elrEl1 := handler
    x := update (update f.x 0 (UInt64.ofNat sig)) 30 restorer}

def handlerMask (g : SignalState) (sig : ℕ) : BitVec 32 :=
  (g.signalMask ||| g.actionMask sig &&& 0x7FFFFFFF
    ||| (if g.flags sig &&& saNodefer == 0 then sigbit sig else 0))
  &&& ~~~(sigbit sigkill ||| sigbit sigstop)

/-- The signal state while the handler of `sig` runs. -/
def SignalState.enterHandler (g : SignalState) (sig : ℕ) (f : TrapFrame) : SignalState :=
  let reset := g.flags sig &&& saResethand != 0
  {g with
    savedTf := savedFrame f (g.flags sig)
    savedMask := g.signalMask
    active := true
    activeNum := sig
    handler := if reset then update g.handler sig sigDfl else g.handler
    flags := if reset then update g.flags sig 0 else g.flags
    restorer := if reset then update g.restorer sig 0 else g.restorer
    actionMask := if reset then update g.actionMask sig 0 else g.actionMask
    signalMask := handlerMask g sig}

def Task.enterHandler (k : Task) (sig : ℕ) : Task :=
  {k with
    tf := handlerFrame k.tf sig (k.sig.handler sig) (k.sig.restorer sig)
    sig := k.sig.enterHandler sig k.tf}

/-- A handler that cannot be entered: no restorer, or an address outside user space. -/
def badHandler (g : SignalState) (sig : ℕ) : Bool :=
  g.flags sig &&& saRestorer == 0 || !inUserRange (g.restorer sig) || !inUserRange (g.handler sig)

/-- The loop of `task_deliver_pending_signal`; `false` means that the task may not run. Every
round takes one of the signals 1 to 31 out of the pending set, so 32 rounds are enough. -/
def deliverLoop (t : TaskIx) : ℕ → TaskM Bool
  | 0 => pure true
  | fuel+1 => do
    let k ← .gets fun s => s.tasks t
    modifyTask t fun k => k.setSig k.sig.pickPending.2
    match k.sig.pickPending.1 with
    | none => pure true
    | some sig =>
      if k.sig.handler sig=sigIgn
          || k.sig.handler sig=sigDfl && taskSignalDefaultAction sig=.ignore then
        deliverLoop t fuel
      else if k.sig.handler sig=sigDfl then
        match taskSignalDefaultAction sig with
        | .cont => do
          .modify fun s => if (s.tasks t).state=.stopped then continueTask t s else s
          deliverLoop t fuel
        | .stop => do
          .modify fun s => if (s.tasks t).state≠.stopped then stopTask t sig s else s
          pure false
        | _ => do
          taskForceExit t (waitStatusSig sig)
          pure false
      else if k.sig.active then do
        modifyTask t fun k => k.setSig (k.sig.enqueue sig)
        pure true
      else if badHandler k.sig sig then do
        taskForceExit t (waitStatusSig sigterm)
        pure false
      else do
        modifyTask t fun k => k.enterHandler sig
        pure true

def taskDeliverPendingSignal (t : TaskIx) : TaskM Bool := do
  let k ← .gets fun s => s.tasks t
  if k.state=.unused ∨ k.state=.zombie then pure true else deliverLoop t 32

/-- The first runnable task after `start`, and `start` last. -/
def taskNextRunnable (s : System) (start : Option TaskIx) : Option TaskIx :=
  let n := start.elim 0 fun i => i.val+1
  (((List.finRange maxTasks).drop n)++(List.finRange maxTasks).take n).find? fun i =>
    (s.tasks i).state=.runnable

/-- The sleepers that are due become runnable. -/
def taskWakeSleepers (now : ℕ) (s : System) : System :=
  {s with tasks := fun i =>
    let k := s.tasks i
    if k.state=.waiting && k.waitKind=.sleep && k.wakeTick≤now then
      {k with state := .runnable, waitKind := .none, waitObj := none, wakeTick := 0}
    else k}

def currentRunnable (s : System) : Option TaskIx :=
  s.current.filter fun c => (s.tasks c).state=.runnable

/-- The tick at which the first sleeper is due. -/
def firstWake (s : System) : Option ℕ :=
  (List.finRange maxTasks).foldl (fun best i =>
    if (s.tasks i).state=.waiting && (s.tasks i).waitKind=.sleep then
      some (best.elim (s.tasks i).wakeTick (min (s.tasks i).wakeTick)) else best) none

/-- The idle loop: wait until a sleeper is due, at most `late` ticks longer. Without a sleeper
the loop does not end. -/
def idleLoop (late : ℕ) : TaskM TaskIx := do
  match firstWake (← .gets id) with
  | none => .fail
  | some wake =>
    .modify fun s => {s with ticks := max s.ticks wake+late}
    .modify fun s => taskWakeSleepers s.ticks s
    match (← .gets fun s => (taskNextRunnable s s.current).or (currentRunnable s)) with
    | none => .fail
    | some next => pure next

/-- The loop that delivers signals to the chosen task until one may run. Every round that goes
on has stopped or ended a runnable task. -/
def runnableLoop : ℕ → Option TaskIx → TaskM (Option TaskIx)
  | 0, _ => .fail
  | _+1, none => pure none
  | fuel+1, some next => do
    let ok ← taskDeliverPendingSignal next
    let s ← .gets id
    if ok && (s.tasks next).state≠.zombie && (s.tasks next).state≠.stopped
        && (s.tasks next).state≠.waiting
    then pure (some next)
    else runnableLoop fuel ((taskNextRunnable s (some next)).or (currentRunnable s))

def firstChoice (forceResched : Bool) (s : System) : Option TaskIx :=
  if !forceResched && (currentRunnable s).isSome then currentRunnable s
  else (taskNextRunnable s s.current).or (currentRunnable s)

def orIdle (late : ℕ) : Option TaskIx → TaskM TaskIx
  | some next => pure next
  | none => idleLoop late

/-- The frame of the trap becomes the frame of the current task. -/
def saveTrap (f : TrapFrame) (s : System) : System :=
  match s.current with
  | none => s
  | some c => s.setTask c fun k =>
    {k with tf := f, state := if k.state=.running then .runnable else k.state}

def switchTo (next : TaskIx) (s : System) : System :=
  {s.setTask next fun k => {k with state := .running} with current := some next}

/-- `task_schedule_from_trap`: the result is the frame that is returned to. Its two idle loops may be
late by different times. -/
def taskScheduleFromTrap (f : TrapFrame) (forceResched : Bool) (late : ℕ × ℕ) : TaskM TrapFrame := do
  .modify (saveTrap f)
  taskReapOrphanZombies (← .gets System.current)
  let first ← orIdle late.1 (← .gets (firstChoice forceResched))
  let next ← orIdle late.2 (← runnableLoop (2*maxTasks) (some first))
  .modify (switchTo next)
  .gets fun s => (s.tasks next).tf

/-- `task_signal_one`: whether the signal was accepted. -/
def taskSignalOne (self victim : TaskIx) (sig : ℕ) : TaskM Bool := do
  let s ← .gets id
  let v := s.tasks victim
  if v.state=.unused || v.pid=s.initPid && (s.tasks self).pid≠s.initPid then pure false
  else if sig=0 || v.state=.zombie then pure true
  else if sig=sigkill then do
    taskForceExit victim (waitStatusSig sig)
    pure true
  else if v.sig.handler sig=sigIgn && sig≠sigstop then pure true
  else do
    modifyTask victim fun k => k.setSig (k.sig.enqueue sig)
    .when !(v.sig.blocked sig) <| if sig=sigcont then .modify fun s =>
        let s := s.setTask victim fun k => k.setSig (k.sig.clearPending sigstop)
        let s := if (s.tasks victim).state=.stopped then continueTask victim s else s
        s.setTask victim fun k => taskSignalWakeWaiter k true
      else if sig=sigstop then .modify fun s =>
        let s := s.setTask victim fun k => k.setSig (k.sig.clearPending sigcont)
        if (s.tasks victim).state≠.stopped then stopTask victim sig s else s
      else modifyTask victim fun k => taskSignalWakeWaiter k
        (v.sig.handler sig≠sigDfl && v.sig.flags sig &&& saRestart != 0)
    pure true

/-- The tasks that `task_kill` with a group argument looks at. -/
def killSelects (s : System) (self : TaskIx) (pid : ℤ) (k : Task) : Bool :=
  k.state≠.unused && !(pid=0 && k.pgid≠(s.tasks self).pgid) && !(pid < -1 && k.pgid ≠ -pid)
    && !(pid = -1 && k.pid=s.initPid)

/-- The loop over the group; the result is the number of tasks that accepted the signal. -/
def killGroup (self : TaskIx) (pid : ℤ) (sig : ℕ) : List TaskIx → TaskM ℕ
  | [] => pure 0
  | i::rest => do
    let s ← .gets id
    if killSelects s self pid (s.tasks i) then do
      let hit ← taskSignalOne self i sig
      let n ← killGroup self pid sig rest
      pure (hit.toNat+n)
    else killGroup self pid sig rest

abbrev kerrEsrch : ℤ := -3
abbrev kerrEchild : ℤ := -10
abbrev kerrEinval : ℤ := -22

def taskKill (pid sig : ℤ) : TaskM ℤ := do
  match (← .gets System.current) with
  | none => pure kerrEinval
  | some self =>
    if !taskSignalSupported sig then pure kerrEinval
    else if 0<pid then
      match taskByPid (← .gets id) pid with
      | none => pure kerrEsrch
      | some victim => do
        let hit ← taskSignalOne self victim sig.toNat
        pure (if hit then 0 else kerrEsrch)
    else do
      let n ← killGroup self pid sig.toNat (List.finRange maxTasks)
      pure (if n=0 then kerrEsrch else 0)

end FuriOS
