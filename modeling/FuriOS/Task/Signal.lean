import FuriOS.Task.State

/-! Signal numbers, dispositions and the pending set and queue of one task in `kernel/task.c`. -/
namespace FuriOS

abbrev sighup : ℕ := 1
abbrev sigint : ℕ := 2
abbrev sigquit : ℕ := 3
abbrev sigkill : ℕ := 9
abbrev sigpipe : ℕ := 13
abbrev sigterm : ℕ := 15
abbrev sigchld : ℕ := 17
abbrev sigcont : ℕ := 18
abbrev sigstop : ℕ := 19
abbrev sigDfl : UInt64 := 0
abbrev sigIgn : UInt64 := 1
abbrev saRestart : BitVec 32 := 0x10000000
abbrev saRestorer : BitVec 32 := 0x04000000
abbrev saNodefer : BitVec 32 := 0x40000000
abbrev saResethand : BitVec 32 := 0x80000000
abbrev saNocldstop : BitVec 32 := 0x00000001
abbrev saNocldwait : BitVec 32 := 0x00000002
abbrev taskSignalQueueLen : ℕ := 64

def sigbit (sig : ℕ) : BitVec 32 := 1#32 <<< (sig%32)

def taskSignalSupported (sig : ℤ) : Bool :=
  sig=0 || sig=sighup || sig=sigint || sig=sigquit || sig=sigpipe || sig=sigterm
    || sig=sigkill || sig=sigstop || sig=sigcont || sig=sigchld

inductive SigDefault
  | term | ignore | stop | cont
  deriving DecidableEq, Repr

def taskSignalDefaultAction (sig : ℕ) : SigDefault :=
  if sig=sigchld then .ignore
  else if sig=sigstop then .stop
  else if sig=sigcont then .cont
  else .term

/-- A signal number that has a bit in the masks. -/
def signalNumber (sig : ℕ) : Bool := 0<sig && sig<32

namespace SignalState

def isPending (g : SignalState) (sig : ℕ) : Bool := g.pendingSignals &&& sigbit sig != 0

def blocked (g : SignalState) (sig : ℕ) : Bool :=
  signalNumber sig && sig≠sigkill && sig≠sigstop && g.signalMask &&& sigbit sig != 0

/-- `task_signal_clear_pending` -/
def clearPending (g : SignalState) (sig : ℕ) : SignalState :=
  if signalNumber sig then
    {g with
      pendingSignals := g.pendingSignals &&& ~~~sigbit sig
      signalQueue := g.signalQueue.filter fun q => q≠sig}
  else g

/-- Add the signal to the pending set and, while there is room, to the queue. -/
def addPending (g : SignalState) (sig : ℕ) : SignalState :=
  if g.isPending sig then g
  else {g with
    pendingSignals := g.pendingSignals ||| sigbit sig
    signalQueue := if g.signalQueue.length<taskSignalQueueLen then g.signalQueue++[sig]
      else g.signalQueue}

/-- `task_signal_enqueue`: stop and continue cancel each other. -/
def enqueue (g : SignalState) (sig : ℕ) : SignalState :=
  if !signalNumber sig then g
  else if sig=sigcont then (g.clearPending sigstop).addPending sig
  else if sig=sigstop then (g.clearPending sigcont).addPending sig
  else g.addPending sig

/-- The queue scan of `task_pick_pending_unblocked`: stale numbers are dropped on the way, and
the queue that is left is returned with the signal. -/
def pickFromQueue (g : SignalState) : List ℕ → Option ℕ × List ℕ
  | [] => (none,[])
  | sig::q =>
    if !signalNumber sig || !g.isPending sig then g.pickFromQueue q
    else if g.blocked sig then ((g.pickFromQueue q).1,sig::(g.pickFromQueue q).2)
    else (some sig,q)

/-- The scan over the pending set when the queue has nothing to offer. -/
def pickFromSet (g : SignalState) : Option ℕ :=
  ((List.range 31).map (· + 1)).find? fun sig => g.isPending sig && !g.blocked sig

/-- `task_pick_pending_unblocked` -/
def pickPending (g : SignalState) : Option ℕ × SignalState :=
  match g.pickFromQueue g.signalQueue with
  | (some sig,q) =>
    (some sig,{g with signalQueue := q, pendingSignals := g.pendingSignals &&& ~~~sigbit sig})
  | (none,q) => match g.pickFromSet with
    | some sig =>
      (some sig,{g with signalQueue := q, pendingSignals := g.pendingSignals &&& ~~~sigbit sig})
    | none => (none,{g with signalQueue := q})

/-- `task_reset_signal_state_for_exec` -/
def resetForExec (g : SignalState) : SignalState :=
  let used (sig : ℕ) : Bool := signalNumber sig
  {g with
    pendingSignals := 0
    signalQueue := []
    active := false
    activeNum := 0
    savedMask := 0
    savedTf := .zero
    handler := fun sig => if used sig && g.handler sig≠sigIgn then sigDfl else g.handler sig
    flags := fun sig => if used sig then 0 else g.flags sig
    restorer := fun sig => if used sig then 0 else g.restorer sig
    actionMask := fun sig => if used sig then 0 else g.actionMask sig
    signalMask := g.signalMask &&& ~~~(sigbit sigkill ||| sigbit sigstop)}

/-- `task_inherit_signal_state_for_fork` -/
def inheritForFork (child parent : SignalState) : SignalState :=
  {child with
    signalMask := parent.signalMask &&& ~~~(sigbit sigkill ||| sigbit sigstop)
    handler := parent.handler
    restorer := parent.restorer
    flags := parent.flags
    actionMask := parent.actionMask
    pendingSignals := 0
    signalQueue := []
    active := false
    activeNum := 0
    savedMask := 0
    savedTf := .zero}

end SignalState

def taskSignalMayRestartWait (kind : WaitKind) : Bool :=
  kind=.pipeRead || kind=.pipeWrite || kind=.child

namespace Task

def endWait (k : Task) : Task :=
  {k with waitPid := -1, waitKind := .none, waitObj := none, wakeTick := 0}

def setSig (k : Task) (g : SignalState) : Task := {k with sig := g}

end Task

/-- Return values of the blocking system calls: to be repeated, and interrupted. -/
abbrev retBlocked : UInt64 := 0-2
abbrev retInterrupted : UInt64 := 0-4

def TrapFrame.setX0 (f : TrapFrame) (v : UInt64) : TrapFrame := {f with x := Function.update f.x 0 v}

/-- `task_signal_wake_waiter` -/
def taskSignalWakeWaiter (k : Task) (handlerRestart : Bool) : Task :=
  if k.state≠.waiting then k
  else
    let woken := {k.endWait with state := .runnable}
    if k.tf.x 0=retBlocked && !(handlerRestart && taskSignalMayRestartWait k.waitKind) then
      {woken with tf := k.tf.setX0 retInterrupted}
    else woken

/-- `task_sigchld_auto_reap` of a live task -/
def sigchldAutoReap (k : Task) : Bool :=
  k.state≠.unused && k.state≠.zombie
    && (k.sig.handler sigchld=sigIgn || k.sig.flags sigchld &&& saNocldwait != 0)

end FuriOS
