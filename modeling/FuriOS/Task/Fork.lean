import FuriOS.Task.Exit

/-! New tasks in `kernel/task.c`: allocating a slot, setting up its translation tables, and
`fork`, which shares the pages of the parent copy-on-write. The tables above level 3 are the same
for every task and are kept only as owned pages. -/
namespace FuriOS

def standardFds : Slots maxFds Fd := fun fd =>
  if fd.val=0 then some ⟨.none,none,none,none,0,oRdonly⟩
  else if fd.val<3 then some ⟨.none,none,none,none,0,oWronly⟩
  else none

def Task.fresh (pid : ℤ) (kstack : ℕ) : Task :=
  {Task.zero with
    pid := pid, pgid := pid, state := .runnable, waitPid := -1, fds := standardFds, kstackBase := kstack}

def taskAlloc : TaskM TaskIx := do
  let s ← .gets id
  .require (taskKstackSize/pageSize+pmmOomReservePages<pmmAvailablePages s.phys)
  match s.findTask fun k => k.state=.unused with
  | none => .fail
  | some i =>
    modifyTask i fun _ => Task.zero
    let kstack ← onPhys (pmmAlloc taskKstackSize pageSize)
    modifyTask i fun _ => Task.fresh s.nextPid kstack
    .modify fun s => {s with nextPid := s.nextPid+1}
    pure i

def allocTable : TaskM ℕ := do
  let page ← (onPhys pmmAllocPage).attempt
  pure (page.getD 0)

def taskPtSetup (t : TaskIx) : TaskM Unit := do
  .require (4+pmmOomReservePages<pmmAvailablePages (← .gets System.phys))
  let l1 ← allocTable
  let l2Low ← allocTable
  let l3UserA ← allocTable
  let l3UserB ← allocTable
  modifyMm t fun m =>
    {m with l1 := l1, l2Low := l2Low, l3UserA := l3UserA, l3UserB := l3UserB}
  .require (l1≠0 && l2Low≠0 && l3UserA≠0 && l3UserB≠0)
  modifyMm t fun m => {m with ptes := fun _ => .zero}

def taskCountWritableIntentPages (m : AddressSpace) : ℕ :=
  m.pages.count fun o => o.any (·.writableIntent)

def taskForkBudgetOk (s : System) (parent : TaskIx) : Bool :=
  let avail := pmmAvailablePages s.phys
  let reserve := pmmOomReservePages+forkMinHeadroomPages
  let needNow := taskKstackSize/pageSize+4
  let cowReserve := min (taskCountWritableIntentPages (s.mm parent)/2) forkMaxCowReservePages
  reserve<avail && needNow+cowReserve+reserve<avail

/-- Map a page of the parent in the child as well, with a reference of its own. -/
def sharePage (child : TaskIx) (pp : UserPage) (pteWritable executable pteCow : Bool) :
    TaskM Unit := do
  modifyPhys (pmmRefPage pp.pa)
  (onMm child (taskMapUserPage pp.va pp.pa pteWritable executable pteCow pp.writableIntent)).onFail
    fun s => s.setPhys (pmmFreePage pp.pa s.phys)

/-- The round of `task_fork` for one page slot of the parent. -/
def forkPage (parent child : TaskIx) (i : Fin maxUserPages) : TaskM Unit := do
  let m ← .gets fun s => s.mm parent
  match m.pages i with
  | none => pure ()
  | some pp => match taskPageValidateHw m pp with
    | none => .fail
    | some hw =>
      .require !(!pp.writableIntent && hw.cow)
      .require !(hw.cow && hw.writable)
      .require !(pp.writableIntent && !hw.cow && !hw.writable)
      if m.inShared pp.va then
        .require !hw.cow
        sharePage child pp hw.writable hw.executable false
      else
        sharePage child pp false hw.executable pp.writableIntent
        .when (pp.writableIntent && !hw.cow) <|
          onMm parent (taskSetUserPte pp.va pp.pa (taskUserAttrs false hw.executable true))

def forkPages (parent child : TaskIx) : TaskM Unit := do
  taskPtSetup child
  Prog.forEach (forkPage parent child) (List.finRange maxUserPages)

/-- What the child takes over from the parent besides the pages. -/
def Task.inherit (child parent : Task) (tf : TrapFrame) : Task :=
  {child with
    mm := {child.mm with
      heapBase := parent.mm.heapBase
      heapEnd := parent.mm.heapEnd
      heapLimit := parent.mm.heapLimit
      stackBase := parent.mm.stackBase
      stackMappedBottom := parent.mm.stackMappedBottom
      vmas := parent.mm.vmas}
    tf := tf.setX0 0
    fds := parent.fds
    sig := child.sig.inheritForFork parent.sig
    state := .runnable}

/-- `task_fd_ref` -/
def taskFdRef (f : Fd) (s : System) : System :=
  match f.kind,f.pipe with
  | .pipeR,some p => s.setPipe p Pipe.refRead
  | .pipeW,some p => s.setPipe p Pipe.refWrite
  | _,_ => s

/-- A reference for every descriptor that the child takes over. -/
def refFds (fds : Slots maxFds Fd) (s : System) : System :=
  (List.finRange maxFds).foldl (fun s fd => (fds fd).elim s fun f => taskFdRef f s) s

lemma refFds_eq (fds : Slots maxFds Fd) (s : System) :
    refFds fds s={s with pipes := (refFds fds s).pipes} := by
  have hone (s : System) (fd : Fin maxFds) : (fds fd).elim s (fun f => taskFdRef f s)
      = {s with pipes := ((fds fd).elim s fun f => taskFdRef f s).pipes} := by
    cases fds fd with
    | none => rfl
    | some f =>
      change taskFdRef f s={s with pipes := (taskFdRef f s).pipes}
      unfold taskFdRef
      split <;> rfl
  unfold refFds
  generalize List.finRange maxFds=l
  induction l generalizing s with
  | nil => rfl
  | cons fd l ih =>
    rw [List.foldl_cons,ih,hone]

/-- `task_fork` with the trap frame of the parent; the result is the slot of the child. -/
def taskFork (tf : TrapFrame) : TaskM TaskIx := do
  let parent ← currentTask
  .require (taskForkBudgetOk (← .gets id) parent)
  let child ← taskAlloc
  let p ← .gets fun s => s.tasks parent
  modifyTask child fun k => {k with ppid := p.pid, pgid := p.pgid}
  match (← (forkPages parent child).attempt) with
  | none => do
    taskReapSlot child
    .fail
  | some () => do
    let p ← .gets fun s => s.tasks parent
    modifyTask child fun k => k.inherit p tf
    .modify (refFds p.fds)
    pure child

end FuriOS
