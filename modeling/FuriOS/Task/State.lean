import FuriOS.Pmm
import FuriOS.Pipe
import FuriOS.BlockCache

/-! The state behind `kernel/task.c`: the task table with address spaces, descriptors and signal
state, physical memory, the page cache and the files under it. Names, working directories, debug
symbols, address-space identifiers and the memory statistics of a task are left out. -/
namespace FuriOS
open Function

abbrev maxTasks : ℕ := 64
abbrev TaskIx : Type := Fin maxTasks
abbrev maxFds : ℕ := 16
abbrev maxUserPages : ℕ := 512
abbrev maxFileCachePages : ℕ := 256
abbrev CacheIx : Type := Fin maxFileCachePages
abbrev userVaBase : ℕ := 0x400000
abbrev userVaLimit : ℕ := 0x800000
abbrev userStackTop : ℕ := 0x7FF000
abbrev userStackPages : ℕ := 8
abbrev taskKstackSize : ℕ := 65536
abbrev pmmOomReservePages : ℕ := 64
abbrev forkMinHeadroomPages : ℕ := 16
abbrev forkMaxCowReservePages : ℕ := 128
abbrev stackGrowSlop : ℕ := 128
abbrev oRdonly : ℕ := 0
abbrev oWronly : ℕ := 1
abbrev oRdwr : ℕ := 2

/-- The access permission field of a page descriptor. -/
inductive Ap
  | el1Rw | el0Rw | el1Ro | el0Ro
  deriving DecidableEq, Repr

/-- The bits of a level-3 descriptor that the code sets from case to case. -/
structure PteAttrs where
  ap : Ap
  uxn : Bool
  cow : Bool
  deriving DecidableEq, Repr

/-- A level-3 descriptor; a page descriptor is valid, the zero word is not. -/
structure Pte where
  valid : Bool
  pa : ℕ
  attrs : PteAttrs
  deriving DecidableEq, Repr

def Pte.zero : Pte := ⟨false,0,⟨.el1Rw,false,false⟩⟩

/-- `mmu_make_page`; physical addresses do not reach the attribute bits. -/
def mmuMakePage (pa : ℕ) (attrs : PteAttrs) : Pte := ⟨true,alignDown pa,attrs⟩

structure UserPage where
  va : ℕ
  pa : ℕ
  writableIntent : Bool
  deriving DecidableEq, Repr

/-- The memory side of `task_t`. A null table pointer is zero; the contents of the two level-3
tables are given by virtual page address. -/
structure AddressSpace where
  l1 : ℕ
  l2Low : ℕ
  l3UserA : ℕ
  l3UserB : ℕ
  ptes : ℕ → Pte
  pages : Slots maxUserPages UserPage
  heapBase : ℕ
  heapEnd : ℕ
  heapLimit : ℕ
  stackBase : ℕ
  stackMappedBottom : ℕ
  vmas : Vmas

def AddressSpace.zero : AddressSpace :=
  ⟨0,0,0,0,fun _ => .zero,.empty,0,0,0,0,0,.empty⟩

namespace AddressSpace

def setPages (m : AddressSpace) (ps : Slots maxUserPages UserPage) : AddressSpace :=
  {m with pages := ps}

def setPte (m : AddressSpace) (va : ℕ) (e : Pte) : AddressSpace :=
  {m with ptes := update m.ptes va e}

def setVmas (m : AddressSpace) (vs : Vmas) : AddressSpace := {m with vmas := vs}

variable {m : AddressSpace} {ps : Slots maxUserPages UserPage} {va va' : ℕ} {e : Pte} {vs : Vmas}

@[simp] lemma pages_setPages : (m.setPages ps).pages=ps := rfl

@[simp] lemma ptes_setPages : (m.setPages ps).ptes=m.ptes := rfl

@[simp] lemma vmas_setPages : (m.setPages ps).vmas=m.vmas := rfl

@[simp] lemma pages_setPte : (m.setPte va e).pages=m.pages := rfl

@[simp] lemma vmas_setPte : (m.setPte va e).vmas=m.vmas := rfl

@[simp] lemma ptes_setPte_self : (m.setPte va e).ptes va=e := update_self ..

lemma ptes_setPte_of_ne (h : va'≠va) : (m.setPte va e).ptes va'=m.ptes va' :=
  update_of_ne h ..

@[simp] lemma pages_setVmas : (m.setVmas vs).pages=m.pages := rfl

@[simp] lemma ptes_setVmas : (m.setVmas vs).ptes=m.ptes := rfl

@[simp] lemma vmas_setVmas : (m.setVmas vs).vmas=vs := rfl

end AddressSpace

abbrev savedRegisters : ℕ := 31

instance neZero_savedRegisters : NeZero savedRegisters := ⟨by decide⟩

/-- The saved registers of a trap. -/
structure TrapFrame where
  x : Fin 31 → UInt64
  spEl0 : UInt64
  elrEl1 : UInt64
  spsrEl1 : UInt64
  tpidrEl0 : UInt64

def TrapFrame.zero : TrapFrame := ⟨fun _ => 0,0,0,0,0⟩

/-- The signal side of `task_t`; the arrays are indexed by signal number. -/
structure SignalState where
  pendingSignals : BitVec 32
  signalQueue : List ℕ
  signalMask : BitVec 32
  handler : ℕ → UInt64
  restorer : ℕ → UInt64
  flags : ℕ → BitVec 32
  actionMask : ℕ → BitVec 32
  savedTf : TrapFrame
  savedMask : BitVec 32
  active : Bool
  activeNum : ℕ
  stopReportPending : Bool
  contReportPending : Bool
  stopSignal : ℕ

def SignalState.zero : SignalState :=
  ⟨0,[],0,fun _ => 0,fun _ => 0,fun _ => 0,fun _ => 0,.zero,0,false,0,false,false,0⟩

inductive FdKind
  | none | inode | pipeR | pipeW | socket
  deriving DecidableEq, Repr

structure Fd where
  kind : FdKind
  inode : Option ℕ
  pipe : Option ℕ
  sock : Option ℕ
  offset : ℕ
  flags : ℕ
  deriving DecidableEq, Repr

inductive TaskState
  | unused | runnable | running | waiting | stopped | zombie
  deriving DecidableEq, Repr

inductive WaitKind
  | none | child | pipeRead | pipeWrite | sleep
  deriving DecidableEq, Repr

structure Task where
  pid : ℤ
  ppid : ℤ
  pgid : ℤ
  state : TaskState
  exitCode : ℤ
  waitPid : ℤ
  waitKind : WaitKind
  waitObj : Option ℕ
  wakeTick : ℕ
  mm : AddressSpace
  sig : SignalState
  fds : Slots maxFds Fd
  kstackBase : ℕ
  tf : TrapFrame

/-- A task slot after `memset` to zero. -/
def Task.zero : Task :=
  ⟨0,0,0,.unused,0,0,.none,none,0,.zero,.zero,.empty,0,.zero⟩

inductive InodeType
  | dir | file | dev
  deriving DecidableEq, Repr

inductive FsKind
  | mem | ext4
  deriving DecidableEq, Repr

/-- The fields of an inode that the page cache and the mappings read. `metaSize` is the size in the
cached on-disk record of an ext4 file. -/
structure Inode where
  type : InodeType
  fsKind : FsKind
  fsId : ℕ
  fsIno : ℕ
  writable : Bool
  devKind : DevKind
  devLbaStart : ℕ
  devLbaCount : ℕ
  hasData : Bool
  size : ℕ
  capacity : ℕ
  metaSize : ℕ
  deriving DecidableEq

/-- What an in-memory inode stands for: two inodes of one ext4 file are the same file, and a disk
and its partitions lie on one device. -/
inductive FileId
  | node (n : ℕ)
  | ext4 (fsId fsIno : ℕ)
  | dev (kind : DevKind)
  deriving DecidableEq

structure PageCacheEntry where
  inode : ℕ
  fileOff : ℕ
  pa : ℕ
  lastTouch : ℕ
  dirty : Bool
  deriving DecidableEq

structure PageCache where
  entries : Slots maxFileCachePages PageCacheEntry
  clock : ℕ
  lastTick : ℕ
  writebackFailStreak : ℕ
  writebackBlockedUntil : ℕ

/-- The whole system. `backing` holds the contents of the files below the page cache and `ioOk n`
says whether the backing transfer number `n` succeeds. A null `current_task_ptr` is `none`, and
`initPid` is -1 when there is no init task. `currentReaped` is not in the source: it records that
the slot of the current task has been freed, and no function reads it. -/
structure System where
  phys : Phys
  inodes : ℕ → Inode
  backing : FileId → Buf
  ioOk : ℕ → Bool
  ioCount : ℕ
  cache : PageCache
  pipes : ℕ → Pipe
  tasks : TaskIx → Task
  current : Option TaskIx
  nextPid : ℤ
  initPid : ℤ
  ticks : ℕ
  currentReaped : Bool

abbrev TaskM := Prog System

namespace System

def setTask (s : System) (t : TaskIx) (f : Task → Task) : System :=
  {s with tasks := update s.tasks t (f (s.tasks t))}

def mm (s : System) (t : TaskIx) : AddressSpace := (s.tasks t).mm

def setMm (s : System) (t : TaskIx) (m : AddressSpace) : System :=
  s.setTask t fun k => {k with mm := m}

def setPhys (s : System) (m : Phys) : System := {s with phys := m}

variable {s : System} {t t' : TaskIx} {f : Task → Task} {m : AddressSpace} {ph : Phys}

@[simp] lemma setTask_self : (s.setTask t f).tasks t=f (s.tasks t) := update_self ..

lemma setTask_of_ne (h : t'≠t) : (s.setTask t f).tasks t'=s.tasks t' :=
  update_of_ne h ..

@[simp] lemma mm_setMm_self : (s.setMm t m).mm t=m := by simp [mm,setMm]

lemma mm_setMm_of_ne (h : t'≠t) : (s.setMm t m).mm t'=s.mm t' := by
  simp [mm,setMm,setTask_of_ne h]

@[simp] lemma phys_setMm : (s.setMm t m).phys=s.phys := rfl

@[simp] lemma cache_setMm : (s.setMm t m).cache=s.cache := rfl

@[simp] lemma current_setMm : (s.setMm t m).current=s.current := rfl

@[simp] lemma phys_setPhys : (s.setPhys ph).phys=ph := rfl

@[simp] lemma mm_setPhys : (s.setPhys ph).mm t=s.mm t := rfl

@[simp] lemma tasks_setPhys : (s.setPhys ph).tasks=s.tasks := rfl

@[simp] lemma cache_setPhys : (s.setPhys ph).cache=s.cache := rfl

@[simp] lemma current_setPhys : (s.setPhys ph).current=s.current := rfl

end System

def Inode.zero : Inode := ⟨.file,.mem,0,0,false,.none,0,0,false,0,0,0⟩

def PageCache.zero : PageCache := ⟨.empty,0,0,0,0⟩

/-- Physical memory as `pmm_init` leaves it when the heap starts at `start`. -/
def Phys.init (start : ℕ) : Phys := ⟨Buf.zero,start,0x4F000000,[],fun _ => 0,0⟩

/-- One running task with the given address space and no others. -/
def System.single (m : AddressSpace) : System where
  phys := Phys.init 0x40400000
  inodes _ := Inode.zero
  backing _ := Buf.zero
  ioOk _ := true
  ioCount := 0
  cache := PageCache.zero
  pipes _ := Pipe.zero
  tasks := update (fun _ => Task.zero) 0 {Task.zero with pid := 1, state := .running, mm := m}
  current := some 0
  nextPid := 2
  initPid := 1
  ticks := 0
  currentReaped := false

@[simp] lemma System.mm_single (m : AddressSpace) : (System.single m).mm 0=m := by
  simp [System.mm,System.single]

def onMm {α : Type} (t : TaskIx) (p : Prog AddressSpace α) : TaskM α :=
  p.zoom (fun s => s.mm t) (fun m s => s.setMm t m)

def onPhys {α : Type} (p : Prog Phys α) : TaskM α := p.zoom System.phys (fun m s => s.setPhys m)

def modifyMm (t : TaskIx) (f : AddressSpace → AddressSpace) : TaskM Unit :=
  .modify fun s => s.setMm t (f (s.mm t))

def modifyPhys (f : Phys → Phys) : TaskM Unit := .modify fun s => s.setPhys (f s.phys)

/-- The current task, or failure when there is none. -/
def currentTask : TaskM TaskIx := do
  match (← .gets System.current) with
  | some t => pure t
  | none => .fail

end FuriOS
