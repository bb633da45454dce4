import FuriOS.Task.Fork

/-! Loading a program into a task: `task_load_elf` and `task_exec` of `kernel/task.c`. Debug
symbols and the command name are left out; the random bytes of the auxiliary vector are given. -/
namespace FuriOS

abbrev ptLoad : ℕ := 1
abbrev ptPhdr : ℕ := 6
abbrev pfX : ℕ := 1
abbrev pfW : ℕ := 2
abbrev maxArgv : ℕ := 16
abbrev maxArgLen : ℕ := 256
abbrev timerHz : ℕ := 100

/-- The fields of the file header that loading reads. -/
structure Ehdr where
  eType : ℕ
  eMachine : ℕ
  eEntry : ℕ
  ePhoff : ℕ
  ePhentsize : ℕ
  ePhnum : ℕ

def Ehdr.read (elf : Buf) : Ehdr :=
  ⟨elf.rdLe16 16,elf.rdLe16 18,elf.rdLe64 24,elf.rdLe64 32,elf.rdLe16 54,elf.rdLe16 56⟩

structure Phdr where
  pType : ℕ
  pFlags : ℕ
  pOffset : ℕ
  pVaddr : ℕ
  pFilesz : ℕ
  pMemsz : ℕ

def Phdr.read (elf : Buf) (off : ℕ) : Phdr :=
  ⟨elf.rdLe32 off,elf.rdLe32 (off+4),elf.rdLe64 (off+8),elf.rdLe64 (off+16),elf.rdLe64 (off+32),
    elf.rdLe64 (off+40)⟩

/-- The program headers; an entry has 56 bytes. -/
def programHeaders (elf : Buf) (eh : Ehdr) : List Phdr :=
  (List.range eh.ePhnum).map fun i => Phdr.read elf (eh.ePhoff+i*56)

/-- The checks of `task_load_elf` on the file header. -/
def elfHeaderOk (elf : Buf) (elfSize : ℕ) (eh : Ehdr) : Bool :=
  64≤elfSize && elf 0=0x7f && elf 1=69 && elf 2=76 && elf 3=70 && elf 4=2
    && eh.eMachine=183 && eh.eType=2
    && eh.ePhoff≤elfSize && eh.ePhnum*eh.ePhentsize≤elfSize-eh.ePhoff && eh.ePhentsize=56

namespace Phdr

def loadable (ph : Phdr) : Bool := ph.pType=ptLoad && ph.pMemsz≠0

def firstPage (ph : Phdr) : ℕ := alignDown ph.pVaddr

def endPage (ph : Phdr) : ℕ := alignUp ((ph.pVaddr+ph.pMemsz)%2^64)

def pages (ph : Phdr) : List ℕ := pageRange ph.firstPage ph.endPage

/-- The checks of `task_validate_elf_loads` on one segment; the subtraction is one of 64 bits. -/
def valid (ph : Phdr) (elfSize : ℕ) : Bool :=
  ph.pFilesz≤ph.pMemsz && userVaBase≤ph.pVaddr && ph.pVaddr≤(userVaLimit+2^64-ph.pMemsz)%2^64
    && ph.pOffset≤elfSize && ph.pFilesz≤elfSize-ph.pOffset
    && ph.endPage≤userVaLimit && ph.firstPage≤ph.endPage

end Phdr

/-- `task_validate_elf_loads`: the end of the image and the number of its pages. -/
def taskValidateElfLoads (phs : List Phdr) (elfSize : ℕ) : Option (ℕ × ℕ) :=
  let loads := phs.filter Phdr.loadable
  let mappedPages := (loads.flatMap Phdr.pages).dedup.length
  if loads.all (·.valid elfSize) && mappedPages≠0 then
    some ((loads.map Phdr.endPage).foldl max userVaBase,mappedPages)
  else none

def taskTranslate (m : AddressSpace) (va : ℕ) : Option ℕ :=
  (taskFindPage m (alignDown va)).map fun iup => iup.2.pa+(va-alignDown va)

/-- One round of `task_copy_to_user_va`. -/
def storeUserByte (t : TaskIx) (va : ℕ) (b : UInt8) : TaskM Unit := do
  match taskTranslate (← .gets fun s => s.mm t) va with
  | none => .fail
  | some pa => modifyPhys fun m => {m with mem := Function.update m.mem pa b}

def taskCopyToUserVa (t : TaskIx) (dst : ℕ) (src : Buf) (len : ℕ) : TaskM Unit :=
  Prog.forEach (fun i => storeUserByte t ((dst+i)%2^64) (src i)) (List.range len)

/-- Map one page of a segment; a page that an earlier segment has mapped gets the rights of both. -/
def mapSegmentPage (t : TaskIx) (writable executable : Bool) (va : ℕ) : TaskM Unit := do
  let m ← .gets fun s => s.mm t
  match taskFindPage m va with
  | some (i,up) => match taskPageValidateHw m up with
    | none => .fail
    | some hw =>
      onMm t (taskSetUserPte va up.pa (taskUserAttrs (hw.writable || writable)
        (hw.executable || executable) (hw.cow && !(hw.writable || writable))))
      modifyMm t fun m => m.setPages (m.pages.put i
        {up with writableIntent := up.writableIntent || writable})
  | none =>
    let page ← allocAboveReserve
    onMm t (taskMapUserPage va page writable executable false writable)

/-- Map a segment, copy its file part and clear the rest. -/
def loadSegment (t : TaskIx) (elf : Buf) (ph : Phdr) : TaskM Unit :=
  .when ph.loadable do
    Prog.forEach (mapSegmentPage t (hasBits ph.pFlags pfW) (hasBits ph.pFlags pfX)) ph.pages
    taskCopyToUserVa t ph.pVaddr (fun i => elf (ph.pOffset+i)) ph.pFilesz
    taskCopyToUserVa t ((ph.pVaddr+ph.pFilesz)%2^64) Buf.zero (ph.pMemsz-ph.pFilesz)

/-- The page of the entry point has to be mapped and becomes executable. -/
def loadEntry (t : TaskIx) (entry : ℕ) : TaskM Unit := do
  let m ← .gets fun s => s.mm t
  match taskFindPage m (alignDown entry) with
  | none => .fail
  | some (_,up) => match taskPageValidateHw m up with
    | none => .fail
    | some hw => .when (!hw.executable) do
        onMm t (taskSetUserPte (alignDown entry) up.pa (taskUserAttrs hw.writable true hw.cow))

/-- The first page of the stack and the bounds of heap and stack. -/
def loadStack (t : TaskIx) (maxLoadEnd : ℕ) : TaskM Unit := do
  taskMapUserAnonFaultPage t (userStackTop-pageSize) true false
  modifyMm t fun m => taskRecomputeHeapLimit {m with
    stackBase := userStackTop-userStackPages*pageSize
    stackMappedBottom := userStackTop-pageSize
    heapBase := alignUp maxLoadEnd
    heapEnd := alignUp maxLoadEnd}
  let m ← .gets fun s => s.mm t
  .require (m.heapBase ≤ m.heapLimit)

def cString (a : Bytes) : Buf := fun i => a.getD i 0

/-- Push the argument strings, the last one first; the result are their addresses and the stack
pointer. -/
def pushArgs (t : TaskIx) : List Bytes → ℕ → TaskM (List ℕ × ℕ)
  | [], sp => pure ([],sp)
  | a::rest, sp => do
    let (ptrs,top) ← pushArgs t rest sp
    taskCopyToUserVa t (top-(a.length+1)) (cString a) (a.length+1)
    pure ((top-(a.length+1))::ptrs,top-(a.length+1))

def taskElfPhdrUserAddr (eh : Ehdr) (phs : List Phdr) (elfSize : ℕ) : ℕ :=
  if elfSize≤eh.ePhoff then 0
  else match phs.find? (·.pType=ptPhdr) with
    | some ph => ph.pVaddr
    | none => match phs.find? fun ph => ph.pType=ptLoad && ph.pFilesz≠0
        && ph.pOffset≤eh.ePhoff
        && (eh.ePhoff+eh.ePhnum*eh.ePhentsize)%2^64≤(ph.pOffset+ph.pFilesz)%2^64 with
      | some ph => (ph.pVaddr+(eh.ePhoff-ph.pOffset))%2^64
      | none => 0

def auxv (eh : Ehdr) (phdrAddr random : ℕ) (argPtrs : List ℕ) : List ℕ :=
  [3,phdrAddr,4,eh.ePhentsize,5,eh.ePhnum,6,pageSize,7,0,9,eh.eEntry,11,0,12,0,13,0,14,0,16,0,26,0,
    17,timerHz,23,0,25,random,31,argPtrs.headD 0,0,0]

def wordBytes (ws : List ℕ) : Buf := fun i => UInt8.ofNat (ws.getD (i/8) 0/2^(8*(i%8)))

def kernelArgv (argv : List Bytes) : List Bytes :=
  (argv.take maxArgv).map (·.take (maxArgLen-1))

/-- The stack of the new program; the result is its stack pointer. -/
def buildStack (t : TaskIx) (eh : Ehdr) (phdrAddr : ℕ) (args : List Bytes)
    (random : Buf) : TaskM ℕ := do
  let pushed ← pushArgs t args userStackTop
  taskCopyToUserVa t (pushed.2-16) random 16
  let words := args.length::pushed.1++[0,0]++auxv eh phdrAddr (pushed.2-16) pushed.1
  let sp := (pushed.2-16)/16*16-words.length*8
  taskCopyToUserVa t sp (wordBytes words) (words.length*8)
  pure sp

def entryFrame (entry sp argc : ℕ) : TrapFrame :=
  { TrapFrame.zero with
    elrEl1 := UInt64.ofNat entry
    spEl0 := UInt64.ofNat sp
    x := fun i => match i.val with
      | 0 => UInt64.ofNat argc
      | 1 => UInt64.ofNat (sp+8)
      | 2 => UInt64.ofNat (sp+8*(2+argc))
      | 3 => UInt64.ofNat (sp+8*(3+argc))
      | _ => 0}

/-- The part of `task_load_elf` that replaces the old program. -/
def installElf (t : TaskIx) (elf : Buf) (elfSize maxLoadEnd : ℕ) (argv : List Bytes)
    (random : Buf) : TaskM Unit := do
  taskUnmapUser t
  Prog.forEach (loadSegment t elf) (programHeaders elf (Ehdr.read elf))
  loadEntry t (Ehdr.read elf).eEntry
  loadStack t maxLoadEnd
  let sp ← buildStack t (Ehdr.read elf)
    (taskElfPhdrUserAddr (Ehdr.read elf) (programHeaders elf (Ehdr.read elf)) elfSize)
    (kernelArgv argv) random
  modifyTask t fun k => {k with tf := entryFrame (Ehdr.read elf).eEntry sp (kernelArgv argv).length}

def taskLoadElf (t : TaskIx) (elf : Buf) (elfSize : ℕ) (argv : List Bytes)
    (random : Buf) : TaskM Unit := do
  .require (elfHeaderOk elf elfSize (Ehdr.read elf))
  match taskValidateElfLoads (programHeaders elf (Ehdr.read elf)) elfSize with
  | none => .fail
  | some (maxLoadEnd,mappedPages) =>
    .require (mappedPages+1 ≤ maxUserPages
      && pmmOomReservePages+(mappedPages+1)<pmmAvailablePages (← .gets System.phys))
    installElf t elf elfSize maxLoadEnd argv random

def taskExec (t : TaskIx) (elf : Buf) (elfSize : ℕ) (argv : List Bytes)
    (random : Buf) : TaskM Unit := do
  taskLoadElf t elf elfSize argv random
  modifyTask t fun k => k.setSig k.sig.resetForExec

end FuriOS
