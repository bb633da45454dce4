import FuriOS.PageCache

/-! Mapping system calls, the program break and the page-fault handler of `kernel/task.c`. -/
namespace FuriOS

abbrev msAsync : ℕ := 1
abbrev msInvalidate : ℕ := 2
abbrev msSync : ℕ := 4

/-- `task_vma_writeback_page`: pass a page that the task may have written through a shared file
mapping on to the page cache. -/
def taskVmaWritebackPage (t : TaskIx) (v : VmArea) (up : UserPage) : TaskM Unit := do
  let s ← .gets id
  match v.inode with
  | none => pure ()
  | some n =>
    .when (v.shared && ((s.inodes n).type=.file || fsIsBlockDev (s.inodes n))
        && (s.inodes n).writable) do
      .require (v.start≤up.va && up.va<v.stop)
      match taskPageValidateHw (s.mm t) up with
      | none => .fail
      | some hw =>
        .require !hw.cow
        .when hw.writable <| pagecacheWriteback n ((v.fileOffset+(up.va-v.start))%2^64) up.pa
          (min pageSize (v.stop-up.va))

/-- Write back through the area that covers the page, if there is one. -/
def writebackAt (t : TaskIx) (up : UserPage) : TaskM Unit := do
  match taskVmaFind (← .gets fun s => (s.mm t).vmas) up.va with
  | none => pure ()
  | some (_,v) => taskVmaWritebackPage t v up

def taskUnmapUserPage (t : TaskIx) (vaPage : ℕ) : TaskM Unit := do
  let m ← .gets fun s => s.mm t
  match taskFindPage m vaPage with
  | none => .fail
  | some (i,up) =>
    .require (taskPageValidateHw m up).isSome
    .require (taskL3ForVa m vaPage≠0)
    writebackAt t up
    modifyMm t fun m => m.setPte vaPage .zero
    modifyPhys (pmmFreePage up.pa)
    modifyMm t fun m => m.setPages (m.pages.clear i)

/-- Forget all pages and clear the level-3 tables there are. -/
def AddressSpace.forgetPages (m : AddressSpace) : AddressSpace :=
  {m with pages := .empty, ptes := fun va => if taskL3ForVa m va≠0 then .zero else m.ptes va}

def taskUnmapUser (t : TaskIx) : TaskM Unit := do
  Prog.forEach (fun i => do
    match (← .gets fun s => (s.mm t).pages i) with
    | none => pure ()
    | some up =>
      (writebackAt t up).ignore
      modifyPhys (pmmFreePage up.pa)) (List.finRange maxUserPages)
  modifyMm t AddressSpace.forgetPages

/-- The page of a private file mapping: a copy of the cached page. -/
def privateFilePage (n fileOff : ℕ) : TaskM ℕ := do
  let page ← allocAboveReserve
  let cachedPa ← (pagecacheGetOrCreate n fileOff).onFail fun s =>
    s.setPhys (pmmFreePage page s.phys)
  modifyPhys fun m => m.copyPage page cachedPa
  modifyPhys (pmmFreePage cachedPa)
  pure page

def taskMapUserFileFaultPage (t : TaskIx) (v : VmArea) (va : ℕ)
    (writable executable : Bool) : TaskM Unit := do
  match v.inode with
  | none => .fail
  | some n =>
    if v.shared then
      let pa ← pagecacheGetOrCreate n ((v.fileOffset+(va-v.start))%2^64)
      (onMm t (taskMapUserPage va pa false executable false writable)).onFail fun s =>
        s.setPhys (pmmFreePage pa s.phys)
    else
      let page ← privateFilePage n ((v.fileOffset+(va-v.start))%2^64)
      (onMm t (taskMapUserPage va page writable executable false writable)).onFail fun s =>
        s.setPhys (pmmFreePage page s.phys)

/-- The round of `task_vma_unmap_range` for slot `i`. -/
def unmapVmaSlot (t : TaskIx) (start stop : ℕ) (i : Fin maxVmas) : TaskM Unit := do
  match (← .gets fun s => (s.mm t).vmas i) with
  | none => pure ()
  | some v => .when (v.meets start stop) do
    Prog.forEach (fun va => (taskUnmapUserPage t va).ignore)
      (pageRange (max start v.start) (min stop v.stop))
    match taskVmaCut (← .gets fun s => (s.mm t).vmas) i v start stop with
    | none => .fail
    | some vs => modifyMm t fun m => m.setVmas vs

def taskVmaUnmapRange (t : TaskIx) (start stop : ℕ) (requireMapped : Bool) : TaskM Unit := do
  let vs ← .gets fun s => (s.mm t).vmas
  .require (start<stop)
  .require (!requireMapped || taskVmaRangeMapped vs start stop)
  .require (taskVmaSplitNeed vs start stop≤taskVmaFreeSlots vs)
  Prog.forEach (unmapVmaSlot t start stop) (List.finRange maxVmas)
  modifyMm t taskRecomputeHeapLimit

/-- A page of its own for a tracked page that is about to become writable. -/
def unsharePage (t : TaskIx) (i : Fin maxUserPages) (up : UserPage) (split : Bool) : TaskM ℕ := do
  let refs ← .gets fun s => pmmPageRefcount s.phys up.pa
  .require (refs≠0)
  if split && 1<refs then
    let page ← allocAboveReserve
    modifyPhys fun m => m.copyPage page up.pa
    modifyPhys (pmmFreePage up.pa)
    modifyMm t fun m => m.setPages (m.pages.put i {up with pa := page})
    pure page
  else pure up.pa

def AddressSpace.inShared (m : AddressSpace) (va : ℕ) : Bool :=
  (taskVmaFind m.vmas va).any fun iv => iv.2.shared

def taskPageSetProt (t : TaskIx) (i : Fin maxUserPages) (up : UserPage) (prot : ℕ) :
    TaskM Unit := do
  let m ← .gets fun s => s.mm t
  .require (taskPageValidateHw m up).isSome
  if hasBits prot protWrite then
    let pa ← unsharePage t i up (!m.inShared up.va)
    modifyMm t fun m => m.setPages (m.pages.put i ⟨up.va,pa,true⟩)
    onMm t (taskSetUserPte up.va pa (taskUserAttrs (!m.inShared up.va) (hasBits prot protExec) false))
  else
    modifyMm t fun m => m.setPages (m.pages.put i {up with writableIntent := false})
    onMm t (taskSetUserPte up.va up.pa (taskUserAttrs false (hasBits prot protExec) false))

def taskFdMode (flags : ℕ) : ℕ := flags%4

/-- The file of a mapping and the right to write to it; an anonymous mapping has neither. -/
def mmapFile (t : TaskIx) (mapLen prot flags : ℕ) (fd : ℤ) (offset : ℕ) :
    TaskM (Option ℕ × Bool) := do
  let s ← .gets id
  if hasBits flags mapAnonymous then
    .require (fd = -1)
    pure (none,false)
  else match fd with
    | .negSucc _ => .fail
    | .ofNat k =>
      if hk : k < maxFds then match (s.tasks t).fds ⟨k,hk⟩ with
        | none => .fail
        | some f => match f.inode with
          | none => .fail
          | some n =>
            .require (f.kind=.inode && ((s.inodes n).type=.file || fsIsBlockDev (s.inodes n)))
            .require (taskFdMode f.flags≠oWronly)
            .require !(hasBits flags mapShared && hasBits prot protWrite
              && (taskFdMode f.flags=oRdonly || !(s.inodes n).writable))
            .require (offset+mapLen<2^64)
            pure (some n,taskFdMode f.flags≠oRdonly)
      else .fail

/-- The search of `task_mmap` for a gap, from the top down. -/
def mmapSearch (vs : Vmas) (floor mapLen : ℕ) : ℕ → ℕ → Option ℕ
  | 0, _ => none
  | fuel+1, cand =>
    if cand<floor then none
    else if !taskVmaOverlaps vs cand (cand+mapLen) then some cand
    else if cand<floor+pageSize then none
    else mmapSearch vs floor mapLen fuel (cand-pageSize)

/-- The start address: the given one, whose old areas are removed, or that of a gap. -/
def mmapPlace (t : TaskIx) (addr mapLen flags floor top : ℕ) : TaskM ℕ := do
  if hasBits flags mapFixed then
    .require (addr%pageSize=0)
    .require (addr<(addr+mapLen)%2^64 && userVaBase≤addr && (addr+mapLen)%2^64≤top)
    taskVmaUnmapRange t addr ((addr+mapLen)%2^64) false
    pure addr
  else
    let vs ← .gets fun s => (s.mm t).vmas
    match mmapSearch vs floor mapLen ((top-floor)/pageSize+1) (alignDown (top-mapLen)) with
    | none => .fail
    | some start => pure start

def AddressSpace.insertVma (m : AddressSpace) (k : Fin maxVmas) (v : VmArea) : AddressSpace :=
  taskRecomputeHeapLimit (m.setVmas (m.vmas.put k v))

def taskMmap (addr len prot flags : ℕ) (fd : ℤ) (offset : ℕ) : TaskM ℕ := do
  let t ← currentTask
  .require (len≠0 && taskVmaProtValid prot && taskVmaFlagsValid flags)
  .require (alignUp len≠0 && offset%pageSize=0)
  let file ← mmapFile t (alignUp len) prot flags fd offset
  let m ← .gets fun s => s.mm t
  .require (alignUp m.heapEnd<taskStackFloor m && alignUp len≤taskStackFloor m-alignUp m.heapEnd)
  let start ← mmapPlace t addr (alignUp len) flags (alignUp m.heapEnd) (taskStackFloor m)
  match taskVmaSlot (← .gets fun s => (s.mm t).vmas) with
  | none => .fail
  | some k =>
    modifyMm t fun m => m.insertVma k
      ⟨start,(start+alignUp len)%2^64,offset,file.1,prot,flags,file.2⟩
    pure start

/-- The page range of a call on `[addr,addr+len)`. -/
def callRange (addr len : ℕ) : TaskM ℕ := do
  .require (len≠0 && addr%pageSize=0)
  .require (addr≤(addr+len)%2^64)
  .require (addr<alignUp ((addr+len)%2^64))
  pure (alignUp ((addr+len)%2^64))

def taskMunmap (addr len : ℕ) : TaskM Unit := do
  let t ← currentTask
  let stop ← callRange addr len
  taskVmaUnmapRange t addr stop false

/-- The inodes of the shared areas in the range may be written. -/
def sharedWritable (s : System) (vs : Vmas) (start stop : ℕ) : Bool :=
  !vs.any fun v => v.meets start stop && v.shared && v.inode.any fun n => !(s.inodes n).writable

/-- The page round of `task_mprotect`. -/
def mprotectPage (t : TaskIx) (prot va : ℕ) : TaskM Unit := do
  match taskFindPage (← .gets fun s => s.mm t) va with
  | none => pure ()
  | some (i,up) => taskPageSetProt t i up prot

/-- The area part of `task_mprotect`: split at both ends and set the protection between. -/
def mprotectVmas (t : TaskIx) (start stop prot : ℕ) : TaskM Unit := do
  match taskVmaSplitAt (← .gets fun s => (s.mm t).vmas) start with
  | none => .fail
  | some vs1 =>
    modifyMm t fun m => m.setVmas vs1
    match taskVmaSplitAt vs1 stop with
    | none => .fail
    | some vs2 => modifyMm t fun m => m.setVmas (taskVmaSetProt vs2 start stop prot)

def taskMprotect (addr len prot : ℕ) : TaskM Unit := do
  let t ← currentTask
  .require (taskVmaProtValid prot)
  let stop ← callRange addr len
  let s ← .gets id
  .require (taskVmaRangeMapped (s.mm t).vmas addr stop)
  .require (!hasBits prot protWrite || sharedWritable s (s.mm t).vmas addr stop)
  .require (mprotectNeed (s.mm t).vmas addr stop≤taskVmaFreeSlots (s.mm t).vmas)
  mprotectVmas t addr stop prot
  Prog.forEach (mprotectPage t prot) (pageRange addr stop)

/-- The round of `task_msync` over the areas; `synced` are the inodes synced already. -/
def msyncSlots (t : TaskIx) (start stop : ℕ) (invalidate sync : Bool) :
    List (Fin maxVmas) → List ℕ → TaskM Unit
  | [], _ => pure ()
  | i::rest, synced => do
    let s ← .gets id
    match (s.mm t).vmas i with
    | none => msyncSlots t start stop invalidate sync rest synced
    | some v => match v.inode with
      | none => msyncSlots t start stop invalidate sync rest synced
      | some n =>
        if v.meets start stop && v.shared && ((s.inodes n).type=.file || fsIsBlockDev (s.inodes n))
        then
          let fileOff := (v.fileOffset+(max start v.start-v.start))%2^64
          let span := min stop v.stop-max start v.start
          pagecacheFlushInodeRange n fileOff span
          .when invalidate (pagecacheInvalidateInodeRange n fileOff span)
          .when (sync && n∉synced) (fsSyncInode n)
          msyncSlots t start stop invalidate sync rest (if sync then n::synced else synced)
        else msyncSlots t start stop invalidate sync rest synced

def taskMsync (addr len flags : ℕ) : TaskM Unit := do
  let t ← currentTask
  .require (len≠0 && addr%pageSize=0)
  .require (flags<8 && !(hasBits flags msAsync && hasBits flags msSync))
  let stop ← callRange addr len
  .require (taskVmaRangeMapped (← .gets fun s => (s.mm t).vmas) addr stop)
  msyncSlots t addr stop (hasBits flags msInvalidate) (hasBits flags msSync)
    (List.finRange maxVmas) []

def taskBrk (newBreak : ℕ) : TaskM ℕ := do
  let t ← currentTask
  let m ← .gets fun s => s.mm t
  if newBreak=0 then pure m.heapEnd
  else
    .require (m.heapBase≤newBreak && newBreak ≤ m.heapLimit)
    modifyMm t fun m => {m with heapEnd := newBreak}
    Prog.forEach (fun va => (taskUnmapUserPage t va).ignore)
      (pageRange (alignUp newBreak) (alignUp m.heapEnd))
    pure newBreak

/-- The loop that maps stack pages down to `bottom`. -/
def growStack (t : TaskIx) (bottom : ℕ) : ℕ → TaskM Unit
  | 0 => pure ()
  | fuel+1 => do
    let low ← .gets fun s => (s.mm t).stackMappedBottom
    .when (bottom<low) do
      taskMapUserAnonFaultPage t (low-pageSize) true false
      modifyMm t fun m => {m with stackMappedBottom := low-pageSize}
      growStack t bottom fuel

def stackFault (t : TaskIx) (faultVa userSp : ℕ) : TaskM Unit := do
  let m ← .gets fun s => s.mm t
  .require (m.stackBase < m.stackMappedBottom)
  .require (m.stackBase≤userSp && userSp<userStackTop)
  .require (userSp≤faultVa+2*pageSize+stackGrowSlop)
  .require (m.stackBase≤alignDown userSp && alignDown userSp<userStackTop)
  .require (alignDown faultVa < m.stackMappedBottom)
  growStack t (min (alignDown faultVa) (alignDown userSp)) (m.stackMappedBottom/pageSize)

/-- A fault on an address without a valid descriptor. -/
def translationFault (t : TaskIx) (faultVa : ℕ) (isWrite isInstruction : Bool)
    (userSp : ℕ) : TaskM Unit := do
  let m ← .gets fun s => s.mm t
  let va := alignDown faultVa
  .require (taskFindPage m va).isNone
  .require !(taskGetUserPte m va).any taskPteIsUserPage
  match taskVmaFind m.vmas va with
  | some (_,v) =>
    .require !(isInstruction && !hasBits v.prot protExec)
    .require !(isWrite && !hasBits v.prot protWrite)
    .require !(!isWrite && !isInstruction && !hasBits v.prot (protRead ||| protWrite))
    if v.inode.isSome && !hasBits v.flags mapAnonymous then
      taskMapUserFileFaultPage t v va (hasBits v.prot protWrite) (hasBits v.prot protExec)
    else taskMapUserAnonFaultPage t va (hasBits v.prot protWrite) (hasBits v.prot protExec)
  | none =>
    .require !isInstruction
    if m.heapBase≤va ∧ va<alignUp m.heapEnd then taskMapUserAnonFaultPage t va true false
    else if m.stackBase≤va ∧ va<userStackTop then stackFault t faultVa userSp
    else .fail

/-- A store to a page whose descriptor does not allow it. -/
def permissionFault (t : TaskIx) (va : ℕ) : TaskM Unit := do
  let m ← .gets fun s => s.mm t
  match taskFindPage m va with
  | none => .fail
  | some (i,up) => match taskPageValidateHw m up with
    | none => .fail
    | some hw =>
      .require (up.writableIntent && !hw.writable)
      if hw.cow then
        let pa ← unsharePage t i up true
        onMm t (taskSetUserPte va pa (taskUserAttrs true hw.executable false))
      else match taskVmaFind m.vmas va with
        | none => .fail
        | some (_,v) => match v.inode with
          | none => .fail
          | some n =>
            .require (v.shared && hasBits v.prot protWrite)
            pagecacheMarkDirty n ((v.fileOffset+(va-v.start))%2^64)
            onMm t (taskSetUserPte va up.pa (taskUserAttrs true hw.executable false))

def taskHandlePageFault (faultVa : ℕ) (isWrite isTranslation isInstruction : Bool)
    (userSp : ℕ) : TaskM Unit := do
  let t ← currentTask
  .require (userVaBase≤faultVa && faultVa<userVaLimit)
  if isTranslation then translationFault t faultVa isWrite isInstruction userSp
  else
    .require isWrite
    permissionFault t (alignDown faultVa)

end FuriOS
