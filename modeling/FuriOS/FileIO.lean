import FuriOS.PageCache

/-! Files through the page cache: reading, writing and cutting in `kernel/pagecache.c` and
`kernel/fs.c`, the sizes that `fs_stat` reports, and the loading of an executable in
`kernel/syscall.c`. Directories and character devices are left out. -/
namespace FuriOS

abbrev fileCapacity : ℕ := 4096
abbrev memfsMaxCap : ℕ := 16*1024*1024
abbrev execImageMax : ℕ := 16*1024*1024
abbrev pagecacheWritebackPeriod : ℕ := 8
abbrev pagecacheWritebackBudget : ℕ := 2

/-- The bytes of one round of a transfer: up to the end of the page or of the request. -/
def pageChunk (cur rem : ℕ) : ℕ := min (pageSize-cur%pageSize) rem

/-- The loop of `pagecache_read` from the 64-bit offset `cur` on; a page that cannot be had ends
it. Every round takes at least one byte, so the bytes that are left bound the rounds. -/
def pagecacheReadLoop (n : ℕ) : ℕ → ℕ → ℕ → TaskM Bytes
  | 0,_,_ => pure []
  | fuel+1,cur,rem => if rem=0 then pure [] else do
    match (← (pagecacheGetOrCreate n (alignDown cur)).attempt) with
    | none => pure []
    | some pa =>
      let bytes ← .gets fun s =>
        (List.range (pageChunk cur rem)).map fun k => s.phys.mem (pa+cur%pageSize+k)
      modifyPhys (pmmFreePage pa)
      let rest ← pagecacheReadLoop n fuel ((cur+pageChunk cur rem)%2^64) (rem-pageChunk cur rem)
      pure (bytes++rest)

/-- `pagecache_read`: the bytes that are returned. The end of the request is a 64-bit sum. -/
def pagecacheRead (n offset len : ℕ) : TaskM Bytes := do
  let ino ← .gets fun s => s.inodes n
  .require (pagecacheInodeSupported ino)
  if len=0 ∨ ino.size≤offset then pure []
  else
    let want := if ino.size<(offset+len)%2^64 then ino.size-offset else len
    let bytes ← pagecacheReadLoop n want offset want
    .require !bytes.isEmpty
    pure bytes

def markWritten (n fileOff : ℕ) : TaskM Unit := do
  match pagecacheFind (← .gets id) n fileOff with
  | some (i,hit) =>
    let tick ← pagecacheTouchTick
    .modify fun s => s.setEntry i {hit with dirty := true, lastTouch := tick}
  | none => pure ()

/-- The loop of `pagecache_write` for the bytes of `src` from `done` on; the result is the number
of bytes written. -/
def pagecacheWriteLoop (n : ℕ) (src : Buf) : ℕ → ℕ → ℕ → ℕ → TaskM ℕ
  | 0,_,_,_ => pure 0
  | fuel+1,cur,done,rem => if rem=0 then pure 0 else do
    match (← (pagecacheGetOrCreate n (alignDown cur)).attempt) with
    | none => pure 0
    | some pa =>
      modifyPhys fun m => m.copyIn (pa+cur%pageSize) src done (pageChunk cur rem)
      markWritten n (alignDown cur)
      modifyPhys (pmmFreePage pa)
      let more ← pagecacheWriteLoop n src fuel ((cur+pageChunk cur rem)%2^64)
        (done+pageChunk cur rem) (rem-pageChunk cur rem)
      pure (pageChunk cur rem+more)

/-- The bytes of a request that fit a device or the array of a memory file. -/
def pagecacheWriteLen (ino : Inode) (offset len : ℕ) : ℕ :=
  let n := if ino.type=.dev ∧ ino.size<(offset+len)%2^64 then ino.size-offset else len
  if ino.fsKind=.mem then min n (ino.capacity-offset) else n

/-- `pagecache_write`: the number of bytes written. The size is raised only when all of them are
in the cache. -/
def pagecacheWrite (n offset : ℕ) (src : Buf) (len : ℕ) : TaskM ℕ := do
  let ino ← .gets fun s => s.inodes n
  .require (pagecacheInodeSupported ino && ino.writable)
  if len=0 then pure 0
  else
    .require (ino.type≠.dev || decide (offset < ino.size))
    .require (ino.fsKind≠.mem || ino.hasData && decide (offset < ino.capacity))
    let want := pagecacheWriteLen ino offset len
    let done ← pagecacheWriteLoop n src want offset 0 want
    .require (decide (done≠0))
    .modify (growTo n ((offset+done)%2^64))
    pagecacheMaybeWritebackPressure
    pure done

/-- `pagecache_truncate_inode` for one entry. -/
def truncateEntry (n eof : ℕ) (i : CacheIx) : TaskM Unit := do
  let s ← .gets id
  match s.cache.entries i with
  | none => pure ()
  | some e => .when (pagecacheInodeSame s e.inode n) do
    if eof≤e.fileOff then
      if 1<pmmPageRefcount s.phys e.pa then
        modifyPhys fun m => m.zeroPage e.pa
        entryClean i e
      else
        modifyPhys (pmmFreePage e.pa)
        .modify fun s => s.setCache {s.cache with entries := s.cache.entries.clear i}
    else .when (decide (e.fileOff=alignDown eof ∧ eof%pageSize≠0)) do
      modifyPhys fun m => m.zeroTail e.pa (eof%pageSize)
      entryClean i e

def pagecacheTruncateInode (n newSize : ℕ) : TaskM Unit := do
  let ino ← .gets fun s => s.inodes n
  .when (pagecacheInodeSupported ino) <|
    Prog.forEach (truncateEntry n newSize) (List.finRange maxFileCachePages)

/-- `pagecache_tick` when the last periodic write-back was at `lastWriteback`. -/
def pagecacheTick (lastWriteback now : ℕ) : TaskM Unit := do
  .modify fun s => s.setCache {s.cache with lastTick := now}
  let c ← .gets System.cache
  .when (decide (pagecacheWritebackPeriod≤(now+2^64-lastWriteback)%2^64)
      && !pagecacheWritebackBlocked c && decide (pagecacheDirtyCount c≠0)) do
    let _ ← (pagecacheFlushMatch (fun _ _ => true)
      (min pagecacheWritebackMaxBudget (pagecacheWritebackBudget+pagecacheDirtyCount c/8))).attempt
    pure ()

/-- The doubling of the capacity in `memfs_ensure_capacity`. -/
def growCapacity (need : ℕ) : ℕ → ℕ → ℕ
  | 0,cap => cap
  | fuel+1,cap =>
    if need≤cap then cap
    else if memfsMaxCap/2≤cap then memfsMaxCap
    else growCapacity need fuel (2*cap)

/-- The array of a memory file is replaced by a larger one that starts with its contents. -/
def replaceArray (n cap : ℕ) (s : System) : System :=
  let file := s.fileId n
  let bytes : Buf := fun i => if i<(s.inodes n).size then s.backing file i else 0
  ({s with backing := Function.update s.backing file bytes}).setInode n fun ino =>
    {ino with capacity := cap}

def memfsEnsureCapacity (n need : ℕ) : TaskM Unit := do
  let ino ← .gets fun s => s.inodes n
  .require (ino.fsKind=.mem && ino.type=.file && ino.writable && ino.hasData)
  if need ≤ ino.capacity then pure ()
  else
    .require (decide (need ≤ memfsMaxCap))
    let cap := growCapacity need 24 (if ino.capacity≠0 then ino.capacity else fileCapacity)
    .require (decide (need≤cap) && decide (cap ≤ memfsMaxCap))
    let _ ← onPhys (pmmAlloc cap 16)
    .modify (replaceArray n cap)

/-- `fs_read` of a file or a block device. -/
def fsRead (n offset len : ℕ) : TaskM Bytes := do
  let ino ← .gets fun s => s.inodes n
  .require (ino.type=.file || fsIsBlockDev ino)
  if ino.type=.dev ∧ len=0 then pure [] else pagecacheRead n offset len

/-- `fs_write` to a file or a block device. -/
def fsWrite (n offset : ℕ) (src : Buf) (len : ℕ) : TaskM ℕ := do
  let ino ← .gets fun s => s.inodes n
  if ino.fsKind=.ext4 then
    .require (ino.type=.file)
    pagecacheWrite n offset src len
  else if ino.type=.dev then
    .require (fsIsBlockDev ino)
    pagecacheWrite n offset src len
  else
    .require (ino.type=.file && ino.writable)
    .when (decide (0<len)) do
      .require (decide (offset≤2^64-1-len))
      memfsEnsureCapacity n (offset+len)
    pagecacheWrite n offset src len

/-- The contents of the file from `start` up to `stop` are cleared. -/
def clearBacking (n start stop : ℕ) (s : System) : System :=
  let file := s.fileId n
  let bytes : Buf := fun i => if start ≤ i ∧ i<stop then 0 else s.backing file i
  {s with backing := Function.update s.backing file bytes}

/-- `ext4_truncate`. The blocks are given back and the rest of the last one is cleared; then the
record gets the new size and is stored, and only after that the inode. -/
def ext4Truncate (n newSize : ℕ) : TaskM Unit := do
  let ino ← .gets fun s => s.inodes n
  .require (ino.type=.file && ino.writable)
  if newSize=ino.metaSize then pure ()
  else
    .when (decide (newSize < ino.metaSize)) do
      backingTransfer
      .modify (clearBacking n newSize ino.metaSize)
    .modify fun s => s.setInode n fun ino => {ino with metaSize := newSize}
    backingTransfer
    .modify fun s => s.setInode n fun ino => {ino with size := newSize}
    backingTransfer

def fsTruncate (n size : ℕ) : TaskM Unit := do
  let ino ← .gets fun s => s.inodes n
  if ino.fsKind=.ext4 then
    pagecacheFlushInode n
    backingTransfer
    ext4Truncate n size
    backingTransfer
    pagecacheTruncateInode n size
  else
    .require (ino.type=.file && ino.writable)
    pagecacheFlushInode n
    let ino ← .gets fun s => s.inodes n
    .when (decide (ino.capacity<size)) (memfsEnsureCapacity n size)
    -- a file that grows is cleared up to its new size, one that shrinks keeps its array
    .modify (clearBacking n ino.size size)
    .modify fun s => s.setInode n fun ino => {ino with size := size}
    pagecacheTruncateInode n size

/-- The size that `fs_fill_stat` reports: that of the record of an ext4 file, that of the inode
otherwise. -/
def fsFillStatSize (s : System) (n : ℕ) : ℕ :=
  if (s.inodes n).fsKind=.ext4 then (s.inodes n).metaSize else (s.inodes n).size

/-- The size from `fs_stat` of a path that leads to the inode. -/
def fsStatSize (s : System) (n : ℕ) : ℕ := fsFillStatSize s n

/-- The size from `fs_lstat`; a file is no link, so the same inode is found. -/
def fsLstatSize (s : System) (n : ℕ) : ℕ := fsFillStatSize s n

/-- What `load_exec_image` hands out: the image, its size and the pages that have to be freed. -/
structure ExecImage where
  image : Buf
  size : ℕ
  owned : List ℕ

/-- The loop of `load_exec_image` over `fs_read`. -/
def loadExecLoop (n size : ℕ) : ℕ → ℕ → TaskM Bytes
  | 0,_ => pure []
  | fuel+1,off => if size≤off then pure [] else do
    let bytes ← fsRead n off (size-off)
    .require !bytes.isEmpty
    let rest ← loadExecLoop n size fuel (off+bytes.length)
    pure (bytes++rest)

def freeExecImagePages (pages : List ℕ) (s : System) : System :=
  s.setPhys (pages.foldl (fun m p => pmmFreePage p m) s.phys)

/-- `load_exec_image`. The array of a memory file is used as it is, other files are read. -/
def loadExecImage (n : ℕ) : TaskM ExecImage := do
  let ino ← .gets fun s => s.inodes n
  .require (ino.type=.file && decide (ino.size≠0))
  if ino.hasData then
    let data ← .gets fun s => s.backing (s.fileId n)
    pure ⟨data,ino.size,[]⟩
  else
    .require (decide (ino.size≤execImageMax))
    let buf ← onPhys (pmmAlloc (alignUp ino.size) pageSize)
    let pages := pageRange buf (buf+alignUp ino.size)
    let bytes ← (loadExecLoop n ino.size ino.size 0).onFail (freeExecImagePages pages)
    pure ⟨fun i => bytes.getD i 0,ino.size,pages⟩

end FuriOS
