import FuriOS.Task.Pages

/-! The page cache of `kernel/pagecache.c`. The transfers below it (the memory file system, ext4
and the sector cache) are taken by their effect on the contents of the file: a transfer that
succeeds moves the bytes, one that fails moves none. -/
namespace FuriOS

abbrev pagecacheWritebackMaxBudget : ℕ := 16
abbrev pagecacheDirtyHighWater : ℕ := maxFileCachePages*3/4
abbrev pagecacheDirtyCritical : ℕ := maxFileCachePages-8
abbrev pagecacheWritebackFailBackoffTicks : ℕ := 8
abbrev virtioBlkSectorSize : ℕ := 512

def fsIsBlockDev (ino : Inode) : Bool := ino.type=.dev && ino.devKind.isBlock

namespace System

/-- The common body of `pagecache_inode_same` and `task_inode_same_file`. -/
def inodeSame (s : System) (a b : ℕ) : Bool :=
  if a=b then true
  else if (s.inodes a).type≠(s.inodes b).type ∨ (s.inodes a).fsKind≠(s.inodes b).fsKind then
    false
  else if (s.inodes a).type=.dev then
    (s.inodes a).devKind=(s.inodes b).devKind && (s.inodes a).devLbaStart=(s.inodes b).devLbaStart
      && (s.inodes a).devLbaCount=(s.inodes b).devLbaCount
  else if (s.inodes a).fsKind=.ext4 ∧ (s.inodes a).fsId≠0 ∧ (s.inodes b).fsId≠0 ∧
      (s.inodes a).fsIno≠0 ∧ (s.inodes b).fsIno≠0 then
    (s.inodes a).fsId=(s.inodes b).fsId && (s.inodes a).fsIno=(s.inodes b).fsIno
  else false

def fileId (s : System) (n : ℕ) : FileId :=
  let ino := s.inodes n
  if ino.type=.dev then .dev ino.devKind
  else if ino.fsKind=.ext4 ∧ ino.fsId≠0 ∧ ino.fsIno≠0 then .ext4 ino.fsId ino.fsIno
  else .node n

def setInode (s : System) (n : ℕ) (f : Inode → Inode) : System :=
  {s with inodes := Function.update s.inodes n (f (s.inodes n))}

def setCache (s : System) (c : PageCache) : System := {s with cache := c}

def setEntry (s : System) (i : CacheIx) (e : PageCacheEntry) : System :=
  s.setCache {s.cache with entries := s.cache.entries.put i e}

end System

def pagecacheInodeSame (s : System) (a b : ℕ) : Bool := s.inodeSame a b

def taskInodeSameFile (s : System) (a b : ℕ) : Bool := s.inodeSame a b

def pagecacheInodeSupported (ino : Inode) : Bool :=
  match ino.type with
  | .dev => fsIsBlockDev ino
  | .file => true
  | .dir => false

def backingTransfer : TaskM Unit := do
  let ok ← .gets fun s => s.ioOk s.ioCount
  .modify fun s => {s with ioCount := s.ioCount+1}
  .require ok

/-- The bytes of the file page at `fileOff` that the layer below has. -/
def backingLen (ino : Inode) (fileOff : ℕ) : ℕ :=
  if ino.type=.dev then
    min pageSize ((ino.devLbaCount-fileOff/virtioBlkSectorSize)*virtioBlkSectorSize)
  else if ino.fsKind=.mem then min pageSize (ino.size-fileOff)
  else min pageSize (ino.metaSize-fileOff)

/-- Where the layer below has them. The page cache adds the first sector of a partition to the
sector, and the sector cache, attached to the partition, adds it once more. -/
def backingOff (ino : Inode) (fileOff : ℕ) : ℕ :=
  if ino.type=.dev then 2*ino.devLbaStart*virtioBlkSectorSize+fileOff else fileOff

/-- The sector cache can be attached and takes the sectors of `len` bytes, which the page cache
counts from the start of the disk. -/
def deviceTakes (ino : Inode) (fileOff len : ℕ) : Bool :=
  ino.devLbaCount≠0 && (len=0 || ino.devLbaStart*virtioBlkSectorSize+fileOff+len
    ≤ ino.devLbaCount*virtioBlkSectorSize)

/-- Fill the page at `dst` from the file, with zeros beyond its end. -/
def pagecacheLoadPage (n fileOff dst : ℕ) : TaskM Unit := do
  let ino ← .gets fun s => s.inodes n
  .require (pagecacheInodeSupported ino && fileOff%pageSize=0)
  modifyPhys fun m => m.zeroPage dst
  .require (ino.type≠.dev || deviceTakes ino fileOff (backingLen ino fileOff))
  .require (ino.type=.dev || ino.fsKind≠.mem || ino.hasData)
  .when (if ino.type=.dev then backingLen ino fileOff≠0 else ino.fsKind≠.mem) backingTransfer
  let src ← .gets fun s => s.backing (s.fileId n)
  modifyPhys fun m => m.copyIn dst src (backingOff ino fileOff) (backingLen ino fileOff)

/-- Write the first `len` bytes of the page at `src` to the layer below. -/
def storeBytes (n off src len : ℕ) (s : System) : System :=
  let file := s.fileId n
  let bytes := (s.backing file).copy off s.phys.mem src len
  {s with backing := Function.update s.backing file bytes}

/-- The file grows to the end of what was stored. -/
def growTo (n size : ℕ) (s : System) : System :=
  s.setInode n fun ino => {ino with size := max ino.size size}

/-- `ext4_write` first takes over a size that the inode has reached in the page cache. -/
def raiseMeta (n : ℕ) (s : System) : System :=
  s.setInode n fun ino => {ino with metaSize := max ino.metaSize ino.size}

/-- The record of an ext4 file grows, and the inode with it. -/
def growMeta (n size : ℕ) (s : System) : System :=
  s.setInode n fun ino => {ino with size := max ino.metaSize size, metaSize := max ino.metaSize size}

def pagecacheStorePage (n fileOff src maxBytes : ℕ) : TaskM Unit := do
  let ino ← .gets fun s => s.inodes n
  .require (pagecacheInodeSupported ino && fileOff%pageSize=0 && maxBytes≠0)
  if ino.type=.dev then
    .require (fsIsBlockDev ino && ino.writable)
    let cap := ino.devLbaCount*virtioBlkSectorSize
    let len := min (min maxBytes pageSize) (cap-fileOff)
    .require (fileOff<cap && deviceTakes ino fileOff len)
    backingTransfer
    .modify (storeBytes n (backingOff ino fileOff) src len)
    .modify fun s => s.setInode n fun ino => {ino with size := cap}
  else if ino.fsKind=.mem then
    if !ino.hasData || ino.capacity≤fileOff then pure ()
    else
      .modify (storeBytes n fileOff src (min (min maxBytes pageSize) (ino.capacity-fileOff)))
      .modify (growTo n (fileOff+min (min maxBytes pageSize) (ino.capacity-fileOff)))
  else
    -- the transaction is opened; then the blocks and the record are written and it commits
    backingTransfer
    .require ino.writable
    .modify (raiseMeta n)
    backingTransfer
    .modify (storeBytes n fileOff src (min maxBytes pageSize))
    .modify (growMeta n (fileOff+min maxBytes pageSize))

def pagecacheTouchTick : TaskM ℕ := do
  .modify fun s => s.setCache {s.cache with
    clock := if (s.cache.clock+1)%2^64=0 then 1 else (s.cache.clock+1)%2^64}
  .gets fun s => s.cache.clock

def pagecacheFind (s : System) (n fileOff : ℕ) : Option (CacheIx × PageCacheEntry) :=
  s.cache.entries.find? fun e => pagecacheInodeSame s e.inode n && e.fileOff=fileOff

def pagecacheEntryMaxBytes (s : System) (e : PageCacheEntry) : ℕ :=
  min pageSize ((s.inodes e.inode).size-e.fileOff)

def pagecacheWritebackBlocked (c : PageCache) : Bool :=
  c.writebackFailStreak≠0 && c.lastTick<c.writebackBlockedUntil

def pagecacheNoteWritebackResult (success : Bool) (c : PageCache) : PageCache :=
  if success then {c with writebackFailStreak := 0, writebackBlockedUntil := 0}
  else
    let streak := if c.writebackFailStreak<255 then c.writebackFailStreak+1 else c.writebackFailStreak
    let backoff := pagecacheWritebackFailBackoffTicks*streak
    {c with
      writebackFailStreak := streak
      writebackBlockedUntil :=
        if (c.lastTick+backoff)%2^64<c.lastTick then 2^64-1 else (c.lastTick+backoff)%2^64}

/-- Record how a write-back went, and pass a failure on. -/
def notingResult (p : TaskM Unit) : TaskM Unit := do
  p.onFail fun s => s.setCache (pagecacheNoteWritebackResult false s.cache)
  .modify fun s => s.setCache (pagecacheNoteWritebackResult true s.cache)

/-- The entry with the least `last_touch` among those selected, the first one of several. -/
def oldestEntry (c : PageCache) (sel : PageCacheEntry → Bool) : Option (CacheIx × PageCacheEntry) :=
  (List.finRange maxFileCachePages).foldl (fun best i => match c.entries i with
    | none => best
    | some e => if sel e then match best with
        | none => some (i,e)
        | some (_,b) => if e.lastTouch<b.lastTouch then some (i,e) else best
      else best) none

/-- `pagecache_slot`: a free slot, or the slot of the oldest page that only the cache holds. -/
def pagecacheSlot : TaskM CacheIx := do
  match Slots.free? (← .gets fun s => s.cache.entries) with
  | some i => pure i
  | none =>
    let s ← .gets id
    match oldestEntry s.cache fun e => pmmPageRefcount s.phys e.pa≤1 with
    | none => .fail
    | some (i,e) =>
      .when (e.dirty && pagecacheEntryMaxBytes s e≠0) <|
        notingResult (pagecacheStorePage e.inode e.fileOff e.pa (pagecacheEntryMaxBytes s e))
      modifyPhys (pmmFreePage e.pa)
      .modify fun s => s.setCache {s.cache with entries := s.cache.entries.clear i}
      pure i

/-- The round of `task_pagecache_writeprotect_shared` for one tracked page: a writable shared
mapping of the file page becomes read-only, so that the next store is seen. -/
def writeprotectPage (n pageOff : ℕ) (t : TaskIx) (pi : Fin maxUserPages) : TaskM Unit := do
  let s ← .gets id
  match (s.mm t).pages pi with
  | none => pure ()
  | some up =>
    match taskVmaFind (s.mm t).vmas up.va with
    | none => pure ()
    | some (_,v) =>
      if up.writableIntent && v.shared && hasBits v.prot protWrite
        && v.inode.any (taskInodeSameFile s · n)
        && (v.fileOffset+(up.va-v.start))%2^64=pageOff
      then match taskPageValidateHw (s.mm t) up with
        | none => .fail
        | some hw =>
          if hw.cow then .fail
          else if hw.writable then
            onMm t (taskSetUserPte up.va up.pa (taskUserAttrs false hw.executable false))
          else pure ()
      else pure ()

def taskPagecacheWriteprotectShared (n fileOff : ℕ) : TaskM Unit :=
  Prog.forEach (fun t => do
    let state ← .gets fun s => (s.tasks t).state
    if state=.unused ∨ state=.zombie then pure ()
    else Prog.forEach (writeprotectPage n (alignDown fileOff) t) (List.finRange maxUserPages))
    (List.finRange maxTasks)

def entryClean (i : CacheIx) (e : PageCacheEntry) : TaskM Unit := do
  let tick ← pagecacheTouchTick
  .modify fun s => s.setEntry i {e with dirty := false, lastTouch := tick}

def pagecacheEntryWriteback (i : CacheIx) (e : PageCacheEntry) : TaskM Unit := do
  let maxBytes ← .gets fun s => pagecacheEntryMaxBytes s e
  let isFile : Bool ← .gets fun s => (s.inodes e.inode).type=.file
  if maxBytes=0 then
    .when isFile do
      modifyPhys fun m => m.zeroPage e.pa
      taskPagecacheWriteprotectShared e.inode e.fileOff
    entryClean i e
  else
    pagecacheStorePage e.inode e.fileOff e.pa maxBytes
    .when isFile <| modifyPhys fun m => m.zeroTail e.pa maxBytes
    taskPagecacheWriteprotectShared e.inode e.fileOff
    entryClean i e

def pagecacheRangeOverlaps (e : PageCacheEntry) (startOff len : ℕ) : Bool :=
  if len=0 then startOff≤e.fileOff
  else
    let endOff := if 2^64 ≤ startOff+len then 2^64-1 else startOff+len
    let pageEnd := if 2^64≤e.fileOff+pageSize then 2^64-1 else e.fileOff+pageSize
    !(pageEnd ≤ startOff || endOff≤e.fileOff)

/-- `pagecache_flush_match` with the selection of entries as a condition. -/
def pagecacheFlushMatch (sel : System → PageCacheEntry → Bool) : ℕ → TaskM Unit
  | 0 => pure ()
  | budget+1 => do
    let s ← .gets id
    match oldestEntry s.cache fun e => e.dirty && sel s e with
    | none => pure ()
    | some (i,e) =>
      notingResult (pagecacheEntryWriteback i e)
      pagecacheFlushMatch sel budget

def pagecacheDirtyCount (c : PageCache) : ℕ := c.entries.count fun o => o.any (·.dirty)

def pressureBudget (dirty : ℕ) : ℕ :=
  if pagecacheDirtyCritical≤dirty then maxFileCachePages
  else min maxFileCachePages (pagecacheWritebackMaxBudget+(dirty-pagecacheDirtyHighWater))

def pagecacheMaybeWritebackPressure : TaskM Unit := do
  let c ← .gets System.cache
  .when (!pagecacheWritebackBlocked c && pagecacheDirtyHighWater≤pagecacheDirtyCount c) do
    let _ ← (pagecacheFlushMatch (fun _ _ => true) (pressureBudget (pagecacheDirtyCount c))).attempt
    pure ()

/-- A page for a new entry; without memory a full cache gives up one of its own pages. -/
def pagecacheNewPage : TaskM ℕ := do
  match (← (onPhys pmmAllocPage).attempt) with
  | some page => pure page
  | none =>
    .require (Slots.free? (← .gets fun s => s.cache.entries)).isNone
    let _ ← pagecacheSlot
    onPhys pmmAllocPage

def pagecacheCreate (n fileOff : ℕ) : TaskM ℕ := do
  let page ← pagecacheNewPage
  let slot ← (pagecacheLoadPage n fileOff page >>= fun _ => pagecacheSlot).onFail fun s =>
    s.setPhys (pmmFreePage page s.phys)
  let tick ← pagecacheTouchTick
  .modify fun s => s.setEntry slot ⟨n,fileOff,page,tick,false⟩
  modifyPhys (pmmRefPage page)
  pure page

/-- `pagecache_get_or_create`: the page of the file, with a reference for the caller. -/
def pagecacheGetOrCreate (n fileOff : ℕ) : TaskM ℕ := do
  let s ← .gets id
  .require (pagecacheInodeSupported (s.inodes n) && fileOff%pageSize=0)
  match pagecacheFind s n fileOff with
  | some (i,hit) =>
    let tick ← pagecacheTouchTick
    .modify fun s => s.setEntry i {hit with lastTouch := tick}
    modifyPhys (pmmRefPage hit.pa)
    pure hit.pa
  | none => pagecacheCreate n fileOff

/-- The entry that takes the page at `pa`: its bytes go over the page cached already, or the page
itself is put into a new entry. -/
def pagecacheTakePage (n fileOff pa validBytes : ℕ) : TaskM (CacheIx × PageCacheEntry) := do
  match pagecacheFind (← .gets id) n fileOff with
  | some (i,hit) =>
    .when (hit.pa≠pa) <| modifyPhys fun m => m.copyIn hit.pa m.mem pa validBytes
    pure (i,hit)
  | none =>
    let slot ← pagecacheSlot
    let tick ← pagecacheTouchTick
    .modify fun s => s.setEntry slot ⟨n,fileOff,pa,tick,false⟩
    modifyPhys (pmmRefPage pa)
    pure (slot,⟨n,fileOff,pa,tick,false⟩)

/-- The bytes of a page that belong to the file. -/
def pagecacheValidBytes (ino : Inode) (fileOff maxBytes : ℕ) : ℕ :=
  if ino.type=.file then min (min maxBytes pageSize) (ino.size-fileOff) else min maxBytes pageSize

def pagecacheWriteback (n fileOff pa maxBytes : ℕ) : TaskM Unit := do
  let ino ← .gets fun s => s.inodes n
  .require (pagecacheInodeSupported ino && fileOff%pageSize=0)
  if pagecacheValidBytes ino fileOff maxBytes=0 then pure ()
  else
    let hit ← pagecacheTakePage n fileOff pa (pagecacheValidBytes ino fileOff maxBytes)
    .when (ino.type=.file) <| modifyPhys fun m =>
      m.zeroTail hit.2.pa (pagecacheValidBytes ino fileOff maxBytes)
    let tick ← pagecacheTouchTick
    .modify fun s => s.setEntry hit.1 {hit.2 with dirty := true, lastTouch := tick}

/-- `pagecache_mark_dirty` for one page. -/
def pagecacheMarkDirty (n fileOff : ℕ) : TaskM Unit := do
  let s ← .gets id
  .when (pagecacheInodeSupported (s.inodes n)) do
    match pagecacheFind s n (alignDown fileOff) with
    | some (i,hit) =>
      let tick ← pagecacheTouchTick
      .modify fun s => s.setEntry i {hit with dirty := true, lastTouch := tick}
      pagecacheMaybeWritebackPressure
    | none => pagecacheMaybeWritebackPressure

def pagecacheFlushInode (n : ℕ) : TaskM Unit :=
  pagecacheFlushMatch (fun s e => pagecacheInodeSame s e.inode n) maxFileCachePages

def pagecacheFlushInodeRange (n startOff len : ℕ) : TaskM Unit :=
  pagecacheFlushMatch (fun s e => pagecacheInodeSame s e.inode n && pagecacheRangeOverlaps e startOff len)
    maxFileCachePages

/-- Drop an entry of the range whose page only the cache holds. -/
def invalidateEntry (n startOff len : ℕ) (i : CacheIx) : TaskM Unit := do
  let s ← .gets id
  match s.cache.entries i with
  | none => pure ()
  | some e => .when (pagecacheInodeSame s e.inode n && pagecacheRangeOverlaps e startOff len
      && pmmPageRefcount s.phys e.pa≤1) do
    modifyPhys (pmmFreePage e.pa)
    .modify fun s => s.setCache {s.cache with entries := s.cache.entries.clear i}

/-- `pagecache_invalidate_inode_range`; an entry that is left is busy and makes the call fail. -/
def pagecacheInvalidateInodeRange (n startOff len : ℕ) : TaskM Unit := do
  Prog.forEach (invalidateEntry n startOff len) (List.finRange maxFileCachePages)
  let s ← .gets id
  .require !(s.cache.entries.any fun e =>
    pagecacheInodeSame s e.inode n && pagecacheRangeOverlaps e startOff len)

/-- `fs_sync_inode`; the file system and the sector cache below are asked for their part. -/
def fsSyncInode (n : ℕ) : TaskM Unit := do
  let ino ← .gets fun s => s.inodes n
  .when (ino.type=.file || fsIsBlockDev ino) (pagecacheFlushInode n)
  .when (ino.fsKind=.ext4) backingTransfer
  .when (fsIsBlockDev ino) backingTransfer

end FuriOS
