import FuriOS.Ext4.Map

/-! The JBD2 engine: the ring of log blocks, checksums, the journal superblock, the list of
committed transactions that wait for their checkpoint, and the checkpoint itself. -/
namespace FuriOS

def jbd2MagicNumber : ℕ := 0xC03B3998
def jbd2DescriptorBlock : ℕ := 1
def jbd2CommitBlock : ℕ := 2
def jbd2SuperblockV1 : ℕ := 3
def jbd2SuperblockV2 : ℕ := 4
def jbd2RevokeBlock : ℕ := 5

def jbd2HdrMagicOff : ℕ := 0
def jbd2HdrTypeOff : ℕ := 4
def jbd2HdrSeqOff : ℕ := 8

def jbd2SbSequenceOff : ℕ := 24
def jbd2SbStartOff : ℕ := 28
def jbd2SbChecksumTypeOff : ℕ := 80
def jbd2SbHeadOff : ℕ := 88
def jbd2SbChecksumOff : ℕ := 252

def jbd2RevokeCountOff : ℕ := 12
def jbd2RevokeEntriesOff : ℕ := 16

def jbd2CommitCsumTypeOff : ℕ := 12
def jbd2CommitCsumSizeOff : ℕ := 13
def jbd2CommitCsumOff : ℕ := 16

def jbd2Crc32cChksum : ℕ := 4

def ext4Jbd2MaxPendingTx : ℕ := 4
def ext4Jbd2CheckpointBatch : ℕ := 4
def ext4Jbd2CheckpointAge : ℕ := 20

def crcByte (c : UInt32) (b : UInt8) : UInt32 :=
  (List.range 8).foldl
    (fun c _ => if c &&& 1 != 0 then (c >>> 1) ^^^ 0x82F63B78 else c >>> 1) (c ^^^ b.toUInt32)

def crcLoop (buf : Buf) : ℕ → ℕ → UInt32 → UInt32
  | 0,_,c => c
  | n+1,off,c => crcLoop buf n (off+1) (crcByte c (buf off))

/-- The checksum over `len` bytes from `off` on. -/
def crc32cUpdate (crc : ℕ) (buf : Buf) (off len : ℕ) : ℕ :=
  (~~~ crcLoop buf len off (~~~ UInt32.ofNat crc)).toNat

/-- The checksum of a block whose checksum field counts as zero. -/
def ext4Jbd2ChecksumWithHole (seed : ℕ) (blk : Buf) (blkSize csumOff : ℕ) : ℕ :=
  let crc := crc32cUpdate seed blk 0 csumOff
  let crc := crc32cUpdate crc Buf.zero 0 4
  crc32cUpdate crc blk (csumOff+4) (blkSize-csumOff-4)

def ext4Jbd2NextBlock (cur first maxlen : ℕ) : ℕ :=
  if maxlen≤first ∨ cur<first ∨ maxlen≤cur then 0
  else if maxlen≤cur+1 then first else cur+1

/-- Elapsed ticks; the counters have 64 bits. -/
def ticksSince (now last : ℕ) : ℕ := (now+(2^64-last%2^64))%2^64

namespace Jbd2State

def hasCsum (j : Jbd2State) : Bool := j.csumV2 || j.csumV3

def ring (j : Jbd2State) : ℕ := j.maxlen-j.first

def inRing (j : Jbd2State) (b : ℕ) : Bool := decide (j.first≤b) && decide (b<j.maxlen)

def ext4Jbd2RingAdvance (j : Jbd2State) (cur steps : ℕ) : ℕ :=
  if j.ring=0 ∨ ¬ j.inRing cur then 0 else j.first+(cur-j.first+steps%j.ring)%j.ring

def ext4Jbd2RingDistance (j : Jbd2State) (from_ to_ : ℕ) : ℕ :=
  if j.ring=0 ∨ ¬ j.inRing from_ ∨ ¬ j.inRing to_ then 0
  else if from_-j.first≤to_-j.first then (to_-j.first)-(from_-j.first)
  else j.ring-((from_-j.first)-(to_-j.first))

/-- The position, or the start of the ring for one outside it. -/
def clamp (j : Jbd2State) (b : ℕ) : ℕ := if j.inRing b then b else j.first

def ext4Jbd2RingFreeBlocks (j : Jbd2State) : ℕ :=
  if j.ring≤1 then 0 else
    let head := j.clamp j.head
    let tail := j.clamp (if j.pending.isEmpty then head else j.tail)
    if j.pending.isEmpty then j.ring-1
    else if head=tail then 0
    else
      let distance := j.ext4Jbd2RingDistance head tail
      if distance≤1 then 0 else distance-1

def ext4Jbd2PendingLogBlocks (j : Jbd2State) (p : Jbd2Pending) : ℕ :=
  j.ext4Jbd2RingDistance p.start p.end_

def ext4Jbd2TargetFreeBlocks (j : Jbd2State) : ℕ :=
  if j.ring≤1 then 0 else
    let target := max (j.ring/4) 8
    if j.ring≤target then j.ring-1 else target

def ext4Jbd2TxTagBytes (j : Jbd2State) : ℕ := if j.csumV3 then 16 else if j.feat64bit then 12 else 8

def tailBytes (j : Jbd2State) : ℕ := if j.hasCsum then 4 else 0

def tagsPerDesc (j : Jbd2State) : ℕ := (j.blockSize-12-j.tailBytes)/j.ext4Jbd2TxTagBytes

def revokeEntryBytes (j : Jbd2State) : ℕ := if j.feat64bit then 8 else 4

def revokePerBlock (j : Jbd2State) : ℕ :=
  let n := (j.blockSize-jbd2RevokeEntriesOff-j.tailBytes)/j.revokeEntryBytes
  if n=0 then 1 else n

def ext4Jbd2TxReserveBlocks (j : Jbd2State) : ℕ :=
  if !j.enabled then 0
  else if j.ring≤1 ∨ j.blockSize=0 then 0
  else if j.blockSize≤12+j.tailBytes then j.ring-1
  else if j.tagsPerDesc=0 then j.ring-1
  else
    let descBlocks := (ext4Jbd2TxMaxBlocks+j.tagsPerDesc-1)/j.tagsPerDesc
    let revokeBlocks := (ext4Jbd2TxMaxRevokes+j.revokePerBlock-1)/j.revokePerBlock
    let total := ext4Jbd2TxMaxBlocks+descBlocks+revokeBlocks+1
    if j.ring≤total then j.ring-1 else total

def ext4Jbd2PressureMinFreeBlocks (j : Jbd2State) : ℕ :=
  max j.ext4Jbd2TxReserveBlocks j.ext4Jbd2TargetFreeBlocks

def batchLoop (j : Jbd2State) (need : ℕ) : ℕ → List Jbd2Pending → ℕ → ℕ → ℕ
  | 0,_,batch,_ => batch
  | _+1,[],batch,_ => batch
  | fuel+1,p::ps,batch,reclaim =>
    let blocks := if j.ext4Jbd2PendingLogBlocks p=0 then 1 else j.ext4Jbd2PendingLogBlocks p
    let reclaim := (reclaim+blocks)%2^32
    if need≤reclaim then batch+1 else batchLoop j need fuel ps (batch+1) reclaim

def ext4Jbd2CheckpointBatchForNeed (j : Jbd2State) (minFreeBlocks : ℕ) : ℕ :=
  let freeBlocks := j.ext4Jbd2RingFreeBlocks
  if j.pending.isEmpty ∨ minFreeBlocks≤freeBlocks then 0
  else j.batchLoop (minFreeBlocks-freeBlocks) ext4Jbd2CheckpointBatch j.pending 0 0

def ext4Jbd2VerifyTailChecksum (j : Jbd2State) (blk : Buf) : Bool :=
  decide (4≤j.blockSize) && (!j.hasCsum || blk.rdBe32 (j.blockSize-4) ==
    ext4Jbd2ChecksumWithHole j.csumSeed blk j.blockSize (j.blockSize-4))

def ext4Jbd2SetTailChecksum (j : Jbd2State) (blk : Buf) : Buf :=
  if !j.hasCsum || decide (j.blockSize<4) then blk else
    let blk := blk.wrBe32 (j.blockSize-4) 0
    blk.wrBe32 (j.blockSize-4) (ext4Jbd2ChecksumWithHole j.csumSeed blk j.blockSize (j.blockSize-4))

def ext4Jbd2VerifyCommitChecksum (j : Jbd2State) (blk : Buf) : Bool :=
  decide (jbd2CommitCsumOff+4≤j.blockSize) && (!j.hasCsum ||
    ((blk jbd2CommitCsumTypeOff).toNat == jbd2Crc32cChksum &&
      (blk jbd2CommitCsumSizeOff).toNat == 4 && blk.rdBe32 jbd2CommitCsumOff ==
        ext4Jbd2ChecksumWithHole j.csumSeed blk j.blockSize jbd2CommitCsumOff))

def ext4Jbd2SetCommitChecksum (j : Jbd2State) (blk : Buf) : Buf :=
  if !j.hasCsum || decide (j.blockSize<jbd2CommitCsumOff+4) then blk else
    let blk : Buf := Function.update blk jbd2CommitCsumTypeOff (UInt8.ofNat jbd2Crc32cChksum)
    let blk : Buf := Function.update blk jbd2CommitCsumSizeOff 4
    let blk := blk.wrBe32 jbd2CommitCsumOff 0
    blk.wrBe32 jbd2CommitCsumOff
      (ext4Jbd2ChecksumWithHole j.csumSeed blk j.blockSize jbd2CommitCsumOff)

def ext4Jbd2DataChecksum32 (j : Jbd2State) (seq : ℕ) (data : Buf) : ℕ :=
  crc32cUpdate (crc32cUpdate j.csumSeed (Buf.zero.wrBe32 0 seq) 0 4) data 0 j.blockSize

def ext4Jbd2VerifySuperChecksum (j : Jbd2State) (sb : Buf) : Bool :=
  decide (jbd2SbChecksumOff<j.blockSize) && (!j.hasCsum || sb.rdBe32 jbd2SbChecksumOff ==
    ext4Jbd2ChecksumWithHole j.csumSeed sb j.blockSize jbd2SbChecksumOff)

/-- The sequence number that the journal superblock gets. -/
def superSeq (j : Jbd2State) : ℕ :=
  match j.pending with
  | [] => j.sequence
  | p::_ => p.seq

/-- The journal superblock with the present positions. -/
def superBlock (j : Jbd2State) (sb : Buf) : Buf :=
  let sb := sb.wrBe32 jbd2SbSequenceOff j.superSeq
  let sb := sb.wrBe32 jbd2SbStartOff j.start
  let sb := sb.wrBe32 jbd2SbHeadOff j.head
  if !j.hasCsum then sb else
    let sb := sb.wrBe32 jbd2SbChecksumTypeOff jbd2Crc32cChksum
    let sb := sb.wrBe32 jbd2SbChecksumOff 0
    sb.wrBe32 jbd2SbChecksumOff (ext4Jbd2ChecksumWithHole j.csumSeed sb j.blockSize jbd2SbChecksumOff)

def ext4Jbd2RefreshStartTail (j : Jbd2State) : Jbd2State :=
  match j.pending with
  | [] => {j with start := 0, tail := j.head}
  | p::_ => {j with start := p.start, tail := p.start}

end Jbd2State

def ext4Jbd2ReadJblock (m : Ext4Meta) (jBlock : ℕ) : Ext4M Buf := do
  let fs ← .gets (·.ext4)
  let pblock ← disk (fs.ext4MapFileBlock m jBlock)
  .require (pblock != 0)
  ext4ReadBlock pblock

def ext4Jbd2WriteJblock (m : Ext4Meta) (jBlock : ℕ) (buf : Buf) : Ext4M Unit := do
  let fs ← .gets (·.ext4)
  let pblock ← disk (fs.ext4MapFileBlock m jBlock)
  .require (pblock != 0)
  ext4WriteBlock pblock buf

def ext4Jbd2StoreSuper : Ext4M Unit := do
  let j ← .gets (·.jbd2)
  .require (j.enabled && decide (j.blockSize≤4096))
  let sb ← ext4Jbd2ReadJblock j.journalMeta 0
  ext4Jbd2WriteJblock j.journalMeta 0 (j.superBlock sb)

def ext4Jbd2PendingPush (seq start end_ : ℕ) (dirty : List Jbd2Dirty) : Ext4M Unit := do
  let j ← .gets (·.jbd2)
  .require (decide (j.pending.length<ext4Jbd2MaxPendingTx))
  .require (decide (dirty.length≤ext4Jbd2TxMaxBlocks))
  .modify (World.setJbd2 fun j => Jbd2State.ext4Jbd2RefreshStartTail
    {j with pending := j.pending++[⟨seq,start,end_,dirty⟩]})

def ext4Jbd2PendingPop : Ext4M Unit := do
  .require (!(← .gets (·.jbd2.pending.isEmpty)))
  .modify (World.setJbd2 fun j => Jbd2State.ext4Jbd2RefreshStartTail
    {j with pending := j.pending.tail})

def setBypass (b : Bool) : World → World := World.setJbd2 fun j => {j with ioBypass := b}

def flushCache : Ext4M Unit := cached BlockCache.blockCacheFlush

def writeDirty : List Jbd2Dirty → Ext4M Unit
  | [] => pure ()
  | d::ds => do
    ext4WriteBlock d.fsBlock d.data
    writeDirty ds

/-- The oldest transactions, up to the budget, are written to their places. -/
def checkpointLoop : ℕ → Ext4M Unit
  | 0 => pure ()
  | budget+1 => do
    match ← .gets (·.jbd2.pending) with
    | [] => pure ()
    | p::_ =>
      writeDirty p.dirty
      ext4Jbd2PendingPop
      checkpointLoop budget

def checkpointBody (budget : ℕ) : Ext4M Unit := do
  checkpointLoop budget
  flushCache
  ext4Jbd2StoreSuper
  flushCache

def ext4Jbd2CheckpointSome (budget : ℕ) : Ext4M Unit := do
  let j ← .gets (·.jbd2)
  if !j.enabled || j.txActive || j.pending.isEmpty then pure () else
    .modify (setBypass true)
    (checkpointBody budget).onFail (setBypass false)
    let now ← timerTicks
    .modify (World.setJbd2 fun j => {j with lastCheckpointTick := now})
    .modify (setBypass false)

/-- `tries` counts the rounds that are left. -/
def untilFreeLoop (minFree : ℕ) : ℕ → Ext4M Unit
  | 0 => pure ()
  | tries+1 => do
    let j ← .gets (·.jbd2)
    if j.pending.isEmpty || decide (minFree≤j.ext4Jbd2RingFreeBlocks) then pure () else
      let batch := j.ext4Jbd2CheckpointBatchForNeed minFree
      ext4Jbd2CheckpointSome (if batch=0 then 1 else batch)
      untilFreeLoop minFree tries

def ext4Jbd2CheckpointUntilFree (minFreeBlocks : ℕ) : Ext4M Unit := do
  let j ← .gets (·.jbd2)
  if !j.enabled then pure () else
    .require (decide (1<j.ring))
    let minFree := if j.ring ≤ minFreeBlocks then j.ring-1 else minFreeBlocks
    untilFreeLoop minFree (ext4Jbd2MaxPendingTx*2+1)
    .require (decide (minFree≤(← .gets (·.jbd2.ext4Jbd2RingFreeBlocks))))

def ext4Jbd2MaybeCheckpoint (force : Bool) : Ext4M Unit := do
  let j ← .gets (·.jbd2)
  if !j.enabled || j.pending.isEmpty then pure ()
  else if force then ext4Jbd2CheckpointSome ext4Jbd2CheckpointBatch
  else
    let minFree := j.ext4Jbd2PressureMinFreeBlocks
    if minFree≠0 ∧ j.ext4Jbd2RingFreeBlocks < minFree then ext4Jbd2CheckpointUntilFree minFree
    else if ext4Jbd2CheckpointBatch≤j.pending.length then
      ext4Jbd2CheckpointSome ext4Jbd2CheckpointBatch
    else
      let now ← timerTicks
      if ext4Jbd2CheckpointAge≤ticksSince now j.lastCheckpointTick then ext4Jbd2CheckpointSome 1
      else pure ()

/-- Every round takes a transaction off the list, so its length bounds the rounds. -/
def syncLoop : ℕ → Ext4M Unit
  | 0 => pure ()
  | fuel+1 => do
    if ← .gets (·.jbd2.pending.isEmpty) then pure () else
      ext4Jbd2CheckpointSome ext4Jbd2CheckpointBatch
      syncLoop fuel

def ext4SyncFilesystem : Ext4M Unit := do
  let w ← .gets id
  if !w.ext4.mounted then pure () else
    if w.jbd2.enabled then
      .require (!w.jbd2.txActive)
      syncLoop w.jbd2.pending.length
      ext4Jbd2StoreSuper
    .require (!(← .gets (·.journal.txActive)))
    flushCache

/-- The result of the checkpoint is not looked at. -/
def ext4PeriodicMaintenance (nowTicks : ℕ) : Ext4M Unit := do
  let w ← .gets id
  if !w.ext4.mounted then pure ()
  else if w.jbd2.enabled && !w.jbd2.txActive && !w.jbd2.pending.isEmpty then
    if ext4Jbd2CheckpointBatch≤w.jbd2.pending.length ∨
        ext4Jbd2CheckpointAge/2≤ticksSince nowTicks w.jbd2.lastCheckpointTick then
      let _ ← .attempt (ext4Jbd2MaybeCheckpoint false)
      pure ()
    else pure ()
  else pure ()

end FuriOS
