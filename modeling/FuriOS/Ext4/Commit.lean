import FuriOS.Ext4.Jbd2

/-! Start, abort and commit of a JBD2 transaction, and the entry points that choose between the
JBD2 journal and the FUJ1 log. -/
namespace FuriOS

def jbd2FlagEscape : ℕ := 1
def jbd2FlagSameUuid : ℕ := 2
def jbd2FlagDeleted : ℕ := 4
def jbd2FlagLastTag : ℕ := 8

def ext4JlogMagic : ℕ := 0x46554A31
def ext4JlogStateClean : ℕ := 0
def ext4JlogStatePrep : ℕ := 1
def ext4JlogStateCommit : ℕ := 2
def ext4JlogRegionBytes : ℕ := 256*1024

def setEnospc (b : Bool) : World → World := World.setJbd2 fun j => {j with txEnospc := b}

/-- Out of log space: the mark is set and the call fails. -/
def enospcFail {α : Type} : Ext4M α := do
  .modify (setEnospc true)
  .fail

/-- A checkpoint made because the list of transactions is full; it must make room. -/
def makeRoom : Ext4M Unit := do
  if ext4Jbd2MaxPendingTx≤(← .gets (·.jbd2.pending)).length then
    match ← .attempt (ext4Jbd2CheckpointSome ext4Jbd2CheckpointBatch) with
    | none => enospcFail
    | some _ =>
      if ext4Jbd2MaxPendingTx≤(← .gets (·.jbd2.pending)).length then enospcFail else pure ()
  else pure ()

def ext4Jbd2TxStart : Ext4M Unit := do
  let j ← .gets (·.jbd2)
  if !j.enabled then pure () else
    .modify (setEnospc false)
    let minFree := j.ext4Jbd2PressureMinFreeBlocks
    makeRoom
    let free ← .gets (·.jbd2.ext4Jbd2RingFreeBlocks)
    (if minFree≠0 ∧ free < minFree then
        (ext4Jbd2CheckpointUntilFree minFree).onFail (setEnospc true)
      else pure () : Ext4M Unit)
    ext4Jbd2MaybeCheckpoint false
    let j ← .gets (·.jbd2)
    .require (j.writeReady && !j.txActive)
    .modify (World.setJbd2 fun j =>
      {j with
        txActive := true, ioBypass := false, txEnospc := false, txDirty := [], txRevokes := []
        txRevokeOverflow := false})

def ext4Jbd2TxAbort : Ext4M Unit := .modify (World.setJbd2 fun j =>
  if !j.enabled || !j.txActive then j else
    {j with
      txActive := false, ioBypass := false, txEnospc := false, txDirty := [], txRevokes := []
      txRevokeOverflow := false})

def ext4Jbd2ReserveRing (j : Jbd2State) (blocks : ℕ) : Option (ℕ × ℕ) :=
  if blocks=0 then none
  else if j.ring≤1 ∨ j.ring≤blocks then none
  else if j.ext4Jbd2RingFreeBlocks<blocks then none
  else
    let head := j.clamp j.head
    let next := j.ext4Jbd2RingAdvance head blocks
    if next=0 then none
    else if j.pending.isEmpty then (if next=head then none else some (head,next))
    else if next=j.clamp j.tail then none
    else some (head,next)

/-- `tries` counts the rounds that are left. -/
def reserveLoop (total : ℕ) : ℕ → Ext4M (ℕ × ℕ)
  | 0 => enospcFail
  | tries+1 => do
    let j ← .gets (·.jbd2)
    match ext4Jbd2ReserveRing j total with
    | some r => pure r
    | none =>
      if j.pending.isEmpty then enospcFail else
        ext4Jbd2CheckpointUntilFree total
        reserveLoop total tries

/-- The header that all log blocks start with. -/
def logHeader (type seq : ℕ) : Buf :=
  ((Buf.zero.wrBe32 jbd2HdrMagicOff jbd2MagicNumber).wrBe32 jbd2HdrTypeOff type).wrBe32 jbd2HdrSeqOff seq

/-- A log block that starts with the magic number is stored with zeros there. -/
def escapes (data : Buf) : Bool := data.rdBe32 0 == jbd2MagicNumber

def escaped (data : Buf) : Buf := if escapes data then data.wrBe32 0 0 else data

def tagFlags (data : Buf) (last : Bool) : ℕ :=
  jbd2FlagSameUuid+(if escapes data then jbd2FlagEscape else 0)+(if last then jbd2FlagLastTag else 0)

/-- The tag of a block image at `off` in its descriptor block. -/
def putTag (j : Jbd2State) (seq : ℕ) (desc : Buf) (off : ℕ) (d : Jbd2Dirty) (last : Bool) : Buf :=
  let flags := tagFlags d.data last
  let sum := j.ext4Jbd2DataChecksum32 seq d.data
  if j.csumV3 then
    (((desc.wrBe32 off d.fsBlock).wrBe32 (off+4) flags).wrBe32 (off+8) (d.fsBlock/2^32)).wrBe32
      (off+12) sum
  else
    let desc := ((desc.wrBe32 off d.fsBlock).wrBe16 (off+4) (if j.csumV2 then sum else 0)).wrBe16
      (off+6) flags
    if j.feat64bit then desc.wrBe32 (off+8) (d.fsBlock/2^32) else desc

/-- The images of one descriptor block: their tags, and the images into the blocks that follow. -/
def emitTags (j : Jbd2State) (seq : ℕ) : List Jbd2Dirty → Buf → ℕ → ℕ → Ext4M (Buf × ℕ)
  | [],desc,_,dataPos => pure (desc,dataPos)
  | d::ds,desc,off,dataPos => do
    ext4Jbd2WriteJblock j.journalMeta dataPos (escaped d.data)
    let next := ext4Jbd2NextBlock dataPos j.first j.maxlen
    .require (next != 0)
    emitTags j seq ds (putTag j seq desc off d ds.isEmpty) (off+j.ext4Jbd2TxTagBytes) next

/-- The images from the descriptor block at `cursor` on; each round takes at least one. -/
def emitDescriptors (j : Jbd2State) (seq : ℕ) : ℕ → List Jbd2Dirty → ℕ → Ext4M ℕ
  | 0,_,cursor => pure cursor
  | fuel+1,ds,cursor =>
    if ds.isEmpty then pure cursor else do
      let dataPos := ext4Jbd2NextBlock cursor j.first j.maxlen
      .require (dataPos != 0)
      let (desc,next) ← emitTags j seq (ds.take j.tagsPerDesc) (logHeader jbd2DescriptorBlock seq) 12
        dataPos
      ext4Jbd2WriteJblock j.journalMeta cursor (j.ext4Jbd2SetTailChecksum desc)
      emitDescriptors j seq fuel (ds.drop j.tagsPerDesc) next

def putRevokes (j : Jbd2State) : List ℕ → Buf → ℕ → Buf × ℕ
  | [],blk,off => (blk,off)
  | b::bs,blk,off =>
    let blk := blk.wrBe32 off b
    let blk := if j.feat64bit then blk.wrBe32 (off+4) (b/2^32) else blk
    putRevokes j bs blk (off+j.revokeEntryBytes)

def revokeBlock (j : Jbd2State) (seq : ℕ) (bs : List ℕ) : Buf :=
  let (blk,off) := putRevokes j bs (logHeader jbd2RevokeBlock seq) jbd2RevokeEntriesOff
  j.ext4Jbd2SetTailChecksum (blk.wrBe32 jbd2RevokeCountOff off)

def emitRevokes (j : Jbd2State) (seq : ℕ) : ℕ → List ℕ → ℕ → Ext4M ℕ
  | 0,_,cursor => pure cursor
  | fuel+1,bs,cursor =>
    if bs.isEmpty then pure cursor else do
      ext4Jbd2WriteJblock j.journalMeta cursor (revokeBlock j seq (bs.take j.revokePerBlock))
      let next := ext4Jbd2NextBlock cursor j.first j.maxlen
      .require (next != 0)
      emitRevokes j seq fuel (bs.drop j.revokePerBlock) next

def commitBlock (j : Jbd2State) (seq : ℕ) : Buf :=
  j.ext4Jbd2SetCommitChecksum (logHeader jbd2CommitBlock seq)

def ext4Jbd2TxEmitCommit (j : Jbd2State) (seq cursor : ℕ) : Ext4M ℕ := do
  .require (decide (j.blockSize≤4096))
  ext4Jbd2WriteJblock j.journalMeta cursor (commitBlock j seq)
  let next := ext4Jbd2NextBlock cursor j.first j.maxlen
  .require (next != 0)
  pure next

/-- The log of a transaction: descriptors with their images, revokes, the commit block. -/
def emitLog (j : Jbd2State) (txStart : ℕ) : Ext4M ℕ := do
  let cursor ← emitDescriptors j j.sequence j.txDirty.length j.txDirty txStart
  let cursor ← emitRevokes j j.sequence j.txRevokes.length j.txRevokes cursor
  ext4Jbd2TxEmitCommit j j.sequence cursor

/-- The part of a commit in which reads and writes bypass the transaction. -/
def commitBody (txStart : ℕ) : Ext4M Unit := do
  ext4Jbd2StoreSuper
  flushCache
  let j ← .gets (·.jbd2)
  let cursor ← emitLog j txStart
  flushCache
  ext4Jbd2PendingPush j.sequence txStart cursor j.txDirty
  .modify (World.setJbd2 fun j' => {j' with head := cursor, sequence := (j.sequence+1)%2^32})
  ext4Jbd2StoreSuper
  flushCache

/-- Blocks that the open transaction needs in the log. -/
def Jbd2State.totalBlocks (j : Jbd2State) : ℕ :=
  let descBlocks := (j.txDirty.length+j.tagsPerDesc-1)/j.tagsPerDesc
  let revokeBlocks := if j.txRevokes.isEmpty then 0
    else (j.txRevokes.length+j.revokePerBlock-1)/j.revokePerBlock
  j.txDirty.length+descBlocks+revokeBlocks+1

def closeTx (j : Jbd2State) : Jbd2State :=
  {j with
    ioBypass := false, txActive := false, txEnospc := false, txDirty := [], txRevokes := []
    txRevokeOverflow := false}

/-- The checkpoint at the end of a commit, whose result is not looked at. -/
def trailingCheckpoint : Ext4M Unit := do
  let j ← .gets (·.jbd2)
  let minFree := j.ext4Jbd2PressureMinFreeBlocks
  if ext4Jbd2CheckpointBatch≤j.pending.length ∨
      (minFree≠0 ∧ j.ext4Jbd2RingFreeBlocks < minFree) then
    let _ ← .attempt (ext4Jbd2MaybeCheckpoint false)
    pure ()
  else pure ()

def ext4Jbd2TxCommit : Ext4M Unit := do
  let j ← .gets (·.jbd2)
  if !j.enabled then pure () else
    .require (j.txActive && j.writeReady)
    .modify (setEnospc false)
    if j.txRevokeOverflow then enospcFail
    else if j.txDirty.isEmpty && j.txRevokes.isEmpty then
      .modify (World.setJbd2 fun j => {j with txActive := false})
    else
      makeRoom
      .require (decide (12+j.tailBytes<j.blockSize))
      .require (j.tagsPerDesc != 0)
      let total := j.totalBlocks
      if j.ring≤1 ∨ j.ring≤total then enospcFail else
        let (txStart,txNextHead) ← reserveLoop total (ext4Jbd2MaxPendingTx+1)
        .modify (World.setJbd2 fun j =>
          {j with
            ioBypass := true, start := if j.pending.isEmpty then txStart else j.start
            head := txNextHead})
        (commitBody txStart).onFail (setBypass false)
        .modify (World.setJbd2 closeTx)
        trailingCheckpoint

def jlogHeader (state seq recCount dataBytes : ℕ) : Buf :=
  ((((Buf.zero.wrLe32 0 ext4JlogMagic).wrLe32 4 state).wrLe32 8 seq).wrLe32 12 recCount).wrLe32 16
    dataBytes

def ext4JournalWriteHeader (state recCount dataBytes seq : ℕ) : Ext4M Unit := do
  let g ← .gets (·.journal)
  if !g.enabled || decide (g.areaBytes<ext4JlogRegionBytes) then pure () else
    ext4RawWriteBytes g.baseOff (jlogHeader state seq recCount dataBytes) ext4JlogHdrSize

def ext4JournalClear : Ext4M Unit := do
  let g ← .gets (·.journal)
  if !g.enabled then pure () else
    ext4JournalWriteHeader ext4JlogStateClean 0 0 g.seq
    flushCache

def setErrno (n : ℕ) (w : World) : World := {w with errno := n}

def jbd2Errno (w : World) : World := setErrno (if w.jbd2.txEnospc then 28 else 5) w

def ext4TxBegin : Ext4M Unit := do
  .modify (setErrno 0)
  let w ← .gets id
  if w.jbd2.enabled then ext4Jbd2TxStart.onFail jbd2Errno
  else if !w.journal.enabled then pure ()
  else if w.journal.txActive then
    .modify (setErrno 16)
    .fail
  else
    .modify (World.setJournal fun g =>
      {g with txActive := true, recs := [], dataBytes := 0, seq := (g.seq+1)%2^32})
    let seq ← .gets (·.journal.seq)
    Prog.onFail (do ext4JournalWriteHeader ext4JlogStatePrep 0 0 seq; flushCache) fun w =>
      setErrno 5 (w.setJournal fun g => {g with txActive := false})

def ext4TxAbort : Ext4M Unit := do
  let w ← .gets id
  if w.jbd2.enabled then ext4Jbd2TxAbort
  else if !w.journal.enabled || !w.journal.txActive then pure ()
  else
    let _ ← .attempt ext4JournalClear
    .modify (World.setJournal fun g => {g with txActive := false, recs := [], dataBytes := 0})

def applyRecs (data : Buf) : List JlogRec → Ext4M Unit
  | [] => pure ()
  | r::rs => do
    ext4RawWriteBytes r.byteOff (fun i => data (r.dataOff+i)) r.len
    applyRecs data rs

/-- The FUJ1 commit: commit header, the records to their places, clean header. -/
def jlogCommitBody (g : Ext4Journal) : Ext4M Unit := do
  ext4JournalWriteHeader ext4JlogStateCommit g.recs.length g.dataBytes g.seq
  flushCache
  .modify (World.setJournal fun g => {g with replaying := true})
  (applyRecs g.data g.recs).onFail (World.setJournal fun g => {g with replaying := false})
  .modify (World.setJournal fun g => {g with replaying := false})
  flushCache
  ext4JournalClear

def ext4TxCommit : Ext4M Unit := do
  let w ← .gets id
  if w.jbd2.enabled then ext4Jbd2TxCommit.onFail jbd2Errno
  else if !w.journal.enabled then pure ()
  else
    .require w.journal.txActive
    .modify (World.setJournal fun g => {g with txActive := false})
    (jlogCommitBody w.journal).onFail (setErrno 5)
    .modify (World.setJournal fun g => {g with recs := [], dataBytes := 0})
    .modify (setErrno 0)

end FuriOS
