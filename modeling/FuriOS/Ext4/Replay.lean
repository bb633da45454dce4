import FuriOS.Ext4.Commit

/-! Journal recovery at mount: the journal superblock is loaded, the log is scanned transaction
by transaction, and the images that no revoke covers are written to their places. -/
namespace FuriOS

def ext4CompatHasJournal : ℕ := 0x0004
def ext4IncompatRecover : ℕ := 0x0004
def ext4SFeatureIncompat : ℕ := 0x60
def ext4SJournalInum : ℕ := 0xE0

def jbd2FeatureIncompatRevoke : ℕ := 0x01
def jbd2FeatureIncompat64bit : ℕ := 0x02
def jbd2FeatureIncompatCsumV2 : ℕ := 0x08
def jbd2FeatureIncompatCsumV3 : ℕ := 0x10
def jbd2FeatureIncompatFastCommit : ℕ := 0x20

def jbd2SbBlocksizeOff : ℕ := 12
def jbd2SbMaxlenOff : ℕ := 16
def jbd2SbFirstOff : ℕ := 20
def jbd2SbFeatIncompatOff : ℕ := 40
def jbd2SbUuidOff : ℕ := 48
def jbd2SbNumFcBlksOff : ℕ := 84

def ext4Jbd2MaxUpdates : ℕ := 8192
def ext4Jbd2MaxRevokes : ℕ := 8192

/-- Whether a word has one of the bits of a mask. -/
def hasFlag (flags mask : ℕ) : Bool := flags &&& mask != 0

structure Jbd2Update where
  fsBlock : ℕ
  jBlock : ℕ
  seq : ℕ
  escape : Bool
  deriving DecidableEq

structure Jbd2Revoke where
  fsBlock : ℕ
  seq : ℕ
  deriving DecidableEq

def ext4Jbd2RevokeContains (revokes : List Jbd2Revoke) (fsBlock : ℕ) : Bool :=
  revokes.any (·.fsBlock == fsBlock)

/-- The first entry of the block takes the later sequence number. -/
def raiseRevoke (fsBlock seq : ℕ) : List Jbd2Revoke → List Jbd2Revoke
  | [] => []
  | r::rs =>
    if r.fsBlock=fsBlock then (if r.seq<seq then {r with seq := seq} else r)::rs
    else r::raiseRevoke fsBlock seq rs

def ext4Jbd2AddRevoke (fs : Ext4Fs) (revokeMax fsBlock seq : ℕ) (keepLatestSeq : Bool)
    (revokes : List Jbd2Revoke) : Option (List Jbd2Revoke) :=
  if fs.blocksCount≤fsBlock then none
  else if ext4Jbd2RevokeContains revokes fsBlock then
    some (if keepLatestSeq then raiseRevoke fsBlock seq revokes else revokes)
  else if revokeMax≤revokes.length then none
  else some (revokes++[⟨fsBlock,seq⟩])

/-- The first entry of the block in the same transaction takes the later image. -/
def replaceUpdate (fsBlock jBlock seq : ℕ) (escape : Bool) : List Jbd2Update → List Jbd2Update
  | [] => []
  | u::us =>
    if u.fsBlock=fsBlock ∧ u.seq=seq then {u with jBlock := jBlock, escape := escape}::us
    else u::replaceUpdate fsBlock jBlock seq escape us

def ext4Jbd2AddUpdate (fs : Ext4Fs) (j : Jbd2State) (updateMax fsBlock jBlock seq : ℕ)
    (escape dedupeSameSeq : Bool) (updates : List Jbd2Update) : Option (List Jbd2Update) :=
  if fs.blocksCount≤fsBlock then none
  else if ¬ j.inRing jBlock then none
  else if dedupeSameSeq && updates.any fun u => u.fsBlock == fsBlock && u.seq == seq then
    some (replaceUpdate fsBlock jBlock seq escape updates)
  else if updateMax≤updates.length then none
  else some (updates++[⟨fsBlock,jBlock,seq,escape⟩])

def ext4Jbd2RevokeHitsUpdate (revokes : List Jbd2Revoke) (fsBlock updateSeq : ℕ) : Bool :=
  revokes.any fun r => r.fsBlock == fsBlock && decide (updateSeq≤r.seq)

def parseRevokeLoop (fs : Ext4Fs) (j : Jbd2State) (blk : Buf) (seq used : ℕ) :
    ℕ → ℕ → List Jbd2Revoke → Option (ℕ × List Jbd2Revoke)
  | 0,off,rs => some (off,rs)
  | fuel+1,off,rs =>
    if off+4≤used then
      if j.feat64bit && decide (used<off+8) then none else
        let fsBlock := blk.rdBe32 off+(if j.feat64bit then blk.rdBe32 (off+4)*2^32 else 0)
        match ext4Jbd2AddRevoke fs ext4Jbd2TxMaxRevokes fsBlock seq false rs with
        | none => none
        | some rs => parseRevokeLoop fs j blk seq used fuel (off+j.revokeEntryBytes) rs
    else some (off,rs)

def ext4Jbd2ParseRevokeBlock (fs : Ext4Fs) (j : Jbd2State) (blk : Buf) (seq : ℕ)
    (rs : List Jbd2Revoke) : Option (List Jbd2Revoke) :=
  if fs.blockSize<jbd2RevokeEntriesOff then none
  else if !j.ext4Jbd2VerifyTailChecksum blk then none
  else
    let used := blk.rdBe32 jbd2RevokeCountOff
    if used<jbd2RevokeEntriesOff ∨ fs.blockSize<used then none
    else match parseRevokeLoop fs j blk seq used used jbd2RevokeEntriesOff rs with
      | none => none
      | some (off,rs) => if off=used then some rs else none

/-- A tag of a descriptor block and the offset of the next one. -/
structure Jbd2Tag where
  fsBlock : ℕ
  flags : ℕ
  sum : ℕ
  next : ℕ
  deriving DecidableEq

/-- A tag without the same-UUID mark is followed by a UUID, which is skipped. -/
def readTag (blockSize : ℕ) (j : Jbd2State) (blk : Buf) (off : ℕ) : Option Jbd2Tag :=
  if blockSize<off+j.ext4Jbd2TxTagBytes then none else
    let t : Jbd2Tag :=
      if j.csumV3 then
        ⟨blk.rdBe32 off+blk.rdBe32 (off+8)*2^32,blk.rdBe32 (off+4),blk.rdBe32 (off+12),off+16⟩
      else
        ⟨blk.rdBe32 off+(if j.feat64bit then blk.rdBe32 (off+8)*2^32 else 0),blk.rdBe16 (off+6),
          blk.rdBe16 (off+4),off+j.ext4Jbd2TxTagBytes⟩
    if hasFlag t.flags jbd2FlagSameUuid then some t
    else if blockSize<t.next+16 then none
    else some {t with next := t.next+16}

def tagSumOk (j : Jbd2State) (seq : ℕ) (t : Jbd2Tag) (data : Buf) : Bool :=
  !j.hasCsum || (if j.csumV3 then j.ext4Jbd2DataChecksum32 seq data == t.sum
    else j.ext4Jbd2DataChecksum32 seq data%2^16 == t.sum)

/-- `ext4_jbd2_read_jblock`, for code that only reads. -/
def Ext4Fs.readJblock (fs : Ext4Fs) (m : Ext4Meta) (jBlock : ℕ) : Scan Buf := do
  let pblock ← fs.ext4MapFileBlock m jBlock
  .require (pblock != 0)
  fs.readBlock pblock

/-- The tags from `off` on, with the images from `dataBlock` on. A tag has at least eight bytes. -/
def parseTags (fs : Ext4Fs) (j : Jbd2State) (blk : Buf) (seq : ℕ) (revokes : List Jbd2Revoke) :
    ℕ → ℕ → ℕ → List Jbd2Update → Scan (ℕ × List Jbd2Update)
  | 0,_,_,_ => .stop
  | fuel+1,off,dataBlock,us => do
    .require (decide (off+8≤fs.blockSize))
    let t ← .ofOption (readTag fs.blockSize j blk off)
    .require (decide (t.flags<16))
    .require (decide (t.fsBlock<fs.blocksCount))
    let data ← fs.readJblock j.journalMeta dataBlock
    .require (tagSumOk j seq t data)
    let us ← (if !hasFlag t.flags jbd2FlagDeleted && !ext4Jbd2RevokeContains revokes t.fsBlock then
        .ofOption (ext4Jbd2AddUpdate fs j ext4Jbd2TxMaxBlocks t.fsBlock dataBlock seq
          (hasFlag t.flags jbd2FlagEscape) true us)
      else pure us : Scan (List Jbd2Update))
    let next := ext4Jbd2NextBlock dataBlock j.first j.maxlen
    .require (next != 0)
    if hasFlag t.flags jbd2FlagLastTag then pure (next,us)
    else parseTags fs j blk seq revokes fuel t.next next us

def ext4Jbd2ParseDescriptorBlock (fs : Ext4Fs) (j : Jbd2State) (blk : Buf) (seq cursor : ℕ)
    (revokes : List Jbd2Revoke) (us : List Jbd2Update) : Scan (ℕ × List Jbd2Update) := do
  .require (cursor != 0)
  .require (j.ext4Jbd2VerifyTailChecksum blk)
  let dataBlock := ext4Jbd2NextBlock cursor j.first j.maxlen
  .require (dataBlock != 0)
  parseTags fs j blk seq revokes fs.blockSize 12 dataBlock us

/-- The image of a log block with its first word put back. -/
def unescaped (escape : Bool) (blk : Buf) : Buf := if escape then blk.wrBe32 0 jbd2MagicNumber else blk

def applyUpdatesLoop (m : Ext4Meta) (revokes : List Jbd2Revoke) : List Jbd2Update → Ext4M Unit
  | [] => pure ()
  | u::us => do
    .require (decide (u.fsBlock<(← .gets (·.ext4.blocksCount))))
    if ext4Jbd2RevokeHitsUpdate revokes u.fsBlock u.seq then applyUpdatesLoop m revokes us else
      let blk ← ext4Jbd2ReadJblock m u.jBlock
      ext4WriteBlock u.fsBlock (unescaped u.escape blk)
      applyUpdatesLoop m revokes us

def ext4Jbd2ApplyUpdates (m : Ext4Meta) (us : List Jbd2Update) (revokes : List Jbd2Revoke) :
    Ext4M Unit := do
  .require (decide ((← .gets (·.ext4.blockSize))≤4096))
  applyUpdatesLoop m revokes us

def Jbd2State.zero : Jbd2State where
  enabled := false
  writeReady := false
  txActive := false
  ioBypass := false
  feat64bit := false
  csumV2 := false
  csumV3 := false
  blockSize := 0
  maxlen := 0
  first := 0
  sequence := 0
  start := 0
  head := 0
  tail := 0
  featureIncompat := 0
  csumSeed := 0
  lastCheckpointTick := 0
  journalMeta := Ext4Meta.zero
  txDirty := []
  txRevokes := []
  txRevokeOverflow := false
  txEnospc := false
  pending := []

/-- The fields that are taken from the journal superblock. -/
def Jbd2State.fromSuper (m : Ext4Meta) (jsb : Buf) : Jbd2State :=
  let feat := jsb.rdBe32 jbd2SbFeatIncompatOff
  { Jbd2State.zero with
    journalMeta := m
    blockSize := jsb.rdBe32 jbd2SbBlocksizeOff
    maxlen := jsb.rdBe32 jbd2SbMaxlenOff
    first := jsb.rdBe32 jbd2SbFirstOff
    sequence := jsb.rdBe32 jbd2SbSequenceOff
    start := jsb.rdBe32 jbd2SbStartOff
    head := jsb.rdBe32 jbd2SbHeadOff
    featureIncompat := feat
    feat64bit := hasFlag feat jbd2FeatureIncompat64bit
    csumV2 := hasFlag feat jbd2FeatureIncompatCsumV2
    csumV3 := hasFlag feat jbd2FeatureIncompatCsumV3
    csumSeed := crc32cUpdate 0 jsb jbd2SbUuidOff 16}

/-- The tail of `ext4_jbd2_load_state`: the journal superblock is checked and the engine set up
from the fields `j` taken from it. -/
def acceptSuper (blockSize : ℕ) (jsb : Buf) (j : Jbd2State) : Ext4M Unit := do
  .require (jsb.rdBe32 jbd2HdrMagicOff == jbd2MagicNumber)
  .require (jsb.rdBe32 jbd2HdrTypeOff == jbd2SuperblockV1 ||
    jsb.rdBe32 jbd2HdrTypeOff == jbd2SuperblockV2)
  .modify (World.setJbd2 fun _ => j)
  .require (j.blockSize == blockSize && j.maxlen != 0 && j.first != 0 && decide (j.first<j.maxlen))
  .require (decide (j.featureIncompat<2*jbd2FeatureIncompatFastCommit))
  .require (!(hasFlag j.featureIncompat jbd2FeatureIncompatFastCommit &&
    jsb.rdBe32 jbd2SbNumFcBlksOff != 0))
  .modify (World.setJbd2 fun j => {j with head := j.clamp j.head})
  .modify (World.setJbd2 fun j => {j with tail := if j.start≠0 then j.start else j.head})
  let now ← timerTicks
  .modify (World.setJbd2 fun j => {j with lastCheckpointTick := now})
  .require (!(j.hasCsum && jsb.rdBe32 jbd2SbChecksumTypeOff != jbd2Crc32cChksum))
  .modify (World.setJbd2 fun j => {j with enabled := true})
  .require (j.ext4Jbd2VerifySuperChecksum jsb)
  .modify (World.setJbd2 fun j => {j with writeReady := true})

def ext4Jbd2LoadState (ext4Sb : Buf) : Ext4M Unit := do
  let fs ← .gets World.ext4
  .require (ext4Sb.rdLe32 ext4SJournalInum != 0)
  .modify (World.setJbd2 fun _ => Jbd2State.zero)
  let m ← disk (fs.ext4LoadMeta (ext4Sb.rdLe32 ext4SJournalInum))
  .modify (World.setJbd2 fun j => {j with journalMeta := m})
  .require (decide (fs.blockSize≤4096))
  let jsb ← ext4Jbd2ReadJblock m 0
  acceptSuper fs.blockSize jsb (Jbd2State.fromSuper m jsb)

/-- The state of the scan over the log. -/
structure ReplayState where
  cursor : ℕ
  seq : ℕ
  updates : List Jbd2Update
  revokes : List Jbd2Revoke
  txUpdates : List Jbd2Update
  txRevokes : List Jbd2Revoke
  replayed : ℕ
  txOpen : Bool

def mergeRevokes (fs : Ext4Fs) : List Jbd2Revoke → List Jbd2Revoke → Option (List Jbd2Revoke)
  | [],acc => some acc
  | r::rs,acc => do
    mergeRevokes fs rs (← ext4Jbd2AddRevoke fs ext4Jbd2MaxRevokes r.fsBlock r.seq true acc)

def mergeUpdates (fs : Ext4Fs) (j : Jbd2State) :
    List Jbd2Update → List Jbd2Update → Option (List Jbd2Update)
  | [],acc => some acc
  | u::us,acc => do
    mergeUpdates fs j us
      (← ext4Jbd2AddUpdate fs j ext4Jbd2MaxUpdates u.fsBlock u.jBlock u.seq u.escape false acc)

/-- The position after `cursor`, or failure outside the ring. -/
def stepCursor (j : Jbd2State) (cursor : ℕ) : Scan ℕ := do
  let next := ext4Jbd2NextBlock cursor j.first j.maxlen
  .require (next != 0)
  pure next

/-- One log block: `none` ends the scan. -/
def replayStep (fs : Ext4Fs) (j : Jbd2State) (s : ReplayState) : Scan (Option ReplayState) := do
  let blk ← fs.readJblock j.journalMeta s.cursor
  let type := blk.rdBe32 jbd2HdrTypeOff
  if blk.rdBe32 jbd2HdrMagicOff≠jbd2MagicNumber ∨ blk.rdBe32 jbd2HdrSeqOff≠s.seq then pure none
  else if type=jbd2DescriptorBlock then
    let (cursor,us) ← ext4Jbd2ParseDescriptorBlock fs j blk s.seq s.cursor s.txRevokes s.txUpdates
    pure (some {s with cursor := cursor, txUpdates := us, txOpen := true})
  else if type=jbd2RevokeBlock then
    .require (hasFlag j.featureIncompat jbd2FeatureIncompatRevoke)
    let rs ← .ofOption (ext4Jbd2ParseRevokeBlock fs j blk s.seq s.txRevokes)
    let cursor ← stepCursor j s.cursor
    pure (some {s with cursor := cursor, txRevokes := rs, txOpen := true})
  else if type=jbd2CommitBlock then
    .require (s.txOpen && j.ext4Jbd2VerifyCommitChecksum blk)
    let rs ← .ofOption (mergeRevokes fs s.txRevokes s.revokes)
    let us ← .ofOption (mergeUpdates fs j s.txUpdates s.updates)
    let cursor ← stepCursor j s.cursor
    pure (some {s with
        cursor := cursor, seq := (s.seq+1)%2^32, updates := us, revokes := rs
        txUpdates := [], txRevokes := [], replayed := s.replayed+1, txOpen := false})
  else if type=jbd2SuperblockV1 ∨ type=jbd2SuperblockV2 then
    .require (!s.txOpen && s.txUpdates.isEmpty && s.txRevokes.isEmpty)
    .require (j.ext4Jbd2VerifySuperChecksum blk)
    let cursor ← stepCursor j s.cursor
    pure (some {s with cursor := cursor})
  else .stop

/-- The scan fails when the guard is used up before the end of the log is found. -/
def replayLoop (fs : Ext4Fs) (j : Jbd2State) : ℕ → ReplayState → Scan ReplayState
  | 0,_ => .stop
  | guard+1,s => do
    match ← replayStep fs j s with
    | none => pure s
    | some s' => replayLoop fs j guard s'

def replayGuard (j : Jbd2State) : ℕ := max (j.maxlen*4%2^32) 64

/-- The log is empty from `cursor` on. -/
def logEmptied (cursor : ℕ) (j : Jbd2State) : Jbd2State :=
  Jbd2State.ext4Jbd2RefreshStartTail {j with start := 0, head := cursor}

/-- The incompatible features of a superblock without the mark that the journal needs recovery. -/
def incompatCleared (sb : Buf) : ℕ :=
  if hasFlag (sb.rdLe32 ext4SFeatureIncompat) ext4IncompatRecover then
    sb.rdLe32 ext4SFeatureIncompat-ext4IncompatRecover
  else sb.rdLe32 ext4SFeatureIncompat

def World.setIncompat (n : ℕ) (w : World) : World :=
  {w with ext4 := {w.ext4 with featureIncompat := n}}

def clearRecover : Ext4M Unit := do
  let fs ← .gets World.ext4
  if hasFlag fs.featureIncompat ext4IncompatRecover then
    let sb ← ext4DiskReadBytes ext4SuperOffset ext4SuperSize
    ext4DiskWriteBytes ext4SuperOffset (sb.wrLe32 ext4SFeatureIncompat (incompatCleared sb))
      ext4SuperSize
    .modify (World.setIncompat (incompatCleared sb))
  else pure ()

/-- The tail of `ext4_jbd2_replay_if_needed`: what the scan has found is applied and the log is
emptied. -/
def finishReplay (m : Ext4Meta) (s : ReplayState) : Ext4M Unit := do
  if s.replayed=0 then
    .modify (World.setJbd2 (logEmptied s.cursor))
    ext4Jbd2StoreSuper
    flushCache
  else
    ext4Jbd2ApplyUpdates m s.updates s.revokes
    .modify (World.setJbd2 fun j => logEmptied s.cursor {j with sequence := s.seq})
    ext4Jbd2StoreSuper
    clearRecover
    flushCache

def ext4Jbd2ReplayIfNeeded (ext4Sb : Buf) : Ext4M Unit := do
  let fs ← .gets World.ext4
  if !hasFlag fs.featureCompat ext4CompatHasJournal then pure () else
    ext4Jbd2LoadState ext4Sb
    let fs ← .gets World.ext4
    let j ← .gets World.jbd2
    if j.start=0 then pure () else
      .require (j.inRing j.start)
      let s ← disk (replayLoop fs j (replayGuard j) ⟨j.start,j.sequence,[],[],[],[],0,false⟩)
      finishReplay j.journalMeta s

end FuriOS
