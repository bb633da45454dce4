import FuriOS.Ext4.RawIO

/-! Byte access to the volume as the file system sees it: the raw contents under the images of
the committed transactions that still wait for their checkpoint, under the images of the open
transaction, under the records of the FUJ1 log. -/
namespace FuriOS

def ext4JlogMaxRecords : ℕ := 512
def ext4JlogDataBytes : ℕ := 192*1024
def ext4JlogHdrSize : ℕ := 64
def ext4JlogRecSize : ℕ := 16

def ext4Jbd2TxMaxBlocks : ℕ := 256
def ext4Jbd2TxMaxRevokes : ℕ := 512

def World.setJbd2 (f : Jbd2State → Jbd2State) (w : World) : World := {w with jbd2 := f w.jbd2}

def World.setJournal (f : Ext4Journal → Ext4Journal) (w : World) : World :=
  {w with journal := f w.journal}

/-- A run of bytes held in memory with the place on the volume it stands for. -/
structure Piece where
  start : ℕ
  len : ℕ
  data : Buf

/-- The part of a piece that overlaps the `len` bytes read at `off` replaces what was read. -/
def Piece.overlay (off len : ℕ) (buf : Buf) (p : Piece) : Buf :=
  if p.start+p.len≤off ∨ off+len≤p.start then buf else
    let ovStart := max p.start off
    let ovEnd := min (p.start+p.len) (off+len)
    buf.copy (ovStart-off) p.data (ovStart-p.start) (ovEnd-ovStart)

/-- The block image as a piece of the volume. -/
def Jbd2Dirty.piece (blockSize : ℕ) (d : Jbd2Dirty) : Piece := ⟨d.fsBlock*blockSize,blockSize,d.data⟩

def JlogRec.piece (data : Buf) (r : JlogRec) : Piece := ⟨r.byteOff,r.len,fun i => data (r.dataOff+i)⟩

def overlayPieces (off len : ℕ) (ps : List Piece) (buf : Buf) : Ext4M Buf := do
  .require (off+len<2^64)
  pure (ps.foldl (Piece.overlay off len) buf)

def ext4Jbd2PendingOverlayRead (off len : ℕ) (buf : Buf) : Ext4M Buf := do
  let j ← .gets (·.jbd2)
  if !j.enabled || j.pending.isEmpty || len == 0 || j.ioBypass then pure buf else
    overlayPieces off len (j.pending.flatMap fun p => p.dirty.map (·.piece j.blockSize)) buf

def ext4Jbd2TxOverlayRead (off len : ℕ) (buf : Buf) : Ext4M Buf := do
  let j ← .gets (·.jbd2)
  if !j.txActive || len == 0 then pure buf else
    overlayPieces off len (j.txDirty.map (·.piece j.blockSize)) buf

def jlogOverlayRead (off len : ℕ) (buf : Buf) : Ext4M Buf := do
  let g ← .gets (·.journal)
  if !g.enabled || !g.txActive || len == 0 then pure buf else
    overlayPieces off len ((g.recs.filter fun r => r.byteOff+r.len<2^64).map (·.piece g.data)) buf

def ext4DiskReadBytes (byteOff len : ℕ) : Ext4M Buf := do
  let buf ← ext4RawReadBytes byteOff len
  let j ← .gets (·.jbd2)
  let buf ← (if j.enabled then ext4Jbd2PendingOverlayRead byteOff len buf else pure buf : Ext4M Buf)
  let buf ← (if j.enabled && j.txActive && !j.ioBypass then ext4Jbd2TxOverlayRead byteOff len buf
    else pure buf : Ext4M Buf)
  jlogOverlayRead byteOff len buf

def ext4Jbd2RemoveRevoke (fsBlock : ℕ) (j : Jbd2State) : Jbd2State :=
  {j with txRevokes := j.txRevokes.erase fsBlock}

def ext4Jbd2RemoveDirty (fsBlock : ℕ) (j : Jbd2State) : Jbd2State :=
  {j with txDirty := j.txDirty.eraseP (·.fsBlock == fsBlock)}

def ext4Jbd2FindDirty (fsBlock : ℕ) (j : Jbd2State) : Option ℕ :=
  j.txDirty.findIdx? (·.fsBlock == fsBlock)

/-- A new image of the block with its present contents. The source counts the new slot before it
reads into it, so the read lays the slot over itself, which changes nothing. -/
def ext4Jbd2AllocDirty (fsBlock : ℕ) : Ext4M ℕ := do
  let j ← .gets (·.jbd2)
  if ext4Jbd2TxMaxBlocks≤j.txDirty.length then
    .modify (World.setJbd2 fun j => {j with txEnospc := true})
    .fail
  else
    let data ← ext4DiskReadBytes (fsBlock*j.blockSize) j.blockSize
    .modify (World.setJbd2 fun j => {j with txDirty := j.txDirty++[⟨fsBlock,data⟩]})
    pure j.txDirty.length

/-- `n` bytes of `src`, from `from_` on, put into the image with the given index. -/
def Jbd2State.patchDirty (idx inBlock : ℕ) (src : Buf) (from_ n : ℕ) (j : Jbd2State) : Jbd2State :=
  {j with txDirty := j.txDirty.modify idx fun d => {d with data := d.data.copy inBlock src from_ n}}

def txWriteLoop (buf : Buf) : ℕ → ℕ → ℕ → ℕ → Ext4M Unit
  | 0,_,_,_ => pure ()
  | fuel+1,byteOff,src,len =>
    if len=0 then pure () else do
      let w ← .gets id
      let fsBlock := byteOff / w.jbd2.blockSize
      let inBlock := byteOff%w.jbd2.blockSize
      let chunk := min (w.jbd2.blockSize-inBlock) len
      .require (fsBlock<w.ext4.blocksCount)
      let idx ← (match ext4Jbd2FindDirty fsBlock w.jbd2 with
        | some i => pure i
        | none => ext4Jbd2AllocDirty fsBlock : Ext4M ℕ)
      .modify (World.setJbd2 (ext4Jbd2RemoveRevoke fsBlock))
      .modify (World.setJbd2 (Jbd2State.patchDirty idx inBlock buf src chunk))
      txWriteLoop buf fuel (byteOff+chunk) (src+chunk) (len-chunk)

def ext4Jbd2TxWriteBytes (byteOff : ℕ) (buf : Buf) (len : ℕ) : Ext4M Unit := do
  .require (← .gets (·.jbd2.txActive))
  txWriteLoop buf len byteOff 0 len

/-- The packed record as it is stored: a 64-bit offset and two 32-bit fields. -/
def JlogRec.bytes (r : JlogRec) : Buf :=
  (((Buf.zero.wrLe32 0 r.byteOff).wrLe32 4 (r.byteOff/2^32)).wrLe32 8 r.len).wrLe32 12 r.dataOff

def Ext4Journal.recBase (g : Ext4Journal) : ℕ := g.baseOff+ext4JlogHdrSize

def Ext4Journal.dataBase (g : Ext4Journal) : ℕ := g.recBase+ext4JlogMaxRecords*ext4JlogRecSize

/-- A write in a FUJ1 transaction is kept as a record, in memory and in the log area. The slot of
the record and the data buffer are filled before the log area is written; they count once it is. -/
def jlogWriteBytes (byteOff : ℕ) (buf : Buf) (len : ℕ) : Ext4M Unit := do
  let g ← .gets (·.journal)
  if len == 0 then pure () else
    .require (g.recs.length<ext4JlogMaxRecords)
    .require (g.dataBytes+len≤ext4JlogDataBytes)
    let r : JlogRec := ⟨byteOff,len,g.dataBytes⟩
    .modify (World.setJournal fun g => {g with data := g.data.copy g.dataBytes buf 0 len})
    ext4RawWriteBytes (g.recBase+g.recs.length*ext4JlogRecSize) r.bytes ext4JlogRecSize
    ext4RawWriteBytes (g.dataBase+r.dataOff) buf len
    .modify (World.setJournal fun g =>
      {g with recs := g.recs++[r], dataBytes := g.dataBytes+len})

def ext4DiskWriteBytes (byteOff : ℕ) (buf : Buf) (len : ℕ) : Ext4M Unit := do
  let w ← .gets id
  if w.jbd2.enabled && w.jbd2.txActive && !w.jbd2.ioBypass then
    ext4Jbd2TxWriteBytes byteOff buf len
  else if !w.journal.enabled || !w.journal.txActive || w.journal.replaying then
    ext4RawWriteBytes byteOff buf len
  else jlogWriteBytes byteOff buf len

def ext4ReadBlock (blockNo : ℕ) : Ext4M Buf := do
  let fs ← .gets (·.ext4)
  ext4DiskReadBytes (blockNo*fs.blockSize) fs.blockSize

def ext4WriteBlock (blockNo : ℕ) (buf : Buf) : Ext4M Unit := do
  let fs ← .gets (·.ext4)
  ext4DiskWriteBytes (blockNo*fs.blockSize) buf fs.blockSize

def ext4Jbd2NoteRevoke (fsBlock : ℕ) : Ext4M Unit := .modify fun w =>
  if !w.jbd2.enabled || !w.jbd2.txActive || decide (w.ext4.blocksCount≤fsBlock) then w else
    w.setJbd2 fun j =>
      let j := ext4Jbd2RemoveDirty fsBlock j
      if fsBlock∈j.txRevokes then j
      else if j.txRevokes.length<ext4Jbd2TxMaxRevokes then
        {j with txRevokes := j.txRevokes++[fsBlock]}
      else {j with txRevokeOverflow := true}

end FuriOS
