import FuriOS.Ext4.Transaction
import FuriOS.Ext4.Replay

/-! A small volume for any contents of its device: blocks of 1 KiB, and a journal in the direct
blocks of its inode, as it stands after its mount. -/
namespace FuriOS
open BlockCache World

/-- The journal inode: its twelve blocks are 20 to 31. -/
def freshInode : Ext4Meta where
  valid := true
  ino := 8
  mode := 0x8180
  links := 1
  flags := 0
  blocksLo := 24
  size := 12*1024
  block i := if i.val<12 then 20+i.val else 0

def freshGeometry : Geometry := ⟨freshInode,12,(20+·),fun _ => False⟩

/-- A cache that holds nothing, attached to a device of 128 sectors. -/
def freshCache (store : ℕ → Sector) : BlockCache Sector where
  lines _ := ⟨false,false,0,0,fun _ => 0⟩
  useClock := 0
  readyFlag := true
  activeDevKind := .vda
  activeLbaBase := 0
  activeLbaCount := 128
  selftestDone := true
  dev :=
    { present := fun _ => true
      store := fun _ => store
      readOutcome := fun _ => .ok
      writeOk := fun _ => true
      flushOk := fun _ => true
      requests := 0
      reads := [], log := []}

def freshFs : Ext4Fs where
  mounted := true
  writeEnabled := true
  hasFiletype := true
  has64bit := false
  featureCompat := ext4CompatHasJournal
  featureIncompat := 2+ext4IncompatRecover
  featureRoCompat := 0
  blockSize := 1024
  inodesCount := 16
  firstIno := 11
  inodeSize := 128
  inodesPerGroup := 16
  blocksPerGroup := 8192
  descSize := 32
  firstDataBlock := 1
  blocksCount := 64
  freeBlocksCount := 24
  freeInodesCount := 5
  groupsCount := 1
  sourceDevKind := .vda
  sourceLbaStart := 0
  sourceLbaCount := 128
  rootMeta := Ext4Meta.zero

def noJournal : Ext4Journal := ⟨false,false,false,0,0,0,[],0,Buf.zero⟩

/-- The engine of an empty log with the given features and next sequence number. -/
def freshJbd2 (feat seq : ℕ) : Jbd2State :=
  { Jbd2State.zero with
    enabled := true
    writeReady := true
    feat64bit := hasFlag feat jbd2FeatureIncompat64bit
    csumV2 := hasFlag feat jbd2FeatureIncompatCsumV2
    csumV3 := hasFlag feat jbd2FeatureIncompatCsumV3
    blockSize := 1024
    maxlen := 12
    first := 1
    sequence := seq
    head := 1
    tail := 1
    featureIncompat := feat
    csumSeed := crc32cUpdate 0 Buf.zero jbd2SbUuidOff 16
    journalMeta := freshInode}

def fresh (store : ℕ → Sector) (feat seq : ℕ) : World :=
  ⟨freshCache store,freshFs,freshJbd2 feat seq,noJournal,0,fun _ => 0,0⟩

section Fresh
variable (store : ℕ → Sector) (feat seq : ℕ)

lemma fresh_online : (fresh store feat seq).Online := by
  refine ⟨⟨rfl,?_,?_,?_⟩,fun _ => rfl,rfl⟩
  · intro i j hi
    cases hi
  · intro i hi
    cases hi
  · intro i hi
    cases hi

lemma fresh_layout : freshGeometry.Layout 64 := by
  refine ⟨?_,?_,?_,fun _ h => h.elim,fun _ h => h.elim⟩
  · intro l _
    simp [freshGeometry]
  · intro l hl
    simp only [freshGeometry] at hl ⊢
    omega
  · intro l _ l' _ h
    simpa [freshGeometry] using h

lemma fresh_map {l : ℕ} (hl : l<12) :
    freshFs.ext4MapFileBlock freshGeometry.inode l=.done (20+l) := by
  have hfl : ¬ freshInode.flags &&& ext4ExtentsFl≠0 := by decide
  have hdir : l<ext4NdirBlocks := hl
  unfold Ext4Fs.ext4MapFileBlock Ext4Fs.ext4MapBlockDirect
  rw [show freshGeometry.inode=freshInode from rfl,if_neg hfl,dif_pos hdir]
  simp only [freshInode,if_pos hl]
  rfl

lemma fresh_placed : (fresh store feat seq).Placed freshGeometry where
  online := fresh_online store feat seq
  cap := show 128*512<2^64 by decide
  noJlog := rfl
  blockSize := .inl rfl
  fits := show 64*1024≤128*512 by decide
  layout := fresh_layout
  maps := by
    constructor
    · intro l hl
      rw [show (fresh store feat seq).ext4=freshFs from rfl,fresh_map hl]
      rfl
    · intro l hl r hr
      rw [show (fresh store feat seq).ext4=freshFs from rfl,fresh_map hl] at hr
      simp [Scan.reads] at hr

lemma fresh_running : (fresh store feat seq).Running freshGeometry where
  engine := ⟨fresh_placed store feat seq,rfl,rfl,rfl,rfl,show 0<1 by decide,show 1<12 by decide⟩
  bypass := rfl
  pending := by
    intro p hp
    cases hp
  tx := by
    constructor <;> simp [fresh,freshJbd2,Jbd2State.zero,blocksOf]
  txHome := by
    intro b hb
    cases hb
  noJlogTx := rfl

lemma fresh_writesOk : (fresh store feat seq).cache.WritesOk := fun _ _ => ⟨rfl,rfl⟩

end Fresh

/-- The calls one after the other, as long as they succeed. -/
def Op.execAll : List Op → Ext4M Unit
  | [] => pure ()
  | op::ops => do
    op.exec
    Op.execAll ops


/-- The bytes of a volume of this kind: the journal inode's number, the descriptor of the group,
the journal inode's record, and the journal superblock of a log that starts at block 1. -/
def freshImage (feat seq : ℕ) : Buf :=
  let v := Buf.zero.wrLe32 (ext4SuperOffset+ext4SJournalInum) 8
  let v := v.wrLe32 (2*1024+ext4BgInodeTableLo) 5
  let v := (((v.wrLe16 6016 0x8180).wrLe32 (6016+0x04) (12*1024)).wrLe16 (6016+0x1A) 1).wrLe32
    (6016+0x1C) 24
  let v := (List.range 12).foldl (fun v i => v.wrLe32 (6016+0x28+i*4) (20+i)) v
  let v := (v.wrBe32 (20*1024+jbd2HdrMagicOff) jbd2MagicNumber).wrBe32 (20*1024+jbd2HdrTypeOff)
    jbd2SuperblockV2
  let v := ((v.wrBe32 (20*1024+jbd2SbBlocksizeOff) 1024).wrBe32 (20*1024+jbd2SbMaxlenOff) 12).wrBe32
    (20*1024+jbd2SbFirstOff) 1
  let v := (v.wrBe32 (20*1024+jbd2SbSequenceOff) seq).wrBe32 (20*1024+jbd2SbStartOff) 1
  v.wrBe32 (20*1024+jbd2SbFeatIncompatOff) feat

/-- The volume with these bytes, before its journal is looked at. -/
def unmounted (v : Buf) : World :=
  {fresh (fun l i => v (l*sectorSize+i.val)) 0 0 with jbd2 := Jbd2State.zero}

lemma metaOf_fresh {raw : Buf} (h : raw.rdLe16 0=0x8180 ∧ raw.rdLe16 0x1A=1 ∧ raw.rdLe32 0x20=0 ∧
    raw.rdLe32 0x1C=24 ∧ raw.rdLe32 0x04+raw.rdLe32 0x6C*2^32=12*1024)
    (hb : ∀ i : Fin 15, raw.rdLe32 (0x28+i.val*4)=freshInode.block i) :
    Ext4Fs.metaOf 8 raw=freshInode := by
  obtain ⟨h1,h2,h3,h4,h5⟩ := h
  have hblock : (fun i : Fin 15 => raw.rdLe32 (0x28+i.val*4))=freshInode.block := funext hb
  simp only [Ext4Fs.metaOf,h1,h2,h3,h4,h5,hblock]
  rfl

lemma eval_loadFresh {v : Buf} (h : (v.slice 2048 32).rdLe32 ext4BgInodeTableLo=5) :
    (freshFs.ext4LoadMeta 8).eval v=some (Ext4Fs.metaOf 8 (v.slice 6016 128)) := by
  have href : freshFs.ext4GroupGetBlockRef (v.slice 2048 32) ext4BgInodeTableLo ext4BgInodeTableHi =
      5 := by
    rw [Ext4Fs.ext4GroupGetBlockRef,h]
    rfl
  have hdesc : (freshFs.ext4GroupReadDesc ((8-1)/freshFs.inodesPerGroup)).eval v =
      some (v.slice 2048 32) := rfl
  have hoff : (freshFs.ext4InodeOffset 8).eval v=some 6016 := by
    rw [Ext4Fs.ext4InodeOffset,Scan.eval_bind,Scan.eval_require,if_pos (by decide),Option.bind_some]
    dsimp only
    rw [Scan.eval_bind,hdesc,Option.bind_some,Scan.eval_bind,Scan.eval_require,href,
      if_pos (by decide),Option.bind_some]
    rfl
  rw [Ext4Fs.ext4LoadMeta,Scan.eval_bind,Scan.eval_require,if_pos (by decide),Option.bind_some,
    Scan.eval_bind,hoff,Option.bind_some]
  rfl

lemma unmounted_rawView (v : Buf) : (unmounted v).rawView=v := by
  funext b
  have hn : (unmounted v).cache.lineOf (b/sectorSize)=none := by
    refine List.find?_eq_none.2 fun i _ h => ?_
    exact absurd (holds_iff.1 h).1 (by simp [unmounted,fresh,freshCache])
  rw [rawView,flat_of_none hn]
  simp only [BlockCache.disk,deviceLba,unmounted,fresh,freshCache,Sector.at,Nat.zero_add,Fin.ofNat]
  rw [Nat.div_add_mod']

lemma unmounted_placed (v : Buf) : (unmounted v).Placed freshGeometry :=
  (fresh_placed (fun l i => v (l*sectorSize+i.val)) 0 0).of_parts rfl rfl rfl

end FuriOS
