import FuriOS.BlockCacheFlat
import FuriOS.Lib.Bytes

/-! The global state of `kernel/ext4.c`: the mounted file system, the JBD2 engine and the
fallback log, over the block cache. Arrays with a count are lists; a slot below its count always
has its `used` mark set, so the mark is not kept. -/
namespace FuriOS

abbrev sectorSize : ℕ := 512

/-- The bytes of one disk sector. -/
abbrev Sector := Fin sectorSize → UInt8

/-- The byte at an offset that is taken modulo the sector size. -/
def Sector.at (s : Sector) (b : ℕ) : UInt8 := s (Fin.ofNat sectorSize b)

def ext4SuperOffset : ℕ := 1024
def ext4SuperSize : ℕ := 1024

/-- The cached part of an inode record. -/
structure Ext4Meta where
  valid : Bool
  ino : ℕ
  mode : ℕ
  links : ℕ
  flags : ℕ
  blocksLo : ℕ
  size : ℕ
  block : Fin 15 → ℕ

def Ext4Meta.zero : Ext4Meta := ⟨false,0,0,0,0,0,0,fun _ => 0⟩

structure Ext4Fs where
  mounted : Bool
  writeEnabled : Bool
  hasFiletype : Bool
  has64bit : Bool
  featureCompat : ℕ
  featureIncompat : ℕ
  featureRoCompat : ℕ
  blockSize : ℕ
  inodesCount : ℕ
  firstIno : ℕ
  inodeSize : ℕ
  inodesPerGroup : ℕ
  blocksPerGroup : ℕ
  descSize : ℕ
  firstDataBlock : ℕ
  blocksCount : ℕ
  freeBlocksCount : ℕ
  freeInodesCount : ℕ
  groupsCount : ℕ
  sourceDevKind : DevKind
  sourceLbaStart : ℕ
  sourceLbaCount : ℕ
  rootMeta : Ext4Meta

structure JlogRec where
  byteOff : ℕ
  len : ℕ
  dataOff : ℕ

/-- The FUJ1 log kept behind the file system when there is no JBD2 journal. -/
structure Ext4Journal where
  enabled : Bool
  txActive : Bool
  replaying : Bool
  seq : ℕ
  baseOff : ℕ
  areaBytes : ℕ
  recs : List JlogRec
  dataBytes : ℕ
  data : Buf

/-- A block image held in memory. -/
structure Jbd2Dirty where
  fsBlock : ℕ
  data : Buf

/-- A committed transaction that has not been checkpointed. -/
structure Jbd2Pending where
  seq : ℕ
  start : ℕ
  end_ : ℕ
  dirty : List Jbd2Dirty

structure Jbd2State where
  enabled : Bool
  writeReady : Bool
  txActive : Bool
  ioBypass : Bool
  feat64bit : Bool
  csumV2 : Bool
  csumV3 : Bool
  blockSize : ℕ
  maxlen : ℕ
  first : ℕ
  sequence : ℕ
  start : ℕ
  head : ℕ
  tail : ℕ
  featureIncompat : ℕ
  csumSeed : ℕ
  lastCheckpointTick : ℕ
  journalMeta : Ext4Meta
  txDirty : List Jbd2Dirty
  txRevokes : List ℕ
  txRevokeOverflow : Bool
  txEnospc : Bool
  pending : List Jbd2Pending

/-- All the state the file system code works on. `clock` gives the values that successive calls
of `timer_ticks` return. -/
structure World where
  cache : BlockCache Sector
  ext4 : Ext4Fs
  jbd2 : Jbd2State
  journal : Ext4Journal
  errno : ℕ
  clock : ℕ → ℕ
  tick : ℕ

namespace World

def withCache (w : World) (c : BlockCache Sector) : World := {w with cache := c}

@[simp] lemma withCache_cache (w : World) (c : BlockCache Sector) : (w.withCache c).cache=c := rfl
@[simp] lemma withCache_ext4 (w : World) (c : BlockCache Sector) : (w.withCache c).ext4=w.ext4 := rfl
@[simp] lemma withCache_jbd2 (w : World) (c : BlockCache Sector) : (w.withCache c).jbd2=w.jbd2 := rfl
@[simp] lemma withCache_journal (w : World) (c : BlockCache Sector) :
    (w.withCache c).journal=w.journal := rfl
@[simp] lemma withCache_withCache (w : World) (c c' : BlockCache Sector) :
    (w.withCache c).withCache c'=w.withCache c' := rfl

/-- The device as the block cache is attached to it. -/
def sourceInode (w : World) : DevInode :=
  ⟨true,w.ext4.sourceDevKind,w.ext4.sourceLbaStart,w.ext4.sourceLbaCount⟩

/-- Contents of the volume below the journal overlays, byte by byte. -/
def rawView (w : World) : Buf := fun b => (w.cache.flat (b/sectorSize)).at b

end World

abbrev Ext4M := Prog World

def cached {α : Type} (p : Prog (BlockCache Sector) α) : Ext4M α :=
  .zoom World.cache (fun c w => w.withCache c) p

def timerTicks : Ext4M ℕ := ⟨fun w => (some (w.clock w.tick),{w with tick := w.tick+1})⟩

end FuriOS
