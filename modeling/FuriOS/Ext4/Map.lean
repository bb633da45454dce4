import FuriOS.Ext4.DiskView
import FuriOS.Lib.Scan

/-! Group descriptors, inode records and the block maps of files, as far as they are read. -/
namespace FuriOS

def ext4NdirBlocks : ℕ := 12
def ext4ExtentsFl : ℕ := 0x00080000
def ext4ExtMagic : ℕ := 0xF30A
def ext4BgInodeTableLo : ℕ := 0x08
def ext4BgInodeTableHi : ℕ := 0x28

/-- A scan run through `ext4_disk_read_bytes`. -/
def disk {α : Type} (s : Scan α) : Ext4M α := s.exec ext4DiskReadBytes

namespace Ext4Fs

/-- `ext4_read_block`, for code that only reads. -/
def readBlock (fs : Ext4Fs) (blockNo : ℕ) : Scan Buf := .read (blockNo*fs.blockSize) fs.blockSize .done

def ext4GroupDescOffset (fs : Ext4Fs) (group : ℕ) : ℕ :=
  (if fs.blockSize=1024 then 2 else 1)*fs.blockSize+group*fs.descSize

/-- The test that reads and writes of a descriptor share. -/
def descOk (fs : Ext4Fs) (group : ℕ) : Bool :=
  decide (group<fs.groupsCount) && decide (32≤fs.descSize) && decide (fs.descSize≤fs.blockSize)

def ext4GroupReadDesc (fs : Ext4Fs) (group : ℕ) : Scan Buf := do
  .require (fs.descOk group)
  .read (fs.ext4GroupDescOffset group) fs.descSize .done

/-- Whether the descriptors have the upper halves of their fields. -/
def wideDesc (fs : Ext4Fs) : Bool := fs.has64bit && decide (64≤fs.descSize)

def ext4GroupGetBlockRef (fs : Ext4Fs) (gd : Buf) (loOff hiOff : ℕ) : ℕ :=
  gd.rdLe32 loOff+(if fs.wideDesc then gd.rdLe32 hiOff*2^32 else 0)

def ext4InodeOffset (fs : Ext4Fs) (ino : ℕ) : Scan ℕ := do
  .require (ino != 0 && decide (ino≤fs.inodesCount))
  let group := (ino-1)/fs.inodesPerGroup
  let index := (ino-1)%fs.inodesPerGroup
  let gd ← fs.ext4GroupReadDesc group
  let inodeTableBlock := fs.ext4GroupGetBlockRef gd ext4BgInodeTableLo ext4BgInodeTableHi
  .require (inodeTableBlock != 0)
  pure (inodeTableBlock*fs.blockSize+index*fs.inodeSize)

def metaOf (ino : ℕ) (raw : Buf) : Ext4Meta where
  valid := true
  ino := ino
  mode := raw.rdLe16 0x00
  links := raw.rdLe16 0x1A
  flags := raw.rdLe32 0x20
  blocksLo := raw.rdLe32 0x1C
  size := raw.rdLe32 0x04+raw.rdLe32 0x6C*2^32
  block i := raw.rdLe32 (0x28+i.val*4)

def ext4LoadMeta (fs : Ext4Fs) (ino : ℕ) : Scan Ext4Meta := do
  .require (ino != 0 && decide (ino≤fs.inodesCount))
  let off ← fs.ext4InodeOffset ino
  let raw ← Scan.read off (min fs.inodeSize 4096) .done
  pure (metaOf ino raw)

/-- One level of an indirect map: an absent block maps everything below it to zero. -/
def readPointer (fs : Ext4Fs) (block index : ℕ) (next : ℕ → Scan ℕ) : Scan ℕ :=
  if block=0 then pure 0 else do
    let blk ← fs.readBlock block
    next (blk.rdLe32 (index*4))

def ext4MapBlockDirect (fs : Ext4Fs) (m : Ext4Meta) (lblock : ℕ) : Scan ℕ :=
  if h : lblock<ext4NdirBlocks then pure (m.block ⟨lblock,Nat.lt_of_lt_of_le h (by decide)⟩) else
    let n := fs.blockSize/4
    let l := lblock-ext4NdirBlocks
    if n=0 then .stop
    else if l<n then fs.readPointer (m.block 12) l pure
    else
      let l := l-n
      if l<n*n then fs.readPointer (m.block 13) (l/n) fun ind => fs.readPointer ind (l%n) pure
      else
        let l := l-n*n
        if m.block 14=0 then pure 0
        else if n*n*n≤l then pure 0
        else
          let rem := l%(n*n)
          fs.readPointer (m.block 14) (l/(n*n)) fun dind =>
            fs.readPointer dind (rem/n) fun ind => fs.readPointer ind (rem%n) pure

end Ext4Fs

/-- The block words of an inode as the bytes of its root extent node. -/
def Ext4Meta.blockBytes (m : Ext4Meta) : Buf :=
  (List.finRange 15).foldl (fun b i => b.wrLe32 (i.val*4) (m.block i)) Buf.zero

/-- The extents of a leaf, from the one with index `i` on. A length with bit 15 set marks an
extent that is allocated but not written. -/
def extentLeafLoop (node : Buf) (lblock : ℕ) : ℕ → ℕ → ℕ
  | 0,_ => 0
  | n+1,i =>
    let o := 12+i*12
    let start := node.rdLe32 o
    let rawLen := node.rdLe16 (o+4)
    let len := rawLen%2^15
    if len=0 then extentLeafLoop node lblock n (i+1)
    else if lblock<start ∨ (start+len)%2^32≤lblock then extentLeafLoop node lblock n (i+1)
    else if 2^15≤rawLen then 0
    else node.rdLe16 (o+6)*2^32+node.rdLe32 (o+8)+(lblock-start)

/-- The last index entry, in their order, that starts at or below the block. -/
def extentIdxLoop (node : Buf) (lblock : ℕ) : ℕ → ℕ → Option ℕ → Option ℕ
  | 0,_,chosen => chosen
  | n+1,i,chosen =>
    if lblock<node.rdLe32 (12+i*12) then chosen else extentIdxLoop node lblock n (i+1) (some i)

/-- Node addresses have 48 bits: a search that goes on after this many nodes has met one of them
twice, and the loop of the source never ends. -/
def extentMapFuel : ℕ := 2^48+1

def extentMapLoop (fs : Ext4Fs) (lblock : ℕ) : ℕ → Buf → Scan ℕ
  | 0,_ => .stop
  | fuel+1,node => do
    let entries := node.rdLe16 2
    let max := node.rdLe16 4
    .require (node.rdLe16 0 == ext4ExtMagic)
    .require (decide (entries ≤ max))
    .require (max != 0 && decide (12+max*12≤fs.blockSize))
    if node.rdLe16 6=0 then pure (extentLeafLoop node lblock entries 0) else
      match extentIdxLoop node lblock entries 0 none with
      | none => pure 0
      | some i =>
        let leaf := node.rdLe16 (12+i*12+8)*2^32+node.rdLe32 (12+i*12+4)
        if leaf=0 then .stop else do
          let node ← fs.readBlock leaf
          extentMapLoop fs lblock fuel node

namespace Ext4Fs

def ext4ExtentMap (fs : Ext4Fs) (m : Ext4Meta) (lblock : ℕ) : Scan ℕ :=
  extentMapLoop fs lblock extentMapFuel m.blockBytes

def ext4MapFileBlock (fs : Ext4Fs) (m : Ext4Meta) (lblock : ℕ) : Scan ℕ :=
  if m.flags &&& ext4ExtentsFl≠0 then fs.ext4ExtentMap m lblock else fs.ext4MapBlockDirect m lblock

end Ext4Fs

open World

lemma wp_disk {α : Type} {w : World} (h : w.Online) (hcap : w.capBytes<2^64) (s : Scan α)
    (hin : ∀ r∈s.reads w.view, r.1+r.2≤w.capBytes) :
    (disk s).wp (fun a w' => Quiet w w' ∧ s.eval w.view=some a)
      (fun w' => Quiet w w' ∧ (s.eval w.view=none ∨ ¬ w.cache.WritesOk)) w := by
  refine Scan.wp_exec (P := Quiet w) s ?_ (Quiet.refl h)
  intro w1 h1 r hr
  refine Prog.wp_mono (wp_ext4DiskReadBytes (h1.online h) (by rw [h1.capBytes]; exact hcap) _ _) ?_ ?_
  · rintro b w2 ⟨h2,rfl,-⟩
    exact ⟨h1.trans h2,by rw [h1.view]⟩
  · rintro w2 ⟨h2,href⟩
    exact ⟨h1.trans h2,(h1.refused href).resolve_right (not_lt.2 (hin r hr))⟩

end FuriOS
