import FuriOS.Ext4.Commit

/-! Access to the blocks of the journal file and of the volume while the transaction layer is
out of the way, as it is in commits, checkpoints and recovery. -/
namespace FuriOS
open BlockCache World Prog

/-- Where the journal lies: its inode and length, the block of the volume that holds each of its
blocks, and the blocks of its block map. -/
structure Geometry where
  inode : Ext4Meta
  maxlen : ℕ
  jmap : ℕ → ℕ
  tree : ℕ → Prop

namespace Geometry
variable (G : Geometry)

def IsLog (b : ℕ) : Prop := ∃ l<G.maxlen, G.jmap l=b

/-- A block that is neither in the journal file nor in its block map. -/
def Home (b : ℕ) : Prop := ¬ G.tree b ∧ ¬ G.IsLog b

/-- The journal's blocks are distinct blocks of the volume, apart from the block map. -/
structure Layout (blocksCount : ℕ) : Prop where
  pos : ∀ l<G.maxlen, G.jmap l≠0
  bound : ∀ l<G.maxlen, G.jmap l<blocksCount
  inj : ∀ l<G.maxlen, ∀ l'<G.maxlen, G.jmap l=G.jmap l' → l=l'
  treeBound : ∀ b, G.tree b → b<blocksCount
  apart : ∀ b, G.tree b → ¬ G.IsLog b

/-- The block map, as it lies on the volume, places the journal's blocks. -/
structure Maps (fs : Ext4Fs) (v : Buf) : Prop where
  eval : ∀ l<G.maxlen, (fs.ext4MapFileBlock G.inode l).eval v=some (G.jmap l)
  reads : ∀ l<G.maxlen, ∀ r∈(fs.ext4MapFileBlock G.inode l).reads v,
    ∃ b, G.tree b ∧ r=(b*fs.blockSize,fs.blockSize)

variable {G}

lemma Maps.congr {fs : Ext4Fs} {v v' : Buf} (h : G.Maps fs v) (hb : 0<fs.blockSize)
    (hv : ∀ x, G.tree (x/fs.blockSize) → v' x=v x) : G.Maps fs v' := by
  have key : ∀ l<G.maxlen, ∀ r∈(fs.ext4MapFileBlock G.inode l).reads v, Buf.Agree v v' r.1 r.2 := by
    intro l hl r hr x h1 h2
    obtain ⟨b,hb',rfl⟩ := h.reads l hl r hr
    rw [hv x (by rwa [(div_eq_iff_block hb).2 ⟨h1,h2⟩])]
  constructor
  · intro l hl
    rw [(Scan.eval_congr _ (key l hl)).1]
    exact h.eval l hl
  · intro l hl
    rw [(Scan.eval_congr _ (key l hl)).2]
    exact h.reads l hl

end Geometry

namespace World

/-- A volume with a journal, as far as it lies on the device. -/
structure Placed (G : Geometry) (w : World) : Prop where
  online : w.Online
  cap : w.capBytes<2^64
  noJlog : w.journal.enabled=false
  blockSize : w.ext4.blockSize=1024 ∨ w.ext4.blockSize=2048 ∨ w.ext4.blockSize=4096
  fits : w.ext4.blocksCount*w.ext4.blockSize≤w.capBytes
  layout : G.Layout w.ext4.blocksCount
  maps : G.Maps w.ext4 w.rawView

/-- Reads show the raw contents and writes go there. -/
def Direct (w : World) : Prop := w.jbd2.enabled=false ∨ w.jbd2.ioBypass=true ∨
  (w.jbd2.txActive=false ∧ w.jbd2.pending=[])

/-- Only the cache moved, and only the blocks in `B` got new contents. -/
def BlocksPut (B : ℕ → Prop) (w w' : World) : Prop := ∃ c, w'=w.withCache c ∧
  Moves (fun l s => s=c.flat l ∧ B (l*sectorSize/w.ext4.blockSize)) w.cache c ∧
  ∀ x, ¬ B (x/w.ext4.blockSize) → w'.rawView x=w.rawView x

variable {G : Geometry} {w w' w'' : World} {B B' : ℕ → Prop}

lemma Placed.block_pos (h : w.Placed G) : 0<w.ext4.blockSize := by
  rcases h.blockSize with h | h | h <;> omega

lemma Placed.of_parts (h : w.Placed G) (hc : w'.cache=w.cache) (he : w'.ext4=w.ext4)
    (hj : w'.journal=w.journal) : w'.Placed G := by
  obtain ⟨⟨h1,h2,h3⟩,h4,h5,h6,h7,h8,h9⟩ := h
  unfold sourceInode at h3
  unfold capBytes at h4 h7
  unfold rawView at h9
  rw [← hc] at h1 h2 h3 h4 h7 h9
  rw [← he] at h3 h6 h7 h8 h9
  exact ⟨⟨h1,h2,h3⟩,h4,by rw [hj]; exact h5,h6,h7,h8,h9⟩

lemma Placed.sectors (h : w.Placed G) : sectorSize ∣ w.ext4.blockSize := by
  rcases h.blockSize with h | h | h <;> rw [h] <;> decide

lemma Direct.view (h : w.Direct) (hj : w.journal.enabled=false) : w.view=w.rawView := by
  rcases h with h | h | ⟨h,hp⟩
  · simp [World.view,h,hj]
  · simp [World.view,h,hj]
  · simp [World.view,h,hj,baseView,pendingImages,hp]

lemma Quiet.direct (h : Quiet w w') (hd : w.Direct) : w'.Direct := by
  simpa [Direct,h.jbd2] using hd

lemma Quiet.blocksPut (h : Quiet w w') (B : ℕ → Prop) : BlocksPut B w w' := by
  have hv := h.rawView
  obtain ⟨c,rfl,hc⟩ := h
  exact ⟨c,rfl,hc.1.weaken fun _ _ h => h.elim,fun x _ => by rw [hv]⟩

section
variable (h : BlocksPut B w w')
include h

lemma BlocksPut.jbd2 : w'.jbd2=w.jbd2 := by
  obtain ⟨c,rfl,-⟩ := h
  rfl

lemma BlocksPut.ext4 : w'.ext4=w.ext4 := by
  obtain ⟨c,rfl,-⟩ := h
  rfl

lemma BlocksPut.journal : w'.journal=w.journal := by
  obtain ⟨c,rfl,-⟩ := h
  rfl

lemma BlocksPut.capBytes : w'.capBytes=w.capBytes := by
  obtain ⟨c,rfl,hc,-⟩ := h
  simp only [World.capBytes,withCache_cache,hc.setup.count]

lemma BlocksPut.online (ho : w.Online) : w'.Online := by
  obtain ⟨c,rfl,hc,-⟩ := h
  exact ho.withCache hc.attached hc.setup

lemma BlocksPut.other {x : ℕ} (hx : ¬ B (x/w.ext4.blockSize)) : w'.rawView x=w.rawView x := by
  obtain ⟨c,rfl,-,hv⟩ := h
  exact hv x hx

lemma BlocksPut.direct (hd : w.Direct) : w'.Direct := by
  simpa [Direct,h.jbd2] using hd

lemma BlocksPut.writesOk (hw : w.cache.WritesOk) : w'.cache.WritesOk := by
  obtain ⟨c,rfl,hc,-⟩ := h
  exact hc.setup.writesOk hw

end

lemma Quiet.writesOk (h : Quiet w w') (hw : w.cache.WritesOk) : w'.cache.WritesOk :=
  (h.blocksPut fun _ => False).writesOk hw

lemma BlocksPut.placed (h : BlocksPut B w w') (hp : w.Placed G) (hB : ∀ b, B b → ¬ G.tree b) :
    w'.Placed G where
  online := h.online hp.online
  cap := by rw [h.capBytes]; exact hp.cap
  noJlog := by rw [h.journal]; exact hp.noJlog
  blockSize := by rw [h.ext4]; exact hp.blockSize
  fits := by rw [h.ext4,h.capBytes]; exact hp.fits
  layout := by rw [h.ext4]; exact hp.layout
  maps := by
    rw [h.ext4]
    refine hp.maps.congr hp.block_pos ?_
    intro x hx
    exact h.other fun hb => hB _ hb hx

lemma Quiet.placed (h : Quiet w w') (hp : w.Placed G) : w'.Placed G :=
  (h.blocksPut fun _ => False).placed hp fun _ h => h.elim

lemma BlocksPut.weaken (h : BlocksPut B w w') (hB : ∀ b, B b → B' b) : BlocksPut B' w w' := by
  obtain ⟨c,rfl,hc,hv⟩ := h
  exact ⟨c,rfl,hc.weaken fun l s hs => ⟨hs.1,hB _ hs.2⟩,fun x hx => hv x fun h => hx (hB _ h)⟩

lemma Placed.sector_block (h : w.Placed G) {l x : ℕ} (hx : x/sectorSize=l) :
    x/w.ext4.blockSize=l*sectorSize/w.ext4.blockSize := by
  obtain ⟨k,hk⟩ := h.sectors
  have h1 : x/w.ext4.blockSize=l/k := by rw [hk,← Nat.div_div_eq_div_mul,hx]
  have h2 : l*sectorSize/w.ext4.blockSize=l/k := by
    rw [hk,Nat.mul_comm l,Nat.mul_div_mul_left _ _ (by decide)]
  rw [h1,h2]

lemma BlocksPut.trans (hp : w.Placed G) (h : BlocksPut B w w') (h' : BlocksPut B' w' w'')
    (hd : ∀ b, B b → ¬ B' b) : BlocksPut (fun b => B b ∨ B' b) w w'' := by
  have he := h.ext4
  have hv := fun x hx => h.other (x := x) hx
  have hv' := fun x hx => h'.other (x := x) hx
  obtain ⟨c,rfl,hc,-⟩ := h
  obtain ⟨c',rfl,hc',-⟩ := h'
  rw [he] at hc' hv'
  refine ⟨c',rfl,(hc.trans hc').weaken ?_,fun x hx => ?_⟩
  · rintro l s (⟨rfl,hB⟩ | ⟨rfl,hB⟩)
    · refine ⟨?_,.inl hB⟩
      refine (flat_congr (w := w.withCache c) (u := (w.withCache c).withCache c') ?_).symm
      intro x hx
      refine hv' x ?_
      rw [hp.sector_block hx]
      exact hd _ hB
    · exact ⟨rfl,.inr hB⟩
  · rw [hv' x fun h => hx (.inr h),hv x fun h => hx (.inl h)]

/-- `n` bytes of a block were written. -/
structure PutPart (b : ℕ) (buf : Buf) (n : ℕ) (w w' : World) : Prop where
  put : BlocksPut (· = b) w w'
  view : ∀ x, w'.rawView x=if x/w.ext4.blockSize=b ∧ x%w.ext4.blockSize<n
    then buf (x%w.ext4.blockSize) else w.rawView x

def PutBlock (b : ℕ) (buf : Buf) (w w' : World) : Prop := PutPart b buf w.ext4.blockSize w w'

lemma PutBlock.inside {b : ℕ} {buf : Buf} (h : PutBlock b buf w w') (hb : 0<w.ext4.blockSize) {x : ℕ}
    (hx : x/w.ext4.blockSize=b) : w'.rawView x=buf (x%w.ext4.blockSize) := by
  rw [h.view,if_pos ⟨hx,Nat.mod_lt x hb⟩]

end World

lemma Stored.putPart {G : Geometry} {w w' : World} {b n : ℕ} {buf : Buf} (hp : w.Placed G) (hn : n≤w.ext4.blockSize)
    (h : Stored (b*w.ext4.blockSize) buf 0 n w w') : PutPart b buf n w w' := by
  have hbs := hp.block_pos
  have hmod : b*w.ext4.blockSize%w.ext4.blockSize=0 := Nat.mul_mod_left b _
  have hdiv : b*w.ext4.blockSize/w.ext4.blockSize=b := Nat.mul_div_cancel b hbs
  have hrange : ∀ x, b*w.ext4.blockSize≤x ∧ x<b*w.ext4.blockSize+n ↔
      x/w.ext4.blockSize=b ∧ x%w.ext4.blockSize<n := by
    intro x
    rw [chunk_iff hbs (by rw [hmod]; omega),hmod,hdiv]
    simp
  have hview : ∀ x, w'.rawView x=if x/w.ext4.blockSize=b ∧ x%w.ext4.blockSize<n
      then buf (x%w.ext4.blockSize) else w.rawView x := by
    intro x
    rw [h.view,Buf.copy]
    by_cases hx : x/w.ext4.blockSize=b ∧ x%w.ext4.blockSize<n
    · rw [if_pos ((hrange x).2 hx),if_pos hx,sub_eq_mod_sub (hx.1.trans hdiv.symm),hmod]
      simp
    · rw [if_neg fun h => hx ((hrange x).1 h),if_neg hx]
  refine ⟨?_,hview⟩
  obtain ⟨c,rfl,hc⟩ := h.wrote
  refine ⟨c,rfl,hc.weaken ?_,fun x hx => by rw [hview x,if_neg fun h => hx h.1]⟩
  rintro l s ⟨rfl,x,h1,h2,rfl⟩
  refine ⟨rfl,?_⟩
  rw [← hp.sector_block rfl]
  exact ((hrange x).1 ⟨h1,h2⟩).1

section Direct
variable {G : Geometry} {w : World}

section
variable (hp : w.Placed G)
include hp

lemma wp_disk_direct {α : Type} (hd : w.Direct) (s : Scan α)
    (hin : ∀ r∈s.reads w.rawView, r.1+r.2≤w.capBytes) :
    (disk s).wp (fun a w' => Quiet w w' ∧ s.eval w.rawView=some a)
      (fun w' => Quiet w w' ∧ (s.eval w.rawView=none ∨ ¬ w.cache.WritesOk)) w := by
  have hv := hd.view hp.noJlog
  have := wp_disk hp.online hp.cap s (by rwa [hv])
  rwa [hv] at this

lemma World.Placed.block_in_cap {b : ℕ} (hb : b<w.ext4.blocksCount) :
    b*w.ext4.blockSize+w.ext4.blockSize≤w.capBytes := by
  have h : (b+1)*w.ext4.blockSize≤w.ext4.blocksCount*w.ext4.blockSize :=
    Nat.mul_le_mul_right _ hb
  rw [Nat.add_mul,Nat.one_mul] at h
  exact h.trans hp.fits

section
variable (hd : w.Direct)
include hd

lemma wp_mapJournal {l : ℕ} (hl : l<G.maxlen) :
    (disk (w.ext4.ext4MapFileBlock G.inode l)).wp
      (fun p w' => Quiet w w' ∧ p=G.jmap l) (fun w' => Quiet w w' ∧ ¬ w.cache.WritesOk) w := by
  have heval := hp.maps.eval l hl
  refine wp_mono (wp_disk_direct hp hd _ ?_) ?_ ?_
  · intro r hr
    obtain ⟨b,hb,rfl⟩ := hp.maps.reads l hl r hr
    exact hp.block_in_cap (hp.layout.treeBound b hb)
  · rintro p w' ⟨hq,he⟩
    rw [heval] at he
    exact ⟨hq,(Option.some.inj he).symm⟩
  · rintro w' ⟨hq,he⟩
    rw [heval] at he
    exact ⟨hq,he.resolve_left (by simp)⟩

lemma wp_ext4ReadBlock_direct {b : ℕ} (hb : b<w.ext4.blocksCount) :
    (ext4ReadBlock b).wp
      (fun d w' => Quiet w w' ∧ d=w.rawView.slice (b*w.ext4.blockSize) w.ext4.blockSize)
      (fun w' => Quiet w w' ∧ ¬ w.cache.WritesOk) w := by
  simp only [ext4ReadBlock,wp_bind,wp_gets]
  refine wp_mono (wp_ext4DiskReadBytes hp.online hp.cap _ _) ?_ ?_
  · rintro d w' ⟨hq,rfl,-⟩
    exact ⟨hq,by rw [hd.view hp.noJlog]⟩
  · rintro w' ⟨hq,href⟩
    exact ⟨hq,href.resolve_right (not_lt.2 (hp.block_in_cap hb))⟩

lemma wp_ext4DiskWriteBytes_direct {off len : ℕ}
    (hin : off+len≤w.capBytes) (src : Buf) :
    (ext4DiskWriteBytes off src len).wp (fun _ w' => Stored off src 0 len w w')
      (fun w' => ¬ w.cache.WritesOk ∧
        ∃ n<len, (n=0 ∨ (off+n)%sectorSize=0) ∧ Stored off src 0 n w w') w := by
  have hcond : (w.jbd2.enabled && w.jbd2.txActive && !w.jbd2.ioBypass)=false := by
    rcases hd with h | h | ⟨h,-⟩ <;> simp [h]
  simp only [ext4DiskWriteBytes,wp_bind,wp_gets,id,hcond,Bool.false_eq_true,if_false,
    hp.noJlog,Bool.not_false,Bool.true_or,if_true]
  refine wp_mono (wp_ext4RawWriteBytes hp.online off src len) (fun _ _ h => h) ?_
  rintro w' ⟨href,h⟩
  exact ⟨href.resolve_right (not_lt.2 hin),h⟩

lemma wp_ext4WriteBlock_direct {b : ℕ} (hb : b<w.ext4.blocksCount) (buf : Buf) :
    (ext4WriteBlock b buf).wp (fun _ w' => PutBlock b buf w w') (fun w' => ¬ w.cache.WritesOk ∧
        ∃ n<w.ext4.blockSize, n%sectorSize=0 ∧ PutPart b buf n w w') w := by
  simp only [ext4WriteBlock,wp_bind,wp_gets]
  refine wp_mono (wp_ext4DiskWriteBytes_direct hp hd (hp.block_in_cap hb) buf) ?_ ?_
  · intro _ w' h
    exact h.putPart hp le_rfl
  · rintro w' ⟨hw,n,hn,hbd,h⟩
    refine ⟨hw,n,hn,?_,h.putPart hp hn.le⟩
    rcases hbd with rfl | hbd
    · rfl
    · obtain ⟨k,hk⟩ := hp.sectors
      have : b*w.ext4.blockSize%sectorSize=0 := by
        rw [hk,Nat.mul_left_comm]
        exact Nat.mul_mod_right _ _
      rw [Nat.add_mod,this,Nat.zero_add,Nat.mod_mod] at hbd
      exact hbd

lemma wp_ext4Jbd2ReadJblock {l : ℕ} (hl : l<G.maxlen) :
    (ext4Jbd2ReadJblock G.inode l).wp
      (fun d w' => Quiet w w' ∧ d=w.rawView.slice (G.jmap l*w.ext4.blockSize) w.ext4.blockSize)
      (fun w' => Quiet w w' ∧ ¬ w.cache.WritesOk) w := by
  simp only [ext4Jbd2ReadJblock,wp_bind,wp_gets]
  refine wp_imp (wp_mapJournal hp hd hl) ?_
  rintro p w1 ⟨h1,rfl⟩
  rw [show (G.jmap l != 0)=true by simpa using hp.layout.pos l hl,wp_require_true]
  refine wp_mono (wp_ext4ReadBlock_direct (h1.placed hp) (h1.direct hd)
    (by rw [h1.ext4]; exact hp.layout.bound l hl)) ?_ ?_
  · rintro d w2 ⟨h2,rfl⟩
    exact ⟨h1.trans h2,by rw [h1.rawView,h1.ext4]⟩
  · rintro w2 ⟨h2,hw⟩
    exact ⟨h1.trans h2,fun h => hw (h1.writesOk h)⟩

end

lemma World.PutPart.of_quiet {w1 w2 : World} {b n : ℕ} {buf : Buf}
    (h1 : Quiet w w1) (h2 : PutPart b buf n w1 w2) : PutPart b buf n w w2 := by
  refine ⟨?_,fun x => by rw [h2.view,h1.ext4,h1.rawView]⟩
  refine ((h1.blocksPut fun _ => False).trans hp h2.put fun _ h => h.elim).weaken ?_
  exact fun _ h => h.elim False.elim id

lemma wp_ext4Jbd2WriteJblock (hd : w.Direct) {l : ℕ} (hl : l<G.maxlen) (buf : Buf) :
    (ext4Jbd2WriteJblock G.inode l buf).wp (fun _ w' => PutBlock (G.jmap l) buf w w')
      (fun w' => ¬ w.cache.WritesOk ∧
        ∃ n<w.ext4.blockSize, n%sectorSize=0 ∧ PutPart (G.jmap l) buf n w w') w := by
  simp only [ext4Jbd2WriteJblock,wp_bind,wp_gets]
  refine wp_mono (wp_mapJournal hp hd hl) ?_ ?_
  · rintro p w1 ⟨h1,rfl⟩
    rw [show (G.jmap l != 0)=true by simpa using hp.layout.pos l hl,wp_require_true]
    refine wp_mono (wp_ext4WriteBlock_direct (h1.placed hp) (h1.direct hd)
      (by rw [h1.ext4]; exact hp.layout.bound l hl) buf) ?_ ?_
    · intro _ w2 h2
      rw [PutBlock,h1.ext4] at h2
      exact h2.of_quiet hp h1
    · rintro w2 ⟨hw,n,hn,hm,h2⟩
      rw [h1.ext4] at hn
      exact ⟨fun h => hw (h1.writesOk h),n,hn,hm,h2.of_quiet hp h1⟩
  · rintro w1 ⟨h1,hw⟩
    refine ⟨hw,0,hp.block_pos,rfl,h1.blocksPut _,fun x => ?_⟩
    rw [h1.rawView,if_neg (by omega)]

end

/-- Nothing is dirty: the device holds what the volume shows. -/
def World.Clean (w : World) : Prop := ∀ l, ¬ w.cache.DirtyAt l

lemma wp_flushCache (ho : w.Online) : flushCache.wp (fun _ w' => Quiet w w' ∧ w'.Clean)
      (fun w' => Quiet w w' ∧ ¬ w.cache.WritesOk) w := by
  rw [flushCache,cached,wp_zoom]
  refine wp_mono (wp_blockCacheFlush ho.attached) ?_ ?_
  · rintro _ c ⟨hc,hclean,-⟩
    exact ⟨⟨c,rfl,hc⟩,hclean⟩
  · rintro c ⟨hc,hw,-⟩
    exact ⟨⟨c,rfl,hc⟩,hw⟩

end Direct

end FuriOS
