import FuriOS.Ext4.State

/-! Byte access to the volume through single cached sectors, below the journal overlays. -/
namespace FuriOS
open BlockCache Prog Function

def ext4AttachSourceDev : Ext4M Unit := do
  let w ← .gets id
  .require (w.ext4.sourceDevKind != .none && w.ext4.sourceLbaCount != 0)
  cached (blockCacheAttachInode w.sourceInode)

/-- Each round moves to the end of a sector or of the range, so `len` rounds are enough. -/
def rawReadLoop : ℕ → ℕ → ℕ → ℕ → Buf → Ext4M Buf
  | 0,_,_,_,buf => pure buf
  | fuel+1,byteOff,dst,len,buf =>
    if len=0 then pure buf else do
      let lba := byteOff / sectorSize
      let secOff := byteOff % sectorSize
      let chunk := min (sectorSize-secOff) len
      let secs ← cached (blockCacheRead lba 1)
      let sec := secs.headD fun _ => 0
      rawReadLoop fuel (byteOff+chunk) (dst+chunk) (len-chunk) (buf.copy dst sec.at secOff chunk)

def ext4RawReadBytes (byteOff len : ℕ) : Ext4M Buf := do
  ext4AttachSourceDev
  rawReadLoop len byteOff 0 len Buf.zero

/-- The sector with `n` bytes of `src`, from `from_` on, copied to `off`. -/
def Sector.put (s : Sector) (off : ℕ) (src : Buf) (from_ n : ℕ) : Sector := fun i =>
  if off ≤ i.val ∧ i.val<off+n then src (from_+(i.val-off)) else s i

def rawWriteLoop (buf : Buf) : ℕ → ℕ → ℕ → ℕ → Ext4M Unit
  | 0,_,_,_ => pure ()
  | fuel+1,byteOff,src,len =>
    if len=0 then pure () else do
      let lba := byteOff / sectorSize
      let secOff := byteOff % sectorSize
      let chunk := min (sectorSize-secOff) len
      let secs ← cached (blockCacheRead lba 1)
      let sec := secs.headD fun _ => 0
      cached (blockCacheWrite lba [sec.put secOff buf src chunk])
      rawWriteLoop buf fuel (byteOff+chunk) (src+chunk) (len-chunk)

def ext4RawWriteBytes (byteOff : ℕ) (buf : Buf) (len : ℕ) : Ext4M Unit := do
  ext4AttachSourceDev
  rawWriteLoop buf len byteOff 0 len

namespace World

variable {c : BlockCache Sector} {off len : ℕ}

/-- The block cache is attached to the volume's device, whose reads do not fail. -/
structure Online (w : World) : Prop where
  attached : w.cache.Attached
  reads : w.cache.ReadsOk
  same : w.cache.attachedTo w.sourceInode=true

def capBytes (w : World) : ℕ := w.cache.activeLbaCount*sectorSize

/-- A request was refused: a write-back failed, or the range `off+len` leaves the partition. -/
def Refused (w : World) (off len : ℕ) : Prop := ¬ w.cache.WritesOk ∨ w.capBytes<off+len

/-- The sectors of a byte range with the contents `f`. -/
def Touched (off len : ℕ) (f : ℕ → Sector) : ℕ → Sector → Prop := fun l s =>
  s=f l ∧ ∃ b, off≤b ∧ b<off+len ∧ l=b/sectorSize

/-- Only the cache moved, and the volume kept its contents. -/
def Quiet (w w' : World) : Prop := ∃ c, w'=w.withCache c ∧ Calm w.cache c

/-- Only the cache moved, and `len` bytes from `off` on got new contents. -/
def Wrote (off len : ℕ) (w w' : World) : Prop :=
  ∃ c, w'=w.withCache c ∧ Moves (Touched off len c.flat) w.cache c

variable {w w' w'' : World}

lemma Quiet.refl (h : w.Online) : Quiet w w :=
  ⟨w.cache,rfl,(SameView.refl w.cache).calm h.attached⟩

lemma Quiet.trans (h : Quiet w w') (h' : Quiet w' w'') : Quiet w w'' := by
  obtain ⟨c,rfl,hc⟩ := h
  obtain ⟨c',rfl,hc'⟩ := h'
  exact ⟨c',rfl,hc.trans hc'⟩

lemma Online.kind (h : w.Online) : w.ext4.sourceDevKind=w.cache.activeDevKind := by
  have := h.same
  simp only [attachedTo,sourceInode,Bool.and_eq_true,beq_iff_eq] at this
  exact this.1.1.2.symm

lemma Online.count (h : w.Online) : w.ext4.sourceLbaCount=w.cache.activeLbaCount := by
  have := h.same
  simp only [attachedTo,sourceInode,Bool.and_eq_true,beq_iff_eq] at this
  exact this.2.symm

lemma Online.withCache (h : w.Online) (ha : c.Attached)
    (hs : SameSetup w.cache c) : (w.withCache c).Online where
  attached := ha
  reads := hs.readsOk h.reads
  same := by
    have := h.same
    simp only [attachedTo,sourceInode,withCache_cache,withCache_ext4] at this ⊢
    rwa [hs.readyFlag,hs.kind,hs.base,hs.count]

lemma Quiet.online (h : Quiet w w') (ho : w.Online) : w'.Online := by
  obtain ⟨c,rfl,hc⟩ := h
  exact ho.withCache hc.attached hc.setup

lemma rawView_congr (h : w'.cache.flat=w.cache.flat) : w'.rawView=w.rawView := by
  funext b
  simp only [World.rawView,h]

lemma Quiet.rawView (h : Quiet w w') : w'.rawView=w.rawView := by
  obtain ⟨c,rfl,hc⟩ := h
  exact rawView_congr hc.2

lemma Refused.of_setup (hs : SameSetup w.cache c)
    (h : (w.withCache c).Refused off len) : w.Refused off len := by
  refine h.imp (fun hn hw => hn (hs.writesOk hw)) ?_
  simp only [capBytes,withCache_cache,hs.count]
  exact id

lemma Quiet.refused (h : Quiet w w') (hr : w'.Refused off len) :
    w.Refused off len := by
  obtain ⟨c,rfl,hc⟩ := h
  exact hr.of_setup hc.setup

lemma Wrote.online (h : Wrote off len w w') (ho : w.Online) : w'.Online := by
  obtain ⟨c,rfl,hc⟩ := h
  exact ho.withCache hc.attached hc.setup

lemma Quiet.wrote (h : Quiet w w') (off len : ℕ) : Wrote off len w w' := by
  obtain ⟨c,rfl,hc⟩ := h
  exact ⟨c,rfl,hc.1.weaken fun _ _ h => h.elim⟩

lemma flat_eq_rawView (w : World) (l : ℕ) :
    w.cache.flat l=fun i => w.rawView (l*sectorSize+i.val) := by
  funext i
  have hi := i.isLt
  simp only [rawView,Sector.at,sectorSize] at hi ⊢
  have h1 : (l*512+i.val)/512=l := by omega
  have h2 : Fin.ofNat 512 (l*512+i.val)=i := Fin.ext (by simp [Fin.ofNat])
  rw [h1,h2]

lemma flat_congr {u : World} {l : ℕ}
    (h : ∀ b, b/sectorSize=l → u.rawView b=w.rawView b) : u.cache.flat l=w.cache.flat l := by
  rw [flat_eq_rawView,flat_eq_rawView]
  funext i
  have hi := i.isLt
  exact h _ (by simp only [sectorSize] at hi ⊢; omega)

end World

open World

variable {w : World} {off n a : ℕ} {src : Buf}

lemma wp_ext4AttachSourceDev (h : w.Online) {Q : Unit → World → Prop} {E : World → Prop}
    (hq : Q () w) : ext4AttachSourceDev.wp Q E w := by
  have hr := h.attached.ready
  simp only [blockCacheReady,Bool.and_eq_true,bne_iff_ne,ne_eq] at hr
  have hready : w.cache.backendReady w.ext4.sourceDevKind=true := by rw [h.kind]; exact hr.1.2
  have hk : (w.ext4.sourceDevKind != DevKind.none)=true := by
    rw [h.kind]; simpa using hr.1.1.2
  have hc : (w.ext4.sourceLbaCount != 0)=true := by rw [h.count]; simpa using hr.2
  have hsame := h.same
  simp only [ext4AttachSourceDev,wp_bind,wp_gets,id,hk,hc,Bool.and_self,
    wp_require_true,cached,wp_zoom,blockCacheAttachInode,sourceInode,hready] at hsame ⊢
  rw [hsame]
  exact hq

lemma wp_readSector (h : w.Online) (lba : ℕ) : (cached (blockCacheRead lba 1)).wp
      (fun ss w' => Quiet w w' ∧ ss=[w.cache.flat lba] ∧ lba<w.cache.activeLbaCount)
      (fun w' => Quiet w w' ∧ w.Refused (lba*sectorSize) sectorSize) w := by
  rw [cached,wp_zoom]
  by_cases hl : lba<w.cache.activeLbaCount
  · refine wp_mono (wp_blockCacheRead h.attached
      (h.reads.safeReads h.attached 1 (by omega)) (by omega) (by omega)) ?_ ?_
    · rintro ss c ⟨hc,rfl⟩
      exact ⟨⟨c,rfl,hc⟩,by simp,hl⟩
    · rintro c ⟨hc,hw⟩
      exact ⟨⟨c,rfl,hc⟩,.inl fun h' => hw h.reads h'.sectorsOk⟩
  · have hr : w.cache.inRange lba 1=false := by simp [inRange]; omega
    simp only [blockCacheRead,wp_bind,wp_gets,hr,wp_require_false]
    refine ⟨Quiet.refl h,.inr ?_⟩
    simp only [capBytes,sectorSize]
    omega

lemma wp_writeSector (h : w.Online) {lba : ℕ} (hl : lba<w.cache.activeLbaCount) (s : Sector) :
    (cached (blockCacheWrite lba [s])).wp
      (fun _ w' => ∃ c, w'=w.withCache c ∧ Moves (OneWrite lba s) w.cache c ∧
        c.flat=update w.cache.flat lba s)
      (fun w' => Quiet w w' ∧ ¬ w.cache.WritesOk) w := by
  rw [cached,wp_zoom]
  refine wp_mono (wp_blockCacheWrite h.attached
    (h.reads.safeWrites h.attached [s] (by simp; omega)) (by simp) (by simp; omega)) ?_ ?_
  · rintro _ c ⟨hc,hf⟩
    refine ⟨c,rfl,hc.weaken ?_,hf⟩
    rintro l d ⟨j,rfl,hj⟩
    cases j with
    | zero => exact ⟨rfl,by simpa using hj.symm⟩
    | succ j => simp at hj
  · rintro c ⟨hw,k,hk,hc,hf⟩
    obtain rfl : k=0 := by simpa using hk
    refine ⟨⟨c,rfl,hc.weaken ?_,hf⟩,fun h' => hw h.reads h'.sectorsOk⟩
    rintro l d ⟨j,-,hj⟩
    simp at hj

lemma chunk_bounds {len : ℕ} (hl : len≠0) :
    0 < min (sectorSize-off%sectorSize) len ∧ min (sectorSize-off%sectorSize) len≤len ∧
    off%sectorSize+min (sectorSize-off%sectorSize) len ≤ sectorSize := by
  have := Nat.mod_lt off (show 0<sectorSize by decide)
  omega

lemma wp_rawReadLoop (fuel : ℕ) (h : w.Online) (off dst len : ℕ) (buf : Buf) (hf : len≤fuel) :
    (rawReadLoop fuel off dst len buf).wp
      (fun b w' => Quiet w w' ∧ b=buf.copy dst w.rawView off len ∧ (len≠0 → off+len≤w.capBytes))
      (fun w' => Quiet w w' ∧ w.Refused off len) w := by
  induction fuel generalizing w off dst len buf with
  | zero =>
    obtain rfl : len=0 := by omega
    exact ⟨Quiet.refl h,(Buf.copy_zero _ _ _ _).symm,by simp⟩
  | succ fuel ih =>
    rw [rawReadLoop]
    by_cases hl : len=0
    · subst hl
      exact ⟨Quiet.refl h,(Buf.copy_zero _ _ _ _).symm,by simp⟩
    rw [if_neg hl]
    obtain ⟨hpos,hle,hsec⟩ := chunk_bounds hl
    set chunk := min (sectorSize-off%sectorSize) len
    simp only [wp_bind]
    refine wp_mono (wp_readSector h (off/sectorSize)) ?_ ?_
    · rintro ss w1 ⟨h1,rfl,hin⟩
      refine wp_mono (ih (h1.online h) (off+chunk) (dst+chunk) (len-chunk) _ (by omega)) ?_ ?_
      · rintro b w2 ⟨h2,rfl,hcap⟩
        refine ⟨h1.trans h2,?_,?_⟩
        · -- the bytes of the first sector are those of the volume
          have hfirst : buf.copy dst (w.cache.flat (off/sectorSize)).at (off%sectorSize) chunk =
              buf.copy dst w.rawView off chunk := by
            funext i
            simp only [Buf.copy]
            split_ifs with hi
            · simp only [rawView,Sector.at,sectorSize] at hsec ⊢
              have h1 : (off+(i-dst))/512=off/512 := by omega
              have h2 : Fin.ofNat 512 (off%512+(i-dst))=Fin.ofNat 512 (off+(i-dst)) :=
                Fin.ext (by simp [Fin.ofNat])
              rw [h1,h2]
            · rfl
          simp only [List.headD_cons]
          rw [hfirst,h1.rawView,Buf.copy_copy]
          congr 1
          omega
        · intro _
          by_cases hr : len-chunk=0
          · have hcl : chunk=len := by omega
            simp only [capBytes,sectorSize] at hin hsec ⊢
            omega
          · have := hcap hr
            obtain ⟨c,rfl,hc⟩ := h1
            simp only [capBytes,withCache_cache,hc.setup.count] at this ⊢
            omega
      · rintro w2 ⟨h2,href⟩
        refine ⟨h1.trans h2,?_⟩
        simpa [Refused,show off+chunk+(len-chunk)=off+len by omega] using h1.refused href
    · rintro w1 ⟨h1,href⟩
      refine ⟨h1,href.imp id ?_⟩
      simp only [capBytes,sectorSize] at hsec hpos ⊢
      omega

lemma wp_ext4RawReadBytes (h : w.Online) (off len : ℕ) : (ext4RawReadBytes off len).wp
      (fun b w' => Quiet w w' ∧ b=w.rawView.slice off len ∧ (len≠0 → off+len≤w.capBytes))
      (fun w' => Quiet w w' ∧ w.Refused off len) w := by
  rw [ext4RawReadBytes,wp_bind]
  refine wp_ext4AttachSourceDev h ?_
  refine wp_imp (wp_rawReadLoop len h off 0 len Buf.zero le_rfl) ?_
  rintro b w' ⟨hq,rfl,hcap⟩
  refine ⟨hq,?_,hcap⟩
  funext i
  simp [Buf.copy,Buf.slice,Buf.zero]

lemma Sector.put_at (s : Sector) (o : ℕ) (src : Buf) (a n i : ℕ) : (s.put o src a n).at i =
      if o ≤ i%sectorSize ∧ i%sectorSize<o+n then src (a+(i%sectorSize-o)) else s.at i := by
  simp [Sector.at,Sector.put,Fin.ofNat]

lemma rawView_update {c : BlockCache Sector} (hn : off%sectorSize+n ≤ sectorSize)
    (hf : c.flat=update w.cache.flat (off/sectorSize)
      ((w.cache.flat (off/sectorSize)).put (off%sectorSize) src a n)) :
    (w.withCache c).rawView=w.rawView.copy off src a n := by
  funext b
  simp only [rawView,withCache_cache,hf,Buf.copy,update_apply]
  by_cases hb : b/sectorSize=off/sectorSize
  · rw [if_pos hb,Sector.put_at,← hb]
    simp only [sectorSize] at *
    split_ifs with h1 h2 h2
    · congr 1
      omega
    · omega
    · omega
    · rfl
  · rw [if_neg hb,if_neg]
    simp only [sectorSize] at *
    omega

/-- What a write of `len` bytes has done when it ends, or when it is stopped at a sector border. -/
structure Stored (off : ℕ) (src : Buf) (a len : ℕ) (w w' : World) : Prop where
  wrote : Wrote off len w w'
  view : w'.rawView=w.rawView.copy off src a len

lemma Stored.none {w' : World} (h : Quiet w w') (off : ℕ) (src : Buf) (a : ℕ) :
    Stored off src a 0 w w' :=
  ⟨h.wrote off 0,by rw [h.rawView,Buf.copy_zero]⟩

lemma Stored.cons {w1 w2 : World} {m : ℕ} {s : Sector} (hb : m≠0 → (off+n)%sectorSize=0) (hn : 0<n)
    (h1 : ∃ c, w1=w.withCache c ∧ Moves (OneWrite (off/sectorSize) s) w.cache c)
    (hv1 : w1.rawView=w.rawView.copy off src a n) (hs1 : w1.cache.flat (off/sectorSize)=s)
    (h2 : Stored (off+n) src (a+n) m w1 w2) : Stored off src a (n+m) w w2 := by
  refine ⟨?_,by rw [h2.view,hv1,Buf.copy_copy]⟩
  obtain ⟨c1,rfl,hc1⟩ := h1
  obtain ⟨c2,rfl,hc2⟩ := h2.wrote
  refine ⟨c2,rfl,(hc1.trans hc2).weaken ?_⟩
  rintro l d (⟨rfl,rfl⟩ | ⟨rfl,b,hb1,hb2,rfl⟩)
  · refine ⟨?_,off,le_rfl,by omega,rfl⟩
    rw [← hs1]
    refine (flat_congr (u := (w.withCache c1).withCache c2) (w := w.withCache c1) ?_).symm
    intro b hbl
    rw [h2.view,Buf.copy,if_neg]
    by_cases hm : m=0
    · omega
    · have := hb hm
      simp only [sectorSize] at *
      omega
  · exact ⟨rfl,b,by omega,by omega,rfl⟩

lemma wp_rawWriteLoop (src : Buf) (fuel : ℕ) (h : w.Online) (off a len : ℕ) (hf : len≤fuel) :
    (rawWriteLoop src fuel off a len).wp (fun _ w' => Stored off src a len w w')
      (fun w' => w.Refused off len ∧
        ∃ n<len, (n=0 ∨ (off+n)%sectorSize=0) ∧ Stored off src a n w w') w := by
  induction fuel generalizing w off a len with
  | zero =>
    obtain rfl : len=0 := by omega
    exact Stored.none (Quiet.refl h) off src a
  | succ fuel ih =>
    rw [rawWriteLoop]
    by_cases hl : len=0
    · subst hl
      exact Stored.none (Quiet.refl h) off src a
    rw [if_neg hl]
    obtain ⟨hpos,hle,hsec⟩ := chunk_bounds hl
    set chunk := min (sectorSize-off%sectorSize) len with hchunk
    have hborder : len-chunk≠0 → (off+chunk)%sectorSize=0 := by
      intro hr
      have : chunk=sectorSize-off%sectorSize := by omega
      simp only [sectorSize] at *
      omega
    simp only [wp_bind]
    refine wp_mono (wp_readSector h (off/sectorSize)) ?_ ?_
    · rintro ss w1 ⟨h1,rfl,hin⟩
      simp only [List.headD_cons]
      have ho1 := h1.online h
      have hin1 : off/sectorSize<w1.cache.activeLbaCount := by
        obtain ⟨c,rfl,hc⟩ := h1
        simpa [hc.setup.count] using hin
      have hflat1 : w1.cache.flat=w.cache.flat := by
        obtain ⟨c,rfl,hc⟩ := h1
        exact hc.2
      refine wp_mono (wp_writeSector ho1 hin1 _) ?_ ?_
      · rintro _ w2 ⟨c2,rfl,hm2,hf2⟩
        have hm : ∃ c, w1.withCache c2=w.withCache c ∧ Moves (OneWrite (off/sectorSize)
              ((w.cache.flat (off/sectorSize)).put (off%sectorSize) src a chunk)) w.cache c := by
          obtain ⟨c,rfl,hc⟩ := h1
          exact ⟨c2,rfl,(hc.1.trans hm2).weaken fun _ _ h => h.elim False.elim id⟩
        have hv : (w1.withCache c2).rawView=w.rawView.copy off src a chunk := by
          rw [← h1.rawView]
          exact rawView_update hsec (by rw [hf2,hflat1])
        have hs : (w1.withCache c2).cache.flat (off/sectorSize) =
            (w.cache.flat (off/sectorSize)).put (off%sectorSize) src a chunk := by
          rw [withCache_cache,hf2,update_self]
        have ho2 : (w1.withCache c2).Online := ho1.withCache hm2.attached hm2.setup
        refine wp_mono (ih ho2 (off+chunk) (a+chunk) (len-chunk) (by omega)) ?_ ?_
        · rintro _ w3 h3
          have := Stored.cons hborder hpos hm hv hs h3
          rwa [show chunk+(len-chunk)=len by omega] at this
        · rintro w3 ⟨href,n,hn,hbn,h3⟩
          refine ⟨?_,chunk+n,by omega,.inr ?_,?_⟩
          · have hr : w.Refused (off+chunk) (len-chunk) := by
              obtain ⟨c,hc,hmc⟩ := hm
              rw [hc] at href
              exact href.of_setup hmc.setup
            simpa [Refused,show off+chunk+(len-chunk)=off+len by omega] using hr
          · rcases hbn with rfl | hbn
            · exact hborder (by omega)
            · rwa [← Nat.add_assoc]
          · exact Stored.cons (fun _ => hborder (by omega)) hpos hm hv hs h3
      · rintro w2 ⟨h2,hw⟩
        refine ⟨.inl ?_,0,by omega,.inl rfl,Stored.none (h1.trans h2) off src a⟩
        obtain ⟨c,rfl,hc⟩ := h1
        exact fun hok => hw (hc.setup.writesOk hok)
    · rintro w1 ⟨h1,href⟩
      refine ⟨href.imp id ?_,0,by omega,.inl rfl,Stored.none h1 off src a⟩
      simp only [capBytes,sectorSize] at hsec hpos ⊢
      omega

/-- A write changes its bytes and no others. A refused write has changed a proper part of them
that ends at a sector border. -/
lemma wp_ext4RawWriteBytes (h : w.Online) (off : ℕ) (src : Buf) (len : ℕ) :
    (ext4RawWriteBytes off src len).wp (fun _ w' => Stored off src 0 len w w')
      (fun w' => w.Refused off len ∧
        ∃ n<len, (n=0 ∨ (off+n)%sectorSize=0) ∧ Stored off src 0 n w w') w := by
  rw [ext4RawWriteBytes,wp_bind]
  exact wp_ext4AttachSourceDev h (wp_rawWriteLoop src len h off 0 len le_rfl)

end FuriOS
