import FuriOS.Ext4.Disk

/-! The volume as one array of bytes: reads return it, and writes in a transaction change exactly
their bytes in it. -/
namespace FuriOS
open BlockCache Prog

variable {bs x off : ℕ}

lemma div_eq_iff_block {b : ℕ} (hb : 0<bs) : x/bs=b ↔ b*bs≤x ∧ x<b*bs+bs := by
  rw [Nat.div_eq_iff hb]
  omega

lemma chunk_iff {n : ℕ} (hb : 0<bs) (hn : off%bs+n≤bs) :
    off≤x ∧ x<off+n ↔ x/bs=off/bs ∧ off%bs≤x%bs ∧ x%bs<off%bs+n := by
  have hx := Nat.div_add_mod x bs
  have ho := Nat.div_add_mod off bs
  constructor
  · intro h
    have hq : x/bs=off/bs := by
      rw [div_eq_iff_block hb,Nat.mul_comm]
      have := Nat.mod_lt off hb
      omega
    rw [hq] at hx
    exact ⟨hq,by omega,by omega⟩
  · rintro ⟨hq,h1,h2⟩
    rw [hq] at hx
    omega

lemma sub_eq_mod_sub (hq : x/bs=off/bs) : x-off=x%bs-off%bs := by
  have hx := Nat.div_add_mod x bs
  have ho := Nat.div_add_mod off bs
  rw [hq] at hx
  omega

/-- Block images over the bytes below them; later ones are on top. -/
def imaged (bs : ℕ) (ds : List Jbd2Dirty) (v : Buf) : Buf :=
  ds.foldl (fun v d => v.copy (d.fsBlock*bs) d.data 0 bs) v

def imageOf (ds : List Jbd2Dirty) (b : ℕ) : Option Buf := (ds.find? (·.fsBlock == b)).map (·.data)

def blocksOf (ds : List Jbd2Dirty) : List ℕ := ds.map (·.fsBlock)

section Images
variable {bs : ℕ} {ds : List Jbd2Dirty} {v : Buf} {b x : ℕ}

@[simp] lemma imaged_nil : imaged bs [] v=v := rfl

lemma imaged_cons (d : Jbd2Dirty) :
    imaged bs (d::ds) v=imaged bs ds (v.copy (d.fsBlock*bs) d.data 0 bs) := rfl

lemma imaged_append (ds' : List Jbd2Dirty) :
    imaged bs (ds++ds') v=imaged bs ds' (imaged bs ds v) := List.foldl_append

lemma copy_block_apply (hb : 0<bs) (d : Buf) :
    v.copy (b*bs) d 0 bs x=if x/bs=b then d (x%bs) else v x := by
  simp only [Buf.copy,← div_eq_iff_block hb]
  split_ifs with h
  · have := Nat.div_add_mod x bs
    rw [h] at this
    congr 1
    rw [Nat.mul_comm] at this
    omega
  · rfl

lemma imageOf_cons (d : Jbd2Dirty) :
    imageOf (d::ds) b=if d.fsBlock=b then some d.data else imageOf ds b := by
  by_cases h : d.fsBlock=b
  · simp [imageOf,h]
  · simp [imageOf,h]

lemma imageOf_eq_none : imageOf ds b=none ↔ b∉blocksOf ds := by
  simp [imageOf,blocksOf]

lemma imageOf_isSome : (imageOf ds b).isSome ↔ b∈blocksOf ds := by
  rw [← not_iff_not,← imageOf_eq_none]
  simp

lemma imaged_of_none (hb : 0<bs) (h : x/bs∉blocksOf ds) : imaged bs ds v x=v x := by
  induction ds generalizing v with
  | nil => rfl
  | cons d ds ih =>
    simp only [blocksOf,List.map_cons,List.mem_cons,not_or] at h
    rw [imaged_cons,ih h.2,copy_block_apply hb,if_neg h.1]

lemma imaged_of_some (hb : 0<bs) (hn : (blocksOf ds).Nodup) {d : Buf}
    (h : imageOf ds (x/bs)=some d) : imaged bs ds v x=d (x%bs) := by
  induction ds generalizing v with
  | nil => simp [imageOf] at h
  | cons e ds ih =>
    simp only [blocksOf,List.map_cons,List.nodup_cons] at hn
    rw [imaged_cons]
    rw [imageOf_cons] at h
    split_ifs at h with he
    · rw [imaged_of_none hb (by rw [← he]; exact hn.1),copy_block_apply hb,if_pos he.symm]
      rw [Option.some.inj h]
    · exact ih hn.2 h

lemma imaged_apply (hb : 0<bs) (hn : (blocksOf ds).Nodup) :
    imaged bs ds v x=((imageOf ds (x/bs)).map (· (x%bs))).getD (v x) := by
  cases h : imageOf ds (x/bs) with
  | none => rw [imaged_of_none hb (imageOf_eq_none.1 h)]; rfl
  | some d => rw [imaged_of_some hb hn h]; rfl

lemma blocksOf_modify (i : ℕ) (f : Buf → Buf) :
    blocksOf (ds.modify i fun d => {d with data := f d.data})=blocksOf ds := by
  induction ds generalizing i with
  | nil => simp
  | cons d ds ih =>
    cases i with
    | zero => simp [blocksOf]
    | succ i => simpa [blocksOf] using ih i

lemma imageOf_modify {i : ℕ} (f : Buf → Buf) (h : ds.findIdx? (·.fsBlock == b)=some i) (b' : ℕ) :
    imageOf (ds.modify i fun d => {d with data := f d.data}) b' =
      if b'=b then (imageOf ds b).map f else imageOf ds b' := by
  induction ds generalizing i with
  | nil => simp at h
  | cons d ds ih =>
    rw [List.findIdx?_cons] at h
    by_cases hd : d.fsBlock=b
    · obtain rfl : 0=i := by simpa [hd] using h
      rw [List.modify_zero_cons,imageOf_cons,imageOf_cons,imageOf_cons,if_pos hd]
      by_cases hb : b'=b
      · rw [if_pos hb,if_pos (hd.trans hb.symm),Option.map_some]
      · rw [if_neg hb,if_neg (fun h => hb (h.symm.trans hd)),if_neg (fun h => hb (h.symm.trans hd))]
    · simp only [hd,beq_iff_eq,if_false,Option.map_eq_some_iff] at h
      obtain ⟨k,hk,rfl⟩ := h
      rw [List.modify_succ_cons,imageOf_cons,imageOf_cons,imageOf_cons,if_neg hd,ih hk]
      by_cases hb : b'=b
      · rw [if_pos hb,if_neg (fun h => hd (h.trans hb)),if_pos hb]
      · rw [if_neg hb,if_neg hb]

lemma imageOf_eraseP (hn : (blocksOf ds).Nodup) (b' : ℕ) :
    imageOf (ds.eraseP (·.fsBlock == b)) b'=if b'=b then none else imageOf ds b' := by
  induction ds with
  | nil => simp [imageOf]
  | cons d ds ih =>
    simp only [blocksOf,List.map_cons,List.nodup_cons] at hn
    by_cases hd : d.fsBlock=b
    · rw [List.eraseP_cons_of_pos (by simpa using hd),imageOf_cons]
      by_cases hb : b'=b
      · rw [if_pos hb,imageOf_eq_none,hb,← hd]; exact hn.1
      · rw [if_neg hb,if_neg (fun h => hb (h.symm.trans hd))]
    · rw [List.eraseP_cons_of_neg (by simpa using hd),imageOf_cons,imageOf_cons,ih hn.2]
      by_cases hb : b'=b
      · rw [if_pos hb,if_pos hb,if_neg (fun h => hd (h.trans hb))]
      · rw [if_neg hb,if_neg hb]

end Images

/-- Pieces laid over an array of bytes, in order. -/
def layered (v : Buf) (ps : List Piece) : Buf := ps.foldl (fun v p => v.copy p.start p.data 0 p.len) v

lemma overlay_slice (v : Buf) (off len : ℕ) (p : Piece) :
    p.overlay off len (v.slice off len)=(v.copy p.start p.data 0 p.len).slice off len := by
  have hslice : ∀ i, i<len → v.slice off len i=v (off+i) := fun i hi => if_pos hi
  have hzero : ∀ (u : Buf) i, ¬ i<len → u.slice off len i=0 := fun u i hi => if_neg hi
  funext i
  by_cases hi : i<len
  · rw [Buf.slice.eq_def (v.copy _ _ _ _)]
    simp only [if_pos hi,Piece.overlay]
    split_ifs with h
    · rw [hslice i hi,Buf.copy_of_outside (by omega)]
    · by_cases h' : p.start≤off+i ∧ off+i<p.start+p.len
      · rw [Buf.copy_of_inside h',Buf.copy_of_inside (by omega)]
        congr 1
        omega
      · rw [Buf.copy_of_outside (by omega),Buf.copy_of_outside (by omega),hslice i hi]
  · rw [hzero _ i hi,Piece.overlay]
    split_ifs with h
    · exact hzero v i hi
    · rw [Buf.copy_of_outside (by omega),hzero v i hi]

lemma overlays_slice (v : Buf) (off len : ℕ) (ps : List Piece) :
    ps.foldl (Piece.overlay off len) (v.slice off len)=(layered v ps).slice off len := by
  induction ps generalizing v with
  | nil => rfl
  | cons p ps ih => rw [List.foldl_cons,overlay_slice,ih]; rfl

lemma layered_images (bs : ℕ) (ds : List Jbd2Dirty) (v : Buf) :
    layered v (ds.map (·.piece bs))=imaged bs ds v := by
  rw [layered,List.foldl_map]
  rfl

namespace World

variable {w w' : World}

/-- The images of all committed transactions that are not checkpointed, oldest first. -/
def pendingImages (w : World) : List Jbd2Dirty := w.jbd2.pending.flatMap (·.dirty)

def baseView (w : World) : Buf := imaged w.jbd2.blockSize w.pendingImages w.rawView

def jlogPieces (w : World) : List Piece :=
  (w.journal.recs.filter fun r => r.byteOff+r.len<2^64).map (·.piece w.journal.data)

/-- The volume as `ext4_disk_read_bytes` shows it. -/
def view (w : World) : Buf :=
  let v := if w.jbd2.enabled && !w.jbd2.ioBypass then w.baseView else w.rawView
  let v := if w.jbd2.enabled && w.jbd2.txActive && !w.jbd2.ioBypass
    then imaged w.jbd2.blockSize w.jbd2.txDirty v else v
  if w.journal.enabled && w.journal.txActive then layered v w.jlogPieces else v

section
variable (h : Quiet w w')
include h

lemma Quiet.jbd2 : w'.jbd2=w.jbd2 := by
  obtain ⟨c,rfl,-⟩ := h
  rfl

lemma Quiet.ext4 : w'.ext4=w.ext4 := by
  obtain ⟨c,rfl,-⟩ := h
  rfl

lemma Quiet.journal : w'.journal=w.journal := by
  obtain ⟨c,rfl,-⟩ := h
  rfl

lemma Quiet.capBytes : w'.capBytes=w.capBytes := by
  obtain ⟨c,rfl,hc⟩ := h
  simp only [World.capBytes,withCache_cache,hc.setup.count]

lemma Quiet.view : w'.view=w.view := by
  simp only [World.view,baseView,pendingImages,jlogPieces,h.jbd2,h.journal,h.rawView]

end

end World
open World

lemma wp_overlayPieces {w : World} {off len : ℕ} (hb : off+len<2^64) (ps : List Piece) (v : Buf) :
    (overlayPieces off len ps (v.slice off len)).wp
      (fun b w' => w'=w ∧ b=(layered v ps).slice off len) (fun _ => False) w := by
  rw [overlayPieces,wp_bind,show decide (off+len<2^64)=true by simpa using hb]
  exact ⟨rfl,overlays_slice v off len ps⟩

section Read
variable {w : World} {off len : ℕ}

lemma slice_len_zero (v v' : Buf) (off : ℕ) : v.slice off 0=v'.slice off 0 := by
  funext i
  simp [Buf.slice]

lemma wp_pendingOverlay (he : w.jbd2.enabled=true) (hb : len≠0 → off+len<2^64) :
    (ext4Jbd2PendingOverlayRead off len (w.rawView.slice off len)).wp (fun b w' => w'=w ∧
        b=(if w.jbd2.enabled && !w.jbd2.ioBypass then w.baseView else w.rawView).slice off len)
      (fun _ => False) w := by
  simp only [ext4Jbd2PendingOverlayRead,wp_bind,wp_gets,he,Bool.not_true,Bool.false_or,
    Bool.true_and]
  by_cases hl : len=0
  · subst hl
    simp only [beq_self_eq_true,Bool.or_true,Bool.true_or,if_true,wp_pure,true_and]
    exact slice_len_zero _ _ _
  cases hio : w.jbd2.ioBypass with
  | true => simp
  | false =>
    cases hp : w.jbd2.pending with
    | nil => simp [baseView,pendingImages,hp]
    | cons p ps =>
      simp only [List.isEmpty_cons,Bool.or_false,Bool.not_false,if_true,
        Bool.false_eq_true,if_false,show (len == 0)=false by simpa using hl]
      refine wp_imp (wp_overlayPieces (hb hl) _ _) ?_
      rintro b w' ⟨rfl,rfl⟩
      refine ⟨rfl,?_⟩
      rw [baseView,pendingImages,hp,← layered_images,List.map_flatMap]

lemma wp_txOverlay (v : Buf) (hb : len≠0 → off+len<2^64) :
    (ext4Jbd2TxOverlayRead off len (v.slice off len)).wp (fun b w' => w'=w ∧ b =
        (if w.jbd2.txActive then imaged w.jbd2.blockSize w.jbd2.txDirty v else v).slice off len)
      (fun _ => False) w := by
  simp only [ext4Jbd2TxOverlayRead,wp_bind,wp_gets]
  cases w.jbd2.txActive with
  | false => simp
  | true =>
    by_cases hl : len=0
    · subst hl
      simp only [Bool.not_true,Bool.false_or,beq_self_eq_true,if_true,wp_pure,true_and]
      exact slice_len_zero _ _ _
    · simp only [Bool.not_true,Bool.false_or,beq_iff_eq,hl,if_false,if_true]
      refine wp_imp (wp_overlayPieces (hb hl) _ _) ?_
      rintro b w' ⟨rfl,rfl⟩
      exact ⟨rfl,by rw [layered_images]⟩

lemma wp_jlogOverlay (v : Buf) (hb : len≠0 → off+len<2^64) :
    (jlogOverlayRead off len (v.slice off len)).wp (fun b w' => w'=w ∧ b =
        (if w.journal.enabled && w.journal.txActive then layered v w.jlogPieces else v).slice off len)
      (fun _ => False) w := by
  simp only [jlogOverlayRead,wp_bind,wp_gets]
  by_cases hl : len=0
  · subst hl
    simp only [beq_self_eq_true,Bool.or_true,if_true,wp_pure,true_and]
    exact slice_len_zero _ _ _
  cases he : w.journal.enabled with
  | false => simp
  | true =>
    cases ht : w.journal.txActive with
    | false => simp
    | true =>
      simp only [Bool.not_true,Bool.or_self,Bool.false_or,beq_iff_eq,hl,if_false,Bool.and_self,if_true]
      refine wp_imp (wp_overlayPieces (hb hl) _ _) ?_
      rintro b w' ⟨rfl,rfl⟩
      exact ⟨rfl,rfl⟩

lemma wp_ext4DiskReadBytes (h : w.Online) (hcap : w.capBytes<2^64) (off len : ℕ) :
    (ext4DiskReadBytes off len).wp
      (fun b w' => Quiet w w' ∧ b=w.view.slice off len ∧ (len≠0 → off+len≤w.capBytes))
      (fun w' => Quiet w w' ∧ w.Refused off len) w := by
  simp only [ext4DiskReadBytes,wp_bind]
  refine wp_imp (wp_ext4RawReadBytes h off len) ?_
  rintro b w1 ⟨h1,rfl,hin⟩
  have hb : len≠0 → off+len<2^64 := fun hl => lt_of_le_of_lt (hin hl) hcap
  simp only [wp_gets]
  rw [← h1.rawView]
  -- the three layers, each on what the one below has returned
  have hpend : (if w1.jbd2.enabled=true then
      ext4Jbd2PendingOverlayRead off len (w1.rawView.slice off len)
        else pure (w1.rawView.slice off len)).wp
      (fun b w' => w'=w1 ∧
        b=(if w1.jbd2.enabled && !w1.jbd2.ioBypass then w1.baseView else w1.rawView).slice off len)
      (fun _ => False) w1 := by
    cases he : w1.jbd2.enabled with
    | false => simp
    | true => simpa [he] using wp_pendingOverlay he hb
  refine wp_mono hpend ?_ fun _ h => h.elim
  rintro b w2 ⟨rfl,rfl⟩
  have htx : ∀ v : Buf, (if (w2.jbd2.enabled && w2.jbd2.txActive && !w2.jbd2.ioBypass)=true then
      ext4Jbd2TxOverlayRead off len (v.slice off len) else pure (v.slice off len)).wp
      (fun b w' => w'=w2 ∧ b=(if w2.jbd2.enabled && w2.jbd2.txActive && !w2.jbd2.ioBypass
        then imaged w2.jbd2.blockSize w2.jbd2.txDirty v else v).slice off len)
      (fun _ => False) w2 := by
    intro v
    cases hc : (w2.jbd2.enabled && w2.jbd2.txActive && !w2.jbd2.ioBypass) with
    | false => simp
    | true =>
      have hact : w2.jbd2.txActive=true := by
        simp only [Bool.and_eq_true] at hc
        exact hc.1.2
      simpa [hact] using wp_txOverlay (w := w2) v hb
  refine wp_mono (htx _) ?_ fun _ h => h.elim
  rintro b w3 ⟨rfl,rfl⟩
  refine wp_mono (wp_jlogOverlay _ hb) ?_ fun _ h => h.elim
  rintro b w4 ⟨rfl,rfl⟩
  exact ⟨h1,by rw [← h1.view]; rfl,hin⟩

end Read

/-- The open transaction is well formed: one image for a block, within the limits, and no block
both logged and revoked. -/
structure Jbd2State.TxOk (j : Jbd2State) (blocksCount : ℕ) : Prop where
  nodup : (blocksOf j.txDirty).Nodup
  bound : ∀ b∈blocksOf j.txDirty, b<blocksCount
  size : j.txDirty.length≤ext4Jbd2TxMaxBlocks
  revNodup : j.txRevokes.Nodup
  revBound : ∀ b∈j.txRevokes, b<blocksCount
  revSize : j.txRevokes.length≤ext4Jbd2TxMaxRevokes
  disjoint : ∀ b∈j.txRevokes, b∉blocksOf j.txDirty

lemma Jbd2State.TxOk.congr {j j' : Jbd2State} {n : ℕ} (h : j.TxOk n) (hd : j'.txDirty=j.txDirty)
    (hr : j'.txRevokes=j.txRevokes) : j'.TxOk n := by
  obtain ⟨h1,h2,h3,h4,h5,h6,h7⟩ := h
  constructor <;> simpa only [hd,hr]

def InBlocks (bs off len b : ℕ) : Prop := ∃ x, off≤x ∧ x<off+len ∧ b=x/bs

namespace World

/-- A JBD2 volume with an open transaction that reads and writes go to. -/
structure InTx (w : World) : Prop where
  online : w.Online
  cap : w.capBytes<2^64
  enabled : w.jbd2.enabled=true
  active : w.jbd2.txActive=true
  bypass : w.jbd2.ioBypass=false
  noJlog : w.journal.enabled=false
  block : 0<w.jbd2.blockSize
  fits : w.ext4.blocksCount*w.jbd2.blockSize≤w.capBytes
  tx : w.jbd2.TxOk w.ext4.blocksCount

/-- Only the cache and the images and revokes of the open transaction changed. -/
def TxFrame (w w' : World) : Prop := ∃ c ds rs e o, Calm w.cache c ∧
  w'={w with cache := c, jbd2 := {w.jbd2 with
    txDirty := ds, txRevokes := rs, txEnospc := e, txRevokeOverflow := o}}

/-- `n` bytes were written into the open transaction. -/
structure TxWrote (off : ℕ) (src : Buf) (a n : ℕ) (w w' : World) : Prop where
  frame : TxFrame w w'
  inTx : w'.InTx
  view : w'.view=w.view.copy off src a n
  dirty : ∀ b, b∈blocksOf w'.jbd2.txDirty ↔
    b∈blocksOf w.jbd2.txDirty ∨ InBlocks w.jbd2.blockSize off n b
  revoked : ∀ b, b∈w'.jbd2.txRevokes ↔ b∈w.jbd2.txRevokes ∧ ¬ InBlocks w.jbd2.blockSize off n b

variable {w w' w'' : World}

lemma InTx.view (h : w.InTx) : w.view=imaged w.jbd2.blockSize w.jbd2.txDirty w.baseView := by
  simp [World.view,h.enabled,h.active,h.bypass,h.noJlog]

lemma TxFrame.trans (h : TxFrame w w') (h' : TxFrame w' w'') : TxFrame w w'' := by
  obtain ⟨c,ds,rs,e,o,hc,rfl⟩ := h
  obtain ⟨c',ds',rs',e',o',hc',rfl⟩ := h'
  exact ⟨c',ds',rs',e',o',hc.trans hc',rfl⟩

lemma Quiet.txFrame (h : Quiet w w') : TxFrame w w' := by
  obtain ⟨c,rfl,hc⟩ := h
  exact ⟨c,_,_,_,_,hc,rfl⟩

lemma TxFrame.baseView (h : TxFrame w w') : w'.baseView=w.baseView := by
  have hraw : w'.rawView=w.rawView := by
    obtain ⟨c,ds,rs,e,o,hc,rfl⟩ := h
    exact rawView_congr hc.2
  obtain ⟨c,ds,rs,e,o,hc,rfl⟩ := h
  simp only [World.baseView,pendingImages,hraw]

lemma TxFrame.inTx (h : TxFrame w w') (hw : w.InTx) (ht : w'.jbd2.TxOk w.ext4.blocksCount) :
    w'.InTx := by
  obtain ⟨c,ds,rs,e,o,hc,rfl⟩ := h
  have ho := hw.online.withCache hc.attached hc.setup
  have hcap : c.activeLbaCount=w.cache.activeLbaCount := hc.setup.count
  exact ⟨⟨ho.attached,ho.reads,ho.same⟩,by simpa [capBytes,hcap] using hw.cap,hw.enabled,hw.active,
    hw.bypass,hw.noJlog,hw.block,by simpa [capBytes,hcap] using hw.fits,ht⟩

lemma TxFrame.blockSize (h : TxFrame w w') : w'.jbd2.blockSize=w.jbd2.blockSize := by
  obtain ⟨c,ds,rs,e,o,hc,rfl⟩ := h
  rfl

lemma TxFrame.ext4 (h : TxFrame w w') : w'.ext4=w.ext4 := by
  obtain ⟨c,ds,rs,e,o,hc,rfl⟩ := h
  rfl

end World

variable {b n m : ℕ} {w : World} {ds : List Jbd2Dirty}

lemma inBlocks_zero : ¬ InBlocks bs off 0 b := by
  rintro ⟨x,h1,h2,-⟩
  omega

lemma inBlocks_add : InBlocks bs off (n+m) b ↔ InBlocks bs off n b ∨ InBlocks bs (off+n) m b := by
  constructor
  · rintro ⟨x,h1,h2,hx⟩
    by_cases h : x<off+n
    · exact .inl ⟨x,h1,h,hx⟩
    · exact .inr ⟨x,by omega,by omega,hx⟩
  · rintro (⟨x,h1,h2,hx⟩ | ⟨x,h1,h2,hx⟩)
    · exact ⟨x,h1,by omega,hx⟩
    · exact ⟨x,by omega,by omega,hx⟩

lemma inBlocks_chunk (hb : 0<bs) (hpos : 0<n) (hn : off%bs+n≤bs) :
    InBlocks bs off n b ↔ b=off/bs := by
  constructor
  · rintro ⟨x,h1,h2,rfl⟩
    exact ((chunk_iff hb hn).1 ⟨h1,h2⟩).1
  · rintro rfl
    exact ⟨off,le_rfl,by omega,rfl⟩

lemma World.TxWrote.refl {w' : World} (hf : TxFrame w w') (hw : w.InTx)
    (hd : w'.jbd2.txDirty=w.jbd2.txDirty) (hr : w'.jbd2.txRevokes=w.jbd2.txRevokes)
    (off : ℕ) (src : Buf) (a : ℕ) : TxWrote off src a 0 w w' := by
  have hi : w'.InTx := hf.inTx hw (hw.tx.congr hd hr)
  refine ⟨hf,hi,?_,fun b => ?_,fun b => ?_⟩
  · rw [hi.view,hw.view,hf.baseView,hf.blockSize,hd,Buf.copy_zero]
  · rw [hd]
    exact ⟨.inl,fun h => h.elim id fun h => (inBlocks_zero h).elim⟩
  · rw [hr]
    exact ⟨fun h => ⟨h,inBlocks_zero⟩,And.left⟩

lemma World.TxWrote.trans {w1 w2 : World} {a : ℕ} {src : Buf}
    (h1 : TxWrote off src a n w w1) (h2 : TxWrote (off+n) src (a+n) m w1 w2) :
    TxWrote off src a (n+m) w w2 where
  frame := h1.frame.trans h2.frame
  inTx := h2.inTx
  view := by rw [h2.view,h1.view,Buf.copy_copy]
  dirty := by
    intro b
    rw [h2.dirty,h1.dirty,h1.frame.blockSize,inBlocks_add,or_assoc]
  revoked := by
    intro b
    rw [h2.revoked,h1.revoked,h1.frame.blockSize,inBlocks_add,not_or,and_assoc]

lemma imaged_append_same (hbs : 0<bs) (ds : List Jbd2Dirty) (b : ℕ) (v : Buf) :
    imaged bs (ds++[⟨b,(imaged bs ds v).slice (b*bs) bs⟩]) v=imaged bs ds v := by
  rw [imaged_append,imaged_cons,imaged_nil]
  funext x
  rw [copy_block_apply hbs]
  split_ifs with h
  · simp only [Buf.slice,if_pos (Nat.mod_lt x hbs)]
    have := Nat.div_add_mod x bs
    rw [h,Nat.mul_comm] at this
    rw [this]
  · rfl

lemma imaged_modify (hbs : 0<bs) (hn : (blocksOf ds).Nodup)
    {i : ℕ} (hc : off%bs+n≤bs) (h : ds.findIdx? (·.fsBlock == off/bs)=some i)
    (src : Buf) (a : ℕ) (v : Buf) :
    imaged bs (ds.modify i fun d => {d with data := d.data.copy (off%bs) src a n}) v =
      (imaged bs ds v).copy off src a n := by
  have hn' : (blocksOf (ds.modify i fun d => {d with data := d.data.copy (off%bs) src a n})).Nodup :=
    by rw [blocksOf_modify i fun d => d.copy (off%bs) src a n]; exact hn
  funext x
  rw [imaged_apply hbs hn',imageOf_modify (fun d => d.copy (off%bs) src a n) h]
  by_cases hx : x/bs=off/bs
  · have hmem : (imageOf ds (off/bs)).isSome := by
      rw [imageOf_isSome]
      obtain ⟨hi,hp,-⟩ := List.findIdx?_eq_some_iff_getElem.1 h
      rw [blocksOf,List.mem_map]
      exact ⟨_,List.getElem_mem hi,by simpa using hp⟩
    obtain ⟨d,hd⟩ := Option.isSome_iff_exists.1 hmem
    have hold : imaged bs ds v x=d (x%bs) := imaged_of_some hbs hn (by rw [hx]; exact hd)
    rw [if_pos hx,hd,Option.map_some,Option.map_some,Option.getD_some]
    simp only [Buf.copy,hold]
    by_cases hr : off≤x ∧ x<off+n
    · rw [if_pos hr,if_pos ((chunk_iff hbs hc).1 hr).2,sub_eq_mod_sub hx]
    · rw [if_neg hr,if_neg fun h' => hr ((chunk_iff hbs hc).2 ⟨hx,h'⟩)]
  · rw [if_neg hx,← imaged_apply hbs hn,Buf.copy,if_neg fun h' => hx ((chunk_iff hbs hc).1 h').1]

lemma wp_findOrAlloc (h : w.InTx) (b : ℕ) : (match ext4Jbd2FindDirty b w.jbd2 with
      | some i => pure i
      | none => ext4Jbd2AllocDirty b : Ext4M ℕ).wp
      (fun i w' => TxFrame w w' ∧ w'.jbd2.txRevokes=w.jbd2.txRevokes ∧
        (blocksOf w'.jbd2.txDirty).Nodup ∧ w'.jbd2.txDirty.length≤ext4Jbd2TxMaxBlocks ∧
        imaged w.jbd2.blockSize w'.jbd2.txDirty w.baseView=w.view ∧
        w'.jbd2.txDirty.findIdx? (·.fsBlock == b)=some i ∧
        ∀ b', b'∈blocksOf w'.jbd2.txDirty ↔ b'∈blocksOf w.jbd2.txDirty ∨ b'=b)
      (fun w' => TxFrame w w' ∧ w'.jbd2.txDirty=w.jbd2.txDirty ∧
        w'.jbd2.txRevokes=w.jbd2.txRevokes) w := by
  cases hf : ext4Jbd2FindDirty b w.jbd2 with
  | some i =>
    have hmem : b∈blocksOf w.jbd2.txDirty := by
      obtain ⟨hi,hp,-⟩ := List.findIdx?_eq_some_iff_getElem.1 hf
      rw [blocksOf,List.mem_map]
      exact ⟨_,List.getElem_mem hi,by simpa using hp⟩
    refine ⟨(Quiet.refl h.online).txFrame,rfl,h.tx.nodup,h.tx.size,h.view.symm,hf,fun b' => ?_⟩
    exact ⟨.inl,fun h => h.elim id fun h => h ▸ hmem⟩
  | none =>
    have hnew : b∉blocksOf w.jbd2.txDirty := by
      rw [ext4Jbd2FindDirty,List.findIdx?_eq_none_iff] at hf
      simpa [blocksOf] using hf
    simp only [ext4Jbd2AllocDirty,wp_bind,wp_gets]
    by_cases hsize : ext4Jbd2TxMaxBlocks≤w.jbd2.txDirty.length
    · rw [if_pos hsize]
      exact ⟨⟨w.cache,_,_,_,_,(SameView.refl _).calm h.online.attached,rfl⟩,rfl,rfl⟩
    rw [if_neg hsize]
    simp only [wp_bind,wp_modify,wp_pure]
    refine wp_mono (wp_ext4DiskReadBytes h.online h.cap _ _) ?_ ?_
    · rintro data w1 ⟨h1,rfl,-⟩
      obtain ⟨c,rfl,hc⟩ := h1
      refine ⟨⟨c,_,_,_,_,hc,rfl⟩,rfl,?_,?_,?_,?_,fun b' => ?_⟩
      · simpa [setJbd2,blocksOf,List.nodup_append] using ⟨h.tx.nodup,fun d hd he => hnew
          (by rw [blocksOf,List.mem_map]; exact ⟨d,hd,he⟩)⟩
      · simp [setJbd2]
        omega
      · rw [h.view]
        exact imaged_append_same h.block _ _ _
      · simp only [ext4Jbd2FindDirty] at hf
        simp [setJbd2,List.findIdx?_append,hf]
      · simp [setJbd2,blocksOf]
    · rintro w1 ⟨h1,-⟩
      refine ⟨h1.txFrame,?_,?_⟩ <;> rw [h1.jbd2]

lemma blockChunk_bounds {len : ℕ} (hb : 0<bs) (hl : len≠0) :
    0 < min (bs-off%bs) len ∧ min (bs-off%bs) len≤len ∧ off%bs+min (bs-off%bs) len≤bs := by
  have := Nat.mod_lt off hb
  omega

lemma wp_txWriteLoop (src : Buf) (fuel : ℕ) (h : w.InTx) (off a len : ℕ) (hf : len≤fuel) :
    (txWriteLoop src fuel off a len).wp (fun _ w' => TxWrote off src a len w w')
      (fun w' => ∃ n<len, TxWrote off src a n w w') w := by
  induction fuel generalizing w off a len with
  | zero =>
    obtain rfl : len=0 := by omega
    exact TxWrote.refl (Quiet.refl h.online).txFrame h rfl rfl off src a
  | succ fuel ih =>
    rw [txWriteLoop]
    by_cases hl : len=0
    · subst hl
      exact TxWrote.refl (Quiet.refl h.online).txFrame h rfl rfl off src a
    rw [if_neg hl]
    simp only [wp_bind,wp_gets,id,wp_modify]
    obtain ⟨hpos,hle,hcb⟩ := blockChunk_bounds h.block hl
    set chunk := min (w.jbd2.blockSize-off%w.jbd2.blockSize) len
    rw [wp_require]
    split_ifs with hb
    swap
    · exact ⟨0,by omega,TxWrote.refl (Quiet.refl h.online).txFrame h rfl rfl off src a⟩
    refine wp_mono (wp_findOrAlloc h _) ?_ ?_
    · rintro i w1 ⟨hfr,hrev,hnd,hsz,hview,hidx,hmem⟩
      set w2 := (w1.setJbd2 (ext4Jbd2RemoveRevoke (off/w.jbd2.blockSize))).setJbd2
        (Jbd2State.patchDirty i (off%w.jbd2.blockSize) src a chunk) with hw2
      have hfr2 : TxFrame w w2 := by
        obtain ⟨c,ds,rs,e,o,hc,rfl⟩ := hfr
        exact ⟨c,_,_,_,_,hc,rfl⟩
      have hdirty : w2.jbd2.txDirty=w1.jbd2.txDirty.modify i fun d =>
          {d with data := d.data.copy (off%w.jbd2.blockSize) src a chunk} := rfl
      have hblocks : blocksOf w2.jbd2.txDirty=blocksOf w1.jbd2.txDirty := by
        rw [hdirty]
        exact blocksOf_modify i fun d => d.copy (off%w.jbd2.blockSize) src a chunk
      have hrevoke : w2.jbd2.txRevokes=w.jbd2.txRevokes.erase (off/w.jbd2.blockSize) := by
        rw [← hrev]
        rfl
      have hin2 : w2.InTx := by
        refine hfr2.inTx h ⟨by rw [hblocks]; exact hnd,?_,?_,?_,?_,?_,?_⟩
        · intro b' hb'
          rw [hblocks,hmem] at hb'
          rcases hb' with hb' | rfl
          · exact h.tx.bound b' hb'
          · simpa using hb
        · rw [hdirty,List.length_modify]; exact hsz
        · rw [hrevoke]; exact h.tx.revNodup.erase _
        · rw [hrevoke]; exact fun b' hb' => h.tx.revBound b' (List.mem_of_mem_erase hb')
        · rw [hrevoke]; exact (List.length_erase_le).trans h.tx.revSize
        · rw [hrevoke]
          intro b' hb' hd
          rw [hblocks,hmem] at hd
          obtain ⟨hne,hb'⟩ := (h.tx.revNodup.mem_erase_iff).1 hb'
          rcases hd with hd | hd
          · exact h.tx.disjoint b' hb' hd
          · exact hne hd
      have hput : TxWrote off src a chunk w w2 := by
        refine ⟨hfr2,hin2,?_,fun b' => ?_,fun b' => ?_⟩
        · rw [hin2.view,hfr2.baseView,hfr2.blockSize,hdirty,imaged_modify h.block hnd hcb hidx,hview]
        · rw [hblocks,hmem,inBlocks_chunk h.block hpos hcb]
        · rw [hrevoke,h.tx.revNodup.mem_erase_iff,inBlocks_chunk h.block hpos hcb,and_comm]
      refine wp_mono (ih hin2 (off+chunk) (a+chunk) (len-chunk) (by omega)) ?_ ?_
      · rintro _ w3 h3
        have := hput.trans h3
        rwa [show chunk+(len-chunk)=len by omega] at this
      · rintro w3 ⟨n,hn,h3⟩
        exact ⟨chunk+n,by omega,hput.trans h3⟩
    · rintro w1 ⟨hfr,hd,hr⟩
      exact ⟨0,by omega,TxWrote.refl hfr h hd hr off src a⟩

/-- In an open transaction a write changes its bytes of the view and no others; one that fails
has changed a proper part of them. -/
lemma wp_ext4DiskWriteBytes_tx (h : w.InTx) (off : ℕ) (src : Buf) (len : ℕ) :
    (ext4DiskWriteBytes off src len).wp (fun _ w' => TxWrote off src 0 len w w')
      (fun w' => ∃ n≤len, TxWrote off src 0 n w w') w := by
  simp only [ext4DiskWriteBytes,wp_bind,wp_gets,id,h.enabled,h.active,h.bypass,
    Bool.and_self,Bool.not_false,if_true,ext4Jbd2TxWriteBytes,wp_require_true]
  refine wp_mono (wp_txWriteLoop src len h off 0 len le_rfl) (fun _ _ h => h) ?_
  rintro w' ⟨n,hn,h'⟩
  exact ⟨n,hn.le,h'⟩

/-- A revoke takes the block out of the open transaction: its bytes are again those below. -/
structure World.TxRevoked (b : ℕ) (w w' : World) : Prop where
  frame : TxFrame w w'
  inTx : w'.InTx
  view : ∀ x, w'.view x=if x/w.jbd2.blockSize=b then w.baseView x else w.view x
  dirty : ∀ b', b'∈blocksOf w'.jbd2.txDirty ↔ b'∈blocksOf w.jbd2.txDirty ∧ b'≠b
  revoked : ∀ b', b'∈w'.jbd2.txRevokes → b'∈w.jbd2.txRevokes ∨ b'=b
  kept : ∀ b'∈w.jbd2.txRevokes, b'∈w'.jbd2.txRevokes
  added : b∈w'.jbd2.txRevokes ∨ w'.jbd2.txRevokeOverflow=true

lemma blocksOf_eraseP (hn : (blocksOf ds).Nodup) (b b' : ℕ) :
    b'∈blocksOf (ds.eraseP (·.fsBlock == b)) ↔ b'∈blocksOf ds ∧ b'≠b := by
  rw [← imageOf_isSome,imageOf_eraseP hn,← imageOf_isSome]
  by_cases h : b'=b
  · simp [h]
  · simp [h]

lemma wp_ext4Jbd2NoteRevoke (h : w.InTx) (b : ℕ) : (ext4Jbd2NoteRevoke b).wp
      (fun _ w' => if b<w.ext4.blocksCount then TxRevoked b w w' else w'=w)
      (fun _ => False) w := by
  simp only [ext4Jbd2NoteRevoke,wp_modify,h.enabled,h.active,Bool.not_true,Bool.false_or]
  by_cases hb : b<w.ext4.blocksCount
  swap
  · rw [if_neg hb,if_pos (by simpa using hb)]
  rw [if_pos hb,if_neg (by simpa using hb)]
  set ds := w.jbd2.txDirty.eraseP (·.fsBlock == b) with hds
  have hsub : (blocksOf ds).Sublist (blocksOf w.jbd2.txDirty) := (List.eraseP_sublist).map _
  have hcalm : Calm w.cache w.cache := (SameView.refl _).calm h.online.attached
  have hview : ∀ x, imaged w.jbd2.blockSize ds w.baseView x =
      if x/w.jbd2.blockSize=b then w.baseView x else w.view x := by
    intro x
    rw [h.view,imaged_apply h.block (h.tx.nodup.sublist hsub),imageOf_eraseP h.tx.nodup]
    split_ifs with hx
    · rfl
    · rw [← imaged_apply h.block h.tx.nodup]
  have hdirty := fun b' => blocksOf_eraseP h.tx.nodup b b'
  -- what the three outcomes of the list of revokes have in common
  have key : ∀ rs o, rs.Nodup → rs.length≤ext4Jbd2TxMaxRevokes →
      (∀ b'∈rs, b'∈w.jbd2.txRevokes ∨ b'=b) → (∀ b'∈w.jbd2.txRevokes, b'∈rs) →
      (b∈rs ∨ o=true) →
      TxRevoked b w {w with jbd2 := {w.jbd2 with
        txDirty := ds, txRevokes := rs, txRevokeOverflow := o}} := by
    intro rs o hnd hlen hrs hkeep hadd
    have hfr : TxFrame w {w with jbd2 := {w.jbd2 with
        txDirty := ds, txRevokes := rs, txRevokeOverflow := o}} :=
      ⟨w.cache,_,_,_,_,hcalm,rfl⟩
    have hin := hfr.inTx h ⟨h.tx.nodup.sublist hsub,fun b' hb' => h.tx.bound b' (hsub.mem hb'),
      (List.eraseP_sublist).length_le.trans h.tx.size,hnd,?_,hlen,?_⟩
    · refine ⟨hfr,hin,?_,hdirty,hrs,hkeep,hadd⟩
      intro x
      rw [hin.view,hfr.baseView]
      exact hview x
    · intro b' hb'
      rcases hrs b' hb' with hr | rfl
      · exact h.tx.revBound b' hr
      · exact hb
    · intro b' hb' hd
      rw [hdirty] at hd
      rcases hrs b' hb' with hr | hr
      · exact h.tx.disjoint b' hr hd.1
      · exact hd.2 hr
  simp only [setJbd2,ext4Jbd2RemoveDirty,← hds]
  by_cases hmem : b∈w.jbd2.txRevokes
  · rw [if_pos hmem]
    exact key _ _ h.tx.revNodup h.tx.revSize (fun _ => .inl) (fun _ h => h) (.inl hmem)
  rw [if_neg hmem]
  by_cases hlen : w.jbd2.txRevokes.length<ext4Jbd2TxMaxRevokes
  · rw [if_pos hlen]
    refine key _ _ ?_ (by simp; omega) (by simp) (fun b' hb' => by simp [hb']) (.inl (by simp))
    exact List.nodup_append.2 ⟨h.tx.revNodup,by simp,by
      rintro b' hb' _ hs rfl
      exact hmem (by rwa [List.mem_singleton.1 hs] at hb')⟩
  · rw [if_neg hlen]
    exact key _ _ h.tx.revNodup h.tx.revSize (fun _ => .inl) (fun _ h => h) (.inr rfl)

end FuriOS
