import FuriOS.Ext4.LogParse
import FuriOS.Ext4.ReplaySpec
import FuriOS.Ext4.Fresh

/-! A commit and the scan of recovery over the log that it has written. -/
namespace FuriOS
open World Jbd2State Prog

section Commit
variable {G : Geometry} {w w' w1 : World} {p next : ℕ}

lemma CommitPhases.logAt (he : w.Engine G) (h : CommitPhases G p w w') :
    LogAt G w.jbd2 w' p (txLog w.jbd2) := by
  obtain ⟨w1,w2,w3,w4,w5,h1,⟨h2,-⟩,h3,⟨h4,-⟩,h5,h6,-⟩ := h
  have hext : w'.ext4=w3.ext4 := h6.ext4.trans (h5.put.ext4.trans h4.ext4)
  intro k blk hk x hx
  rw [hext] at hx ⊢
  rw [← h3.log k blk hk x hx,h6.rawView,← h4.rawView]
  apply h5.put.other
  change ¬ x/w4.ext4.blockSize=G.jmap 0
  rw [h4.ext4,hx]
  exact he.onRing.logBlock_ne_super he.placed.layout p k

lemma World.Worked.logAt (h : Worked G w w') (he : w.Engine G) {j : Jbd2State} (hj : j.OnRing G)
    {L : List Buf} (hl : LogAt G j w p L) : LogAt G j w' p L := by
  intro k blk hk x hx
  rw [h.touches.ext4] at hx ⊢
  rw [← hl k blk hk x hx]
  apply h.touches.other
  rw [hx]
  rintro (hb | hb)
  · exact hb.2 ⟨_,hj.pos_lt p k,rfl⟩
  · exact hj.logBlock_ne_super he.placed.layout p k hb

lemma World.LogAt.inLog {j : Jbd2State} {L : List Buf} (h : LogAt G j w p L)
    (hb : j.blockSize=w.ext4.blockSize) (hpos : 0<w.ext4.blockSize) :
    InLog j (w.jblock G) p 0 L := by
  intro k blk hk i _ hi
  rw [hb,Nat.zero_add] at hi
  rw [Nat.zero_add,World.jblock,Buf.slice,if_pos hi]
  have hdiv : (G.jmap (j.pos p k)*w.ext4.blockSize+i)/w.ext4.blockSize=logBlock G j p k := by
    rw [Nat.mul_comm,Nat.mul_add_div hpos,Nat.div_eq_of_lt hi,Nat.add_zero]
    rfl
  rw [h k blk hk _ hdiv,Nat.mul_comm,Nat.mul_add_mod,Nat.mod_eq_of_lt hi]

lemma World.SameTx.sameFormat {j i : Jbd2State} (h : SameTx j i) : SameFormat j i :=
  ⟨h.engine.2.1,h.engine.2.2.2.2,h.engine.2.2.1,h.feat.1,h.feat.2.1,h.feat.2.2.1,h.feat.2.2.2.2,
    h.feat.2.2.2.1⟩

lemma sameFormat_pushed (j : Jbd2State) (p e : ℕ) : SameFormat j (j.pushed p e) := by
  unfold pushed
  rw [refresh_eq]
  exact ⟨rfl,rfl,rfl,rfl,rfl,rfl,rfl,rfl⟩

/-- A commit that returned: its log, and what became of the engine. -/
structure World.LogWritten (G : Geometry) (p next : ℕ) (w w' : World) : Prop where
  nonempty : w.jbd2.txDirty≠[] ∨ w.jbd2.txRevokes≠[]
  reserved : ext4Jbd2ReserveRing w.jbd2 w.jbd2.totalBlocks=some (p,next)
  tags : 0<w.jbd2.tagsPerDesc
  running : w'.Running G
  ext4 : w'.ext4=w.ext4
  format : SameFormat (w.jbd2.reserved p next) w'.jbd2
  log : LogAt G (w.jbd2.reserved p next) w' p (txLog (w.jbd2.reserved p next))
  head : w'.jbd2.head=w.jbd2.pos p (txLog (w.jbd2.reserved p next)).length
  sequence : w'.jbd2.sequence=(w.jbd2.sequence+1)%2^32

lemma logWritten_of_commit (h : w.Running G) (ht : w.jbd2.txActive=true)
    (hrun : ext4Jbd2TxCommit.run w=(some (),w')) :
    (w.jbd2.txDirty=[] ∧ w.jbd2.txRevokes=[] ∧
      w'=w.setJbd2 fun j => {j with txEnospc := false, txActive := false}) ∨
    ∃ p next, LogWritten G p next w w' := by
  rcases wp_some (wp_txCommit_trailing h ht) hrun with
    hempty | ⟨p,next,w1,hne,hres,htags,-,h1,hcheck⟩
  · exact .inl hempty
  have hr1 := CommitPhases.running h h1
  have he := h.reserved p next
  have hwork := wp_some (backWork_worked.trailing Worked.tick hr1) hcheck
  have hj1 : (w1.setJbd2 closeTx).jbd2=closeTx ((w.jbd2.reserved p next).pushed p
      (w.jbd2.pos p (txLog (w.jbd2.reserved p next)).length)) := congrArg closeTx h1.jbd2
  refine .inr ⟨p,next,hne,hres,htags,hwork.running,hwork.touches.ext4.trans h1.touches.ext4,?_,?_,?_,?_⟩
  · refine SameFormat.trans ?_ hwork.sameTx.sameFormat
    rw [hj1]
    have hpush := sameFormat_pushed (w.jbd2.reserved p next) p
      (w.jbd2.pos p (txLog (w.jbd2.reserved p next)).length)
    exact hpush.trans ⟨rfl,rfl,rfl,rfl,rfl,rfl,rfl,rfl⟩
  · have hlog : LogAt G (w.jbd2.reserved p next) w1 p (txLog (w.jbd2.reserved p next)) :=
      CommitPhases.logAt he h1
    exact hwork.logAt hr1.engine he.onRing hlog
  · rw [hwork.sameTx.head,hj1]
    rfl
  · rw [hwork.sameTx.sequence,hj1]
    rfl

lemma World.Running.readJblock (h : w.Running G) {b : ℕ} (hb : w.jbd2.inRing b=true) :
    (w.ext4.readJblock w.jbd2.journalMeta b).eval w.rawView=some (w.jblock G b) := by
  rw [h.engine.inode]
  simp only [Jbd2State.inRing,Bool.and_eq_true,decide_eq_true_eq] at hb
  exact eval_readJblock h.engine.placed (by rw [← h.engine.maxlen]; exact hb.2)

lemma World.Running.block_lt (h : w.Running G) {b : ℕ} (hb : b<w.ext4.blocksCount) : b<2^64 := by
  have hfits := h.engine.placed.fits
  have hcap := h.engine.placed.cap
  have hpos := h.engine.placed.block_pos
  nlinarith

lemma tagBlock_le (j : Jbd2State) (b : ℕ) : tagBlock j b≤b := by
  unfold tagBlock
  split_ifs
  · exact le_rfl
  · exact Nat.mod_le _ _

section
variable (hl : LogWritten G p next w w')
include hl

lemma World.LogWritten.blockSize (h : w.Running G) :
    (w.jbd2.reserved p next).blockSize=w'.ext4.blockSize := by
  rw [hl.ext4]
  exact h.engine.block

lemma World.LogWritten.inLog (h : w.Running G) :
    InLog (w.jbd2.reserved p next) (w'.jblock G) p 0 (txLog (w.jbd2.reserved p next)) :=
  hl.log.inLog (hl.blockSize h) hl.running.engine.placed.block_pos

/-- The log lies between the old head and the new one, and recovery accepts it, unless an image
was escaped that has a checksum or a revoke was logged without the feature. -/
lemma World.LogWritten.txAt (h : w.Running G)
    (hseq : w.jbd2.sequence<2^32) (hintact : ∀ d∈w.jbd2.txDirty, Intact w.jbd2 d)
    (hrev : w.jbd2.txRevokes≠[] → hasFlag w.jbd2.featureIncompat jbd2FeatureIncompatRevoke=true) :
    TxAt w'.ext4 w'.jbd2 (w'.jblock G) w.jbd2.sequence (w.jbd2.clamp w.jbd2.head)
      (txItems (w.jbd2.reserved p next) p) w'.jbd2.head := by
  have he := h.reserved p next
  have hbs := hl.blockSize h
  have hsize : 64≤(w.jbd2.reserved p next).blockSize ∧ (w.jbd2.reserved p next).blockSize<2^32 := by
    rw [hbs]
    rcases hl.running.engine.placed.blockSize with hb | hb | hb <;> omega
  obtain ⟨-,-,hp,-⟩ := reserveRing_some hl.reserved
  have hreadable : Readable w'.ext4 (w.jbd2.reserved p next) := by
    refine ⟨fun d hd => ?_,fun b hb => h.block_lt (h.tx.revBound b hb),hrev⟩
    have hbound : d.fsBlock<w.ext4.blocksCount := h.tx.bound _ (List.mem_map_of_mem hd)
    refine ⟨h.block_lt hbound,?_,hintact d hd⟩
    rw [hl.ext4]
    exact (tagBlock_le _ _).trans_lt hbound
  have htx := txAt_txLog (j := w.jbd2.reserved p next) he.first hbs hsize.1 hsize.2 hl.tags hseq
    hreadable (hl.inLog h)
  have hp0 : (w.jbd2.reserved p next).pos p 0=w.jbd2.clamp w.jbd2.head := by
    rw [← hp]
    exact he.onRing.pos_zero (by
      rw [hp]
      exact h.engine.onRing.inRing_clamp _)
  rw [hp0] at htx
  rw [hl.head]
  exact hl.format.txAt htx

end

end Commit

/-- The log that a commit writes, for a journal without checksums and with revokes. The scan of
recovery goes round by round from the place where the log starts to the new head, and has then
collected the images of the transaction, unescaped, and its revokes; an empty transaction has no
log. -/
theorem ext4Jbd2TxCommit_parsed {G : Geometry} {w w' : World} (h : w.Running G)
    (ht : w.jbd2.txActive=true) (hseq : w.jbd2.sequence<2^32) (hcsum : w.jbd2.hasCsum=false)
    (hrev : hasFlag w.jbd2.featureIncompat jbd2FeatureIncompatRevoke=true)
    (hwide : w.jbd2.feat64bit=true ∨
      (∀ b∈blocksOf w.jbd2.txDirty, b<2^32) ∧ ∀ b∈w.jbd2.txRevokes, b<2^32)
    (hrun : ext4Jbd2TxCommit.run w=(some (),w')) :
    (w.jbd2.txDirty=[] ∧ w.jbd2.txRevokes=[] ∧ w'.rawView=w.rawView ∧ w'.jbd2.head=w.jbd2.head) ∨
    ∃ U : List Jbd2Update, List.Forall₂ (fun u d => u.fsBlock=d.fsBlock ∧ u.seq=w.jbd2.sequence ∧
        Buf.Agree (u.image (w'.jblock G)) d.data 0 w.jbd2.blockSize) U w.jbd2.txDirty ∧
      Relation.ReflTransGen (Advances w'.ext4 w'.jbd2 w'.rawView)
        ⟨w.jbd2.clamp w.jbd2.head,w.jbd2.sequence,[],[],[],[],0,false⟩
        ⟨w'.jbd2.head,w'.jbd2.sequence,U,w.jbd2.txRevokes.map fun b => ⟨b,w.jbd2.sequence⟩,
          [],[],1,false⟩ := by
  rcases logWritten_of_commit h ht hrun with ⟨hd,hr,rfl⟩ | ⟨p,next,hlog⟩
  · exact .inl ⟨hd,hr,rfl,rfl⟩
  set j := w.jbd2.reserved p next
  have he : (w.setJbd2 fun j => j.reserved p next).Engine G := h.reserved p next
  have hcount : w'.ext4.blocksCount=w.ext4.blocksCount := by rw [hlog.ext4]
  have htag : ∀ b∈blocksOf j.txDirty, tagBlock j b=b := by
    intro b hb
    rw [tagBlock]
    split_ifs with hw
    · rfl
    · have hnot : ¬ w.jbd2.feat64bit=true := fun h64 => hw (by rw [Bool.or_eq_true]; exact .inr h64)
      exact Nat.mod_eq_of_lt ((hwide.resolve_left hnot).1 b hb)
  have hrevb : ∀ b∈j.txRevokes, revBlock j b=b := by
    intro b hb
    rw [revBlock]
    split_ifs with hw
    · rfl
    · exact Nat.mod_eq_of_lt ((hwide.resolve_left hw).2 b hb)
  have htx := hlog.txAt h hseq (fun d _ hc => by
    rw [show w.jbd2.hasCsum=false from hcsum] at hc
    exact absurd hc (by simp)) fun _ => hrev
  have htxok : j.TxOk w'.ext4.blocksCount := by
    rw [hcount]
    exact h.tx.congr rfl rfl
  obtain ⟨U,hU,hread,hmerge⟩ := readItems_txItems hlog.format he.first hlog.tags htxok
    htag hrevb (hlog.inLog h)
  refine .inr ⟨U,hU,?_⟩
  have hstart : w'.jbd2.inRing (w.jbd2.clamp w.jbd2.head)=true := by
    rw [hlog.format.inRing]
    exact h.engine.onRing.inRing_clamp _
  have hadv := advances_tx (v := w'.rawView) hlog.running.engine.firstPos
    (fun b hb => hlog.running.readJblock hb) htx hstart
    (s := ⟨w.jbd2.clamp w.jbd2.head,w.jbd2.sequence,[],[],[],[],0,false⟩) rfl rfl
    (fun hnil => absurd hnil (txItems_ne_nil hlog.nonempty)) hread hmerge
  rw [hlog.sequence]
  exact hadv

/-- A block that starts with the magic number, in the small volume. -/
def escapingTx (feat seq : ℕ) : World := (fresh (fun _ _ => 0) feat seq).setJbd2 fun j =>
  {j with
    txActive := true, txDirty := [⟨40,Buf.zero.wrBe32 0 jbd2MagicNumber⟩], txRevokes := [41]}

lemma escapingTx_running (feat seq : ℕ) : (escapingTx feat seq).Running freshGeometry := by
  have h := fresh_running (fun _ _ => 0) feat seq
  refine ⟨h.engine.setJbd2 ⟨rfl,rfl,rfl,rfl,rfl⟩,rfl,h.pending,?_,?_,rfl⟩
  · exact ⟨show [40].Nodup by decide,show ∀ b∈[40], b<64 by decide,show 1≤256 by decide,
      show [41].Nodup by decide,show ∀ b∈[41], b<64 by decide,show 1≤512 by decide,
      show ∀ b∈[41], b∉[40] by decide⟩
  · intro b hb
    obtain rfl := List.mem_singleton.1 hb
    refine ⟨fun h => h,?_⟩
    rintro ⟨l,hl,h40⟩
    simp only [freshGeometry] at hl h40
    omega

/-- The image that starts with the magic number and the revoke are found again. -/
theorem ext4Jbd2TxCommit_parsed_escaped : ∃ w' U,
    ext4Jbd2TxCommit.run (escapingTx 1 7)=(some (),w') ∧
    List.Forall₂ (fun u d => u.fsBlock=d.fsBlock ∧ u.seq=7 ∧
      Buf.Agree (u.image (w'.jblock freshGeometry)) d.data 0 1024) U (escapingTx 1 7).jbd2.txDirty ∧
    Relation.ReflTransGen (Advances w'.ext4 w'.jbd2 w'.rawView) ⟨1,7,[],[],[],[],0,false⟩
      ⟨w'.jbd2.head,w'.jbd2.sequence,U,[⟨41,7⟩],[],[],1,false⟩ := by
  have hok : (ext4Jbd2TxCommit.run (escapingTx 1 7)).1=some () := by decide +kernel
  have hrun := run_of_fst hok
  rcases ext4Jbd2TxCommit_parsed (escapingTx_running 1 7) rfl (by decide) rfl (by decide)
    (.inr ⟨by decide,by decide⟩) hrun with ⟨hd,-⟩ | ⟨U,hU,hadv⟩
  · cases hd
  · exact ⟨_,U,hrun,hU,hadv⟩

end FuriOS
