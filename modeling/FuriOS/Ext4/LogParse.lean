import FuriOS.Ext4.CommitSpec
import FuriOS.Ext4.ReplayTables

/-! The log that a commit writes, read back by recovery: the tags, revoke entries and commit block
of a transaction are those of the log format, wherever in the ring the log lies. -/
namespace FuriOS
open Jbd2State Function

namespace Buf
variable {p q r : Buf} {off n v : ℕ} {a : ℕ}

lemma Agree.trans (h : Agree p q off n) (h' : Agree q r off n) : Agree p r off n := fun i h1 h2 =>
  (h i h1 h2).trans (h' i h1 h2)

lemma Agree.sub (h : Agree p q off n) {off' n' : ℕ} (h1 : off≤off') (h2 : off'+n'≤off+n) :
    Agree p q off' n' := fun i hi hi' => h i (by omega) (by omega)

lemma agree_wrBe32 (p : Buf) (h : off+n≤a ∨ a+4≤off) : Agree (p.wrBe32 a v) p off n :=
  fun i hi hi' => wrBe32_of_outside (by omega)

lemma agree_wrBe16 (p : Buf) (h : off+n≤a ∨ a+2≤off) : Agree (p.wrBe16 a v) p off n :=
  fun i hi hi' => wrBe16_of_outside (by omega)

lemma rdBe32_wrBe32_other (p : Buf) (h : off+4≤a ∨ a+4≤off) :
    (p.wrBe32 a v).rdBe32 off=p.rdBe32 off := rdBe32_congr (agree_wrBe32 p h)

lemma rdBe32_wrBe16_other (p : Buf) (h : off+4≤a ∨ a+2≤off) :
    (p.wrBe16 a v).rdBe32 off=p.rdBe32 off := rdBe32_congr (agree_wrBe16 p h)

lemma rdBe16_wrBe16_other (p : Buf) (h : off+2≤a ∨ a+2≤off) :
    (p.wrBe16 a v).rdBe16 off=p.rdBe16 off := rdBe16_congr (agree_wrBe16 p h)

lemma wrBe32_rdBe32 (p q : Buf) (h : ∀ i, i<off ∨ off+4 ≤ i → p i=q i) :
    p.wrBe32 off (q.rdBe32 off)=q := by
  funext i
  have h0 := (q off).toNat_lt
  have h1 := (q (off+1)).toNat_lt
  have h2 := (q (off+2)).toNat_lt
  have h3 := (q (off+3)).toNat_lt
  by_cases hi : i<off ∨ off+4 ≤ i
  · rw [wrBe32_of_outside hi,h i hi]
  · apply UInt8.toNat_inj.1
    obtain rfl | rfl | rfl | rfl : i=off ∨ i=off+1 ∨ i=off+2 ∨ i=off+3 := by omega
    all_goals simp [wrBe32,rdBe32] <;> omega

end Buf

section Checksums
variable {p q : Buf} {n off bs : ℕ}

lemma crcLoop_congr (h : Buf.Agree p q off n) (c : UInt32) :
    crcLoop p n off c=crcLoop q n off c := by
  induction n generalizing off c with
  | zero => rfl
  | succ n ih =>
    rw [crcLoop,crcLoop,h off le_rfl (by omega)]
    exact ih (h.sub (by omega) (by omega)) _

lemma crc32cUpdate_congr (h : Buf.Agree p q off n) (crc : ℕ) :
    crc32cUpdate crc p off n=crc32cUpdate crc q off n := by
  rw [crc32cUpdate,crc32cUpdate,crcLoop_congr h]

lemma crc32cUpdate_lt (crc : ℕ) (p : Buf) (off n : ℕ) : crc32cUpdate crc p off n<2^32 :=
  UInt32.toNat_lt _

lemma checksumWithHole_congr (hoff : off+4≤bs)
    (h : ∀ i<bs, i<off ∨ off+4 ≤ i → p i=q i) (seed : ℕ) :
    ext4Jbd2ChecksumWithHole seed p bs off=ext4Jbd2ChecksumWithHole seed q bs off := by
  have h1 : Buf.Agree p q 0 off := fun i _ hi => h i (by omega) (by omega)
  have h2 : Buf.Agree p q (off+4) (bs-off-4) := fun i hi hi' => h i (by omega) (by omega)
  simp only [ext4Jbd2ChecksumWithHole,crc32cUpdate_congr h1,crc32cUpdate_congr h2]

lemma rdBe32_checksumWithHole {seed : ℕ} (hoff : off+4≤bs)
    (h : Buf.Agree q ((p.wrBe32 off 0).wrBe32 off
      (ext4Jbd2ChecksumWithHole seed (p.wrBe32 off 0) bs off)) 0 bs) :
    q.rdBe32 off=ext4Jbd2ChecksumWithHole seed q bs off := by
  have hlt : ext4Jbd2ChecksumWithHole seed (p.wrBe32 off 0) bs off<2^32 := crc32cUpdate_lt _ _ _ _
  have hq : ext4Jbd2ChecksumWithHole seed (p.wrBe32 off 0) bs off =
      ext4Jbd2ChecksumWithHole seed q bs off := by
    apply checksumWithHole_congr hoff
    intro i hi hout
    rw [h i (by omega) (by omega),Buf.wrBe32_of_outside (v := ext4Jbd2ChecksumWithHole seed _ bs off) hout]
  rw [Buf.rdBe32_congr (h.sub (by omega) (by omega)),Buf.rdBe32_wrBe32,Nat.mod_eq_of_lt hlt,hq]

variable {j : Jbd2State} {blk : Buf}

lemma verifyTail_set (hsize : 4≤j.blockSize)
    (h : Buf.Agree blk (j.ext4Jbd2SetTailChecksum p) 0 j.blockSize) :
    j.ext4Jbd2VerifyTailChecksum blk=true := by
  unfold ext4Jbd2VerifyTailChecksum
  cases hc : j.hasCsum with
  | false => simp [hsize]
  | true =>
    have hset : j.ext4Jbd2SetTailChecksum p=(p.wrBe32 (j.blockSize-4) 0).wrBe32 (j.blockSize-4)
        (ext4Jbd2ChecksumWithHole j.csumSeed (p.wrBe32 (j.blockSize-4) 0) j.blockSize
          (j.blockSize-4)) := by
      unfold ext4Jbd2SetTailChecksum
      rw [hc,if_neg (by simp; omega)]
    rw [hset] at h
    simp [hsize,rdBe32_checksumWithHole (by omega) h]

lemma verifyCommit_set (hsize : jbd2CommitCsumOff+4≤j.blockSize)
    (h : Buf.Agree blk (j.ext4Jbd2SetCommitChecksum p) 0 j.blockSize) :
    j.ext4Jbd2VerifyCommitChecksum blk=true := by
  unfold ext4Jbd2VerifyCommitChecksum
  cases hc : j.hasCsum with
  | false => simp [hsize]
  | true =>
    unfold ext4Jbd2SetCommitChecksum at h
    rw [hc,if_neg (by simp; omega)] at h
    have hoff : jbd2CommitCsumOff=16 := rfl
    have htype : blk jbd2CommitCsumTypeOff=UInt8.ofNat jbd2Crc32cChksum := by
      rw [h _ (by omega) (by simp only [jbd2CommitCsumTypeOff]; omega),
        Buf.wrBe32_of_outside (.inl (by decide)),Buf.wrBe32_of_outside (.inl (by decide)),
        update_of_ne (by decide),update_self]
    have hlen : blk jbd2CommitCsumSizeOff=4 := by
      rw [h _ (by omega) (by simp only [jbd2CommitCsumSizeOff]; omega),
        Buf.wrBe32_of_outside (.inl (by decide)),Buf.wrBe32_of_outside (.inl (by decide)),
        update_self]
    rw [htype,hlen,rdBe32_checksumWithHole hsize h]
    simp [hsize]
    decide

lemma setTail_agree (p : Buf) (h : off+n+j.tailBytes≤j.blockSize) :
    Buf.Agree (j.ext4Jbd2SetTailChecksum p) p off n := by
  unfold ext4Jbd2SetTailChecksum
  split_ifs with hc
  · exact fun i _ _ => rfl
  · simp only [Bool.or_eq_true,Bool.not_eq_true',decide_eq_true_eq,not_or] at hc
    rw [tailBytes,if_pos (by simpa using hc.1)] at h
    exact (Buf.agree_wrBe32 _ (.inl (by omega))).trans (Buf.agree_wrBe32 _ (.inl (by omega)))

end Checksums

section Tags
variable {fs : Ext4Fs} {j : Jbd2State} {blk desc : Buf} {d : Jbd2Dirty} {seq off : ℕ} {last : Bool}

/-- The block number that a tag has room for. -/
def tagBlock (j : Jbd2State) (b : ℕ) : ℕ := if j.csumV3 || j.feat64bit then b else b%2^32

def tagSum (j : Jbd2State) (seq : ℕ) (data : Buf) : ℕ :=
  if j.csumV3 then j.ext4Jbd2DataChecksum32 seq data
  else if j.csumV2 then j.ext4Jbd2DataChecksum32 seq data%2^16 else 0

lemma tagFlags_lt (data : Buf) (last : Bool) : tagFlags data last<16 := by
  unfold tagFlags
  cases escapes data <;> cases last <;> decide

lemma hasFlag_sameUuid (data : Buf) (last : Bool) :
    hasFlag (tagFlags data last) jbd2FlagSameUuid=true := by
  unfold tagFlags
  cases escapes data <;> cases last <;> decide

lemma hasFlag_escape (data : Buf) (last : Bool) :
    hasFlag (tagFlags data last) jbd2FlagEscape=escapes data := by
  unfold tagFlags
  cases escapes data <;> cases last <;> decide

lemma hasFlag_deleted (data : Buf) (last : Bool) :
    hasFlag (tagFlags data last) jbd2FlagDeleted=false := by
  unfold tagFlags
  cases escapes data <;> cases last <;> decide

lemma hasFlag_lastTag (data : Buf) (last : Bool) :
    hasFlag (tagFlags data last) jbd2FlagLastTag=last := by
  unfold tagFlags
  cases escapes data <;> cases last <;> decide

lemma dataChecksum_lt (j : Jbd2State) (seq : ℕ) (data : Buf) :
    j.ext4Jbd2DataChecksum32 seq data<2^32 := crc32cUpdate_lt _ _ _ _

lemma readTag_putTag {bs : ℕ} (hb : d.fsBlock<2^64) (hroom : off+j.ext4Jbd2TxTagBytes≤bs)
    (h : Buf.Agree blk (putTag j seq desc off d last) off j.ext4Jbd2TxTagBytes) :
    readTag bs j blk off=some ⟨tagBlock j d.fsBlock,tagFlags d.data last,tagSum j seq d.data,
      off+j.ext4Jbd2TxTagBytes⟩ := by
  have hflags := tagFlags_lt d.data last
  have hsum := dataChecksum_lt j seq d.data
  have huuid := hasFlag_sameUuid d.data last
  unfold readTag
  rw [if_neg (by omega)]
  unfold ext4Jbd2TxTagBytes at h ⊢
  unfold putTag at h
  dsimp only at h ⊢
  unfold tagBlock tagSum
  cases hv3 : j.csumV3 with
  | true =>
    simp only [hv3,if_true] at h
    simp only [if_true,Bool.true_or]
    have h1 : blk.rdBe32 off=d.fsBlock%2^32 := by
      rw [Buf.rdBe32_congr (h.sub le_rfl (by omega)),Buf.rdBe32_wrBe32_other _ (by omega),
        Buf.rdBe32_wrBe32_other _ (by omega),Buf.rdBe32_wrBe32_other _ (by omega),Buf.rdBe32_wrBe32]
    have h2 : blk.rdBe32 (off+4)=tagFlags d.data last := by
      rw [Buf.rdBe32_congr (h.sub (by omega) (by omega)),Buf.rdBe32_wrBe32_other _ (by omega),
        Buf.rdBe32_wrBe32_other _ (by omega),Buf.rdBe32_wrBe32]
      omega
    have h3 : blk.rdBe32 (off+8)=d.fsBlock/2^32 := by
      rw [Buf.rdBe32_congr (h.sub (by omega) (by omega)),Buf.rdBe32_wrBe32_other _ (by omega),
        Buf.rdBe32_wrBe32]
      omega
    have h4 : blk.rdBe32 (off+12)=j.ext4Jbd2DataChecksum32 seq d.data := by
      rw [Buf.rdBe32_congr (h.sub (by omega) (by omega)),Buf.rdBe32_wrBe32]
      omega
    have h5 : d.fsBlock%2^32+d.fsBlock/2^32*2^32=d.fsBlock := by omega
    rw [h1,h2,h3,h4,h5,if_pos huuid]
  | false =>
    simp only [hv3,Bool.false_eq_true,if_false] at h
    simp only [Bool.false_eq_true,if_false,Bool.false_or]
    have hlow : Buf.Agree blk (((desc.wrBe32 off d.fsBlock).wrBe16 (off+4)
          (if j.csumV2 then j.ext4Jbd2DataChecksum32 seq d.data else 0)).wrBe16 (off+6)
          (tagFlags d.data last)) off 8 →
        blk.rdBe32 off=d.fsBlock%2^32 ∧ blk.rdBe16 (off+6)=tagFlags d.data last ∧
        blk.rdBe16 (off+4) = if j.csumV2 then j.ext4Jbd2DataChecksum32 seq d.data%2^16 else 0 := by
      intro hbc
      refine ⟨?_,?_,?_⟩
      · rw [Buf.rdBe32_congr (hbc.sub le_rfl (by omega)),Buf.rdBe32_wrBe16_other _ (by omega),
          Buf.rdBe32_wrBe16_other _ (by omega),Buf.rdBe32_wrBe32]
      · rw [Buf.rdBe16_congr (hbc.sub (by omega) (by omega)),Buf.rdBe16_wrBe16]
        omega
      · rw [Buf.rdBe16_congr (hbc.sub (by omega) (by omega)),Buf.rdBe16_wrBe16_other _ (by omega),
          Buf.rdBe16_wrBe16]
        split_ifs <;> rfl
    cases h64 : j.feat64bit with
    | true =>
      simp only [h64,if_true] at h ⊢
      obtain ⟨h1,h2,h3⟩ := hlow ((h.sub le_rfl (by omega)).trans (Buf.agree_wrBe32 _ (.inl le_rfl)))
      have h4 : blk.rdBe32 (off+8)=d.fsBlock/2^32 := by
        rw [Buf.rdBe32_congr (h.sub (by omega) (by omega)),Buf.rdBe32_wrBe32]
        omega
      have h5 : d.fsBlock%2^32+d.fsBlock/2^32*2^32=d.fsBlock := by omega
      rw [h1,h2,h3,h4,h5,if_pos huuid]
    | false =>
      simp only [h64,Bool.false_eq_true,if_false] at h ⊢
      obtain ⟨h1,h2,h3⟩ := hlow h
      rw [h1,h2,h3,if_pos huuid,Nat.add_zero]

lemma putTag_of_lt {i : ℕ} (hi : i<off) : putTag j seq desc off d last i=desc i := by
  have h32 : ∀ (c : Buf) (k v : ℕ), c.wrBe32 (off+k) v i=c i := fun c k v =>
    Buf.wrBe32_of_outside (by omega)
  have h16 : ∀ (c : Buf) (k v : ℕ), c.wrBe16 (off+k) v i=c i := fun c k v =>
    Buf.wrBe16_of_outside (by omega)
  have h0 : ∀ v : ℕ, desc.wrBe32 off v i=desc i := fun v => Buf.wrBe32_of_outside (by omega)
  unfold putTag
  by_cases hv3 : j.csumV3=true
  · rw [if_pos hv3,h32,h32,h32,h0]
  rw [if_neg hv3]
  by_cases h64 : j.feat64bit=true
  · rw [if_pos h64,h32,h16,h16,h0]
  · rw [if_neg h64,h16,h16,h0]

lemma putTags_of_lt (ds : List Jbd2Dirty) {i : ℕ} (hi : i<off) :
    putTags j seq ds desc off i=desc i := by
  induction ds generalizing desc off with
  | nil => rfl
  | cons d ds ih => rw [putTags,ih (by omega),putTag_of_lt hi]

/-- The image in the log is the one that the checksum of its tag is about. -/
def Intact (j : Jbd2State) (d : Jbd2Dirty) : Prop := j.hasCsum=true → escapes d.data=false

lemma tagSumOk_of_intact {img : Buf} {t : Jbd2Tag} (hi : Intact j d)
    (himg : Buf.Agree img (escaped d.data) 0 j.blockSize) (ht : t.sum=tagSum j seq d.data) :
    tagSumOk j seq t img=true := by
  unfold tagSumOk
  cases hc : j.hasCsum with
  | false => rfl
  | true =>
    rw [escaped,hi hc] at himg
    have hsum : j.ext4Jbd2DataChecksum32 seq img=j.ext4Jbd2DataChecksum32 seq d.data :=
      crc32cUpdate_congr himg _
    rw [ht,hsum,tagSum]
    cases hv3 : j.csumV3 with
    | true => simp
    | false =>
      have hv2 : j.csumV2=true := by simpa [Jbd2State.hasCsum,hv3] using hc
      simp [hv2]

/-- The entries of the images that lie in the log from position `k` after `p` on. -/
def entriesAt (j : Jbd2State) (p : ℕ) : ℕ → List Jbd2Dirty → List LogEntry
  | _,[] => []
  | k,d::ds => ⟨tagBlock j d.fsBlock,j.pos p k,escapes d.data,false⟩::entriesAt j p (k+1) ds

lemma tagsAt_putTags {rd : ℕ → Buf} {p k : ℕ} (hf : j.first<j.maxlen) {ds : List Jbd2Dirty}
    (hne : ds≠[]) (hsize : off+ds.length*j.ext4Jbd2TxTagBytes≤fs.blockSize)
    (htags : Buf.Agree blk (putTags j seq ds desc off) off (ds.length*j.ext4Jbd2TxTagBytes))
    (hdata : ∀ i d, ds[i]?=some d → Buf.Agree (rd (j.pos p (k+i))) (escaped d.data) 0 j.blockSize)
    (hb : ∀ d∈ds, d.fsBlock<2^64 ∧ tagBlock j d.fsBlock<fs.blocksCount)
    (hi : ∀ d∈ds, Intact j d) :
    TagsAt fs j rd blk seq off (j.pos p k) (entriesAt j p k ds) (j.pos p (k+ds.length)) := by
  induction ds generalizing desc off k with
  | nil => exact absurd rfl hne
  | cons d ds ih =>
    have hbytes : 8≤j.ext4Jbd2TxTagBytes := by
      unfold ext4Jbd2TxTagBytes
      split_ifs <;> omega
    rw [List.length_cons,Nat.add_mul,Nat.one_mul] at hsize htags
    obtain ⟨hd64,hdb⟩ := hb d List.mem_cons_self
    have htag : Buf.Agree blk (putTag j seq desc off d ds.isEmpty) off j.ext4Jbd2TxTagBytes := by
      intro i h1 h2
      rw [htags i h1 (by omega),putTags,putTags_of_lt ds h2]
    have hread : readTag fs.blockSize j blk off=_ := readTag_putTag hd64 (by omega) htag
    have hdata0 := hdata 0 d rfl
    rw [Nat.add_zero] at hdata0
    have hok : TagOk fs j rd blk seq off (j.pos p k) _ := ⟨by omega,hread,tagFlags_lt _ _,hdb,
      tagSumOk_of_intact (hi d List.mem_cons_self) hdata0 rfl⟩
    have hnext : j.nextBlock (j.pos p k)=j.pos p (k+1) := nextBlock_ringPos hf
    have hentry : Jbd2Tag.entry ⟨tagBlock j d.fsBlock,tagFlags d.data ds.isEmpty,
        tagSum j seq d.data,off+j.ext4Jbd2TxTagBytes⟩ (j.pos p k) =
        ⟨tagBlock j d.fsBlock,j.pos p k,escapes d.data,false⟩ := by
      rw [Jbd2Tag.entry,hasFlag_escape,hasFlag_deleted]
    rw [entriesAt,← hentry]
    cases ds with
    | nil =>
      rw [List.length_singleton,← hnext]
      exact .last hok (hasFlag_lastTag _ _)
    | cons d' ds =>
      refine .more hok (hasFlag_lastTag _ _) ?_
      rw [hnext,show k+(d::d'::ds).length=k+1+(d'::ds).length by simp only [List.length_cons]; omega]
      apply ih (by simp) (by omega) (htags.sub (by omega) (by omega))
      · intro i d1 hd1
        have := hdata (i+1) d1 hd1
        rwa [show k+(i+1)=k+1+i by omega] at this
      · exact fun d1 hd1 => hb d1 (List.mem_cons_of_mem _ hd1)
      · exact fun d1 hd1 => hi d1 (List.mem_cons_of_mem _ hd1)

end Tags

section Blocks
variable {fs : Ext4Fs} {j : Jbd2State} {rd : ℕ → Buf} {blk : Buf} {p k seq : ℕ}
variable {L : List Buf} {n r off : ℕ} {items : List LogItem} {c : Buf} {bs : List ℕ}

/-- The log holds the blocks from position `k` after `p` on. -/
def InLog (j : Jbd2State) (rd : ℕ → Buf) (p k : ℕ) (L : List Buf) : Prop :=
  ∀ i blk, L[i]?=some blk → Buf.Agree (rd (j.pos p (k+i))) blk 0 j.blockSize

lemma InLog.cons (h : InLog j rd p k (blk::L)) :
    Buf.Agree (rd (j.pos p k)) blk 0 j.blockSize ∧ InLog j rd p (k+1) L := by
  refine ⟨by simpa using h 0 blk rfl,?_⟩
  intro i b hb
  have := h (i+1) b hb
  rwa [show k+(i+1)=k+1+i by omega] at this

lemma InLog.append {L' : List Buf} (h : InLog j rd p k (L++L')) :
    InLog j rd p k L ∧ InLog j rd p (k+L.length) L' := by
  constructor
  · intro i b hb
    obtain ⟨hi,-⟩ := List.getElem?_eq_some_iff.1 hb
    exact h i b (by rw [List.getElem?_append_left hi,hb])
  · intro i b hb
    have := h (L.length+i) b (by rw [List.getElem?_append_right (by omega)]; simpa using hb)
    rwa [← Nat.add_assoc] at this

lemma isHeader_logHeader {type : ℕ} (h : Buf.Agree blk (logHeader type seq) 0 12) (ht : type<2^32)
    (hs : seq<2^32) : isHeader blk type seq := by
  refine ⟨?_,?_,?_⟩
  · rw [jbd2HdrMagicOff,Buf.rdBe32_congr (h.sub le_rfl (by omega)),logHeader,jbd2HdrMagicOff,
      jbd2HdrTypeOff,jbd2HdrSeqOff,Buf.rdBe32_wrBe32_other _ (by omega),
      Buf.rdBe32_wrBe32_other _ (by omega),Buf.rdBe32_wrBe32]
    decide
  · rw [jbd2HdrTypeOff,Buf.rdBe32_congr (h.sub (by omega) (by omega)),logHeader,jbd2HdrTypeOff,
      jbd2HdrSeqOff,Buf.rdBe32_wrBe32_other _ (by omega),Buf.rdBe32_wrBe32,Nat.mod_eq_of_lt ht]
  · rw [jbd2HdrSeqOff,Buf.rdBe32_congr (h.sub (by omega) (by omega)),logHeader,jbd2HdrSeqOff,
      Buf.rdBe32_wrBe32,Nat.mod_eq_of_lt hs]

/-- The descriptor blocks of the images, as recovery takes them in. -/
def descriptorItems (j : Jbd2State) (p : ℕ) : ℕ → ℕ → List Jbd2Dirty → List LogItem
  | 0,_,_ => []
  | fuel+1,k,ds =>
    if ds.isEmpty then [] else
      .images (entriesAt j p (k+1) (ds.take j.tagsPerDesc))::
        descriptorItems j p fuel (k+1+(ds.take j.tagsPerDesc).length) (ds.drop j.tagsPerDesc)

lemma tags_fit (ht : 0<j.tagsPerDesc) (hn : n≤j.tagsPerDesc) :
    12+n*j.ext4Jbd2TxTagBytes+j.tailBytes≤j.blockSize := by
  have hpos : 0<j.ext4Jbd2TxTagBytes := by
    unfold ext4Jbd2TxTagBytes
    split_ifs <;> omega
  have h1 : n*j.ext4Jbd2TxTagBytes≤j.blockSize-12-j.tailBytes :=
    (Nat.mul_le_mul_right _ hn).trans (Nat.div_mul_le_self _ _)
  have h2 : j.ext4Jbd2TxTagBytes≤j.blockSize-12-j.tailBytes := by
    by_contra hlt
    rw [tagsPerDesc,Nat.div_eq_of_lt (by omega)] at ht
    omega
  omega

/-- What the blocks of a transaction must satisfy to be found again. -/
structure Loggable (fs : Ext4Fs) (j : Jbd2State) (d : Jbd2Dirty) : Prop where
  wide : d.fsBlock<2^64
  bound : tagBlock j d.fsBlock<fs.blocksCount
  intact : Intact j d

lemma txAt_descriptors (hf : j.first<j.maxlen) (hbs : j.blockSize=fs.blockSize)
    (ht : 0<j.tagsPerDesc) (hs : seq<2^32) (fuel : ℕ) {ds : List Jbd2Dirty} (hd : ∀ d∈ds, Loggable fs j d)
    (h : InLog j rd p k (descriptorLog j seq fuel ds))
    (hrest : TxAt fs j rd seq (j.pos p (k+(descriptorLog j seq fuel ds).length)) items r) :
    TxAt fs j rd seq (j.pos p k) (descriptorItems j p fuel k ds++items) r := by
  induction fuel generalizing k ds with
  | zero => exact hrest
  | succ fuel ih =>
    rw [descriptorLog] at h hrest
    rw [descriptorItems]
    split_ifs at h hrest ⊢ with hne
    · exact hrest
    obtain ⟨h1,h2⟩ := h.append
    obtain ⟨h0,h1⟩ := h1.cons
    set ts := ds.take j.tagsPerDesc with hts
    have hlen : ts.length≤j.tagsPerDesc := List.length_take_le _ _
    have hfit := tags_fit ht hlen
    have hnil : ts≠[] := by
      intro hnil
      rw [List.isEmpty_iff] at hne
      exact hne (by simpa [hts,Nat.ne_of_gt ht] using hnil)
    have hin : ∀ d∈ts, Loggable fs j d := fun d hdm => hd d (List.mem_of_mem_take hdm)
    have hblk : Buf.Agree (rd (j.pos p k)) (putTags j seq ts (logHeader jbd2DescriptorBlock seq) 12) 0
        (12+ts.length*j.ext4Jbd2TxTagBytes) :=
      (h0.sub le_rfl (by omega)).trans (setTail_agree _ (by omega))
    have hheader : Buf.Agree (rd (j.pos p k)) (logHeader jbd2DescriptorBlock seq) 0 12 :=
      (hblk.sub le_rfl (by omega)).trans fun i _ hi => putTags_of_lt ts (by omega)
    have hnext : j.nextBlock (j.pos p k)=j.pos p (k+1) := nextBlock_ringPos hf
    rw [List.cons_append]
    refine .desc (isHeader_logHeader hheader (by decide) hs) (verifyTail_set (by omega) h0)
      (q := j.pos p (k+1+ts.length)) ?_ (ih (fun d hdm => hd d (List.mem_of_mem_drop hdm)) ?_ ?_)
    · rw [hnext]
      apply tagsAt_putTags hf hnil (by omega) (hblk.sub (by omega) (by omega)) _
        (fun d hdm => ⟨(hin d hdm).wide,(hin d hdm).bound⟩) fun d hdm => (hin d hdm).intact
      intro i d hdi
      exact h1 i _ (by rw [List.getElem?_map,hdi]; rfl)
    · rw [List.length_cons,List.length_map] at h2
      rwa [show k+1+ts.length=k+(ts.length+1) by omega]
    · rw [List.length_append,List.length_cons,List.length_map] at hrest
      rwa [show k+1+ts.length=k+(ts.length+1) by omega,Nat.add_assoc]

/-- The block number that an entry of a revoke block has room for. -/
def revBlock (j : Jbd2State) (b : ℕ) : ℕ := if j.feat64bit then b else b%2^32

lemma putRevokes_snd (bs : List ℕ) (c : Buf) (off : ℕ) :
    (putRevokes j bs c off).2=off+bs.length*j.revokeEntryBytes := by
  induction bs generalizing c off with
  | nil => simp [putRevokes]
  | cons b bs ih =>
    rw [putRevokes,ih,List.length_cons,Nat.add_mul,Nat.one_mul]
    omega

lemma putRevokes_of_lt (bs : List ℕ) {i : ℕ} (hi : i<off) : (putRevokes j bs c off).1 i=c i := by
  induction bs generalizing c off with
  | nil => rfl
  | cons b bs ih =>
    rw [putRevokes,ih (by omega)]
    split_ifs
    · rw [Buf.wrBe32_of_outside (by omega),Buf.wrBe32_of_outside (by omega)]
    · rw [Buf.wrBe32_of_outside (by omega)]

lemma revokesAt_putRevokes (hb : ∀ b∈bs, b<2^64)
    (h : Buf.Agree blk (putRevokes j bs c off).1 off (bs.length*j.revokeEntryBytes)) :
    RevokesAt j blk (off+bs.length*j.revokeEntryBytes) off (bs.map (revBlock j)) := by
  induction bs generalizing c off with
  | nil => simpa using RevokesAt.nil
  | cons b bs ih =>
    rw [List.length_cons,Nat.add_mul,Nat.one_mul] at h ⊢
    rw [putRevokes] at h
    have hb64 := hb b List.mem_cons_self
    have hentry : revokeEntry j blk off=revBlock j b := by
      have hput : ∀ i, off ≤ i → i<off+j.revokeEntryBytes →
          blk i=(if j.feat64bit then (c.wrBe32 off b).wrBe32 (off+4) (b/2^32)
            else c.wrBe32 off b) i := fun i h1 h2 => by
        rw [h i h1 (by omega),putRevokes_of_lt bs h2]
      unfold revokeEntryBytes at hput
      unfold revokeEntry revBlock
      cases h64 : j.feat64bit with
      | true =>
        simp only [h64,if_true] at hput ⊢
        rw [Buf.rdBe32_congr (q := (c.wrBe32 off b).wrBe32 (off+4) (b/2^32))
            (fun i h1 h2 => hput i h1 (by omega)),
          Buf.rdBe32_congr (p := blk) (q := (c.wrBe32 off b).wrBe32 (off+4) (b/2^32))
            (fun i h1 h2 => hput i (by omega) (by omega)),
          Buf.rdBe32_wrBe32_other _ (by omega),Buf.rdBe32_wrBe32,Buf.rdBe32_wrBe32]
        omega
      | false =>
        simp only [h64,Bool.false_eq_true,if_false] at hput ⊢
        rw [Buf.rdBe32_congr hput,Buf.rdBe32_wrBe32,Nat.add_zero]
    rw [List.map_cons,← hentry,show off+(bs.length*j.revokeEntryBytes+j.revokeEntryBytes) =
      off+j.revokeEntryBytes+bs.length*j.revokeEntryBytes by omega]
    exact .cons (by omega) (ih (fun b' hb' => hb b' (List.mem_cons_of_mem _ hb'))
      (h.sub (by omega) (by omega)))

lemma revokes_fit (hsize : 64≤j.blockSize) (hn : n≤j.revokePerBlock) :
    16+n*j.revokeEntryBytes+j.tailBytes≤j.blockSize := by
  have hentry : j.revokeEntryBytes≤8 := by
    unfold revokeEntryBytes
    split_ifs <;> omega
  have htail : j.tailBytes≤4 := by
    unfold tailBytes
    split_ifs <;> omega
  have hmul := Nat.mul_le_mul_right j.revokeEntryBytes hn
  unfold revokePerBlock at hmul
  rw [jbd2RevokeEntriesOff] at hmul
  dsimp only at hmul
  split_ifs at hmul
  · omega
  · have := Nat.div_mul_le_self (j.blockSize-16-j.tailBytes) j.revokeEntryBytes
    omega

lemma revokeBlock_eq (bs : List ℕ) : revokeBlock j seq bs=j.ext4Jbd2SetTailChecksum
    ((putRevokes j bs (logHeader jbd2RevokeBlock seq) 16).1.wrBe32 12
      (16+bs.length*j.revokeEntryBytes)) := by
  rw [← putRevokes_snd bs (logHeader jbd2RevokeBlock seq) 16]
  rfl

lemma revokeBlock_read (hsize : 64≤j.blockSize) (hlt : j.blockSize<2^32)
    (hbs : j.blockSize=fs.blockSize) (hs : seq<2^32)
    (hrev : hasFlag j.featureIncompat jbd2FeatureIncompatRevoke=true)
    (hn : bs.length≤j.revokePerBlock) (hb : ∀ b∈bs, b<2^64)
    (h : Buf.Agree blk (revokeBlock j seq bs) 0 j.blockSize) :
    isHeader blk jbd2RevokeBlock seq ∧ RevokeBlockOk fs j blk (bs.map (revBlock j)) := by
  have hfit := revokes_fit hsize hn
  rw [revokeBlock_eq] at h
  have hcut : Buf.Agree blk _ 0 (16+bs.length*j.revokeEntryBytes) := h.sub le_rfl (by omega)
  have hblk := hcut.trans (setTail_agree _ (by omega))
  have hheader : Buf.Agree blk (logHeader jbd2RevokeBlock seq) 0 12 := by
    intro i h1 h2
    rw [hblk i h1 (by omega),Buf.wrBe32_of_outside (by omega),putRevokes_of_lt bs (by omega)]
  have hused : blk.rdBe32 jbd2RevokeCountOff=16+bs.length*j.revokeEntryBytes := by
    rw [jbd2RevokeCountOff,Buf.rdBe32_congr (hblk.sub (by omega) (by omega)),Buf.rdBe32_wrBe32]
    omega
  refine ⟨isHeader_logHeader hheader (by decide) hs,hrev,verifyTail_set (by omega) h,?_,?_⟩
  · rw [hused,jbd2RevokeEntriesOff]
    omega
  · rw [hused,jbd2RevokeEntriesOff]
    apply revokesAt_putRevokes hb
    intro i h1 h2
    rw [hblk i (by omega) (by omega),Buf.wrBe32_of_outside (by omega)]

/-- The revoke blocks, as recovery takes them in. -/
def revokeItems (j : Jbd2State) : ℕ → List ℕ → List LogItem
  | 0,_ => []
  | fuel+1,bs =>
    if bs.isEmpty then [] else
      .revokes ((bs.take j.revokePerBlock).map (revBlock j))::
        revokeItems j fuel (bs.drop j.revokePerBlock)

lemma txAt_revokes (hf : j.first<j.maxlen) (hbs : j.blockSize=fs.blockSize)
    (hsize : 64≤j.blockSize) (hlt : j.blockSize<2^32) (hs : seq<2^32) (fuel : ℕ)
    (hrev : bs≠[] → hasFlag j.featureIncompat jbd2FeatureIncompatRevoke=true) (hb : ∀ b∈bs, b<2^64)
    (h : InLog j rd p k (revokeLog j seq fuel bs))
    (hrest : TxAt fs j rd seq (j.pos p (k+(revokeLog j seq fuel bs).length)) items r) :
    TxAt fs j rd seq (j.pos p k) (revokeItems j fuel bs++items) r := by
  induction fuel generalizing k bs with
  | zero => exact hrest
  | succ fuel ih =>
    rw [revokeLog] at h hrest
    rw [revokeItems]
    split_ifs at h hrest ⊢ with hne
    · exact hrest
    obtain ⟨h0,h1⟩ := h.cons
    have hfeat := hrev (by simpa using hne)
    obtain ⟨hheader,hok⟩ := revokeBlock_read hsize hlt hbs hs hfeat
      (List.length_take_le _ _) (fun b hbm => hb b (List.mem_of_mem_take hbm)) h0
    have hnext : j.nextBlock (j.pos p k)=j.pos p (k+1) := nextBlock_ringPos hf
    rw [List.cons_append]
    apply TxAt.revoke hheader hok
    rw [hnext]
    apply ih (fun _ => hfeat) (fun b hbm => hb b (List.mem_of_mem_drop hbm)) h1
    rw [List.length_cons] at hrest
    rwa [Nat.add_assoc,Nat.add_comm 1]

lemma txAt_commit (hf : j.first<j.maxlen) (hsize : 64≤j.blockSize) (hs : seq<2^32)
    (h : InLog j rd p k [commitBlock j seq]) :
    TxAt fs j rd seq (j.pos p k) [] (j.pos p (k+1)) := by
  obtain ⟨h0,-⟩ := h.cons
  have hheader : Buf.Agree (rd (j.pos p k)) (logHeader jbd2CommitBlock seq) 0 12 := by
    apply (h0.sub le_rfl (by omega)).trans
    intro i _ hi
    unfold commitBlock ext4Jbd2SetCommitChecksum
    split_ifs
    · rfl
    · dsimp only
      rw [Buf.wrBe32_of_outside (.inl (by rw [jbd2CommitCsumOff]; omega)),
        Buf.wrBe32_of_outside (.inl (by rw [jbd2CommitCsumOff]; omega)),
        update_of_ne (by rw [jbd2CommitCsumSizeOff]; omega),
        update_of_ne (by rw [jbd2CommitCsumTypeOff]; omega)]
  have hnext : j.nextBlock (j.pos p k)=j.pos p (k+1) := nextBlock_ringPos hf
  rw [← hnext]
  exact .commit (isHeader_logHeader hheader (by decide) hs)
    (verifyCommit_set (by rw [jbd2CommitCsumOff]; omega) h0)

/-- The log of the open transaction, as recovery takes it in. -/
def txItems (j : Jbd2State) (p : ℕ) : List LogItem :=
  descriptorItems j p j.txDirty.length 0 j.txDirty++revokeItems j j.txRevokes.length j.txRevokes

lemma txItems_ne_nil (h : j.txDirty≠[] ∨ j.txRevokes≠[]) : txItems j p≠[] := by
  intro hnil
  obtain ⟨h1,h2⟩ := List.append_eq_nil_iff.1 hnil
  rcases h with h | h
  · obtain ⟨d,ds,hd⟩ := List.exists_cons_of_ne_nil h
    simp [hd,descriptorItems] at h1
  · obtain ⟨b,bs,hb⟩ := List.exists_cons_of_ne_nil h
    simp [hb,revokeItems] at h2

/-- What the open transaction must satisfy for recovery to accept its log. -/
structure Readable (fs : Ext4Fs) (j : Jbd2State) : Prop where
  dirty : ∀ d∈j.txDirty, Loggable fs j d
  revokes : ∀ b∈j.txRevokes, b<2^64
  feature : j.txRevokes≠[] → hasFlag j.featureIncompat jbd2FeatureIncompatRevoke=true

lemma txAt_txLog (hf : j.first<j.maxlen) (hbs : j.blockSize=fs.blockSize)
    (hsize : 64≤j.blockSize) (hlt : j.blockSize<2^32) (ht : 0<j.tagsPerDesc)
    (hs : j.sequence<2^32) (hr : Readable fs j) (h : InLog j rd p 0 (txLog j)) :
    TxAt fs j rd j.sequence (j.pos p 0) (txItems j p) (j.pos p (txLog j).length) := by
  obtain ⟨h1,h2⟩ := h.append
  obtain ⟨h2,h3⟩ := h2.append
  have hcommit : TxAt fs j rd j.sequence _ [] _ := txAt_commit hf hsize hs h3
  rw [show (txLog j).length=0+(descriptorLog j j.sequence j.txDirty.length j.txDirty).length+
    (revokeLog j j.sequence j.txRevokes.length j.txRevokes).length+1 by
      rw [txLog,List.length_append,List.length_append,List.length_singleton]; omega]
  apply txAt_descriptors hf hbs ht hs _ hr.dirty h1
  have hrevs := txAt_revokes hf hbs hsize hlt hs _ hr.feature hr.revokes h2 hcommit
  rwa [List.append_nil] at hrevs

end Blocks

section Collect
variable {fs : Ext4Fs} {j : Jbd2State} {rd : ℕ → Buf} {p k seq : ℕ}
variable {ds : List Jbd2Dirty} {fuel : ℕ} {bs : List ℕ} {us : List Jbd2Update} {rs : List Jbd2Revoke}

/-- An entry of the log that has the image of `d`. -/
structure EntryOf (j : Jbd2State) (rd : ℕ → Buf) (e : LogEntry) (d : Jbd2Dirty) : Prop where
  block : e.fsBlock=tagBlock j d.fsBlock
  kept : e.deleted=false
  ring : j.inRing e.jBlock=true
  image : Buf.Agree (e.image rd) d.data 0 j.blockSize

lemma unescaped_agree {img data : Buf} {n : ℕ} (h : Buf.Agree img (escaped data) 0 n) :
    Buf.Agree (unescaped (escapes data) img) data 0 n := by
  intro i h1 h2
  unfold unescaped
  unfold escaped at h
  split_ifs at h ⊢ with he
  · have hmagic : data.rdBe32 0=jbd2MagicNumber := by simpa [escapes] using he
    by_cases hi : i<4
    · rw [← hmagic]
      have hback : (data.wrBe32 0 0).wrBe32 0 (data.rdBe32 0) i=data i :=
        congrFun (Buf.wrBe32_rdBe32 _ data fun a ha => Buf.wrBe32_of_outside ha) i
      rw [← hback]
      obtain rfl | rfl | rfl | rfl : i=0 ∨ i=1 ∨ i=2 ∨ i=3 := by omega
      all_goals simp [Buf.wrBe32]
    · rw [Buf.wrBe32_of_outside (by omega),h i h1 h2,Buf.wrBe32_of_outside (by omega)]
  · exact h i h1 h2

lemma inRing_pos (hf : j.first<j.maxlen) (p k : ℕ) : j.inRing (j.pos p k)=true := by
  simp only [Jbd2State.inRing,Bool.and_eq_true,decide_eq_true_eq]
  exact ⟨le_ringPos,ringPos_lt hf⟩

lemma entriesAt_forall (hf : j.first<j.maxlen)
    (h : InLog j rd p k (ds.map fun d => escaped d.data)) :
    List.Forall₂ (EntryOf j rd) (entriesAt j p k ds) ds := by
  induction ds generalizing k with
  | nil => exact .nil
  | cons d ds ih =>
    obtain ⟨h0,h1⟩ := h.cons
    exact .cons ⟨rfl,rfl,inRing_pos hf p k,unescaped_agree h0⟩ (ih h1)

lemma descriptorItems_forall (hf : j.first<j.maxlen) (ht : 0<j.tagsPerDesc) (hlen : ds.length≤fuel)
    (h : InLog j rd p k (descriptorLog j seq fuel ds)) :
    List.Forall₂ (EntryOf j rd) ((descriptorItems j p fuel k ds).flatMap LogItem.entries) ds := by
  induction fuel generalizing k ds with
  | zero =>
    rw [List.eq_nil_of_length_eq_zero (by omega : ds.length=0)]
    exact .nil
  | succ fuel ih =>
    rw [descriptorLog] at h
    rw [descriptorItems]
    split_ifs at h ⊢ with hne
    · rw [List.isEmpty_iff.1 hne]
      exact .nil
    obtain ⟨h1,h2⟩ := h.append
    obtain ⟨-,h1⟩ := h1.cons
    rw [List.length_cons,List.length_map] at h2
    have hpos : 0<ds.length := List.length_pos_iff.2 (by simpa using hne)
    have hpast : k+1+(ds.take j.tagsPerDesc).length=k+((ds.take j.tagsPerDesc).length+1) := by omega
    have hrest := ih (by rw [List.length_drop]; omega) (hpast ▸ h2)
    have hall := List.rel_append (entriesAt_forall hf h1) hrest
    dsimp only at hall
    rwa [List.take_append_drop] at hall

lemma readItems_append (is is' : List LogItem) (T : Tables) :
    readItems fs j seq (is++is') T=(readItems fs j seq is T).bind (readItems fs j seq is') := by
  induction is generalizing T with
  | nil => rfl
  | cons i is ih =>
    rw [List.cons_append,readItems,readItems,Option.bind_assoc]
    congr 1
    funext T'
    exact ih T'

lemma addEntries_append (rs : List Jbd2Revoke) (es es' : List LogEntry) (us : List Jbd2Update) :
    addEntries fs j seq rs (es++es') us =
      (addEntries fs j seq rs es us).bind (addEntries fs j seq rs es') := by
  induction es generalizing us with
  | nil => rfl
  | cons e es ih =>
    rw [List.cons_append,addEntries,addEntries,Option.bind_assoc]
    congr 1
    funext us'
    exact ih us'

lemma addRevokes_append (bs bs' : List ℕ) (rs : List Jbd2Revoke) :
    addRevokes fs seq (bs++bs') rs=(addRevokes fs seq bs rs).bind (addRevokes fs seq bs') := by
  induction bs generalizing rs with
  | nil => rfl
  | cons b bs ih =>
    rw [List.cons_append,addRevokes,addRevokes,Option.bind_assoc]
    congr 1
    funext rs'
    exact ih rs'

lemma readItems_descriptors (i : Jbd2State) (fuel k : ℕ) (ds : List Jbd2Dirty) (us : List Jbd2Update)
    (rs : List Jbd2Revoke) :
    readItems fs i seq (descriptorItems j p fuel k ds) (us,rs) =
      (addEntries fs i seq rs ((descriptorItems j p fuel k ds).flatMap LogItem.entries) us).map
        fun us => (us,rs) := by
  induction fuel generalizing k ds us with
  | zero => rfl
  | succ fuel ih =>
    rw [descriptorItems]
    split_ifs
    · rfl
    rw [readItems,readItem,List.flatMap_cons,LogItem.entries,addEntries_append]
    cases addEntries fs i seq rs (entriesAt j p (k+1) (ds.take j.tagsPerDesc)) us with
    | none => rfl
    | some us' => exact ih _ _ us'

lemma readItems_revokes (i : Jbd2State) (hlen : bs.length≤fuel)
    (us : List Jbd2Update) (rs : List Jbd2Revoke) :
    readItems fs i seq (revokeItems j fuel bs) (us,rs) =
      (addRevokes fs seq (bs.map (revBlock j)) rs).map fun rs => (us,rs) := by
  induction fuel generalizing bs rs with
  | zero =>
    rw [List.eq_nil_of_length_eq_zero (by omega : bs.length=0)]
    rfl
  | succ fuel ih =>
    rw [revokeItems]
    split_ifs with hne
    · rw [List.isEmpty_iff.1 hne]
      rfl
    have hpos : 0<bs.length := List.length_pos_iff.2 (by simpa using hne)
    have hper := revokePerBlock_pos j
    rw [readItems,readItem]
    conv_rhs => rw [← List.take_append_drop j.revokePerBlock bs,List.map_append,addRevokes_append]
    cases addRevokes fs seq ((bs.take j.revokePerBlock).map (revBlock j)) rs with
    | none => rfl
    | some rs' => exact ih (by rw [List.length_drop]; omega) rs'

def LogEntry.update (seq : ℕ) (e : LogEntry) : Jbd2Update := ⟨e.fsBlock,e.jBlock,seq,e.escape⟩

lemma addEntries_distinct {es : List LogEntry} (hn : (us.map (·.fsBlock)++es.map (·.fsBlock)).Nodup)
    (he : ∀ e∈es, e.deleted=false ∧ j.inRing e.jBlock=true ∧ e.fsBlock<fs.blocksCount)
    (hlen : us.length+es.length≤ext4Jbd2TxMaxBlocks) :
    addEntries fs j seq [] es us=some (us++es.map (LogEntry.update seq)) := by
  induction es generalizing us with
  | nil => simp [addEntries]
  | cons e es ih =>
    obtain ⟨⟨hdel,hring,hbound⟩,hes⟩ := List.forall_mem_cons.1 he
    rw [List.length_cons] at hlen
    have hfresh : (us.any fun u => u.fsBlock == e.fsBlock && u.seq == seq)=false := by
      rw [List.any_eq_false]
      intro u hu hb
      simp only [Bool.and_eq_true,beq_iff_eq] at hb
      exact List.disjoint_of_nodup_append hn (List.mem_map_of_mem hu)
        (by rw [hb.1]; exact List.mem_map_of_mem List.mem_cons_self)
    have hadd : addEntry fs j seq [] e us=some (us++[e.update seq]) := by
      simp only [addEntry,hdel,ext4Jbd2RevokeContains,List.any_nil,Bool.not_false,Bool.and_self,if_true,
        ext4Jbd2AddUpdate]
      rw [if_neg (by omega),if_neg (by simpa using hring),Bool.true_and,hfresh,if_neg (by simp),
        if_neg (by omega),LogEntry.update]
    rw [addEntries,hadd,Option.bind_some,ih _ hes (by simp; omega)]
    · simp
    · simpa [LogEntry.update] using hn

lemma addRevokes_distinct (hn : (rs.map (·.fsBlock)++bs).Nodup) (hb : ∀ b∈bs, b<fs.blocksCount)
    (hlen : rs.length+bs.length≤ext4Jbd2TxMaxRevokes) :
    addRevokes fs seq bs rs=some (rs++bs.map fun b => ⟨b,seq⟩) := by
  induction bs generalizing rs with
  | nil => simp [addRevokes]
  | cons b bs ih =>
    obtain ⟨hbound,hbs⟩ := List.forall_mem_cons.1 hb
    rw [List.length_cons] at hlen
    have hfresh : ext4Jbd2RevokeContains rs b=false := by
      rw [ext4Jbd2RevokeContains,List.any_eq_false]
      intro r hr hrb
      exact List.disjoint_of_nodup_append hn (List.mem_map_of_mem hr)
        (by rw [beq_iff_eq.1 hrb]; exact List.mem_cons_self)
    have hadd : ext4Jbd2AddRevoke fs ext4Jbd2TxMaxRevokes b seq false rs=some (rs++[⟨b,seq⟩]) := by
      rw [ext4Jbd2AddRevoke,if_neg (by omega),hfresh,if_neg (by simp),if_neg (by omega)]
    rw [addRevokes,hadd,Option.bind_some,ih _ hbs (by simp; omega)]
    · simp
    · simpa using hn

lemma mergeUpdates_some {acc : List Jbd2Update}
    (hu : ∀ u∈us, u.fsBlock<fs.blocksCount ∧ j.inRing u.jBlock=true)
    (hlen : acc.length+us.length≤ext4Jbd2MaxUpdates) :
    mergeUpdates fs j us acc=some (acc++us) := by
  induction us generalizing acc with
  | nil => simp [mergeUpdates]
  | cons u us ih =>
    obtain ⟨⟨hb,hr⟩,hus⟩ := List.forall_mem_cons.1 hu
    rw [List.length_cons] at hlen
    have hadd : ext4Jbd2AddUpdate fs j ext4Jbd2MaxUpdates u.fsBlock u.jBlock u.seq u.escape false acc =
        some (acc++[u]) := by
      rw [ext4Jbd2AddUpdate,if_neg (by omega),if_neg (by simpa using hr),Bool.false_and,
        if_neg (by simp),if_neg (by omega)]
    have hstep : mergeUpdates fs j (u::us) acc=mergeUpdates fs j us (acc++[u]) := by
      rw [mergeUpdates,hadd]
      rfl
    rw [hstep,ih hus (by simp; omega)]
    simp

lemma mergeRevokes_distinct {acc : List Jbd2Revoke}
    (hn : ((acc++rs).map (·.fsBlock)).Nodup) (hb : ∀ r∈rs, r.fsBlock<fs.blocksCount)
    (hlen : acc.length+rs.length≤ext4Jbd2MaxRevokes) :
    mergeRevokes fs rs acc=some (acc++rs) := by
  induction rs generalizing acc with
  | nil => simp [mergeRevokes]
  | cons r rs ih =>
    obtain ⟨hbound,hrs⟩ := List.forall_mem_cons.1 hb
    rw [List.length_cons] at hlen
    have hfresh : ext4Jbd2RevokeContains acc r.fsBlock=false := by
      rw [ext4Jbd2RevokeContains,List.any_eq_false]
      intro a ha hab
      rw [List.map_append] at hn
      exact List.disjoint_of_nodup_append hn (List.mem_map_of_mem ha)
        (by rw [beq_iff_eq.1 hab]; exact List.mem_cons_self)
    have hadd : ext4Jbd2AddRevoke fs ext4Jbd2MaxRevokes r.fsBlock r.seq true acc=some (acc++[r]) := by
      rw [ext4Jbd2AddRevoke,if_neg (by omega),hfresh,if_neg (by simp),if_neg (by omega)]
    have hstep : mergeRevokes fs (r::rs) acc=mergeRevokes fs rs (acc++[r]) := by
      rw [mergeRevokes,hadd]
      rfl
    rw [hstep,ih (by simpa using hn) hrs (by simp; omega)]
    simp

end Collect

/-- Two engines for logs of the same format in the same ring. -/
structure SameFormat (j i : Jbd2State) : Prop where
  blockSize : i.blockSize=j.blockSize
  first : i.first=j.first
  maxlen : i.maxlen=j.maxlen
  feat64bit : i.feat64bit=j.feat64bit
  csumV2 : i.csumV2=j.csumV2
  csumV3 : i.csumV3=j.csumV3
  csumSeed : i.csumSeed=j.csumSeed
  incompat : i.featureIncompat=j.featureIncompat

namespace SameFormat
variable {fs : Ext4Fs} {j i : Jbd2State} {rd : ℕ → Buf} {blk : Buf} {seq : ℕ} {off pos q : ℕ}

section
variable (h : SameFormat j i)
include h

lemma trans {l : Jbd2State} (h' : SameFormat i l) : SameFormat j l :=
  ⟨h'.blockSize.trans h.blockSize,h'.first.trans h.first,h'.maxlen.trans h.maxlen,
    h'.feat64bit.trans h.feat64bit,h'.csumV2.trans h.csumV2,h'.csumV3.trans h.csumV3,
    h'.csumSeed.trans h.csumSeed,h'.incompat.trans h.incompat⟩

lemma nextBlock (p : ℕ) : i.nextBlock p=j.nextBlock p := by
  rw [Jbd2State.nextBlock,Jbd2State.nextBlock,h.first,h.maxlen]

lemma inRing (p : ℕ) : i.inRing p=j.inRing p := by
  rw [Jbd2State.inRing,Jbd2State.inRing,h.first,h.maxlen]

lemma hasCsum : i.hasCsum=j.hasCsum := by
  rw [Jbd2State.hasCsum,Jbd2State.hasCsum,h.csumV2,h.csumV3]

lemma txTagBytes : i.ext4Jbd2TxTagBytes=j.ext4Jbd2TxTagBytes := by
  rw [ext4Jbd2TxTagBytes,ext4Jbd2TxTagBytes,h.csumV3,h.feat64bit]

lemma revokeEntryBytes : i.revokeEntryBytes=j.revokeEntryBytes := by
  rw [Jbd2State.revokeEntryBytes,Jbd2State.revokeEntryBytes,h.feat64bit]

lemma dataChecksum (seq : ℕ) (data : Buf) :
    i.ext4Jbd2DataChecksum32 seq data=j.ext4Jbd2DataChecksum32 seq data := by
  rw [ext4Jbd2DataChecksum32,ext4Jbd2DataChecksum32,h.csumSeed,h.blockSize]

lemma verifyTail (blk : Buf) :
    i.ext4Jbd2VerifyTailChecksum blk=j.ext4Jbd2VerifyTailChecksum blk := by
  rw [ext4Jbd2VerifyTailChecksum,ext4Jbd2VerifyTailChecksum,h.hasCsum,h.csumSeed,h.blockSize]

lemma verifyCommit (blk : Buf) :
    i.ext4Jbd2VerifyCommitChecksum blk=j.ext4Jbd2VerifyCommitChecksum blk := by
  rw [ext4Jbd2VerifyCommitChecksum,ext4Jbd2VerifyCommitChecksum,h.hasCsum,h.csumSeed,h.blockSize]

lemma readTag (bs : ℕ) (blk : Buf) (off : ℕ) :
    FuriOS.readTag bs i blk off=FuriOS.readTag bs j blk off := by
  rw [FuriOS.readTag,FuriOS.readTag,h.txTagBytes,h.csumV3,h.feat64bit]

lemma tagSumOk (seq : ℕ) (t : Jbd2Tag) (data : Buf) :
    FuriOS.tagSumOk i seq t data=FuriOS.tagSumOk j seq t data := by
  rw [FuriOS.tagSumOk,FuriOS.tagSumOk,h.hasCsum,h.csumV3,h.dataChecksum]

lemma tagOk {t : Jbd2Tag} (ht : TagOk fs j rd blk seq off pos t) :
    TagOk fs i rd blk seq off pos t :=
  ⟨ht.room,(h.readTag _ _ _).trans ht.tag,ht.flags,ht.bound,(h.tagSumOk _ _ _).trans ht.sum⟩

lemma tagsAt {es : List LogEntry}
    (ht : TagsAt fs j rd blk seq off pos es q) : TagsAt fs i rd blk seq off pos es q := by
  induction ht with
  | last ht hl =>
    rw [← h.nextBlock]
    exact .last (h.tagOk ht) hl
  | more ht hl rest ih =>
    rw [← h.nextBlock] at ih
    exact .more (h.tagOk ht) hl ih

lemma revokesAt {used : ℕ} {bs : List ℕ} (hr : RevokesAt j blk used off bs) :
    RevokesAt i blk used off bs := by
  induction hr with
  | nil => exact .nil
  | @cons off bs hle rest ih =>
    rw [← h.revokeEntryBytes] at hle ih
    have hentry : revokeEntry j blk off=revokeEntry i blk off := by
      rw [revokeEntry,revokeEntry,h.feat64bit]
    rw [hentry]
    exact .cons hle ih

lemma txAt {p : ℕ} {items : List LogItem} (ht : TxAt fs j rd seq p items q) :
    TxAt fs i rd seq p items q := by
  induction ht with
  | desc hh hv tags _ ih =>
    rw [← h.verifyTail] at hv
    rw [← h.nextBlock] at tags
    exact .desc hh hv (h.tagsAt tags) ih
  | revoke hh hb _ ih =>
    rw [← h.nextBlock] at ih
    refine .revoke hh ⟨?_,?_,hb.used,h.revokesAt hb.entries⟩ ih
    · rw [h.incompat]
      exact hb.feature
    · rw [h.verifyTail]
      exact hb.tail
  | commit hh hc =>
    rw [← h.verifyCommit] at hc
    rw [← h.nextBlock]
    exact .commit hh hc

end

end SameFormat

section Scan
variable {fs : Ext4Fs} {j i : Jbd2State} {rd : ℕ → Buf} {v : Buf}

/-- One round of the scan that finds a block of the log. -/
def Advances (fs : Ext4Fs) (j : Jbd2State) (v : Buf) (s s' : ReplayState) : Prop :=
  (replayStep fs j s).eval v=some (some s')

lemma advances_tx (hf : 0<j.first)
    (hrd : ∀ p, j.inRing p=true → (fs.readJblock j.journalMeta p).eval v=some (rd p))
    {seq p q : ℕ} {items : List LogItem} (h : TxAt fs j rd seq p items q) (hp : j.inRing p=true)
    {s : ReplayState} (hc : s.cursor=p) (hs : s.seq=seq) (ho : items=[] → s.txOpen=true)
    {t T : Tables} (ht : readItems fs j seq items (s.txUpdates,s.txRevokes)=some t)
    (hT : mergeTx fs j t (s.updates,s.revokes)=some T) :
    Relation.ReflTransGen (Advances fs j v) s {s with
        cursor := q, seq := (seq+1)%2^32, updates := T.1, revokes := T.2, txUpdates := []
        txRevokes := [], replayed := s.replayed+1, txOpen := false} := by
  induction h generalizing s with
  | @desc p q r es items h htail tags rest ih =>
    subst hc hs
    rw [readItems,readItem] at ht
    obtain ⟨T1,h1,h2⟩ := Option.bind_eq_some_iff.1 ht
    obtain ⟨us,hus,rfl⟩ := Option.map_eq_some_iff.1 h1
    have hstep : Advances fs j v s {s with cursor := q, txUpdates := us, txOpen := true} := by
      rw [Advances,eval_step_desc hf hrd hp h htail tags,hus]
      rfl
    exact .head hstep (ih (tags.inRing (inRing_nextBlock hp)) rfl rfl (fun _ => rfl) h2 hT)
  | @revoke p r bs items h hb rest ih =>
    subst hc hs
    rw [readItems,readItem] at ht
    obtain ⟨T1,h1,h2⟩ := Option.bind_eq_some_iff.1 ht
    obtain ⟨rs,hrs,rfl⟩ := Option.map_eq_some_iff.1 h1
    have hstep : Advances fs j v s
        {s with cursor := j.nextBlock s.cursor, txRevokes := rs, txOpen := true} := by
      rw [Advances,eval_step_revoke hf hrd hp h hb,hrs]
      rfl
    exact .head hstep (ih (inRing_nextBlock hp) rfl rfl (fun _ => rfl) h2 hT)
  | commit h hcs =>
    subst hc hs
    obtain rfl := Option.some.inj ht
    apply Relation.ReflTransGen.single
    rw [Advances,eval_step_commit hf hrd hp (ho rfl) h hcs,hT]
    rfl

/-- What recovery collects from the log of a transaction whose block numbers the tags and revoke
entries can hold. -/
lemma readItems_txItems {p : ℕ} (hi : SameFormat j i) (hf : j.first<j.maxlen) (ht : 0<j.tagsPerDesc)
    (htx : j.TxOk fs.blocksCount) (hd : ∀ b∈blocksOf j.txDirty, tagBlock j b=b)
    (hr : ∀ b∈j.txRevokes, revBlock j b=b) (h : InLog j rd p 0 (txLog j)) :
    ∃ U, List.Forall₂ (fun u d => u.fsBlock=d.fsBlock ∧ u.seq=j.sequence ∧
        Buf.Agree (u.image rd) d.data 0 j.blockSize) U j.txDirty ∧
      readItems fs i j.sequence (txItems j p) ([],[]) =
        some (U,j.txRevokes.map fun b => ⟨b,j.sequence⟩) ∧
      mergeTx fs i (U,j.txRevokes.map fun b => ⟨b,j.sequence⟩) ([],[]) =
        some (U,j.txRevokes.map fun b => ⟨b,j.sequence⟩) := by
  have hall := descriptorItems_forall hf ht le_rfl h.append.1
  set es := (descriptorItems j p j.txDirty.length 0 j.txDirty).flatMap LogItem.entries with hes
  have hblock : ∀ d∈j.txDirty, tagBlock j d.fsBlock=d.fsBlock := fun d hdm =>
    hd _ (List.mem_map_of_mem hdm)
  have hboth : List.Forall₂ (fun d e => tagBlock j d.fsBlock=d.fsBlock ∧ EntryOf j rd e d)
      j.txDirty es := (List.forall₂_and_left _ _).2 ⟨hblock,hall.flip⟩
  have hblocks : es.map (·.fsBlock)=blocksOf j.txDirty := by
    rw [blocksOf,← List.forall₂_eq_eq_eq,List.forall₂_map_left_iff,List.forall₂_map_right_iff]
    exact hboth.flip.imp fun e d hed => hed.2.block.trans hed.1
  have hentry : ∀ e∈es, e.deleted=false ∧ i.inRing e.jBlock=true ∧ e.fsBlock<fs.blocksCount := by
    intro e he
    have hlt : e.fsBlock<fs.blocksCount :=
      htx.bound _ (by rw [← hblocks]; exact List.mem_map_of_mem he)
    obtain ⟨n,hn,rfl⟩ := List.getElem_of_mem he
    have hed := (List.forall₂_iff_get.1 hall).2 n hn (by rw [← hall.length_eq]; exact hn)
    exact ⟨hed.kept,(hi.inRing _).trans hed.ring,hlt⟩
  have hrevs : j.txRevokes.map (revBlock j)=j.txRevokes :=
    (List.map_congr_left hr).trans (List.map_id _)
  have hlen : es.length=j.txDirty.length := hall.length_eq
  refine ⟨es.map (LogEntry.update j.sequence),?_,?_,?_⟩
  · rw [List.forall₂_map_left_iff]
    exact hboth.flip.imp fun e d hed => ⟨hed.2.block.trans hed.1,rfl,hed.2.image⟩
  · have hadd : addEntries fs i j.sequence [] es [] =
        some ([]++es.map (LogEntry.update j.sequence)) :=
      addEntries_distinct (by simpa [hblocks] using htx.nodup) hentry (by simpa [hlen] using htx.size)
    have hrev : addRevokes fs j.sequence j.txRevokes [] =
        some ([]++j.txRevokes.map fun b => ⟨b,j.sequence⟩) :=
      addRevokes_distinct (by simpa using htx.revNodup) htx.revBound (by simpa using htx.revSize)
    rw [txItems,readItems_append,readItems_descriptors,← hes,hadd,Option.map_some,Option.bind_some,
      readItems_revokes i le_rfl,hrevs,hrev]
    rfl
  · have hmax1 : ext4Jbd2TxMaxBlocks≤ext4Jbd2MaxUpdates := by decide
    have hmax2 : ext4Jbd2TxMaxRevokes≤ext4Jbd2MaxRevokes := by decide
    have hrev : mergeRevokes fs (j.txRevokes.map fun b => ⟨b,j.sequence⟩) []=some ([]++_) :=
      mergeRevokes_distinct (by simpa [Function.comp_def] using htx.revNodup)
        (by simpa using htx.revBound) (by simpa using htx.revSize.trans hmax2)
    have hupd : ∀ u∈es.map (LogEntry.update j.sequence),
        u.fsBlock<fs.blocksCount ∧ i.inRing u.jBlock=true := by
      intro u hu
      obtain ⟨e,he,rfl⟩ := List.mem_map.1 hu
      exact ⟨(hentry e he).2.2,(hentry e he).2.1⟩
    have hmerge : mergeUpdates fs i (es.map (LogEntry.update j.sequence)) []=some ([]++_) :=
      mergeUpdates_some hupd (by simpa [hlen] using htx.size.trans hmax1)
    rw [mergeTx,hrev,Option.bind_some,hmerge]
    rfl

end Scan

end FuriOS
