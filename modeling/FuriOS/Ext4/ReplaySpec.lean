import FuriOS.Ext4.ReplayTables
import FuriOS.Ext4.Checkpoint

/-! Recovery on a volume: the journal superblock is loaded, the scan reads the log without
changing anything, the deciding updates are written to their places and the log is emptied. -/
namespace FuriOS
open BlockCache World Jbd2State Prog

section Scan
variable {fs : Ext4Fs} {j : Jbd2State} {v : Buf} {R : ℕ × ℕ → Prop}
  (hrd : ∀ p, j.inRing p=true → (fs.readJblock j.journalMeta p).Ensures R v fun _ => True) {s : ReplayState}
include hrd

lemma ensures_parseTags {blk : Buf} {seq : ℕ} {rs : List Jbd2Revoke} (fuel off : ℕ) {pos : ℕ}
    (us : List Jbd2Update) (hp : j.inRing pos=true) :
    (parseTags fs j blk seq rs fuel off pos us).Ensures R v fun r => j.inRing r.1=true := by
  induction fuel generalizing off pos us with
  | zero => exact Scan.ensures_stop
  | succ fuel ih =>
    refine (Scan.ensures_require _).bind fun _ _ => (Scan.ensures_ofOption _).bind fun t _ =>
      (Scan.ensures_require _).bind fun _ _ => (Scan.ensures_require _).bind fun _ _ =>
      (hrd pos hp).bind fun data _ => (Scan.ensures_require _).bind fun _ _ =>
      (Scan.Ensures.bind (P := fun _ => True) ?_) fun us _ => (Scan.ensures_require _).bind fun _ _ => ?_
    · split_ifs
      · exact (Scan.ensures_ofOption _).mono fun _ _ => trivial
      · exact Scan.ensures_pure trivial
    · split_ifs
      · exact Scan.ensures_pure (inRing_nextBlock hp)
      · exact ih _ _ (inRing_nextBlock hp)

omit hrd in
lemma ensures_stepCursor {p : ℕ} (hp : j.inRing p=true) :
    (stepCursor j p).Ensures R v fun q => j.inRing q=true :=
  (Scan.ensures_require _).bind fun _ _ => Scan.ensures_pure (inRing_nextBlock hp)

lemma ensures_replayStep (hp : j.inRing s.cursor=true) :
    (replayStep fs j s).Ensures R v fun r => ∀ s', r=some s' → j.inRing s'.cursor=true := by
  refine (hrd _ hp).bind fun blk _ => ?_
  dsimp only
  split_ifs
  · exact Scan.ensures_pure (by simp)
  · refine Scan.Ensures.bind (P := fun r => j.inRing r.1=true) ?_ ?_
    · refine (Scan.ensures_require _).bind fun _ _ => (Scan.ensures_require _).bind fun _ _ =>
        (Scan.ensures_require _).bind fun _ _ => ?_
      exact ensures_parseTags hrd _ _ _ (inRing_nextBlock hp)
    · rintro ⟨q,us⟩ hq
      exact Scan.ensures_pure (by simpa using hq)
  · refine (Scan.ensures_require _).bind fun _ _ => (Scan.ensures_ofOption _).bind fun rs _ =>
      (ensures_stepCursor hp).bind fun q hq => Scan.ensures_pure (by simpa using hq)
  · refine (Scan.ensures_require _).bind fun _ _ => (Scan.ensures_ofOption _).bind fun rs _ =>
      (Scan.ensures_ofOption _).bind fun us _ =>
      (ensures_stepCursor hp).bind fun q hq => Scan.ensures_pure (by simpa using hq)
  · refine (Scan.ensures_require _).bind fun _ _ => (Scan.ensures_require _).bind fun _ _ =>
      (ensures_stepCursor hp).bind fun q hq => Scan.ensures_pure (by simpa using hq)
  · exact Scan.ensures_stop

lemma ensures_replayLoop (guard : ℕ) (hp : j.inRing s.cursor=true) :
    (replayLoop fs j guard s).Ensures R v fun s' => j.inRing s'.cursor=true := by
  induction guard generalizing s with
  | zero => exact Scan.ensures_stop
  | succ guard ih =>
    refine (ensures_replayStep hrd hp).bind ?_
    intro r hr
    cases r with
    | none => exact Scan.ensures_pure hp
    | some s' => exact ih (hr s' rfl)

end Scan

/-- Updates for blocks in `Q`, with their images in the ring. -/
def UpdatesIn (fs : Ext4Fs) (j : Jbd2State) (Q : ℕ → Prop) (us : List Jbd2Update) : Prop :=
  ∀ u∈us, u.fsBlock<fs.blocksCount ∧ j.inRing u.jBlock=true ∧ Q u.fsBlock

namespace UpdatesIn
variable {fs : Ext4Fs} {j : Jbd2State} {Q : ℕ → Prop} {us us' : List Jbd2Update} {seq : ℕ}
variable {b p : ℕ} {escape : Bool} {rs : List Jbd2Revoke} {T : Tables}

section
variable (h : UpdatesIn fs j Q us)
include h

lemma replace (hp : j.inRing p=true) : UpdatesIn fs j Q (replaceUpdate b p seq escape us) := by
  induction us with
  | nil => exact h
  | cons u us ih =>
    obtain ⟨hu,hus⟩ := List.forall_mem_cons.1 h
    simp only [replaceUpdate]
    split_ifs
    · exact List.forall_mem_cons.2 ⟨⟨hu.1,hp,hu.2.2⟩,hus⟩
    · exact List.forall_mem_cons.2 ⟨hu,ih hus⟩

lemma add {updateMax : ℕ} {dedupe : Bool} (hq : Q b)
    (ha : ext4Jbd2AddUpdate fs j updateMax b p seq escape dedupe us=some us') :
    UpdatesIn fs j Q us' := by
  unfold ext4Jbd2AddUpdate at ha
  split_ifs at ha with h1 h2 h3 h4
  · obtain rfl := Option.some.inj ha
    exact h.replace (by simpa using h2)
  · obtain rfl := Option.some.inj ha
    intro u hu
    rcases List.mem_append.1 hu with hu | hu
    · exact h u hu
    · rw [List.mem_singleton.1 hu]
      exact ⟨Nat.lt_of_not_le h1,by simpa using h2,hq⟩

lemma entries {es : List LogEntry} (hq : ∀ e∈es, e.deleted=false → Q e.fsBlock)
    (ha : addEntries fs j seq rs es us=some us') : UpdatesIn fs j Q us' := by
  induction es generalizing us with
  | nil =>
    obtain rfl := Option.some.inj ha
    exact h
  | cons e es ih =>
    obtain ⟨he,hes⟩ := List.forall_mem_cons.1 hq
    obtain ⟨us1,h1,h2⟩ := Option.bind_eq_some_iff.1 ha
    refine ih ?_ hes h2
    unfold addEntry at h1
    split_ifs at h1 with hc
    · simp only [Bool.and_eq_true,Bool.not_eq_true'] at hc
      exact h.add (he hc.1) h1
    · obtain rfl := Option.some.inj h1
      exact h

lemma items {is : List LogItem} (hq : ∀ i∈is, ∀ e∈i.entries, e.deleted=false → Q e.fsBlock)
    (ha : readItems fs j seq is (us,rs)=some T) : UpdatesIn fs j Q T.1 := by
  induction is generalizing us rs with
  | nil =>
    obtain rfl := Option.some.inj ha
    exact h
  | cons i is ih =>
    obtain ⟨hi,his⟩ := List.forall_mem_cons.1 hq
    obtain ⟨⟨us1,rs1⟩,h1,h2⟩ := Option.bind_eq_some_iff.1 ha
    refine ih ?_ his h2
    cases i with
    | images es =>
      obtain ⟨us2,he,heq⟩ := Option.map_eq_some_iff.1 h1
      obtain ⟨rfl,-⟩ := Prod.mk.inj heq
      exact h.entries hi he
    | revokes bs =>
      obtain ⟨rs2,-,heq⟩ := Option.map_eq_some_iff.1 h1
      obtain ⟨rfl,-⟩ := Prod.mk.inj heq
      exact h

end

lemma log {txs : List (List LogItem)} {T' : Tables} (h : UpdatesIn fs j Q T.1)
    (hq : ∀ tx∈txs, ∀ i∈tx, ∀ e∈i.entries, e.deleted=false → Q e.fsBlock)
    (ha : readLog fs j seq txs T=some T') : UpdatesIn fs j Q T'.1 := by
  induction txs generalizing seq T with
  | nil =>
    obtain rfl := Option.some.inj ha
    exact h
  | cons tx txs ih =>
    obtain ⟨htx,htxs⟩ := List.forall_mem_cons.1 hq
    obtain ⟨t,h1,h2⟩ := Option.bind_eq_some_iff.1 ha
    obtain ⟨T1,h3,h4⟩ := Option.bind_eq_some_iff.1 h2
    refine ih ?_ htxs h4
    have ht : UpdatesIn fs j Q t.1 := items (fun u hu => by simp at hu) htx h1
    obtain ⟨rs,-,h5⟩ := Option.bind_eq_some_iff.1 h3
    obtain ⟨us,h6,rfl⟩ := Option.map_eq_some_iff.1 h5
    rw [mergeUpdates_eq h6]
    intro u hu
    rcases List.mem_append.1 hu with hu | hu
    · exact h u hu
    · exact ht u hu

end UpdatesIn

def World.jblock (G : Geometry) (w : World) (l : ℕ) : Buf :=
  w.rawView.slice (G.jmap l*w.ext4.blockSize) w.ext4.blockSize

/-- A journal superblock that the mount accepts. -/
structure SuperOk (bs : ℕ) (jsb : Buf) (j : Jbd2State) : Prop where
  magic : jsb.rdBe32 jbd2HdrMagicOff=jbd2MagicNumber
  type : jsb.rdBe32 jbd2HdrTypeOff=jbd2SuperblockV1 ∨ jsb.rdBe32 jbd2HdrTypeOff=jbd2SuperblockV2
  block : j.blockSize=bs
  firstPos : j.first≠0
  first : j.first<j.maxlen
  feat : j.featureIncompat<2*jbd2FeatureIncompatFastCommit
  fastCommit : (hasFlag j.featureIncompat jbd2FeatureIncompatFastCommit &&
    jsb.rdBe32 jbd2SbNumFcBlksOff != 0)=false
  csumType : (j.hasCsum && jsb.rdBe32 jbd2SbChecksumTypeOff != jbd2Crc32cChksum)=false
  sum : j.ext4Jbd2VerifySuperChecksum jsb=true

/-- The engine as a mount at tick `t` sets it up. -/
def Jbd2State.accepted (j : Jbd2State) (t : ℕ) : Jbd2State :=
  {j with
    enabled := true, writeReady := true, head := j.clamp j.head
    tail := if j.start≠0 then j.start else j.clamp j.head, lastCheckpointTick := t}

/-- The engine as the mount loads it from the volume. -/
def World.loadedJbd2 (G : Geometry) (w : World) : Jbd2State :=
  (fromSuper G.inode (w.jsb G)).accepted (w.clock w.tick)

/-- A volume with a journal that is about to be recovered: the superblock `ext4Sb` names the
journal inode, and the record of that inode places the journal. -/
structure World.Recoverable (G : Geometry) (w : World) (ext4Sb : Buf) : Prop where
  placed : w.Placed G
  hasJournal : hasFlag w.ext4.featureCompat ext4CompatHasJournal=true
  inum : ext4Sb.rdLe32 ext4SJournalInum≠0
  load : (w.ext4.ext4LoadMeta (ext4Sb.rdLe32 ext4SJournalInum)).eval w.rawView=some G.inode
  within : ∀ r∈(w.ext4.ext4LoadMeta (ext4Sb.rdLe32 ext4SJournalInum)).reads w.rawView,
    r.1+r.2≤w.capBytes
  maxlen : (w.jsb G).rdBe32 jbd2SbMaxlenOff=G.maxlen
  nonempty : 0<G.maxlen

section Load
variable {G : Geometry} {w w' : World} {ext4Sb : Buf}

lemma eval_readJblock (hp : w.Placed G) {l : ℕ} (hl : l<G.maxlen) :
    (w.ext4.readJblock G.inode l).eval w.rawView=some (w.jblock G l) := by
  have hpos : (G.jmap l != 0)=true := by simpa using hp.layout.pos l hl
  simp only [Ext4Fs.readJblock,Scan.eval_bind,hp.maps.eval l hl,Option.bind_some,Scan.eval_require,
    hpos,if_true]
  rfl

lemma ensures_readJblock (hp : w.Placed G) {l : ℕ} (hl : l<G.maxlen) :
    (w.ext4.readJblock G.inode l).Ensures (fun r => r.1+r.2≤w.capBytes) w.rawView fun _ => True := by
  refine Scan.Ensures.bind (P := fun p => p=G.jmap l) ⟨?_,?_⟩ ?_
  · intro r hr
    obtain ⟨b,hb,rfl⟩ := hp.maps.reads l hl r hr
    exact hp.block_in_cap (hp.layout.treeBound b hb)
  · intro p hpe
    rw [hp.maps.eval l hl] at hpe
    exact (Option.some.inj hpe).symm
  · rintro p rfl
    refine (Scan.ensures_require _).bind fun _ _ => ⟨?_,fun _ _ => trivial⟩
    intro r hr
    simp only [Ext4Fs.readBlock,Scan.reads,List.mem_cons,List.not_mem_nil,or_false] at hr
    subst hr
    exact hp.block_in_cap (hp.layout.bound l hl)

lemma World.Placed.setJbd2 (hp : w.Placed G) (f : Jbd2State → Jbd2State) : (w.setJbd2 f).Placed G :=
  hp.of_parts rfl rfl rfl

lemma wp_acceptSuper (w : World) (bs : ℕ) (jsb : Buf) (j : Jbd2State) : (acceptSuper bs jsb j).wp
      (fun _ w' => SuperOk bs jsb j ∧
        w'={w with jbd2 := j.accepted (w.clock w.tick), tick := w.tick+1})
      (fun _ => ¬ SuperOk bs jsb j) w := by
  refine wp_require_bind (fun h1 => ?_) fun h hs => by
    rw [hs.magic,beq_self_eq_true] at h
    exact absurd h (by simp)
  refine wp_require_bind (fun h2 => ?_) fun h hs => by
    simp only [Bool.or_eq_false_iff,beq_eq_false_iff_ne] at h
    rcases hs.type with ht | ht
    · exact h.1 ht
    · exact h.2 ht
  rw [wp_modify_bind]
  refine wp_require_bind (fun h3 => ?_) fun h hs => by
    have hf := hs.firstPos
    have hlt := hs.first
    simp only [hs.block,beq_self_eq_true,Bool.true_and,Bool.and_eq_false_iff,bne_eq_false_iff_eq,
      decide_eq_false_iff_not] at h
    omega
  refine wp_require_bind (fun h4 => ?_) fun h hs => absurd hs.feat (by simpa using h)
  refine wp_require_bind (fun h5 => ?_) fun h hs => by
    rw [hs.fastCommit] at h
    exact absurd h (by simp)
  rw [wp_modify_bind,wp_modify_bind,wp_bind]
  refine wp_of_run (a := w.clock w.tick) rfl ?_
  rw [wp_modify_bind]
  refine wp_require_bind (fun h6 => ?_) fun h hs => by
    rw [hs.csumType] at h
    exact absurd h (by simp)
  rw [wp_modify_bind]
  refine wp_require_bind (fun h7 => ?_) fun h hs => by
    rw [hs.sum] at h
    exact absurd h (by simp)
  simp only [Bool.and_eq_true,bne_iff_ne,beq_iff_eq,decide_eq_true_eq,Bool.or_eq_true,
    Bool.not_eq_true'] at h1 h2 h3 h4 h5 h6
  have hs : SuperOk bs jsb j := ⟨h1,h2,h3.1.1.1,h3.1.2,h3.2,h4,h5,h6,h7⟩
  rw [wp_modify]
  refine ⟨hs,?_⟩
  simp only [setJbd2,Jbd2State.accepted]
  congr

lemma wp_ext4Jbd2LoadState (h : w.Recoverable G ext4Sb) : (ext4Jbd2LoadState ext4Sb).wp
      (fun _ w' => SuperOk w.ext4.blockSize (w.jsb G) (fromSuper G.inode (w.jsb G)) ∧
        ∃ c, Calm w.cache c ∧ w'={w with cache := c, jbd2 := w.loadedJbd2 G, tick := w.tick+1})
      (fun _ => ¬ w.cache.WritesOk ∨
        ¬ SuperOk w.ext4.blockSize (w.jsb G) (fromSuper G.inode (w.jsb G))) w := by
  have hp := h.placed
  have hblock : decide (w.ext4.blockSize≤4096)=true := by
    rcases hp.blockSize with h | h | h <;> simp [h]
  have hinum : (ext4Sb.rdLe32 ext4SJournalInum != 0)=true := bne_iff_ne.2 h.inum
  rw [ext4Jbd2LoadState,wp_gets_bind,wp_bind,hinum,wp_require_true, wp_modify_bind,wp_bind]
  have hp0 : (w.setJbd2 fun _ => Jbd2State.zero).Placed G := hp.setJbd2 _
  refine wp_mono (wp_disk_direct hp0 (.inl rfl) _ h.within) ?_ ?_
  swap
  · rintro w' ⟨-,he | hw⟩
    · rw [show (w.setJbd2 fun _ => Jbd2State.zero).rawView=w.rawView from rfl,h.load] at he
      cases he
    · exact .inl hw
  rintro m w1 ⟨h1,hmeta⟩
  rw [show (w.setJbd2 fun _ => Jbd2State.zero).rawView=w.rawView from rfl,h.load] at hmeta
  obtain rfl := Option.some.inj hmeta
  rw [wp_modify_bind,wp_bind,hblock,wp_require_true,wp_bind]
  have hp1 := (h1.placed hp0).setJbd2 fun j => {j with journalMeta := G.inode}
  have hd1 : (w1.setJbd2 fun j => {j with journalMeta := G.inode}).Direct := by
    refine .inl ?_
    rw [show (w1.setJbd2 fun j => {j with journalMeta := G.inode}).jbd2.enabled=w1.jbd2.enabled from rfl,
      h1.jbd2]
    rfl
  refine wp_mono (wp_ext4Jbd2ReadJblock hp1 hd1 h.nonempty) ?_ ?_
  swap
  · rintro w' ⟨-,hw⟩
    exact .inl fun h => hw (h1.writesOk h)
  rintro jsb w2 ⟨h2,rfl⟩
  have hext : w1.ext4=w.ext4 := h1.ext4
  have hjsb : (w1.setJbd2 fun j => {j with journalMeta := G.inode}).rawView.slice
      (G.jmap 0*(w1.setJbd2 fun j => {j with journalMeta := G.inode}).ext4.blockSize)
      (w1.setJbd2 fun j => {j with journalMeta := G.inode}).ext4.blockSize=w.jsb G := by
    have hv : w1.rawView=w.rawView := h1.rawView
    change w1.rawView.slice (G.jmap 0*w1.ext4.blockSize) w1.ext4.blockSize=_
    rw [hext,hv]
    rfl
  rw [hjsb]
  obtain ⟨c1,rfl,hc1⟩ := h1
  obtain ⟨c2,rfl,hc2⟩ := h2
  refine wp_mono (wp_acceptSuper _ _ _ _) ?_ fun _ h => .inr h
  rintro _ w' ⟨hs,rfl⟩
  exact ⟨hs,c2,Calm.trans hc1 hc2,rfl⟩

end Load

variable {u : Jbd2Update} {us : List Jbd2Update} {rs : List Jbd2Revoke} {bs : ℕ} {rd : ℕ → Buf} {T : Tables}

/-- The contents after the deciding updates have been put to their blocks. -/
def redone (bs : ℕ) (rd : ℕ → Buf) (T : Tables) (v : Buf) : Buf := fun x =>
  match T.deciding (x/bs) with
  | some u => u.image rd (x%bs)
  | none => v x

lemma deciding_cons (b : ℕ) : Tables.deciding (u::us,rs) b=(Tables.deciding (us,rs) b).or
      (if u.fsBlock=b ∧ ext4Jbd2RevokeHitsUpdate rs b u.seq=false then some u else none) := by
  simp only [Tables.deciding,List.reverse_cons,List.find?_append,List.find?_singleton]
  congr 1
  by_cases hb : u.fsBlock=b <;> simp [hb]

lemma redone_cons {v v1 : Buf}
    (hv : ∀ x, v1 x=if x/bs=u.fsBlock ∧ ext4Jbd2RevokeHitsUpdate rs u.fsBlock u.seq=false
      then u.image rd (x%bs) else v x) :
    redone bs rd (us,rs) v1=redone bs rd (u::us,rs) v := by
  funext x
  rw [redone,redone,deciding_cons]
  cases Tables.deciding (us,rs) (x/bs) with
  | some u' => rfl
  | none =>
    rw [Option.none_or,hv]
    by_cases hx : x/bs=u.fsBlock
    · simp only [hx,true_and]
      split_ifs <;> rfl
    · rw [if_neg fun h => hx h.1,if_neg fun h => hx h.1.symm]

lemma deciding_mem {b : ℕ} (h : T.deciding b=some u) : u∈T.1 :=
  List.mem_reverse.1 (List.mem_of_find?_eq_some h)

lemma redone_congr {rd' : ℕ → Buf} (v : Buf)
    (h : ∀ u∈T.1, rd u.jBlock=rd' u.jBlock) : redone bs rd T v=redone bs rd' T v := by
  funext x
  rw [redone,redone]
  cases hd : T.deciding (x/bs) with
  | none => rfl
  | some u => simp only [Jbd2Update.image,h u (deciding_mem hd)]

section Apply
variable {G : Geometry} {w : World}

def updated (us : List Jbd2Update) (b : ℕ) : Prop := ∃ u∈us, u.fsBlock=b

lemma World.Touches.jblock {w' : World} {B : ℕ → Prop} (hp : w.Placed G) (h : Touches B w w')
    {l : ℕ} (hl : l<G.maxlen) (hB : ∀ b, B b → ¬ G.IsLog b) : w'.jblock G l=w.jblock G l := by
  have hb := hp.block_pos
  funext i
  simp only [World.jblock,h.ext4,Buf.slice]
  split_ifs with hi
  · refine h.other _ fun hB' => hB _ hB' ⟨l,hl,?_⟩
    rw [(div_eq_iff_block hb).2 ⟨Nat.le_add_right _ _,Nat.add_lt_add_left hi _⟩]
  · rfl

lemma wp_applyUpdatesLoop (hp : w.Placed G) (hd : w.Direct) (us : List Jbd2Update)
    (hu : ∀ u∈us, u.fsBlock<w.ext4.blocksCount ∧ u.jBlock<G.maxlen ∧ G.Home u.fsBlock) :
    (applyUpdatesLoop G.inode rs us).wp (fun _ w' => Touches (updated us) w w' ∧ w'.jbd2=w.jbd2 ∧
        w'.rawView=redone w.ext4.blockSize (w.jblock G) (us,rs) w.rawView)
      (fun _ => ¬ w.cache.WritesOk) w := by
  induction us generalizing w with
  | nil => exact ⟨Touches.refl hp.online _,rfl,rfl⟩
  | cons u us ih =>
    obtain ⟨⟨hb,hj,hhome⟩,hus⟩ := List.forall_mem_cons.1 hu
    have hweak : ∀ b, updated us b → updated (u::us) b := fun b ⟨u',hm,he⟩ =>
      ⟨u',List.mem_cons_of_mem u hm,he⟩
    simp only [applyUpdatesLoop,wp_bind,wp_gets,decide_eq_true hb,wp_require_true]
    by_cases hhit : ext4Jbd2RevokeHitsUpdate rs u.fsBlock u.seq=true
    · rw [if_pos hhit]
      refine wp_imp (ih hp hd hus) ?_
      rintro _ w' ⟨ht,hjb,hv⟩
      refine ⟨ht.weaken hweak,hjb,hv.trans (redone_cons fun x => ?_)⟩
      rw [if_neg (by simp [hhit])]
    · rw [if_neg hhit]
      simp only [wp_bind]
      refine wp_mono (wp_ext4Jbd2ReadJblock hp hd hj) ?_ fun _ h => h.2
      rintro blk w1 ⟨h1,hblk⟩
      have hb1 : u.fsBlock<w1.ext4.blocksCount := by rw [h1.ext4]; exact hb
      refine wp_mono (wp_ext4WriteBlock_direct (h1.placed hp) (h1.direct hd) hb1 _) ?_
        fun _ h hw => h.1 (h1.writesOk hw)
      intro _ w2 h2
      rw [PutBlock,h1.ext4] at h2
      have hput := h2.of_quiet hp h1
      have ht2 := hput.put.touches
      have hp2 := ht2.placed hp fun b hb => by rw [hb]; exact hhome.1
      have hd2 := hput.put.direct hd
      refine wp_mono (ih hp2 hd2 (by rw [ht2.ext4]; exact hus)) ?_ fun _ h hw => h (ht2.writesOk hw)
      rintro _ w3 ⟨ht3,hj3,hv3⟩
      refine ⟨(ht2.trans ht3).weaken ?_,hj3.trans hput.put.jbd2,?_⟩
      · rintro b (rfl | hb)
        · exact ⟨u,List.mem_cons_self,rfl⟩
        · exact hweak b hb
      · rw [hv3,ht2.ext4]
        have hrd : ∀ u'∈us, w2.jblock G u'.jBlock=w.jblock G u'.jBlock := fun u' hm =>
          ht2.jblock hp (hus u' hm).2.1 fun b hb => by rw [hb]; exact hhome.2
        rw [redone_congr _ hrd]
        refine redone_cons fun x => ?_
        rw [hput.view x]
        have hmod : x%w.ext4.blockSize<w.ext4.blockSize := Nat.mod_lt x hp.block_pos
        simp only [hmod,and_true,Bool.eq_false_iff.2 hhit,hblk]
        rfl

end Apply

end FuriOS
