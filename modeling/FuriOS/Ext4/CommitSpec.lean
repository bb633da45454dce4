import FuriOS.Ext4.LogRing

/-! What a commit writes: the blocks of the transaction's log as a list, and the phases in which
they, and the journal superblock before and after them, reach the device. -/
namespace FuriOS
open World Jbd2State Prog

def putTags (j : Jbd2State) (seq : ℕ) : List Jbd2Dirty → Buf → ℕ → Buf
  | [],desc,_ => desc
  | d::ds,desc,off => putTags j seq ds (putTag j seq desc off d ds.isEmpty) (off+j.ext4Jbd2TxTagBytes)

def descriptorBlock (j : Jbd2State) (seq : ℕ) (ds : List Jbd2Dirty) : Buf :=
  j.ext4Jbd2SetTailChecksum (putTags j seq ds (logHeader jbd2DescriptorBlock seq) 12)

/-- Descriptor blocks, each followed by its images. -/
def descriptorLog (j : Jbd2State) (seq : ℕ) : ℕ → List Jbd2Dirty → List Buf
  | 0,_ => []
  | fuel+1,ds =>
    if ds.isEmpty then [] else
      (descriptorBlock j seq (ds.take j.tagsPerDesc)::
        (ds.take j.tagsPerDesc).map fun d => escaped d.data) ++
      descriptorLog j seq fuel (ds.drop j.tagsPerDesc)

def revokeLog (j : Jbd2State) (seq : ℕ) : ℕ → List ℕ → List Buf
  | 0,_ => []
  | fuel+1,bs =>
    if bs.isEmpty then [] else
      revokeBlock j seq (bs.take j.revokePerBlock)::revokeLog j seq fuel (bs.drop j.revokePerBlock)

def txLog (j : Jbd2State) : List Buf :=
  descriptorLog j j.sequence j.txDirty.length j.txDirty ++
    (revokeLog j j.sequence j.txRevokes.length j.txRevokes++[commitBlock j j.sequence])

section Length
variable (j : Jbd2State) (seq : ℕ)

lemma ceil_sub {n t : ℕ} (ht : 0<t) (hn : 0<n) : (n+t-1)/t=(n-t+t-1)/t+1 := by
  rcases Nat.lt_or_ge n t with h | h
  · rw [Nat.sub_eq_zero_of_le h.le,Nat.zero_add,Nat.div_eq_of_lt (show t-1<t by omega)]
    rw [show n+t-1=n-1+t by omega,Nat.add_div_right _ ht,Nat.div_eq_of_lt (by omega)]
  · rw [← Nat.add_div_right _ ht]
    congr 1
    omega

lemma length_descriptorLog (ht : 0<j.tagsPerDesc) (fuel : ℕ) (ds : List Jbd2Dirty)
    (hf : ds.length≤fuel) : (descriptorLog j seq fuel ds).length =
      ds.length+(ds.length+j.tagsPerDesc-1)/j.tagsPerDesc := by
  induction fuel generalizing ds with
  | zero =>
    have : ds=[] := List.length_eq_zero_iff.1 (by omega)
    subst this
    simp [descriptorLog,Nat.div_eq_of_lt (show j.tagsPerDesc-1<j.tagsPerDesc by omega)]
  | succ fuel ih =>
    cases ds with
    | nil => simp [descriptorLog,Nat.div_eq_of_lt (show j.tagsPerDesc-1<j.tagsPerDesc by omega)]
    | cons d ds =>
      rw [descriptorLog,List.isEmpty_cons,if_neg (by simp),List.length_append,List.length_cons,
        List.length_map,List.length_take,ih _ (by simp at hf ⊢; omega),List.length_drop,
        ceil_sub (n := (d::ds).length) ht (by simp)]
      omega

lemma length_revokeLog (ht : 0<j.revokePerBlock) (fuel : ℕ) (bs : List ℕ) (hf : bs.length≤fuel) :
    (revokeLog j seq fuel bs).length=(bs.length+j.revokePerBlock-1)/j.revokePerBlock := by
  induction fuel generalizing bs with
  | zero =>
    have : bs=[] := List.length_eq_zero_iff.1 (by omega)
    subst this
    simp [revokeLog,Nat.div_eq_of_lt (show j.revokePerBlock-1<j.revokePerBlock by omega)]
  | succ fuel ih =>
    cases bs with
    | nil => simp [revokeLog,Nat.div_eq_of_lt (show j.revokePerBlock-1<j.revokePerBlock by omega)]
    | cons b bs =>
      rw [revokeLog,List.isEmpty_cons,if_neg (by simp),List.length_cons,
        ih _ (by simp at hf ⊢; omega),List.length_drop,ceil_sub (n := (b::bs).length) ht (by simp)]

lemma revokePerBlock_pos : 0<j.revokePerBlock := by
  simp only [revokePerBlock]
  split
  · exact Nat.one_pos
  · exact Nat.pos_of_ne_zero ‹_›

lemma length_txLog (ht : 0<j.tagsPerDesc) : (txLog j).length=j.totalBlocks := by
  rw [txLog,List.length_append,List.length_append,length_descriptorLog j _ ht _ _ le_rfl,
    length_revokeLog j _ (revokePerBlock_pos j) _ _ le_rfl,totalBlocks]
  cases hr : j.txRevokes with
  | nil =>
    have := revokePerBlock_pos j
    simp [Nat.div_eq_of_lt (show j.revokePerBlock-1<j.revokePerBlock by omega)]
  | cons b bs => simp [Nat.add_assoc]

end Length

/-- From the block `c` of the log on, `m` writes the blocks `L` and returns `a`; it fails only if a
device write does. -/
def Emits {α : Type} (G : Geometry) (j : Jbd2State) (c : ℕ) (L : List Buf) (m : Ext4M α) (a : α) : Prop :=
  ∀ w : World, w.Placed G → w.Direct → L.length≤j.ring →
    m.wp (fun r w' => r=a ∧ Emitted G j c L w w') (fun _ => ¬ w.cache.WritesOk) w

section Emit
variable {G : Geometry} {j : Jbd2State} {w : World} {c : ℕ} {L L' : List Buf}
variable {α β : Type} {p : Ext4M α} {r : α} {s : β}

lemma next_of_inRing (h : j.OnRing G) (hc : j.inRing c=true) :
    ext4Jbd2NextBlock c j.first j.maxlen=j.pos c 1 := by
  rw [← h.next,h.pos_zero hc]

lemma wp_logWrite (h : j.OnRing G) (hc : j.inRing c=true) (hp : w.Placed G) (hd : w.Direct) (blk : Buf) :
    (ext4Jbd2WriteJblock j.journalMeta c blk).wp (fun _ w' => PutBlock (logBlock G j c 0) blk w w')
      (fun _ => ¬ w.cache.WritesOk) w := by
  have hw := wp_ext4Jbd2WriteJblock hp hd (h.pos_lt c 0) blk
  rw [h.pos_zero hc,← h.inode] at hw
  refine wp_mono hw (fun _ _ h1 => ?_) fun _ hf => hf.1
  rwa [logBlock,h.pos_zero hc]

namespace Emits

lemma pure (r : α) : Emits G j c [] (Pure.pure r) r := fun _ hp _ _ =>
  ⟨rfl,OnRing.emitted_nil hp.online⟩

lemma write (h : j.OnRing G) (hc : j.inRing c=true) (blk : Buf) :
    Emits G j c [blk] (ext4Jbd2WriteJblock j.journalMeta c blk) () := fun _ hp hd _ =>
  wp_mono (wp_logWrite h hc hp hd blk) (fun _ _ h1 => ⟨rfl,h.emitted_single hp h1⟩) fun _ hf => hf

lemma step (h : j.OnRing G) {k c' : ℕ} (hp : Emits G j c' L p r) :
    Emits G j c' L (Prog.require (j.pos c k != 0) >>= fun _ => p) r := by
  intro w hw hd hl
  rw [wp_bind,show (j.pos c k != 0)=true by simpa using h.pos_pos c k]
  exact hp w hw hd hl

lemma bind {f : α → Ext4M β} (h : j.OnRing G) (hm : Emits G j c L p r)
    (hf : Emits G j (j.pos c L.length) L' (f r) s) : Emits G j c (L++L') (p >>= f) s := by
  intro w hp hd hlen
  rw [List.length_append] at hlen
  rw [wp_bind]
  refine wp_imp (hm w hp hd (by omega)) ?_
  rintro _ w1 ⟨rfl,h1⟩
  have hp1 := h1.put.placed hp fun b hb => h.not_tree hp.layout hb
  exact wp_mono (hf w1 hp1 (h1.put.direct hd) (by omega))
    (fun _ w2 h2 => ⟨h2.1,h.emitted_append hp h1 h2.2 hlen⟩) fun _ hf hw => hf (h1.put.writesOk hw)

/-- The blocks after `c` are written first. -/
lemma cons {f : α → Ext4M β} {q : Ext4M β} {blk : Buf} (h : j.OnRing G) (hc : j.inRing c=true)
    (hm : Emits G j (j.pos c 1) L p r) (hq : Emits G j (j.pos c (L.length+1)) L' q s)
    (hf : f r=do ext4Jbd2WriteJblock j.journalMeta c blk; q) : Emits G j c (blk::L++L') (p >>= f) s := by
  intro w hp hd hlen
  rw [List.length_append,List.length_cons] at hlen
  rw [wp_bind]
  refine wp_imp (hm w hp hd (by omega)) ?_
  rintro _ w1 ⟨rfl,h1⟩
  rw [hf,wp_bind]
  have hp1 := h1.put.placed hp fun b hb => h.not_tree hp.layout hb
  refine wp_mono (wp_logWrite h hc hp1 (h1.put.direct hd) _) (fun _ w2 h2 => ?_)
    fun _ hf hw => hf (h1.put.writesOk hw)
  have h3 := h.emitted_cons hp h1 h2 (by omega)
  have hp3 := h3.put.placed hp fun b hb => h.not_tree hp.layout hb
  exact wp_mono (hq w2 hp3 (h3.put.direct hd) (by omega))
    (fun _ w4 h4 => ⟨h4.1,h.emitted_append hp h3 h4.2 hlen⟩) fun _ hf hw => hf (h3.put.writesOk hw)

end Emits

lemma emits_tags (h : j.OnRing G) (seq : ℕ) (ds : List Jbd2Dirty) (desc : Buf) (off : ℕ)
    (hc : j.inRing c=true) : Emits G j c (ds.map fun d => escaped d.data) (emitTags j seq ds desc off c)
      (putTags j seq ds desc off,j.pos c ds.length) := by
  induction ds generalizing desc off c with
  | nil =>
    rw [List.length_nil,h.pos_zero hc]
    exact .pure _
  | cons d ds ih =>
    rw [emitTags,next_of_inRing h hc,List.length_cons,Nat.add_comm ds.length,← h.pos_pos']
    exact .bind h (.write h hc _) (.step h (ih _ _ (h.inRing_pos c 1)))

lemma emits_descriptors (h : j.OnRing G) (seq fuel : ℕ) (ds : List Jbd2Dirty) (hc : j.inRing c=true) :
    Emits G j c (descriptorLog j seq fuel ds) (emitDescriptors j seq fuel ds c)
      (j.pos c (descriptorLog j seq fuel ds).length) := by
  induction fuel generalizing ds c with
  | zero =>
    rw [descriptorLog,List.length_nil,h.pos_zero hc]
    exact .pure c
  | succ fuel ih =>
    rw [descriptorLog,emitDescriptors]
    split_ifs
    · rw [List.length_nil,h.pos_zero hc]
      exact .pure c
    rw [next_of_inRing h hc,List.length_append,← h.pos_pos']
    have htags := emits_tags h seq (ds.take j.tagsPerDesc) (logHeader jbd2DescriptorBlock seq) 12
      (h.inRing_pos c 1)
    refine .step h (.cons h hc htags ?_ rfl)
    rw [h.pos_pos',Nat.add_comm 1,List.length_cons,List.length_map]
    exact ih _ (h.inRing_pos _ _)

lemma emits_revokes (h : j.OnRing G) (seq fuel : ℕ) (bs : List ℕ) (hc : j.inRing c=true) :
    Emits G j c (revokeLog j seq fuel bs) (emitRevokes j seq fuel bs c)
      (j.pos c (revokeLog j seq fuel bs).length) := by
  induction fuel generalizing bs c with
  | zero =>
    rw [revokeLog,List.length_nil,h.pos_zero hc]
    exact .pure c
  | succ fuel ih =>
    rw [revokeLog,emitRevokes]
    split_ifs
    · rw [List.length_nil,h.pos_zero hc]
      exact .pure c
    rw [next_of_inRing h hc,List.length_cons,Nat.add_comm,← h.pos_pos']
    exact .bind h (.write h hc _) (.step h (ih _ (h.inRing_pos c 1)))

lemma emits_log (h : j.OnRing G) (hc : j.inRing c=true) (hsize : j.blockSize≤4096) :
    Emits G j c (txLog j) (emitLog j c) (j.pos c (txLog j).length) := by
  rw [txLog,List.length_append,List.length_append,← h.pos_pos',← h.pos_pos']
  refine .bind h (emits_descriptors h _ _ _ hc) (.bind h (emits_revokes h _ _ _ (h.inRing_pos _ _)) ?_)
  rw [ext4Jbd2TxEmitCommit,next_of_inRing h (h.inRing_pos _ _),decide_eq_true hsize]
  exact fun w hp hd hl => (Emits.bind h (.write h (h.inRing_pos _ _) _) (.step h (.pure _))) w hp hd hl

end Emit

/-- The engine after a transaction with the log from `p` to `e` was put on the list. -/
def Jbd2State.pushed (j : Jbd2State) (p e : ℕ) : Jbd2State :=
  {ext4Jbd2RefreshStartTail {j with pending := j.pending++[⟨j.sequence,p,e,j.txDirty⟩]} with
    head := e, sequence := (j.sequence+1)%2^32}

/-- The phases of a commit, each of them flushed before the next: the journal superblock, the log,
the journal superblock again. -/
def CommitPhases (G : Geometry) (p : ℕ) (w w' : World) : Prop := ∃ w1 w2 w3 w4 w5,
  PutBlock (G.jmap 0) (w.jbd2.superBlock (w.jsb G)) w w1 ∧ (Quiet w1 w2 ∧ w2.Clean) ∧
  Emitted G w.jbd2 p (txLog w.jbd2) w2 w3 ∧ (Quiet w3 w4 ∧ w4.Clean) ∧
  PutBlock (G.jmap 0) ((w.jbd2.pushed p (w.jbd2.pos p (txLog w.jbd2).length)).superBlock (w4.jsb G))
    (w4.setJbd2 fun _ => w.jbd2.pushed p (w.jbd2.pos p (txLog w.jbd2).length)) w5 ∧
  (Quiet w5 w' ∧ w'.Clean)

section Body
variable {G : Geometry} {w w' w'' : World} {p : ℕ} {B : ℕ → Prop}

lemma World.Engine.of_blocksPut (h : w.Engine G) (hp : BlocksPut B w w')
    (hB : ∀ b, B b → ¬ G.tree b) : w'.Engine G :=
  h.of_touches hp.touches hB (by rw [hp.jbd2]; exact ⟨rfl,rfl,rfl,rfl,rfl⟩)

lemma World.Engine.of_quiet (h : w.Engine G) (hq : Quiet w w') : w'.Engine G :=
  h.of_blocksPut (hq.blocksPut fun _ => False) fun _ h => h.elim

lemma World.Engine.setJbd2 (h : w.Engine G) {f : Jbd2State → Jbd2State}
    (hf : SameEngine w.jbd2 (f w.jbd2)) : (w.setJbd2 f).Engine G := by
  refine h.of_touches (B := fun _ => False) ((Touches.refl h.placed.online _).setJbd2 f) (fun _ h => h.elim) hf

lemma sameEngine_pushed (j : Jbd2State) (p e : ℕ) : SameEngine j (j.pushed p e) := by
  unfold pushed
  rw [refresh_eq]
  exact ⟨rfl,rfl,rfl,rfl,rfl⟩

lemma wp_commitBody (he : w.Engine G) (hby : w.jbd2.ioBypass=true) (hin : w.jbd2.inRing p=true)
    (hlen : (txLog w.jbd2).length≤w.jbd2.ring) (hpend : w.jbd2.pending.length<ext4Jbd2MaxPendingTx)
    (htx : w.jbd2.txDirty.length≤ext4Jbd2TxMaxBlocks) :
    (commitBody p).wp (fun _ w' => CommitPhases G p w w') (fun _ => ¬ w.cache.WritesOk) w := by
  have hp := he.placed
  have hring := he.onRing
  have hd : w.Direct := .inr (.inl hby)
  have hsize : w.jbd2.blockSize≤4096 := by
    rw [he.block]
    rcases hp.blockSize with h | h | h <;> omega
  simp only [commitBody,wp_bind]
  refine wp_mono (wp_ext4Jbd2StoreSuper he hd) ?_ fun _ hf => hf.1
  intro _ w1 h1
  have he1 : w1.Engine G := he.of_blocksPut h1.put fun _ => he.log_not_tree he.maxlen_pos
  refine wp_mono (wp_flushCache he1.placed.online) ?_ fun _ hf hw => hf.2 (h1.put.writesOk hw)
  rintro _ w2 ⟨h2,hc2⟩
  have he2 := he1.of_quiet h2
  have hj2 : w2.jbd2=w.jbd2 := h2.jbd2.trans h1.put.jbd2
  have hok2 : w.cache.WritesOk → w2.cache.WritesOk := fun hw => h2.writesOk (h1.put.writesOk hw)
  simp only [wp_gets,hj2]
  refine wp_mono (emits_log hring hin hsize w2 he2.placed (h2.direct (h1.put.direct hd)) hlen) ?_
    fun _ hf hw => hf (hok2 hw)
  rintro e w3 ⟨rfl,h3⟩
  have he3 : w3.Engine G := he2.of_blocksPut h3.put fun b hb => hring.not_tree hp.layout hb
  have hok3 : w.cache.WritesOk → w3.cache.WritesOk := fun hw => h3.put.writesOk (hok2 hw)
  refine wp_mono (wp_flushCache he3.placed.online) ?_ fun _ hf hw => hf.2 (hok3 hw)
  rintro _ w4 ⟨h4,hc4⟩
  have hj4 : w4.jbd2=w.jbd2 := h4.jbd2.trans (h3.put.jbd2.trans hj2)
  simp only [ext4Jbd2PendingPush,wp_bind,wp_gets,hj4,decide_eq_true hpend,
    decide_eq_true htx,wp_require_true,wp_modify]
  have hset : (w4.setJbd2 fun j => ext4Jbd2RefreshStartTail {j with pending := j.pending ++
      [⟨w.jbd2.sequence,p,w.jbd2.pos p (txLog w.jbd2).length,w.jbd2.txDirty⟩]}).setJbd2 (fun j' =>
        {j' with head := w.jbd2.pos p (txLog w.jbd2).length, sequence := (w.jbd2.sequence+1)%2^32}) =
      w4.setJbd2 fun _ => w.jbd2.pushed p (w.jbd2.pos p (txLog w.jbd2).length) := by
    simp only [World.setJbd2,hj4,pushed]
  rw [hset]
  set w4' := w4.setJbd2 fun _ => w.jbd2.pushed p (w.jbd2.pos p (txLog w.jbd2).length)
  have he4 : w4'.Engine G := (he3.of_quiet h4).setJbd2 (by rw [hj4]; exact sameEngine_pushed _ _ _)
  have hok4 : w.cache.WritesOk → w4'.cache.WritesOk := fun hw => h4.writesOk (hok3 hw)
  have hd4 : w4'.Direct := by
    refine .inr (.inl ?_)
    change (w.jbd2.pushed p _).ioBypass=true
    unfold pushed
    rw [refresh_eq]
    exact hby
  refine wp_mono (wp_ext4Jbd2StoreSuper he4 hd4) ?_ fun _ hf hw => hf.1 (hok4 hw)
  intro _ w5 h5
  refine wp_mono (wp_flushCache (h5.put.online he4.placed.online)) ?_
    fun _ hf hw => hf.2 (h5.put.writesOk (hok4 hw))
  rintro _ w6 ⟨h6,hc6⟩
  exact ⟨w1,w2,w3,w4,w5,h1,⟨h2,hc2⟩,h3,⟨h4,hc4⟩,h5,h6,hc6⟩

end Body

/-- The engine while the log of its transaction is written to the reserved blocks. -/
def Jbd2State.reserved (j : Jbd2State) (p next : ℕ) : Jbd2State :=
  {j with
    txEnospc := false, ioBypass := true, start := if j.pending.isEmpty then p else j.start
    head := next}

/-- A commit of a transaction that is not empty, with the checkpoint that may follow it. -/
def World.Committed (G : Geometry) (w w' : World) : Prop := ∃ p next w1,
  ext4Jbd2ReserveRing w.jbd2 w.jbd2.totalBlocks=some (p,next) ∧ 0<w.jbd2.tagsPerDesc ∧
  w.jbd2.pending.length<ext4Jbd2MaxPendingTx ∧
  CommitPhases G p (w.setJbd2 fun j => j.reserved p next) w1 ∧ Settles G (w1.setJbd2 closeTx) w'

section Phases
variable {G : Geometry} {w w' : World} {p : ℕ} {next : ℕ}

lemma CommitPhases.touches (h : CommitPhases G p w w') :
    Touches (fun b => b=G.jmap 0 ∨ LogRun G w.jbd2 p (txLog w.jbd2).length b) w w' := by
  obtain ⟨w1,w2,w3,w4,w5,h1,⟨h2,-⟩,h3,⟨h4,-⟩,h5,h6,-⟩ := h
  have ht4 := ((h1.put.touches.trans (h2.blocksPut fun _ => False).touches).trans
    h3.put.touches).trans (h4.blocksPut fun _ => False).touches
  refine ((ht4.setJbd2 _).trans (h5.put.touches.trans (h6.blocksPut fun _ => False).touches)).weaken ?_
  rintro b ((((hb | hb) | hb) | hb) | (hb | hb))
  exacts [.inl hb,hb.elim,.inr hb,hb.elim,.inl hb,hb.elim]

lemma CommitPhases.jbd2 (h : CommitPhases G p w w') :
    w'.jbd2=w.jbd2.pushed p (w.jbd2.pos p (txLog w.jbd2).length) := by
  obtain ⟨w1,w2,w3,w4,w5,h1,⟨h2,-⟩,h3,⟨h4,-⟩,h5,h6,-⟩ := h
  rw [h6.jbd2,h5.put.jbd2]
  rfl

lemma pushed_pending (j : Jbd2State) (p e : ℕ) :
    (j.pushed p e).pending=j.pending++[⟨j.sequence,p,e,j.txDirty⟩] := by
  unfold pushed
  rw [refresh_eq]

lemma World.Running.reserved (h : w.Running G) (p next : ℕ) :
    Engine G (w.setJbd2 fun j => j.reserved p next) :=
  h.engine.setJbd2 ⟨rfl,rfl,rfl,rfl,rfl⟩

lemma CommitPhases.running (hr : w.Running G)
    (h : CommitPhases G p (w.setJbd2 fun j => j.reserved p next) w') :
    Running G (w'.setJbd2 closeTx) := by
  have ht := h.touches
  have he := hr.reserved p next
  have hj := h.jbd2
  have htree : ∀ b, b=G.jmap 0 ∨ LogRun G (w.setJbd2 fun j => j.reserved p next).jbd2 p
      (txLog (w.setJbd2 fun j => j.reserved p next).jbd2).length b → ¬ G.tree b := by
    rintro b (hb | hb)
    · exact he.log_not_tree he.maxlen_pos hb
    · exact he.onRing.not_tree he.placed.layout hb
  have he' : w'.Engine G := he.of_touches ht htree (by rw [hj]; exact sameEngine_pushed _ _ _)
  have hext : w'.ext4=w.ext4 := ht.ext4
  refine ⟨he'.setJbd2 ⟨rfl,rfl,rfl,rfl,rfl⟩,rfl,?_,?_,?_,?_⟩
  · intro q hq
    change q∈w'.jbd2.pending at hq
    rw [hj,pushed_pending,List.mem_append] at hq
    rw [show (w'.setJbd2 closeTx).ext4=w.ext4 from hext]
    rcases hq with hq | hq
    · exact hr.pending q hq
    · obtain rfl := List.mem_singleton.1 hq
      exact ⟨hr.tx.nodup,fun b hb => ⟨hr.tx.bound b hb,hr.txHome b hb⟩⟩
  · exact ⟨by simp [World.setJbd2,closeTx,blocksOf],by simp [World.setJbd2,closeTx,blocksOf],
      by simp [World.setJbd2,closeTx],by simp [World.setJbd2,closeTx],by simp [World.setJbd2,closeTx],
      by simp [World.setJbd2,closeTx],by simp [World.setJbd2,closeTx]⟩
  · simp [World.setJbd2,closeTx,blocksOf]
  · change w'.journal.txActive=false
    rw [ht.journal]
    exact hr.noJlogTx

lemma CommitPhases.baseView (hr : w.Running G)
    (h : CommitPhases G p (w.setJbd2 fun j => j.reserved p next) w') {x : ℕ}
    (hx : ¬ G.IsLog (x/w.ext4.blockSize)) :
    (w'.setJbd2 closeTx).baseView x = imaged w.ext4.blockSize w.jbd2.txDirty w.baseView x := by
  have ht := h.touches
  have he := hr.reserved p next
  have hraw : w'.rawView x=w.rawView x := by
    refine ht.other x ?_
    rintro (hb | hb)
    · exact hx ⟨0,he.maxlen_pos,hb.symm⟩
    · exact hx (he.onRing.isLog hb)
  have hpend : (w'.setJbd2 closeTx).pendingImages=w.pendingImages++w.jbd2.txDirty := by
    change w'.jbd2.pending.flatMap _=_
    rw [h.jbd2,pushed_pending]
    simp [pendingImages,World.setJbd2,Jbd2State.reserved]
  have hbs : (w'.setJbd2 closeTx).jbd2.blockSize=w.jbd2.blockSize := by
    change w'.jbd2.blockSize=_
    rw [h.jbd2]
    exact (sameEngine_pushed _ _ _).2.1
  unfold World.baseView
  rw [hpend,hbs,imaged_append,hr.engine.block]
  exact imaged_congr_at _ (imaged_congr_at _ hraw)

end Phases

section Transaction
variable {G : Geometry} {w w' : World} {Q : Unit → World → Prop} {E : World → Prop} {j : Jbd2State} {p : ℕ}

lemma wp_checkpointSome_tx (h : w.jbd2.txActive=true) (budget : ℕ) : (ext4Jbd2CheckpointSome budget).wp Q E w ↔ Q () w := by
  simp [ext4Jbd2CheckpointSome,h]

/-- While a transaction is open nothing is checkpointed. -/
lemma backWork_tx : BackWork (fun w => w.jbd2.txActive=true) fun w w' => w'=w where
  refl _ := rfl
  trans h h' := h'.trans h
  keeps h hs := hs ▸ h
  some h _ := (wp_checkpointSome_tx h _).2 rfl

lemma wp_reserveLoop_tx (h : w.jbd2.txActive=true) (total tries : ℕ) : (reserveLoop total tries).wp
      (fun r w' => w'=w ∧ ext4Jbd2ReserveRing w.jbd2 total=some r)
      (fun w' => ∃ b, w'=setEnospc b w) w := by
  induction tries with
  | zero => exact ⟨true,rfl⟩
  | succ tries ih =>
    simp only [reserveLoop,wp_bind,wp_gets]
    cases hr : ext4Jbd2ReserveRing w.jbd2 total with
    | some r => exact ⟨rfl,rfl⟩
    | none =>
      rw [hr] at ih
      dsimp only
      split
      · exact ⟨true,rfl⟩
      · rw [wp_bind]
        refine wp_mono (backWork_tx.untilFree total h) ?_ ?_
        · rintro _ w' rfl
          exact ih
        · rintro w' rfl
          exact ⟨w'.jbd2.txEnospc,rfl⟩

lemma wp_makeRoom_tx (h : w.jbd2.txActive=true) :
    makeRoom.wp (fun _ w' => w'=w ∧ w.jbd2.pending.length<ext4Jbd2MaxPendingTx)
      (fun w' => ∃ b, w'=setEnospc b w) w := by
  simp only [makeRoom,wp_bind,wp_gets]
  split_ifs with hfull
  · simp only [wp_bind,wp_attempt,wp_checkpointSome_tx h,wp_gets,if_pos hfull]
    exact ⟨true,rfl⟩
  · exact ⟨rfl,by omega⟩

lemma reserveRing_some {n next : ℕ} (h : ext4Jbd2ReserveRing j n=some (p,next)) :
    n<j.ring ∧ n≤j.ext4Jbd2RingFreeBlocks ∧ p=j.clamp j.head ∧ next=j.ext4Jbd2RingAdvance p n := by
  unfold ext4Jbd2ReserveRing at h
  dsimp only at h
  split_ifs at h
  · obtain ⟨rfl,rfl⟩ := Prod.mk.inj (Option.some.inj h)
    exact ⟨by omega,by omega,rfl,rfl⟩
  · obtain ⟨rfl,rfl⟩ := Prod.mk.inj (Option.some.inj h)
    exact ⟨by omega,by omega,rfl,rfl⟩

lemma Jbd2State.OnRing.inRing_clamp (h : j.OnRing G) (b : ℕ) : j.inRing (j.clamp b)=true := by
  unfold clamp
  split_ifs with hb
  · exact hb
  · simp only [inRing,Bool.and_eq_true,decide_eq_true_eq]
    exact ⟨le_rfl,h.first⟩

lemma Jbd2State.OnRing.ringAdvance (h : j.OnRing G) (hp : j.inRing p=true)
    (n : ℕ) : j.ext4Jbd2RingAdvance p n=j.pos p n := by
  have hf := h.first
  have hpos : ¬ (j.ring=0 ∨ ¬ j.inRing p=true) := by
    rw [not_or,not_not]
    exact ⟨by unfold ring; omega,hp⟩
  rw [ext4Jbd2RingAdvance,if_neg hpos,Nat.add_mod_mod]
  rfl

lemma World.BackWork.trailing {I : World → Prop} {R : World → World → Prop} (hR : BackWork I R)
    (htick : ∀ {w} n, I w → R w {w with tick := n}) (h : I w) :
    trailingCheckpoint.wp (fun _ => R w) (fun _ => False) w := by
  simp only [trailingCheckpoint,wp_bind,wp_gets]
  split_ifs
  · rw [wp_bind,wp_attempt]
    exact hR.maybeCheckpoint htick false h
  · exact hR.refl h

lemma trailingCheckpoint_total : trailingCheckpoint.wp (fun _ _ => True) (fun _ => False) w := by
  simp only [trailingCheckpoint,wp_bind,wp_gets]
  split_ifs
  · rw [wp_bind,wp_attempt]
    exact wp_trivial
  · trivial

lemma wp_txCommit_trailing (h : w.Running G) (ht : w.jbd2.txActive=true) : ext4Jbd2TxCommit.wp
      (fun _ w' => (w.jbd2.txDirty=[] ∧ w.jbd2.txRevokes=[] ∧
          w'=w.setJbd2 fun j => {j with txEnospc := false, txActive := false}) ∨
        ∃ p next w1, (w.jbd2.txDirty≠[] ∨ w.jbd2.txRevokes≠[]) ∧
          ext4Jbd2ReserveRing w.jbd2 w.jbd2.totalBlocks=some (p,next) ∧
          0<w.jbd2.tagsPerDesc ∧ w.jbd2.pending.length<ext4Jbd2MaxPendingTx ∧
          CommitPhases G p (w.setJbd2 fun j => j.reserved p next) w1 ∧
          trailingCheckpoint.run (w1.setJbd2 closeTx)=(some (),w'))
      (fun w' => (∃ b, w'=setEnospc b w) ∨ ¬ w.cache.WritesOk) w := by
  simp only [ext4Jbd2TxCommit,wp_bind,wp_gets,h.engine.enabled,Bool.not_true,
    Bool.false_eq_true,if_false,ht,Bool.true_and,wp_require]
  by_cases hready : w.jbd2.writeReady=true
  swap
  · rw [if_neg hready]
    exact .inl ⟨w.jbd2.txEnospc,rfl⟩
  rw [if_pos hready,wp_modify]
  by_cases hover : w.jbd2.txRevokeOverflow=true
  · rw [if_pos hover]
    exact .inl ⟨true,rfl⟩
  rw [if_neg hover]
  by_cases hempty : (w.jbd2.txDirty.isEmpty && w.jbd2.txRevokes.isEmpty)=true
  · rw [if_pos hempty]
    simp only [Bool.and_eq_true,List.isEmpty_iff] at hempty
    exact .inl ⟨hempty.1,hempty.2,rfl⟩
  rw [if_neg hempty]
  have ht' : (setEnospc false w).jbd2.txActive=true := ht
  have hset : ∀ {w' : World}, (∃ b, w'=setEnospc b (setEnospc false w)) → ∃ b, w'=setEnospc b w :=
    fun h => h
  simp only [wp_bind]
  refine wp_mono (wp_makeRoom_tx ht') ?_ fun w' hw' => .inl (hset hw')
  rintro _ w1 ⟨rfl,hroom⟩
  simp only [wp_require]
  split_ifs with hdesc htags hring
  rotate_right 2
  · exact .inl ⟨false,rfl⟩
  · exact .inl ⟨false,rfl⟩
  · exact .inl ⟨true,rfl⟩
  simp only [wp_bind]
  refine wp_mono (wp_reserveLoop_tx ht' _ _) ?_ fun w' hw' => .inl (hset hw')
  rintro ⟨p,next⟩ w1 ⟨rfl,hres⟩
  have htags' : 0<w.jbd2.tagsPerDesc := Nat.pos_of_ne_zero (by simpa using htags)
  obtain ⟨hlt,hfree,hp,-⟩ := reserveRing_some hres
  simp only [wp_modify,wp_onFail]
  have hw0 : ((setEnospc false w).setJbd2 fun j => {j with
      ioBypass := true, start := if j.pending.isEmpty then p else j.start, head := next}) =
      w.setJbd2 fun j => j.reserved p next := rfl
  rw [hw0]
  have hlen : (txLog (w.jbd2.reserved p next)).length=w.jbd2.totalBlocks :=
    length_txLog (w.jbd2.reserved p next) htags'
  refine wp_mono (wp_commitBody (w := w.setJbd2 fun j => j.reserved p next) (h.reserved p next)
    rfl ?_ ?_ hroom h.tx.size) ?_ ?_
  · rw [hp]
    exact h.engine.onRing.inRing_clamp _
  · change (txLog (w.jbd2.reserved p next)).length≤_
    rw [hlen]
    exact hlt.le
  swap
  · exact fun _ => .inr
  intro _ w1 h1
  obtain ⟨_,w',hrun,-⟩ := wp_total (trailingCheckpoint_total (w := w1.setJbd2 closeTx))
  have hne : w.jbd2.txDirty≠[] ∨ w.jbd2.txRevokes≠[] := by
    simpa only [Bool.and_eq_true,List.isEmpty_iff,not_and_or] using hempty
  exact wp_of_run hrun (.inr ⟨p,next,w1,hne,hres,htags',hroom,h1,hrun⟩)

lemma wp_ext4Jbd2TxCommit (h : w.Running G) (ht : w.jbd2.txActive=true) : ext4Jbd2TxCommit.wp
      (fun _ w' => (w.jbd2.txDirty=[] ∧ w.jbd2.txRevokes=[] ∧
          w'=w.setJbd2 fun j => {j with txEnospc := false, txActive := false}) ∨
        (w.cache.WritesOk → Committed G w w'))
      (fun w' => (∃ b, w'=setEnospc b w) ∨ ¬ w.cache.WritesOk) w := by
  refine wp_imp (wp_txCommit_trailing h ht) ?_
  rintro _ w' (hempty | ⟨p,next,w1,-,hres,htags,hroom,h1,hrun⟩)
  · exact .inl hempty
  · refine .inr fun hok => ⟨p,next,w1,hres,htags,hroom,h1,?_⟩
    have hsettles := backWork_settles.trailing (fun n _ => .marked n _ _)
      ⟨CommitPhases.running h h1,h1.touches.writesOk hok⟩
    have hw' := wp_some hsettles hrun
    exact hw'

end Transaction

end FuriOS
