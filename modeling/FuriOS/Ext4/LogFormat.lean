import FuriOS.Ext4.Replay
import FuriOS.Lib.Redo

/-! The format of the log: which blocks make up a transaction, and what the scan of recovery
collects from a log that is well formed. -/
namespace FuriOS
open Jbd2State

/-- What a tag says: the block, where its image is in the log, and the marks of the tag. -/
structure LogEntry where
  fsBlock : ℕ
  jBlock : ℕ
  escape : Bool
  deleted : Bool

/-- The contents of a descriptor block or of a revoke block. -/
inductive LogItem
  | images (es : List LogEntry)
  | revokes (bs : List ℕ)

def isHeader (blk : Buf) (type seq : ℕ) : Prop :=
  blk.rdBe32 jbd2HdrMagicOff=jbd2MagicNumber ∧ blk.rdBe32 jbd2HdrTypeOff=type ∧
    blk.rdBe32 jbd2HdrSeqOff=seq

instance (blk : Buf) (type seq : ℕ) : Decidable (isHeader blk type seq) :=
  inferInstanceAs (Decidable (_ ∧ _))

def Jbd2State.nextBlock (j : Jbd2State) (p : ℕ) : ℕ := ext4Jbd2NextBlock p j.first j.maxlen

/-- The block that the entry at `off` of a revoke block names. -/
def revokeEntry (j : Jbd2State) (blk : Buf) (off : ℕ) : ℕ :=
  blk.rdBe32 off+(if j.feat64bit then blk.rdBe32 (off+4)*2^32 else 0)

section Format
variable (fs : Ext4Fs) (j : Jbd2State) (rd : ℕ → Buf)

/-- A tag that recovery accepts, with its image. -/
structure TagOk (blk : Buf) (seq off pos : ℕ) (t : Jbd2Tag) : Prop where
  room : off+8≤fs.blockSize
  tag : readTag fs.blockSize j blk off=some t
  flags : t.flags<16
  bound : t.fsBlock<fs.blocksCount
  sum : tagSumOk j seq t (rd pos)=true

def Jbd2Tag.entry (t : Jbd2Tag) (pos : ℕ) : LogEntry :=
  ⟨t.fsBlock,pos,hasFlag t.flags jbd2FlagEscape,hasFlag t.flags jbd2FlagDeleted⟩

/-- The tags from `off` on, with their images from `pos` on, and the position after these. -/
inductive TagsAt (blk : Buf) (seq : ℕ) : ℕ → ℕ → List LogEntry → ℕ → Prop
  | last {off pos : ℕ} {t : Jbd2Tag} (h : TagOk fs j rd blk seq off pos t)
      (hl : hasFlag t.flags jbd2FlagLastTag=true) :
      TagsAt blk seq off pos [t.entry pos] (j.nextBlock pos)
  | more {off pos q : ℕ} {t : Jbd2Tag} {es : List LogEntry} (h : TagOk fs j rd blk seq off pos t)
      (hl : hasFlag t.flags jbd2FlagLastTag=false)
      (rest : TagsAt blk seq t.next (j.nextBlock pos) es q) :
      TagsAt blk seq off pos (t.entry pos::es) q

/-- The entries of a revoke block from `off` to `used`. -/
inductive RevokesAt (blk : Buf) (used : ℕ) : ℕ → List ℕ → Prop
  | nil : RevokesAt blk used used []
  | cons {off : ℕ} {bs : List ℕ} (h : off+j.revokeEntryBytes≤used)
      (rest : RevokesAt blk used (off+j.revokeEntryBytes) bs) :
      RevokesAt blk used off (revokeEntry j blk off::bs)

/-- A revoke block that recovery accepts. -/
structure RevokeBlockOk (blk : Buf) (bs : List ℕ) : Prop where
  feature : hasFlag j.featureIncompat jbd2FeatureIncompatRevoke=true
  tail : j.ext4Jbd2VerifyTailChecksum blk=true
  used : jbd2RevokeEntriesOff≤blk.rdBe32 jbd2RevokeCountOff ∧
    blk.rdBe32 jbd2RevokeCountOff≤fs.blockSize
  entries : RevokesAt j blk (blk.rdBe32 jbd2RevokeCountOff) jbd2RevokeEntriesOff bs

/-- The blocks of one transaction from `p` on, and the position after its commit block. -/
inductive TxAt (seq : ℕ) : ℕ → List LogItem → ℕ → Prop
  | desc {p q r : ℕ} {es : List LogEntry} {items : List LogItem}
      (h : isHeader (rd p) jbd2DescriptorBlock seq) (ht : j.ext4Jbd2VerifyTailChecksum (rd p)=true)
      (tags : TagsAt fs j rd (rd p) seq 12 (j.nextBlock p) es q) (rest : TxAt seq q items r) :
      TxAt seq p (.images es::items) r
  | revoke {p r : ℕ} {bs : List ℕ} {items : List LogItem}
      (h : isHeader (rd p) jbd2RevokeBlock seq) (hb : RevokeBlockOk fs j (rd p) bs)
      (rest : TxAt seq (j.nextBlock p) items r) : TxAt seq p (.revokes bs::items) r
  | commit {p : ℕ} (h : isHeader (rd p) jbd2CommitBlock seq)
      (hc : j.ext4Jbd2VerifyCommitChecksum (rd p)=true) : TxAt seq p [] (j.nextBlock p)

/-- A log of consecutive transactions from `p` on; the block at its end starts no other one. -/
inductive LogOf : ℕ → ℕ → List (List LogItem) → ℕ → Prop
  | nil {p seq : ℕ} (h : ¬ ((rd p).rdBe32 jbd2HdrMagicOff=jbd2MagicNumber ∧
      (rd p).rdBe32 jbd2HdrSeqOff=seq)) : LogOf p seq [] p
  | cons {p q r seq : ℕ} {items : List LogItem} {txs : List (List LogItem)} (hne : items≠[])
      (tx : TxAt fs j rd seq p items q) (rest : LogOf q ((seq+1)%2^32) txs r) :
      LogOf p seq (items::txs) r

end Format

section Tables
variable (fs : Ext4Fs) (j : Jbd2State)

/-- The two tables of recovery. -/
abbrev Tables := List Jbd2Update × List Jbd2Revoke

def addEntry (seq : ℕ) (revokes : List Jbd2Revoke) (e : LogEntry) (us : List Jbd2Update) :
    Option (List Jbd2Update) :=
  if !e.deleted && !ext4Jbd2RevokeContains revokes e.fsBlock then
    ext4Jbd2AddUpdate fs j ext4Jbd2TxMaxBlocks e.fsBlock e.jBlock seq e.escape true us
  else some us

/-- The entries of a descriptor block put into the table of their transaction. -/
def addEntries (seq : ℕ) (revokes : List Jbd2Revoke) :
    List LogEntry → List Jbd2Update → Option (List Jbd2Update)
  | [],us => some us
  | e::es,us => (addEntry fs j seq revokes e us).bind (addEntries seq revokes es)

def addRevokes (seq : ℕ) : List ℕ → List Jbd2Revoke → Option (List Jbd2Revoke)
  | [],rs => some rs
  | b::bs,rs => (ext4Jbd2AddRevoke fs ext4Jbd2TxMaxRevokes b seq false rs).bind (addRevokes seq bs)

def readItem (seq : ℕ) : LogItem → Tables → Option Tables
  | .images es,(us,rs) => (addEntries fs j seq rs es us).map fun us => (us,rs)
  | .revokes bs,(us,rs) => (addRevokes fs seq bs rs).map fun rs => (us,rs)

def readItems (seq : ℕ) : List LogItem → Tables → Option Tables
  | [],T => some T
  | i::is,T => (readItem fs j seq i T).bind (readItems seq is)

/-- The tables of a transaction that has met its commit block go into those of the log. -/
def mergeTx (tx T : Tables) : Option Tables :=
  (mergeRevokes fs tx.2 T.2).bind fun rs => (mergeUpdates fs j tx.1 T.1).map fun us => (us,rs)

def readLog : ℕ → List (List LogItem) → Tables → Option Tables
  | _,[],T => some T
  | seq,tx::txs,T =>
    (readItems fs j seq tx ([],[])).bind fun t => (mergeTx fs j t T).bind
      (readLog ((seq+1)%2^32) txs)

end Tables

/-- Blocks of the log that start with a header. -/
def headers : List (List LogItem) → ℕ
  | [] => 0
  | tx::txs => tx.length+1+headers txs

def endSeq (seq : ℕ) : ℕ → ℕ
  | 0 => seq
  | n+1 => endSeq ((seq+1)%2^32) n

section Eval
variable {fs : Ext4Fs} {j : Jbd2State} {rd : ℕ → Buf} {v : Buf}
variable {p off seq pos q fuel used : ℕ} {bs : List ℕ} {blk : Buf} {t : Jbd2Tag} {es : List LogEntry}
variable {s : ReplayState} {items : List LogItem}

lemma Jbd2State.inRing_nextBlock (hp : j.inRing p=true) : j.inRing (j.nextBlock p)=true := by
  simp only [inRing,Bool.and_eq_true,decide_eq_true_eq] at hp ⊢
  unfold nextBlock ext4Jbd2NextBlock
  rw [if_neg (by omega)]
  split_ifs <;> omega

lemma Jbd2State.ne_zero_of_inRing (hf : 0<j.first) (hp : j.inRing p=true) : p≠0 := by
  simp only [inRing,Bool.and_eq_true,decide_eq_true_eq] at hp
  omega

lemma readTag_next {bs : ℕ} (h : readTag bs j blk off=some t) : off+8≤t.next := by
  have hbytes : 8≤j.ext4Jbd2TxTagBytes := by
    unfold ext4Jbd2TxTagBytes
    split_ifs <;> omega
  unfold readTag at h
  dsimp only at h
  split_ifs at h with h1 h2 h3 h4 <;> obtain rfl := Option.some.inj h <;> simp <;> omega

lemma TagsAt.length (h : TagsAt fs j rd blk seq off pos es q) : off+8*es.length≤fs.blockSize := by
  induction h with
  | last h hl =>
    have := h.room
    simp only [List.length_singleton]
    omega
  | more h hl rest ih =>
    have := readTag_next h.tag
    simp only [List.length_cons]
    omega

variable (hf : 0<j.first)
  (hrd : ∀ p, j.inRing p=true → (fs.readJblock j.journalMeta p).eval v=some (rd p))
include hf hrd

lemma eval_parseTag
    (h : TagOk fs j rd blk seq off pos t) (hp : j.inRing pos=true) (rs : List Jbd2Revoke)
    (fuel : ℕ) (us : List Jbd2Update) :
    (parseTags fs j blk seq rs (fuel+1) off pos us).eval v =
      (addEntry fs j seq rs (t.entry pos) us).bind fun us =>
        if hasFlag t.flags jbd2FlagLastTag then some (j.nextBlock pos,us)
        else (parseTags fs j blk seq rs fuel t.next (j.nextBlock pos) us).eval v := by
  have hnext : (ext4Jbd2NextBlock pos j.first j.maxlen != 0)=true :=
    bne_iff_ne.2 (ne_zero_of_inRing hf (inRing_nextBlock hp))
  simp only [parseTags,Scan.eval_bind,Scan.eval_require,decide_eq_true h.room,if_true,
    Option.bind_some,Scan.eval_ofOption,h.tag,decide_eq_true h.flags,decide_eq_true h.bound,
    hrd pos hp,h.sum,hnext]
  have hadd : (if (!hasFlag t.flags jbd2FlagDeleted && !ext4Jbd2RevokeContains rs t.fsBlock)=true then
      Scan.ofOption (ext4Jbd2AddUpdate fs j ext4Jbd2TxMaxBlocks t.fsBlock pos seq
        (hasFlag t.flags jbd2FlagEscape) true us) else pure us : Scan (List Jbd2Update)).eval v =
      addEntry fs j seq rs (t.entry pos) us := by
    unfold addEntry Jbd2Tag.entry
    split_ifs
    · exact Scan.eval_ofOption _ _
    · rfl
  rw [hadd]
  congr 1
  funext us
  split_ifs <;> rfl

lemma eval_parseTags
    (h : TagsAt fs j rd blk seq off pos es q) (hp : j.inRing pos=true) (rs : List Jbd2Revoke) (hfuel : es.length≤fuel) (us : List Jbd2Update) :
    (parseTags fs j blk seq rs fuel off pos us).eval v =
      (addEntries fs j seq rs es us).map fun us => (q,us) := by
  induction h generalizing fuel us with
  | @last off pos t h hl =>
    obtain ⟨fuel,rfl⟩ := Nat.exists_eq_succ_of_ne_zero (show fuel≠0 by simp at hfuel; omega)
    rw [eval_parseTag hf hrd h hp]
    simp only [hl,if_true,addEntries]
    cases addEntry fs j seq rs (t.entry pos) us <;> rfl
  | @more off pos q t es h hl rest ih =>
    obtain ⟨fuel,rfl⟩ := Nat.exists_eq_succ_of_ne_zero (show fuel≠0 by simp at hfuel; omega)
    simp only [List.length_cons] at hfuel
    rw [eval_parseTag hf hrd h hp]
    simp only [hl,Bool.false_eq_true,if_false,addEntries]
    cases hadd : addEntry fs j seq rs (t.entry pos) us with
    | none => rfl
    | some us' => exact ih (inRing_nextBlock hp) (by omega) us'

omit hf hrd in
lemma TagsAt.inRing
    (h : TagsAt fs j rd blk seq off pos es q) (hp : j.inRing pos=true) : j.inRing q=true := by
  induction h with
  | last _ _ => exact inRing_nextBlock hp
  | more _ _ _ ih => exact ih (inRing_nextBlock hp)

lemma eval_step_desc (hp : j.inRing s.cursor=true)
    (h : isHeader (rd s.cursor) jbd2DescriptorBlock s.seq)
    (ht : j.ext4Jbd2VerifyTailChecksum (rd s.cursor)=true)
    (htags : TagsAt fs j rd (rd s.cursor) s.seq 12 (j.nextBlock s.cursor) es q) :
    (replayStep fs j s).eval v=(addEntries fs j s.seq s.txRevokes es s.txUpdates).map fun us =>
      some {s with cursor := q, txUpdates := us, txOpen := true} := by
  have hcur : (s.cursor != 0)=true := by simpa using ne_zero_of_inRing hf hp
  have hnext : (ext4Jbd2NextBlock s.cursor j.first j.maxlen != 0)=true :=
    bne_iff_ne.2 (ne_zero_of_inRing hf (inRing_nextBlock hp))
  have hlen := htags.length
  have hparse : (ext4Jbd2ParseDescriptorBlock fs j (rd s.cursor) s.seq s.cursor s.txRevokes
      s.txUpdates).eval v=(addEntries fs j s.seq s.txRevokes es s.txUpdates).map fun us => (q,us) := by
    simp only [ext4Jbd2ParseDescriptorBlock,Scan.eval_bind,Scan.eval_require,hcur,ht,hnext,if_true,
      Option.bind_some]
    exact eval_parseTags hf hrd htags (inRing_nextBlock hp) _ (by omega) _
  unfold replayStep
  rw [Scan.eval_bind,hrd _ hp,Option.bind_some]
  dsimp only
  rw [if_neg (by rw [h.1,h.2.2]; simp),if_pos h.2.1,Scan.eval_bind,hparse]
  cases addEntries fs j s.seq s.txRevokes es s.txUpdates <;> rfl

omit hf hrd in
lemma parseRevokeLoop_eq (h : RevokesAt j blk used off bs)
    (seq : ℕ) (hfuel : bs.length≤fuel) (rs : List Jbd2Revoke) :
    parseRevokeLoop fs j blk seq used fuel off rs =
      (addRevokes fs seq bs rs).map fun rs => (used,rs) := by
  induction h generalizing fuel rs with
  | nil =>
    cases fuel with
    | zero => rfl
    | succ fuel =>
      rw [parseRevokeLoop,if_neg (by omega)]
      rfl
  | @cons off bs h rest ih =>
    obtain ⟨fuel,rfl⟩ := Nat.exists_eq_succ_of_ne_zero (show fuel≠0 by simp at hfuel; omega)
    simp only [List.length_cons] at hfuel
    have h4 : off+4≤used := by
      unfold revokeEntryBytes at h
      split_ifs at h <;> omega
    have h8 : ¬ (j.feat64bit && decide (used<off+8))=true := by
      unfold revokeEntryBytes at h
      cases hfe : j.feat64bit <;> simp [hfe] at h ⊢
      exact h
    rw [Nat.succ_eq_add_one,parseRevokeLoop,if_pos h4,if_neg h8]
    simp only [addRevokes]
    rw [← revokeEntry]
    cases hadd : ext4Jbd2AddRevoke fs ext4Jbd2TxMaxRevokes (revokeEntry j blk off) seq false rs with
    | none => rfl
    | some rs' => exact ih (by omega) rs'

omit hf hrd in
lemma RevokesAt.length (h : RevokesAt j blk used off bs) : bs.length≤used := by
  have key : off+4*bs.length≤used := by
    induction h with
    | nil => simp
    | cons h rest ih =>
      have : 4≤j.revokeEntryBytes := by
        unfold revokeEntryBytes
        split_ifs <;> omega
      simp only [List.length_cons]
      omega
  omega

lemma eval_step_revoke (hp : j.inRing s.cursor=true)
    (h : isHeader (rd s.cursor) jbd2RevokeBlock s.seq) (hb : RevokeBlockOk fs j (rd s.cursor) bs) :
    (replayStep fs j s).eval v=(addRevokes fs s.seq bs s.txRevokes).map fun rs =>
      some {s with cursor := j.nextBlock s.cursor, txRevokes := rs, txOpen := true} := by
  have hnext : (ext4Jbd2NextBlock s.cursor j.first j.maxlen != 0)=true :=
    bne_iff_ne.2 (ne_zero_of_inRing hf (inRing_nextBlock hp))
  have hused := hb.used
  have hparse : ext4Jbd2ParseRevokeBlock fs j (rd s.cursor) s.seq s.txRevokes =
      addRevokes fs s.seq bs s.txRevokes := by
    unfold ext4Jbd2ParseRevokeBlock
    rw [if_neg (by omega),hb.tail,if_neg (by simp)]
    dsimp only
    rw [if_neg (by omega),parseRevokeLoop_eq hb.entries s.seq hb.entries.length]
    cases addRevokes fs s.seq bs s.txRevokes <;> simp
  unfold replayStep
  rw [Scan.eval_bind,hrd _ hp,Option.bind_some]
  dsimp only
  rw [if_neg (by rw [h.1,h.2.2]; simp),if_neg (by rw [h.2.1]; decide),if_pos h.2.1,Scan.eval_bind,
    hb.feature,Scan.eval_require,if_pos rfl,Option.bind_some,Scan.eval_bind,Scan.eval_ofOption,hparse]
  cases addRevokes fs s.seq bs s.txRevokes with
  | none => rfl
  | some rs =>
    rw [Option.bind_some,Scan.eval_bind,stepCursor,Scan.eval_bind,hnext]
    rfl

lemma eval_step_commit (hp : j.inRing s.cursor=true) (ho : s.txOpen=true)
    (h : isHeader (rd s.cursor) jbd2CommitBlock s.seq)
    (hc : j.ext4Jbd2VerifyCommitChecksum (rd s.cursor)=true) :
    (replayStep fs j s).eval v =
      (mergeTx fs j (s.txUpdates,s.txRevokes) (s.updates,s.revokes)).map fun T => some {s with
          cursor := j.nextBlock s.cursor, seq := (s.seq+1)%2^32, updates := T.1, revokes := T.2
          txUpdates := [], txRevokes := [], replayed := s.replayed+1, txOpen := false} := by
  have hnext : (ext4Jbd2NextBlock s.cursor j.first j.maxlen != 0)=true :=
    bne_iff_ne.2 (ne_zero_of_inRing hf (inRing_nextBlock hp))
  unfold replayStep
  rw [Scan.eval_bind,hrd _ hp,Option.bind_some]
  dsimp only
  rw [if_neg (by rw [h.1,h.2.2]; simp),if_neg (by rw [h.2.1]; decide),if_neg (by rw [h.2.1]; decide),
    if_pos h.2.1,Scan.eval_bind,ho,hc,Bool.and_self,Scan.eval_require,if_pos rfl,Option.bind_some,
    Scan.eval_bind,Scan.eval_ofOption,mergeTx]
  cases mergeRevokes fs s.txRevokes s.revokes with
  | none => rfl
  | some rs =>
    rw [Option.bind_some,Option.bind_some,Scan.eval_bind,Scan.eval_ofOption]
    cases mergeUpdates fs j s.txUpdates s.updates with
    | none => rfl
    | some us =>
      rw [Option.bind_some,Scan.eval_bind,stepCursor,Scan.eval_bind,hnext]
      rfl

omit hf in
lemma eval_step_end (hp : j.inRing s.cursor=true)
    (h : ¬ ((rd s.cursor).rdBe32 jbd2HdrMagicOff=jbd2MagicNumber ∧
      (rd s.cursor).rdBe32 jbd2HdrSeqOff=s.seq)) : (replayStep fs j s).eval v=some none := by
  unfold replayStep
  rw [Scan.eval_bind,hrd _ hp,Option.bind_some]
  dsimp only
  rw [if_pos (not_and_or.1 h)]
  rfl

omit hf hrd in
lemma TxAt.inRing (h : TxAt fs j rd seq p items q) (hp : j.inRing p=true) : j.inRing q=true := by
  induction h with
  | desc _ _ tags _ ih => exact ih (tags.inRing (inRing_nextBlock hp))
  | revoke _ _ _ ih => exact ih (inRing_nextBlock hp)
  | commit _ _ => exact inRing_nextBlock hp

lemma eval_tx (h : TxAt fs j rd seq p items q)
    (hp : j.inRing p=true) (guard : ℕ) (hc : s.cursor=p) (hs : s.seq=seq)
    (ho : items=[] → s.txOpen=true) :
    (replayLoop fs j guard s).eval v=if items.length<guard then
      (readItems fs j seq items (s.txUpdates,s.txRevokes)).bind fun t =>
        (mergeTx fs j t (s.updates,s.revokes)).bind fun T =>
          (replayLoop fs j (guard-(items.length+1)) {s with
              cursor := q, seq := (seq+1)%2^32, updates := T.1, revokes := T.2, txUpdates := []
              txRevokes := [], replayed := s.replayed+1, txOpen := false}).eval v
    else none := by
  induction h generalizing guard s with
  | @desc p q r es items h ht tags rest ih =>
    subst hc hs
    cases guard with
    | zero => rfl
    | succ guard =>
      rw [replayLoop,Scan.eval_bind,eval_step_desc hf hrd hp h ht tags,readItems,readItem]
      cases addEntries fs j s.seq s.txRevokes es s.txUpdates with
      | none => simp
      | some us =>
        simp only [Option.map_some,Option.bind_some,List.length_cons,Nat.add_lt_add_iff_right]
        rw [Nat.add_sub_add_right]
        exact ih (tags.inRing (inRing_nextBlock hp)) guard
          (s := {s with cursor := q, txUpdates := us, txOpen := true}) rfl rfl fun _ => rfl
  | @revoke p r bs items h hb rest ih =>
    subst hc hs
    cases guard with
    | zero => rfl
    | succ guard =>
      rw [replayLoop,Scan.eval_bind,eval_step_revoke hf hrd hp h hb,readItems,readItem]
      cases addRevokes fs s.seq bs s.txRevokes with
      | none => simp
      | some rs =>
        simp only [Option.map_some,Option.bind_some,List.length_cons,Nat.add_lt_add_iff_right]
        rw [Nat.add_sub_add_right]
        exact ih (inRing_nextBlock hp) guard
          (s := {s with cursor := j.nextBlock s.cursor, txRevokes := rs, txOpen := true}) rfl rfl
          fun _ => rfl
  | commit h hcs =>
    subst hc hs
    cases guard with
    | zero => rfl
    | succ guard =>
      rw [replayLoop,Scan.eval_bind,eval_step_commit hf hrd hp (ho rfl) h hcs,readItems,
        Option.bind_some]
      cases mergeTx fs j (s.txUpdates,s.txRevokes) (s.updates,s.revokes) with
      | none => simp
      | some T => simp

lemma eval_log {r : ℕ} {txs : List (List LogItem)} (h : LogOf fs j rd p seq txs r)
    (hp : j.inRing p=true) (guard : ℕ) (hc : s.cursor=p) (hs : s.seq=seq)
    (hu : s.txUpdates=[]) (hr : s.txRevokes=[]) (ho : s.txOpen=false) :
    (replayLoop fs j guard s).eval v=if headers txs<guard then
      (readLog fs j seq txs (s.updates,s.revokes)).map fun T =>
        {s with
          cursor := r, seq := endSeq seq txs.length, updates := T.1, revokes := T.2
          replayed := s.replayed+txs.length}
    else none := by
  induction h generalizing guard s with
  | @nil p seq h =>
    subst hc hs
    cases guard with
    | zero => rfl
    | succ guard =>
      rw [replayLoop,Scan.eval_bind,eval_step_end hrd hp h]
      simp [readLog,headers,endSeq]
  | @cons p q r seq items txs hne tx rest ih =>
    rw [eval_tx hf hrd tx hp guard hc hs fun h => (hne h).elim,readLog,headers,hu,hr]
    by_cases hg : items.length<guard
    swap
    · rw [if_neg hg,if_neg (by omega)]
    rw [if_pos hg]
    cases readItems fs j seq items ([],[]) with
    | none => simp
    | some t =>
      simp only [Option.bind_some]
      cases mergeTx fs j t (s.updates,s.revokes) with
      | none => simp
      | some T =>
        simp only [Option.bind_some]
        rw [ih (tx.inRing hp) _ rfl rfl rfl rfl rfl]
        have hiff : headers txs<guard-(items.length+1) ↔ items.length+1+headers txs<guard := by
          omega
        simp only [hiff,ho,endSeq,List.length_cons,Nat.add_assoc,Nat.add_comm 1]

end Eval

end FuriOS
