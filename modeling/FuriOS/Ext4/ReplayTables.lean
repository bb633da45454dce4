import FuriOS.Ext4.LogFormat

/-! What the tables of recovery mean: after the scan of a log whose sequence numbers do not wrap,
the update that is applied last to a block is the image of the latest transaction such that no
transaction from it on revokes the block. -/
namespace FuriOS

/-- The contents that an entry gives its block. -/
def LogEntry.image (rd : ℕ → Buf) (e : LogEntry) : Buf := unescaped e.escape (rd e.jBlock)

def Jbd2Update.image (rd : ℕ → Buf) (u : Jbd2Update) : Buf := unescaped u.escape (rd u.jBlock)

def LogItem.entries : LogItem → List LogEntry
  | .images es => es
  | .revokes _ => []

def LogItem.revoked : LogItem → List ℕ
  | .images _ => []
  | .revokes bs => bs

/-- A transaction of the log as images and revokes; entries marked as deleted log nothing. -/
def txRedo (rd : ℕ → Buf) (items : List LogItem) : Redo ℕ Buf where
  images := ((items.flatMap LogItem.entries).filter fun e => !e.deleted).map fun e =>
    (e.fsBlock,e.image rd)
  revokes := items.flatMap LogItem.revoked

def Tables.deciding (T : Tables) (b : ℕ) : Option Jbd2Update :=
  T.1.reverse.find? fun u => u.fsBlock == b && !ext4Jbd2RevokeHitsUpdate T.2 b u.seq

/-- A revoke covers the block from sequence number `q` on. -/
def Hit (rs : List Jbd2Revoke) (b q : ℕ) : Prop := ∃ r∈rs, r.fsBlock=b ∧ q≤r.seq

lemma revokeHits_iff {rs : List Jbd2Revoke} {b q : ℕ} :
    ext4Jbd2RevokeHitsUpdate rs b q=true ↔ Hit rs b q := by
  simp [ext4Jbd2RevokeHitsUpdate,Hit]

section Revokes
variable {fs : Ext4Fs} {r : Jbd2Revoke} {rs rs' acc acc' : List Jbd2Revoke} {b b' seq q : ℕ}

lemma hit_cons : Hit (r::rs) b q ↔ (r.fsBlock=b ∧ q≤r.seq) ∨ Hit rs b q := by
  simp [Hit]

lemma hit_append : Hit (rs++rs') b q ↔ Hit rs b q ∨ Hit rs' b q := by
  simp [Hit,or_and_right,exists_or]

lemma hit_raiseRevoke (hb : ext4Jbd2RevokeContains rs b=true) :
    Hit (raiseRevoke b seq rs) b' q ↔ Hit rs b' q ∨ (b'=b ∧ q ≤ seq) := by
  induction rs with
  | nil => simp [ext4Jbd2RevokeContains] at hb
  | cons r rs ih =>
    simp only [raiseRevoke]
    by_cases hr : r.fsBlock=b
    · rw [if_pos hr,hit_cons,hit_cons]
      split_ifs with hlt
      · constructor
        · rintro (⟨h1,h2⟩ | h)
          · exact .inr ⟨h1.symm.trans hr,h2⟩
          · exact .inl (.inr h)
        · rintro ((⟨h1,h2⟩ | h) | ⟨rfl,h2⟩)
          · exact .inl ⟨h1,h2.trans hlt.le⟩
          · exact .inr h
          · exact .inl ⟨hr,h2⟩
      · constructor
        · exact .inl
        · rintro (h | ⟨rfl,h2⟩)
          · exact h
          · exact .inl ⟨hr,by omega⟩
    · have hb' : ext4Jbd2RevokeContains rs b=true := by
        simpa [ext4Jbd2RevokeContains,hr] using hb
      rw [if_neg hr,hit_cons,hit_cons,ih hb',or_assoc]

lemma hit_addRevoke {revokeMax : ℕ} (h : ext4Jbd2AddRevoke fs revokeMax b seq true rs=some rs') :
    Hit rs' b' q ↔ Hit rs b' q ∨ (b'=b ∧ q ≤ seq) := by
  unfold ext4Jbd2AddRevoke at h
  split_ifs at h with h1 h2 h3 h4
  · obtain rfl := Option.some.inj h
    exact hit_raiseRevoke h2
  · exact (h3 rfl).elim
  · obtain rfl := Option.some.inj h
    rw [hit_append]
    simp [Hit,eq_comm]

lemma hit_mergeRevokes (h : mergeRevokes fs rs acc=some acc') :
    Hit acc' b q ↔ Hit acc b q ∨ Hit rs b q := by
  induction rs generalizing acc with
  | nil =>
    obtain rfl := Option.some.inj h
    simp [Hit]
  | cons r rs ih =>
    simp only [mergeRevokes,Option.bind_eq_bind] at h
    obtain ⟨acc1,h1,h2⟩ := Option.bind_eq_some_iff.1 h
    rw [ih h2,hit_addRevoke h1,hit_cons,or_assoc,eq_comm (a := b)]

lemma addRevokes_spec {bs : List ℕ} (h : addRevokes fs seq bs rs=some rs')
    (hs : ∀ r∈rs, r.seq=seq) : (∀ r∈rs', r.seq=seq) ∧
      ∀ b, ext4Jbd2RevokeContains rs' b=true ↔ ext4Jbd2RevokeContains rs b=true ∨ b∈bs := by
  induction bs generalizing rs with
  | nil =>
    obtain rfl := Option.some.inj h
    exact ⟨hs,by simp⟩
  | cons c bs ih =>
    simp only [addRevokes] at h
    obtain ⟨rs1,h1,h2⟩ := Option.bind_eq_some_iff.1 h
    have key : (∀ r∈rs1, r.seq=seq) ∧
        ∀ b, ext4Jbd2RevokeContains rs1 b=true ↔ ext4Jbd2RevokeContains rs b=true ∨ b=c := by
      unfold ext4Jbd2AddRevoke at h1
      split_ifs at h1 with h3 h4 h5 h6
      · cases h5
      · obtain rfl := Option.some.inj h1
        refine ⟨hs,fun b => ⟨.inl,?_⟩⟩
        rintro (hb | rfl)
        · exact hb
        · exact h4
      · obtain rfl := Option.some.inj h1
        refine ⟨?_,fun b => ?_⟩
        · intro r hr
          rcases List.mem_append.1 hr with hr | hr
          · exact hs r hr
          · rw [List.mem_singleton.1 hr]
        · simp only [ext4Jbd2RevokeContains,List.any_append,List.any_cons,List.any_nil,Bool.or_false,
            Bool.or_eq_true,beq_iff_eq]
          rw [eq_comm (a := c)]
    obtain ⟨h3,h4⟩ := ih h2 key.1
    refine ⟨h3,fun b => ?_⟩
    rw [h4,key.2,List.mem_cons,or_assoc]

end Revokes

section Updates
variable {fs : Ext4Fs} {j : Jbd2State} {us us' acc acc' : List Jbd2Update} {b seq : ℕ} {e : LogEntry}
variable {fsBlock jBlock : ℕ} {escape : Bool}

/-- The table of a transaction: one update for a block, all with the number of the transaction. -/
structure TxTable (seq : ℕ) (us : List Jbd2Update) : Prop where
  nodup : (us.map (·.fsBlock)).Nodup
  seq : ∀ u∈us, u.seq=seq

lemma replaceUpdate_blocks :
    (replaceUpdate fsBlock jBlock seq escape us).map (·.fsBlock)=us.map (·.fsBlock) := by
  induction us with
  | nil => rfl
  | cons u us ih =>
    simp only [replaceUpdate]
    split_ifs
    · rfl
    · rw [List.map_cons,List.map_cons,ih]

lemma replaceUpdate_seq (h : ∀ u∈us, u.seq=seq) :
    ∀ u∈replaceUpdate fsBlock jBlock seq escape us, u.seq=seq := by
  induction us with
  | nil => exact h
  | cons u us ih =>
    simp only [List.mem_cons,forall_eq_or_imp] at h
    simp only [replaceUpdate]
    split_ifs
    · simpa using h
    · simpa [h.1] using ih h.2

lemma find_replaceUpdate (h : ∀ u∈us, u.seq=seq) (hm : fsBlock∈us.map (·.fsBlock)) :
    (replaceUpdate fsBlock jBlock seq escape us).find? (·.fsBlock == b) =
      if b=fsBlock then some ⟨fsBlock,jBlock,seq,escape⟩ else us.find? (·.fsBlock == b) := by
  induction us with
  | nil => simp at hm
  | cons u us ih =>
    simp only [List.mem_cons,forall_eq_or_imp] at h
    simp only [replaceUpdate]
    by_cases hu : u.fsBlock=fsBlock
    · rw [if_pos ⟨hu,h.1⟩,List.find?_cons,List.find?_cons]
      by_cases hb : b=fsBlock
      · subst hb
        simp only [hu,beq_self_eq_true,if_true]
        rw [← hu,← h.1]
      · have : (u.fsBlock == b)=false := by simpa [hu] using Ne.symm hb
        simp only [this,if_neg hb]
    · rw [if_neg fun h => hu h.1,List.find?_cons,List.find?_cons]
      have hm' : fsBlock∈us.map (·.fsBlock) := by
        simp only [List.map_cons,List.mem_cons] at hm
        exact hm.resolve_left fun h => hu h.symm
      rw [ih h.2 hm']
      by_cases hb : u.fsBlock=b
      · have hne : b≠fsBlock := by rw [← hb]; exact hu
        simp [hb,hne]
      · have : (u.fsBlock == b)=false := by simpa using hb
        simp only [this]

lemma addUpdate_spec (ht : TxTable seq us) {updateMax : ℕ}
    (h : ext4Jbd2AddUpdate fs j updateMax fsBlock jBlock seq escape true us=some us') :
    TxTable seq us' ∧ ∀ b, us'.find? (·.fsBlock == b) =
      if b=fsBlock then some ⟨fsBlock,jBlock,seq,escape⟩ else us.find? (·.fsBlock == b) := by
  unfold ext4Jbd2AddUpdate at h
  split_ifs at h with h1 h2 h3 h4
  · obtain rfl := Option.some.inj h
    have hm : fsBlock∈us.map (·.fsBlock) := by
      simp only [Bool.true_and,List.any_eq_true,Bool.and_eq_true,beq_iff_eq] at h3
      obtain ⟨u,hu,hb,-⟩ := h3
      exact List.mem_map.2 ⟨u,hu,hb⟩
    exact ⟨⟨by rw [replaceUpdate_blocks]; exact ht.nodup,replaceUpdate_seq ht.seq⟩,
      fun b => find_replaceUpdate ht.seq hm⟩
  · obtain rfl := Option.some.inj h
    have hm : fsBlock∉us.map (·.fsBlock) := by
      intro hm
      obtain ⟨u,hu,hb⟩ := List.mem_map.1 hm
      refine h3 ?_
      simp only [Bool.true_and,List.any_eq_true,Bool.and_eq_true,beq_iff_eq]
      exact ⟨u,hu,hb,ht.seq u hu⟩
    refine ⟨⟨?_,?_⟩,fun b => ?_⟩
    · rw [List.map_append,List.nodup_append]
      refine ⟨ht.nodup,by simp,?_⟩
      rintro c hc d hd rfl
      simp only [List.map_cons,List.map_nil,List.mem_singleton] at hd
      exact hm (hd ▸ hc)
    · intro u hu
      rcases List.mem_append.1 hu with hu | hu
      · exact ht.seq u hu
      · rw [List.mem_singleton.1 hu]
    · rw [List.find?_append]
      by_cases hb : b=fsBlock
      · subst hb
        have hnone : us.find? (·.fsBlock == b)=none := by
          rw [List.find?_eq_none]
          intro u hu hub
          exact hm (List.mem_map.2 ⟨u,hu,by simpa using hub⟩)
        simp [hnone]
      · simp [hb,Ne.symm hb]

end Updates

section Tx
variable {fs : Ext4Fs} {j : Jbd2State} {rd : ℕ → Buf} {seq : ℕ}

/-- The last image that the entries log for a block. -/
def lastEntry (rd : ℕ → Buf) (es : List LogEntry) (b : ℕ) : Option Buf :=
  (((es.filter fun e => !e.deleted).map fun e => (e.fsBlock,e.image rd)).reverse.find?
    (·.1 == b)).map (·.2)

lemma lastEntry_append (es es' : List LogEntry) (b : ℕ) :
    lastEntry rd (es++es') b=(lastEntry rd es' b).or (lastEntry rd es b) := by
  simp only [lastEntry,List.filter_append,List.map_append,List.reverse_append,List.find?_append]
  cases (List.find? (fun x => x.1 == b)
    (((es'.filter fun e => !e.deleted).map fun e => (e.fsBlock,e.image rd)).reverse)) <;> rfl

lemma lastEntry_cons (e : LogEntry) (es : List LogEntry) (b : ℕ) :
    lastEntry rd (e::es) b=(lastEntry rd es b).or
      (if e.deleted=false ∧ b=e.fsBlock then some (e.image rd) else none) := by
  rw [← List.singleton_append,lastEntry_append]
  congr 1
  cases hd : e.deleted with
  | true => simp [lastEntry,hd]
  | false =>
    by_cases hb : b=e.fsBlock
    · simp [lastEntry,hd,hb]
    · simp [lastEntry,hd,hb,Ne.symm hb]

lemma txRedo_image (items : List LogItem) (b : ℕ) :
    (txRedo rd items).image b=lastEntry rd (items.flatMap LogItem.entries) b := rfl

lemma addEntries_spec {rs : List Jbd2Revoke} {es : List LogEntry} {us us' : List Jbd2Update}
    (ht : TxTable seq us) (h : addEntries fs j seq rs es us=some us') :
    TxTable seq us' ∧ ∀ b, ext4Jbd2RevokeContains rs b=false →
      (us'.find? (·.fsBlock == b)).map (Jbd2Update.image rd) =
        (lastEntry rd es b).or ((us.find? (·.fsBlock == b)).map (Jbd2Update.image rd)) := by
  induction es generalizing us with
  | nil =>
    obtain rfl := Option.some.inj h
    exact ⟨ht,fun b _ => by simp [lastEntry]⟩
  | cons e es ih =>
    simp only [addEntries] at h
    obtain ⟨us1,h1,h2⟩ := Option.bind_eq_some_iff.1 h
    -- one entry
    have key : TxTable seq us1 ∧ ∀ b, ext4Jbd2RevokeContains rs b=false →
        (us1.find? (·.fsBlock == b)).map (Jbd2Update.image rd) =
          if e.deleted=false ∧ b=e.fsBlock then some (e.image rd)
          else (us.find? (·.fsBlock == b)).map (Jbd2Update.image rd) := by
      unfold addEntry at h1
      split_ifs at h1 with hc
      · simp only [Bool.and_eq_true,Bool.not_eq_true'] at hc
        obtain ⟨ht1,hfind⟩ := addUpdate_spec ht h1
        refine ⟨ht1,fun b _ => ?_⟩
        rw [hfind]
        by_cases hb : b=e.fsBlock
        · rw [if_pos hb,if_pos ⟨hc.1,hb⟩]
          rfl
        · rw [if_neg hb,if_neg fun h => hb h.2]
      · obtain rfl := Option.some.inj h1
        refine ⟨ht,fun b hb => ?_⟩
        rw [if_neg]
        rintro ⟨hd,rfl⟩
        simp [hd,hb] at hc
    obtain ⟨h3,h4⟩ := ih key.1 h2
    refine ⟨h3,fun b hb => ?_⟩
    rw [h4 b hb,key.2 b hb,lastEntry_cons]
    split_ifs <;> cases lastEntry rd es b <;> simp

/-- The tables of a transaction, as far as its items have been read. -/
structure TxRead (rd : ℕ → Buf) (seq : ℕ) (items : List LogItem) (T : Tables) : Prop where
  table : TxTable seq T.1
  revSeq : ∀ r∈T.2, r.seq=seq
  revoked : ∀ b, ext4Jbd2RevokeContains T.2 b=true ↔ b∈(txRedo rd items).revokes
  image : ∀ b, b∉(txRedo rd items).revokes →
    (T.1.find? (·.fsBlock == b)).map (Jbd2Update.image rd)=(txRedo rd items).image b

lemma TxRead.empty : TxRead rd seq [] ([],[]) :=
  ⟨⟨by simp,by simp⟩,by simp,by simp [ext4Jbd2RevokeContains,txRedo],by simp [txRedo,Redo.image]⟩

lemma TxRead.item {items : List LogItem} {i : LogItem} {T T' : Tables} (h : TxRead rd seq items T)
    (hi : readItem fs j seq i T=some T') : TxRead rd seq (items++[i]) T' := by
  obtain ⟨us,rs⟩ := T
  have hrev : (txRedo rd (items++[i])).revokes=(txRedo rd items).revokes++i.revoked := by
    simp [txRedo]
  have himg : ∀ b, (txRedo rd (items++[i])).image b =
      (lastEntry rd i.entries b).or ((txRedo rd items).image b) := by
    intro b
    rw [txRedo_image,txRedo_image,List.flatMap_append,lastEntry_append]
    simp
  cases i with
  | images es =>
    simp only [readItem] at hi
    obtain ⟨us',hadd,rfl⟩ := Option.map_eq_some_iff.1 hi
    obtain ⟨ht,hfind⟩ := addEntries_spec h.table hadd
    rw [show (LogItem.images es).revoked=[] from rfl,List.append_nil] at hrev
    refine ⟨ht,h.revSeq,by rw [hrev]; exact h.revoked,fun b hb => ?_⟩
    rw [hrev] at hb
    have hc : ext4Jbd2RevokeContains rs b=false := by
      rw [← Bool.not_eq_true]
      exact fun hc => hb ((h.revoked b).1 hc)
    rw [hfind b hc,himg,h.image b hb]
    rfl
  | revokes bs =>
    simp only [readItem] at hi
    obtain ⟨rs',hadd,rfl⟩ := Option.map_eq_some_iff.1 hi
    obtain ⟨hs,hc⟩ := addRevokes_spec hadd h.revSeq
    rw [show (LogItem.revokes bs).revoked=bs from rfl] at hrev
    refine ⟨h.table,hs,fun b => ?_,fun b hb => ?_⟩
    · rw [hc,hrev,List.mem_append,h.revoked]
    · rw [hrev,List.mem_append,not_or] at hb
      rw [himg,h.image b hb.1]
      simp [lastEntry,LogItem.entries]

lemma TxRead.items {done items : List LogItem} {T T' : Tables} (h : TxRead rd seq done T)
    (hi : readItems fs j seq items T=some T') : TxRead rd seq (done++items) T' := by
  induction items generalizing done T with
  | nil =>
    obtain rfl := Option.some.inj hi
    rwa [List.append_nil]
  | cons i items ih =>
    simp only [readItems] at hi
    obtain ⟨T1,h1,h2⟩ := Option.bind_eq_some_iff.1 hi
    have := ih (h.item h1) h2
    rwa [List.append_assoc,List.singleton_append] at this

lemma mergeUpdates_eq {us acc acc' : List Jbd2Update} (h : mergeUpdates fs j us acc=some acc') :
    acc'=acc++us := by
  induction us generalizing acc with
  | nil =>
    obtain rfl := Option.some.inj h
    simp
  | cons u us ih =>
    simp only [mergeUpdates,Option.bind_eq_bind] at h
    obtain ⟨acc1,h1,h2⟩ := Option.bind_eq_some_iff.1 h
    rw [ih h2]
    unfold ext4Jbd2AddUpdate at h1
    simp only [Bool.false_and,Bool.false_eq_true,if_false] at h1
    split_ifs at h1
    obtain rfl := Option.some.inj h1
    simp

end Tx

section Log
variable {fs : Ext4Fs} {j : Jbd2State} {rd : ℕ → Buf} {seq : ℕ} {done txs : List (List LogItem)}
  {t T T' : Tables} {items : List LogItem} {us : List Jbd2Update} {rs : List Jbd2Revoke} {b : ℕ}

/-- The tables of a log, as far as its transactions have been read; `seq` is the next number. -/
structure LogRead (rd : ℕ → Buf) (seq : ℕ) (done : List (List LogItem)) (T : Tables) : Prop where
  updates : ∀ u∈T.1, u.seq<seq
  revokes : ∀ r∈T.2, r.seq<seq
  image : ∀ b, (T.deciding b).map (Jbd2Update.image rd)=Redo.lastImage (done.map (txRedo rd)) b

lemma LogRead.empty : LogRead rd seq [] ([],[]) :=
  ⟨by simp,by simp,fun b => rfl⟩

lemma TxRead.hit (h : TxRead rd seq items t) (b q : ℕ) :
    Hit t.2 b q ↔ b∈(txRedo rd items).revokes ∧ q ≤ seq := by
  rw [← h.revoked]
  constructor
  · rintro ⟨r,hr,hb,hq⟩
    exact ⟨by simpa [ext4Jbd2RevokeContains] using ⟨r,hr,hb⟩,(h.revSeq r hr) ▸ hq⟩
  · rintro ⟨hc,hq⟩
    obtain ⟨r,hr,hb⟩ : ∃ r∈t.2, r.fsBlock=b := by simpa [ext4Jbd2RevokeContains] using hc
    exact ⟨r,hr,hb,(h.revSeq r hr) ▸ hq⟩

lemma TxTable.find_reverse (h : TxTable seq us) (b : ℕ) :
    us.reverse.find? (·.fsBlock == b)=us.find? (·.fsBlock == b) := by
  have hn := h.nodup
  clear h
  induction us with
  | nil => rfl
  | cons u us ih =>
    rw [List.map_cons,List.nodup_cons] at hn
    rw [List.reverse_cons,List.find?_append,ih hn.2,List.find?_cons]
    by_cases hu : u.fsBlock=b
    · have hnone : us.find? (·.fsBlock == b)=none := by
        rw [List.find?_eq_none]
        intro v hv hvb
        exact hn.1 (List.mem_map.2 ⟨v,hv,by rw [hu]; simpa using hvb⟩)
      simp [hnone,hu]
    · have : (u.fsBlock == b)=false := by simpa using hu
      simp [this]

lemma deciding_append (us us' : List Jbd2Update) (rs : List Jbd2Revoke) (b : ℕ) :
    Tables.deciding (us++us',rs) b =
      (Tables.deciding (us',rs) b).or (Tables.deciding (us,rs) b) := by
  simp only [Tables.deciding,List.reverse_append,List.find?_append]

lemma find_congr {α : Type} {p q : α → Bool} {l : List α} (h : ∀ a∈l, p a=q a) :
    l.find? p=l.find? q := by
  induction l with
  | nil => rfl
  | cons a l ih =>
    rw [List.find?_cons,List.find?_cons,h a (by simp),ih fun a ha => h a (by simp [ha])]

lemma deciding_congr {rs' : List Jbd2Revoke} (h : ∀ u∈us, Hit rs' b u.seq ↔ Hit rs b u.seq) :
    Tables.deciding (us,rs') b=Tables.deciding (us,rs) b := by
  unfold Tables.deciding
  refine find_congr ?_
  intro u hu
  have hh := h u (List.mem_reverse.1 hu)
  rw [← revokeHits_iff,← revokeHits_iff,Bool.coe_iff_coe] at hh
  rw [hh]

lemma deciding_none_of_hit (h : ∀ u∈us, Hit rs b u.seq) : Tables.deciding (us,rs) b=none := by
  unfold Tables.deciding
  rw [List.find?_eq_none]
  intro u hu
  rw [revokeHits_iff.2 (h u (List.mem_reverse.1 hu))]
  simp

lemma deciding_of_not_hit (h : ∀ u∈us, ¬ Hit rs b u.seq) :
    Tables.deciding (us,rs) b=us.reverse.find? (·.fsBlock == b) := by
  unfold Tables.deciding
  refine find_congr ?_
  intro u hu
  have hh := h u (List.mem_reverse.1 hu)
  rw [← revokeHits_iff,Bool.not_eq_true] at hh
  rw [hh]
  simp

lemma LogRead.tx (h : LogRead rd seq done T)
    (hi : readItems fs j seq items ([],[])=some t) (hm : mergeTx fs j t T=some T') :
    LogRead rd (seq+1) (done++[items]) T' := by
  have ht : TxRead rd seq items t := by simpa using TxRead.empty.items hi
  unfold mergeTx at hm
  obtain ⟨rs,hrs,hm⟩ := Option.bind_eq_some_iff.1 hm
  obtain ⟨us,hus,rfl⟩ := Option.map_eq_some_iff.1 hm
  have hhit : ∀ b q, Hit rs b q ↔ Hit T.2 b q ∨ (b∈(txRedo rd items).revokes ∧ q ≤ seq) := by
    intro b q
    rw [hit_mergeRevokes hrs,ht.hit]
  have hold : ∀ b q, Hit T.2 b q → q<seq := fun b q ⟨r,hr,_,hq⟩ => hq.trans_lt (h.revokes r hr)
  obtain rfl := mergeUpdates_eq hus
  refine ⟨?_,?_,fun b => ?_⟩
  · intro u hu
    rcases List.mem_append.1 hu with hu | hu
    · have := h.updates u hu
      omega
    · have := ht.table.seq u hu
      omega
  · intro r hr
    rcases (hhit r.fsBlock r.seq).1 ⟨r,hr,rfl,le_rfl⟩ with hh | hh
    · have := hold _ _ hh
      omega
    · have := hh.2
      omega
  · rw [List.map_append,List.map_singleton,Redo.lastImage_append_single,deciding_append]
    by_cases hb : b∈(txRedo rd items).revokes
    · have hnew : ∀ u∈t.1, Hit rs b u.seq := fun u hu =>
        (hhit b _).2 (.inr ⟨hb,(ht.table.seq u hu).le⟩)
      have hall : ∀ u∈T.1, Hit rs b u.seq := fun u hu =>
        (hhit b _).2 (.inr ⟨hb,(h.updates u hu).le⟩)
      rw [if_pos hb,deciding_none_of_hit hnew,deciding_none_of_hit hall]
      rfl
    · have hsame : ∀ q, Hit rs b q ↔ Hit T.2 b q := by
        intro q
        rw [hhit]
        simp [hb]
      have hnew : ∀ u∈t.1, ¬ Hit rs b u.seq := by
        intro u hu hh
        have := hold b _ ((hsame _).1 hh)
        have := ht.table.seq u hu
        omega
      rw [if_neg hb,deciding_of_not_hit hnew,ht.table.find_reverse,deciding_congr fun u _ => hsame u.seq]
      have h1 := ht.image b hb
      have h2 := h.image b
      cases hf : t.1.find? (·.fsBlock == b) with
      | some u =>
        rw [hf,Option.map_some] at h1
        rw [← h1]
        rfl
      | none =>
        rw [hf,Option.map_none] at h1
        rw [← h1,Option.none_or]
        exact h2

lemma LogRead.log (h : LogRead rd seq done T) (hl : readLog fs j seq txs T=some T')
    (hs : seq+txs.length≤2^32) : LogRead rd (seq+txs.length) (done++txs) T' := by
  induction txs generalizing seq done T with
  | nil =>
    obtain rfl := Option.some.inj hl
    simpa using h
  | cons tx txs ih =>
    simp only [readLog] at hl
    obtain ⟨t,hi,hl⟩ := Option.bind_eq_some_iff.1 hl
    obtain ⟨T1,hm,hl⟩ := Option.bind_eq_some_iff.1 hl
    have h1 := h.tx hi hm
    simp only [List.length_cons] at hs ⊢
    rcases Nat.lt_or_ge (seq+1) (2^32) with hlt | hge
    · rw [Nat.mod_eq_of_lt hlt] at hl
      have := ih h1 hl (by omega)
      rw [List.append_assoc,List.singleton_append] at this
      rwa [show seq+(txs.length+1)=seq+1+txs.length by omega]
    · -- the last sequence number there is
      have hnil : txs=[] := List.length_eq_zero_iff.1 (by omega)
      subst hnil
      obtain rfl := Option.some.inj hl
      simpa using h1

lemma deciding_readLog (hl : readLog fs j seq txs ([],[])=some T) (hs : seq+txs.length≤2^32)
    (b : ℕ) :
    (T.deciding b).map (Jbd2Update.image rd)=Redo.lastImage (txs.map (txRedo rd)) b := by
  have hempty : LogRead rd seq [] ([],[]) := LogRead.empty
  have := hempty.log hl hs
  simpa using this.image b

end Log

end FuriOS
