import FuriOS.Ext4.JournalIO

/-! What a checkpoint does: the images of the oldest transactions reach their places and are
flushed before the journal superblock forgets the transactions. One that a failing request stops
has written to the places of logged blocks and to the journal superblock only. -/
namespace FuriOS
open BlockCache World Prog

namespace World

/-- Sector writes to the blocks in `B` only; the state of the journal engine is not looked at. -/
structure Touches (B : ℕ → Prop) (w w' : World) : Prop where
  moves : Moves (fun l _ => B (l*sectorSize/w.ext4.blockSize)) w.cache w'.cache
  other : ∀ x, ¬ B (x/w.ext4.blockSize) → w'.rawView x=w.rawView x
  ext4 : w'.ext4=w.ext4
  journal : w'.journal=w.journal

variable {G : Geometry} {w w' w'' : World} {B B' : ℕ → Prop}

lemma BlocksPut.touches (h : BlocksPut B w w') : Touches B w w' := by
  have hv := fun x hx => h.other (x := x) hx
  obtain ⟨c,rfl,hc,-⟩ := h
  exact ⟨hc.weaken fun _ _ h => h.2,hv,rfl,rfl⟩

section
variable (h : Touches B w w')
include h

lemma Touches.trans (h' : Touches B' w' w'') : Touches (fun b => B b ∨ B' b) w w'' where
  moves := by
    have h2 := h'.moves
    rw [h.ext4] at h2
    exact h.moves.trans h2
  other := by
    intro x hx
    rw [h'.other x (by rw [h.ext4]; exact fun h => hx (.inr h)),h.other x fun h => hx (.inl h)]
  ext4 := h'.ext4.trans h.ext4
  journal := h'.journal.trans h.journal

lemma Touches.weaken (hB : ∀ b, B b → B' b) : Touches B' w w' :=
  ⟨h.moves.weaken fun _ _ => hB _,fun x hx => h.other x fun hb => hx (hB _ hb),h.ext4,h.journal⟩

lemma Touches.setJbd2 (f : Jbd2State → Jbd2State) :
    Touches B w (w'.setJbd2 f) := ⟨h.moves,h.other,h.ext4,h.journal⟩

lemma Touches.writesOk (hw : w.cache.WritesOk) : w'.cache.WritesOk :=
  h.moves.setup.writesOk hw

lemma Touches.placed (hp : w.Placed G) (hB : ∀ b, B b → ¬ G.tree b) : w'.Placed G := by
  have ho := hp.online.withCache h.moves.attached h.moves.setup
  have hcap : w'.capBytes=w.capBytes := by simp only [capBytes,h.moves.setup.count]
  refine ⟨⟨ho.attached,ho.reads,?_⟩,?_,?_,?_,?_,?_,?_⟩
  · have := ho.same
    simp only [withCache_cache,sourceInode,withCache_ext4] at this
    simpa only [sourceInode,h.ext4] using this
  · rw [hcap]; exact hp.cap
  · rw [h.journal]; exact hp.noJlog
  · rw [h.ext4]; exact hp.blockSize
  · rw [h.ext4,hcap]; exact hp.fits
  · rw [h.ext4]; exact hp.layout
  · rw [h.ext4]
    refine hp.maps.congr hp.block_pos fun x hx => h.other x fun hb => hB _ hb hx

end

lemma Touches.of_cache (h : w.Online) (hc : w'.cache=w.cache) (he : w'.ext4=w.ext4)
    (hj : w'.journal=w.journal) : Touches B w w' :=
  ⟨by rw [hc]; exact (SameView.refl _).moves h.attached _,fun x _ => by rw [rawView,rawView,hc],he,hj⟩

lemma Touches.refl (h : w.Online) (B : ℕ → Prop) : Touches B w w := .of_cache h rfl rfl rfl

lemma Quiet.touches (h : Quiet w w') (B : ℕ → Prop) : Touches B w w' := (h.blocksPut B).touches

/-- The journal engine works on the journal that lies on the volume. -/
structure Engine (G : Geometry) (w : World) : Prop where
  placed : w.Placed G
  enabled : w.jbd2.enabled=true
  block : w.jbd2.blockSize=w.ext4.blockSize
  maxlen : w.jbd2.maxlen=G.maxlen
  inode : w.jbd2.journalMeta=G.inode
  firstPos : 0<w.jbd2.first
  first : w.jbd2.first<w.jbd2.maxlen

lemma Engine.maxlen_pos (h : w.Engine G) : 0<G.maxlen := by
  have := h.first
  rw [h.maxlen] at this
  omega

/-- The parts of the engine's state that its setup consists of. -/
def SameEngine (j j' : Jbd2State) : Prop := j'.enabled=j.enabled ∧ j'.blockSize=j.blockSize ∧
  j'.maxlen=j.maxlen ∧ j'.journalMeta=j.journalMeta ∧ j'.first=j.first

lemma Engine.of_touches (h : w.Engine G) (ht : Touches B w w') (hB : ∀ b, B b → ¬ G.tree b)
    (hj : SameEngine w.jbd2 w'.jbd2) : w'.Engine G := by
  obtain ⟨h1,h2,h3,h4,h5⟩ := hj
  exact ⟨ht.placed h.placed hB,h1.trans h.enabled,by rw [h2,ht.ext4]; exact h.block,
    h3.trans h.maxlen,h4.trans h.inode,by rw [h5]; exact h.firstPos,by rw [h5,h3]; exact h.first⟩

lemma Engine.of_parts (h : w.Engine G) (hc : w'.cache=w.cache) (he : w'.ext4=w.ext4)
    (hj : w'.journal=w.journal) (hs : SameEngine w.jbd2 w'.jbd2) : w'.Engine G :=
  h.of_touches (B := fun _ => False) (.of_cache h.placed.online hc he hj) (fun _ h => h.elim) hs

lemma Engine.log_not_tree (h : w.Engine G) {l : ℕ} (hl : l<G.maxlen) {b : ℕ}
    (hb : b=G.jmap l) : ¬ G.tree b :=
  fun ht => h.placed.layout.apart b ht ⟨l,hl,hb.symm⟩

/-- The block that holds the journal superblock, as it is. -/
def jsb (G : Geometry) (w : World) : Buf :=
  w.rawView.slice (G.jmap 0*w.ext4.blockSize) w.ext4.blockSize

end World

section
variable {G : Geometry} {w : World}

/-- The journal superblock gets the present positions. A store that fails has written whole
sectors of it, from the first on. -/
lemma wp_ext4Jbd2StoreSuper (he : w.Engine G) (hd : w.Direct) : ext4Jbd2StoreSuper.wp
      (fun _ w' => PutBlock (G.jmap 0) (w.jbd2.superBlock (w.jsb G)) w w')
      (fun w' => ¬ w.cache.WritesOk ∧ ∃ n<w.ext4.blockSize, n%sectorSize=0 ∧
        PutPart (G.jmap 0) (w.jbd2.superBlock (w.jsb G)) n w w') w := by
  have hp := he.placed
  have hsize : decide (w.jbd2.blockSize≤4096)=true := by
    rw [he.block]
    rcases hp.blockSize with h | h | h <;> simp [h]
  simp only [ext4Jbd2StoreSuper,wp_bind,wp_gets,he.enabled,hsize,Bool.and_self,
    wp_require_true,he.inode]
  refine wp_mono (wp_ext4Jbd2ReadJblock hp hd he.maxlen_pos) ?_ ?_
  · rintro sb w1 ⟨h1,rfl⟩
    refine wp_mono (wp_ext4Jbd2WriteJblock (h1.placed hp) (h1.direct hd) he.maxlen_pos _) ?_ ?_
    · intro _ w2 h2
      rw [PutBlock,h1.ext4] at h2
      exact h2.of_quiet hp h1
    · rintro w2 ⟨hw,n,hn,hm,h2⟩
      rw [h1.ext4] at hn
      exact ⟨fun h => hw (h1.writesOk h),n,hn,hm,h2.of_quiet hp h1⟩
  · rintro w1 ⟨h1,hw⟩
    refine ⟨hw,0,hp.block_pos,rfl,h1.blocksPut _,fun x => ?_⟩
    rw [h1.rawView,if_neg (by omega)]

lemma wp_writeDirty (hp : w.Placed G) (hd : w.Direct) (ds : List Jbd2Dirty)
    (hb : ∀ b∈blocksOf ds, b<w.ext4.blocksCount ∧ ¬ G.tree b) :
    (writeDirty ds).wp (fun _ w' => Touches (· ∈ blocksOf ds) w w' ∧ w'.jbd2=w.jbd2 ∧
        w'.rawView=imaged w.ext4.blockSize ds w.rawView)
      (fun w' => ¬ w.cache.WritesOk ∧ Touches (· ∈ blocksOf ds) w w' ∧ w'.jbd2=w.jbd2) w := by
  induction ds generalizing w with
  | nil => exact ⟨Touches.refl hp.online _,rfl,rfl⟩
  | cons d ds ih =>
    simp only [blocksOf,List.map_cons,List.mem_cons,forall_eq_or_imp] at hb
    have hfirst : ∀ b, b=d.fsBlock → b∈blocksOf (d::ds) := by
      rintro b rfl
      exact List.mem_cons_self
    simp only [writeDirty,wp_bind]
    refine wp_mono (wp_ext4WriteBlock_direct hp hd hb.1.1 d.data) ?_ ?_
    · intro _ w1 h1
      have htree : ∀ b, b=d.fsBlock → ¬ G.tree b := fun b h => h ▸ hb.1.2
      have hafter : ∀ {w2}, Touches (· ∈ blocksOf ds) w1 w2 → Touches (· ∈ blocksOf (d::ds)) w w2 :=
        fun h2 => (h1.put.touches.trans h2).weaken fun b hb => hb.elim (hfirst b) (List.mem_cons_of_mem _)
      refine wp_mono (ih (h1.put.placed hp htree) (h1.put.direct hd)
        (by rw [h1.put.ext4]; exact hb.2)) ?_ fun w2 h2 =>
        ⟨fun hw => h2.1 (h1.put.writesOk hw),hafter h2.2.1,h2.2.2.trans h1.put.jbd2⟩
      rintro _ w2 ⟨h2,hj,hv⟩
      refine ⟨hafter h2,hj.trans h1.put.jbd2,?_⟩
      rw [hv,h1.put.ext4,imaged_cons]
      congr 1
      funext x
      rw [copy_block_apply hp.block_pos]
      by_cases hx : x/w.ext4.blockSize=d.fsBlock
      · rw [if_pos hx,h1.inside hp.block_pos hx]
      · rw [if_neg hx,h1.put.other hx]
    · rintro w1 ⟨hw,n,-,-,h1⟩
      exact ⟨hw,h1.put.touches.weaken hfirst,h1.put.jbd2⟩

end

/-- The images of the `k` oldest transactions, oldest first. -/
def Jbd2State.oldest (j : Jbd2State) (k : ℕ) : List Jbd2Dirty := (j.pending.take k).flatMap (·.dirty)

/-- The engine without its `k` oldest transactions. -/
def Jbd2State.popped (k : ℕ) (j : Jbd2State) : Jbd2State :=
  {j with pending := j.pending.drop k}.ext4Jbd2RefreshStartTail

/-- The engine after `k` transactions were taken off its list. -/
def Jbd2State.taken (k : ℕ) (j : Jbd2State) : Jbd2State := if k=0 then j else j.popped k

/-- The transactions that wait for their checkpoint only log blocks outside the journal. -/
def World.PendingOk (G : Geometry) (w : World) : Prop := ∀ p∈w.jbd2.pending,
  (blocksOf p.dirty).Nodup ∧ ∀ b∈blocksOf p.dirty, b<w.ext4.blocksCount ∧ G.Home b

/-- A checkpoint of the `k` oldest transactions, in the order in which it reaches the device:
`w₁` is flushed with the images in their places, then the journal superblock is stored and
flushed. -/
def World.Checkpointed (G : Geometry) (k : ℕ) (w w' : World) : Prop :=
  0<k ∧ k≤w.jbd2.pending.length ∧ ∃ w1 w2 w3 t n, (Touches (· ∈ blocksOf (w.jbd2.oldest k)) w w1 ∧
      w1.jbd2=Jbd2State.popped k {w.jbd2 with ioBypass := true} ∧
      w1.rawView=imaged w.ext4.blockSize (w.jbd2.oldest k) w.rawView ∧ w1.Clean) ∧
    PutBlock (G.jmap 0) (w1.jbd2.superBlock (w1.jsb G)) w1 w2 ∧ (Quiet w2 w3 ∧ w3.Clean) ∧
    w'={w3 with tick := n, jbd2 := {w3.jbd2 with lastCheckpointTick := t, ioBypass := false}}

namespace Jbd2State

lemma refresh_pending (j : Jbd2State) : j.ext4Jbd2RefreshStartTail.pending=j.pending := by
  unfold ext4Jbd2RefreshStartTail
  cases h : j.pending <;> simp

lemma refresh_congr {j j' : Jbd2State} (h : j'={j with start := j'.start, tail := j'.tail}) :
    j'.ext4Jbd2RefreshStartTail=j.ext4Jbd2RefreshStartTail := by
  unfold ext4Jbd2RefreshStartTail
  rw [h]

lemma refresh_eq (j : Jbd2State) : j.ext4Jbd2RefreshStartTail =
    {j with start := j.ext4Jbd2RefreshStartTail.start, tail := j.ext4Jbd2RefreshStartTail.tail} := by
  unfold ext4Jbd2RefreshStartTail
  cases j.pending <;> rfl

lemma popped_succ (k : ℕ) (j : Jbd2State) : popped (k+1) j=popped k (popped 1 j) := by
  have h : (popped 1 j).pending.drop k=j.pending.drop (k+1) := by
    rw [popped,refresh_pending,List.drop_drop,Nat.add_comm]
  unfold popped at h ⊢
  symm
  refine refresh_congr ?_
  rw [h]
  conv_lhs => rw [refresh_eq]

lemma popped_pending (k : ℕ) (j : Jbd2State) : (popped k j).pending=j.pending.drop k :=
  refresh_pending _

lemma taken_popped (k : ℕ) (j : Jbd2State) : taken k (popped 1 j)=taken (k+1) j := by
  unfold taken
  rw [if_neg (Nat.succ_ne_zero k)]
  split_ifs with h
  · rw [h]
  · exact (popped_succ k j).symm

lemma taken_eq (k : ℕ) (j : Jbd2State) : ∃ s t, taken k j =
    {j with pending := j.pending.drop k, start := s, tail := t} := by
  unfold taken
  split_ifs with h
  · exact ⟨j.start,j.tail,by rw [h,List.drop_zero]⟩
  · rw [popped,refresh_eq]
    exact ⟨_,_,rfl⟩

lemma oldest_succ {j : Jbd2State} {p : Jbd2Pending} {ps : List Jbd2Pending} (h : j.pending=p::ps)
    (k : ℕ) : j.oldest (k+1)=p.dirty++(popped 1 j).oldest k := by
  simp [oldest,popped_pending,h]

end Jbd2State

lemma blocksOf_append (ds ds' : List Jbd2Dirty) : blocksOf (ds++ds')=blocksOf ds++blocksOf ds' :=
  List.map_append

section
variable {G : Geometry} {w w' w'' : World}

lemma World.PendingOk.oldest (h : w.PendingOk G) {k b : ℕ} (hb : b∈blocksOf (w.jbd2.oldest k)) :
    b<w.ext4.blocksCount ∧ G.Home b := by
  simp only [blocksOf,Jbd2State.oldest,List.mem_map,List.mem_flatMap] at hb
  obtain ⟨d,⟨p,hp,hd⟩,rfl⟩ := hb
  exact (h p (List.mem_of_mem_take hp)).2 _ (List.mem_map.2 ⟨d,hd,rfl⟩)

/-- Transactions were taken off the list, and some of their images written. -/
structure World.Drained (G : Geometry) (w w' : World) : Prop where
  touches : Touches (fun b => G.Home b ∨ b=G.jmap 0) w w'
  engine : ∃ k, w'.jbd2=w.jbd2.taken k

lemma World.Drained.fields (h : Drained G w w') : ∃ k s t, w'.jbd2 =
    {w.jbd2 with pending := w.jbd2.pending.drop k, start := s, tail := t} := by
  obtain ⟨k,hk⟩ := h.engine
  obtain ⟨s,t,hst⟩ := Jbd2State.taken_eq k w.jbd2
  exact ⟨k,s,t,hk.trans hst⟩

lemma World.Engine.drain_not_tree (he : w.Engine G) (b : ℕ) (hb : G.Home b ∨ b=G.jmap 0) :
    ¬ G.tree b :=
  hb.elim (·.1) (he.log_not_tree he.maxlen_pos)

section
variable (h : Drained G w w')
include h

lemma World.Drained.keeps (he : w.Engine G) : w'.Engine G := by
  obtain ⟨k,s,t,hj⟩ := h.fields
  exact he.of_touches h.touches he.drain_not_tree (by rw [hj]; exact ⟨rfl,rfl,rfl,rfl,rfl⟩)

lemma World.Drained.bypass : w'.jbd2.ioBypass=w.jbd2.ioBypass := by
  obtain ⟨k,s,t,hj⟩ := h.fields
  rw [hj]

lemma World.Drained.pending (hok : w.PendingOk G) : w'.PendingOk G := by
  obtain ⟨k,s,t,hj⟩ := h.fields
  intro q hq
  rw [hj] at hq
  rw [h.touches.ext4]
  exact hok q (List.mem_of_mem_drop hq)

lemma World.Drained.then (h' : Touches (· = G.jmap 0) w' w'')
    (hj : w''.jbd2=w'.jbd2) : Drained G w w'' :=
  ⟨(h.touches.trans h').weaken fun _ hb => hb.elim id .inr,by rw [hj]; exact h.engine⟩

end

lemma wp_checkpointLoop (budget : ℕ) (he : w.Engine G) (hby : w.jbd2.ioBypass=true)
    (hok : w.PendingOk G) :
    (checkpointLoop budget).wp (fun _ w' => ∃ k, k=min budget w.jbd2.pending.length ∧
        Touches (· ∈ blocksOf (w.jbd2.oldest k)) w w' ∧ w'.jbd2=w.jbd2.taken k ∧
        w'.rawView=imaged w.ext4.blockSize (w.jbd2.oldest k) w.rawView)
      (fun w' => ¬ w.cache.WritesOk ∧ Drained G w w') w := by
  induction budget generalizing w with
  | zero => exact ⟨0,by simp,Touches.refl he.placed.online _,rfl,rfl⟩
  | succ budget ih =>
    simp only [checkpointLoop,wp_bind,wp_gets]
    cases hpend : w.jbd2.pending with
    | nil => exact ⟨0,by simp,Touches.refl he.placed.online _,rfl,rfl⟩
    | cons p ps =>
      have hp : p∈w.jbd2.pending := by rw [hpend]; simp
      have hhome : ∀ b, b∈blocksOf p.dirty → G.Home b ∨ b=G.jmap 0 := fun b hb =>
        .inl ((hok p hp).2 b hb).2
      simp only [wp_bind]
      refine wp_mono (wp_writeDirty he.placed (.inr (.inl hby)) p.dirty
        fun b hb => ⟨((hok p hp).2 b hb).1,((hok p hp).2 b hb).2.1⟩) ?_
        fun w1 h1 => ⟨h1.1,h1.2.1.weaken hhome,0,h1.2.2⟩
      rintro _ w1 ⟨h1,hj1,hv1⟩
      simp only [ext4Jbd2PendingPop,wp_bind,wp_gets,hj1,hpend,List.isEmpty_cons,
        Bool.not_false,wp_require_true,wp_modify]
      set w2 := w1.setJbd2 fun j => Jbd2State.ext4Jbd2RefreshStartTail {j with pending := j.pending.tail}
      have hj2 : w2.jbd2=w.jbd2.popped 1 := by
        change Jbd2State.ext4Jbd2RefreshStartTail {w1.jbd2 with pending := w1.jbd2.pending.tail}=_
        rw [hj1,Jbd2State.popped,List.drop_one]
      have h2 : Touches (· ∈ blocksOf p.dirty) w w2 := h1.setJbd2 _
      have hd2 : Drained G w w2 := ⟨h2.weaken hhome,1,hj2⟩
      refine wp_mono (ih (hd2.keeps he) (hd2.bypass.trans hby) (hd2.pending hok)) ?_ ?_
      · rintro _ w3 ⟨k,hk,h3,hj3,hv3⟩
        refine ⟨k+1,?_,(h2.trans h3).weaken ?_,?_,?_⟩
        · rw [hk,hj2,Jbd2State.popped_pending,hpend,List.drop_one,List.tail_cons,List.length_cons]
          omega
        · rintro b hb
          rw [hj2] at hb
          rw [Jbd2State.oldest_succ hpend,blocksOf_append,List.mem_append]
          exact hb
        · rw [hj3,hj2,Jbd2State.taken_popped]
        · rw [hv3,hj2,h2.ext4,Jbd2State.oldest_succ hpend,imaged_append,← hv1]
          rfl
      · rintro w3 ⟨hw,h3⟩
        obtain ⟨k,hk⟩ := h3.engine
        refine ⟨fun h => hw (h2.writesOk h),
          (hd2.touches.trans h3.touches).weaken fun _ hb => hb.elim id id,k+1,?_⟩
        rw [hk,hj2,Jbd2State.taken_popped]

end

lemma imaged_congr_at {bs x : ℕ} (ds : List Jbd2Dirty) {v v' : Buf} (h : v x=v' x) :
    imaged bs ds v x=imaged bs ds v' x := by
  induction ds generalizing v v' with
  | nil => exact h
  | cons d ds ih =>
    rw [imaged_cons,imaged_cons]
    apply ih
    simp only [Buf.copy,h]

namespace World
variable {G : Geometry} {w w' w'' : World} {B : ℕ → Prop} {j j' j'' : Jbd2State} {k x : ℕ}

/-- The engine between calls: no bypass, and only blocks outside the journal in its lists. -/
structure Running (G : Geometry) (w : World) : Prop where
  engine : w.Engine G
  bypass : w.jbd2.ioBypass=false
  pending : w.PendingOk G
  tx : w.jbd2.TxOk w.ext4.blocksCount
  txHome : ∀ b∈blocksOf w.jbd2.txDirty, G.Home b
  noJlogTx : w.journal.txActive=false

/-- The state of the engine that background work leaves alone. -/
structure SameTx (j j' : Jbd2State) : Prop where
  engine : SameEngine j j'
  active : j'.txActive=j.txActive
  dirty : j'.txDirty=j.txDirty
  revokes : j'.txRevokes=j.txRevokes
  overflow : j'.txRevokeOverflow=j.txRevokeOverflow
  sequence : j'.sequence=j.sequence
  head : j'.head=j.head
  ready : j'.writeReady=j.writeReady
  bypass : j'.ioBypass=j.ioBypass
  feat : j'.feat64bit=j.feat64bit ∧ j'.csumV2=j.csumV2 ∧ j'.csumV3=j.csumV3 ∧
    j'.featureIncompat=j.featureIncompat ∧ j'.csumSeed=j.csumSeed

lemma SameTx.refl (j : Jbd2State) : SameTx j j :=
  ⟨⟨rfl,rfl,rfl,rfl,rfl⟩,rfl,rfl,rfl,rfl,rfl,rfl,rfl,rfl,⟨rfl,rfl,rfl,rfl,rfl⟩⟩

lemma SameEngine.trans (h : SameEngine j j') (h' : SameEngine j' j'') : SameEngine j j'' :=
  ⟨h'.1.trans h.1,h'.2.1.trans h.2.1,h'.2.2.1.trans h.2.2.1,h'.2.2.2.1.trans h.2.2.2.1,
    h'.2.2.2.2.trans h.2.2.2.2⟩

lemma SameTx.trans (h : SameTx j j') (h' : SameTx j' j'') : SameTx j j'' where
  engine := h.engine.trans h'.engine
  active := h'.active.trans h.active
  dirty := h'.dirty.trans h.dirty
  revokes := h'.revokes.trans h.revokes
  overflow := h'.overflow.trans h.overflow
  sequence := h'.sequence.trans h.sequence
  head := h'.head.trans h.head
  ready := h'.ready.trans h.ready
  bypass := h'.bypass.trans h.bypass
  feat := ⟨h'.feat.1.trans h.feat.1,h'.feat.2.1.trans h.feat.2.1,h'.feat.2.2.1.trans h.feat.2.2.1,
    h'.feat.2.2.2.1.trans h.feat.2.2.2.1,h'.feat.2.2.2.2.trans h.feat.2.2.2.2⟩

lemma Running.of_touches (h : w.Running G) (ht : Touches B w w') (hB : ∀ b, B b → ¬ G.tree b)
    (hs : SameTx w.jbd2 w'.jbd2) (hp : ∀ p∈w'.jbd2.pending, p∈w.jbd2.pending) : w'.Running G := by
  refine ⟨h.engine.of_touches ht hB hs.engine,hs.bypass.trans h.bypass,fun p hm => ?_,?_,?_,?_⟩
  · rw [ht.ext4]
    exact h.pending p (hp p hm)
  · rw [ht.ext4]
    exact h.tx.congr hs.dirty hs.revokes
  · rw [hs.dirty]
    exact h.txHome
  · rw [ht.journal]
    exact h.noJlogTx

/-- Checkpoints, also those that a failing request stopped. -/
structure Worked (G : Geometry) (w w' : World) : Prop where
  touches : Touches (fun b => G.Home b ∨ b=G.jmap 0) w w'
  sameTx : SameTx w.jbd2 w'.jbd2
  running : w'.Running G

lemma Worked.refl (h : w.Running G) : Worked G w w :=
  ⟨Touches.refl h.engine.placed.online _,SameTx.refl _,h⟩

lemma Worked.trans (h : Worked G w w') (h' : Worked G w' w'') : Worked G w w'' :=
  ⟨(h.touches.trans h'.touches).weaken fun _ hb => hb.elim id id,h.sameTx.trans h'.sameTx,h'.running⟩

lemma Drained.worked (hr : w.Running G) (h : Drained G (setBypass true w) w') {f n : ℕ} :
    Worked G w {w' with
      tick := n, jbd2 := {w'.jbd2 with lastCheckpointTick := f, ioBypass := false}} := by
  obtain ⟨k,s,t,hj⟩ := h.fields
  have htouch : Touches (fun b => G.Home b ∨ b=G.jmap 0) w {w' with
      tick := n, jbd2 := {w'.jbd2 with lastCheckpointTick := f, ioBypass := false}} :=
    ⟨h.touches.moves,h.touches.other,h.touches.ext4,h.touches.journal⟩
  have hbyp := hr.bypass
  have hsame : SameTx w.jbd2 {w'.jbd2 with lastCheckpointTick := f, ioBypass := false} := by
    rw [hj]
    exact ⟨⟨rfl,rfl,rfl,rfl,rfl⟩,rfl,rfl,rfl,rfl,rfl,rfl,rfl,hbyp.symm,rfl,rfl,rfl,rfl,rfl⟩
  refine ⟨htouch,hsame,hr.of_touches htouch hr.engine.drain_not_tree hsame fun p hp => ?_⟩
  dsimp only at hp
  rw [hj] at hp
  exact List.mem_of_mem_drop hp

section
variable (h : Checkpointed G k w w')
include h

lemma Checkpointed.jbd2 :
    ∃ t, w'.jbd2={w.jbd2.popped k with lastCheckpointTick := t, ioBypass := false} := by
  obtain ⟨-,-,w1,w2,w3,t,n,⟨-,hj1,-⟩,hs,⟨hq,-⟩,rfl⟩ := h
  refine ⟨t,?_⟩
  change {w3.jbd2 with lastCheckpointTick := t, ioBypass := false}=_
  rw [hq.jbd2,hs.put.jbd2,hj1]
  unfold Jbd2State.popped Jbd2State.ext4Jbd2RefreshStartTail
  cases w.jbd2.pending.drop k <;> rfl

lemma Checkpointed.sameTx (hb : w.jbd2.ioBypass=false) : SameTx w.jbd2 w'.jbd2 := by
  obtain ⟨t,ht⟩ := h.jbd2
  rw [ht]
  unfold Jbd2State.popped
  rw [Jbd2State.refresh_eq]
  exact ⟨⟨rfl,rfl,rfl,rfl,rfl⟩,rfl,rfl,rfl,rfl,rfl,rfl,rfl,hb.symm,⟨rfl,rfl,rfl,rfl,rfl⟩⟩

lemma Checkpointed.pending : w'.jbd2.pending=w.jbd2.pending.drop k := by
  obtain ⟨t,ht⟩ := h.jbd2
  rw [ht]
  exact Jbd2State.popped_pending k _

lemma Checkpointed.touches : Touches (fun b => b∈blocksOf (w.jbd2.oldest k) ∨ b=G.jmap 0) w w' := by
  obtain ⟨-,-,w1,w2,w3,t,n,⟨h1,-⟩,hs,⟨hq,-⟩,rfl⟩ := h
  have ht := ((h1.trans hs.put.touches).trans (hq.blocksPut fun _ => False).touches).weaken
    fun b hb => hb.elim id False.elim
  exact ⟨ht.moves,ht.other,ht.ext4,ht.journal⟩

lemma Checkpointed.rawView (hx : x/w.ext4.blockSize≠G.jmap 0) :
    w'.rawView x=imaged w.ext4.blockSize (w.jbd2.oldest k) w.rawView x := by
  obtain ⟨-,-,w1,w2,w3,t,n,⟨h1,-,hv1,-⟩,hs,⟨hq,-⟩,rfl⟩ := h
  change w3.rawView x=_
  rw [hq.rawView,hs.put.other (by rw [h1.ext4]; exact hx),hv1]

lemma Checkpointed.worked (hr : w.Running G) : Worked G w w' := by
  have ht := h.touches.weaken fun b hb => hb.imp_left fun hb => (hr.pending.oldest hb).2
  have hs := h.sameTx hr.bypass
  refine ⟨ht,hs,hr.of_touches ht hr.engine.drain_not_tree hs fun p hp => ?_⟩
  rw [h.pending] at hp
  exact List.mem_of_mem_drop hp

lemma Checkpointed.baseView (hr : w.Running G)
    (hx : x/w.ext4.blockSize≠G.jmap 0) : w'.baseView x=w.baseView x := by
  have hb : w'.jbd2.blockSize=w.jbd2.blockSize := (h.sameTx hr.bypass).engine.2.1
  have hsplit : w.pendingImages=w.jbd2.oldest k++w'.pendingImages := by
    rw [pendingImages,pendingImages,h.pending,Jbd2State.oldest,← List.flatMap_append,
      List.take_append_drop]
  unfold World.baseView
  rw [hb,imaged_congr_at _ (h.rawView hx),hsplit,imaged_append,hr.engine.block]

end

/-- Readings of the clock and marks of what went wrong. -/
def marked (w : World) (tick errno : ℕ) (enospc : Bool) : World :=
  {w with tick := tick, errno := errno, jbd2 := {w.jbd2 with txEnospc := enospc}}

/-- Background work: checkpoints while no transaction is open, and marks. -/
def BackStep (G : Geometry) (w w' : World) : Prop :=
  (∃ n e b, w'=w.marked n e b) ∨ (w.jbd2.txActive=false ∧ ∃ k, Checkpointed G k w w')

def Settles (G : Geometry) : World → World → Prop := Relation.ReflTransGen (BackStep G)

lemma SameTx.marked (w : World) (n e : ℕ) (b : Bool) : SameTx w.jbd2 (w.marked n e b).jbd2 :=
  ⟨⟨rfl,rfl,rfl,rfl,rfl⟩,rfl,rfl,rfl,rfl,rfl,rfl,rfl,rfl,⟨rfl,rfl,rfl,rfl,rfl⟩⟩

lemma Running.marked (h : w.Running G) (n e : ℕ) (b : Bool) : Running G (w.marked n e b) :=
  h.of_touches (B := fun _ => False) (.of_cache h.engine.placed.online rfl rfl rfl) (fun _ h => h.elim)
    (.marked w n e b) fun _ h => h

lemma Settles.marked (n e : ℕ) (b : Bool) : Settles G w (w.marked n e b) := .single (.inl ⟨n,e,b,rfl⟩)

/-- What background work leaves as it was. -/
structure Settled (G : Geometry) (w w' : World) : Prop where
  running : w'.Running G
  writesOk : w.cache.WritesOk → w'.cache.WritesOk
  sameTx : SameTx w.jbd2 w'.jbd2
  ext4 : w'.ext4=w.ext4
  baseView : ∀ x, x/w.ext4.blockSize≠G.jmap 0 → w'.baseView x=w.baseView x

lemma Settles.settled (h : Settles G w w') (hr : w.Running G) : Settled G w w' := by
  induction h with
  | refl => exact ⟨hr,id,SameTx.refl _,rfl,fun _ _ => rfl⟩
  | tail _ hstep ih =>
    rename_i w1 w2 _
    rcases hstep with ⟨n,e,b,rfl⟩ | ⟨-,k,hk⟩
    · exact ⟨ih.running.marked n e b,ih.writesOk,ih.sameTx.trans (SameTx.marked _ n e b),ih.ext4,
        ih.baseView⟩
    · refine ⟨(hk.worked ih.running).running,fun h => hk.touches.writesOk (ih.writesOk h),
        ih.sameTx.trans (hk.sameTx ih.running.bypass),hk.touches.ext4.trans ih.ext4,?_⟩
      intro x hx
      rw [hk.baseView ih.running (by rw [ih.ext4]; exact hx),ih.baseView x hx]

end World

section Background
variable {G : Geometry} {w : World} {budget : ℕ}

lemma World.Running.toBypass (h : w.Running G) : Engine G (setBypass true w) :=
  h.engine.of_parts rfl rfl rfl ⟨rfl,rfl,rfl,rfl,rfl⟩

lemma wp_ext4Jbd2CheckpointSome (h : w.Running G) (hb : 0<budget) :
    (ext4Jbd2CheckpointSome budget).wp
      (fun _ w' => if w.jbd2.txActive=true ∨ w.jbd2.pending=[] then w'=w
        else Checkpointed G (min budget w.jbd2.pending.length) w w')
      (fun w' => ¬ w.cache.WritesOk ∧ Worked G w w') w := by
  simp only [ext4Jbd2CheckpointSome,wp_bind,wp_gets,h.engine.enabled,Bool.not_true, Bool.false_or]
  by_cases hidle : w.jbd2.txActive=true ∨ w.jbd2.pending=[]
  · rw [if_pos (by simpa using hidle)]
    simp only [if_pos hidle,wp_pure]
  rw [if_neg (by simpa using hidle)]
  simp only [if_neg hidle]
  have hpos : 0<w.jbd2.pending.length := List.length_pos_iff.2 fun h => hidle (.inr h)
  simp only [wp_bind,wp_modify,wp_onFail,checkpointBody]
  have he := h.toBypass
  refine wp_mono (wp_checkpointLoop budget he rfl h.pending) ?_ fun w1 hf => ⟨hf.1,hf.2.worked h⟩
  rintro _ w1 ⟨k,hk,h1,hj1,hv1⟩
  change k=min budget w.jbd2.pending.length at hk
  have hd1 : Drained G (setBypass true w) w1 :=
    ⟨h1.weaken fun b hb => .inl (h.pending.oldest hb).2,k,hj1⟩
  refine wp_mono (wp_flushCache (hd1.keeps he).placed.online) ?_ fun w2 hf =>
    ⟨fun hw => hf.2 (h1.writesOk hw),(hd1.then (hf.1.touches _) hf.1.jbd2).worked h⟩
  rintro _ w2 ⟨h2,hc2⟩
  have hd2 := hd1.then (h2.touches _) h2.jbd2
  refine wp_mono (wp_ext4Jbd2StoreSuper (hd2.keeps he) (.inr (.inl hd2.bypass))) ?_ ?_
  swap
  · rintro w3 ⟨hw3,n,-,-,h3⟩
    exact ⟨fun hw => hw3 (hd2.touches.writesOk hw),(hd2.then h3.put.touches h3.put.jbd2).worked h⟩
  intro _ w3 h3
  have hd3 := hd2.then h3.put.touches h3.put.jbd2
  refine wp_mono (wp_flushCache (hd3.keeps he).placed.online) ?_ fun w4 hf =>
    ⟨fun hw => hf.2 (hd3.touches.writesOk hw),(hd3.then (hf.1.touches _) hf.1.jbd2).worked h⟩
  rintro _ w4 ⟨h4,hc4⟩
  rw [Jbd2State.taken,if_neg (by omega)] at hj1
  refine ⟨by omega,by omega,w2,w3,w4,_,_,⟨?_,?_,?_,hc2⟩,h3,⟨h4,hc4⟩,rfl⟩
  · have ht := (h1.trans (h2.touches fun _ => False)).weaken fun b hb => hb.elim id False.elim
    rw [← hk]
    exact ⟨ht.moves,ht.other,ht.ext4,ht.journal⟩
  · rw [h2.jbd2,hj1,← hk]
    rfl
  · rw [h2.rawView,hv1,← hk]
    rfl

lemma wp_checkpointSome_settles (h : w.Running G) (hw : w.cache.WritesOk) (hb : 0<budget) :
    (ext4Jbd2CheckpointSome budget).wp (fun _ w' => Settles G w w') (fun _ => False) w := by
  refine wp_mono (wp_ext4Jbd2CheckpointSome h hb) ?_ fun _ hf => hf.1 hw
  intro _ w' hs
  split_ifs at hs with hidle
  · rw [hs]
    exact .refl
  · refine .single (.inr ⟨?_,_,hs⟩)
    simpa using fun h => hidle (.inl h)

/-- From a state in `I`, checkpoints lead to states in the relation `R`. -/
structure World.BackWork (I : World → Prop) (R : World → World → Prop) : Prop where
  refl : ∀ {w}, I w → R w w
  trans : ∀ {w w' w''}, R w w' → R w' w'' → R w w''
  keeps : ∀ {w w'}, I w → R w w' → I w'
  some : ∀ {w budget}, I w → 0<budget → (ext4Jbd2CheckpointSome budget).wp (fun _ => R w) (R w) w

namespace World.BackWork
variable {I : World → Prop} {R : World → World → Prop}

lemma untilFreeLoop (hR : BackWork I R) (minFree tries : ℕ) (h : I w) :
    (FuriOS.untilFreeLoop minFree tries).wp (fun _ => R w) (R w) w := by
  induction tries generalizing w with
  | zero => exact hR.refl h
  | succ tries ih =>
    simp only [FuriOS.untilFreeLoop,wp_bind,wp_gets]
    split
    · exact hR.refl h
    rw [wp_bind]
    refine wp_imp (hR.some h (by split <;> omega)) fun _ w1 h1 => ?_
    exact wp_mono (ih (hR.keeps h h1)) (fun _ _ => hR.trans h1) fun _ => hR.trans h1

lemma untilFree (hR : BackWork I R) (minFree : ℕ) (h : I w) :
    (ext4Jbd2CheckpointUntilFree minFree).wp (fun _ => R w) (R w) w := by
  simp only [ext4Jbd2CheckpointUntilFree,wp_bind,wp_gets]
  split
  · exact hR.refl h
  simp only [wp_bind,wp_require,wp_gets,ite_self]
  by_cases hring : 1<w.jbd2.ring
  · rw [if_pos (by simpa using hring)]
    exact hR.untilFreeLoop _ _ h
  · rw [if_neg (by simpa using hring)]
    exact hR.refl h

lemma maybeCheckpoint (hR : BackWork I R) (htick : ∀ {w} n, I w → R w {w with tick := n}) (force : Bool)
    (h : I w) :
    (ext4Jbd2MaybeCheckpoint force).wp (fun _ => R w) (R w) w := by
  simp only [ext4Jbd2MaybeCheckpoint,wp_bind,wp_gets]
  split_ifs
  · exact hR.refl h
  · exact hR.some h (by decide)
  · exact hR.untilFree _ h
  · exact hR.some h (by decide)
  · have ht := htick (w.tick+1) h
    rw [wp_bind]
    refine wp_of_run (a := w.clock w.tick) rfl ?_
    split_ifs
    · exact wp_mono (hR.some (hR.keeps h ht) (by decide)) (fun _ _ => hR.trans ht) fun _ => hR.trans ht
    · exact ht

end World.BackWork

lemma backWork_settles : BackWork (fun w => w.Running G ∧ w.cache.WritesOk) (Settles G) where
  refl _ := .refl
  trans := .trans
  keeps h hs := ⟨(hs.settled h.1).running,(hs.settled h.1).writesOk h.2⟩
  some h hb := wp_mono (wp_checkpointSome_settles h.1 h.2 hb) (fun _ _ h => h) fun _ h => h.elim

lemma backWork_worked : BackWork (Running G) (Worked G) where
  refl := .refl
  trans := .trans
  keeps _ hs := hs.running
  some h hb := by
    refine wp_mono (wp_ext4Jbd2CheckpointSome h hb) ?_ fun _ hf => hf.2
    intro _ w' hs
    split_ifs at hs
    · rw [hs]
      exact .refl h
    · exact hs.worked h

lemma World.Worked.tick (n : ℕ) (h : w.Running G) : Worked G w {w with tick := n} :=
  ⟨.of_cache h.engine.placed.online rfl rfl rfl,.refl _,h.marked n w.errno w.jbd2.txEnospc⟩

lemma wp_ext4Jbd2CheckpointUntilFree (minFree : ℕ) (h : w.Running G) (hw : w.cache.WritesOk) :
    (ext4Jbd2CheckpointUntilFree minFree).wp (fun _ w' => Settles G w w')
      (fun w' => Settles G w w') w :=
  backWork_settles.untilFree minFree ⟨h,hw⟩

lemma wp_ext4Jbd2MaybeCheckpoint (force : Bool) (h : w.Running G) (hw : w.cache.WritesOk) :
    (ext4Jbd2MaybeCheckpoint force).wp (fun _ w' => Settles G w w') (fun w' => Settles G w w') w :=
  backWork_settles.maybeCheckpoint (fun n _ => .marked n _ _) force ⟨h,hw⟩

lemma wp_ext4PeriodicMaintenance (now : ℕ) (h : w.Running G) (hw : w.cache.WritesOk) :
    (ext4PeriodicMaintenance now).wp (fun _ w' => Settles G w w') (fun _ => False) w := by
  simp only [ext4PeriodicMaintenance,wp_bind,wp_gets,id]
  split_ifs
  · exact .refl
  · rw [wp_bind,wp_attempt]
    exact wp_ext4Jbd2MaybeCheckpoint false h hw
  · exact .refl
  · exact .refl

lemma wp_syncLoop (fuel : ℕ) (h : w.Running G) (hw : w.cache.WritesOk)
    (ht : w.jbd2.txActive=false) (hf : w.jbd2.pending.length≤fuel) :
    (syncLoop fuel).wp (fun _ w' => Settles G w w' ∧ w'.jbd2.pending=[]) (fun _ => False) w := by
  induction fuel generalizing w with
  | zero =>
    have : w.jbd2.pending=[] := List.length_eq_zero_iff.1 (by omega)
    exact ⟨.refl,this⟩
  | succ fuel ih =>
    simp only [syncLoop,wp_bind,wp_gets]
    cases hp : w.jbd2.pending with
    | nil => exact ⟨.refl,hp⟩
    | cons p ps =>
      simp only [List.isEmpty_cons,Bool.false_eq_true,if_false,wp_bind]
      refine wp_mono (wp_ext4Jbd2CheckpointSome h (by decide)) ?_ fun _ hf => hf.1 hw
      intro _ w1 h1
      rw [if_neg (by simp [ht,hp])] at h1
      have hset : Settles G w w1 := .single (.inr ⟨ht,_,h1⟩)
      have hs := hset.settled h
      refine wp_imp (ih hs.running (hs.writesOk hw) (by rw [hs.sameTx.active]; exact ht) ?_) ?_
      · rw [h1.pending,List.length_drop]
        rw [hp] at hf ⊢
        simp only [List.length_cons,ext4Jbd2CheckpointBatch] at hf ⊢
        omega
      · rintro _ w2 ⟨h2,he⟩
        exact ⟨hset.trans h2,he⟩

end Background

section Sync
variable {G : Geometry} {w w' : World}

/-- A sync: all transactions are checkpointed, then the journal superblock is stored and flushed. -/
def World.Synced (G : Geometry) (w w' : World) : Prop := w.jbd2.txActive=false ∧ ∃ w1 w2,
  (Settles G w w1 ∧ w1.jbd2.pending=[]) ∧
  PutBlock (G.jmap 0) (w1.jbd2.superBlock (w1.jsb G)) w1 w2 ∧ Quiet w2 w' ∧ w'.Clean

lemma wp_ext4SyncFilesystem (h : w.Running G) (hw : w.cache.WritesOk) : ext4SyncFilesystem.wp
      (fun _ w' => if w.ext4.mounted then Synced G w w' else w'=w)
      (fun w' => w'=w ∧ w.jbd2.txActive=true) w := by
  simp only [ext4SyncFilesystem,wp_bind,wp_gets,id,h.engine.enabled,if_true]
  by_cases hm : w.ext4.mounted=true
  swap
  · rw [if_pos (by simpa using hm)]
    simp only [if_neg hm,wp_pure]
  rw [if_neg (by simpa using hm)]
  simp only [if_pos hm,wp_bind]
  cases ht : w.jbd2.txActive with
  | true => exact ⟨rfl,rfl⟩
  | false =>
    simp only [Bool.not_false,wp_require_true]
    refine wp_mono (wp_syncLoop _ h hw ht le_rfl) ?_ fun _ h => h.elim
    rintro _ w1 ⟨h1,hp1⟩
    have hs := h1.settled h
    have he1 := hs.running.engine
    have hd1 : w1.Direct := .inr (.inr ⟨hs.sameTx.active.trans ht,hp1⟩)
    refine wp_mono (wp_ext4Jbd2StoreSuper he1 hd1) ?_ fun _ hf => (hf.1 (hs.writesOk hw)).elim
    intro _ w2 h2
    rw [wp_gets,h2.put.journal,hs.running.noJlogTx]
    simp only [Bool.not_false,wp_require_true]
    refine wp_mono (wp_flushCache (h2.put.online he1.placed.online)) ?_
      fun _ hf => (hf.2 (h2.put.writesOk (hs.writesOk hw))).elim
    rintro _ w3 ⟨h3,hc3⟩
    exact ⟨ht,w1,w2,⟨h1,hp1⟩,h2,h3,hc3⟩

lemma World.Running.of_put {B : ℕ → Prop} (h : w.Running G) (hp : BlocksPut B w w')
    (hB : ∀ b, B b → ¬ G.tree b) : w'.Running G :=
  h.of_touches hp.touches hB (by rw [hp.jbd2]; exact .refl _) (by rw [hp.jbd2]; exact fun _ h => h)

lemma World.Synced.settled (h : Synced G w w') (hr : w.Running G) : Settled G w w' := by
  obtain ⟨-,w1,w2,⟨h1,hp1⟩,h2,h3,-⟩ := h
  have hs := h1.settled hr
  have hput : BlocksPut (· = G.jmap 0) w1 w' :=
    (h2.put.trans hs.running.engine.placed (h3.blocksPut fun _ => False) fun _ _ h => h).weaken
      fun b hb => hb.elim id False.elim
  have hrun := hs.running.of_put hput
    fun b hb => hs.running.engine.log_not_tree hr.engine.maxlen_pos hb
  refine ⟨hrun,fun hw => hput.writesOk (hs.writesOk hw),by rw [hput.jbd2]; exact hs.sameTx,
    hput.ext4.trans hs.ext4,?_⟩
  intro x hx
  rw [← hs.baseView x hx]
  unfold World.baseView World.pendingImages
  rw [hput.jbd2]
  exact imaged_congr_at _ (hput.other (by rw [hs.ext4]; exact hx))

end Sync

end FuriOS
