import FuriOS.Ext4.ReplaySpec
import FuriOS.Ext4.Fresh

/-! Recovery as a whole. The volume ends up with the images of the log, each block with the image
of the latest transaction such that no transaction from it on revokes the block. -/
namespace FuriOS
open BlockCache World Jbd2State Prog

/-- The volume without the mark that its journal needs recovery. -/
def unmarked (v : Buf) : Buf :=
  v.copy ext4SuperOffset ((v.slice ext4SuperOffset ext4SuperSize).wrLe32 ext4SFeatureIncompat
    (incompatCleared (v.slice ext4SuperOffset ext4SuperSize))) 0 ext4SuperSize

section Finish
variable {G : Geometry} {w w' : World}

/-- What the removal of the mark has done. -/
structure World.Unmarks (w w' : World) : Prop where
  online : w'.Online
  setup : SameSetup w.cache w'.cache
  view : w'.rawView=if hasFlag w.ext4.featureIncompat ext4IncompatRecover then
    unmarked w.rawView else w.rawView

@[simp] lemma World.rawView_setIncompat (w : World) (n : ℕ) :
    (w.setIncompat n).rawView=w.rawView := rfl

@[simp] lemma World.cache_setIncompat (w : World) (n : ℕ) : (w.setIncompat n).cache=w.cache := rfl

lemma World.Online.setIncompat (h : w.Online) (n : ℕ) : (w.setIncompat n).Online :=
  ⟨h.attached,h.reads,h.same⟩

lemma wp_clearRecover (hp : w.Placed G) (hd : w.Direct)
    (hcap : ext4SuperOffset+ext4SuperSize≤w.capBytes) :
    clearRecover.wp (fun _ w' => Unmarks w w') (fun _ => ¬ w.cache.WritesOk) w := by
  rw [clearRecover,wp_gets_bind]
  by_cases hf : hasFlag w.ext4.featureIncompat ext4IncompatRecover=true
  swap
  · rw [if_neg hf]
    exact ⟨hp.online,.refl _,by rw [if_neg hf]⟩
  rw [if_pos hf,wp_bind]
  refine wp_mono (wp_ext4DiskReadBytes hp.online hp.cap _ _) ?_ ?_
  swap
  · rintro w1 ⟨-,href⟩
    exact href.resolve_right (not_lt.2 hcap)
  rintro sb w1 ⟨h1,rfl,-⟩
  rw [hd.view hp.noJlog,wp_bind]
  have hcap1 : ext4SuperOffset+ext4SuperSize≤w1.capBytes := by rw [h1.capBytes]; exact hcap
  refine wp_mono (wp_ext4DiskWriteBytes_direct (h1.placed hp) (h1.direct hd) hcap1 _) ?_
    fun _ h hw => h.1 (h1.writesOk hw)
  intro _ w2 h2
  rw [wp_modify]
  have hv := h2.view
  have ho := h2.wrote.online (h1.online hp.online)
  obtain ⟨c1,rfl,hc1⟩ := h1
  obtain ⟨c2,rfl,hc2⟩ := h2.wrote
  have hv1 : (w.withCache c1).rawView=w.rawView := rawView_congr hc1.2
  rw [hv1] at hv
  refine ⟨ho.setIncompat _,?_,?_⟩
  · rw [cache_setIncompat]
    exact hc1.setup.trans hc2.setup
  · rw [if_pos hf,rawView_setIncompat]
    exact hv

lemma unmarked_congr {v v' : Buf} {x : ℕ}
    (h : ∀ y, ext4SuperOffset≤y → y<ext4SuperOffset+ext4SuperSize → v y=v' y)
    (hx : v x=v' x) : unmarked v x=unmarked v' x := by
  have hs : v.slice ext4SuperOffset ext4SuperSize=v'.slice ext4SuperOffset ext4SuperSize := by
    funext i
    simp only [Buf.slice]
    split_ifs with hi
    · exact h _ (Nat.le_add_right _ _) (Nat.add_lt_add_left hi _)
    · rfl
  simp only [unmarked,Buf.copy,hs,hx]

/-- The bytes of the superblock are in blocks that the journal does not use. -/
def SuperHome (G : Geometry) (w : World) : Prop :=
  ∀ x, ext4SuperOffset≤x → x<ext4SuperOffset+ext4SuperSize → G.Home (x/w.ext4.blockSize)

/-- The contents once the updates that the scan has found are applied. -/
def appliedView (w : World) (rd : ℕ → Buf) (s : ReplayState) : Buf :=
  redone w.ext4.blockSize rd (s.updates,s.revokes) w.rawView

/-- The contents that recovery leaves in the blocks that the journal does not use. -/
def recoveredView (w : World) (rd : ℕ → Buf) (s : ReplayState) : Buf :=
  if s.replayed=0 then w.rawView
  else if hasFlag w.ext4.featureIncompat ext4IncompatRecover then unmarked (appliedView w rd s)
  else appliedView w rd s

/-- What recovery has done after a scan that ended with `s`. -/
def World.Finished (G : Geometry) (s : ReplayState) (w w' : World) : Prop :=
  ∀ x, G.Home (x/w.ext4.blockSize) → w'.rawView x=recoveredView w (w.jblock G) s x

lemma sameEngine_logEmptied (p : ℕ) (j : Jbd2State) : SameEngine j (logEmptied p j) := by
  rw [logEmptied,refresh_eq]
  exact ⟨rfl,rfl,rfl,rfl,rfl⟩

lemma logEmptied_txActive (p : ℕ) (j : Jbd2State) : (logEmptied p j).txActive=j.txActive := by
  rw [logEmptied,refresh_eq]

lemma logEmptied_pending (p : ℕ) (j : Jbd2State) : (logEmptied p j).pending=j.pending := by
  rw [logEmptied,refresh_eq]

lemma wp_storeEmptied (he : w.Engine G) (hd : w.Direct) :
    ext4Jbd2StoreSuper.wp (fun _ w' => Touches (· = G.jmap 0) w w' ∧ w'.Engine G ∧ w'.Direct)
      (fun _ => ¬ w.cache.WritesOk) w :=
  wp_mono (wp_ext4Jbd2StoreSuper he hd) (fun _ _ h => ⟨h.put.touches,
    he.of_blocksPut h.put fun _ => he.log_not_tree he.maxlen_pos,h.put.direct hd⟩) fun _ h => h.1

lemma World.Engine.logEmptied (he : w.Engine G) (p : ℕ) : (w.setJbd2 (logEmptied p)).Engine G :=
  he.setJbd2 (sameEngine_logEmptied p w.jbd2)

/-- No transaction is open and none waits for a checkpoint. -/
def Jbd2State.Idle (j : Jbd2State) : Prop := j.txActive=false ∧ j.pending=[]

lemma Jbd2State.Idle.direct (h : w.jbd2.Idle) : w.Direct := .inr (.inr h)

lemma Jbd2State.Idle.logEmptied {j : Jbd2State} (h : j.Idle) (p : ℕ) : (logEmptied p j).Idle :=
  ⟨(logEmptied_txActive p j).trans h.1,(logEmptied_pending p j).trans h.2⟩

lemma wp_finishReplay_none {s : ReplayState} (he : w.Engine G) (hi : w.jbd2.Idle)
    (hs : s.replayed=0) :
    (finishReplay G.inode s).wp (fun _ w' => Finished G s w w') (fun _ => ¬ w.cache.WritesOk) w := by
  rw [finishReplay,if_pos hs,wp_modify_bind,wp_bind]
  have he1 := he.logEmptied s.cursor
  have hi1 : (w.setJbd2 (logEmptied s.cursor)).jbd2.Idle := hi.logEmptied s.cursor
  refine wp_imp (wp_storeEmptied he1 hi1.direct) ?_
  rintro _ w2 ⟨ht,he2,-⟩
  refine wp_mono (wp_flushCache he2.placed.online) ?_ fun _ h hw => h.2 (ht.writesOk hw)
  rintro _ w3 ⟨h3,-⟩ x hx
  rw [h3.rawView,ht.other x fun h => hx.2 ⟨0,he.maxlen_pos,h.symm⟩,recoveredView,if_pos hs]
  rfl

lemma wp_ext4Jbd2ApplyUpdates (hp : w.Placed G) (hd : w.Direct) {us : List Jbd2Update}
    {rs : List Jbd2Revoke}
    (hu : ∀ u∈us, u.fsBlock<w.ext4.blocksCount ∧ u.jBlock<G.maxlen ∧ G.Home u.fsBlock) :
    (ext4Jbd2ApplyUpdates G.inode us rs).wp (fun _ w' => Touches G.Home w w' ∧ w'.jbd2=w.jbd2 ∧
        w'.rawView=redone w.ext4.blockSize (w.jblock G) (us,rs) w.rawView)
      (fun _ => ¬ w.cache.WritesOk) w := by
  have hblock : decide (w.ext4.blockSize≤4096)=true := by
    rcases hp.blockSize with h | h | h <;> simp [h]
  simp only [ext4Jbd2ApplyUpdates,wp_bind,wp_gets,hblock,wp_require_true]
  refine wp_imp (wp_applyUpdatesLoop hp hd us hu) ?_
  rintro _ w' ⟨ht,hj,hv⟩
  refine ⟨ht.weaken ?_,hj,hv⟩
  rintro b ⟨u,hm,rfl⟩
  exact (hu u hm).2.2

lemma wp_finishReplay_some {s : ReplayState} (he : w.Engine G) (hi : w.jbd2.Idle)
    (hcap : ext4SuperOffset+ext4SuperSize≤w.capBytes) (hhome : SuperHome G w)
    (hu : ∀ u∈s.updates, u.fsBlock<w.ext4.blocksCount ∧ u.jBlock<G.maxlen ∧ G.Home u.fsBlock)
    (hs : s.replayed≠0) :
    (finishReplay G.inode s).wp (fun _ w' => Finished G s w w') (fun _ => ¬ w.cache.WritesOk) w := by
  rw [finishReplay,if_neg hs,wp_bind]
  refine wp_imp (wp_ext4Jbd2ApplyUpdates he.placed hi.direct hu) ?_
  rintro _ w1 ⟨ht1,hj1,hv1⟩
  rw [wp_modify_bind,wp_bind]
  have hsame : SameEngine w.jbd2 (logEmptied s.cursor {w1.jbd2 with sequence := s.seq}) := by
    rw [hj1]
    exact sameEngine_logEmptied s.cursor {w.jbd2 with sequence := s.seq}
  have hidle : (logEmptied s.cursor {w1.jbd2 with sequence := s.seq}).Idle := by
    rw [hj1]
    exact Idle.logEmptied (j := {w.jbd2 with sequence := s.seq}) hi s.cursor
  have ht2 := ht1.setJbd2 fun j => logEmptied s.cursor {j with sequence := s.seq}
  have he2 := he.of_touches ht2 (fun b hb => hb.1) hsame
  refine wp_mono (wp_storeEmptied he2 (Idle.direct hidle)) ?_ fun _ h hw => h (ht2.writesOk hw)
  rintro _ w3 ⟨ht3,he3,hd3⟩
  have hext3 : w3.ext4=w.ext4 := ht3.ext4.trans ht2.ext4
  have hcap3 : w3.capBytes=w.capBytes :=
    congrArg (· * sectorSize) (ht3.moves.setup.count.trans ht2.moves.setup.count)
  rw [wp_bind]
  refine wp_mono (wp_clearRecover he3.placed hd3 (by rw [hcap3]; exact hcap)) ?_
    fun _ h hw => h (ht3.writesOk (ht2.writesOk hw))
  intro _ w4 h4
  refine wp_mono (wp_flushCache h4.online) ?_
    fun _ h hw => h.2 (h4.setup.writesOk (ht3.writesOk (ht2.writesOk hw)))
  rintro _ w5 ⟨h5,-⟩ x hx
  have hhome3 : ∀ x, G.Home (x/w.ext4.blockSize) → w3.rawView x=appliedView w (w.jblock G) s x := by
    intro x hx
    rw [ht3.other x (by rw [ht2.ext4]; exact fun h => hx.2 ⟨0,he.maxlen_pos,h.symm⟩)]
    exact congrFun hv1 x
  rw [h5.rawView,h4.view,recoveredView,if_neg hs,hext3]
  split_ifs
  · exact unmarked_congr (fun y h1 h2 => hhome3 y (hhome y h1 h2)) (hhome3 x hx)
  · exact hhome3 x hx

end Finish

section Replay
variable {G : Geometry} {w w' : World} {ext4Sb : Buf}

/-- The scan that a mount of the volume makes. -/
def World.replayScan (G : Geometry) (w : World) : Scan ReplayState :=
  replayLoop w.ext4 (w.loadedJbd2 G) (replayGuard (w.loadedJbd2 G))
    ⟨(w.loadedJbd2 G).start,(w.loadedJbd2 G).sequence,[],[],[],[],0,false⟩

def World.loaded (G : Geometry) (w : World) (c : BlockCache Sector) : World :=
  {w with cache := c, jbd2 := w.loadedJbd2 G, tick := w.tick+1}

/-- The mount accepts the journal superblock. -/
def World.Accepted (G : Geometry) (w : World) : Prop :=
  SuperOk w.ext4.blockSize (w.jsb G) (fromSuper G.inode (w.jsb G))

lemma World.Recoverable.engine (h : w.Recoverable G ext4Sb) {c : BlockCache Sector}
    (hc : Calm w.cache c) (hs : w.Accepted G) :
    (w.loaded G c).Engine G := by
  have hp := (show Quiet w (w.withCache c) from ⟨c,rfl,hc⟩).placed h.placed
  exact ⟨hp.of_parts rfl rfl rfl,rfl,hs.block,h.maxlen,rfl,Nat.pos_of_ne_zero hs.firstPos,hs.first⟩

lemma inRing_lt {j : Jbd2State} {p : ℕ} (h : j.inRing p=true) : p<j.maxlen := by
  simp only [inRing,Bool.and_eq_true,decide_eq_true_eq] at h
  omega

lemma World.loaded_rawView {c : BlockCache Sector} (hc : Calm w.cache c) :
    (w.loaded G c).rawView=w.rawView := rawView_congr hc.2

lemma World.Recoverable.ensures_scan (h : w.Recoverable G ext4Sb)
    (hr : (w.loadedJbd2 G).inRing (w.loadedJbd2 G).start=true) :
    (w.replayScan G).Ensures (fun r => r.1+r.2≤w.capBytes) w.rawView
      fun s => (w.loadedJbd2 G).inRing s.cursor=true := by
  refine ensures_replayLoop ?_ _ hr
  intro p hp
  have hlt : p<G.maxlen := h.maxlen ▸ inRing_lt hp
  exact ensures_readJblock h.placed hlt

/-- Recovery as a whole. It fails only with the device, or on a journal superblock or a log that
it does not accept. -/
lemma wp_ext4Jbd2ReplayIfNeeded (h : w.Recoverable G ext4Sb) (hhome : SuperHome G w)
    (hcap : ext4SuperOffset+ext4SuperSize≤w.capBytes)
    (hu : w.Accepted G → (w.loadedJbd2 G).inRing (w.loadedJbd2 G).start=true →
      ∀ s, (w.replayScan G).eval w.rawView=some s →
        UpdatesIn w.ext4 (w.loadedJbd2 G) G.Home s.updates) :
    (ext4Jbd2ReplayIfNeeded ext4Sb).wp (fun _ w' => w.Accepted G ∧
        ∃ c, Calm w.cache c ∧ if (w.loadedJbd2 G).start=0 then w'=w.loaded G c else
          (w.loadedJbd2 G).inRing (w.loadedJbd2 G).start=true ∧
          ∃ s, (w.replayScan G).eval w.rawView=some s ∧ Finished G s (w.loaded G c) w')
      (fun _ => ¬ w.cache.WritesOk ∨ ¬ w.Accepted G ∨
        (w.loadedJbd2 G).inRing (w.loadedJbd2 G).start=false ∨
        (w.replayScan G).eval w.rawView=none) w := by
  have hflag : ¬ (!hasFlag w.ext4.featureCompat ext4CompatHasJournal)=true := by
    rw [h.hasJournal]; simp
  rw [ext4Jbd2ReplayIfNeeded,wp_gets_bind,if_neg hflag,wp_bind]
  refine wp_mono (wp_ext4Jbd2LoadState h) ?_ ?_
  swap
  · rintro _ (hw | hs)
    · exact .inl hw
    · exact .inr (.inl hs)
  rintro _ w1 ⟨hs,c,hc,rfl⟩
  change Prog.wp _ _ _ (w.loaded G c)
  have he := h.engine hc hs
  have hi : (w.loaded G c).jbd2.Idle := ⟨rfl,rfl⟩
  have hw1 : w.cache.WritesOk → (w.loaded G c).cache.WritesOk := hc.setup.writesOk
  rw [wp_gets_bind,wp_gets_bind]
  by_cases hstart : (w.loadedJbd2 G).start=0
  · rw [if_pos (show (w.loaded G c).jbd2.start=0 from hstart)]
    exact ⟨hs,c,hc,by rw [if_pos hstart]⟩
  rw [if_neg (show ¬ (w.loaded G c).jbd2.start=0 from hstart)]
  refine wp_require_bind (fun hring => ?_) fun hring => .inr (.inr (.inl hring))
  rw [wp_bind]
  have hv : (w.loaded G c).rawView=w.rawView := loaded_rawView hc
  have hcap1 : (w.loaded G c).capBytes=w.capBytes := congrArg (· * sectorSize) hc.setup.count
  refine wp_mono (wp_disk_direct he.placed hi.direct (w.replayScan G) ?_) ?_ ?_
  · rw [hv,hcap1]
    exact (h.ensures_scan hring).reads
  · rintro s w2 ⟨h2,heval⟩
    rw [hv] at heval
    obtain ⟨c2,rfl,hc2⟩ := h2
    change Prog.wp _ _ _ (w.loaded G c2)
    have hc2 : Calm w.cache c2 := hc.trans hc2
    have hcap2 : (w.loaded G c2).capBytes=w.capBytes := congrArg (· * sectorSize) hc2.setup.count
    have hfin : (finishReplay G.inode s).wp (fun _ w' => Finished G s (w.loaded G c2) w')
        (fun _ => ¬ (w.loaded G c2).cache.WritesOk) (w.loaded G c2) := by
      have he2 := h.engine hc2 hs
      by_cases hrep : s.replayed=0
      · exact wp_finishReplay_none he2 ⟨rfl,rfl⟩ hrep
      · refine wp_finishReplay_some he2 ⟨rfl,rfl⟩ (by rw [hcap2]; exact hcap) hhome ?_ hrep
        intro u hm
        obtain ⟨hb,hr,hh⟩ := hu hs hring s heval u hm
        exact ⟨hb,h.maxlen ▸ inRing_lt hr,hh⟩
    refine wp_mono hfin ?_ fun _ hn => .inl fun hw => hn (hc2.setup.writesOk hw)
    intro _ w' hf
    exact ⟨hs,c2,hc2,by rw [if_neg hstart]; exact ⟨hring,s,heval,hf⟩⟩
  · rintro w2 ⟨-,hnone | hw⟩
    · rw [hv] at hnone
      exact .inr (.inr (.inr hnone))
    · exact .inl fun h => hw (hw1 h)

/-- The contents of a volume once a log is redone. -/
def replayedView (bs : ℕ) (ts : List (Redo ℕ Buf)) (v : Buf) : Buf := fun x =>
  match Redo.lastImage ts (x/bs) with
  | some i => i (x%bs)
  | none => v x

lemma redone_eq_replayedView {bs : ℕ} {rd : ℕ → Buf} {T : Tables} {ts : List (Redo ℕ Buf)} (v : Buf)
    (h : ∀ b, (T.deciding b).map (Jbd2Update.image rd)=Redo.lastImage ts b) :
    redone bs rd T v=replayedView bs ts v := by
  funext x
  rw [redone,replayedView,← h]
  cases T.deciding (x/bs) <;> rfl

lemma World.Recoverable.eval_scan (h : w.Recoverable G ext4Sb) (ha : w.Accepted G)
    (hr : (w.loadedJbd2 G).inRing (w.loadedJbd2 G).start=true) {txs : List (List LogItem)} {r : ℕ}
    (hlog : LogOf w.ext4 (w.loadedJbd2 G) (w.jblock G) (w.loadedJbd2 G).start
      (w.loadedJbd2 G).sequence txs r) {s : ReplayState}
    (hs : (w.replayScan G).eval w.rawView=some s) :
    ∃ T, readLog w.ext4 (w.loadedJbd2 G) (w.loadedJbd2 G).sequence txs ([],[])=some T ∧
      s.updates=T.1 ∧ s.revokes=T.2 ∧ s.replayed=txs.length := by
  have hrd : ∀ p, (w.loadedJbd2 G).inRing p=true →
      (w.ext4.readJblock (w.loadedJbd2 G).journalMeta p).eval w.rawView=some (w.jblock G p) :=
    fun p hp => eval_readJblock h.placed (h.maxlen ▸ inRing_lt hp)
  have hfirst : 0<(w.loadedJbd2 G).first := Nat.pos_of_ne_zero ha.firstPos
  have heval := eval_log hfirst hrd hlog hr (replayGuard (w.loadedJbd2 G))
    (s := ⟨(w.loadedJbd2 G).start,(w.loadedJbd2 G).sequence,[],[],[],[],0,false⟩) rfl rfl rfl rfl rfl
  rw [replayScan,heval] at hs
  split_ifs at hs
  obtain ⟨T,hT,rfl⟩ := Option.map_eq_some_iff.1 hs
  exact ⟨T,hT,rfl,rfl,Nat.zero_add _⟩

/-- A volume with a well-formed log that recovery has to redo: the sequence numbers do not wrap,
and the blocks that are logged are not the journal's own. -/
structure World.Logged (G : Geometry) (w : World) (ext4Sb : Buf) (txs : List (List LogItem)) :
    Prop where
  recoverable : w.Recoverable G ext4Sb
  super : SuperHome G w
  cap : ext4SuperOffset+ext4SuperSize≤w.capBytes
  start : (w.loadedJbd2 G).start≠0
  log : ∃ r, LogOf w.ext4 (w.loadedJbd2 G) (w.jblock G) (w.loadedJbd2 G).start
    (w.loadedJbd2 G).sequence txs r
  seq : (w.loadedJbd2 G).sequence+txs.length≤2^32
  home : ∀ tx∈txs, ∀ i∈tx, ∀ e∈i.entries, e.deleted=false → G.Home e.fsBlock

def World.logView (G : Geometry) (w : World) (txs : List (List LogItem)) : Buf :=
  replayedView w.ext4.blockSize (txs.map (txRedo (w.jblock G))) w.rawView

/-- Recovery takes the mark off the superblock. -/
def World.Unmarking (w : World) (txs : List (List LogItem)) : Prop :=
  txs≠[] ∧ hasFlag w.ext4.featureIncompat ext4IncompatRecover=true

instance (w : World) (txs : List (List LogItem)) : Decidable (w.Unmarking txs) :=
  inferInstanceAs (Decidable (_ ∧ _))

/-- What a successful recovery leaves in the blocks that the journal does not use. -/
def World.Recovered (G : Geometry) (txs : List (List LogItem)) (w w' : World) : Prop :=
  ∀ x, G.Home (x/w.ext4.blockSize) → w'.rawView x =
    if w.Unmarking txs then unmarked (w.logView G txs) x else w.logView G txs x

/-- Recovery of a well-formed log. It fails only with the device, or on a journal superblock or a
log that it does not accept. -/
lemma wp_recover {txs : List (List LogItem)} (h : w.Logged G ext4Sb txs) :
    (ext4Jbd2ReplayIfNeeded ext4Sb).wp (fun _ w' => Recovered G txs w w')
      (fun _ => ¬ w.cache.WritesOk ∨ ¬ w.Accepted G ∨
        (w.loadedJbd2 G).inRing (w.loadedJbd2 G).start=false ∨
        (w.replayScan G).eval w.rawView=none) w := by
  obtain ⟨r,hlog⟩ := h.log
  have hrec := h.recoverable
  have hwp := wp_ext4Jbd2ReplayIfNeeded hrec h.super h.cap fun ha hr s hs => by
    obtain ⟨T,hT,hu,-⟩ := hrec.eval_scan ha hr hlog hs
    rw [hu]
    exact UpdatesIn.log (T := ([],[])) (fun u hu => by simp at hu) h.home hT
  refine wp_imp hwp ?_
  rintro _ w' ⟨ha,c,hc,hfin⟩
  rw [if_neg h.start] at hfin
  obtain ⟨hr,s,hs,hf⟩ := hfin
  obtain ⟨T,hT,hu,hrv,hrep⟩ := hrec.eval_scan ha hr hlog hs
  have hv : (w.loaded G c).rawView=w.rawView := loaded_rawView hc
  have hj : (w.loaded G c).jblock G=w.jblock G := by
    funext l
    rw [World.jblock,World.jblock,hv]
    rfl
  have happ : appliedView (w.loaded G c) ((w.loaded G c).jblock G) s=w.logView G txs := by
    rw [appliedView,hu,hrv,hv,hj]
    exact redone_eq_replayedView _ (deciding_readLog hT h.seq)
  intro x hx
  rw [hf x hx,recoveredView,happ,hrep,hv]
  by_cases hnil : txs=[]
  · rw [if_pos (List.length_eq_zero_iff.2 hnil),if_neg fun h => h.1 hnil,logView,hnil]
    rfl
  · rw [if_neg fun h => hnil (List.length_eq_zero_iff.1 h)]
    simp only [Unmarking,ne_eq,hnil,not_false_eq_true,true_and]
    split_ifs with h1 h2 h2
    · rfl
    · exact absurd h1 h2
    · exact absurd h2 h1
    · rfl

/-- After a successful recovery from a well-formed log whose sequence numbers do not wrap, each
block that the journal does not use holds the image of the latest transaction such that no
transaction from it on revokes the block, or what it held before if there is none. Only the mark
that the journal needs recovery is gone from the superblock. -/
theorem ext4Jbd2ReplayIfNeeded_lastImage (h : w.Recoverable G ext4Sb) (hhome : SuperHome G w)
    (hcap : ext4SuperOffset+ext4SuperSize≤w.capBytes) (hstart : (w.loadedJbd2 G).start≠0)
    {txs : List (List LogItem)} {r : ℕ}
    (hlog : LogOf w.ext4 (w.loadedJbd2 G) (w.jblock G) (w.loadedJbd2 G).start
      (w.loadedJbd2 G).sequence txs r)
    (hseq : (w.loadedJbd2 G).sequence+txs.length≤2^32)
    (hlogged : ∀ tx∈txs, ∀ i∈tx, ∀ e∈i.entries, e.deleted=false → G.Home e.fsBlock)
    (hrun : (ext4Jbd2ReplayIfNeeded ext4Sb).run w=(some (),w')) :
    ∀ x, G.Home (x/w.ext4.blockSize) → w'.rawView x =
      if txs≠[] ∧ hasFlag w.ext4.featureIncompat ext4IncompatRecover then
        unmarked (replayedView w.ext4.blockSize (txs.map (txRedo (w.jblock G))) w.rawView) x
      else replayedView w.ext4.blockSize (txs.map (txRedo (w.jblock G))) w.rawView x := by
  have hrec := wp_some (wp_recover ⟨h,hhome,hcap,hstart,⟨r,hlog⟩,hseq,hlogged⟩) hrun
  exact hrec

end Replay

/-- A header at block `p` of the journal of the small volume. -/
def putHeader (v : Buf) (p type seq : ℕ) : Buf :=
  ((v.wrBe32 ((20+p)*1024+jbd2HdrMagicOff) jbd2MagicNumber).wrBe32
    ((20+p)*1024+jbd2HdrTypeOff) type).wrBe32 ((20+p)*1024+jbd2HdrSeqOff) seq

/-- A log of two transactions: `s` logs block 40, and the next one revokes it. -/
def revokedLog (s : ℕ) : Buf :=
  let v := (freshImage jbd2FeatureIncompatRevoke s).wrLe32 (ext4SuperOffset+ext4SFeatureIncompat)
    (2+ext4IncompatRecover)
  let v := putHeader v 1 jbd2DescriptorBlock s
  let v := ((v.wrBe32 (21*1024+12) 40).wrBe16 (21*1024+18) (jbd2FlagLastTag+jbd2FlagSameUuid)).fill
    (22*1024) 7 1
  let v := putHeader (putHeader v 3 jbd2CommitBlock s) 4 jbd2RevokeBlock ((s+1)%2^32)
  let v := (v.wrBe32 (24*1024+jbd2RevokeCountOff) 20).wrBe32 (24*1024+jbd2RevokeEntriesOff) 40
  putHeader v 5 jbd2CommitBlock ((s+1)%2^32)

/-- The engine that a mount of this volume loads. -/
def revokedJbd2 (s : ℕ) : Jbd2State := (unmounted (revokedLog s)).loadedJbd2 freshGeometry

/-- The two transactions, as the log has them. -/
def revokedItems (s : ℕ) : List (List LogItem) :=
  let j := revokedJbd2 s
  let p := j.nextBlock j.start
  [[.images [Jbd2Tag.entry ⟨40,10,0,20⟩ p]],
    [.revokes [revokeEntry j ((unmounted (revokedLog s)).jblock freshGeometry
      (j.nextBlock (j.nextBlock p))) jbd2RevokeEntriesOff]]]

section Sample
variable {s : ℕ}

lemma revokedLog_recoverable (hs : s=5 ∨ s=2^32-1) :
    (unmounted (revokedLog s)).Recoverable freshGeometry
      ((revokedLog s).slice ext4SuperOffset ext4SuperSize) where
  placed := unmounted_placed _
  hasJournal := show hasFlag ext4CompatHasJournal ext4CompatHasJournal=true by decide
  inum := by rcases hs with rfl | rfl <;> decide +kernel
  load := by
    rw [unmounted_rawView]
    have hinum : ((revokedLog s).slice ext4SuperOffset ext4SuperSize).rdLe32 ext4SJournalInum=8 := by
      rcases hs with rfl | rfl <;> decide +kernel
    have htable : ((revokedLog s).slice 2048 32).rdLe32 ext4BgInodeTableLo=5 := by
      rcases hs with rfl | rfl <;> decide +kernel
    rw [hinum]
    refine (eval_loadFresh htable).trans (congrArg some (metaOf_fresh ?_ ?_))
    · rcases hs with rfl | rfl <;> decide +kernel
    · rcases hs with rfl | rfl <;> decide +kernel
  within := by
    rw [unmounted_rawView]
    rcases hs with rfl | rfl <;> decide +kernel
  maxlen := by rcases hs with rfl | rfl <;> decide +kernel
  nonempty := by decide

lemma RevokesAt.of_eq {j : Jbd2State} {blk : Buf} {used off : ℕ} (h : used=off) :
    RevokesAt j blk used off [] := by
  subst h
  exact .nil

lemma revokedLog_log (hs : s=5 ∨ s=2^32-1) :
    ∃ r, LogOf (unmounted (revokedLog s)).ext4 (revokedJbd2 s)
      ((unmounted (revokedLog s)).jblock freshGeometry) (revokedJbd2 s).start (revokedJbd2 s).sequence
      (revokedItems s) r := by
  refine ⟨_,.cons (by simp) (.desc ?_ ?_ (.last ⟨?_,?_,?_,?_,?_⟩ ?_) (.commit ?_ ?_))
    (.cons (by simp) (.revoke ?_ ⟨?_,?_,?_,.cons ?_ (.of_eq ?_)⟩ (.commit ?_ ?_)) (.nil ?_))⟩
  all_goals rcases hs with rfl | rfl <;> decide +kernel

lemma unmounted_superHome (v : Buf) : SuperHome freshGeometry (unmounted v) := by
  intro x h1 h2
  simp only [ext4SuperOffset,ext4SuperSize] at h1 h2
  have hx : x/(unmounted v).ext4.blockSize=1 := by
    change x/1024=1
    omega
  rw [hx]
  refine ⟨fun h => h,?_⟩
  rintro ⟨l,-,hl⟩
  simp only [freshGeometry] at hl
  omega

lemma home_forty : freshGeometry.Home 40 := by
  refine ⟨fun h => h,?_⟩
  rintro ⟨l,hl,he⟩
  simp only [freshGeometry] at hl he
  omega

/-- No block keeps an image: the only one is revoked. -/
lemma revokedItems_lastImage {b : ℕ} (hs : s=5 ∨ s=2^32-1) (hb : b=1 ∨ b=20 ∨ b=40) :
    Redo.lastImage ((revokedItems s).map (txRedo ((unmounted (revokedLog s)).jblock freshGeometry))) b=none := by
  rw [← Option.isNone_iff_eq_none]
  rcases hs with rfl | rfl <;> rcases hb with rfl | rfl | rfl <;> decide +kernel

lemma revokedItems_home (s : ℕ) : ∀ tx∈revokedItems s, ∀ i∈tx, ∀ e∈i.entries,
    e.deleted=false → freshGeometry.Home e.fsBlock := by
  intro tx htx i hi e he _
  simp only [revokedItems,List.mem_cons,List.not_mem_nil,or_false] at htx
  rcases htx with rfl | rfl
  · obtain rfl := List.mem_singleton.1 hi
    obtain rfl := List.mem_singleton.1 he
    exact home_forty
  · obtain rfl := List.mem_singleton.1 hi
    cases he

def revokedReplay (s : ℕ) : Ext4M Unit :=
  ext4Jbd2ReplayIfNeeded ((revokedLog s).slice ext4SuperOffset ext4SuperSize)

end Sample

theorem ext4Jbd2ReplayIfNeeded_lastImage_revoked :
    ∃ w', (revokedReplay 5).run (unmounted (revokedLog 5))=(some (),w') ∧
      w'.rawView (40*1024)=0 := by
  have hok : ((revokedReplay 5).run (unmounted (revokedLog 5))).1=some () := by decide +kernel
  have hrun := run_of_fst hok
  have hcap : ext4SuperOffset+ext4SuperSize≤(unmounted (revokedLog 5)).capBytes := by
    decide +kernel
  have hstart : ((unmounted (revokedLog 5)).loadedJbd2 freshGeometry).start≠0 := by
    decide +kernel
  have hseq : ((unmounted (revokedLog 5)).loadedJbd2 freshGeometry).sequence+
      (revokedItems 5).length≤2^32 := by decide +kernel
  have hx : freshGeometry.Home (40*1024/(unmounted (revokedLog 5)).ext4.blockSize) := home_forty
  obtain ⟨r,hlog⟩ := revokedLog_log (.inl rfl)
  have h := ext4Jbd2ReplayIfNeeded_lastImage (revokedLog_recoverable (.inl rfl))
    (unmounted_superHome _) hcap hstart hlog hseq (revokedItems_home 5) hrun (40*1024) hx
  rw [if_pos ⟨List.cons_ne_nil _ _,by decide +kernel⟩,unmarked,Buf.copy,if_neg (by decide),replayedView] at h
  have hnone := revokedItems_lastImage (b := 40) (.inl rfl) (.inr (.inr rfl))
  have hblock : 40*1024/(unmounted (revokedLog 5)).ext4.blockSize=40 := by decide +kernel
  rw [hblock,hnone] at h
  exact ⟨_,hrun,h.trans (by decide +kernel)⟩

/-- Three blocks change although no image is left for them: the superblock loses its mark, the journal
is emptied, and across the wrap of the sequence number the revoke of block 40 is taken for an older
one, so that its image is applied. -/
theorem ext4Jbd2ReplayIfNeeded_wraps : (unmounted (revokedLog (2^32-1))).Recoverable freshGeometry
      ((revokedLog (2^32-1)).slice ext4SuperOffset ext4SuperSize) ∧
    (∃ r, LogOf (unmounted (revokedLog (2^32-1))).ext4 (revokedJbd2 (2^32-1))
      ((unmounted (revokedLog (2^32-1))).jblock freshGeometry) (revokedJbd2 (2^32-1)).start
      (revokedJbd2 (2^32-1)).sequence (revokedItems (2^32-1)) r) ∧
    freshGeometry.Home 40 ∧
    ((revokedReplay (2^32-1)).run (unmounted (revokedLog (2^32-1)))).1=some () ∧
    ∀ x∈[ext4SuperOffset+ext4SFeatureIncompat,20*1024+jbd2SbStartOff+3,40*1024],
      Redo.lastImage ((revokedItems (2^32-1)).map
        (txRedo ((unmounted (revokedLog (2^32-1))).jblock freshGeometry))) (x/1024)=none ∧
      ((revokedReplay (2^32-1)).run (unmounted (revokedLog (2^32-1)))).2.rawView x ≠
        (unmounted (revokedLog (2^32-1))).rawView x := by
  refine ⟨revokedLog_recoverable (.inr rfl),revokedLog_log (.inr rfl),home_forty,by decide +kernel,
    fun x hx => ⟨revokedItems_lastImage (.inr rfl) ?_,?_⟩⟩
  · revert x
    decide +kernel
  · revert x
    decide +kernel

end FuriOS
