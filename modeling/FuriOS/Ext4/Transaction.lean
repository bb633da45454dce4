import FuriOS.Ext4.CommitSpec

/-! The calls that work on a volume with a JBD2 journal, and what each of them does to a volume
whose device requests all succeed. -/
namespace FuriOS
open BlockCache World Jbd2State Prog

/-- The calls. The budgets of checkpoints are positive in the source; `checkpoint n` has `n+1`. -/
inductive Op
  | begin
  | commit
  | abort
  | write (off : ℕ) (src : Buf) (len : ℕ)
  | read (off len : ℕ)
  | revoke (b : ℕ)
  | checkpoint (n : ℕ)
  | checkpointUntilFree (minFree : ℕ)
  | maybeCheckpoint (force : Bool)
  | sync
  | maintain (now : ℕ)

def Op.exec : Op → Ext4M Unit
  | .begin => ext4TxBegin
  | .commit => ext4TxCommit
  | .abort => ext4TxAbort
  | .write off src len => ext4DiskWriteBytes off src len
  | .read off len => do
    let _ ← ext4DiskReadBytes off len
    pure ()
  | .revoke b => ext4Jbd2NoteRevoke b
  | .checkpoint n => ext4Jbd2CheckpointSome (n+1)
  | .checkpointUntilFree minFree => ext4Jbd2CheckpointUntilFree minFree
  | .maybeCheckpoint force => ext4Jbd2MaybeCheckpoint force
  | .sync => ext4SyncFilesystem
  | .maintain now => ext4PeriodicMaintenance now

/-- Writes are made inside a transaction, to blocks that are not the journal's own. -/
def Op.Admissible (G : Geometry) (w : World) : Op → Prop
  | .write off _ len => w.jbd2.txActive=true ∧ ∀ b, InBlocks w.ext4.blockSize off len b → G.Home b
  | _ => True

def Jbd2State.opened (j : Jbd2State) : Jbd2State :=
  {j with
    txActive := true, ioBypass := false, txEnospc := false, txDirty := [], txRevokes := []
    txRevokeOverflow := false}

/-- An empty transaction closed by its commit. -/
def Jbd2State.closedEmpty (j : Jbd2State) : Jbd2State := {j with txEnospc := false, txActive := false}

namespace World

/-- What a call may do to the volume. -/
inductive Does (G : Geometry) (w : World) : World → Op → Bool → Prop
  | settle {w' : World} {op : Op} {ok : Bool} (h : Settles G w w')
      (hop : (op=.begin → ok=false) ∧ (op=.commit → ok=false) ∧
        (op=.abort → w.jbd2.txActive=false) ∧ (∀ off src len, op≠.write off src len) ∧
        ∀ b, op=.revoke b → w.jbd2.txActive=true → w.ext4.blocksCount≤b) : Does G w w' op ok
  | quiet {w' : World} {off len : ℕ} {ok : Bool} (h : Quiet w w') : Does G w w' (.read off len) ok
  | sync {w' : World} (h : Synced G w w') : Does G w w' .sync true
  | begin {w1 : World} (h : Settles G w w1) (ht : w1.jbd2.txActive=false) :
      Does G w (w1.setJbd2 opened) .begin true
  | abort (ht : w.jbd2.txActive=true) : Does G w (w.setJbd2 closeTx) .abort true
  | write {w' : World} {off len n : ℕ} {src : Buf} {ok : Bool} (ht : w.jbd2.txActive=true)
      (hn : n≤len) (hok : ok=true → n=len) (h : TxWrote off src 0 n w w') :
      Does G w w' (.write off src len) ok
  | revoke {w' : World} {b : ℕ} (ht : w.jbd2.txActive=true) (h : TxRevoked b w w') :
      Does G w w' (.revoke b) true
  | commitEmpty (ht : w.jbd2.txActive=true) (hd : w.jbd2.txDirty=[]) (hr : w.jbd2.txRevokes=[]) :
      Does G w (w.setJbd2 closedEmpty) .commit true
  | commit {w' : World} (ht : w.jbd2.txActive=true) (h : Committed G w w') : Does G w w' .commit true

end World

section Calls
variable {G : Geometry} {w w' : World}

lemma World.Running.inTx (h : w.Running G) (ht : w.jbd2.txActive=true) : w.InTx where
  online := h.engine.placed.online
  cap := h.engine.placed.cap
  enabled := h.engine.enabled
  active := ht
  bypass := h.bypass
  noJlog := h.engine.placed.noJlog
  block := by rw [h.engine.block]; exact h.engine.placed.block_pos
  fits := by rw [h.engine.block]; exact h.engine.placed.fits
  tx := h.tx

lemma wp_makeRoom (h : w.Running G) (hw : w.cache.WritesOk) :
    makeRoom.wp (fun _ w' => Settles G w w' ∧ w'.jbd2.pending.length<ext4Jbd2MaxPendingTx)
      (fun w' => Settles G w w') w := by
  simp only [makeRoom,wp_bind,wp_gets]
  split_ifs with hfull
  · rw [wp_bind,wp_attempt]
    refine wp_mono (wp_checkpointSome_settles h hw (by decide)) ?_ fun _ h => h.elim
    intro _ w1 h1
    simp only [wp_bind,wp_gets]
    split_ifs with hstill
    · exact h1.trans (Settles.marked _ _ true)
    · exact ⟨h1,Nat.not_le.1 hstill⟩
  · exact ⟨.refl,Nat.not_le.1 hfull⟩

lemma wp_untilFree_free (he : w.jbd2.enabled=true) (m : ℕ) : (ext4Jbd2CheckpointUntilFree m).wp
      (fun _ w' => (if w.jbd2.ring ≤ m then w.jbd2.ring-1 else m) ≤
        w'.jbd2.ext4Jbd2RingFreeBlocks) (fun _ => True) w := by
  simp only [ext4Jbd2CheckpointUntilFree,wp_bind,wp_gets,he,Bool.not_true,
    Bool.false_eq_true,if_false,wp_require]
  generalize (if w.jbd2.ring ≤ m then w.jbd2.ring-1 else m)=k
  split
  · refine wp_mono (wp_trivial (w := w)) ?_ fun _ _ => trivial
    intro _ w1 _
    split_ifs with hle
    exact of_decide_eq_true hle
  · trivial

lemma Jbd2State.txReserveBlocks_congr {j j' : Jbd2State} (h : SameTx j j') :
    j'.ext4Jbd2TxReserveBlocks=j.ext4Jbd2TxReserveBlocks := by
  obtain ⟨h1,h2,h3,-,h4⟩ := h.engine
  obtain ⟨h5,h6,h7,-,-⟩ := h.feat
  clear h
  cases j
  cases j'
  dsimp only at h1 h2 h3 h4 h5 h6 h7
  subst h1 h2 h3 h4 h5 h6 h7
  rfl

lemma Jbd2State.txReserveBlocks_le (j : Jbd2State) : j.ext4Jbd2TxReserveBlocks≤j.ring-1 := by
  unfold ext4Jbd2TxReserveBlocks
  dsimp only
  split_ifs <;> omega

/-- On the way from `w` to `w'` the list and then the ring had room for a transaction. -/
def World.MadeRoom (G : Geometry) (w w' : World) : Prop := ∃ w1 w2,
  Settles G w w1 ∧ w1.jbd2.pending.length<ext4Jbd2MaxPendingTx ∧
  Settles G w1 w2 ∧ w.jbd2.ext4Jbd2TxReserveBlocks≤w2.jbd2.ext4Jbd2RingFreeBlocks ∧ Settles G w2 w'

lemma World.MadeRoom.settles (h : MadeRoom G w w') : Settles G w w' := by
  obtain ⟨w1,w2,h1,-,h2,-,h3⟩ := h
  exact (h1.trans h2).trans h3

lemma wp_ext4Jbd2TxStart (h : w.Running G) (hw : w.cache.WritesOk) : ext4Jbd2TxStart.wp
      (fun _ w' => ∃ w1, MadeRoom G w w1 ∧ w1.jbd2.txActive=false ∧ w'=w1.setJbd2 opened)
      (fun w' => Settles G w w') w := by
  simp only [ext4Jbd2TxStart,wp_bind,wp_gets,h.engine.enabled,Bool.not_true,
    Bool.false_eq_true,if_false,wp_modify]
  have h0 : Settles G w (setEnospc false w) := Settles.marked _ _ false
  have hs0 := h0.settled h
  refine wp_mono (wp_makeRoom hs0.running (hs0.writesOk hw)) ?_ fun _ h => h0.trans h
  rintro _ w1 ⟨h1,hlist⟩
  have h1 : Settles G w w1 := h0.trans h1
  have hs1 := h1.settled h
  have hreserve : w.jbd2.ext4Jbd2TxReserveBlocks≤w.jbd2.ext4Jbd2PressureMinFreeBlocks := le_max_left _ _
  have hspace : (if w.jbd2.ext4Jbd2PressureMinFreeBlocks≠0 ∧
      w1.jbd2.ext4Jbd2RingFreeBlocks<w.jbd2.ext4Jbd2PressureMinFreeBlocks then
        (ext4Jbd2CheckpointUntilFree w.jbd2.ext4Jbd2PressureMinFreeBlocks).onFail (setEnospc true)
      else pure () : Ext4M Unit).wp (fun _ w' => Settles G w1 w' ∧
        w.jbd2.ext4Jbd2TxReserveBlocks≤w'.jbd2.ext4Jbd2RingFreeBlocks) (fun w' => Settles G w w') w1 := by
    split_ifs
    · rw [wp_onFail]
      refine wp_mono (wp_and (wp_ext4Jbd2CheckpointUntilFree _ hs1.running (hs1.writesOk hw))
        (wp_untilFree_free hs1.running.engine.enabled _)) ?_
        fun _ h2 => (h1.trans h2.1).trans (Settles.marked _ _ true)
      rintro _ w2 ⟨h2,hfree⟩
      refine ⟨h2,le_trans ?_ hfree⟩
      split
      · rw [← txReserveBlocks_congr hs1.sameTx]
        exact txReserveBlocks_le _
      · exact hreserve
    · exact ⟨.refl,by omega⟩
  refine wp_mono hspace ?_ fun _ h => h
  rintro _ w2 ⟨h2,hfree⟩
  have h12 : Settles G w w2 := h1.trans h2
  have hs2 := h12.settled h
  refine wp_mono (wp_ext4Jbd2MaybeCheckpoint false hs2.running (hs2.writesOk hw)) ?_ fun _ h => h12.trans h
  intro _ w3 h3
  rw [wp_require]
  split_ifs with hc
  · simp only [Bool.and_eq_true,Bool.not_eq_true'] at hc
    exact ⟨w3,⟨w1,w2,h1,hlist,h2,hfree,h3⟩,hc.2,rfl⟩
  · exact h12.trans h3

lemma Settles.errno (w : World) (e : ℕ) : Settles G w (setErrno e w) :=
  Settles.marked w.tick e w.jbd2.txEnospc

lemma Settles.enospc (w : World) (b : Bool) : Settles G w (setEnospc b w) :=
  Settles.marked w.tick w.errno b

lemma wp_does_settle {p : Ext4M Unit} {op : Op}
    (hop : op≠.begin ∧ op≠.commit ∧ op≠.abort ∧ (∀ off src len, op≠.write off src len) ∧
      ∀ b, op≠.revoke b)
    (h : p.wp (fun _ w' => Settles G w w') (fun w' => Settles G w w') w) :
    p.wp (fun _ w' => Does G w w' op true) (fun w' => Does G w w' op false) w := by
  have hs : ∀ ok w', Settles G w w' → Does G w w' op ok := fun ok w' hw' =>
    .settle hw' ⟨fun h => (hop.1 h).elim,fun h => (hop.2.1 h).elim,fun h => (hop.2.2.1 h).elim,
      hop.2.2.2.1,fun b hb => (hop.2.2.2.2 b hb).elim⟩
  exact wp_mono h (fun _ w' => hs true w') fun w' => hs false w'

section
variable (h : w.Running G)
include h

lemma wp_exec_begin (hw : w.cache.WritesOk) :
    ext4TxBegin.wp (fun _ w' => Does G w w' .begin true) (fun w' => Does G w w' .begin false) w := by
  have h0 : Settles G w (setErrno 0 w) := Settles.errno w 0
  have hs0 := h0.settled h
  have hen : (setErrno 0 w).jbd2.enabled=true := h.engine.enabled
  simp only [ext4TxBegin,wp_bind,wp_modify,wp_gets,id,hen,if_true,wp_onFail]
  refine wp_mono (wp_ext4Jbd2TxStart hs0.running (hs0.writesOk hw)) ?_ ?_
  · rintro _ w' ⟨w1,h1,ht,rfl⟩
    exact .begin (h0.trans h1.settles) ht
  · intro w' h'
    exact .settle ((h0.trans h').trans (Settles.errno _ _)) (by simp)

lemma wp_exec_commit (hw : w.cache.WritesOk) :
    ext4TxCommit.wp (fun _ w' => Does G w w' .commit true) (fun w' => Does G w w' .commit false) w := by
  simp only [ext4TxCommit,wp_bind,wp_gets,id,h.engine.enabled,if_true,wp_onFail]
  have hfail : ∀ w', Settles G w w' → Does G w (jbd2Errno w') .commit false := fun w' hs =>
    .settle (hs.trans (Settles.errno _ _)) (by simp)
  by_cases ht : w.jbd2.txActive=true
  · refine wp_mono (wp_ext4Jbd2TxCommit h ht) ?_ ?_
    · rintro _ w' (⟨hd,hr,rfl⟩ | hc)
      · exact .commitEmpty ht hd hr
      · exact .commit ht (hc hw)
    · rintro w' (⟨b,rfl⟩ | hbad)
      · exact hfail _ (Settles.enospc w b)
      · exact absurd hw hbad
  · have hr : ext4Jbd2TxCommit.wp (fun _ _ => False) (fun w' => w'=w) w := by
      simp [ext4Jbd2TxCommit,h.engine.enabled,ht]
    refine wp_mono hr (fun _ _ h => h.elim) ?_
    rintro w' rfl
    exact hfail _ .refl

lemma wp_exec_abort :
    ext4TxAbort.wp (fun _ w' => Does G w w' .abort true) (fun w' => Does G w w' .abort false) w := by
  simp only [ext4TxAbort,wp_bind,wp_gets,id,h.engine.enabled,if_true,ext4Jbd2TxAbort, wp_modify]
  cases ht : w.jbd2.txActive with
  | false =>
    have hid : (w.setJbd2 fun j => if (!j.enabled || !j.txActive)=true then j else closeTx j)=w := by
      simp [World.setJbd2,ht]
    exact hid.symm ▸ .settle .refl ⟨by simp,by simp,fun _ => ht,by simp,by simp⟩
  | true =>
    have hid : (w.setJbd2 fun j => if (!j.enabled || !j.txActive)=true then j else closeTx j) =
        w.setJbd2 closeTx := by
      simp [World.setJbd2,ht,h.engine.enabled]
    exact hid.symm ▸ .abort ht

lemma wp_exec_revoke (b : ℕ) : (ext4Jbd2NoteRevoke b).wp (fun _ w' => Does G w w' (.revoke b) true)
      (fun w' => Does G w w' (.revoke b) false) w := by
  cases ht : w.jbd2.txActive with
  | false =>
    simp only [ext4Jbd2NoteRevoke,wp_modify,ht,Bool.not_false,Bool.or_true,Bool.true_or,if_true]
    exact .settle .refl ⟨by simp,by simp,by simp,by simp,by simp [ht]⟩
  | true =>
    refine wp_mono (wp_ext4Jbd2NoteRevoke (h.inTx ht) b) ?_ fun _ h => h.elim
    intro _ w' h'
    split_ifs at h' with hb
    · exact .revoke ht h'
    · rw [h']
      refine .settle .refl ⟨by simp,by simp,by simp,by simp,?_⟩
      rintro b' hb' -
      obtain rfl := Op.revoke.inj hb'
      omega

lemma wp_exec (hw : w.cache.WritesOk) (op : Op) (hop : op.Admissible G w) :
    op.exec.wp (fun _ w' => Does G w w' op true) (fun w' => Does G w w' op false) w := by
  cases op with
  | begin => exact wp_exec_begin h hw
  | commit => exact wp_exec_commit h hw
  | abort => exact wp_exec_abort h
  | revoke b => exact wp_exec_revoke h b
  | write off src len =>
    refine wp_mono (wp_ext4DiskWriteBytes_tx (h.inTx hop.1) off src len) ?_ ?_
    · exact fun _ w' hw' => .write hop.1 le_rfl (fun _ => rfl) hw'
    · rintro w' ⟨n,hn,hw'⟩
      exact .write hop.1 hn (by simp) hw'
  | read off len =>
    have hp := h.engine.placed
    simp only [Op.exec,wp_bind]
    exact wp_mono (wp_ext4DiskReadBytes hp.online hp.cap off len)
      (fun _ w' hw' => .quiet hw'.1) fun w' hw' => .quiet hw'.1
  | checkpoint n =>
    exact wp_does_settle (by simp) (wp_mono (wp_checkpointSome_settles h hw (Nat.succ_pos n))
      (fun _ _ h => h) fun _ h => h.elim)
  | checkpointUntilFree minFree => exact wp_does_settle (by simp) (wp_ext4Jbd2CheckpointUntilFree _ h hw)
  | maybeCheckpoint force => exact wp_does_settle (by simp) (wp_ext4Jbd2MaybeCheckpoint _ h hw)
  | maintain now =>
    exact wp_does_settle (by simp) (wp_mono (wp_ext4PeriodicMaintenance now h hw)
      (fun _ _ h => h) fun _ h => h.elim)
  | sync =>
    refine wp_mono (wp_ext4SyncFilesystem h hw) ?_ ?_
    · intro _ w' hw'
      split_ifs at hw' with hm
      · exact .sync hw'
      · rw [hw']
        exact .settle .refl (by simp)
    · rintro w' ⟨rfl,-⟩
      exact .settle .refl (by simp)

lemma does_of_run (hw : w.cache.WritesOk) {op : Op} (hop : op.Admissible G w)
    {r : Option Unit} (hr : op.exec.run w=(r,w')) : Does G w w' op r.isSome := by
  cases r with
  | none =>
    have := wp_none (wp_exec h hw op hop) hr
    exact this
  | some _ =>
    have := wp_some (wp_exec h hw op hop) hr
    exact this

end

lemma World.TxFrame.running (hf : TxFrame w w') (h : w.Running G) (htx : w'.jbd2.TxOk w.ext4.blocksCount)
    (hhome : ∀ b∈blocksOf w'.jbd2.txDirty, G.Home b) : w'.Running G := by
  obtain ⟨c,ds,rs,e,o,hc,rfl⟩ := hf
  have hput : BlocksPut (fun _ => False) w (w.withCache c) :=
    Quiet.blocksPut ⟨c,rfl,hc⟩ _
  have hr := h.of_put hput fun _ h => h.elim
  exact ⟨hr.engine.setJbd2 (f := fun j => {j with
    txDirty := ds, txRevokes := rs, txEnospc := e, txRevokeOverflow := o}) ⟨rfl,rfl,rfl,rfl,rfl⟩,
    h.bypass,h.pending,htx,hhome,h.noJlogTx⟩

lemma World.TxFrame.writesOk (hf : TxFrame w w') (hw : w.cache.WritesOk) : w'.cache.WritesOk := by
  obtain ⟨c,ds,rs,e,o,hc,rfl⟩ := hf
  exact hc.setup.writesOk hw

lemma World.Running.noTx (h : w.Running G) {f : Jbd2State → Jbd2State}
    (hf : SameEngine w.jbd2 (f w.jbd2)) (hp : (f w.jbd2).pending=w.jbd2.pending)
    (hb : (f w.jbd2).ioBypass=false) (hd : (f w.jbd2).txDirty=[]) (hr : (f w.jbd2).txRevokes=[]) :
    Running G (w.setJbd2 f) := by
  refine ⟨h.engine.setJbd2 hf,hb,?_,?_,?_,h.noJlogTx⟩
  · intro p hp'
    change p∈(f w.jbd2).pending at hp'
    rw [hp] at hp'
    exact h.pending p hp'
  · have hd' : (w.setJbd2 f).jbd2.txDirty=[] := hd
    have hr' : (w.setJbd2 f).jbd2.txRevokes=[] := hr
    exact ⟨by simp [hd',blocksOf],by simp [hd',blocksOf],by simp [hd'],by simp [hr'],by simp [hr'],
      by simp [hr'],by simp [hr']⟩
  · intro b hb
    change b∈blocksOf (f w.jbd2).txDirty at hb
    simp [hd,blocksOf] at hb

lemma World.Does.running {op : Op} {ok : Bool} (hd : Does G w w' op ok) (h : w.Running G)
    (hop : op.Admissible G w) :
    w'.Running G ∧ (w.cache.WritesOk → w'.cache.WritesOk) ∧ w'.ext4=w.ext4 := by
  cases hd with
  | settle hs _ => exact ⟨(hs.settled h).running,(hs.settled h).writesOk,(hs.settled h).ext4⟩
  | quiet hq =>
    exact ⟨h.of_put (hq.blocksPut fun _ => False) fun _ h => h.elim,hq.writesOk,hq.ext4⟩
  | sync hs => exact ⟨(hs.settled h).running,(hs.settled h).writesOk,(hs.settled h).ext4⟩
  | begin hs ht =>
    have hs' := hs.settled h
    exact ⟨hs'.running.noTx ⟨rfl,rfl,rfl,rfl,rfl⟩ rfl rfl rfl rfl,hs'.writesOk,hs'.ext4⟩
  | abort ht => exact ⟨h.noTx ⟨rfl,rfl,rfl,rfl,rfl⟩ rfl rfl rfl rfl,id,rfl⟩
  | @write _ off len n src _ ht hn hok hw =>
    refine ⟨hw.frame.running h (by rw [← hw.frame.ext4]; exact hw.inTx.tx) ?_,hw.frame.writesOk,
      hw.frame.ext4⟩
    intro b hb
    rcases (hw.dirty b).1 hb with hb | ⟨x,h1,h2,hx⟩
    · exact h.txHome b hb
    · rw [h.engine.block] at hx
      exact hop.2 b ⟨x,h1,by omega,hx⟩
  | revoke ht hr =>
    exact ⟨hr.frame.running h (by rw [← hr.frame.ext4]; exact hr.inTx.tx) fun b hb =>
      h.txHome b ((hr.dirty b).1 hb).1,hr.frame.writesOk,hr.frame.ext4⟩
  | commitEmpty ht hd hr => exact ⟨h.noTx ⟨rfl,rfl,rfl,rfl,rfl⟩ rfl h.bypass hd hr,id,rfl⟩
  | commit ht hc =>
    obtain ⟨p,next,w1,-,-,-,hph,hs⟩ := hc
    have hr := CommitPhases.running h hph
    have hs' := hs.settled hr
    refine ⟨hs'.running,fun hw => hs'.writesOk ?_,hs'.ext4.trans hph.touches.ext4⟩
    exact hph.touches.writesOk hw

end Calls

end FuriOS
