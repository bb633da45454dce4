import FuriOS.Ext4.Fresh

/-! A volume with a JBD2 journal is a byte array with transactions: a read returns what was
written last, however the bytes are spread over the device, the committed transactions that wait
for their checkpoint and the open one. -/
namespace FuriOS
open BlockCache World Jbd2State

/-- The byte array: the committed contents and those the open transaction sees. A byte on which
the array says nothing is `none`. -/
structure Latest where
  base : ℕ → Option UInt8
  cur : ℕ → Option UInt8

namespace Latest

def start (v : Buf) : Latest := ⟨fun x => some (v x),fun x => some (v x)⟩

/-- The calls on the array. A revoke takes back what the transaction wrote to the block, and a
write that failed may have stored any part of its bytes. -/
def call (bs : ℕ) (a : Latest) : Op → Bool → Latest
  | .write off src len,ok =>
    {a with cur := fun x =>
      if off≤x ∧ x<off+len then (if ok then some (src (x-off)) else none) else a.cur x}
  | .revoke b,_ => {a with cur := fun x => if x/bs=b then a.base x else a.cur x}
  | .commit,true => {a with base := a.cur}
  | .abort,_ => {a with cur := a.base}
  | _,_ => a

end Latest

/-- Calls in any order, with the array beside the volume. -/
inductive Session (G : Geometry) (w0 : World) : World → Latest → Prop
  | start : Session G w0 w0 (Latest.start w0.rawView)
  | call {w w' : World} {a : Latest} {op : Op} {r : Option Unit} (h : Session G w0 w a)
      (hop : op.Admissible G w) (hr : op.exec.run w=(r,w')) :
      Session G w0 w' (a.call w0.ext4.blockSize op r.isSome)

lemma Session.exec {G : Geometry} {w0 w : World} {a : Latest} {op : Op} (h : Session G w0 w a)
    (hop : op.Admissible G w) :
    Session G w0 (op.exec.run w).2 (a.call w0.ext4.blockSize op (op.exec.run w).1.isSome) :=
  h.call hop rfl

/-- A mounted volume before its first transaction, on a device whose requests all succeed. -/
structure World.Idle (G : Geometry) (w : World) : Prop where
  running : w.Running G
  writesOk : w.cache.WritesOk
  noTx : w.jbd2.txActive=false
  noPending : w.jbd2.pending=[]

/-- The volume shows what the array holds, outside the journal's own blocks. -/
structure Latest.Shown (G : Geometry) (bs : ℕ) (a : Latest) (w : World) : Prop where
  base : ∀ x v, G.Home (x/bs) → a.base x=some v → w.baseView x=v
  cur : ∀ x v, G.Home (x/bs) → a.cur x=some v → w.view x=v

section Shown
variable {G : Geometry} {w w' : World} {a : Latest} {op : Op} {ok : Bool}

lemma World.Running.view (h : w.Running G) : w.view =
    if w.jbd2.txActive then imaged w.ext4.blockSize w.jbd2.txDirty w.baseView else w.baseView := by
  rw [← h.engine.block]
  simp [World.view,h.engine.enabled,h.bypass,h.engine.placed.noJlog]

lemma Geometry.Home.ne_super {b : ℕ} (h : G.Home b) (hm : 0<G.maxlen) : b≠G.jmap 0 :=
  fun hb => h.2 ⟨0,hm,hb.symm⟩

lemma view_congr_at (h : w.Running G) (h' : w'.Running G) (hext : w'.ext4=w.ext4)
    (ht : w'.jbd2.txActive=w.jbd2.txActive) (hd : w'.jbd2.txDirty=w.jbd2.txDirty) {x : ℕ}
    (hx : w'.baseView x=w.baseView x) : w'.view x=w.view x := by
  rw [h.view,h'.view,hext,ht,hd]
  split_ifs
  · exact imaged_congr_at _ hx
  · exact hx

lemma Latest.Shown.settled (hs : a.Shown G w.ext4.blockSize w) (h : w.Running G)
    (hw : Settled G w w') : a.Shown G w.ext4.blockSize w' := by
  have hb : ∀ x, G.Home (x/w.ext4.blockSize) → w'.baseView x=w.baseView x := fun x hx =>
    hw.baseView x (hx.ne_super h.engine.maxlen_pos)
  refine ⟨fun x v hx hv => ?_,fun x v hx hv => ?_⟩
  · rw [hb x hx]
    exact hs.base x v hx hv
  · rw [view_congr_at h hw.running hw.ext4 hw.sameTx.active hw.sameTx.dirty (hb x hx)]
    exact hs.cur x v hx hv

lemma World.Running.view_of_not_dirty (h : w.Running G) {x : ℕ}
    (hx : x/w.ext4.blockSize∉blocksOf w.jbd2.txDirty) : w.view x=w.baseView x := by
  rw [h.view]
  split_ifs
  · exact imaged_of_none h.engine.placed.block_pos hx
  · rfl

lemma Latest.Shown.same {bs : ℕ} (hs : a.Shown G bs w) (hb : w'.baseView=w.baseView)
    (hv : w'.view=w.view) : a.Shown G bs w' :=
  ⟨fun x v hx h => by rw [hb]; exact hs.base x v hx h,fun x v hx h => by rw [hv]; exact hs.cur x v hx h⟩

lemma Latest.Shown.reverted {bs b : ℕ} (hs : a.Shown G bs w)
    (hb : ∀ x, x/bs=b → w.view x=w.baseView x) : (a.call bs (.revoke b) ok).Shown G bs w := by
  refine ⟨hs.base,fun x v hx hv => ?_⟩
  simp only [Latest.call] at hv
  split_ifs at hv with hxb
  · rw [hb x hxb]
    exact hs.base x v hx hv
  · exact hs.cur x v hx hv

lemma Latest.Shown.dropped {bs : ℕ} (hs : a.Shown G bs w) (hb : w.view=w.baseView) :
    (a.call bs .abort ok).Shown G bs w :=
  ⟨hs.base,fun x v hx hv => by rw [hb]; exact hs.base x v hx hv⟩

lemma World.Running.view_noTx (h : w.Running G) (ht : w.jbd2.txActive=false) :
    w.view=w.baseView := by
  rw [h.view,ht,if_neg (by simp)]

lemma Latest.Shown.settle (hs : a.Shown G w.ext4.blockSize w) (h : w.Running G) (hw : Settles G w w')
    (hop : (op=.begin → ok=false) ∧ (op=.commit → ok=false) ∧
      (op=.abort → w.jbd2.txActive=false) ∧ (∀ off src len, op≠.write off src len) ∧
      ∀ b, op=.revoke b → w.jbd2.txActive=true → w.ext4.blocksCount≤b) :
    (a.call w.ext4.blockSize op ok).Shown G w.ext4.blockSize w' := by
  have hst := hw.settled h
  have hs' := hs.settled h hst
  obtain ⟨-,hcommit,habort,hwrite,hrevoke⟩ := hop
  cases op with
  | write off src len => exact (hwrite off src len rfl).elim
  | commit =>
    rw [hcommit rfl]
    exact hs'
  | abort => exact hs'.dropped (hst.running.view_noTx (hst.sameTx.active.trans (habort rfl)))
  | revoke b =>
    refine hs'.reverted fun x hx => ?_
    cases ht : w.jbd2.txActive with
    | false => rw [hst.running.view_noTx (hst.sameTx.active.trans ht)]
    | true =>
      refine hst.running.view_of_not_dirty ?_
      rw [hst.ext4,hst.sameTx.dirty,hx]
      intro hd
      have := h.tx.bound b hd
      have := hrevoke b rfl ht
      omega
  | begin => exact hs'
  | read off len => exact hs'
  | checkpoint n => exact hs'
  | checkpointUntilFree n => exact hs'
  | maybeCheckpoint force => exact hs'
  | sync => exact hs'
  | maintain now => exact hs'

lemma Latest.Shown.wrote {bs off len n : ℕ} {src : Buf} (hs : a.Shown G bs w) (hn : n≤len)
    (hok : ok=true → n=len) (hw : TxWrote off src 0 n w w') :
    (a.call bs (.write off src len) ok).Shown G bs w' := by
  refine ⟨fun x v hx hv => ?_,fun x v hx hv => ?_⟩
  · rw [hw.frame.baseView]
    exact hs.base x v hx hv
  · simp only [Latest.call] at hv
    rw [hw.view]
    split_ifs at hv with hin ho
    · rw [Buf.copy_of_inside (by have := hok ho; omega),Nat.zero_add]
      exact Option.some.inj hv
    · rw [Buf.copy_of_outside (by omega)]
      exact hs.cur x v hx hv

lemma Latest.Shown.committed (hs : a.Shown G w.ext4.blockSize w) (h : w.Running G)
    (ht : w.jbd2.txActive=true) (hc : Committed G w w') :
    (a.call w.ext4.blockSize .commit true).Shown G w.ext4.blockSize w' := by
  obtain ⟨p,next,w1,-,-,-,hph,hset⟩ := hc
  have hr := CommitPhases.running h hph
  have hst := hset.settled hr
  have hext : (w1.setJbd2 closeTx).ext4=w.ext4 := hph.touches.ext4
  have hbase : ∀ x, G.Home (x/w.ext4.blockSize) → w'.baseView x=w.view x := by
    intro x hx
    rw [hst.baseView x (by rw [hext]; exact hx.ne_super h.engine.maxlen_pos),
      CommitPhases.baseView h hph hx.2,h.view,if_pos ht]
  have hview : w'.view=w'.baseView := hst.running.view_noTx hst.sameTx.active
  refine ⟨fun x v hx hv => ?_,fun x v hx hv => ?_⟩
  · rw [hbase x hx]
    exact hs.cur x v hx hv
  · rw [hview,hbase x hx]
    exact hs.cur x v hx hv

lemma Latest.Shown.call (hs : a.Shown G w.ext4.blockSize w) (h : w.Running G)
    (hd : Does G w w' op ok) :
    (a.call w.ext4.blockSize op ok).Shown G w.ext4.blockSize w' := by
  cases hd with
  | settle hw hop => exact hs.settle h hw hop
  | quiet hq =>
    refine hs.same ?_ hq.view
    unfold World.baseView pendingImages
    rw [hq.rawView,hq.jbd2]
  | sync hw => exact hs.settled h (hw.settled h)
  | @begin w1 hw ht =>
    have hst := hw.settled h
    have hs1 := hs.settled h hst
    refine hs1.same rfl ?_
    have hr : Running G (w1.setJbd2 opened) := hst.running.noTx ⟨rfl,rfl,rfl,rfl,rfl⟩ rfl rfl rfl rfl
    rw [hr.view,hst.running.view_noTx ht]
    rfl
  | abort ht =>
    have hr : Running G (w.setJbd2 closeTx) := h.noTx ⟨rfl,rfl,rfl,rfl,rfl⟩ rfl rfl rfl rfl
    exact ⟨hs.base,fun x v hx hv => by rw [hr.view_noTx rfl]; exact hs.base x v hx hv⟩
  | write ht hn hok hw => exact hs.wrote hn hok hw
  | @revoke _ b ht hr =>
    refine ⟨fun x v hx hv => ?_,fun x v hx hv => ?_⟩
    · rw [hr.frame.baseView]
      exact hs.base x v hx hv
    · simp only [Latest.call] at hv
      rw [hr.view,h.engine.block]
      split_ifs at hv ⊢ with hxb
      · exact hs.base x v hx hv
      · exact hs.cur x v hx hv
  | commitEmpty ht hd hr =>
    have hr' : Running G (w.setJbd2 closedEmpty) := h.noTx ⟨rfl,rfl,rfl,rfl,rfl⟩ rfl h.bypass hd hr
    have hview : w.view=w.baseView := by
      rw [h.view,hd,if_pos ht]
      rfl
    refine ⟨fun x v hx hv => ?_,fun x v hx hv => ?_⟩
    · exact (congrFun hview x).symm.trans (hs.cur x v hx hv)
    · rw [hr'.view_noTx rfl]
      exact (congrFun hview x).symm.trans (hs.cur x v hx hv)
  | commit ht hc => exact hs.committed h ht hc

lemma World.Idle.shown (h : w.Idle G) : (Latest.start w.rawView).Shown G w.ext4.blockSize w := by
  have hb : w.baseView=w.rawView := by simp [World.baseView,pendingImages,h.noPending]
  refine ⟨fun x v _ hv => ?_,fun x v _ hv => ?_⟩
  · rw [hb]
    exact Option.some.inj hv
  · rw [h.running.view_noTx h.noTx,hb]
    exact Option.some.inj hv

lemma Session.shown {w0 : World} (h0 : w0.Idle G) (h : Session G w0 w a) :
    w.Running G ∧ w.cache.WritesOk ∧ w.ext4=w0.ext4 ∧ a.Shown G w0.ext4.blockSize w := by
  induction h with
  | start => exact ⟨h0.running,h0.writesOk,rfl,h0.shown⟩
  | call hsess hop hr ih =>
    obtain ⟨hrun,hw,hext,hs⟩ := ih
    have hd := does_of_run hrun hw hop hr
    obtain ⟨hrun',hw',hext'⟩ := hd.running hrun hop
    rw [← hext] at hs ⊢
    exact ⟨hrun',hw' hw,hext',hs.call hrun hd⟩

end Shown

/-- Whatever calls were made, a read inside the partition succeeds and returns, for every byte
outside the journal's own blocks, the value that was written last and was not taken back. -/
theorem ext4DiskReadBytes_latest {G : Geometry} {w0 w : World} {a : Latest} (h0 : w0.Idle G)
    (h : Session G w0 w a) (off len : ℕ) :
    (off+len≤w.capBytes → ∃ buf w', (ext4DiskReadBytes off len).run w=(some buf,w')) ∧
    ∀ buf w', (ext4DiskReadBytes off len).run w=(some buf,w') → ∀ k<len,
      G.Home ((off+k)/w0.ext4.blockSize) → ∀ v, a.cur (off+k)=some v → buf k=v := by
  obtain ⟨hrun,hok,-,hs⟩ := h.shown h0
  have hp := hrun.engine.placed
  have hread := wp_ext4DiskReadBytes hp.online hp.cap off len
  constructor
  · intro hin
    cases hr : (ext4DiskReadBytes off len).run w with
    | mk r w' =>
      cases r with
      | some buf => exact ⟨buf,w',rfl⟩
      | none =>
        obtain ⟨-,hw | hcap⟩ := Prog.wp_none hread hr
        · exact (hw hok).elim
        · omega
  · intro buf w' hr k hk hhome v hv
    obtain ⟨-,hbuf,-⟩ := Prog.wp_some hread hr
    rw [hbuf]
    simp only [Buf.slice,if_pos hk]
    exact hs.cur _ _ hhome hv

lemma fresh_idle (store : ℕ → Sector) (feat seq : ℕ) : (fresh store feat seq).Idle freshGeometry :=
  ⟨fresh_running store feat seq,fresh_writesOk store feat seq,rfl,rfl⟩

lemma fresh_home {b : ℕ} (hb : 32≤b) : freshGeometry.Home b := by
  refine ⟨fun h => h,?_⟩
  rintro ⟨l,hl,h⟩
  simp only [freshGeometry] at hl h
  omega

lemma fresh_write : (Op.write (40*1024) (fun _ => 7) 1).Admissible freshGeometry
    (Op.begin.exec.run (fresh (fun _ _ => 0) 1 1)).2 := by
  refine ⟨by decide +kernel,?_⟩
  rintro b ⟨x,hx1,hx2,rfl⟩
  have hbs : (Op.begin.exec.run (fresh (fun _ _ => 0) 1 1)).2.ext4.blockSize=1024 := by decide +kernel
  rw [hbs]
  exact fresh_home (by omega)

/-- A byte written in a transaction is read back. -/
theorem ext4DiskReadBytes_latest_fresh : ∃ w a buf w',
    Session freshGeometry (fresh (fun _ _ => 0) 1 1) w a ∧ a.cur (40*1024)=some 7 ∧
    (ext4DiskReadBytes (40*1024) 1).run w=(some buf,w') ∧ buf 0=7 := by
  have hbegin : Op.begin.Admissible freshGeometry (fresh (fun _ _ => 0) 1 1) := trivial
  have h2 := (Session.start.exec hbegin).exec fresh_write
  have hok : ((Op.write (40*1024) (fun _ => 7) 1).exec.run
      (Op.begin.exec.run (fresh (fun _ _ => 0) 1 1)).2).1.isSome=true := by decide +kernel
  rw [hok] at h2
  have hlatest := ext4DiskReadBytes_latest (fresh_idle _ 1 1) h2 (40*1024) 1
  obtain ⟨buf,w',hr⟩ := hlatest.1 (by decide +kernel)
  exact ⟨_,_,buf,w',h2,rfl,hr,hlatest.2 buf w' hr 0 Nat.one_pos (fresh_home (by decide)) 7 rfl⟩

/-- The same is not true of every byte: a write that a revoke of its block took back stays lost
when another byte of the block is written, and the journal's own blocks change with every commit. -/
theorem ext4DiskReadBytes_not_latest : (fresh (fun _ _ => 0) 1 1).Idle freshGeometry ∧
    ((Op.execAll [.begin,.write (40*1024) (fun _ => 7) 1,.revoke 40,.write (40*1024+1) (fun _ => 9) 1]
      >>= fun _ => ext4DiskReadBytes (40*1024) 1).run (fresh (fun _ _ => 0) 1 1)).1.map (· 0)=some 0 ∧
    ((Op.execAll [.begin,.write (40*1024) (fun _ => 7) 1,.commit]
      >>= fun _ => ext4DiskReadBytes (21*1024) 1).run (fresh (fun _ _ => 0) 1 1)).1.map (· 0) =
        some 0xC0 :=
  ⟨fresh_idle _ 1 1,by decide +kernel,by decide +kernel⟩

end FuriOS
