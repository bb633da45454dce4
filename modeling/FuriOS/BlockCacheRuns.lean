import FuriOS.BlockCacheFlat

/-! Whole runs of the cache: partitions are attached, read, written and flushed in any order.
The contents of every device, as the cache presents them, change by the writes alone, as long as
no failing device call hits the cache at a place where it forgets what it holds. -/
namespace FuriOS
open Prog Function
namespace BlockCache
variable {σ : Type} {c c' : BlockCache σ} {l p lba : ℕ} {k : DevKind} {new : ℕ → σ → Prop} {buf : List σ}

/-- The device position belongs to the attached partition. -/
def InPartition (c : BlockCache σ) (k : DevKind) (p : ℕ) : Prop :=
  c.readyFlag=true ∧ k=c.activeDevKind ∧ c.activeLbaBase≤p ∧ p<c.activeLbaBase+c.activeLbaCount

instance (c : BlockCache σ) (k : DevKind) (p : ℕ) : Decidable (c.InPartition k p) :=
  inferInstanceAs (Decidable (_ ∧ _))

/-- The contents of every device as the cache presents them. -/
def contents (c : BlockCache σ) (k : DevKind) (p : ℕ) : σ :=
  if c.InPartition k p then c.flat (p-c.activeLbaBase) else c.dev.store k p

/-- What holds of the cache between two calls. -/
structure Serving (c : BlockCache σ) : Prop where
  unique : ∀ i j, (c.lines i).valid=true → (c.lines j).valid=true →
    (c.lines i).lba=(c.lines j).lba → i=j
  attached : c.readyFlag=true → c.Attached

lemma Attached.readyFlag (h : c.Attached) : c.readyFlag=true := by
  have hr := h.ready
  simp only [blockCacheReady,Bool.and_eq_true] at hr
  exact hr.1.1.1

lemma Attached.serving (h : c.Attached) : c.Serving := ⟨h.unique,fun _ => h⟩

lemma SameSetup.inPartition (h : SameSetup c c') (k : DevKind) (p : ℕ) :
    c'.InPartition k p ↔ c.InPartition k p := by
  rw [InPartition,InPartition,h.readyFlag,h.kind,h.base,h.count]

lemma InPartition.mk' (ha : c.Attached) (hl : l<c.activeLbaCount) :
    c.InPartition c.activeDevKind (c.deviceLba l) :=
  ⟨ha.readyFlag,rfl,Nat.le_add_right _ _,Nat.add_lt_add_left hl _⟩

lemma contents_partition (ha : c.Attached) (hl : l<c.activeLbaCount) :
    c.contents c.activeDevKind (c.deviceLba l)=c.flat l := by
  rw [contents,if_pos (InPartition.mk' ha hl),deviceLba,Nat.add_sub_cancel_left]

lemma applyWrites_of_ne {ws : List (SectorWrite σ)} {store : DevKind → ℕ → σ}
    (h : ∀ x∈ws, ¬ (k=x.kind ∧ p=x.lba)) : applyWrites store ws k p=store k p := by
  induction ws generalizing store with
  | nil => rfl
  | cons x ws ih =>
    rw [← List.singleton_append,applyWrites_append,ih fun y hy => h y (List.mem_cons_of_mem x hy),
      applyWrites_one,if_neg (h x List.mem_cons_self)]

lemma Moves.issues (h : Moves new c c') : Issues (fun _ _ => True) c c' :=
  (h.covers _ (fun _ _ => trivial) fun _ _ _ => trivial).2

lemma Moves.store_outside (h : Moves new c c') (ha : c.Attached) (hp : ¬ c.InPartition k p) :
    c'.dev.store k p=c.dev.store k p := by
  obtain ⟨ws,-,hst,hin⟩ := h.issues
  rw [hst]
  refine applyWrites_of_ne fun x hx => ?_
  rintro ⟨rfl,rfl⟩
  obtain ⟨hk,l,hl,hlba,-⟩ := hin x hx
  rw [hk,hlba] at hp
  exact hp (InPartition.mk' ha hl)

lemma Calm.clean (h : Calm c c') (hd : ∀ l, ¬ c.DirtyAt l) (l : ℕ) : ¬ c'.DirtyAt l := by
  have := (h.1.covers (fun _ _ => False) (fun l hl => hd l hl) fun _ _ hn => hn).1
  exact this l

lemma Calm.contents (h : Calm c c') (ha : c.Attached) : c'.contents=c.contents := by
  funext k p
  rw [BlockCache.contents,BlockCache.contents]
  by_cases hp : c.InPartition k p
  · rw [if_pos hp,if_pos ((h.setup.inPartition k p).2 hp),h.2,h.setup.base]
  · rw [if_neg hp,if_neg (mt (h.setup.inPartition k p).1 hp),h.1.store_outside ha hp]

lemma Attached.contents_clean (ha : c.Attached) (hd : ∀ l, ¬ c.DirtyAt l) :
    c.contents=c.dev.store := by
  funext k p
  rw [contents]
  split
  · next hp =>
    obtain ⟨-,rfl,hb,-⟩ := hp
    rw [ha.flat_of_not_dirty (hd _),disk,deviceLba,Nat.add_sub_cancel' hb]
  · rfl

lemma contents_not_ready (h : c.readyFlag=false) : c.contents=c.dev.store := by
  funext k p
  rw [contents,if_neg]
  rintro ⟨hr,-⟩
  exact absurd (hr.symm.trans h) (by simp)

/-- The array after the sectors `buf` have been written to device `k` from position `p` on. -/
def put (arr : DevKind → ℕ → σ) (k : DevKind) (p : ℕ) (buf : List σ) : DevKind → ℕ → σ :=
  update arr k (writeSeq (arr k) p buf)

lemma writeSeq_apply (f : ℕ → σ) (lba : ℕ) (buf : List σ) (p : ℕ) :
    writeSeq f lba buf p=if lba≤p then (buf[p-lba]?).getD (f p) else f p := by
  induction buf generalizing f lba with
  | nil => simp [writeSeq]
  | cons s rest ih =>
    rw [writeSeq,ih]
    by_cases hp : lba+1≤p
    · have hi : p-lba=p-(lba+1)+1 := by omega
      rw [if_pos hp,if_pos (by omega),update_of_ne (by omega),hi,List.getElem?_cons_succ]
    · rw [if_neg hp]
      by_cases he : p=lba
      · subst he; simp
      · rw [update_of_ne he,if_neg (by omega)]

lemma contents_writeSeq (ha : c.Attached)
    (h : Moves new c c') (hl : lba+buf.length≤c.activeLbaCount)
    (hf : c'.flat=writeSeq c.flat lba buf) :
    c'.contents=put c.contents c.activeDevKind (c.deviceLba lba) buf := by
  funext k p
  rw [contents]
  simp only [h.setup.inPartition,h.setup.base]
  by_cases hk : k=c.activeDevKind
  · subst hk
    rw [put,update_self,writeSeq_apply,deviceLba]
    split
    · next hp =>
      obtain ⟨-,-,hb,-⟩ := id hp
      have hc : c.contents c.activeDevKind p=c.flat (p-c.activeLbaBase) := by
        rw [contents,if_pos hp]
      rw [hf,writeSeq_apply,hc]
      by_cases hle : c.activeLbaBase+lba≤p
      · rw [if_pos hle,if_pos (by omega),Nat.sub_sub]
      · rw [if_neg hle,if_neg (by omega)]
    · next hp =>
      have hc : c.contents c.activeDevKind p=c.dev.store c.activeDevKind p := by
        rw [contents,if_neg hp]
      rw [hc,h.store_outside ha hp]
      split
      · next hle =>
        -- past the partition, hence past the last sector written
        have hlen : buf.length≤p-(c.activeLbaBase+lba) := by
          by_contra hlt
          exact hp ⟨ha.readyFlag,rfl,by omega,by omega⟩
        rw [List.getElem?_eq_none hlen,Option.getD_none]
      · rfl
  · have hp : ¬ c.InPartition k p := fun h => hk h.2.1
    rw [put,update_of_ne hk,if_neg hp,contents,if_neg hp,h.store_outside ha hp]

/-- The same devices, later. -/
structure SameDevices (c c' : BlockCache σ) : Prop where
  reads : c'.dev.readOutcome=c.dev.readOutcome
  writes : c'.dev.writeOk=c.dev.writeOk
  requests : c.dev.requests≤c'.dev.requests

lemma SameDevices.refl (c : BlockCache σ) : SameDevices c c := ⟨rfl,rfl,le_rfl⟩

lemma SameDevices.trans {c'' : BlockCache σ} (h : SameDevices c c') (h' : SameDevices c' c'') :
    SameDevices c c'' :=
  ⟨h'.reads.trans h.reads,h'.writes.trans h.writes,h.requests.trans h'.requests⟩

lemma SameDevices.readsOk (h : SameDevices c c') (hr : c.ReadsOk) :
    c'.ReadsOk := fun n => by rw [h.reads]; exact hr n

lemma SameDevices.sectorsOk (h : SameDevices c c') (hw : c.SectorsOk) :
    c'.SectorsOk := fun n hn => by rw [h.writes]; exact hw n (h.requests.trans hn)

lemma SameSetup.sameDevices (h : SameSetup c c') : SameDevices c c' :=
  ⟨h.reads,h.writes,h.requests⟩

/-- From `c` to `c'` only sectors that `R` allows were asked for. -/
def AsksFor (R : DevKind → ℕ → Prop) (c c' : BlockCache σ) : Prop :=
  ∃ rs, c'.dev.reads=c.dev.reads++rs ∧ ∀ x∈rs, R x.1 x.2

/-- From `c` to `c'` only sectors that `R` allows were written on a device. -/
def WritesTo (R : DevKind → ℕ → Prop) (c c' : BlockCache σ) : Prop :=
  ∃ ws, c'.dev.log=c.dev.log++ws ∧ ∀ x∈ws, R x.kind x.lba

lemma Moves.asksFor (h : Moves new c c') (ha : c.Attached) : AsksFor c.InPartition c c' := by
  obtain ⟨rs,hrs,hin⟩ := h.setup.readsIn
  refine ⟨rs,hrs,fun x hx => ?_⟩
  obtain ⟨hk,l,hl,hp⟩ := hin x hx
  rw [hk,hp]
  exact InPartition.mk' ha hl

lemma Moves.writesTo (h : Moves new c c') (ha : c.Attached) : WritesTo c.InPartition c c' := by
  obtain ⟨ws,hws,-,hin⟩ := h.issues
  refine ⟨ws,hws,fun x hx => ?_⟩
  obtain ⟨hk,l,hl,hp,-⟩ := hin x hx
  rw [hk,hp]
  exact InPartition.mk' ha hl

lemma wp_blockCacheRead_one (ha : c.Attached) (hs : c.SafeLoad lba) (hl : lba<c.activeLbaCount) :
    (blockCacheRead lba 1).wp (fun _ c' => Calm c c' ∧ c'.lineOf lba≠none) (Calm c) c := by
  simp only [blockCacheRead,wp_bind,wp_gets,ha.inRange Nat.one_pos hl,
    wp_require_true,readLoop,wp_pure]
  refine wp_mono (wp_cacheGetLoad ha hs hl) ?_ fun _ h => h.1
  rintro i c1 ⟨h1,hv,he⟩
  exact ⟨h1,fun hn => lineOf_none hn i hv he⟩

lemma blockCacheRead_outside {n : ℕ} (h : c.inRange lba n=false) :
    (blockCacheRead lba n).run c=(none,c) := by
  simp only [blockCacheRead,run_bind,run_gets,h]
  rfl

lemma blockCacheWrite_outside
    (h : c.inRange lba buf.length=false) : (blockCacheWrite lba buf).run c=(none,c) := by
  simp only [blockCacheWrite,run_bind,run_gets,h]
  rfl

lemma safeLoad_unused (h : ∀ i, (c.lines i).valid=false) (lba : ℕ) :
    c.SafeLoad lba := fun _ v _ hv => absurd (hv.symm.trans (h v)) (by simp)

lemma safeLoad_cached (h : c.lineOf lba≠none) : c.SafeLoad lba :=
  fun hn => absurd hn h

/-- The self-test only reads. Its first read finds unused lines, its second one the line of the
first, its third one is refused. -/
lemma wp_cacheSelftest [BEq σ] (ha : c.Attached)
    (hu : ∀ i, (c.lines i).valid=false) (hn : 0<c.activeLbaCount) :
    cacheSelftest.wp (fun _ c' => Calm c c') (Calm c) c := by
  have hcap : (c.activeLbaCount != 0)=true := bne_iff_ne.2 (by omega)
  simp only [cacheSelftest,wp_bind,wp_gets,hcap,wp_require_true,wp_attempt]
  refine wp_imp (wp_blockCacheRead_one ha (safeLoad_unused hu 0) hn) ?_
  rintro a c1 ⟨h1,hline⟩
  refine wp_mono (wp_blockCacheRead_one h1.attached (safeLoad_cached hline)
    (by rw [h1.setup.count]; exact hn)) ?_ fun _ h => h1.trans h
  rintro b c2 ⟨h2,-⟩
  have h12 := h1.trans h2
  have hout : c2.inRange c.activeLbaCount 1=false := by
    simp [inRange,h12.setup.count]
  rw [wp_require]
  split
  · unfold Prog.wp
    rw [blockCacheRead_outside hout]
    exact h12
  · exact h12

/-- The device position belongs to the partition of the inode. -/
def OfInode (inode : DevInode) (k : DevKind) (p : ℕ) : Prop :=
  k=inode.devKind ∧ inode.devLbaStart≤p ∧ p < inode.devLbaStart+inode.devLbaCount

/-- The device holds all the contents; `c'` is `c` with its dirty lines written back. -/
structure Settled (c c' : BlockCache σ) : Prop where
  store : c'.dev.store=c.contents
  present : c'.dev.present=c.dev.present
  devices : SameDevices c c'
  reads : c'.dev.reads=c.dev.reads
  writes : WritesTo c.InPartition c c'

lemma WritesTo.refl (R : DevKind → ℕ → Prop) (c : BlockCache σ) : WritesTo R c c :=
  ⟨[],by simp,by simp⟩

lemma Calm.settled (h : Calm c c') (ha : c.Attached)
    (hd : ∀ l, ¬ c'.DirtyAt l) (hr : c'.dev.reads=c.dev.reads) : Settled c c' where
  store := by rw [← h.attached.contents_clean hd,h.contents ha]
  present := h.setup.present
  devices := h.setup.sameDevices
  reads := hr
  writes := h.1.writesTo ha

lemma wp_attachFlush (hc : c.Serving)
    (hl : c.readyFlag=true → c.Lands (List.finRange blockCacheLines)) :
    (if c.readyFlag then (do let _ ← Prog.attempt blockCacheFlush) else pure () :
      Prog (BlockCache σ) Unit).wp (fun _ c' => Settled c c') (fun _ => False) c := by
  by_cases hr : c.readyFlag=true
  · have ha := hc.attached hr
    rw [if_pos hr]
    simp only [wp_bind,wp_attempt,wp_pure]
    refine wp_mono (wp_blockCacheFlush ha) ?_ ?_
    · rintro _ c1 ⟨h1,hclean,hreads⟩
      exact h1.settled ha hclean hreads
    · rintro c1 ⟨h1,-,hclean,hreads⟩
      exact h1.settled ha (hclean (hl hr)) hreads
  · rw [if_neg hr]
    have hstore := contents_not_ready (Bool.eq_false_iff.2 hr)
    exact ⟨hstore.symm,rfl,SameDevices.refl c,rfl,WritesTo.refl _ c⟩

/-- The call of an attachment: what the cache presents of the devices stays, the dirty lines are
written back to the old partition, and the self-test reads the new one. -/
structure Attaches (inode : DevInode) (c c' : BlockCache σ) : Prop where
  serving : c'.Serving
  contents : c'.contents=c.contents
  devices : SameDevices c c'
  reads : AsksFor (OfInode inode) c c'
  writes : WritesTo c.InPartition c c'

lemma Attaches.refl {inode : DevInode} (h : c.Serving) : Attaches inode c c :=
  ⟨h,rfl,SameDevices.refl c,⟨[],by simp,by simp⟩,WritesTo.refl _ c⟩

section Attach
variable [Inhabited σ]

lemma reset_valid (c : BlockCache σ) (kind : DevKind) (base count : ℕ) (i : LineIx) :
    ((c.reset kind base count).lines i).valid=false := rfl

lemma reset_attached {kind : DevKind} {b count : ℕ}
    (hk : c.backendReady kind=true) (hn : count≠0) : (c.reset kind b count).Attached where
  ready := by
    have hne : kind≠.none := by
      rintro rfl
      simp [backendReady,DevKind.isBlock] at hk
    have hk' : (c.reset kind b count).backendReady kind=true := hk
    simp only [blockCacheReady,Bool.and_eq_true,bne_iff_ne]
    exact ⟨⟨⟨rfl,hne⟩,hk'⟩,hn⟩
  unique := fun i _ hi => absurd hi (by simp [reset_valid])
  bound := fun i hi => absurd hi (by simp [reset_valid])
  clean := fun i hi => absurd hi (by simp [reset_valid])

lemma reset_clean (c : BlockCache σ) (kind : DevKind) (base count l : ℕ) :
    ¬ (c.reset kind base count).DirtyAt l := by
  rintro ⟨i,hi,-⟩
  exact absurd hi (by simp [reset_valid])

lemma Settled.attaches {inode : DevInode} {c1 c2 : BlockCache σ} (hs : Settled c c1)
    (hk : c.backendReady inode.devKind=true) (hn : inode.devLbaCount≠0)
    (hc : Calm (c1.reset inode.devKind inode.devLbaStart inode.devLbaCount) c2)
    (hlines : c'.lines=c2.lines) (hdev : c'.dev=c2.dev)
    (hflags : c'.readyFlag=false ∨ (c'.Attached ∧ ∀ l, ¬ c'.DirtyAt l)) : Attaches inode c c' := by
  have hk1 : c1.backendReady inode.devKind=true := by rwa [backendReady,hs.present]
  have ha := reset_attached (b := inode.devLbaStart) hk1 hn
  have hclean := hc.clean (reset_clean c1 _ _ _)
  have hstore : c'.dev.store=c.contents := by
    rw [hdev,← hc.attached.contents_clean hclean,hc.contents ha,
      ha.contents_clean (reset_clean c1 _ _ _)]
    exact hs.store
  refine ⟨⟨?_,?_⟩,?_,?_,?_,?_⟩
  · rw [hlines]
    exact hc.attached.unique
  · intro hr
    rcases hflags with h | h
    · exact absurd (hr.symm.trans h) (by simp)
    · exact h.1
  · rcases hflags with h | h
    · rw [contents_not_ready h,hstore]
    · rw [h.1.contents_clean h.2,hstore]
  · refine hs.devices.trans ?_
    have := hc.setup.sameDevices
    exact ⟨by rw [hdev]; exact this.reads,by rw [hdev]; exact this.writes,
      by rw [hdev]; exact this.requests⟩
  · obtain ⟨rs,hrs,hin⟩ := hc.setup.readsIn
    refine ⟨rs,?_,fun x hx => ?_⟩
    · rw [hdev,hrs]
      exact congrArg (· ++ rs) hs.reads
    · obtain ⟨hx1,l,hl,hx2⟩ := hin x hx
      rw [hx1,hx2]
      exact ⟨rfl,Nat.le_add_right _ _,Nat.add_lt_add_left hl _⟩
  · -- nothing is dirty after the reset, so no sector is written from there on
    obtain ⟨ws,hws,-,hin⟩ := (hc.1.covers (fun _ _ => False)
      (fun l hl => reset_clean c1 _ _ _ l hl) fun _ _ h => h).2
    have hnil : ws=[] := by
      refine List.eq_nil_iff_forall_not_mem.2 fun x hx => ?_
      obtain ⟨-,l,-,-,h⟩ := hin x hx
      exact h
    obtain ⟨ws1,hws1,hin1⟩ := hs.writes
    refine ⟨ws1,?_,hin1⟩
    rw [hdev,hws,hnil,List.append_nil]
    exact hws1

lemma wp_blockCacheAttachInode [BEq σ] (hc : c.Serving) (inode : DevInode)
    (hl : c.readyFlag=true → c.attachedTo inode=false → c.Lands (List.finRange blockCacheLines)) :
    (blockCacheAttachInode inode).wp (fun _ c' => Attaches inode c c') (Attaches inode c) c := by
  simp only [blockCacheAttachInode,wp_bind,wp_gets,wp_require]
  split
  swap
  · exact Attaches.refl hc
  split
  swap
  · exact Attaches.refl hc
  next hready =>
  obtain ⟨hk,hn⟩ : c.backendReady inode.devKind=true ∧ inode.devLbaCount≠0 := by
    simpa using hready
  split
  · exact Attaches.refl hc
  next hto =>
  simp only [wp_bind,wp_gets,wp_modify]
  have hl' : c.readyFlag=true → c.Lands (List.finRange blockCacheLines) :=
    fun h => hl h (Bool.eq_false_iff.2 hto)
  refine wp_mono (wp_attachFlush hc hl') ?_ fun _ h => h.elim
  intro _ c1 hs
  have hk1 : c1.backendReady inode.devKind=true := by rwa [backendReady,hs.present]
  have ha := reset_attached (b := inode.devLbaStart) hk1 hn
  have hclean := reset_clean c1 inode.devKind inode.devLbaStart inode.devLbaCount
  split
  · exact hs.attaches hk hn ((SameView.refl _).calm ha) rfl rfl (.inr ⟨ha,hclean⟩)
  · simp only [wp_bind,wp_onFail,wp_modify]
    refine wp_mono (wp_cacheSelftest ha (reset_valid c1 _ _ _) (Nat.pos_of_ne_zero hn)) ?_ ?_
    · intro _ c2 h2
      refine hs.attaches hk hn h2 rfl rfl (.inr ⟨?_,h2.clean hclean⟩)
      exact ⟨h2.attached.ready,h2.attached.unique,h2.attached.bound,h2.attached.clean⟩
    · intro c2 h2
      exact hs.attaches hk hn h2 rfl rfl (.inl rfl)

end Attach

/-- A call of the cache. -/
inductive CacheCall (σ : Type)
  | attach (inode : DevInode)
  | read (lba count : ℕ)
  | write (lba : ℕ) (buf : List σ)
  | flush

namespace CacheCall

variable {op : CacheCall σ}

/-- The call; a read returns its sectors, the other calls nothing. -/
def exec [Inhabited σ] [BEq σ] : CacheCall σ → Prog (BlockCache σ) (List σ)
  | .attach inode => do blockCacheAttachInode inode; pure []
  | .read lba count => blockCacheRead lba count
  | .write lba buf => do blockCacheWrite lba buf; pure []
  | .flush => do blockCacheFlush; pure []

/-- What the call makes of an array of sectors for each device. -/
def effect (c : BlockCache σ) : CacheCall σ → (DevKind → ℕ → σ) → DevKind → ℕ → σ
  | .write lba buf,arr => put arr c.activeDevKind (c.deviceLba lba) buf
  | _,arr => arr

/-- The call with the first `k` of its sectors. -/
def part : CacheCall σ → ℕ → CacheCall σ
  | .write lba buf,k => .write lba (buf.take k)
  | op,_ => op

/-- No failing device call makes the cache forget something: a partition is left only when its
dirty lines can be written back, and no sector read fails into a line in use. -/
def Safe (c : BlockCache σ) : CacheCall σ → Prop
  | .attach inode => c.readyFlag=true → c.attachedTo inode=false →
      c.Lands (List.finRange blockCacheLines)
  | .read lba count => c.inRange lba count=true → SafeReads lba count c
  | .write lba buf => c.inRange lba buf.length=true → SafeWrites lba buf c
  | .flush => True

def ReadRange (c : BlockCache σ) : CacheCall σ → DevKind → ℕ → Prop
  | .attach inode => OfInode inode
  | _ => c.InPartition

/-- What a call has done when it ends. -/
structure Done (op : CacheCall σ) (c : BlockCache σ) (r : Option (List σ)) (c' : BlockCache σ) :
    Prop where
  serving : c'.Serving
  devices : SameDevices c c'
  reads : AsksFor (op.ReadRange c) c c'
  writes : WritesTo c.InPartition c c'
  success : r.isSome → c'.contents=op.effect c c.contents
  failure : r=none → ∃ k, c'.contents=(op.part k).effect c c.contents ∧
    (c.ReadsOk → c.SectorsOk → k=0)

lemma put_nil (arr : DevKind → ℕ → σ) (k : DevKind) (p : ℕ) : put arr k p []=arr :=
  update_eq_self k arr

lemma effect_part_zero (c : BlockCache σ) (op : CacheCall σ) (arr : DevKind → ℕ → σ) :
    (op.part 0).effect c arr=arr := by
  cases op with
  | write lba buf => exact put_nil arr _ _
  | attach inode => rfl
  | read lba count => rfl
  | flush => rfl

lemma Done.refused (hc : c.Serving) : op.Done c none c where
  serving := hc
  devices := SameDevices.refl c
  reads := ⟨[],by simp,by simp⟩
  writes := WritesTo.refl _ c
  success := fun h => absurd h (by simp)
  failure := fun _ => ⟨0,(effect_part_zero c op _).symm,fun _ _ => rfl⟩

lemma Done.of_attaches {inode : DevInode} (h : Attaches inode c c')
    (r : Option (List σ)) : (attach inode).Done c r c' where
  serving := h.serving
  devices := h.devices
  reads := h.reads
  writes := h.writes
  success := fun _ => h.contents
  failure := fun _ => ⟨0,h.contents,fun _ _ => rfl⟩

lemma Done.of_calm (h : Calm c c') (ha : c.Attached)
    (hread : op.ReadRange c=c.InPartition) (heff : op.effect c c.contents=c.contents)
    (r : Option (List σ)) : op.Done c r c' where
  serving := h.attached.serving
  devices := h.setup.sameDevices
  reads := by rw [hread]; exact h.1.asksFor ha
  writes := h.1.writesTo ha
  success := fun _ => by rw [heff,h.contents ha]
  failure := fun _ => ⟨0,by rw [effect_part_zero,h.contents ha],fun _ _ => rfl⟩

lemma inRange_bounds {n : ℕ} (h : c.inRange lba n=true) :
    c.readyFlag=true ∧ 0<n ∧ lba+n≤c.activeLbaCount := by
  simp only [inRange,blockCacheReady,Bool.and_eq_true,Bool.not_eq_true',Bool.or_eq_false_iff,
    beq_eq_false_iff_ne,decide_eq_false_iff_not] at h
  obtain ⟨⟨⟨⟨hr,-⟩,-⟩,-⟩,⟨hn,hlt⟩,hle⟩ := h
  exact ⟨hr,by omega,by omega⟩

section Exec
variable [Inhabited σ] [BEq σ] {c : BlockCache σ}

section
variable (hc : c.Serving)
include hc

lemma wp_exec_read (lba n : ℕ) (hs : (read lba n).Safe c) : (read lba n).exec.wp
      (fun ss c' => (read lba n).Done c (some ss) c' ∧
        ss=(List.range n).map fun i => c.contents c.activeDevKind (c.deviceLba (lba+i)))
      ((read lba n).Done c none) c := by
  rw [exec]
  by_cases hin : c.inRange lba n=true
  · obtain ⟨hr,hn,hl⟩ := inRange_bounds hin
    have ha := hc.attached hr
    refine wp_mono (wp_blockCacheRead ha (hs hin) hn hl) ?_ ?_
    · rintro ss c' ⟨h,rfl⟩
      refine ⟨Done.of_calm h ha rfl rfl _,List.map_congr_left fun i hi => ?_⟩
      have := List.mem_range.1 hi
      exact (contents_partition ha (by omega)).symm
    · rintro c' ⟨h,-⟩
      exact Done.of_calm h ha rfl rfl none
  · unfold Prog.wp
    rw [blockCacheRead_outside (Bool.eq_false_iff.2 hin)]
    exact Done.refused hc

lemma wp_exec_write (lba : ℕ) (buf : List σ) (hs : (write lba buf).Safe c) :
    (write lba buf).exec.wp (fun ss c' => (write lba buf).Done c (some ss) c')
      ((write lba buf).Done c none) c := by
  rw [exec,wp_bind]
  by_cases hin : c.inRange lba buf.length=true
  · obtain ⟨hr,hn,hl⟩ := inRange_bounds hin
    have ha := hc.attached hr
    refine wp_mono (wp_blockCacheWrite ha (hs hin) hn hl) ?_ ?_
    · rintro _ c' ⟨h,hf⟩
      refine ⟨h.attached.serving,h.setup.sameDevices,h.asksFor ha,h.writesTo ha,fun _ => ?_,
        fun h => absurd h (by simp)⟩
      exact contents_writeSeq ha h hl hf
    · rintro c' ⟨hw,k,hk,h,hf⟩
      refine ⟨h.attached.serving,h.setup.sameDevices,h.asksFor ha,h.writesTo ha,
        fun h => absurd h (by simp),fun _ => ⟨k,?_,fun hr hw' => absurd hw' (hw hr)⟩⟩
      exact contents_writeSeq ha h (by rw [List.length_take]; omega) hf
  · unfold Prog.wp
    rw [blockCacheWrite_outside (Bool.eq_false_iff.2 hin)]
    exact Done.refused hc

lemma wp_exec_flush : (flush : CacheCall σ).exec.wp
      (fun ss c' => flush.Done c (some ss) c' ∧ c'.dev.store=c.contents)
      (flush.Done c none) c := by
  rw [exec,wp_bind]
  by_cases hready : c.blockCacheReady=true
  · have hr : c.readyFlag=true := by
      simp only [blockCacheReady,Bool.and_eq_true] at hready
      exact hready.1.1.1
    have ha := hc.attached hr
    refine wp_mono (wp_blockCacheFlush ha) ?_ ?_
    · rintro _ c' ⟨h,hclean,-⟩
      refine ⟨Done.of_calm h ha rfl rfl _,?_⟩
      rw [← h.attached.contents_clean hclean,h.contents ha]
    · rintro c' ⟨h,-⟩
      exact Done.of_calm h ha rfl rfl none
  · simp only [blockCacheFlush,wp_bind,wp_gets,Bool.eq_false_iff.2 hready, wp_require_false]
    exact Done.refused hc

lemma wp_exec (op : CacheCall σ) (hs : op.Safe c) :
    op.exec.wp (fun ss c' => op.Done c (some ss) c') (op.Done c none) c := by
  cases op with
  | attach inode =>
    rw [exec,wp_bind]
    exact wp_mono (wp_blockCacheAttachInode hc inode hs)
      (fun _ _ h => Done.of_attaches h _) fun _ h => Done.of_attaches h _
  | read lba n => exact wp_imp (wp_exec_read hc lba n hs) fun _ _ h => h.1
  | write lba buf => exact wp_exec_write hc lba buf hs
  | flush => exact wp_imp (wp_exec_flush hc) fun _ _ h => h.1

lemma done_of_run (hs : op.Safe c) {r : Option (List σ)} (hrun : op.exec.run c=(r,c')) : op.Done c r c' := by
  have h := wp_exec hc op hs
  cases r with
  | none => exact wp_none h hrun
  | some ss =>
    have hdone := wp_some h hrun
    exact hdone

end

end Exec
end CacheCall

lemma Serving.safe_read (hc : c.Serving) (hr : c.ReadsOk) (lba n : ℕ) :
    (CacheCall.read lba n).Safe c := by
  intro hin
  obtain ⟨hready,-,hl⟩ := CacheCall.inRange_bounds hin
  exact hr.safeReads (hc.attached hready) n hl

lemma Serving.safe_write (hc : c.Serving) (hr : c.ReadsOk) (lba : ℕ)
    (buf : List σ) : (CacheCall.write lba buf).Safe c := by
  intro hin
  obtain ⟨hready,-,hl⟩ := CacheCall.inRange_bounds hin
  exact hr.safeWrites (hc.attached hready) buf hl

lemma Serving.safe (hc : c.Serving) (hr : c.ReadsOk) (hw : c.SectorsOk)
    (op : CacheCall σ) : op.Safe c := by
  cases op with
  | attach inode => exact fun _ _ => hw.lands _
  | read lba n => exact hc.safe_read hr lba n
  | write lba buf => exact hc.safe_write hr lba buf
  | flush => trivial

lemma blockCacheInit_serving [Inhabited σ] (c : BlockCache σ) : c.blockCacheInit.Serving where
  unique := fun i _ hi => absurd hi (by simp [blockCacheInit,CacheLine.cleared])
  attached := fun h => absurd h (by simp [blockCacheInit])

lemma blockCacheInit_contents [Inhabited σ] (c : BlockCache σ) :
    c.blockCacheInit.contents=c.dev.store := contents_not_ready rfl

section Runs
variable [Inhabited σ] [BEq σ]

/-- A run of calls from `block_cache_init` on, beside one flat array of sectors for each device
that only the successful writes change. -/
inductive FlatRun (c0 : BlockCache σ) : BlockCache σ → (DevKind → ℕ → σ) → Prop
  | init : FlatRun c0 c0.blockCacheInit c0.dev.store
  | call {c c' : BlockCache σ} {arr : DevKind → ℕ → σ} {r : Option (List σ)} (op : CacheCall σ)
      (h : FlatRun c0 c arr) (hrun : op.exec.run c=(r,c')) :
      FlatRun c0 c' (if r.isSome then op.effect c arr else arr)

variable {c0 c : BlockCache σ} {arr : DevKind → ℕ → σ}

lemma FlatRun.serving (hr : c0.ReadsOk) (hw : c0.SectorsOk) (h : FlatRun c0 c arr) :
    c.Serving ∧ c.ReadsOk ∧ c.SectorsOk ∧ c.contents=arr := by
  induction h with
  | init => exact ⟨blockCacheInit_serving c0,hr,hw,blockCacheInit_contents c0⟩
  | call op h hrun ih =>
    obtain ⟨hc,hr,hw,rfl⟩ := ih
    have hdone := CacheCall.done_of_run hc (hc.safe hr hw op) hrun
    refine ⟨hdone.serving,hdone.devices.readsOk hr,hdone.devices.sectorsOk hw,?_⟩
    split
    · next hs => exact hdone.success hs
    · next hs =>
      obtain ⟨k,hk,hzero⟩ := hdone.failure (by simpa using hs)
      rw [hk,hzero hr hw,CacheCall.effect_part_zero]

/-- The cache refines one flat array of sectors for each device: in every state that a run
reaches, a read returns the sectors of the array and does return when it stays inside the
partition, a sector has one valid line at most, a flush leaves the array on the devices, and the
next call, whatever it is, writes only inside the attached partition and reads only there or, when
it attaches, inside the partition that it attaches. -/
theorem blockCache_refines_flat_array (hr : c0.ReadsOk) (hw : c0.SectorsOk) (h : FlatRun c0 c arr) :
    (∀ lba n ss c', (blockCacheRead lba n).run c=(some ss,c') →
      ss=(List.range n).map fun i => arr c.activeDevKind (c.deviceLba (lba+i))) ∧
    (∀ lba n, c.readyFlag=true → 0<n → lba+n≤c.activeLbaCount →
      ((blockCacheRead lba n).run c).1.isSome) ∧
    (∀ i j, (c.lines i).valid=true → (c.lines j).valid=true →
      (c.lines i).lba=(c.lines j).lba → i=j) ∧
    (∀ c', blockCacheFlush.run c=(some (),c') → c'.dev.store=arr) ∧
    ∀ (op : CacheCall σ) (r : Option (List σ)) (c' : BlockCache σ), op.exec.run c=(r,c') →
      AsksFor (op.ReadRange c) c c' ∧ WritesTo c.InPartition c c' := by
  obtain ⟨hc,hr,hw,rfl⟩ := h.serving hr hw
  refine ⟨?_,?_,hc.unique,?_,?_⟩
  · intro lba n ss c' hrun
    have := wp_some (CacheCall.wp_exec_read hc lba n (hc.safe hr hw _)) hrun
    exact this.2
  · intro lba n hready hn hl
    have ha := hc.attached hready
    have hread := wp_blockCacheRead ha (hr.safeReads ha n hl) hn hl
    rcases hrun : (blockCacheRead lba n).run c with ⟨_ | ss,c'⟩
    · have := wp_none hread hrun
      exact absurd hw (this.2 hr)
    · rfl
  · intro c' hrun
    have hrun' : (CacheCall.flush : CacheCall σ).exec.run c=(some [],c') := by
      simp only [CacheCall.exec,run_bind,hrun]
      rfl
    have := wp_some (CacheCall.wp_exec_flush hc) hrun'
    exact this.2
  · intro op r c' hrun
    have hdone := CacheCall.done_of_run hc (hc.safe hr hw op) hrun
    exact ⟨hdone.reads,hdone.writes⟩

end Runs

/-- A machine with one block device of zero sectors, before `block_cache_init`. -/
def bareCache (readOutcome : ℕ → Outcome ℕ) (writeOk : ℕ → Bool) : BlockCache ℕ where
  lines := fun _ => CacheLine.cleared
  useClock := 0
  readyFlag := false
  activeDevKind := .none
  activeLbaBase := 0
  activeLbaCount := 0
  selftestDone := false
  dev :=
    { present := fun k => k == .vda, store := fun _ _ => 0, readOutcome := readOutcome
      writeOk := writeOk, flushOk := fun _ => true, requests := 0, reads := [], log := []}

def partition (start count : ℕ) : DevInode := ⟨true,.vda,start,count⟩

theorem blockCache_refines_flat_array_moved : ∃ (c : BlockCache ℕ) (arr : DevKind → ℕ → ℕ),
      FlatRun (bareCache (fun _ => .ok) fun _ => true) c arr ∧ arr .vda 103=7 ∧
      ∀ ss c', (blockCacheRead 1 1).run c=(some ss,c') → ss=[arr c.activeDevKind (c.deviceLba 1)] := by
  let c0 := bareCache (fun _ => .ok) fun _ => true
  -- a sector is written, and then read in another partition that overlaps the first
  have h1 : FlatRun c0 _ _ := .call (.attach (partition 100 8)) .init rfl
  have h2 : FlatRun c0 _ _ := .call (.write 3 [7]) h1 rfl
  have h3 : FlatRun c0 _ _ := .call (.attach (partition 102 8)) h2 rfl
  refine ⟨_,_,h3,by decide +kernel,fun ss c' hrun => ?_⟩
  have h := (blockCache_refines_flat_array (fun _ => rfl) (fun _ _ => rfl) h3).1 1 1 ss c' hrun
  simpa using h

end BlockCache
end FuriOS
