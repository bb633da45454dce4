import FuriOS.FileTruncate

/-! Runs of calls on one file, with the rest of the kernel at work in between: other files are
read and written, pages are evicted and written back, and tasks allocate, map and free memory.
What a read of the file returns is compared with an ideal byte array that only sees the calls and
their results. -/
namespace FuriOS
open Prog Owners

/-- Activity of the kernel that concerns neither the file of inode `n` nor its pages. -/
structure Beside (n : ℕ) (s s' : System) : Prop where
  ok : s'.memView.Ok []
  alone : ∀ m, s'.inodeSame m n=true → m=n
  inode : s'.inodes n=s.inodes n
  backing : s'.backing (s.fileId n)=s.backing (s.fileId n)
  ioOk : s'.ioOk=s.ioOk
  entries : ∀ j e, e.inode=n → (s'.cache.entries j=some e ↔ s.cache.entries j=some e)
  apart : ∀ j j' e e', s'.cache.entries j=some e → s'.cache.entries j'=some e' →
    e.inode=n → e.pa=e'.pa → j=j'
  mem : ∀ j e, s.cache.entries j=some e → e.inode=n → s'.phys.mem.Agree s.phys.mem e.pa pageSize

/-- What may happen between the calls on the file of inode `n`. -/
inductive Quiet (n : ℕ) (s : System) : System → Prop
  | read (m offset len : ℕ) : Quiet n s ((pagecacheRead m offset len).run s).2
  | write {m : ℕ} (hm : m≠n) (offset : ℕ) (src : Buf) (len : ℕ) :
      Quiet n s ((pagecacheWrite m offset src len).run s).2
  | evict : Quiet n s (pagecacheSlot.run s).2
  | flush (sel : System → PageCacheEntry → Bool) (budget : ℕ) :
      Quiet n s ((pagecacheFlushMatch sel budget).run s).2
  | pressure : Quiet n s (pagecacheMaybeWritebackPressure.run s).2
  | tick (lastWriteback now : ℕ) : Quiet n s ((pagecacheTick lastWriteback now).run s).2
  | beside {s' : System} (h : Beside n s s') : Quiet n s s'

variable {n : ℕ} {r : Place} {f : IdealFile} {s s' : System}

lemma Sees.beside (h : Sees n r f [] s) (hb : Beside n s s') : Sees n r f [] s' := by
  have hfile : s'.fileId n=s.fileId n := by
    simp only [System.fileId]
    rw [hb.inode]
  have hin {j : CacheIx} {e : PageCacheEntry} (hj : s'.cache.entries j=some e)
      (he : e.inode=n) : s.cache.entries j=some e := (hb.entries j e he).1 hj
  refine ⟨hb.ok,⟨?_,hb.alone,⟨?_,fun hk => ?_,fun hk => ?_,?_⟩,?_⟩,⟨fun j e hj he => ?_,
    fun j j' e e' hj hj' he he' ho => ?_,hb.apart⟩,fun j e hj he k hk => ?_,fun i hno => ?_⟩
  · rw [hb.inode]
    exact h.inv.type
  · rw [hb.inode]
    exact h.inv.storable.kind
  · rw [hb.inode] at hk ⊢
    rw [hfile,hb.backing]
    exact h.inv.storable.mem hk
  · rw [hb.inode] at hk ⊢
    rw [hfile,hb.backing]
    exact h.inv.storable.ext4 hk
  · rw [hb.inode,hb.ioOk]
    exact h.inv.storable.settled
  · rw [hb.inode]
    exact h.inv.size
  · exact h.inv.aligned j e (hin hj he) he
  · exact h.inv.unique j j' e e' (hin hj he) (hin hj' he') he he' ho
  · rw [hb.mem j e (hin hj he) he _ (by omega) (by omega)]
    exact h.inv.cached j e (hin hj he) he k hk
  · rw [hfile,hb.backing]
    refine h.inv.below i fun j e hj he hd => ?_
    exact hno j e ((hb.entries j e he).2 hj) he hd

lemma Sees.quiet (h : Sees n r f [] s) (hq : Quiet n s s') : Sees n r f [] s' := by
  cases hq with
  | read m offset len => exact Sees.read_any m offset len s h
  | write hm offset src len => exact Sees.write_other hm offset src len s h
  | evict =>
    have hp : Preserves (Sees n r f []) pagecacheSlot :=
      .of_wp fun s h => wp_mono h.slot (fun _ _ h' => h'.1.ideal) fun _ h' => h'.ideal
    exact hp s h
  | flush sel budget => exact Sees.flushMatch sel budget s h
  | pressure => exact Sees.pressure s h
  | tick lastWriteback now => exact Sees.tick lastWriteback now s h
  | beside hb => exact h.beside hb

/-- What a read returns when the file is `f`: bytes of `f` from `offset` on, at least one when there
is one. -/
def ReadsFrom (f : IdealFile) (offset len : ℕ) (bytes : Bytes) : Prop :=
  bytes <+: f.read offset len ∧ (bytes=[] → f.read offset len=[])

lemma Sees.reads {held : List ℕ} (h : Sees n r f held s) {offset len : ℕ} {bytes : Bytes}
    (hlen : offset+len<2^64) (hr : (pagecacheRead n offset len).run s=(some bytes,s')) :
    ReadsFrom f offset len bytes := by
  have hwp := wp_some (h.read offset len hlen) hr
  obtain ⟨-,k,hk,rfl,hzero⟩ := hwp
  obtain ⟨d,hd⟩ := Nat.exists_eq_add_of_le hk
  refine ⟨⟨f.slice (offset+k) d,?_⟩,fun hnil => ?_⟩
  · rw [IdealFile.read_eq_slice,hd,IdealFile.slice_add]
  · have hk0 : k=0 := by simpa using congrArg List.length hnil
    rw [IdealFile.read_eq_slice,hzero hk0]
    rfl

/-- One running task and one file, the inode 0. -/
def System.bare (m : Phys) (c : PageCache) (ino : Inode) (data : Buf) : System :=
  {System.single .zero with
    phys := m
    cache := c
    inodes := fun m => if m=0 then ino else Inode.zero
    backing := fun _ => data}

def System.withFile (ino : Inode) (data : Buf) : System :=
  System.bare (Phys.init 0x40400000) PageCache.zero ino data

def memfsFile (size : ℕ) : Inode :=
  {Inode.zero with writable := true, hasData := true, size := size, capacity := 16384}

lemma ok_init : (Phys.init 0x40400000).Ok :=
  ⟨List.nodup_nil,by simp [Phys.init],by simp [Phys.init],by decide,by decide,by decide⟩

section Bare
variable {m : Phys} {c : PageCache} {ino : Inode} {data : Buf}

lemma own_bare {o : Owner} {p : ℕ} (ho : (System.bare m c ino data).memView.own o=some p) :
    ∃ j e, o=.cache j ∧ c.entries j=some e ∧ e.pa=p := by
  have hmm (t : TaskIx) : ((System.bare m c ino data).tasks t).mm=.zero := by
    by_cases ht : t=0
    · subst ht
      rfl
    · simp [System.bare,System.single,ht,Task.zero]
  have hstack (t : TaskIx) : ((System.bare m c ino data).tasks t).kstackBase=0 := by
    by_cases ht : t=0
    · subst ht
      rfl
    · simp [System.bare,System.single,ht,Task.zero]
  cases o with
  | page t i =>
    change ((((System.bare m c ino data).tasks t).mm.pages i).map UserPage.pa)=some p at ho
    rw [hmm] at ho
    cases ho
  | table t k =>
    change nonNull (((System.bare m c ino data).tasks t).mm.table k)=some p at ho
    rw [hmm] at ho
    fin_cases k <;> cases ho
  | stack t k =>
    change (nonNull ((System.bare m c ino data).tasks t).kstackBase).map _=some p at ho
    rw [hstack] at ho
    cases ho
  | cache i =>
    obtain ⟨e,he,hp⟩ := Option.map_eq_some_iff.1 ho
    exact ⟨i,e,rfl,he,hp⟩

lemma same_bare {k : ℕ} (hk : (System.bare m c ino data).inodeSame k 0=true)
    (htype : ino.type=.file) : k=0 := by
  by_contra hne
  simp only [System.inodeSame,System.bare,if_neg hne,if_true] at hk
  cases hx : ino.fsKind <;> simp [hx,htype,Inode.zero] at hk

lemma ok_bare (hm : m.Ok) (hpa : ∀ j j' e e', c.entries j=some e → c.entries j'=some e' →
    e.pa=e'.pa → j=j') (hrefs : ∀ j e, c.entries j=some e → m.pageRefs e.pa≠0) :
    (System.bare m c ino data).memView.Ok [] := by
  refine ⟨hm,fun p => ?_⟩
  rw [List.count_nil,Nat.add_zero]
  by_cases hex : ∃ o, (System.bare m c ino data).memView.own o=some p
  · obtain ⟨o,ho⟩ := hex
    obtain ⟨j,e,-,hj,hp⟩ := own_bare ho
    have hpos := hrefs j e hj
    rw [hp] at hpos
    refine (count_le_one fun o o' ho ho' => ?_).trans (Nat.one_le_iff_ne_zero.2 hpos)
    obtain ⟨j,e,rfl,hj,hp⟩ := own_bare ho
    obtain ⟨j',e',rfl,hj',hp'⟩ := own_bare ho'
    rw [hpa j j' e e' hj hj' (hp.trans hp'.symm)]
  · have hzero : count (System.bare m c ino data).memView.own p=0 :=
      Finset.sum_eq_zero fun o _ => if_neg fun ho => hex ⟨o,ho⟩
    rw [hzero]
    exact Nat.zero_le _

end Bare

lemma sees_withFile {ino : Inode} {data : Buf} (htype : ino.type=.file)
    (hst : Storable 0 r (System.withFile ino data))
    (hsize : ino.size=f.size) (hdata : ∀ i, i<f.size → data i=f.bytes i) :
    Sees 0 r f [] (System.withFile ino data) where
  ok := ok_bare ok_init (fun j j' e e' hj => by cases hj) fun j e hj => by cases hj
  inv := {
    type := htype
    alone := fun m hm => same_bare hm htype
    storable := hst
    size := hsize
    aligned := fun j e hj => by cases hj
    unique := fun j j' e e' hj => by cases hj
    apart := fun j j' e e' hj => by cases hj
    cached := fun j e hj => by cases hj
    below := fun i _ => by
      split_ifs with hi
      · exact hdata i hi
      · exact (f.beyond i (Nat.not_lt.1 hi)).symm}

def ext4File (size : ℕ) : Inode :=
  {Inode.zero with
    fsKind := .ext4, fsId := 1, fsIno := 12, writable := true, size := size, metaSize := size}

def IdealFile.empty : IdealFile := ⟨⟨0,Buf.zero⟩,fun _ _ => rfl⟩

lemma storable_ext4 {s : System} {size : ℕ} {b : Bool} (hn : s.inodes 0=ext4File size)
    (hio : ∀ k, s.ioOk k=true) (hb : ∀ i, size ≤ i → s.backing (s.fileId 0) i=0) :
    Storable 0 (.ext4 b) s := by
  refine ⟨by rw [hn]; rfl,fun hk => ?_,fun _ => ?_,fun _ => ⟨?_,hio⟩⟩
  · rw [hn] at hk
    cases hk
  · rw [hn]
    exact ⟨le_rfl,hb⟩
  · rw [hn]
    rfl

lemma sees_ext4 {size : ℕ} {data : Buf} {b : Bool} (hf : f.size=size)
    (hdata : ∀ i, data i=f.bytes i) :
    Sees 0 (.ext4 b) f [] (System.withFile (ext4File size) data) :=
  sees_withFile rfl (storable_ext4 rfl (fun _ => rfl) fun i hi => (hdata i).trans
    (f.beyond i (by omega))) hf.symm fun i _ => hdata i

/-- A write of `k` bytes to a memory file is as it should be: the array has zeros from the end of the
file to the first page of the request, and no page that reaches beyond the end was evicted. -/
def Unspoilt (s s' : System) (n offset k : ℕ) : Prop :=
  k≠0 → (∀ i, (s.inodes n).size ≤ i → i<alignDown offset → s.backing (s.fileId n) i=0) ∧
    Kept n (s.inodes n).size offset k s'

/-- The system after calls on the memory file of inode `n`, with the ideal file that results from
what the calls returned. -/
inductive MemfsRun (n : ℕ) (s0 : System) (f0 : IdealFile) : System → IdealFile → Prop
  | start : MemfsRun n s0 f0 s0 f0
  | write {s s' : System} {f : IdealFile} {offset len k : ℕ} {src : Buf} (h : MemfsRun n s0 f0 s f)
      (hlen : len<2^64) (hw : (fsWrite n offset src len).run s=(some k,s'))
      (hk : Unspoilt s s' n offset k) : MemfsRun n s0 f0 s' (f.write offset src k)
  | writeFails {s s' : System} {f : IdealFile} {offset len : ℕ} {src : Buf} (h : MemfsRun n s0 f0 s f)
      (hlen : len<2^64) (hw : (fsWrite n offset src len).run s=(none,s')) : MemfsRun n s0 f0 s' f
  | truncate {s s' : System} {f : IdealFile} {size : ℕ} (h : MemfsRun n s0 f0 s f)
      (ht : (fsTruncate n size).run s=(some (),s')) : MemfsRun n s0 f0 s' (f.truncate size)
  | truncateFails {s s' : System} {f : IdealFile} {size : ℕ} (h : MemfsRun n s0 f0 s f)
      (ht : (fsTruncate n size).run s=(none,s')) : MemfsRun n s0 f0 s' f
  | quiet {s s' : System} {f : IdealFile} (h : MemfsRun n s0 f0 s f) (hq : Quiet n s s') :
      MemfsRun n s0 f0 s' f

lemma Sees.fsWrite_mem (h : Sees n .memfs f [] s) (offset : ℕ) (src : Buf) {len : ℕ} (hlen : len<2^64) :
    wp (FuriOS.fsWrite n offset src len)
      (fun k s' => (Unspoilt s s' n offset k → Sees n .memfs (f.write offset src k) [] s') ∧
        (alignDown (offset+len-1)≤f.size → Unspoilt s s' n offset k)) (Sees n .memfs f []) s := by
  by_cases hend : len≠0 ∧ 2^64≤offset+len
  · exact wp_imp (h.fsWrite_refused offset src hend.1 hlen hend.2) fun _ _ hf => hf.elim
  · refine wp_imp (Sees.fsWrite h offset src len (fun hl => ?_) fun hs => by cases hs) fun k s' h' => ?_
    · by_contra hc
      exact hend ⟨hl,by omega⟩
    · obtain ⟨hk,g,hg,hs⟩ := h'
      rw [Unspoilt,h.inv.size]
      refine ⟨fun hi => ?_,fun hlast hk0 => ⟨fun i hle hlt => ?_,hg.last (le_max_of_le_left hlast)⟩⟩
      · have h' := hs fun _ => hi
        by_cases hk0 : k=0
        · subst hk0
          rwa [hg.eq_write fun i _ hlt => by omega] at h'
        · rwa [hg.eq_write (hi hk0).2] at h'
      · have := alignDown_mono (show offset≤offset+len-1 by omega)
        omega

lemma Sees.memfsRun {s0 : System} {f0 : IdealFile} (h0 : Sees n .memfs f0 [] s0)
    (hrun : MemfsRun n s0 f0 s f) : Sees n .memfs f [] s := by
  induction hrun with
  | start => exact h0
  | write _ hlen hw hk ih => exact (wp_some (ih.fsWrite_mem _ _ hlen) hw).1 hk
  | writeFails _ hlen hw ih => exact wp_none (ih.fsWrite_mem _ _ hlen) hw
  | truncate _ ht ih =>
    have h := wp_some (ih.truncate _) ht
    exact h
  | truncateFails _ ht ih => exact wp_none (ih.truncate _) ht
  | quiet _ hq ih => exact ih.quiet hq

/-- A memory file behaves as an ideal byte array in every run in which no write uncovers old bytes of
the array or evicts its own pages. -/
theorem fsRead_memfsRun {s0 : System} {f0 : IdealFile} (h0 : Sees n .memfs f0 [] s0)
    (hrun : MemfsRun n s0 f0 s f) {offset len : ℕ} {bytes : Bytes} (hlen : offset+len<2^64)
    (hr : (fsRead n offset len).run s=(some bytes,s')) : ReadsFrom f offset len bytes := by
  have h := h0.memfsRun hrun
  have hread : (pagecacheRead n offset len).run s=(some bytes,s') := by
    rw [fsRead] at hr
    simpa [h.inv.type] using hr
  exact h.reads hlen hread

def memfsEmpty : System := System.withFile (memfsFile 0) Buf.zero

lemma sees_memfs {size : ℕ} {data : Buf} (hsize : size≤16384) (hf : f.size=size)
    (hdata : ∀ i, i<f.size → data i=f.bytes i) :
    Sees 0 .memfs f [] (System.withFile (memfsFile size) data) :=
  sees_withFile rfl ⟨rfl,fun _ => ⟨rfl,hsize,Nat.zero_le _,fun i _ hi => absurd hi (Nat.not_lt_zero i)⟩,
    fun hk => (by cases hk),fun hs => by cases hs⟩ hf.symm hdata

theorem fsRead_memfsRun_written :
    ((fsRead 0 1 9).run ((fsWrite 0 0 (fun _ => 5) 3).run memfsEmpty).2).1=some [5,5] ∧
      ReadsFrom (IdealFile.empty.write 0 (fun _ => 5) 3) 1 9 [5,5] := by
  have hread : ((fsRead 0 1 9).run ((fsWrite 0 0 (fun _ => 5) 3).run memfsEmpty).2).1
      = some [5,5] := by decide +kernel
  have hwrite : ((fsWrite 0 0 (fun _ => 5) 3).run memfsEmpty).1=some 3 := by decide +kernel
  have hsees : Sees 0 .memfs IdealFile.empty [] memfsEmpty :=
    sees_memfs (by decide) rfl fun i hi => absurd hi (Nat.not_lt_zero i)
  have hwhole := wp_some (hsees.fsWrite_mem 0 (fun _ => 5) (by decide : 3<2^64)) (run_of_fst hwrite)
  exact ⟨hread,fsRead_memfsRun hsees (.write .start (by decide) (run_of_fst hwrite)
    (hwhole.2 (by decide))) (by decide) (run_of_fst hread)⟩

def oldFile : IdealFile where
  size := 8192
  bytes := fun i => if i=4096 then 7 else 0
  beyond i hi := if_neg (by omega)

/-- Cutting a memory file leaves its array as it is. A write beyond the new end then brings back
what the array has in the gap. -/
theorem fsRead_gap_not_zero :
    Sees 0 .memfs oldFile [] (System.withFile (memfsFile 8192) oldFile.bytes) ∧
    ((fsTruncate 0 0).run (System.withFile (memfsFile 8192) oldFile.bytes)).1=some () ∧
    ((fsWrite 0 8192 (fun _ => 1) 1).run
      ((fsTruncate 0 0).run (System.withFile (memfsFile 8192) oldFile.bytes)).2).1=some 1 ∧
    ((fsRead 0 4096 1).run ((fsWrite 0 8192 (fun _ => 1) 1).run
      ((fsTruncate 0 0).run (System.withFile (memfsFile 8192) oldFile.bytes)).2).2).1=some [7] ∧
    ((oldFile.truncate 0).write 8192 (fun _ => 1) 1).read 4096 1=[0] :=
  ⟨sees_memfs (by decide) rfl fun _ _ => rfl,by decide +kernel,by decide +kernel,by decide +kernel,
    by decide +kernel⟩

end FuriOS
