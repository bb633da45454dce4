import FuriOS.FileTransfer
import FuriOS.PmmRun

/-! The capacity of memory files, and files that are cut or extended: the page cache is flushed
first, so that every page of the file may be dropped or cleared. -/
namespace FuriOS
open Prog Owners Function

namespace Sees
variable {n : ℕ} {r : Place} {f : IdealFile} {held : List ℕ} {s : System}

section
variable (h : Sees n r f held s)
include h

lemma place {r' : Place} (hk : r'.kind=r.kind)
    (hs : r'.settled=true → r.settled=true) (hr : r.kind=.mem → r'.room≤(s.inodes n).capacity)
    (hc : r.kind=.mem → ∀ i, f.size ≤ i → i<r'.clear → s.backing (s.fileId n) i=0) :
    Sees n r' f held s := by
  refine ⟨h.ok,h.inv.edit (fun _ => rfl) ⟨h.inv.storable.kind.trans hk.symm,fun hm => ?_,
    h.inv.storable.ext4,fun hs' => h.inv.storable.settled (hs hs')⟩ h.inv.size,h.inv.toPaged,
    h.inv.cached,h.inv.below⟩
  obtain ⟨hdata,hcap,-,-⟩ := h.inv.storable.mem hm
  have hmem := h.inv.storable.kind.symm.trans hm
  exact ⟨hdata,hcap,hr hmem,h.inv.size ▸ hc hmem⟩

lemma clear (hk : r.kind=.mem) : ∀ i, f.size ≤ i → i<r.clear → s.backing (s.fileId n) i=0 :=
  h.inv.size ▸ (h.inv.storable.mem (h.inv.storable.kind.trans hk)).2.2.2

/-- Nothing is asked of the array any more. -/
lemma noRoom : Sees n ⟨r.kind,0,r.settled,0⟩ f held s :=
  h.place rfl id (fun _ => Nat.zero_le _) fun _ i _ hi => absurd hi (Nat.not_lt_zero i)

lemma alloc (bytes : ℕ) {align : ℕ} (ha : 0<align) (ha' : align≤pageSize) :
    wp (onPhys (pmmAlloc bytes align)) (fun _ s' => ∃ ph, s'=s.setPhys ph ∧ Sees n r f held s')
      (Sees n r f held) s := by
  have hcur := h.ok.phys.curHigh
  obtain ⟨hle,-,-⟩ := alignUpTo_bounds (x := s.phys.cur) ha (by
    simp only [memView_phys,physRamBase,physRamSize,pageSize] at *
    omega)
  rw [onPhys,wp_zoom]
  refine wp_pmmAlloc_bump (h.ok.phys.alignUpTo_ne hle) (fun hreq => ?_) fun _ => h
  refine ⟨_,rfl,⟨ok_bump h.ok.phys hle hreq.1,fun p => (h.ok.counted p).trans ?_⟩,?_⟩
  · -- marking a range adds references
    change s.phys.pageRefs p≤(s.phys.markRangeOwned _ _).pageRefs p
    rw [Phys.markRangeOwned,foldl_markPageOwned (nodup_pageRange _ _)]
    dsimp only
    split_ifs with hin
    · simp only [Phys.newlyOwned,List.mem_filter,Bool.and_eq_true,decide_eq_true_eq] at hin
      omega
    · exact le_rfl
  · refine h.inv.congr (fun _ => rfl) rfl rfl rfl rfl fun j e hj _ a _ ha => ?_
    have hused := (h.ok.phys.used e.pa (h.ok.refs_own (memView_entry_own hj))).2
    change (s.phys.mem.fill _ 0 bytes) a=_
    simp only [Buf.fill,memView_phys] at *
    rw [if_neg (by omega)]

lemma replaceArray (hk : r.kind=.mem) {cap : ℕ}
    (hcap : (s.inodes n).capacity≤cap) : Sees n {r with room := cap} f held (replaceArray n cap s) := by
  have hid (m : ℕ) : ((FuriOS.replaceArray n cap s).inodes m).ident=(s.inodes m).ident := by
    simp only [FuriOS.replaceArray]
    rw [FileInv.ident_setInode]
    exact fun _ => rfl
  have hn : (FuriOS.replaceArray n cap s).inodes n={s.inodes n with capacity := cap} := by
    simp only [FuriOS.replaceArray,System.setInode,update_self]
  refine ⟨h.ok,h.inv.edit hid ⟨(fsKind_congr (hid n)).trans h.inv.storable.kind,fun _ => ?_,fun hx => ?_,?_⟩ ?_,
    h.inv.toPaged,h.inv.cached,fun i hno => ?_⟩
  · obtain ⟨hdata,hsize,-,-⟩ := h.inv.storable.mem (h.inv.storable.kind.trans hk)
    rw [hn,fileId_congr hid]
    refine ⟨hdata,hsize.trans hcap,le_rfl,fun i hi _ => ?_⟩
    simp only [FuriOS.replaceArray,System.setInode,update_self]
    exact if_neg (Nat.not_lt.2 hi)
  · rw [hn] at hx
    cases (h.inv.storable.kind.trans hk).symm.trans hx
  · rw [hn]
    exact h.inv.storable.settled
  · rw [hn]
    exact h.inv.size
  · rw [fileId_congr hid]
    simp only [FuriOS.replaceArray,System.setInode,update_self]
    rw [← h.inv.below i hno]
    split_ifs with hi hin
    · rfl
    · exact absurd (h.inv.size ▸ hi) hin
    · rfl

lemma ensureCapacity (need : ℕ) : wp (memfsEnsureCapacity n need)
    (fun _ s' => Sees n {r with room := need} f held s' ∧ s'.cache=s.cache) (Sees n r f held) s := by
  rw [memfsEnsureCapacity,wp_gets_bind]
  refine wp_require_of h fun hreq => ?_
  simp only [Bool.and_eq_true,decide_eq_true_eq] at hreq
  by_cases hneed : need≤(s.inodes n).capacity
  · rw [if_pos hneed]
    exact ⟨h.place rfl id (fun _ => hneed) h.clear,rfl⟩
  rw [if_neg hneed]
  refine wp_require_of h fun _ => ?_
  refine wp_require_of h fun hcap => ?_
  simp only [Bool.and_eq_true,decide_eq_true_eq] at hcap
  rw [wp_bind]
  refine wp_imp (h.alloc _ (by decide) (by decide)) fun _ s1 hs1 => ?_
  obtain ⟨ph,rfl,h1⟩ := hs1
  rw [wp_modify]
  have hk : r.kind=.mem := h.inv.storable.kind.symm.trans hreq.1.1.1
  have hle : ((s.setPhys ph).inodes n).capacity ≤
      growCapacity need 24 (if (s.inodes n).capacity≠0 then (s.inodes n).capacity else fileCapacity) := by
    change (s.inodes n).capacity≤_
    omega
  have h2 := h1.replaceArray hk hle
  refine ⟨h2.place rfl id (fun _ => ?_) h2.clear,rfl⟩
  simp only [FuriOS.replaceArray,System.setInode,update_self]
  exact hcap.1

end

end Sees

/-! After a flush no page of the file is dirty. -/

variable {i : CacheIx} {e : PageCacheEntry} {n : ℕ} {s : System}

lemma isSome_foldl {α β : Type} {g : Option β → α → Option β}
    (hkeep : ∀ b k, b.isSome=true → (g b k).isSome=true) {i : α} (hset : ∀ b, (g b i).isSome=true)
    (l : List α) (b : Option β) (h : b.isSome=true ∨ i∈l) : (l.foldl g b).isSome=true := by
  induction l generalizing b with
  | nil => simpa using h
  | cons k l ih =>
    refine ih _ ?_
    rcases h with hb | hk
    · exact .inl (hkeep b k hb)
    · rcases List.mem_cons.1 hk with rfl | hk
      · exact .inl (hset b)
      · exact .inr hk

lemma oldestEntry_isSome {c : PageCache} (sel : PageCacheEntry → Bool) (hi : c.entries i=some e) (he : sel e=true) :
    (oldestEntry c sel).isSome=true := by
  refine isSome_foldl (i := i) (fun b k hb => ?_) (fun b => ?_) _ none (.inr (List.mem_finRange i))
  · split
    · exact hb
    · split_ifs
      · split
        · rfl
        · split_ifs <;> rfl
      · exact hb
  · rw [hi]
    dsimp only
    rw [if_pos he]
    split
    · rfl
    · split_ifs <;> rfl

def dirtyPages (n : ℕ) (s : System) : ℕ :=
  s.cache.entries.count fun o => o.any fun e => e.dirty && decide (e.inode=n)

lemma dirtyPages_le (n : ℕ) (s : System) : dirtyPages n s ≤ maxFileCachePages := by
  have h := List.countP_le_length (l := List.finRange maxFileCachePages)
    (p := fun i => (s.cache.entries i).any fun e => e.dirty && decide (e.inode=n))
  rwa [List.length_finRange] at h

lemma clean_of_dirtyPages (h : dirtyPages n s=0) {j : CacheIx} (hj : s.cache.entries j=some e) (he : e.inode=n) : e.dirty=false := by
  by_contra hd
  have hpos : 0<dirtyPages n s := Slots.count_pos.2 ⟨j,by simp [hj,he,hd]⟩
  omega

lemma dirtyPages_put {s' : System} {d : PageCacheEntry}
    (hi : s.cache.entries i=some e) (hdirty : e.dirty=true) (hn : e.inode=n)
    (hclean : d.dirty=false) (he : s'.cache.entries=s.cache.entries.put i d) :
    dirtyPages n s'+1=dirtyPages n s := by
  have hcount := Slots.count_update (s := s.cache.entries) (i := i)
    (fun o => o.any fun e => e.dirty && decide (e.inode=n)) (some d)
  simp only [hi,Option.any_some,hdirty,hclean,hn,decide_true,Bool.and_self,Bool.false_and,
    Bool.toNat_true,Bool.toNat_false] at hcount
  rw [dirtyPages,he]
  exact hcount

namespace Sees
variable {n : ℕ} {r : Place} {f : IdealFile} {held : List ℕ} {s : System}

lemma flushMatch_clean (h : Sees n r f held s) (budget : ℕ) (hb : dirtyPages n s≤budget) :
    wp (pagecacheFlushMatch (fun s e => pagecacheInodeSame s e.inode n) budget)
      (fun _ s' => Sees n r f held s' ∧ dirtyPages n s'=0) (Sees n r f held) s := by
  induction budget generalizing s with
  | zero => exact ⟨h,by omega⟩
  | succ budget ih =>
    rw [pagecacheFlushMatch,wp_gets_bind]
    split
    · rename_i ho
      refine ⟨h,?_⟩
      by_contra hne
      obtain ⟨i,hi⟩ := Slots.count_pos.1 (Nat.pos_of_ne_zero hne)
      obtain ⟨e,hi,he⟩ := (Option.any_eq_true _ _).1 hi
      simp only [Bool.and_eq_true,decide_eq_true_eq] at he
      have := oldestEntry_isSome (c := s.cache)
        (fun e => e.dirty && pagecacheInodeSame s e.inode n) hi
        (by simp [pagecacheInodeSame,he.1,he.2,inodeSame_self])
      rw [id_eq] at ho
      rw [ho] at this
      cases this
    · rename_i i e ho
      obtain ⟨hi,hsel⟩ := oldestEntry_eq_some ho
      simp only [Bool.and_eq_true,id_eq] at hi hsel
      rw [wp_bind]
      rw [notingResult,wp_bind,wp_onFail]
      refine wp_mono (wp_and (h.entryWriteback hi) entryWriteback_entries) (fun _ s1 hs1 => ?_)
        fun s1 hs1 => hs1.1.touch _ (entries_noteResult _ _)
      obtain ⟨h1,t,he1⟩ := hs1
      rw [wp_modify]
      have hcount := dirtyPages_put hi hsel.1 (h.inv.alone _ hsel.2) rfl he1
      refine ih (h1.touch _ (entries_noteResult _ _)) ?_
      have hsame : dirtyPages n (s1.setCache (pagecacheNoteWritebackResult true s1.cache))
          = dirtyPages n s1 := by
        rw [dirtyPages,dirtyPages]
        change Slots.count _ (pagecacheNoteWritebackResult true s1.cache).entries=_
        rw [entries_noteResult]
      omega

lemma flushInode (h : Sees n r f held s) : wp (pagecacheFlushInode n)
    (fun _ s' => Sees n r f held s' ∧
      ∀ j e, s'.cache.entries j=some e → e.inode=n → e.dirty=false) (Sees n r f held) s :=
  wp_imp (h.flushMatch_clean _ (dirtyPages_le n s)) fun _ _ h' =>
    ⟨h'.1,fun _ _ hj he => clean_of_dirtyPages h'.2 hj he⟩

end Sees

lemma entry_pa_aligned {held : List ℕ} (h : s.memView.Ok held) {j : CacheIx} (hj : s.cache.entries j=some e) : e.pa%pageSize=0 :=
  h.aligned (h.refs_own (memView_entry_own hj))

/-- The cache while the file is cut: `f` is the file that is left, the slots of `l` are still to be
looked at, and the inodes and the layer below are those of `s₀`. -/
structure Cutting (n : ℕ) (f : IdealFile) (held : List ℕ) (s0 : System)
    (l : List CacheIx) (s : System) : Prop
    extends SameDisk s0 s, Paged n s.cache.entries where
  ok : s.memView.Ok held
  cached : ∀ j e, s.cache.entries j=some e → e.inode=n → ∀ k, k<pageSize →
    (j∈l → e.fileOff+k<f.size) → s.phys.mem (e.pa+k)=f.bytes (e.fileOff+k)

namespace Cutting
variable {n : ℕ} {f : IdealFile} {held : List ℕ} {s0 s s' : System} {i : CacheIx}
  {l : List CacheIx} {e : PageCacheEntry} {len : ℕ} {E : System → Prop}

section
variable (h : Cutting n f held s0 (i::l) s)
include h

lemma skip (hi : ∀ e, s.cache.entries i=some e → e.inode=n →
    ∀ k, k<pageSize → e.fileOff+k<f.size) : Cutting n f held s0 l s where
  toSameDisk := h.toSameDisk
  toPaged := h.toPaged
  ok := h.ok
  cached j e hj he k hk hl := h.cached j e hj he k hk fun hm => by
    rcases List.mem_cons.1 hm with rfl | hm
    · exact hi e hj he k hk
    · exact hl hm

lemma clear (hi : s.cache.entries i=some e) (he : e.inode=n)
    {t : ℕ} (hlen : ∀ k, k<pageSize → (k<len ↔ e.fileOff+k<f.size))
    (hok : s'.memView.Ok held) (hdisk : SameDisk s s')
    (hent : s'.cache.entries=s.cache.entries.put i {e with dirty := false, lastTouch := t})
    (hmem : s'.phys.mem=(s.phys.zeroTail e.pa len).mem) : Cutting n f held s0 l s' := by
  have hget {j : CacheIx} {d : PageCacheEntry} (hj : s'.cache.entries j=some d) :
      ∃ c, s.cache.entries j=some c ∧ d.inode=c.inode ∧ d.fileOff=c.fileOff ∧ d.pa=c.pa := by
    rcases Slots.put_eq_some.1 (hent ▸ hj) with ⟨rfl,rfl⟩ | ⟨-,hj⟩
    · exact ⟨e,hi,rfl,rfl,rfl⟩
    · exact ⟨d,hj,rfl,rfl,rfl⟩
  refine ⟨h.toSameDisk.trans hdisk,h.of_some hget,hok,fun j d hj hd k hk hl => ?_⟩
  · obtain ⟨c,hc,h1,h2,h3⟩ := hget hj
    rw [h1] at hd
    rw [h2] at hl
    rw [hmem,h2,h3]
    simp only [Phys.zeroTail,Buf.fill]
    by_cases hji : j=i
    · subst hji
      obtain rfl : c=e := Option.some.inj (hc.symm.trans hi)
      by_cases hkl : k<len
      · rw [if_neg (by omega)]
        exact h.cached j c hi he k hk fun _ => (hlen k hk).1 hkl
      · rw [if_pos (by omega)]
        exact (f.beyond _ (by have := hlen k hk; omega)).symm
    · have hpa : c.pa≠e.pa := fun hpa => hji (h.apart j i c e hc hi hd hpa)
      have ha := entry_pa_aligned h.ok hc
      have ha' := entry_pa_aligned h.ok hi
      simp only [pageSize] at *
      rw [if_neg (by omega)]
      exact h.cached j c hc hd k hk fun hm => hl ((List.mem_cons.1 hm).resolve_left hji)

lemma drop (hok : s'.memView.Ok held) (hdisk : SameDisk s s')
    (hent : s'.cache.entries=s.cache.entries.clear i)
    (hmem : s'.phys.mem=s.phys.mem) : Cutting n f held s0 l s' := by
  have hget {j : CacheIx} {d : PageCacheEntry} (hj : s'.cache.entries j=some d) :
      j≠i ∧ s.cache.entries j=some d := Slots.clear_eq_some.1 (hent ▸ hj)
  refine ⟨h.toSameDisk.trans hdisk,h.of_some fun hj => ⟨_,(hget hj).2,rfl,rfl,rfl⟩,hok,fun j d hj hd k hk hl => ?_⟩
  rw [hmem]
  refine h.cached j d (hget hj).2 hd k hk fun hm => ?_
  exact hl ((List.mem_cons.1 hm).resolve_left (hget hj).1)

lemma wp_clear (hi : s.cache.entries i=some e) (he : e.inode=n) (hlen : ∀ k, k<pageSize → (k<len ↔ e.fileOff+k<f.size)) :
    wp (modifyPhys (fun m => m.zeroTail e.pa len) >>= fun _ => entryClean i e)
      (fun _ => Cutting n f held s0 l) E s := by
  rw [modifyPhys,wp_modify_bind,entryClean,wp_bind,pagecacheTouchTick,wp_modify_bind,wp_gets,wp_modify]
  refine h.clear hi he hlen ?_ ⟨rfl,rfl,rfl⟩ rfl rfl
  have hw : s.memView.Ok held → ((s.setPhys (s.phys.zeroTail e.pa len)).memView).Ok held := fun hok =>
    memInv_ok.writeCached hok ⟨i,e,hi,rfl⟩ .zeroTail
  have hset (d : PageCacheEntry) (hd : d.pa=e.pa) := memInv_ok.setEntry (hw h.ok) hi hd
  exact hset {e with dirty := false, lastTouch := _} rfl

lemma step (halone : ∀ m, s0.inodeSame m n=true → m=n) : wp (truncateEntry n f.size i) (fun _ => Cutting n f held s0 l) E s := by
  rw [truncateEntry,wp_gets_bind,id_eq]
  split
  · rename_i hi
    exact h.skip fun e hi' => by cases hi.symm.trans hi'
  rename_i e hi
  have hid (m : ℕ) : (s.inodes m).ident=(s0.inodes m).ident := by rw [h.inodes]
  refine wp_when (fun hsame => ?_) fun hsame => h.skip fun d hd hdn => ?_
  · have he : e.inode=n := halone _ (by rw [← inodeSame_congr hid]; exact hsame)
    have haligned := h.aligned i e hi he
    split_ifs with heof hrefs
    · rw [funext fun m : Phys => Sees.zeroPage_eq m e.pa]
      exact h.wp_clear hi he fun k hk => by omega
    · rw [modifyPhys,wp_modify_bind,wp_modify]
      refine h.drop ?_ ⟨rfl,rfl,rfl⟩ rfl mem_pmmFreePage
      exact (memInv_ok.dropEntry h.ok hi).free
    · refine wp_when (fun hc => ?_) fun hc => h.skip fun d hd hdn k hk => ?_
      · simp only [decide_eq_true_eq] at hc
        have hmod := alignDown_add_mod f.size
        exact h.wp_clear hi he fun k hk => by omega
      · obtain rfl : e=d := Option.some.inj (hi.symm.trans hd)
        have hc := of_decide_eq_false hc
        simp only [alignDown,pageSize] at *
        omega
  · obtain rfl : e=d := Option.some.inj (hi.symm.trans hd)
    rw [hdn] at hsame
    simp [pagecacheInodeSame,inodeSame_self] at hsame

end

end Cutting

namespace Sees
variable {n : ℕ} {r : Place} {f : IdealFile} {held : List ℕ} {s : System} {E : System → Prop} {size : ℕ}

lemma truncateInode (h : Sees n r f held s)
    (hclean : ∀ j e, s.cache.entries j=some e → e.inode=n → e.dirty=false) (size : ℕ)
    (s0 : System) (hs0 : s0.memView=s.memView) (hid : ∀ m, (s0.inodes m).ident=(s.inodes m).ident)
    (hsize : (s0.inodes n).size=size) (hst : Storable n r s0)
    (hb : ∀ i, i<size → s0.backing (s.fileId n) i =
      if i<f.size then s.backing (s.fileId n) i else 0) :
    wp (pagecacheTruncateInode n size) (fun _ => Sees n r (f.truncate size) held) E s0 := by
  have hent : s0.cache.entries=s.cache.entries := congrArg MemView.entries hs0
  have hphys : s0.phys=s.phys := congrArg MemView.phys hs0
  have hn := hid n
  have htype : (s0.inodes n).type=.file := (congrArg Prod.fst hn).trans h.inv.type
  have halone (m : ℕ) (hm : s0.inodeSame m n=true) : m=n :=
    h.inv.alone m (by rw [← inodeSame_congr hid]; exact hm)
  have hstart : Cutting n (f.truncate size) held s0 (List.finRange maxFileCachePages) s0 := by
    refine ⟨⟨rfl,rfl,rfl⟩,hent ▸ h.inv.toPaged,hs0 ▸ h.ok,?_⟩
    rw [hent,hphys]
    intro j e hj he k hk hlt
    have hlt : e.fileOff+k<size := hlt (List.mem_finRange j)
    rw [h.inv.cached j e hj he k hk]
    exact (if_pos hlt).symm
  rw [pagecacheTruncateInode,wp_gets_bind]
  refine wp_when (fun _ => ?_) fun hc => ?_
  · refine wp_imp (wp_forEach (Cutting n (f.truncate size) held s0)
      (fun i l s hs => hs.step halone) _ _ hstart) fun _ s' h' => ⟨h'.ok,?_⟩
    refine ⟨(h.inv.edit hid hst hsize).same h'.toSameDisk,h'.toPaged,
      fun j e hj he k hk => h'.cached j e hj he k hk (by simp),fun i _ => ?_⟩
    change (if i<size then _ else 0)=if i<size then f.bytes i else 0
    refine ite_congr rfl (fun hi => ?_) fun _ => rfl
    rw [h'.fileId,fileId_congr hid,h'.backing,hb i hi]
    split_ifs with hlt
    · refine h.inv.stored hlt fun j e hj he hd => ?_
      rw [hclean j e hj he] at hd
      cases hd
    · exact (f.beyond i (by omega)).symm
  · simp [pagecacheInodeSupported,htype] at hc

lemma setSize (h : Sees n ⟨.mem,size,false,0⟩ f held s)
    (hclean : ∀ j e, s.cache.entries j=some e → e.inode=n → e.dirty=false) :
    wp (Prog.modify (clearBacking n f.size size) >>= fun _ =>
        Prog.modify (fun s => s.setInode n fun ino => {ino with size := size}) >>= fun _ =>
        pagecacheTruncateInode n size)
      (fun _ => Sees n .memfs (f.truncate size) held) E s := by
  rw [wp_modify_bind,wp_modify_bind]
  have hid (m : ℕ) : (((clearBacking n f.size size s).setInode n fun ino =>
      {ino with size := size}).inodes m).ident=(s.inodes m).ident := by
    rw [FileInv.ident_setInode]
    · rfl
    · exact fun _ => rfl
  refine wp_imp (h.truncateInode hclean size _ ?_ hid ?_ ⟨?_,fun hk => ?_,fun hk => ?_,fun hs => ?_⟩
    fun i hi => ?_) fun _ s' h' => h'.noRoom
  · rfl
  · simp only [System.setInode,update_self]
  · exact (fsKind_congr (hid n)).trans h.inv.storable.kind
  · obtain ⟨hdata,-,hroom,-⟩ := h.inv.storable.mem h.inv.storable.kind
    simp only [clearBacking,System.setInode,update_self]
    exact ⟨hdata,hroom,hroom,fun i _ hi => absurd hi (Nat.not_lt_zero i)⟩
  · cases hk.symm.trans ((fsKind_congr (hid n)).trans h.inv.storable.kind)
  · cases hs
  · simp only [clearBacking,System.setInode,update_self]
    by_cases hlt : i<f.size
    · rw [if_neg (by omega),if_pos hlt]
    · rw [if_pos (by omega),if_neg hlt]

lemma truncate (h : Sees n .memfs f held s) (size : ℕ) : wp (fsTruncate n size)
    (fun _ => Sees n .memfs (f.truncate size) held) (Sees n .memfs f held) s := by
  rw [fsTruncate,wp_gets_bind,if_neg (by rw [h.inv.storable.kind]; decide)]
  refine wp_require_of h fun _ => ?_
  rw [wp_bind]
  refine wp_imp h.flushInode fun _ s1 hs1 => ?_
  obtain ⟨h1,hclean⟩ := hs1
  rw [wp_gets_bind,wp_bind,h1.inv.size]
  refine wp_when (fun _ => ?_) fun hc => ?_
  · refine wp_imp (h1.ensureCapacity size) fun _ s2 hs2 => hs2.1.setSize fun j e hj he => ?_
    rw [hs2.2] at hj
    exact hclean j e hj he
  · have hc := of_decide_eq_false hc
    exact Sees.setSize (h1.place rfl id (fun _ => Nat.not_lt.1 hc) h1.clear) hclean

/-- The last steps for an ext4 file: the record and the inode have the new size, and nothing is left
beyond it. -/
lemma finishExt4 (h : Sees n (.ext4 true) f held s)
    (hclean : ∀ j e, s.cache.entries j=some e → e.inode=n → e.dirty=false) (s0 : System)
    (hview : s0.memView=s.memView) (hid : ∀ m, (s0.inodes m).ident=(s.inodes m).ident)
    (hsize : (s0.inodes n).size=size) (hmeta : (s0.inodes n).metaSize=size) (hio : s0.ioOk=s.ioOk)
    (hb : ∀ i, s0.backing (s.fileId n) i=if i<size then s.backing (s.fileId n) i else 0) : wp (backingTransfer >>= fun _ => pagecacheTruncateInode n size)
      (fun _ => Sees n (.ext4 true) (f.truncate size) held) E s0 := by
  obtain ⟨hold,hok⟩ := h.inv.storable.settled rfl
  obtain ⟨-,hbeyond⟩ := h.inv.storable.ext4 h.inv.storable.kind
  rw [wp_bind]
  refine wp_backingTransfer (fun _ => ?_) fun hno => absurd hno (by rw [hio]; simp [hok])
  have hkind : (s0.inodes n).fsKind=.ext4 := (fsKind_congr (hid n)).trans h.inv.storable.kind
  refine h.truncateInode hclean size {s0 with ioCount := s0.ioCount+1} hview hid hsize
    ⟨hkind,fun hk => ?_,fun _ => ⟨?_,fun i hi => ?_⟩,fun _ => ⟨?_,?_⟩⟩ fun i hi => ?_
  · cases hk.symm.trans hkind
  · exact (hmeta.trans hsize.symm).le
  · have hi : size ≤ i := hmeta ▸ hi
    change s0.backing (s0.fileId n) i=0
    rw [fileId_congr hid,hb,if_neg (by omega)]
  · exact hmeta.trans hsize.symm
  · change ∀ k, s0.ioOk k=true
    rw [hio]
    exact hok
  · change s0.backing (s.fileId n) i=_
    rw [hb,if_pos hi]
    split_ifs with hlt
    · rfl
    · exact hbeyond i (by rw [hold,h.inv.size]; omega)

lemma truncateExt4 (h : Sees n (.ext4 true) f held s) (size : ℕ) : wp (fsTruncate n size)
    (fun _ => Sees n (.ext4 true) (f.truncate size) held) (Sees n (.ext4 true) f held) s := by
  rw [fsTruncate,wp_gets_bind,if_pos h.inv.storable.kind,wp_bind]
  refine wp_imp h.flushInode fun _ s1 hs1 => ?_
  obtain ⟨h1,hclean⟩ := hs1
  obtain ⟨hold,hok⟩ := h1.inv.storable.settled rfl
  obtain ⟨-,hbeyond⟩ := h1.inv.storable.ext4 h1.inv.storable.kind
  have hfail {k : ℕ} {P : Prop} (hno : s1.ioOk k=false) : P := by
    rw [hok] at hno
    cases hno
  rw [wp_bind]
  refine wp_backingTransfer (fun _ => ?_) hfail
  rw [wp_bind,ext4Truncate,wp_gets_bind]
  refine wp_require_bind (fun _ => ?_) fun _ => ⟨h1.ok,h1.inv.ioCount _⟩
  by_cases hsame : size=(s1.inodes n).metaSize
  · rw [if_pos hsame,wp_pure]
    refine h1.finishExt4 hclean {s1 with ioCount := s1.ioCount+1} rfl (fun _ => rfl) (hold ▸ hsame.symm) hsame.symm rfl fun i => ?_
    split_ifs with hi
    · rfl
    · exact hbeyond i (by omega)
  · rw [if_neg hsame]
    -- the record is written with the new size, then the inode gets it
    have hset (s2 : System) (hview : s2.memView=s1.memView) (hin : s2.inodes=s1.inodes)
        (hio : s2.ioOk=s1.ioOk)
        (hb : ∀ i, s2.backing (s1.fileId n) i=if i<size then s1.backing (s1.fileId n) i else 0) :
        wp (Prog.modify (fun s => s.setInode n fun ino => {ino with metaSize := size}) >>= fun _ =>
            backingTransfer >>= fun _ =>
            Prog.modify (fun s => s.setInode n fun ino => {ino with size := size}) >>= fun _ =>
            backingTransfer)
          (fun _ s' => wp (backingTransfer >>= fun _ => pagecacheTruncateInode n size)
            (fun _ => Sees n (.ext4 true) (f.truncate size) held) (Sees n (.ext4 true) f held) s')
          (Sees n (.ext4 true) f held) s2 := by
      have hfail {k : ℕ} {P : Prop} (hno : s2.ioOk k=false) : P := by
        rw [hio,hok] at hno
        cases hno
      rw [wp_modify_bind,wp_bind]
      refine wp_backingTransfer (fun _ => ?_) hfail
      rw [wp_modify_bind]
      refine wp_backingTransfer (fun _ => ?_) hfail
      apply h1.finishExt4 hclean
      · exact hview
      · intro m
        by_cases hm : m=n
        · subst hm
          simp only [System.setInode,update_self,hin,Inode.ident]
        · simp only [System.setInode,update_of_ne hm,hin]
      · simp only [System.setInode,update_self]
      · simp only [System.setInode,update_self]
      · exact hio
      · exact hb
    rw [wp_bind]
    refine wp_when (fun hlt => ?_) fun hlt => ?_
    · have hlt : size<(s1.inodes n).metaSize := of_decide_eq_true hlt
      rw [wp_bind]
      refine wp_backingTransfer (fun _ => ?_) hfail
      rw [wp_modify]
      apply hset
      · rfl
      · rfl
      · rfl
      · intro i
        change (update s1.backing (s1.fileId n) _) (s1.fileId n) i=_
        rw [update_self]
        by_cases hi : i<size
        · rw [if_neg (by omega),if_pos hi]
          rfl
        · rw [if_neg hi]
          split_ifs with hcut
          · rfl
          · have hcut : ¬(size ≤ i ∧ i<(s1.inodes n).metaSize) := hcut
            exact hbeyond i (by omega)
    · have hlt : ¬size<(s1.inodes n).metaSize := of_decide_eq_false hlt
      apply hset
      · rfl
      · rfl
      · rfl
      · intro i
        split_ifs with hi
        · rfl
        · exact hbeyond i (by omega)

lemma fsWrite {k : FsKind} {b : Bool} (h : Sees n ⟨k,0,b,0⟩ f held s) (offset : ℕ) (src : Buf) (len : ℕ)
    (hlen : len≠0 → offset+len<2^64) (hset : b=true → len≠0 → offset+len≤f.size) :
    wp (fsWrite n offset src len) (fun c s' => c≤len ∧ ∃ g, Landed n f g offset src len c s' ∧
        ((k=.mem → c≠0 → (∀ i, f.size ≤ i → i<alignDown offset → s.backing (s.fileId n) i=0) ∧
          Kept n f.size offset c s') → Sees n ⟨k,0,b,0⟩ g held s'))
      (Sees n ⟨k,0,b,0⟩ f held) s := by
  have hwrite {s : System} {room clear : ℕ} (h : Sees n ⟨k,room,b,clear⟩ f held s)
      (hroom : len≠0 → offset+len≤room) :
      wp (pagecacheWrite n offset src len) (fun c s' => c≤len ∧ ∃ g, Landed n f g offset src len c s' ∧
        ((k=.mem → c≠0 → alignDown offset≤clear ∧ Kept n f.size offset c s') → Sees n ⟨k,0,b,0⟩ g held s'))
      (Sees n ⟨k,0,b,0⟩ f held) s := by
    refine wp_mono (h.write offset src len hlen hroom hset) (fun c s' h' => ?_) fun _ h' => h'.noRoom
    obtain ⟨hc,g,hg,hs⟩ := h'
    exact ⟨hc,g,hg,fun hk => (hs hk).noRoom⟩
  rw [FuriOS.fsWrite,wp_gets_bind]
  split_ifs with hk htype
  · refine wp_require_of h fun _ => ?_
    have hkind : ¬k=.mem := fun hm => by cases (h.inv.storable.kind.symm.trans hk).symm.trans hm
    have h0 : Sees n ⟨k,offset+len,b,0⟩ f held s := h.place rfl id (fun hm => absurd hm hkind) h.clear
    refine wp_imp (hwrite h0 fun _ => le_rfl) fun c s' h' => ?_
    obtain ⟨hc,g,hg,hs⟩ := h'
    exact ⟨hc,g,hg,fun _ => hs fun hm => absurd hm hkind⟩
  · rw [h.inv.type] at htype
    cases htype
  · refine wp_require_of h fun _ => ?_
    rw [wp_bind]
    refine wp_when (fun _ => ?_) fun hc => ?_
    · refine wp_require_of h fun _ => ?_
      -- the array is asked for zeros before the request only when it has them
      by_cases hgap : k=.mem → ∀ i, f.size ≤ i → i<alignDown offset → s.backing (s.fileId n) i=0
      · have hclear : Sees n ⟨k,0,b,alignDown offset⟩ f held s :=
          h.place rfl id (fun _ => Nat.zero_le _) hgap
        refine wp_mono (hclear.ensureCapacity (offset+len)) (fun _ s1 h1 => ?_) fun _ h1 => h1.noRoom
        refine wp_imp (hwrite h1.1 fun _ => le_rfl) fun c s' h' => ?_
        obtain ⟨hc,g,hg,hs⟩ := h'
        exact ⟨hc,g,hg,fun hk => hs fun hm hc0 => ⟨le_rfl,(hk hm hc0).2⟩⟩
      · refine wp_imp (h.ensureCapacity (offset+len)) fun _ s1 h1 => ?_
        refine wp_imp (hwrite h1.1 fun _ => le_rfl) fun c s' h' => ?_
        obtain ⟨hc,g,hg,hs⟩ := h'
        refine ⟨hc,g,hg,fun hk => hs fun hm hc0 => absurd (fun _ => (hk hm hc0).1) hgap⟩
    · have hl : ¬len≠0 := fun hl => of_decide_eq_false hc (Nat.pos_of_ne_zero hl)
      refine wp_imp (hwrite h fun h0 => absurd h0 hl) fun c s' h' => ?_
      obtain ⟨hc,g,hg,hs⟩ := h'
      exact ⟨hc,g,hg,fun _ => hs fun _ hc0 => by omega⟩

lemma fsWrite_refused (h : Sees n .memfs f held s) (offset : ℕ) (src : Buf) {len : ℕ}
    (hlen : len≠0) (hlen' : len<2^64) (hend : 2^64≤offset+len) :
    wp (FuriOS.fsWrite n offset src len) (fun _ _ => False) (Sees n .memfs f held) s := by
  rw [FuriOS.fsWrite,wp_gets_bind,if_neg (by rw [h.inv.storable.kind]; decide),
    if_neg (by rw [h.inv.type]; decide)]
  refine wp_require_of h fun _ => ?_
  rw [wp_bind]
  refine wp_when (fun _ => ?_) fun hc => absurd (Nat.pos_of_ne_zero hlen) (of_decide_eq_false hc)
  refine wp_require_of h fun hc => ?_
  have hc := of_decide_eq_true hc
  omega

end Sees

end FuriOS
