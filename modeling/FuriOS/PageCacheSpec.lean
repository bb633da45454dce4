import FuriOS.Task.Isolation
import FuriOS.Task.Frames

/-! The page cache and the references to pages. The functions of the cache keep every property of
the memory that survives taking, copying and giving back pages; such a property is a `MemInv`. -/
namespace FuriOS
open Prog Function

/-- Only the contents of the page `p` differ. -/
structure Phys.Writes (m m' : Phys) (p : ℕ) : Prop where
  ok : m.Ok → m'.Ok
  refs : m'.pageRefs=m.pageRefs
  outside : m.SameOutside m' p

namespace Phys.Writes
variable {m : Phys} {p : ℕ}

lemma of_mem {b : Buf} (h : ∀ a, a<p ∨ p+pageSize≤a → b a=m.mem a) : m.Writes {m with mem := b} p :=
  ⟨fun h => ⟨h.nodup,h.free,h.used,h.low,h.curHigh,h.high⟩,rfl,h⟩

lemma zeroPage : m.Writes (m.zeroPage p) p := of_mem sameOutside_zeroPage

lemma zeroTail {n : ℕ} : m.Writes (m.zeroTail p n) p := of_mem sameOutside_zeroTail

lemma copyPage {q : ℕ} : m.Writes (m.copyPage p q) p := of_mem sameOutside_copyPage

lemma copyIn {src : Buf} {a n : ℕ} (hn : n≤pageSize) : m.Writes (m.copyIn p src a n) p :=
  of_mem (sameOutside_copyIn hn)

end Phys.Writes

/-- A property of the memory, given the references that the running function holds, that is kept
by what the page cache does with pages. -/
structure MemInv (J : List ℕ → MemView → Prop) : Prop where
  ok : ∀ {held v}, J held v → v.CacheOk held
  perm : ∀ {held held' v}, J held v → held.Perm held' → J held' v
  handed : ∀ {held v p ph}, J held v → Handed v.phys ph p → J (p::held) (v.setPhys ph)
  free : ∀ {held v p}, J (p::held) v → J held (v.setPhys (pmmFreePage p v.phys))
  refCached : ∀ {held v p}, J held v → v.cached p → J (p::held) (v.setPhys (pmmRefPage p v.phys))
  writeHeld : ∀ {held v p ph}, J (p::held) v → v.phys.pageRefs p=1 → v.phys.Writes ph p →
    J (p::held) (v.setPhys ph)
  writeCached : ∀ {held v p ph}, J held v → v.cached p → v.phys.Writes ph p → J held (v.setPhys ph)
  setEntry : ∀ {held v j c c'}, J held v → v.entries j=some c → c'.pa=c.pa →
    J held (v.setEntries (v.entries.put j c'))
  takeEntry : ∀ {held v j c}, J (c.pa::held) v → v.phys.pageRefs c.pa=1 → v.entries j=none →
    J held (v.setEntries (v.entries.put j c))
  dropEntry : ∀ {held v j c}, J held v → v.entries j=some c →
    J (c.pa::held) (v.setEntries (v.entries.clear j))
  protect : ∀ {held i c n off}, Preserves (fun s => J held s.memView ∧ s.cache.entries i=some c)
      (taskPagecacheWriteprotectShared n off)

section View
variable {P : MemView → Prop} {p : TaskM Unit}

lemma backingTransfer_view : Keeps System.memView backingTransfer :=
  .gets fun _ => .bind (.of_modify fun _ => rfl) fun _ => .of_require _

lemma storePage_view (n off src len : ℕ) : Keeps System.memView (pagecacheStorePage n off src len) := by
  unfold pagecacheStorePage
  refine .gets fun ino => .require fun _ => .ite ?_ (.ite (.ite ?_ ?_) ?_)
  · exact .require fun _ => .require fun _ =>
      backingTransfer_view.bind fun _ => .bind (.of_modify fun _ => rfl) fun _ => .of_modify fun _ => rfl
  · exact .of_pure _
  · exact .bind (.of_modify fun _ => rfl) fun _ => .of_modify fun _ => rfl
  · exact backingTransfer_view.bind fun _ => .require fun _ =>
      .bind (.of_modify fun _ => rfl) fun _ => backingTransfer_view.bind fun _ =>
      .bind (.of_modify fun _ => rfl) fun _ => .of_modify fun _ => rfl

lemma touchTick_view : Keeps System.memView pagecacheTouchTick :=
  .bind (.of_modify fun _ => rfl) fun _ => .of_gets _

lemma wp_touchTick {Q : ℕ → System → Prop} {E : System → Prop} {s : System}
    (h : ∀ tick s', s'.memView=s.memView → Q tick s') : wp pagecacheTouchTick Q E s := by
  rw [pagecacheTouchTick,wp_modify_bind,wp_gets]
  exact h _ _ rfl

lemma entries_noteResult (b : Bool) (c : PageCache) :
    (pagecacheNoteWritebackResult b c).entries=c.entries := by
  unfold pagecacheNoteWritebackResult
  split <;> rfl

lemma noteResult_view (b : Bool) (s : System) :
    (s.setCache (pagecacheNoteWritebackResult b s.cache)).memView=s.memView := by
  rw [memView_setCache,entries_noteResult]
  rfl

lemma notingResult_view {s : System} (hp : Ends (fun s => P s.memView) p s) :
    Ends (fun s => P s.memView) (notingResult p) s := by
  refine Ends.bind (.onFail hp fun s h => ?_) (fun _ h => h) fun _ s h => .of_modify ?_
  · rwa [noteResult_view]
  · rwa [noteResult_view]

end View

lemma oldestEntry_eq_some {c : PageCache} {sel : PageCacheEntry → Bool}
    {i : CacheIx} {e : PageCacheEntry} (h : oldestEntry c sel=some (i,e)) :
    c.entries i=some e ∧ sel e=true := by
  -- every candidate of the scan is an entry that is selected
  refine List.foldlRecOn (motive := fun best => ∀ i e, best=some (i,e) →
    c.entries i=some e ∧ sel e=true) _ _ (by simp) (fun best hb k _ i e he => ?_) i e h
  cases hk : c.entries k with
  | none =>
    rw [hk] at he
    exact hb i e he
  | some d =>
    rw [hk] at he
    dsimp only at he
    split_ifs at he with hsel
    · have hnew (he : some (k,d)=some (i,e)) : c.entries i=some e ∧ sel e=true := by
        obtain ⟨rfl,rfl⟩ := Prod.mk.inj (Option.some.inj he)
        exact ⟨hk,hsel⟩
      split at he
      · exact hnew he
      · split_ifs at he
        · exact hnew he
        · exact hb i e he
    · exact hb i e he

lemma writeprotectShared_phys (n off : ℕ) :
    Keeps System.phys (taskPagecacheWriteprotectShared n off) :=
  .of_preserves fun _ => preserves_writeprotect (fun _ _ _ _ h => h) n off

/-- The page `q` is held by a caller, with the only reference, and holds the bytes `b`. -/
def Keeping (J : List ℕ → MemView → Prop) (q : ℕ) (b : ℕ → UInt8) (held : List ℕ) (v : MemView) : Prop :=
  J (q::held) v ∧ v.phys.pageRefs q=1 ∧ ∀ k, k<pageSize → v.phys.mem (q+k)=b k

lemma MemInv.keeping {J : List ℕ → MemView → Prop} (hJ : MemInv J) (q : ℕ) (b : ℕ → UInt8) :
    MemInv (Keeping J q b) := by
  have hperm {held : List ℕ} {p : ℕ} : (q::p::held).Perm (p::q::held) := .swap p q held
  have hne {held : List ℕ} {v : MemView} {p : ℕ} (h : Keeping J q b (p::held) v) : p≠q := by
    rintro rfl
    exact (hJ.ok h.1).not_held h.2.1 List.mem_cons_self
  have hcached {held : List ℕ} {v : MemView} {p : ℕ} (h : Keeping J q b held v) (hp : v.cached p) :
      p≠q := by
    rintro rfl
    obtain ⟨j,c,hj,rfl⟩ := hp
    exact (hJ.ok h.1).not_entry h.2.1 hj rfl
  have hmem {held : List ℕ} {v : MemView} {p : ℕ} {ph : Phys} (h : Keeping J q b held v)
      (hp : p%pageSize=0) (hpq : p≠q) (hout : v.phys.SameOutside ph p) :
      ∀ k, k<pageSize → ph.mem (q+k)=b k := by
    intro k hk
    rw [← h.2.2 k hk]
    exact hout.agree hp ((hJ.ok h.1).aligned (by rw [h.2.1]; decide)) hpq.symm _ (by omega) (by omega)
  refine ⟨fun h => ?_,fun h hp => ⟨hJ.perm h.1 (hp.cons q),h.2⟩,fun h hp => ?_,fun h => ?_,
    fun h hp => ?_,fun h hp hw => ?_,fun h hp hw => ?_,fun h hj hc => ⟨hJ.setEntry h.1 hj hc,h.2⟩,
    fun h hp hj => ⟨hJ.takeEntry (hJ.perm h.1 hperm) hp hj,h.2⟩,
    fun h hj => ⟨hJ.perm (hJ.dropEntry h.1 hj) hperm.symm,h.2⟩,?_⟩
  · exact (hJ.ok h.1).forget
  · rename_i held v p ph
    have hpq : q≠p := by
      rintro rfl
      exact absurd hp.fresh (by rw [h.2.1]; decide)
    refine ⟨hJ.perm (hJ.handed h.1 hp) hperm.symm,?_,
      hmem h (pageIndexed_iff.1 hp.indexed).1 hpq.symm hp.outside⟩
    rw [MemView.phys_setPhys,hp.refs,update_of_ne hpq,h.2.1]
  · refine ⟨hJ.free (hJ.perm h.1 hperm),?_,fun k hk => ?_⟩
    · have hok := hJ.ok (hJ.perm h.1 hperm)
      rw [MemView.phys_setPhys,refs_pmmFreePage hok.phys hok.refs_ne,
        update_of_ne (hne h).symm,h.2.1]
    · rw [MemView.phys_setPhys,mem_pmmFreePage,h.2.2 k hk]
  · refine ⟨hJ.perm (hJ.refCached h.1 hp) hperm.symm,?_,fun k hk => ?_⟩
    · obtain ⟨j,c,hj,rfl⟩ := id hp
      have hrefs := (hJ.ok h.1).refs_entry hj
      rw [MemView.phys_setPhys,refs_pmmRefPage (hJ.ok h.1).phys hrefs,
        update_of_ne (hcached h hp).symm,h.2.1]
    · rw [MemView.phys_setPhys,mem_pmmRefPage,h.2.2 k hk]
  · refine ⟨hJ.perm (hJ.writeHeld (hJ.perm h.1 hperm) hp hw) hperm.symm,?_,
      hmem h ((hJ.ok h.1).aligned (by rw [hp]; decide)) (hne h) hw.outside⟩
    rw [MemView.phys_setPhys,hw.refs,h.2.1]
  · obtain ⟨j,c,hj,rfl⟩ := id hp
    have hrefs := (hJ.ok h.1).refs_entry hj
    refine ⟨hJ.writeCached h.1 hp hw,?_,hmem h ((hJ.ok h.1).aligned hrefs) (hcached h hp) hw.outside⟩
    rw [MemView.phys_setPhys,hw.refs,h.2.1]
  · intro held i c n off s hs
    have hphys := writeprotectShared_phys n off s
    obtain ⟨hJs,hi⟩ := hJ.protect (n := n) s ⟨hs.1.1,hs.2⟩
    refine ⟨⟨hJs,?_⟩,hi⟩
    rw [memView_phys,hphys]
    exact hs.1.2

lemma backingLen_le (ino : Inode) (off : ℕ) : backingLen ino off≤pageSize := by
  unfold backingLen
  split_ifs <;> exact min_le_left _ _

namespace MemInv
variable {J : List ℕ → MemView → Prop} (hJ : MemInv J) {held : List ℕ} {s : System}
include hJ

lemma alloc (h : J held s.memView) : wp (onPhys pmmAllocPage)
    (fun p s' => ∃ ph, Handed s.phys ph p ∧ s'=s.setPhys ph) (fun s' => s'=s) s := by
  rw [onPhys,wp_zoom]
  refine wp_mono (wp_pmmAllocPage (hJ.ok h).phys) (fun p ph hp => ⟨ph,hp,rfl⟩) fun ph hph => ?_
  rw [hph]
  rfl

lemma allocReserve (h : J held s.memView) : wp allocAboveReserve
    (fun p s' => ∃ ph, Handed s.phys ph p ∧ s'=s.setPhys ph) (fun s' => s'=s) s := by
  rw [allocAboveReserve,wp_gets_bind]
  exact wp_require_bind (fun _ => hJ.alloc h) fun _ => rfl

lemma entryWriteback {i : CacheIx} {e : PageCacheEntry} (h : J held s.memView)
    (hi : s.cache.entries i=some e) :
    Ends (fun s' => J held s'.memView) (pagecacheEntryWriteback i e) s := by
  have hwrite (f : Phys → Phys) (hf : ∀ m, m.Writes (f m) e.pa) :
      Preserves (fun s => J held s.memView ∧ s.cache.entries i=some e) (modifyPhys f) :=
    .of_modify fun s hs => ⟨hJ.writeCached hs.1 ⟨i,e,hs.2,rfl⟩ (hf s.phys),hs.2⟩
  have hview {α : Type} {p : TaskM α} (hp : Keeps System.memView p) :
      Preserves (fun s => J held s.memView ∧ s.cache.entries i=some e) p :=
    .of_keeps (P := fun v => J held v ∧ v.entries i=some e) hp
  have hclean (s : System) (hs : J held s.memView ∧ s.cache.entries i=some e) :
      Ends (fun s' => J held s'.memView) (entryClean i e) s :=
    Ends.bind (.of_preserves (hview touchTick_view) hs) (fun _ h => h.1) fun tick s' hs' =>
      .of_modify (hJ.setEntry hs'.1 hs'.2 rfl)
  unfold pagecacheEntryWriteback
  refine Ends.gets_bind (Ends.gets_bind ?_)
  split_ifs
  · refine Ends.bind (I := fun s => J held s.memView ∧ s.cache.entries i=some e) ?_
      (fun _ h => h.1) fun _ => hclean
    refine .of_preserves (.when fun _ => ?_) ⟨h,hi⟩
    exact .bind (hwrite _ fun _ => .zeroPage) fun _ => hJ.protect
  · refine Ends.bind (I := fun s => J held s.memView ∧ s.cache.entries i=some e)
      (.of_preserves (hview (storePage_view _ _ _ _)) ⟨h,hi⟩) (fun _ h => h.1) fun _ s1 hs1 => ?_
    refine Ends.bind (I := fun s => J held s.memView ∧ s.cache.entries i=some e)
      (.of_preserves (.when fun _ => hwrite _ fun _ => .zeroTail) hs1) (fun _ h => h.1) fun _ s2 hs2 => ?_
    exact Ends.bind (.of_preserves hJ.protect hs2) (fun _ h => h.1) fun _ => hclean

lemma flushMatch (sel : System → PageCacheEntry → Bool) (budget : ℕ) :
    Preserves (fun s => J held s.memView) (pagecacheFlushMatch sel budget) := by
  induction budget with
  | zero => exact .of_pure _
  | succ budget ih =>
    unfold pagecacheFlushMatch
    refine Preserves.of_ends fun s hs => Ends.gets_bind ?_
    split
    · exact .of_pure hs
    · rename_i i e ho
      have hi := (oldestEntry_eq_some ho).1
      exact Ends.bind (notingResult_view (hJ.entryWriteback hs hi)) (fun _ h => h) fun _ s' hs' =>
        .of_preserves ih hs'

lemma slot (h : J held s.memView) : wp pagecacheSlot
    (fun i s' => J held s'.memView ∧ s'.cache.entries i=none ∧ s'.phys.mem=s.phys.mem ∧
      ∀ q, ¬s.memView.cached q → s'.phys.pageRefs q=s.phys.pageRefs q)
    (fun s' => J held s'.memView) s := by
  rw [pagecacheSlot,wp_gets_bind]
  cases hf : Slots.free? s.cache.entries with
  | some i => exact ⟨h,Slots.free?_eq_some hf,rfl,fun _ _ => rfl⟩
  | none =>
    dsimp only
    rw [wp_gets_bind]
    split
    · exact h
    · rename_i i e ho
      have hi : s.cache.entries i=some e := (oldestEntry_eq_some ho).1
      have hrefs : s.phys.pageRefs e.pa≠0 :=
        (hJ.ok h).refs_entry hi
      rw [wp_bind]
      refine wp_mono (Ends.wp (Ends.when (J := fun s' => s'.memView=s.memView)
        (fun _ => notingResult_view (P := fun v => v=s.memView) (Keeps.ends (storePage_view _ _ _ _) _))
        fun _ => rfl)) (fun _ s1 hs1 => ?_) fun s1 hs1 => ?_
      · have hphys : s1.phys=s.phys := congrArg MemView.phys hs1
        have hentries : s1.cache.entries=s.cache.entries := congrArg MemView.entries hs1
        have hdrop := hJ.dropEntry h hi
        rw [modifyPhys,wp_modify_bind,wp_modify_bind,wp_pure]
        have hview : ((s1.setPhys (pmmFreePage e.pa s1.phys)).setCache {(s1.setPhys
            (pmmFreePage e.pa s1.phys)).cache with entries := s1.cache.entries.clear i}).memView
            = (s.memView.setEntries (s.memView.entries.clear i)).setPhys (pmmFreePage e.pa s.phys) := by
          rw [memView_setCache,memView_setPhys,hs1,hphys,hentries]
          rfl
        refine ⟨?_,Slots.clear_self,?_,fun q hq => ?_⟩
        · exact hview ▸ hJ.free hdrop
        · exact mem_pmmFreePage.trans (congrArg Phys.mem hphys)
        · have hne : q≠e.pa := fun he => hq ⟨i,e,hi,he.symm⟩
          change (pmmFreePage e.pa s1.phys).pageRefs q=_
          rw [hphys,refs_pmmFreePage (m := s.phys) (hJ.ok h).phys hrefs,update_of_ne hne]
      · rwa [hs1]

lemma newPage (h : J held s.memView) : wp pagecacheNewPage
    (fun p s' => J (p::held) s'.memView ∧ s'.phys.pageRefs p=1) (fun s' => J held s'.memView) s := by
  have hdone {s : System} (h : J held s.memView) {p : ℕ} {ph : Phys} (hp : Handed s.phys ph p) :
      J (p::held) (s.setPhys ph).memView ∧ (s.setPhys ph).phys.pageRefs p=1 :=
    ⟨hJ.handed h hp,by simp [hp.refs]⟩
  rw [pagecacheNewPage,wp_bind,wp_attempt]
  refine wp_mono (hJ.alloc h) ?_ ?_
  · rintro p s' ⟨ph,hp,rfl⟩
    exact hdone h hp
  · rintro s' rfl
    rw [wp_gets_bind]
    refine wp_require_of h fun _ => ?_
    rw [wp_bind]
    refine wp_imp (hJ.slot h) fun i s1 hs1 => ?_
    refine wp_mono (hJ.alloc hs1.1) ?_ ?_
    · rintro p s' ⟨ph,hp,rfl⟩
      exact hdone hs1.1 hp
    · rintro s' rfl
      exact hs1.1

lemma loadPage {p : ℕ} (n off : ℕ) : Preserves
    (fun s => J (p::held) s.memView ∧ s.phys.pageRefs p=1) (pagecacheLoadPage n off p) := by
  have hwrite (f : Phys → Phys) (hf : ∀ m : Phys, m.Writes (f m) p) : Preserves
      (fun s => J (p::held) s.memView ∧ s.phys.pageRefs p=1) (modifyPhys f) := by
    refine .of_modify fun s hs => ⟨hJ.writeHeld hs.1 hs.2 (hf s.phys),?_⟩
    rw [System.phys_setPhys,(hf s.phys).refs,hs.2]
  have htransfer : Preserves (fun s => J (p::held) s.memView ∧ s.phys.pageRefs p=1)
      backingTransfer :=
    .of_keeps (P := fun v => J (p::held) v ∧ v.phys.pageRefs p=1) backingTransfer_view
  unfold pagecacheLoadPage
  refine .gets fun ino => .require fun _ =>
    .bind (hwrite _ fun _ => .zeroPage) fun _ => .require fun _ =>
    .require fun _ => .bind (.when fun _ => htransfer) fun _ =>
    .gets fun src => hwrite _ fun _ => .copyIn (backingLen_le ino off)

lemma create (n off : ℕ) (h : J held s.memView) : wp (pagecacheCreate n off)
    (fun p s' => J (p::held) s'.memView ∧
      ∃ j c, s'.cache.entries j=some c ∧ c.inode=n ∧ c.fileOff=off ∧ c.pa=p)
    (fun s' => J held s'.memView) s := by
  rw [pagecacheCreate,wp_bind]
  refine wp_imp (hJ.newPage h) fun p s1 hs1 => ?_
  rw [wp_bind,wp_onFail,wp_bind]
  refine wp_mono ((hJ.loadPage n off).wp hs1) (fun _ s2 hs2 => ?_) fun s2 hs2 => hJ.free hs2.1
  refine wp_mono (hJ.slot hs2.1) (fun j s3 hs3 => ?_) fun s3 hs3 => hJ.free hs3
  obtain ⟨h3,hj,-,hrefs⟩ := hs3
  have hp : s3.phys.pageRefs p=1 := (hrefs p fun hc => by
    obtain ⟨k,c,hk,rfl⟩ := hc
    exact (hJ.ok hs2.1).not_entry hs2.2 hk rfl).trans hs2.2
  rw [wp_bind]
  refine wp_touchTick fun tick s4 hs4 => ?_
  have htake := hJ.takeEntry (c := ⟨n,off,p,tick,false⟩) (j := j) h3 hp hj
  rw [← hs4] at htake
  rw [wp_modify_bind,modifyPhys,wp_modify_bind,wp_pure]
  refine ⟨?_,j,_,Slots.put_self,rfl,rfl,rfl⟩
  exact hJ.refCached htake ⟨j,_,Slots.put_self,rfl⟩

lemma getOrCreate (n off : ℕ) (h : J held s.memView) : wp (pagecacheGetOrCreate n off)
    (fun p s' => J (p::held) s'.memView ∧
      ∃ j c, s'.cache.entries j=some c ∧ pagecacheInodeSame s c.inode n=true ∧ c.fileOff=off ∧
        c.pa=p)
    (fun s' => J held s'.memView) s := by
  rw [pagecacheGetOrCreate,wp_gets_bind]
  refine wp_require_of h fun _ => ?_
  split
  · rename_i i hit hf
    obtain ⟨hi,hsel⟩ := Slots.find?_eq_some hf
    obtain ⟨hsame,hoff⟩ := Bool.and_eq_true_iff.1 hsel
    rw [wp_bind]
    refine wp_touchTick fun tick s1 hs1 => ?_
    have hset : J held (s.memView.setEntries (s.memView.entries.put i {hit with lastTouch := tick})) :=
      hJ.setEntry h hi rfl
    rw [← hs1] at hset
    rw [wp_modify_bind,modifyPhys,wp_modify_bind,wp_pure]
    refine ⟨?_,i,_,Slots.put_self,hsame,of_decide_eq_true hoff,rfl⟩
    exact hJ.refCached hset ⟨i,_,Slots.put_self,rfl⟩
  · refine wp_imp (hJ.create n off h) fun p s' hs' => ?_
    obtain ⟨hJ',j,c,hj,hn,hoff,hpa⟩ := hs'
    refine ⟨hJ',j,c,hj,?_,hoff,hpa⟩
    simp [pagecacheInodeSame,System.inodeSame,hn]

lemma privateFilePage (n off : ℕ) (h : J held s.memView) : wp (privateFilePage n off)
    (fun p s' => J (p::held) s'.memView ∧ s'.phys.pageRefs p=1 ∧
      ∃ j c, s'.cache.entries j=some c ∧ pagecacheInodeSame s c.inode n=true ∧
        c.fileOff=off ∧ ∀ k, k<pageSize → s'.phys.mem (p+k)=s'.phys.mem (c.pa+k))
    (fun s' => J held s'.memView) s := by
  rw [FuriOS.privateFilePage,wp_bind]
  refine wp_mono (hJ.allocReserve h) ?_ ?_
  · rintro p s1 ⟨ph,hp,rfl⟩
    have hkeep : Keeping J p (fun _ => 0) held (s.setPhys ph).memView :=
      ⟨hJ.handed h hp,by simp [hp.refs],hp.zero⟩
    rw [wp_bind,wp_onFail]
    refine wp_mono ((hJ.keeping p _).getOrCreate n off hkeep) ?_ fun s2 h2 => hJ.free h2.1
    rintro pa s2 ⟨⟨h2,hrefs,-⟩,j,c,hj,hsame,hoff,rfl⟩
    have hok := hJ.ok h2
    have hpa : s2.phys.pageRefs c.pa≠0 := hok.refs_entry hj
    have hne : c.pa≠p := by
      rintro rfl
      exact hok.not_held hrefs List.mem_cons_self
    have hcopy := hJ.writeHeld h2 hrefs (.copyPage (q := c.pa))
    have hfree := hJ.free (hJ.perm hcopy (.swap c.pa p held))
    rw [modifyPhys,wp_modify_bind,modifyPhys,wp_modify_bind,wp_pure]
    refine ⟨hfree,?_,j,c,hj,hsame,hoff,fun k hk => ?_⟩
    · change (pmmFreePage c.pa (s2.phys.copyPage p c.pa)).pageRefs p=1
      rw [refs_pmmFreePage (m := s2.phys.copyPage p c.pa) (hJ.ok hcopy).phys hpa,
        update_of_ne hne.symm]
      exact hrefs
    · have hout := (Phys.Writes.copyPage (m := s2.phys) (p := p) (q := c.pa)).outside.agree
        (hok.aligned hok.refs_ne) (hok.aligned hpa) hne (c.pa+k) (by omega) (by omega)
      rw [System.phys_setPhys,mem_pmmFreePage,System.phys_setPhys,hout]
      simp [Phys.copyPage,Buf.copy,hk]
  · rintro s1 rfl
    exact h

end MemInv
end FuriOS
