import FuriOS.Pmm

/-! What the page allocator guarantees: a page it hands out had no reference before, is zero and
becomes referenced once; freeing takes one reference back. -/
namespace FuriOS
open Prog Function

lemma pageIndexed_iff {p : ℕ} : pageIndexed p=true ↔
    p%pageSize=0 ∧ physRamBase≤p ∧ p<physRamBase+physRamSize := by
  simp [pageIndexed]

namespace Phys
variable {m m' : Phys} {p q : ℕ}

/-- The allocator's own data are consistent: what is free or beyond the bump pointer has no
reference. -/
structure Ok (m : Phys) : Prop where
  nodup : m.freePages.Nodup
  free : ∀ p∈m.freePages, pageIndexed p=true ∧ m.pageRefs p=0 ∧ p+pageSize ≤ m.cur
  used : ∀ p, m.pageRefs p≠0 → pageIndexed p=true ∧ p+pageSize ≤ m.cur
  low : physRamBase ≤ m.cur
  curHigh : m.cur≤physRamBase+physRamSize
  high : m.limit≤physRamBase+physRamSize

/-- The memory outside the page `p` is the same. -/
def SameOutside (m m' : Phys) (p : ℕ) : Prop :=
  ∀ a, a<p ∨ p+pageSize≤a → m'.mem a=m.mem a

lemma SameOutside.agree (h : SameOutside m m' p) (hp : p%pageSize=0) (hq : q%pageSize=0)
    (hne : q≠p) : m'.mem.Agree m.mem q pageSize := by
  intro a hlo hhi
  refine h a ?_
  simp only [pageSize] at *
  omega

lemma sameOutside_zeroPage : SameOutside m (m.zeroPage p) p := by
  intro a ha
  simp only [zeroPage,Buf.fill]
  rw [if_neg (by omega)]

lemma sameOutside_copyPage : SameOutside m (m.copyPage p q) p :=
  fun _ ha => Buf.copy_of_outside ha

lemma sameOutside_copyIn {src : Buf} {a n : ℕ} (hn : n≤pageSize) :
    SameOutside m (m.copyIn p src a n) p := by
  intro b hb
  refine Buf.copy_of_outside ?_
  omega

lemma sameOutside_zeroTail {n : ℕ} : SameOutside m (m.zeroTail p n) p := by
  intro a ha
  simp only [zeroTail,Buf.fill]
  rw [if_neg (by omega)]

end Phys

variable {m m' : Phys} {p q : ℕ}

/-- The result of handing out page `p`. -/
structure Handed (m m' : Phys) (p : ℕ) : Prop where
  ok : m'.Ok
  indexed : pageIndexed p=true
  fresh : m.pageRefs p=0
  refs : m'.pageRefs=update m.pageRefs p 1
  zero : ∀ k, k<pageSize → m'.mem (p+k)=0
  outside : m.SameOutside m' p

lemma toNat_and_not {w : ℕ} (y c : BitVec w) : (y &&& ~~~c).toNat+(y &&& c).toNat=y.toNat := by
  have hdisj : (y &&& ~~~c) &&& (y &&& c)=0#w := by
    ext i hi
    simp
    grind
  have hor : (y &&& ~~~c) ||| (y &&& c)=y := by
    ext i hi
    simp
    grind
  rw [← BitVec.toNat_add_of_and_eq_zero hdisj,BitVec.add_eq_or_of_and_eq_zero _ _ hdisj,hor]

lemma alignUpTo_bounds {x align : ℕ} (ha : 0<align) (hx : x+align≤2^64) :
    x≤alignUpTo x align ∧ alignUpTo x align<x+align ∧
      ∃ k, alignUpTo x align+k=x+(align-1) ∧ k=(x+(align-1)) &&& (align-1) := by
  by_cases hx0 : x+(align-1)<2^64
  swap
  · omega
  have hc : (BitVec.ofNat 64 align-1).toNat=align-1 := by
    rw [BitVec.toNat_sub,BitVec.toNat_ofNat]
    change (2^64-1+align%2^64)%2^64=align-1
    omega
  have hy : (BitVec.ofNat 64 x+(BitVec.ofNat 64 align-1)).toNat=x+(align-1) := by
    rw [BitVec.toNat_add,hc,BitVec.toNat_ofNat]
    omega
  have hsum := toNat_and_not (BitVec.ofNat 64 x+(BitVec.ofNat 64 align-1)) (BitVec.ofNat 64 align-1)
  rw [BitVec.toNat_and (_ + _) (_ - _),hy,hc] at hsum
  have hle : (x+(align-1)) &&& (align-1)≤align-1 := Nat.and_le_right
  change alignUpTo x align+_=_ at hsum
  exact ⟨by omega,by omega,_,hsum,rfl⟩

lemma alignUpTo_spec {x : ℕ} (hx : x+pageSize<2^64) :
    alignUpTo x pageSize%pageSize=0 ∧ x≤alignUpTo x pageSize ∧ alignUpTo x pageSize<x+pageSize := by
  obtain ⟨hle,hlt,k,hk,hmask⟩ := alignUpTo_bounds (by decide) hx.le
  refine ⟨?_,hle,hlt⟩
  rw [show pageSize-1=2^12-1 from rfl,Nat.and_two_pow_sub_one_eq_mod] at hmask
  simp only [pageSize] at *
  omega

/-- The pages of a range that are counted anew when it is marked as owned. -/
def Phys.newlyOwned (m : Phys) (l : List ℕ) : List ℕ := l.filter fun p => pageIndexed p && m.pageRefs p=0

lemma foldl_markPageOwned {l : List ℕ} (hl : l.Nodup) (m : Phys) :
    l.foldl Phys.markPageOwned m={m with
      pageRefs := fun p => if p∈m.newlyOwned l then 1 else m.pageRefs p,
      ownedPages := m.ownedPages+(m.newlyOwned l).length} := by
  induction l generalizing m with
  | nil => simp [Phys.newlyOwned]
  | cons p l ih =>
    obtain ⟨hnot,hl⟩ := List.nodup_cons.1 hl
    rw [List.foldl_cons,ih hl]
    by_cases hp : (pageIndexed p && m.pageRefs p=0)=true
    · have hsame : ({m.setRefs p 1 with ownedPages := m.ownedPages+1} : Phys).newlyOwned l=m.newlyOwned l := by
        refine List.filter_congr fun q hq => ?_
        have hne : q≠p := fun e => hnot (e ▸ hq)
        simp [Phys.setRefs,hne]
      have hcons : m.newlyOwned (p::l)=p::m.newlyOwned l := List.filter_cons_of_pos hp
      rw [Phys.markPageOwned,if_pos hp,hsame,hcons]
      simp only [Phys.setRefs,List.length_cons,Phys.mk.injEq,true_and]
      refine ⟨funext fun q => ?_,by omega⟩
      by_cases hq : q=p
      · subst hq
        simp
      · simp [hq]
    · have hcons : m.newlyOwned (p::l)=m.newlyOwned l := List.filter_cons_of_neg hp
      rw [Phys.markPageOwned,if_neg hp,hcons]

lemma nodup_pageRange (start stop : ℕ) : (pageRange start stop).Nodup := by
  refine List.nodup_range.map fun a b h => ?_
  simp only [pageSize] at h
  omega

lemma mem_pageRange {start stop : ℕ} (hs : start%pageSize=0) (ht : stop%pageSize=0) :
    p∈pageRange start stop ↔ p%pageSize=0 ∧ start≤p ∧ p<stop := by
  simp only [pageRange,List.mem_map,List.mem_range]
  constructor
  · rintro ⟨k,hk,rfl⟩
    simp only [pageSize] at *
    omega
  · rintro ⟨hp,hle,hlt⟩
    refine ⟨(p-start)/pageSize,?_,?_⟩ <;> simp only [pageSize] at * <;> omega

/-- An allocation whose address is not null needs room in the bump region and nothing else. -/
lemma wp_pmmAlloc_bump {bytes align : ℕ} {Q : ℕ → Phys → Prop} {E : Phys → Prop}
    (hne : alignUpTo m.cur align≠0)
    (hQ : alignUpTo m.cur align+bytes ≤ m.limit ∧ alignUpTo m.cur align+bytes<2^64 →
      Q (alignUpTo m.cur align) {m.markRangeOwned (alignUpTo m.cur align) bytes with
        cur := alignUpTo m.cur align+bytes, mem := m.mem.fill (alignUpTo m.cur align) 0 bytes})
    (hE : ¬(alignUpTo m.cur align+bytes ≤ m.limit ∧ alignUpTo m.cur align+bytes<2^64) → E m) :
    wp (pmmAlloc bytes align) Q E m := by
  rw [pmmAlloc,wp_gets_bind]
  refine wp_require_bind (fun hc => ?_) fun hc => hE (by simpa using hc)
  rw [wp_modify_bind]
  refine wp_require_bind (fun _ => ?_) fun hc => absurd hne (by simpa using hc)
  exact hQ (by simpa using hc)

lemma Phys.Ok.alignUpTo_ne (h : m.Ok) {align : ℕ} (hle : m.cur≤alignUpTo m.cur align) :
    alignUpTo m.cur align≠0 := by
  have := h.low
  simp only [physRamBase] at this
  omega

lemma wp_pmmAlloc (h : m.Ok) (n : ℕ) : wp (pmmAlloc (n*pageSize) pageSize)
    (fun base m' => base%pageSize=0 ∧ m.cur≤base ∧ base+n*pageSize ≤ m.limit ∧
      m'.cur=base+n*pageSize ∧ m'.limit=m.limit ∧ m'.freePages=m.freePages ∧
      (∀ p, m'.pageRefs p=if p%pageSize=0 ∧ base≤p ∧ p<base+n*pageSize then 1 else m.pageRefs p) ∧
      m'.mem=m.mem.fill base 0 (n*pageSize)) (fun m' => m'=m) m := by
  have hcur := h.curHigh
  obtain ⟨hal,hle,-⟩ := alignUpTo_spec (x := m.cur) (by simp only [pageSize,physRamBase,physRamSize] at *; omega)
  refine wp_pmmAlloc_bump (h.alignUpTo_ne hle) (fun hreq => ?_) fun _ => rfl
  have hhigh := h.high
  have hlow := h.low
  have hup : alignUp (alignUpTo m.cur pageSize)=alignUpTo m.cur pageSize := by
    simp only [alignUp,pageSize,physRamBase,physRamSize] at *
    omega
  have hdown : alignDown (alignUpTo m.cur pageSize+n*pageSize)=alignUpTo m.cur pageSize+n*pageSize := by
    simp only [alignDown,pageSize,physRamBase,physRamSize] at *
    omega
  simp only [Phys.markRangeOwned]
  rw [hup,hdown,foldl_markPageOwned (nodup_pageRange _ _)]
  refine ⟨hal,hle,hreq.1,trivial,rfl,rfl,fun p => ?_,trivial⟩
  have hstop : (alignUpTo m.cur pageSize+n*pageSize)%pageSize=0 := by
    simp only [pageSize] at *
    omega
  have hmem := mem_pageRange (p := p) hal hstop
  refine if_congr ?_ rfl rfl
  rw [Phys.newlyOwned,List.mem_filter,hmem]
  refine ⟨fun hin => hin.1,fun hin => ⟨hin,?_⟩⟩
  have hzero : m.pageRefs p=0 := by
    by_contra hne
    have := (h.used p hne).2
    simp only [pageSize,physRamBase,physRamSize] at *
    omega
  have hidx : pageIndexed p=true := by
    rw [pageIndexed_iff]
    simp only [pageSize,physRamBase,physRamSize] at *
    omega
  simp [hidx,hzero]

lemma wp_pmmAllocPage (h : m.Ok) :
    wp pmmAllocPage (fun p m' => Handed m m' p) (fun m' => m'=m) m := by
  rw [pmmAllocPage,wp_gets_bind]
  split
  · rename_i p rest hfree
    obtain ⟨hidx,hrefs,hcur⟩ := h.free p (hfree ▸ List.mem_cons_self)
    have hnodup := h.nodup
    rw [hfree] at hnodup
    obtain ⟨hnot,hrest⟩ := List.nodup_cons.1 hnodup
    rw [wp_modify_bind,wp_modify_bind,wp_modify_bind,wp_pure,if_pos hidx]
    refine ⟨⟨hrest,fun q hq => ?_,fun q hq => ?_,h.low,h.curHigh,h.high⟩,hidx,hrefs,rfl,?_,?_⟩
    · obtain ⟨hi,hr,hc⟩ := h.free q (hfree ▸ List.mem_cons_of_mem p hq)
      have hne : q≠p := fun e => hnot (e ▸ hq)
      exact ⟨hi,by simpa [Phys.zeroPage,Phys.setRefs,hne] using hr,hc⟩
    · by_cases hqp : q=p
      · subst hqp
        exact ⟨hidx,hcur⟩
      · exact h.used q (by simpa [Phys.zeroPage,Phys.setRefs,hqp] using hq)
    · intro k hk
      simp only [Phys.zeroPage,Buf.fill]
      rw [if_pos (by omega)]
    · exact Phys.sameOutside_zeroPage
  · rename_i hfree
    have hpage := wp_pmmAlloc h 1
    rw [one_mul] at hpage
    refine wp_imp hpage fun base m' hb => ?_
    obtain ⟨hal,hle,hlim,hcur',hlim',hfree',hrefs,hmem⟩ := hb
    have hhigh := h.high
    have hlow := h.low
    have hidx : pageIndexed base=true := by
      rw [pageIndexed_iff]
      simp only [pageSize,physRamBase,physRamSize] at *
      omega
    have hzero : m.pageRefs base=0 := by
      by_contra hne
      have := (h.used base hne).2
      simp only [pageSize,physRamBase,physRamSize] at *
      omega
    have hupd : m'.pageRefs=update m.pageRefs base 1 := by
      funext q
      rw [hrefs]
      by_cases hq : q=base
      · subst hq
        rw [if_pos ⟨hal,le_refl _,by simp [pageSize]⟩,update_self]
      · rw [update_of_ne hq,if_neg]
        simp only [pageSize,physRamBase,physRamSize] at *
        omega
    refine ⟨⟨?_,?_,fun q hq => ?_,?_,?_,?_⟩,hidx,hzero,hupd,fun k hk => ?_,fun a ha => ?_⟩
    · rw [hfree',hfree]
      exact List.nodup_nil
    · rw [hfree',hfree]
      simp
    · rw [hupd] at hq
      by_cases hqb : q=base
      · subst hqb
        exact ⟨hidx,by omega⟩
      · rw [update_of_ne hqb] at hq
        have := h.used q hq
        exact ⟨this.1,by omega⟩
    · omega
    · omega
    · omega
    · rw [hmem]
      simp only [Buf.fill]
      rw [if_pos (by omega)]
    · rw [hmem]
      simp only [Buf.fill]
      rw [if_neg (by omega)]

/-- The pages of a run of `n` pages. -/
def pageRun (base n : ℕ) : List ℕ := (List.range n).map fun k => base+k*pageSize

lemma mem_pageRun {base n : ℕ} (hb : base%pageSize=0) :
    p∈pageRun base n ↔ p%pageSize=0 ∧ base≤p ∧ p<base+n*pageSize := by
  simp only [pageRun,List.mem_map,List.mem_range]
  constructor
  · rintro ⟨k,hk,rfl⟩
    simp only [pageSize] at *
    omega
  · rintro ⟨hp,hle,hlt⟩
    refine ⟨(p-base)/pageSize,?_,?_⟩ <;> simp only [pageSize] at * <;> omega

lemma nodup_pageRun (base n : ℕ) : (pageRun base n).Nodup := by
  refine List.nodup_range.map fun a b h => ?_
  simp only [pageSize] at h
  omega

/-- The result of handing out a run of pages. -/
structure HandedRun (m m' : Phys) (base n : ℕ) : Prop where
  ok : m'.Ok
  nonNull : base≠0
  aligned : base%pageSize=0
  fresh : ∀ p∈pageRun base n, m.pageRefs p=0
  refs : ∀ p, m'.pageRefs p=if p∈pageRun base n then 1 else m.pageRefs p
  outside : ∀ a, a<base ∨ base+n*pageSize≤a → m'.mem a=m.mem a

lemma wp_pmmAlloc_run (h : m.Ok) (n : ℕ) : wp (pmmAlloc (n*pageSize) pageSize)
    (fun base m' => HandedRun m m' base n) (fun m' => m'=m) m := by
  refine wp_imp (wp_pmmAlloc h n) ?_
  rintro base m' ⟨hal,hle,hlim,hcur,hlim',hfree,hrefs,hmem⟩
  have hlow := h.low
  have hhigh := h.high
  have hmemRun {p : ℕ} := mem_pageRun (p := p) (n := n) hal
  have hfresh (p : ℕ) (hp : p∈pageRun base n) : m.pageRefs p=0 := by
    have hin := hmemRun.1 hp
    by_contra hne
    have := (h.used p hne).2
    simp only [pageSize,physRamBase,physRamSize] at *
    omega
  have hrefs' (p : ℕ) : m'.pageRefs p=if p∈pageRun base n then 1 else m.pageRefs p := by
    rw [hrefs]
    exact if_congr hmemRun.symm rfl rfl
  refine ⟨⟨hfree ▸ h.nodup,fun p hp => ?_,fun p hp => ?_,?_,?_,?_⟩,?_,hal,hfresh,hrefs',fun a ha => ?_⟩
  · rw [hfree] at hp
    obtain ⟨hi,hr,hc⟩ := h.free p hp
    refine ⟨hi,?_,by omega⟩
    rw [hrefs',if_neg fun hin => ?_,hr]
    have := hmemRun.1 hin
    simp only [pageSize,physRamBase,physRamSize] at *
    omega
  · rw [hrefs'] at hp
    split_ifs at hp with hin
    · have := hmemRun.1 hin
      rw [pageIndexed_iff]
      simp only [pageSize,physRamBase,physRamSize] at *
      omega
    · have := h.used p hp
      exact ⟨this.1,by omega⟩
  · omega
  · omega
  · omega
  · simp only [physRamBase] at hlow
    omega
  · rw [hmem]
    simp only [Buf.fill]
    rw [if_neg (by omega)]

lemma Phys.Ok.indexed (h : m.Ok) (hp : m.pageRefs p≠0) : pageIndexed p=true := (h.used p hp).1

@[simp] lemma mem_pmmFreePage : (pmmFreePage p m).mem=m.mem := by
  unfold pmmFreePage
  split_ifs <;> rfl

@[simp] lemma mem_pmmRefPage : (pmmRefPage p m).mem=m.mem := by
  unfold pmmRefPage
  split_ifs <;> rfl

lemma refs_pmmFreePage (h : m.Ok) (hp : m.pageRefs p≠0) :
    (pmmFreePage p m).pageRefs=update m.pageRefs p (m.pageRefs p-1) := by
  unfold pmmFreePage
  rw [if_neg (by simp [h.indexed hp,hp])]
  split_ifs with h1 h2
  · rfl
  · rw [show m.pageRefs p-1=0 by omega]
    rfl
  · rw [show m.pageRefs p-1=0 by omega]
    rfl

lemma Phys.Ok.freePage (h : m.Ok) (hp : m.pageRefs p≠0) : (pmmFreePage p m).Ok := by
  have hrefs := refs_pmmFreePage h hp
  have hnot : p∉m.freePages := fun hf => hp (h.free p hf).2.1
  have hused (q : ℕ) (hq : (pmmFreePage p m).pageRefs q≠0) :
      pageIndexed q=true ∧ q+pageSize ≤ m.cur := by
    refine h.used q fun hz => hq ?_
    rw [hrefs]
    by_cases hqp : q=p
    · subst hqp
      exact absurd hz hp
    · rw [update_of_ne hqp,hz]
  have hold (q : ℕ) (hq : q∈m.freePages) : pageIndexed q=true ∧
      (pmmFreePage p m).pageRefs q=0 ∧ q+pageSize ≤ m.cur := by
    obtain ⟨hi,hr,hc⟩ := h.free q hq
    have hne : q≠p := fun e => hnot (e ▸ hq)
    refine ⟨hi,?_,hc⟩
    rw [hrefs,update_of_ne hne,hr]
  unfold pmmFreePage at hused hold ⊢
  rw [if_neg (by simp [h.indexed hp,hp])] at hused hold ⊢
  split_ifs with h1 h2
  · rw [if_pos h1] at hused hold
    exact ⟨h.nodup,hold,hused,h.low,h.curHigh,h.high⟩
  · rw [if_neg h1,if_pos h2] at hused hold
    refine ⟨List.nodup_cons.2 ⟨hnot,h.nodup⟩,fun q hq => ?_,hused,h.low,h.curHigh,h.high⟩
    rcases List.mem_cons.1 hq with rfl | hq
    · exact ⟨h.indexed hp,by simp [Phys.setRefs],(h.used q hp).2⟩
    · exact hold q hq
  · rw [if_neg h1,if_neg h2] at hused hold
    exact ⟨h.nodup,hold,hused,h.low,h.curHigh,h.high⟩

lemma pmmRefPage_eq (hi : pageIndexed p=true) (hp : m.pageRefs p≠0) :
    pmmRefPage p m=m.setRefs p (m.pageRefs p+1) := by
  simp [pmmRefPage,hi,hp]

lemma refs_pmmRefPage (h : m.Ok) (hp : m.pageRefs p≠0) :
    (pmmRefPage p m).pageRefs=update m.pageRefs p (m.pageRefs p+1) := by
  rw [pmmRefPage_eq (h.indexed hp) hp]
  rfl

lemma Phys.Ok.refPage (h : m.Ok) (hp : m.pageRefs p≠0) : (pmmRefPage p m).Ok := by
  have hrefs := refs_pmmRefPage h hp
  rw [pmmRefPage_eq (h.indexed hp) hp] at hrefs ⊢
  refine ⟨h.nodup,fun q hq => ?_,fun q hq => ?_,h.low,h.curHigh,h.high⟩
  · obtain ⟨hi,hr,hc⟩ := h.free q hq
    have hne : q≠p := fun e => hp (e ▸ hr)
    refine ⟨hi,?_,hc⟩
    rw [hrefs,update_of_ne hne,hr]
  · by_cases hqp : q=p
    · subst hqp
      exact h.used q hp
    · refine h.used q ?_
      rwa [hrefs,update_of_ne hqp] at hq

end FuriOS
