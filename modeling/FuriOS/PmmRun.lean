import FuriOS.PmmSpec
import Mathlib.Order.CompletePartialOrder

/-! Runs of the page allocator. A run keeps, beside the allocator's state, the set of addresses
that were handed out and not freed; no allocation may return any of them again. -/
namespace FuriOS
open Prog Function

/-- The calls of the allocator. -/
inductive PmmOp
  | alloc (bytes align : ℕ)
  | allocPage
  | ref (p : ℕ)
  | free (p : ℕ)

/-- The allocator and the addresses that are handed out. -/
structure PmmState where
  phys : Phys
  live : Set ℕ

/-- The bytes of the page `p`. -/
abbrev pageBytes (p : ℕ) : Set ℕ := Set.Ico p (p+pageSize)

namespace PmmOp

def returned (m : Phys) : PmmOp → Option (Set ℕ)
  | .alloc bytes align => ((pmmAlloc bytes align).run m).1.map fun base => Set.Ico base (base+bytes)
  | .allocPage => (pmmAllocPage.run m).1.map pageBytes
  | _ => none

def next (m : Phys) : PmmOp → Phys
  | .alloc bytes align => ((pmmAlloc bytes align).run m).2
  | .allocPage => (pmmAllocPage.run m).2
  | .ref p => pmmRefPage p m
  | .free p => pmmFreePage p m

/-- The range that the call gives back: a page whose last reference it takes. -/
def released (m : Phys) : PmmOp → Set ℕ
  | .free p => if pageIndexed p ∧ m.pageRefs p=1 then pageBytes p else ∅
  | _ => ∅

def perform (a : PmmOp) (s : PmmState) : PmmState :=
  ⟨a.next s.phys,(s.live ∪ (a.returned s.phys).getD ∅) \ a.released s.phys⟩

/-- Only a page with a reference is referenced again. -/
def Proper (m : Phys) : PmmOp → Prop
  | .ref p => m.pageRefs p≠0
  | _ => True

/-- The alignment is positive and rounding up does not wrap around. -/
def Aligns (m : Phys) : PmmOp → Prop
  | .alloc _ align => 0<align ∧ m.cur+align≤2^64
  | _ => True

/-- The 32-bit count of a page does not overflow. -/
def CountFits (m : Phys) : PmmOp → Prop
  | .ref p => m.pageRefs p+1<2^32
  | _ => True

end PmmOp

/-- `pmm_init`, with whatever the memory holds -/
def pmmInit (mem : Buf) (start stop : ℕ) : Phys := ⟨mem,alignUpTo start 16,stop,[],fun _ => 0,0⟩

def ramPages : Finset ℕ := (Finset.range (physRamSize/pageSize)).image fun k => physRamBase+k*pageSize

def Phys.counted (m : Phys) : Finset ℕ := ramPages.filter fun p => m.pageRefs p≠0

lemma mem_ramPages {p : ℕ} : p∈ramPages ↔ pageIndexed p=true := by
  rw [pageIndexed_iff]
  simp only [ramPages,Finset.mem_image,Finset.mem_range]
  constructor
  · rintro ⟨k,hk,rfl⟩
    simp only [pageSize,physRamBase,physRamSize] at *
    omega
  · rintro ⟨hp,hle,hlt⟩
    refine ⟨(p-physRamBase)/pageSize,?_,?_⟩ <;> simp only [pageSize,physRamBase,physRamSize] at * <;> omega

def Phys.Tallied (m : Phys) : Prop := m.ownedPages=m.counted.card

namespace Phys
variable {m m' : Phys} {p n : ℕ}

lemma mem_counted : p∈m.counted ↔ pageIndexed p=true ∧ m.pageRefs p≠0 := by
  rw [counted,Finset.mem_filter,mem_ramPages]

section
variable (h : m.Tallied)
include h

lemma Tallied.first (hp : pageIndexed p=true) (hz : m.pageRefs p=0)
    (hr : m'.pageRefs=update m.pageRefs p 1) (ho : m'.ownedPages=m.ownedPages+1) :
    m'.Tallied := by
  have hset : m'.counted=insert p m.counted := by
    ext q
    rw [Finset.mem_insert,mem_counted,mem_counted,hr]
    by_cases hq : q=p
    · subst hq
      simp [hp]
    · simp [hq]
  have hnot : p∉m.counted := fun hin => (mem_counted.1 hin).2 hz
  rw [Tallied,hset,Finset.card_insert_of_notMem hnot,ho,h]

lemma Tallied.last (hp : pageIndexed p=true) (hz : m.pageRefs p≠0)
    (hr : m'.pageRefs=update m.pageRefs p 0) (ho : m'.ownedPages=m.ownedPages-1) :
    m'.Tallied := by
  have hset : m'.counted=m.counted.erase p := by
    ext q
    rw [Finset.mem_erase,mem_counted,mem_counted,hr]
    by_cases hq : q=p
    · subst hq
      simp
    · simp [hq]
  rw [Tallied,hset,Finset.card_erase_of_mem (mem_counted.2 ⟨hp,hz⟩),ho,h]

lemma Tallied.same (hr : m'.pageRefs=update m.pageRefs p n)
    (hz : m.pageRefs p≠0) (hn : n≠0) (ho : m'.ownedPages=m.ownedPages) : m'.Tallied := by
  have hset : m'.counted=m.counted := by
    ext q
    rw [mem_counted,mem_counted,hr]
    by_cases hq : q=p
    · subst hq
      simp [hn,hz]
    · simp [hq]
  rw [Tallied,hset,ho,h]

lemma Tallied.markPageOwned (p : ℕ) : (m.markPageOwned p).Tallied := by
  unfold Phys.markPageOwned
  split_ifs with hp
  · obtain ⟨hi,hz⟩ := Bool.and_eq_true_iff.1 hp
    exact h.first hi (of_decide_eq_true hz) rfl rfl
  · exact h

lemma Tallied.foldl_markPageOwned (l : List ℕ) : (l.foldl Phys.markPageOwned m).Tallied := by
  induction l generalizing m with
  | nil => exact h
  | cons p l ih => exact ih (h.markPageOwned p)

end

end Phys

/-- The invariant of a run: the allocator is consistent, its counter is right, and what is handed
out lies below the bump pointer and on no free page. -/
structure PmmState.Inv (s : PmmState) : Prop where
  ok : s.phys.Ok
  tallied : s.phys.Tallied
  free : ∀ p∈s.phys.freePages, Disjoint (pageBytes p) s.live
  below : ∀ a∈s.live, a<s.phys.cur

/-- What an allocation does: the range it returns was neither handed out nor counted. -/
structure Granted (s : PmmState) (m : Phys) (r : Set ℕ) : Prop where
  ok : m.Ok
  tallied : m.Tallied
  notLive : Disjoint r s.live
  notCounted : ∀ p, s.phys.pageRefs p≠0 → Disjoint (pageBytes p) r
  free : ∀ p∈m.freePages, p∈s.phys.freePages ∧ Disjoint (pageBytes p) r
  cur : s.phys.cur ≤ m.cur
  below : ∀ a∈r, a < m.cur

section Steps
variable {s : PmmState} {m : Phys} {r : Set ℕ}

lemma Granted.inv (hg : Granted s m r) (h : s.Inv) : PmmState.Inv ⟨m,s.live ∪ r⟩ where
  ok := hg.ok
  tallied := hg.tallied
  free p hp := Set.disjoint_union_right.2 ⟨h.free p (hg.free p hp).1,(hg.free p hp).2⟩
  below a ha := by
    rcases ha with ha | ha
    · exact (h.below a ha).trans_le hg.cur
    · exact hg.below a ha

lemma disjoint_Ico_of_le {a b c d : ℕ} (h : b≤c) : Disjoint (Set.Ico a b) (Set.Ico c d) := by
  refine Set.disjoint_left.2 fun x hx hx' => ?_
  have := hx.2
  have := hx'.1
  omega

lemma disjoint_pageBytes {p q : ℕ} (hp : p%pageSize=0) (hq : q%pageSize=0) (hne : p≠q) :
    Disjoint (pageBytes p) (pageBytes q) := by
  rcases Nat.lt_or_gt_of_ne hne with hlt | hlt
  · exact disjoint_Ico_of_le (by simp only [pageSize] at *; omega)
  · exact (disjoint_Ico_of_le (by simp only [pageSize] at *; omega)).symm

lemma ok_bump (h : m.Ok) {base bytes : ℕ} (hle : m.cur≤base) (hlim : base+bytes ≤ m.limit) {mem : Buf} :
    Phys.Ok {(m.markRangeOwned base bytes) with cur := base+bytes, mem := mem} := by
  have hlow := h.low
  have hhigh := h.high
  have hup : base≤alignUp base ∧ alignUp base%pageSize=0 := by
    simp only [alignUp,pageSize,physRamBase,physRamSize] at *
    omega
  have hdown : alignDown (base+bytes)≤base+bytes ∧ alignDown (base+bytes)%pageSize=0 := by
    simp only [alignDown,pageSize]
    omega
  rw [Phys.markRangeOwned,foldl_markPageOwned (nodup_pageRange _ _)]
  have hnew (p : ℕ) (hp : p∈m.newlyOwned (pageRange (alignUp base) (alignDown (base+bytes)))) :
      pageIndexed p=true ∧ base≤p ∧ p+pageSize≤base+bytes := by
    obtain ⟨hin,hidx⟩ := List.mem_filter.1 hp
    have := (mem_pageRange hup.2 hdown.2).1 hin
    refine ⟨(Bool.and_eq_true_iff.1 hidx).1,?_,?_⟩ <;> simp only [pageSize] at * <;> omega
  refine ⟨h.nodup,fun p hp => ?_,fun p hp => ?_,?_,?_,hhigh⟩
  · obtain ⟨hi,hr,hc⟩ := h.free p hp
    refine ⟨hi,?_,by dsimp only; omega⟩
    refine (if_neg fun hin => ?_).trans hr
    have := (hnew p hin).2.1
    simp only [pageSize] at hc
    omega
  · dsimp only at hp ⊢
    split_ifs at hp with hin
    · exact ⟨(hnew p hin).1,(hnew p hin).2.2⟩
    · exact ⟨(h.used p hp).1,by have := (h.used p hp).2; omega⟩
  · dsimp only
    omega
  · dsimp only
    omega

lemma granted_pmmAlloc (h : s.Inv) (bytes : ℕ) {align : ℕ} (ha : 0<align)
    (hx : s.phys.cur+align≤2^64) : wp (pmmAlloc bytes align)
      (fun base m => Granted s m (Set.Ico base (base+bytes))) (fun m => m=s.phys) s.phys := by
  obtain ⟨hle,-,-⟩ := alignUpTo_bounds ha hx
  refine wp_pmmAlloc_bump (h.ok.alignUpTo_ne hle) (fun hreq => ?_) fun _ => rfl
  have hfree : (s.phys.markRangeOwned (alignUpTo s.phys.cur align) bytes).freePages=s.phys.freePages := by
    rw [Phys.markRangeOwned,foldl_markPageOwned (nodup_pageRange _ _)]
  refine ⟨ok_bump h.ok hle hreq.1,h.tallied.foldl_markPageOwned _,?_,fun p hp => ?_,fun p hp => ?_,?_,?_⟩
  · refine Set.disjoint_left.2 fun a ha hl => ?_
    have hbelow := h.below a hl
    have hlo : alignUpTo s.phys.cur align≤a := ha.1
    omega
  · exact disjoint_Ico_of_le ((h.ok.used p hp).2.trans hle)
  · have hp : p∈s.phys.freePages := hfree ▸ hp
    exact ⟨hp,disjoint_Ico_of_le ((h.ok.free p hp).2.2.trans hle)⟩
  · change s.phys.cur≤alignUpTo s.phys.cur align+bytes
    omega
  · exact fun a ha => ha.2

lemma granted_pmmAllocPage (h : s.Inv) :
    wp pmmAllocPage (fun p m => Granted s m (pageBytes p)) (fun m => m=s.phys) s.phys := by
  rw [pmmAllocPage,wp_gets_bind]
  split
  · rename_i p rest hfree
    have hin : p∈s.phys.freePages := hfree ▸ List.mem_cons_self
    have hrest (q : ℕ) (hq : q∈rest) : q∈s.phys.freePages := hfree ▸ List.mem_cons_of_mem p hq
    have hnodup := h.ok.nodup
    rw [hfree] at hnodup
    obtain ⟨hnot,hnodup⟩ := List.nodup_cons.1 hnodup
    obtain ⟨hidx,hz,hcur⟩ := h.ok.free p hin
    have haligned {q : ℕ} (hq : pageIndexed q=true) : q%pageSize=0 := (pageIndexed_iff.1 hq).1
    rw [wp_modify_bind,wp_modify_bind,wp_modify_bind,wp_pure,if_pos hidx]
    refine ⟨⟨hnodup,fun q hq => ?_,fun q hq => ?_,h.ok.low,h.ok.curHigh,h.ok.high⟩,?_,h.free p hin,
      fun q hq => ?_,fun q hq => ?_,le_refl _,fun a ha => ha.2.trans_le hcur⟩
    · obtain ⟨hi,hr,hc⟩ := h.ok.free q (hrest q hq)
      have hne : q≠p := fun e => hnot (e ▸ hq)
      exact ⟨hi,(update_of_ne hne _ _).trans hr,hc⟩
    · by_cases hqp : q=p
      · subst hqp
        exact ⟨hidx,hcur⟩
      · exact h.ok.used q (by simpa [Phys.zeroPage,Phys.setRefs,hqp] using hq)
    · exact h.tallied.first hidx hz rfl rfl
    · exact disjoint_pageBytes (haligned (h.ok.used q hq).1) (haligned hidx) fun e => hq (e ▸ hz)
    · exact ⟨hrest q hq,disjoint_pageBytes (haligned (h.ok.free q (hrest q hq)).1) (haligned hidx)
        fun e => hnot (e ▸ hq)⟩
  · refine granted_pmmAlloc h 4096 (by decide) ?_
    have := h.ok.curHigh
    simp only [physRamBase,physRamSize] at this
    omega

lemma PmmState.Inv.ref (h : s.Inv) {p : ℕ} (hp : s.phys.pageRefs p≠0) :
    PmmState.Inv ⟨pmmRefPage p s.phys,s.live⟩ := by
  have heq := pmmRefPage_eq (h.ok.indexed hp) hp
  refine ⟨h.ok.refPage hp,?_,?_,?_⟩
  · exact h.tallied.same (refs_pmmRefPage h.ok hp) hp (Nat.succ_ne_zero _) (by rw [heq]; rfl)
  · rw [heq]
    exact h.free
  · rw [heq]
    exact h.below

lemma PmmState.Inv.freePage (h : s.Inv) (p : ℕ) :
    PmmState.Inv ⟨pmmFreePage p s.phys,s.live \ (PmmOp.free p).released s.phys⟩ := by
  have hkeep {m : Phys} (hok : m.Ok) (ht : m.Tallied) (hf : m.freePages=s.phys.freePages)
      (hc : m.cur=s.phys.cur) (r : Set ℕ) : PmmState.Inv ⟨m,s.live \ r⟩ :=
    ⟨hok,ht,fun q hq => (h.free q (hf ▸ hq)).mono_right Set.sdiff_subset,fun a ha => hc ▸ h.below a ha.1⟩
  by_cases hp : pageIndexed p=true ∧ s.phys.pageRefs p≠0
  swap
  · have heq : pmmFreePage p s.phys=s.phys := if_pos (by simpa [or_iff_not_imp_left] using hp)
    rw [heq]
    exact hkeep h.ok h.tallied rfl rfl _
  obtain ⟨hi,hz⟩ := hp
  have hok := h.ok.freePage hz
  have hrefs := refs_pmmFreePage h.ok hz
  have hnot : ¬((!pageIndexed p || decide (s.phys.pageRefs p=0))=true) := by simp [hi,hz]
  by_cases hone : s.phys.pageRefs p=1
  · have hlast : (pmmFreePage p s.phys).Tallied := h.tallied.last hi hz (by rw [hrefs,hone]) (by
      rw [pmmFreePage,if_neg hnot,if_neg (by simp [hone])]
      split_ifs <;> rfl)
    have hcur : (pmmFreePage p s.phys).cur=s.phys.cur := by
      unfold pmmFreePage
      split_ifs <;> rfl
    have hfree (q : ℕ) (hq : q∈(pmmFreePage p s.phys).freePages) : q=p ∨ q∈s.phys.freePages := by
      rw [pmmFreePage,if_neg hnot,if_neg (by simp [hone])] at hq
      split_ifs at hq
      · exact List.mem_cons.1 hq
      · exact .inr hq
    refine ⟨hok,hlast,fun q hq => ?_,fun a ha => hcur ▸ h.below a ha.1⟩
    rcases hfree q hq with rfl | hq
    · rw [PmmOp.released,if_pos ⟨hi,hone⟩]
      exact Set.disjoint_sdiff_right
    · exact (h.free q hq).mono_right Set.sdiff_subset
  · have heq : pmmFreePage p s.phys=s.phys.setRefs p (s.phys.pageRefs p-1) := by
      rw [pmmFreePage,if_neg hnot,if_pos (by omega)]
    rw [heq] at hok hrefs ⊢
    exact hkeep hok (h.tallied.same hrefs hz (by omega) rfl) rfl rfl _

/-- A step of the allocator with proper arguments and without an overflow. -/
def PmmStep (s s' : PmmState) : Prop :=
  ∃ a : PmmOp, a.Proper s.phys ∧ a.Aligns s.phys ∧ a.CountFits s.phys ∧ s'=a.perform s

lemma PmmState.Inv.granted (h : s.Inv) {a : PmmOp} (ha : a.Aligns s.phys)
    (hr : a.returned s.phys=some r) : Granted s (a.next s.phys) r := by
  cases a with
  | alloc bytes align =>
    have hwp := granted_pmmAlloc h bytes ha.1 ha.2
    obtain ⟨base,hbase,rfl⟩ := Option.map_eq_some_iff.1 hr
    rw [wp,show (pmmAlloc bytes align).run s.phys=(some base,_) from Prod.ext hbase rfl] at hwp
    exact hwp
  | allocPage =>
    have hwp := granted_pmmAllocPage h
    obtain ⟨base,hbase,rfl⟩ := Option.map_eq_some_iff.1 hr
    rw [wp,show pmmAllocPage.run s.phys=(some base,_) from Prod.ext hbase rfl] at hwp
    exact hwp
  | ref p => cases hr
  | free p => cases hr

lemma PmmState.Inv.refused (h : s.Inv) {a : PmmOp} (ha : a.Aligns s.phys)
    (hr : a.returned s.phys=none) : a.next s.phys=s.phys ∨ (∃ p, a=.ref p) ∨ ∃ p, a=.free p := by
  cases a with
  | alloc bytes align =>
    have hwp := granted_pmmAlloc h bytes ha.1 ha.2
    rw [wp,show (pmmAlloc bytes align).run s.phys=(none,_) from
      Prod.ext (Option.map_eq_none_iff.1 hr) rfl] at hwp
    exact .inl hwp
  | allocPage =>
    have hwp := granted_pmmAllocPage h
    rw [wp,show pmmAllocPage.run s.phys=(none,_) from Prod.ext (Option.map_eq_none_iff.1 hr) rfl] at hwp
    exact .inl hwp
  | ref p => exact .inr (.inl ⟨p,rfl⟩)
  | free p => exact .inr (.inr ⟨p,rfl⟩)

lemma PmmState.Inv.step {s' : PmmState} (h : s.Inv) (hstep : PmmStep s s') : s'.Inv := by
  obtain ⟨a,hproper,hrange,-,rfl⟩ := hstep
  cases hr : a.returned s.phys with
  | some r =>
    have hnone : a.released s.phys = ∅ := by
      cases a with
      | free p => exact nomatch hr
      | _ => rfl
    simpa [PmmOp.perform,hr,hnone] using (h.granted hrange hr).inv h
  | none =>
    rcases h.refused hrange hr with hsame | ⟨p,rfl⟩ | ⟨p,rfl⟩
    · simp only [PmmOp.perform,hr,hsame,Option.getD_none,Set.union_empty]
      exact ⟨h.ok,h.tallied,fun p hp => (h.free p hp).mono_right Set.sdiff_subset,
        fun a ha => h.below a ha.1⟩
    · simpa [PmmOp.perform,PmmOp.returned,PmmOp.released,PmmOp.next] using h.ref hproper
    · simpa [PmmOp.perform,PmmOp.returned,PmmOp.next] using h.freePage p

lemma inv_pmmInit {mem : Buf} {start stop : ℕ} (hlo : physRamBase ≤ start)
    (hhi : start≤physRamBase+physRamSize) (hstop : stop≤physRamBase+physRamSize) :
    PmmState.Inv ⟨pmmInit mem start stop,∅⟩ := by
  have hwrap : start+16≤2^64 := by
    simp only [physRamBase,physRamSize] at *
    omega
  obtain ⟨hle,hlt,k,hk,hmask⟩ := alignUpTo_bounds (by decide) hwrap
  rw [show 16-1=2^4-1 from rfl,Nat.and_two_pow_sub_one_eq_mod] at hmask
  refine ⟨⟨List.nodup_nil,fun p hp => absurd hp List.not_mem_nil,fun p hp => absurd rfl hp,
    hlo.trans hle,?_,hstop⟩,?_,fun p hp => absurd hp List.not_mem_nil,fun a ha => absurd ha (Set.notMem_empty a)⟩
  · simp only [pmmInit,physRamBase,physRamSize] at *
    omega
  · simp [Phys.Tallied,Phys.counted,pmmInit]

/-- Along every run the free list has no duplicates, free pages have no references, the counter of
owned pages is right, and an allocation overlaps nothing that is counted or handed out. -/
theorem pmm_run_safe {mem : Buf} {start stop : ℕ} (hlo : physRamBase ≤ start)
    (hhi : start≤physRamBase+physRamSize) (hstop : stop≤physRamBase+physRamSize)
    (hrun : Relation.ReflTransGen PmmStep ⟨pmmInit mem start stop,∅⟩ s) :
    s.phys.freePages.Nodup ∧ (∀ p∈s.phys.freePages, s.phys.pageRefs p=0) ∧
    s.phys.ownedPages=s.phys.counted.card ∧
    ∀ a r, PmmOp.Aligns s.phys a → a.returned s.phys=some r →
      Disjoint r s.live ∧ ∀ p, s.phys.pageRefs p≠0 → Disjoint (pageBytes p) r := by
  have h : s.Inv := by
    induction hrun with
    | refl => exact inv_pmmInit hlo hhi hstop
    | tail _ hstep ih => exact ih.step hstep
  refine ⟨h.ok.nodup,fun p hp => (h.ok.free p hp).2.1,h.tallied,fun a r ha hr => ?_⟩
  exact ⟨(h.granted ha hr).notLive,(h.granted ha hr).notCounted⟩

theorem pmm_run_safe_page :
    PmmOp.allocPage.returned (pmmInit Buf.zero 0x40400000 0x4F000000)=some (pageBytes 0x40400000) ∧
    ∀ p, (PmmOp.allocPage.next (pmmInit Buf.zero 0x40400000 0x4F000000)).pageRefs p≠0 →
      ∀ r, PmmOp.allocPage.returned (PmmOp.allocPage.next (pmmInit Buf.zero 0x40400000 0x4F000000))=some r →
        Disjoint (pageBytes p) r := by
  have hreturned : (pmmAllocPage.run (pmmInit Buf.zero 0x40400000 0x4F000000)).1=some 0x40400000 := by
    decide +kernel
  refine ⟨congrArg (Option.map pageBytes) hreturned,fun p hp r hr => ?_⟩
  have hrun : Relation.ReflTransGen PmmStep ⟨pmmInit Buf.zero 0x40400000 0x4F000000,∅⟩ _ :=
    .single ⟨.allocPage,trivial,trivial,trivial,rfl⟩
  exact ((pmm_run_safe (by decide) (by decide) (by decide) hrun).2.2.2 .allocPage r trivial hr).2 p hp

/-- An alignment near 2^64 makes the rounding wrap around: the bump pointer falls below the RAM and
memory is handed out twice. -/
theorem pmmAlloc_wrap_overlaps : ∃ s : PmmState, s=(PmmOp.alloc 0 (2^64-0x801000)).perform
      ((PmmOp.alloc 4096 16).perform ⟨pmmInit Buf.zero 0x40400000 0x4F000000,∅⟩) ∧
    (PmmOp.alloc 16 0x3FC00000).returned s.phys=some (Set.Ico 0x40400000 0x40400010) ∧
    0x40400000∈s.live := by
  have hfirst : ((pmmAlloc 4096 16).run (pmmInit Buf.zero 0x40400000 0x4F000000)).1=some 0x40400000 := by
    decide +kernel
  have hlast : ((pmmAlloc 16 0x3FC00000).run ((pmmAlloc 0 (2^64-0x801000)).run
      ((pmmAlloc 4096 16).run (pmmInit Buf.zero 0x40400000 0x4F000000)).2).2).1=some 0x40400000 := by
    decide +kernel
  refine ⟨_,rfl,?_,?_⟩
  · simp only [PmmOp.returned,PmmOp.perform,PmmOp.next,hlast,Option.map_some]
  · simp [PmmOp.perform,PmmOp.returned,PmmOp.released,hfirst]

end Steps
end FuriOS
