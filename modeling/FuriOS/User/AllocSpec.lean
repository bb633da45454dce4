import FuriOS.User.Alloc

/-! What the allocator's functions do to the list of blocks its headers form. -/
namespace FuriOS.User

/-! ### Headers in memory -/

section Headers
variable {mem mem' : Buf} {b c i v : ℕ}

/-- The header of the block at `b` has the same bytes in both memories. -/
def SameHeader (mem mem' : Buf) (b : ℕ) : Prop := Buf.Agree mem' mem b headerSize

lemma headerAt_congr (h : SameHeader mem mem' b) : headerAt mem' b=headerAt mem b := by
  unfold SameHeader Buf.Agree headerSize at h
  rw [headerAt,headerAt,Buf.rdLe64_congr fun i _ _ => h i (by omega) (by omega),
    Buf.rdLe32_congr fun i _ _ => h i (by omega) (by omega),
    Buf.rdLe64_congr fun i _ _ => h i (by omega) (by omega)]

section
variable (h : i<b ∨ b+headerSize ≤ i)
include h

lemma setSize_of_outside : setSize mem b v i=mem i :=
  Buf.wrLe64_of_outside (by unfold headerSize at h; omega)

lemma setFree_of_outside : setFree mem b v i=mem i :=
  Buf.wrLe32_of_outside (by unfold headerSize at h; omega)

lemma setNext_of_outside : setNext mem b v i=mem i :=
  Buf.wrLe64_of_outside (by unfold headerSize at h; omega)

end

lemma headerAt_setSize (hv : v<2^64) :
    headerAt (setSize mem b v) b={headerAt mem b with size := v} := by
  have hsize : (setSize mem b v).rdLe64 b=v := by
    rw [setSize,Buf.rdLe64_wrLe64,Nat.mod_eq_of_lt hv]
  have hfree : (setSize mem b v).rdLe32 (b+8)=mem.rdLe32 (b+8) :=
    Buf.rdLe32_congr fun i _ _ => Buf.wrLe64_of_outside (by omega)
  have hnext : (setSize mem b v).rdLe64 (b+16)=mem.rdLe64 (b+16) :=
    Buf.rdLe64_congr fun i _ _ => Buf.wrLe64_of_outside (by omega)
  rw [headerAt,hsize,hfree,hnext,headerAt]

lemma headerAt_setFree (hv : v<2^32) :
    headerAt (setFree mem b v) b={headerAt mem b with free := v} := by
  have hsize : (setFree mem b v).rdLe64 b=mem.rdLe64 b :=
    Buf.rdLe64_congr fun i _ _ => Buf.wrLe32_of_outside (by omega)
  have hfree : (setFree mem b v).rdLe32 (b+8)=v := by
    rw [setFree,Buf.rdLe32_wrLe32,Nat.mod_eq_of_lt hv]
  have hnext : (setFree mem b v).rdLe64 (b+16)=mem.rdLe64 (b+16) :=
    Buf.rdLe64_congr fun i _ _ => Buf.wrLe32_of_outside (by omega)
  rw [headerAt,hsize,hfree,hnext,headerAt]

lemma headerAt_setNext (hv : v<2^64) :
    headerAt (setNext mem b v) b={headerAt mem b with next := v} := by
  have hsize : (setNext mem b v).rdLe64 b=mem.rdLe64 b :=
    Buf.rdLe64_congr fun i _ _ => Buf.wrLe64_of_outside (by omega)
  have hfree : (setNext mem b v).rdLe32 (b+8)=mem.rdLe32 (b+8) :=
    Buf.rdLe32_congr fun i _ _ => Buf.wrLe64_of_outside (by omega)
  have hnext : (setNext mem b v).rdLe64 (b+16)=v := by
    rw [setNext,Buf.rdLe64_wrLe64,Nat.mod_eq_of_lt hv]
  rw [headerAt,hsize,hfree,hnext,headerAt]

def Apart (b c : ℕ) : Prop := b+headerSize≤c ∨ c+headerSize≤b

lemma Apart.symm (h : Apart b c) : Apart c b := Or.symm h

lemma headerAt_setSize_of_apart (h : Apart b c) : headerAt (setSize mem b v) c=headerAt mem c :=
  headerAt_congr fun i _ _ => setSize_of_outside (by unfold Apart at h; omega)

lemma headerAt_setNext_of_apart (h : Apart b c) : headerAt (setNext mem b v) c=headerAt mem c :=
  headerAt_congr fun i _ _ => setNext_of_outside (by unfold Apart at h; omega)

/-- The header of a new block. -/
def newHeader (mem : Buf) (b size free next : ℕ) : Buf := setNext (setFree (setSize mem b size) b free) b next

lemma newHeader_of_outside {size free next : ℕ} (h : i<b ∨ b+headerSize ≤ i) :
    newHeader mem b size free next i=mem i := by
  rw [newHeader,setNext_of_outside h,setFree_of_outside h,setSize_of_outside h]

lemma headerAt_newHeader {size free next : ℕ} (hs : size<2^64) (hf : free<2^32) (hn : next<2^64) :
    headerAt (newHeader mem b size free next) b=⟨size,free,next⟩ := by
  rw [newHeader,headerAt_setNext hn,headerAt_setFree hf,headerAt_setSize hs]

lemma headerAt_newHeader_of_apart {size free next : ℕ} (h : Apart b c) :
    headerAt (newHeader mem b size free next) c=headerAt mem c :=
  headerAt_congr fun i _ _ => newHeader_of_outside (by unfold Apart at h; omega)

lemma headerAt_next_lt (mem : Buf) (b : ℕ) : (headerAt mem b).next<2^64 := Buf.rdLe64_lt _ _

end Headers

/-! ### The list of blocks -/

/-- A block of the list: where its header is, the size of its data and whether it is free. -/
structure Block where
  addr : ℕ
  size : ℕ
  free : Bool

lemma Block.ne_of_free {b c : Block} (hb : b.free=true) (hc : c.free=false) : c≠b := by
  rintro rfl
  exact Bool.false_ne_true (hc.symm.trans hb)

def Block.data (b : Block) : ℕ := b.addr+headerSize

def Block.stop (b : Block) : ℕ := b.addr+headerSize+b.size

/-- The header in memory says what the block is. -/
def Block.At (mem : Buf) (b : Block) : Prop :=
  (headerAt mem b.addr).size=b.size ∧ ((headerAt mem b.addr).free≠0 ↔ b.free=true)

/-- The links lead from `p` through the blocks of the list to `q`. -/
def Linked (mem : Buf) : ℕ → List Block → ℕ → Prop
  | p,[],q => p=q
  | p,b::l,q => p=b.addr ∧ b.At mem ∧ Linked mem (headerAt mem b.addr).next l q

/-- The heap consists of these blocks, in the order of their addresses. -/
structure Heap.Holds (h : Heap) (bs : List Block) : Prop where
  linked : Linked h.mem h.heapHead bs 0
  tail : ∀ b∈bs.getLast?, h.heapTail=b.addr
  pos : ∀ b∈bs, 0<b.addr
  sorted : bs.Pairwise fun a b => a.stop≤b.addr
  below : ∀ b∈bs, b.stop≤h.brk
  brk_pos : 0<h.brk
  brk_lt : h.brk<2^64
  owned : ∀ b∈bs, ∀ i, b.addr ≤ i → i<b.stop → h.owned i=true

section Linked
variable {mem mem' : Buf} {p q : ℕ} {l r : List Block} {b : Block}

lemma linked_append : Linked mem p (l++r) q ↔ ∃ m, Linked mem p l m ∧ Linked mem m r q := by
  induction l generalizing p with
  | nil =>
    constructor
    · exact fun h => ⟨p,rfl,h⟩
    · rintro ⟨m,rfl,h⟩
      exact h
  | cons b l ih =>
    simp only [List.cons_append,Linked,ih]
    constructor
    · rintro ⟨hp,hb,m,hl,hr⟩
      exact ⟨m,⟨hp,hb,hl⟩,hr⟩
    · rintro ⟨m,⟨hp,hb,hl⟩,hr⟩
      exact ⟨hp,hb,m,hl,hr⟩

lemma Linked.nil : Linked mem p [] p := rfl

lemma linked_cons_of_header {free next : ℕ} (h : headerAt mem b.addr=⟨b.size,free,next⟩)
    (hf : free≠0 ↔ b.free=true) (hl : Linked mem next l q) : Linked mem b.addr (b::l) q := by
  refine ⟨rfl,?_,?_⟩
  · rw [Block.At,h]
    exact ⟨rfl,hf⟩
  · rwa [h]

lemma Block.At.congr (h : b.At mem) (hsame : SameHeader mem mem' b.addr) : b.At mem' := by
  unfold Block.At
  rw [headerAt_congr hsame]
  exact h

lemma Linked.congr (h : Linked mem p l q) (hsame : ∀ b∈l, SameHeader mem mem' b.addr) :
    Linked mem' p l q := by
  induction l generalizing p with
  | nil => exact h
  | cons b l ih =>
    obtain ⟨hp,hb,hl⟩ := h
    have hb' := hsame b List.mem_cons_self
    refine ⟨hp,hb.congr hb',?_⟩
    rw [headerAt_congr hb']
    exact ih hl fun c hc => hsame c (List.mem_cons_of_mem b hc)

end Linked

section Holds
variable {h : Heap} {bs l r : List Block} {b c : Block}

lemma Heap.Holds.at_of_mem (hh : h.Holds bs) (hb : b∈bs) : b.At h.mem := by
  obtain ⟨l,r,rfl⟩ := List.append_of_mem hb
  obtain ⟨m,_,hr⟩ := linked_append.1 hh.linked
  exact hr.2.1

lemma Block.addr_lt_stop (b : Block) : b.addr<b.stop := by
  unfold Block.stop headerSize
  omega

lemma Heap.Holds.split (hh : h.Holds (l++b::r)) : Linked h.mem h.heapHead l b.addr ∧ b.At h.mem ∧
      Linked h.mem (headerAt h.mem b.addr).next r 0 ∧
      (∀ a∈l, a.stop≤b.addr) ∧ ∀ a∈r, b.stop≤a.addr := by
  obtain ⟨m,hl,hm,hb,hr⟩ := linked_append.1 hh.linked
  subst hm
  have hsorted := List.pairwise_append.1 hh.sorted
  exact ⟨hl,hb,hr,fun a ha => hsorted.2.2 a ha b List.mem_cons_self,
    (List.pairwise_cons.1 hsorted.2.1).1⟩

lemma Heap.Holds.apart (hh : h.Holds bs) (hb : b∈bs) (hc : c∈bs) :
    b=c ∨ b.stop≤c.addr ∨ c.stop≤b.addr := by
  have hpair := List.pairwise_iff_getElem.1 hh.sorted
  obtain ⟨i,hi,rfl⟩ := List.mem_iff_getElem.1 hb
  obtain ⟨j,hj,rfl⟩ := List.mem_iff_getElem.1 hc
  rcases Nat.lt_trichotomy i j with hij | rfl | hij
  · exact .inr (.inl (hpair i j hi hj hij))
  · exact .inl rfl
  · exact .inr (.inr (hpair j i hj hi hij))

lemma Heap.Holds.eq_of_addr (hh : h.Holds bs) (hb : b∈bs) (hc : c∈bs)
    (haddr : b.addr=c.addr) : b=c := by
  refine (hh.apart hb hc).resolve_right fun hd => ?_
  have := b.addr_lt_stop
  have := c.addr_lt_stop
  omega

lemma Heap.Holds.tail_iff (hh : h.Holds (l++b::r)) : h.heapTail=b.addr ↔ r=[] := by
  constructor
  · intro htail
    by_contra hnil
    have hlast := hh.tail (r.getLast hnil) (by
      rw [List.getLast?_append_of_ne_nil _ (List.cons_ne_nil _ _),List.getLast?_cons,
        List.getLast?_eq_getLast_of_ne_nil hnil]
      rfl)
    have := hh.split.2.2.2.2 (r.getLast hnil) (List.getLast_mem hnil)
    have := b.addr_lt_stop
    omega
  · rintro rfl
    exact hh.tail b (by simp)

lemma Heap.Holds.tail_eq (hh : h.Holds (l++b::r)) : h.heapTail=if r=[] then b.addr else h.heapTail := by
  split
  · exact hh.tail_iff.2 ‹_›
  · rfl

lemma Heap.Holds.length_le (hh : h.Holds bs) : bs.length≤h.brk := by
  have hnodup : (bs.map Block.addr).Nodup := by
    rw [List.Nodup,List.pairwise_map]
    refine hh.sorted.imp fun {a b} hab heq => ?_
    have := a.addr_lt_stop
    omega
  have hsub : (bs.map Block.addr).toFinset ⊆ Finset.range h.brk := by
    intro i hi
    obtain ⟨b,hb,rfl⟩ := List.mem_map.1 (List.mem_toFinset.1 hi)
    have := hh.below b hb
    have := b.addr_lt_stop
    exact Finset.mem_range.2 (by omega)
  have hcard := Finset.card_le_card hsub
  rwa [List.toFinset_card_of_nodup hnodup,Finset.card_range,List.length_map] at hcard

end Holds

/-! ### Replacing a part of the list -/

/-- Blocks of the list replaced by others in the same place `s..e`: what has to be shown of the
new ones and of the memory. -/
lemma Heap.Holds.replace {h h' : Heap} {l o n r : List Block} {p q s e : ℕ}
    (hh : h.Holds (l++(o++r))) (hl : Linked h.mem h.heapHead l p)
    (hr : Linked h.mem q r 0) (hnew : Linked h'.mem p n q)
    (hls : ∀ a∈l, a.stop ≤ s) (hre : ∀ a∈r, e≤a.addr)
    (hmem : ∀ i, i<s ∨ e ≤ i → h'.mem i=h.mem i)
    (hin : ∀ c∈n, s≤c.addr ∧ c.stop≤e)
    (hsorted : n.Pairwise fun a b => a.stop≤b.addr) (hs : 0<s) (he : e≤h.brk)
    (howned : ∀ i, s ≤ i → i<e → h.owned i=true) (hne : n≠[])
    (htail : h'.heapTail=if r=[] then (n.getLast hne).addr else h.heapTail)
    (hrest : h'.heapHead=h.heapHead ∧ h'.brk=h.brk ∧ h'.owned=h.owned) :
    h'.Holds (l++(n++r)) := by
  obtain ⟨hhead,hbrk,hown⟩ := hrest
  -- a block of the new list is an old one outside the replaced part, or a new one inside it
  have hcases : ∀ c∈l++(n++r), c∈l++(o++r) ∨ c∈n := by
    intro c hc
    simp only [List.mem_append] at hc ⊢
    tauto
  constructor
  · rw [linked_append]
    refine ⟨p,?_,linked_append.2 ⟨q,hnew,?_⟩⟩
    · rw [hhead]
      refine hl.congr fun a ha i _ hi => hmem i (.inl ?_)
      have := hls a ha
      unfold Block.stop at this
      omega
    · refine hr.congr fun a ha i hi _ => hmem i (.inr ?_)
      have := hre a ha
      omega
  · intro c hc
    by_cases hnil : r=[]
    · rw [hnil,List.append_nil,List.getLast?_append_of_ne_nil l hne,List.getLast?_eq_getLast_of_ne_nil hne] at hc
      rw [htail,if_pos hnil,Option.some.inj hc]
    · rw [List.getLast?_append_of_ne_nil _ (by simp [hnil]),List.getLast?_append_of_ne_nil _ hnil] at hc
      rw [htail,if_neg hnil]
      apply hh.tail
      rwa [List.getLast?_append_of_ne_nil _ (by simp [hnil]),List.getLast?_append_of_ne_nil _ hnil]
  · intro c hc
    rcases hcases c hc with hc | hc
    · exact hh.pos c hc
    · exact hs.trans_le (hin c hc).1
  · have hold := List.pairwise_append.1 hh.sorted
    have holdr := List.pairwise_append.1 hold.2.1
    refine List.pairwise_append.2 ⟨hold.1,List.pairwise_append.2
      ⟨hsorted,holdr.2.1,fun a ha c hc => (hin a ha).2.trans (hre c hc)⟩,?_⟩
    exact fun a ha => List.forall_mem_append.2 ⟨fun c hc => (hls a ha).trans (hin c hc).1,
      fun c hc => hold.2.2 a ha c (List.mem_append_right _ hc)⟩
  · intro c hc
    rw [hbrk]
    rcases hcases c hc with hc | hc
    · exact hh.below c hc
    · exact (hin c hc).2.trans he
  · exact hbrk ▸ hh.brk_pos
  · exact hbrk ▸ hh.brk_lt
  · intro c hc i h1 h2
    rw [hown]
    rcases hcases c hc with hc | hc
    · exact hh.owned c hc i h1 h2
    · exact howned i ((hin c hc).1.trans h1) (h2.trans_le (hin c hc).2)

section Steps
variable {h : Heap} {l r : List Block} {b n : Block} {need i : ℕ}

lemma Heap.Holds.setFree {v : ℕ} (hh : h.Holds (l++b::r)) (hv : v<2^32) :
    ({h with mem := setFree h.mem b.addr v} : Heap).Holds
      (l++{b with free := decide (v≠0)}::r) := by
  obtain ⟨hl,hb,hr,hls,hre⟩ := hh.split
  have hmem : b∈l++b::r := List.mem_append_cons_self
  have hstop : b.stop=b.addr+headerSize+b.size := rfl
  have hhead : headerAt (User.setFree h.mem b.addr v) b.addr=⟨b.size,v,(headerAt h.mem b.addr).next⟩ := by
    rw [headerAt_setFree hv,← hb.1]
  refine hh.replace (o := [b]) (n := [{b with free := decide (v≠0)}]) hl hr
    (linked_cons_of_header (b := {b with free := decide (v≠0)}) hhead (by simp) .nil) hls hre
    (fun i hi => setFree_of_outside (by omega)) ?_ (List.pairwise_singleton _ _) (hh.pos b hmem)
    (hh.below b hmem) (hh.owned b hmem) (List.cons_ne_nil _ _) hh.tail_eq ⟨rfl,rfl,rfl⟩
  exact List.forall_mem_singleton.2 ⟨le_rfl,le_rfl⟩

def Block.split (b : Block) (need : ℕ) : List Block :=
  if b.size<need+minRemain then [b]
  else [{b with size := need},⟨b.addr+headerSize+need,b.size-need-headerSize,true⟩]

section
variable (hh : h.Holds (l++b::r))
include hh

lemma Heap.Holds.block_lt : 0<b.addr ∧ b.addr+headerSize+b.size<2^64 := by
  have hmem : b∈l++b::r := List.mem_append_cons_self
  have hbelow := hh.below b hmem
  have := hh.brk_lt
  unfold Block.stop at hbelow
  exact ⟨hh.pos b hmem,by omega⟩

section
variable (hneed : need<2^63)
include hneed

lemma maybeSplitBlock_of_small (hsmall : b.size<need+minRemain) : maybeSplitBlock b.addr need h=h := by
  obtain ⟨_,hb,_⟩ := hh.split
  unfold maybeSplitBlock
  have : minRemain=40 := rfl
  rw [if_pos]
  right
  rw [Nat.mod_eq_of_lt (by omega),hb.1]
  exact hsmall

lemma maybeSplitBlock_of_large (hlarge : need+minRemain≤b.size) : maybeSplitBlock b.addr need h={h with
      mem := setNext (setSize (newHeader h.mem (b.addr+headerSize+need) (b.size-need-headerSize) 1
        (headerAt h.mem b.addr).next) b.addr need) b.addr (b.addr+headerSize+need)
      heapTail := if h.heapTail=b.addr then b.addr+headerSize+need else h.heapTail} := by
  obtain ⟨_,hb,_⟩ := hh.split
  obtain ⟨hpos,_⟩ := hh.block_lt
  unfold maybeSplitBlock
  have : minRemain=40 := rfl
  rw [Nat.mod_eq_of_lt (by omega),if_neg (by rw [hb.1]; omega),hb.1,newHeader]

lemma maybeSplitBlock_holds :
    (maybeSplitBlock b.addr need h).Holds (l++(b.split need++r)) := by
  by_cases hsize : b.size<need+minRemain
  · rw [maybeSplitBlock_of_small hh hneed hsize,Block.split,if_pos hsize]
    exact hh
  obtain ⟨hl,hb,hr,hls,hre⟩ := hh.split
  obtain ⟨hpos,hlt⟩ := hh.block_lt
  have hmem : b∈l++b::r := List.mem_append_cons_self
  have hmin : minRemain=headerSize+16 := rfl
  have hstop : b.stop=b.addr+headerSize+b.size := rfl
  rw [maybeSplitBlock_of_large hh hneed (by omega),Block.split,if_neg hsize]
  obtain ⟨n,hn⟩ : ∃ n, n=b.addr+headerSize+need := ⟨_,rfl⟩
  rw [← hn]
  have hapart : Apart b.addr n := .inl (by omega)
  have hnext := headerAt_next_lt h.mem b.addr
  have hheadB : headerAt (setNext (setSize (newHeader h.mem n (b.size-need-headerSize) 1
      (headerAt h.mem b.addr).next) b.addr need) b.addr n) b.addr=⟨need,(headerAt h.mem b.addr).free,n⟩ := by
    rw [headerAt_setNext (by omega),headerAt_setSize (by omega),headerAt_newHeader_of_apart hapart.symm]
  have hheadN : headerAt (setNext (setSize (newHeader h.mem n (b.size-need-headerSize) 1
      (headerAt h.mem b.addr).next) b.addr need) b.addr n) n =
        ⟨b.size-need-headerSize,1,(headerAt h.mem b.addr).next⟩ := by
    rw [headerAt_setNext_of_apart hapart,headerAt_setSize_of_apart hapart,
      headerAt_newHeader (by omega) (by norm_num) hnext]
  have hnew := linked_cons_of_header (b := {b with size := need}) hheadB hb.2
    (linked_cons_of_header (b := ⟨n,b.size-need-headerSize,true⟩) hheadN (by simp) .nil)
  refine hh.replace (o := [b]) hl hr hnew hls hre (fun i hi => ?_) ?_ ?_ hpos
    (hh.below b hmem) (hh.owned b hmem) (List.cons_ne_nil _ _) (by simp [hh.tail_iff]) ⟨rfl,rfl,rfl⟩
  · dsimp only
    rw [setNext_of_outside (by omega),setSize_of_outside (by omega),newHeader_of_outside (by omega)]
  · simp only [List.forall_mem_cons,Block.stop]
    exact ⟨by omega,by omega,by simp⟩
  · refine List.pairwise_pair.2 ?_
    simp only [Block.stop]
    omega

lemma maybeSplitBlock_mem (hi : i<b.addr ∨ b.data ≤ i ∧ i<b.data+need ∨ b.stop ≤ i) :
    (maybeSplitBlock b.addr need h).mem i=h.mem i := by
  by_cases hsize : b.size<need+minRemain
  · rw [maybeSplitBlock_of_small hh hneed hsize]
  have hmin : minRemain=headerSize+16 := rfl
  unfold Block.data Block.stop at hi
  rw [maybeSplitBlock_of_large hh hneed (by omega)]
  dsimp only
  rw [setNext_of_outside (by omega),setSize_of_outside (by omega),newHeader_of_outside (by omega)]

end

end

lemma absorb_mem {a m : ℕ} (hi : i<a ∨ a+headerSize ≤ i) : (absorb a m h).mem i=h.mem i := by
  unfold absorb
  simp only
  rw [setNext_of_outside hi,setSize_of_outside hi]

lemma absorb_holds {t : ℕ} (hh : h.Holds (l++b::n::r)) (hadj : b.stop=n.addr)
    (htail : t=if r=[] then b.addr else h.heapTail) :
    ({absorb b.addr n.addr h with heapTail := t} : Heap).Holds
      (l++{b with size := b.size+headerSize+n.size}::r) := by
  obtain ⟨hl,hb,⟨hbn,hn,hr⟩,hls,hre⟩ := hh.split
  have hhn : h.Holds ((l++[b])++n::r) := by simpa using hh
  obtain ⟨hpos,_⟩ := hh.block_lt
  obtain ⟨_,hlt⟩ := hhn.block_lt
  have hnr := hhn.split.2.2.2.2
  have hbmem : b∈l++b::n::r := List.mem_append_cons_self
  have hnmem : n∈l++b::n::r := by simp
  have hstopB : b.stop=b.addr+headerSize+b.size := rfl
  have hstopN : n.stop=n.addr+headerSize+n.size := rfl
  have hhead : headerAt (absorb b.addr n.addr h).mem b.addr =
      ⟨b.size+headerSize+n.size,(headerAt h.mem b.addr).free,(headerAt h.mem n.addr).next⟩ := by
    simp only [absorb]
    rw [headerAt_setNext (headerAt_next_lt _ _),hb.1,hn.1,headerAt_setSize (by omega)]
  refine hh.replace (o := [b,n]) (n := [{b with size := b.size+headerSize+n.size}]) hl hr
    (linked_cons_of_header (b := {b with size := b.size+headerSize+n.size}) hhead hb.2 .nil) hls hnr (fun i hi => absorb_mem (by omega)) ?_
    (List.pairwise_singleton _ _) hpos (hh.below n hnmem) (fun i h1 h2 => ?_) (List.cons_ne_nil _ _) htail
    ⟨rfl,rfl,rfl⟩
  · refine List.forall_mem_singleton.2 ?_
    simp only [Block.stop]
    omega
  · by_cases hi : i<b.stop
    · exact hh.owned b hbmem i h1 hi
    · exact hh.owned n hnmem i (by omega) h2

end Steps

/-! ### Merging free blocks -/

variable {h h' : Heap} {bs l r : List Block} {b : Block} {p i size : ℕ} {reply : Option ℕ}

/-- The list has other free blocks, and memory has changed only in headers. -/
structure Relinked (h h' : Heap) (bs bs' : List Block) : Prop where
  used : ∀ b∈bs, b.free=false → b∈bs'
  addrs : ∀ b∈bs', ∃ c∈bs, c.addr=b.addr
  mem : ∀ i, (∀ b∈bs, i<b.addr ∨ b.data ≤ i) → h'.mem i=h.mem i

lemma Relinked.refl (h : Heap) (bs : List Block) : Relinked h h bs bs :=
  ⟨fun _ hb _ => hb,fun b hb => ⟨b,hb,rfl⟩,fun _ _ => rfl⟩

lemma Relinked.trans {h'' : Heap} {bs' bs'' : List Block} (h1 : Relinked h h' bs bs')
    (h2 : Relinked h' h'' bs' bs'') : Relinked h h'' bs bs'' := by
  constructor
  · exact fun b hb hfree => h2.used b (h1.used b hb hfree) hfree
  · intro b hb
    obtain ⟨c,hc,hcb⟩ := h2.addrs b hb
    obtain ⟨d,hd,hdc⟩ := h1.addrs c hc
    exact ⟨d,hd,hdc.trans hcb⟩
  · intro i hi
    rw [h2.mem i,h1.mem i hi]
    intro b hb
    obtain ⟨c,hc,hcb⟩ := h1.addrs b hb
    have := hi c hc
    unfold Block.data at this ⊢
    omega

lemma coalesceFrom_spec (rounds : ℕ) (hh : h.Holds (l++b::r)) (hr : r.length<rounds) :
    ∃ h' bs', coalesceFrom rounds b.addr h=some h' ∧ h'.Holds bs' ∧
      Relinked h h' (l++b::r) bs' := by
  induction rounds generalizing h l b r with
  | zero => exact absurd hr (Nat.not_lt_zero _)
  | succ rounds ih =>
    obtain ⟨hl,hb,hnext,hls,hre⟩ := hh.split
    have hpos := (hh.block_lt).1
    unfold coalesceFrom
    dsimp only
    cases r with
    | nil =>
      have hlast : (headerAt h.mem b.addr).next=0 := hnext
      rw [if_pos (.inr hlast)]
      exact ⟨h,_,rfl,hh,.refl _ _⟩
    | cons n r =>
      obtain ⟨hbn,hn,_⟩ := hnext
      have hhn : h.Holds ((l++[b])++n::r) := by simpa using hh
      have hnpos := (hhn.block_lt).1
      rw [if_neg (by omega),hbn]
      by_cases hmerge : (headerAt h.mem b.addr).free≠0 ∧ (headerAt h.mem n.addr).free≠0 ∧
          b.addr+headerSize+(headerAt h.mem b.addr).size=n.addr
      · rw [if_pos hmerge]
        obtain ⟨hbfree,hnfree,hadj⟩ := hmerge
        rw [hb.1] at hadj
        have hheld := absorb_holds (t := if h.heapTail=n.addr then b.addr else h.heapTail)
          hh hadj (by simp only [hhn.tail_iff])
        obtain ⟨h',bs',hrun,hholds,hrel⟩ := ih hheld (by simpa using hr)
        refine ⟨h',bs',hrun,hholds,Relinked.trans ?_ hrel⟩
        constructor
        · intro c hc hfree
          have hcb := Block.ne_of_free (hb.2.1 hbfree) hfree
          have hcn := Block.ne_of_free (hn.2.1 hnfree) hfree
          simp only [List.mem_append,List.mem_cons,hcb,hcn,false_or] at hc ⊢
          tauto
        · intro c hc
          simp only [List.mem_append,List.mem_cons] at hc
          rcases hc with hc | rfl | hc
          · exact ⟨c,by simp [hc],rfl⟩
          · exact ⟨b,by simp,rfl⟩
          · exact ⟨c,by simp [hc],rfl⟩
        · exact fun i hi => absorb_mem (hi b (by simp))
      · rw [if_neg hmerge]
        obtain ⟨h',bs',hrun,hholds,hrel⟩ := ih hhn (by simpa using hr)
        refine ⟨h',bs',hrun,hholds,?_⟩
        simpa using hrel

lemma coalesceAll_spec (hh : h.Holds bs) :
    ∃ h' bs', coalesceAll h=some h' ∧ h'.Holds bs' ∧ Relinked h h' bs bs' := by
  unfold coalesceAll
  cases bs with
  | nil =>
    have hhead : h.heapHead=0 := hh.linked
    rw [hhead,coalesceFrom,if_pos (.inl rfl)]
    exact ⟨h,[],rfl,hh,.refl _ _⟩
  | cons b r =>
    have hhead : h.heapHead=b.addr := hh.linked.1
    have hlen := hh.length_le
    rw [List.length_cons] at hlen
    rw [hhead]
    exact coalesceFrom_spec (h.brk+1) (l := []) hh (by omega)

/-! ### Allocation -/

lemma findFit_spec {mem : Buf} (size rounds : ℕ)
    (hl : Linked mem p l 0) (hpos : ∀ b∈l, 0<b.addr) (hlen : l.length<rounds) :
    findFit mem size rounds p=some 0 ∨ ∃ l1 b l2, l=l1++b::l2 ∧
      findFit mem size rounds p=some b.addr ∧ b.free=true ∧ size≤b.size := by
  induction rounds generalizing p l with
  | zero => exact absurd hlen (Nat.not_lt_zero _)
  | succ rounds ih =>
    unfold findFit
    cases l with
    | nil =>
      left
      exact if_pos hl
    | cons b l =>
      obtain ⟨rfl,hb,hl⟩ := hl
      have hb0 := hpos b List.mem_cons_self
      rw [if_neg (by omega)]
      by_cases hfit : (headerAt mem b.addr).free≠0 ∧ size≤(headerAt mem b.addr).size
      · rw [if_pos hfit]
        rw [hb.1] at hfit
        exact .inr ⟨[],b,l,rfl,rfl,hb.2.1 hfit.1,hfit.2⟩
      · rw [if_neg hfit]
        rcases ih hl (fun c hc => hpos c (List.mem_cons_of_mem b hc)) (by simpa using hlen)
          with hnone | ⟨l1,c,l2,rfl,hfound⟩
        · exact .inl hnone
        · exact .inr ⟨b::l1,c,l2,rfl,hfound⟩

/-- The used blocks except the one at `p` are as before, with the bytes of their data. -/
def Kept (h h' : Heap) (bs bs' : List Block) (p : ℕ) : Prop :=
  ∀ c∈bs, c.free=false → c.data≠p → c∈bs' ∧ ∀ i, c.data ≤ i → i<c.stop → h'.mem i=h.mem i

/-- There is a used block `b` of at least `size` bytes which is not one of the used blocks
before. -/
structure Allocated (bs bs' : List Block) (size : ℕ) (b : Block) : Prop where
  mem : b∈bs'
  used : b.free=false
  size_le : size≤b.size
  fresh : ∀ c∈bs, c.free=false → c.addr≠b.addr

lemma alignUp_of_lt {v : ℕ} (hv : v<2^63) : v≤alignUp v 16 ∧ alignUp v 16<v+16 := by
  unfold alignUp
  rw [Nat.mod_eq_of_lt (by omega)]
  omega

lemma Block.split_eq_cons {need : ℕ} (hneed : need≤b.size) :
    ∃ size rest, b.split need={b with size := size}::rest ∧ need ≤ size ∧
      ∀ c∈rest, c.free=true := by
  unfold Block.split
  split
  · exact ⟨b.size,[],rfl,hneed,by simp⟩
  · exact ⟨need,_,rfl,le_rfl,by simp⟩

lemma Heap.Holds.data_apart {c : Block} (hh : h.Holds bs)
    (hb : b∈bs) (hc : c∈bs) (hne : c≠b) (h1 : c.data ≤ i) (h2 : i<c.stop) :
    i<b.addr ∨ b.stop ≤ i := by
  have hd := (hh.apart hc hb).resolve_left hne
  unfold Block.data at h1
  omega

lemma take_spec (hh : h.Holds (l++b::r))
    (hfree : b.free=true) (hsize : size≤b.size) (hlt : size<2^63) :
    ∃ bs' c, ({maybeSplitBlock b.addr size h with
        mem := setFree (maybeSplitBlock b.addr size h).mem b.addr 0} : Heap).Holds bs' ∧
      c.data=b.data ∧ Allocated (l++b::r) bs' size c ∧
      Kept h {maybeSplitBlock b.addr size h with
        mem := setFree (maybeSplitBlock b.addr size h).mem b.addr 0} (l++b::r) bs' 0 := by
  obtain ⟨s,rest,hsplit,hs,_⟩ := Block.split_eq_cons hsize
  have hheld := maybeSplitBlock_holds hh hlt
  rw [hsplit,List.cons_append] at hheld
  have hset := hheld.setFree (v := 0) (by norm_num)
  have hbmem : b∈l++b::r := List.mem_append_cons_self
  refine ⟨_,⟨b.addr,s,false⟩,hset,rfl,⟨List.mem_append_cons_self,rfl,hs,?_⟩,?_⟩
  · exact fun c hc hused heq => Block.ne_of_free hfree hused (hh.eq_of_addr hc hbmem heq)
  · intro c hc hused _
    have hcb := Block.ne_of_free hfree hused
    refine ⟨?_,fun i h1 h2 => ?_⟩
    · simp only [List.mem_append,List.mem_cons,hcb,false_or] at hc ⊢
      tauto
    · have hi := hh.data_apart hbmem hc hcb h1 h2
      have hstop : b.stop=b.addr+headerSize+b.size := rfl
      simp only
      rw [setFree_of_outside (by omega),maybeSplitBlock_mem hh hlt (by omega)]

lemma Heap.Holds.grow (brk : ℕ) (owned : ℕ → Bool)
    (hh : h.Holds bs) (hle : h.brk≤brk) (hlt : brk<2^64)
    (howned : ∀ i, h.owned i=true → owned i=true) :
    ({h with brk := brk, owned := owned} : Heap).Holds bs where
  linked := hh.linked
  tail := hh.tail
  pos := hh.pos
  sorted := hh.sorted
  below b hb := (hh.below b hb).trans hle
  brk_pos := hh.brk_pos.trans_le hle
  brk_lt := hlt
  owned b hb i h1 h2 := howned i (hh.owned b hb i h1 h2)

lemma appendBlock_mem (hi : i<p ∨ p+headerSize ≤ i)
    (htail : h.heapHead=0 ∨ i<h.heapTail ∨ h.heapTail+headerSize ≤ i) :
    (appendBlock p size h).mem i=h.mem i := by
  unfold appendBlock
  dsimp only
  by_cases hnil : h.heapHead=0
  · rw [if_pos hnil]
    exact newHeader_of_outside hi
  · rw [if_neg hnil]
    exact (setNext_of_outside (htail.resolve_left hnil)).trans (newHeader_of_outside hi)

lemma appendBlock_linked_nil (hh : h.Holds []) (hsize : size<2^64) :
    Linked (appendBlock p size h).mem (appendBlock p size h).heapHead [⟨p,size,false⟩] 0 := by
  have hhead : h.heapHead=0 := hh.linked
  unfold appendBlock
  dsimp only
  rw [if_pos hhead]
  exact linked_cons_of_header (b := ⟨p,size,false⟩) (headerAt_newHeader hsize (by norm_num) (by norm_num)) (by simp) .nil

lemma appendBlock_linked_concat
    (hh : h.Holds (l++[b])) (hb : b.stop≤p) (hsize : p+headerSize+size<2^64) :
    Linked (appendBlock p size h).mem (appendBlock p size h).heapHead
      ((l++[b])++[⟨p,size,false⟩]) 0 := by
  obtain ⟨hl,hbat,_,hls,_⟩ := hh.split
  have hpos := hh.block_lt.1
  have htail : h.heapTail=b.addr := hh.tail_iff.2 rfl
  have hhead : h.heapHead≠0 := by
    cases l with
    | nil =>
      have : h.heapHead=b.addr := hl
      omega
    | cons c l =>
      have : h.heapHead=c.addr := hl.1
      have := hh.pos c (by simp)
      omega
  have hstop : b.stop=b.addr+headerSize+b.size := rfl
  have hapart : Apart b.addr p := .inl (by omega)
  have hsame : ∀ c∈l, SameHeader h.mem (appendBlock p size h).mem c.addr := by
    intro c hc i _ hi
    have := hls c hc
    unfold Block.stop at this
    exact appendBlock_mem (by omega) (by omega)
  rw [List.append_assoc,linked_append]
  refine ⟨b.addr,?_,?_⟩
  · have hkeep : (appendBlock p size h).heapHead=h.heapHead := by
      unfold appendBlock
      dsimp only
      rw [if_neg hhead]
    rw [hkeep]
    exact hl.congr hsame
  · unfold appendBlock
    dsimp only
    rw [if_neg hhead,htail]
    have hheadB : headerAt (setNext (newHeader h.mem p size 0 0) b.addr p) b.addr =
        ⟨b.size,(headerAt h.mem b.addr).free,p⟩ := by
      rw [headerAt_setNext (by omega),headerAt_newHeader_of_apart hapart.symm,← hbat.1]
    have hheadP : headerAt (setNext (newHeader h.mem p size 0 0) b.addr p) p=⟨size,0,0⟩ := by
      rw [headerAt_setNext_of_apart hapart,headerAt_newHeader (by omega) (by norm_num) (by norm_num)]
    exact linked_cons_of_header hheadB hbat.2
      (linked_cons_of_header (b := ⟨p,size,false⟩) hheadP (by simp) .nil)

lemma appendBlock_rest (p size : ℕ) (h : Heap) : (appendBlock p size h).heapTail=p ∧
    (appendBlock p size h).brk=h.brk ∧ (appendBlock p size h).owned=h.owned := by
  unfold appendBlock
  dsimp only
  split <;> exact ⟨rfl,rfl,rfl⟩

lemma appendBlock_holds (hh : h.Holds bs)
    (hbs : ∀ b∈bs, b.stop≤p) (hp : 0<p) (hbelow : p+headerSize+size≤h.brk)
    (howned : ∀ i, p ≤ i → i<p+headerSize+size → h.owned i=true) :
    (appendBlock p size h).Holds (bs++[⟨p,size,false⟩]) := by
  have hbrk := hh.brk_lt
  obtain ⟨htail,hsame,hown⟩ := appendBlock_rest p size h
  constructor
  · by_cases hnil : bs=[]
    · subst hnil
      exact appendBlock_linked_nil hh (by omega)
    · rw [← List.dropLast_append_getLast hnil] at hh ⊢
      exact appendBlock_linked_concat hh (hbs _ (List.getLast_mem hnil)) (by omega)
  · intro c hc
    obtain rfl : _=c := by simpa using hc
    exact htail
  · exact List.forall_mem_append.2 ⟨hh.pos,List.forall_mem_singleton.2 hp⟩
  · exact List.pairwise_append.2 ⟨hh.sorted,List.pairwise_singleton _ _,fun a ha =>
      List.forall_mem_singleton.2 (hbs a ha)⟩
  · rw [hsame]
    exact List.forall_mem_append.2 ⟨hh.below,List.forall_mem_singleton.2 hbelow⟩
  · exact hsame ▸ hh.brk_pos
  · exact hsame ▸ hbrk
  · rw [hown]
    exact List.forall_mem_append.2 ⟨hh.owned,List.forall_mem_singleton.2 howned⟩

lemma Heap.Holds.data_ne_zero (hh : h.Holds bs) (hb : b∈bs) : b.data≠0 := by
  have := hh.pos b hb
  unfold Block.data
  omega

lemma sysSbrk_eq_some {n : ℕ} (hs : sysSbrk reply n h=some (p,h')) : h.brk≤p ∧ p+n<2^64 ∧ h'={h with
      brk := p+n, owned := fun i => h.owned i || decide (p ≤ i ∧ i<p+n)} := by
  unfold sysSbrk at hs
  cases reply with
  | none => cases hs
  | some a =>
    dsimp only at hs
    rw [ite_eq_iff] at hs
    rcases hs with ⟨hc,hs⟩ | ⟨_,hs⟩
    · cases hs
      exact ⟨hc.1,hc.2,rfl⟩
    · cases hs

lemma extend_spec (hh : h.Holds bs) (hs : sysSbrk reply (headerSize+size) h=some (p,h')) :
    (appendBlock p size h').Holds (bs++[⟨p,size,false⟩]) ∧
      Allocated bs (bs++[⟨p,size,false⟩]) size ⟨p,size,false⟩ ∧
      Kept h (appendBlock p size h') bs (bs++[⟨p,size,false⟩]) 0 := by
  obtain ⟨hle,hlt,rfl⟩ := sysSbrk_eq_some hs
  have hgrown := Heap.Holds.grow (p+(headerSize+size))
    (fun i => h.owned i || decide (p ≤ i ∧ i<p+(headerSize+size))) hh (by omega) hlt
    (fun i hi => by rw [hi,Bool.true_or])
  have hbs : ∀ b∈bs, b.stop≤p := fun b hb => (hh.below b hb).trans hle
  have hpos := hh.brk_pos
  refine ⟨appendBlock_holds hgrown hbs (by omega) (Nat.add_assoc _ _ _).le ?_,
    ⟨by simp,rfl,le_rfl,?_⟩,?_⟩
  · intro i h1 h2
    rw [Bool.or_eq_true,decide_eq_true_eq]
    exact .inr ⟨h1,by omega⟩
  · intro c hc _ heq
    have := hbs c hc
    have := c.addr_lt_stop
    simp only at heq
    omega
  · intro c hc _ _
    refine ⟨List.mem_append_left _ hc,fun i h1 h2 => ?_⟩
    have hcp := hbs c hc
    refine appendBlock_mem (by omega) ?_
    -- the tail is a block of the list, and headers lie outside the data of blocks
    have hne : bs≠[] := List.ne_nil_of_mem hc
    have htail : h.heapTail=(bs.getLast hne).addr :=
      hh.tail _ (List.getLast?_eq_getLast_of_ne_nil hne)
    have hlast := List.getLast_mem hne
    right
    simp only [htail]
    by_cases heq : c=bs.getLast hne
    · rw [← heq]
      exact .inr h1
    · have := hh.data_apart hlast hc heq h1 h2
      unfold Block.stop at this
      omega

/-- `malloc` gives nothing and changes nothing, or it gives a block that was not in use, and
the blocks in use stay as they are. -/
lemma malloc_spec (reply : Option ℕ) (size : ℕ) (hh : h.Holds bs) (hsize : size<2^63-64) :
    malloc reply size h=some (0,h) ∨ ∃ b h' bs', malloc reply size h=some (b.data,h') ∧
      h'.Holds bs' ∧ Allocated bs bs' size b ∧ Kept h h' bs bs' 0 := by
  unfold malloc
  by_cases h0 : size=0
  · exact .inl (if_pos h0)
  rw [if_neg h0]
  dsimp only
  obtain ⟨hle,hlt⟩ := alignUp_of_lt (v := size) (by omega)
  have hlen := hh.length_le
  rcases findFit_spec (alignUp size 16) (h.brk+1) hh.linked hh.pos (by omega)
    with hnone | ⟨l,b,r,rfl,hfound,hfree,hfit⟩
  · rw [hnone,Option.map_some,if_neg (not_not_intro rfl),
      Nat.mod_eq_of_lt (by unfold headerSize; omega)]
    rcases hs : sysSbrk reply (headerSize+alignUp size 16) h with _ | ⟨p,h'⟩
    · exact .inl rfl
    · obtain ⟨hholds,halloc,hkept⟩ := extend_spec hh hs
      exact .inr ⟨⟨p,alignUp size 16,false⟩,_,_,rfl,hholds,
        ⟨halloc.mem,halloc.used,hle,halloc.fresh⟩,hkept⟩
  · have hpos := (hh.block_lt).1
    rw [hfound,Option.map_some,if_pos (by omega)]
    obtain ⟨bs',c,hholds,hdata,halloc,hkept⟩ := take_spec hh hfree hfit (by omega)
    refine .inr ⟨c,_,bs',?_,hholds,
      ⟨halloc.mem,halloc.used,hle.trans halloc.size_le,halloc.fresh⟩,hkept⟩
    rw [hdata]
    rfl

/-! ### Release, change of size and zeroed memory -/

section Release
variable {h : Heap} {bs l r : List Block} {b c : Block} {bs' : List Block}

lemma Heap.Holds.store (mem : Buf) (hh : h.Holds bs) (hc : c∈bs)
    (hmem : ∀ i, i<c.data ∨ c.stop ≤ i → mem i=h.mem i) :
    ({h with mem := mem} : Heap).Holds bs where
  linked := by
    refine hh.linked.congr fun b hb i h1 h2 => hmem i ?_
    have hstop : b.stop=b.addr+headerSize+b.size := rfl
    have hdata : c.data=c.addr+headerSize := rfl
    rcases hh.apart hb hc with rfl | hd <;> omega
  tail := hh.tail
  pos := hh.pos
  sorted := hh.sorted
  below := hh.below
  brk_pos := hh.brk_pos
  brk_lt := hh.brk_lt
  owned := hh.owned

lemma Heap.Holds.header_outside_data (hh : h.Holds bs) (hb : b∈bs) (hc : c∈bs) {i : ℕ}
    (h1 : c.data ≤ i) (h2 : i<c.stop) : i<b.addr ∨ b.data ≤ i := by
  by_cases heq : c=b
  · exact .inr (heq ▸ h1)
  · have := hh.data_apart hb hc heq h1 h2
    unfold Block.stop at this
    unfold Block.data
    omega

lemma Block.data_sub (b : Block) : b.data-headerSize=b.addr := Nat.add_sub_cancel _ _

lemma free_spec (hh : h.Holds bs) (hb : b∈bs) :
    ∃ h' bs', free b.data h=some h' ∧ h'.Holds bs' ∧ Kept h h' bs bs' b.data := by
  obtain ⟨l,r,rfl⟩ := List.append_of_mem hb
  have hset := hh.setFree (v := 1) (by norm_num)
  obtain ⟨h',bs',hrun,hholds,hrel⟩ := coalesceAll_spec hset
  refine ⟨h',bs',?_,hholds,?_⟩
  · rw [free,if_neg (hh.data_ne_zero hb),Block.data_sub]
    exact hrun
  · intro c hc hused hne
    have hcb : c≠b := fun heq => hne (congrArg Block.data heq)
    refine ⟨hrel.used c ?_ hused,fun i h1 h2 => ?_⟩
    · simp only [List.mem_append,List.mem_cons,hcb,false_or] at hc ⊢
      tauto
    · have hout : ∀ a∈l++b::r, i<a.addr ∨ a.data ≤ i := fun a ha => hh.header_outside_data ha hc h1 h2
      simp only [List.forall_mem_append,List.forall_mem_cons] at hout
      rw [hrel.mem i (by rwa [List.forall_mem_append,List.forall_mem_cons])]
      exact setFree_of_outside hout.2.1

lemma Kept.trans {h'' : Heap} {bs'' : List Block} (h1 : Kept h h' bs bs' p)
    (h2 : Kept h' h'' bs' bs'' p) : Kept h h'' bs bs'' p := by
  intro c hc hused hne
  obtain ⟨hc',hmem⟩ := h1 c hc hused hne
  obtain ⟨hc'',hmem'⟩ := h2 c hc' hused hne
  exact ⟨hc'',fun i hi hi' => (hmem' i hi hi').trans (hmem i hi hi')⟩

/-- The block `c` has taken the place of `b`: it has `size` bytes, and the first of them are
those of `b`. -/
structure Resized (h h' : Heap) (bs bs' : List Block) (b c : Block) (size : ℕ) : Prop where
  mem : c∈bs'
  used : c.free=false
  size_le : size≤c.size
  fresh : ∀ d∈bs, d.free=false → d≠b → d.addr≠c.addr
  bytes : ∀ i, i<b.size → i<size → h'.mem (c.data+i)=h.mem (b.data+i)

lemma shrink_spec (hh : h.Holds (l++b::r)) (hused : b.free=false)
    (hsize : size≤b.size) (hlt : size<2^63) :
    ∃ bs' c, (maybeSplitBlock b.addr size h).Holds bs' ∧ c.data=b.data ∧
      Kept h (maybeSplitBlock b.addr size h) (l++b::r) bs' b.data ∧
      Resized h (maybeSplitBlock b.addr size h) (l++b::r) bs' b c size := by
  obtain ⟨s,rest,hsplit,hs,_⟩ := Block.split_eq_cons hsize
  have hheld := maybeSplitBlock_holds hh hlt
  rw [hsplit,List.cons_append] at hheld
  have hbmem : b∈l++b::r := List.mem_append_cons_self
  refine ⟨_,{b with size := s},hheld,rfl,?_,by simp,hused,hs,?_,?_⟩
  · intro c hc _ hne
    have hcb : c≠b := fun heq => hne (congrArg Block.data heq)
    refine ⟨?_,fun i h1 h2 => ?_⟩
    · simp only [List.mem_append,List.mem_cons,hcb,false_or] at hc ⊢
      tauto
    · have := hh.data_apart hbmem hc hcb h1 h2
      exact maybeSplitBlock_mem hh hlt (by omega)
  · exact fun d hd _ hdb heq => hdb (hh.eq_of_addr hd hbmem heq)
  · intro i _ hi
    exact maybeSplitBlock_mem hh hlt (.inr (.inl ⟨Nat.le_add_right _ _,by
      simp only [Block.data]
      omega⟩))

lemma grow_spec {n : Block} {t : ℕ} (hh : h.Holds (l++b::n::r))
    (hused : b.free=false) (hfree : n.free=true) (hadj : b.stop=n.addr)
    (htail : t=if r=[] then b.addr else h.heapTail)
    (hsize : size≤b.size+headerSize+n.size) (hlt : size<2^63) :
    ∃ h' bs' c, maybeSplitBlock b.addr size {absorb b.addr n.addr h with heapTail := t}=h' ∧
      h'.Holds bs' ∧ c.data=b.data ∧ Kept h h' (l++b::n::r) bs' b.data ∧
      Resized h h' (l++b::n::r) bs' b c size := by
  have hheld := absorb_holds hh hadj htail
  obtain ⟨bs',c,hholds,hdata,hkept,hres⟩ := shrink_spec hheld hused hsize hlt
  have hbmem : b∈l++b::n::r := List.mem_append_cons_self
  have hmem : ∀ d∈l++b::n::r, d.free=false → d≠b →
      d∈l++{b with size := b.size+headerSize+n.size}::r := by
    intro d hd hdused hdb
    have hdn := Block.ne_of_free hfree hdused
    simp only [List.mem_append,List.mem_cons,hdb,hdn,false_or] at hd ⊢
    tauto
  refine ⟨_,bs',c,rfl,hholds,hdata,Kept.trans ?_ hkept,hres.mem,hres.used,hres.size_le,?_,?_⟩
  · intro d hd hdused hne
    refine ⟨hmem d hd hdused fun heq => hne (congrArg Block.data heq),fun i h1 h2 => ?_⟩
    exact absorb_mem (hh.header_outside_data hbmem hd h1 h2)
  · intro d hd hdused hdb
    refine hres.fresh d (hmem d hd hdused hdb) hdused fun heq => hdb ?_
    exact hh.eq_of_addr hd hbmem (by rw [heq])
  · intro i hi hisize
    rw [hres.bytes i (by simp only; omega) hisize]
    exact absorb_mem (.inr (Nat.le_add_right _ _))

lemma move_spec (hh : h.Holds bs) (hb : b∈bs)
    (hused : b.free=false) (hholds : h'.Holds bs') (halloc : Allocated bs bs' size c)
    (hkept : Kept h h' bs bs' 0) (hsize : b.size ≤ size) :
    ∃ h'' bs'', free b.data {h' with mem := (h'.mem.copy c.data h'.mem b.data
        (headerAt h'.mem b.addr).size)}=some h'' ∧ h''.Holds bs'' ∧
      Kept h h'' bs bs'' b.data ∧ Resized h h'' bs bs'' b c size := by
  obtain ⟨hbmem,hbytes⟩ := hkept b hb hused (hh.data_ne_zero hb)
  have hbsize : (headerAt h'.mem b.addr).size=b.size := (hholds.at_of_mem hbmem).1
  have hle := halloc.size_le
  have hcstop : c.stop=c.data+c.size := rfl
  rw [hbsize]
  have hcopied := hholds.store (h'.mem.copy c.data h'.mem b.data b.size) halloc.mem
    (fun i hi => Buf.copy_of_outside (by omega))
  obtain ⟨h'',bs'',hrun,hfinal,hkept'⟩ := free_spec hcopied hbmem
  have hcdata : c.data≠b.data := by
    intro heq
    refine halloc.fresh b hb hused ?_
    unfold Block.data at heq
    omega
  obtain ⟨hc'',hcbytes⟩ := hkept' c halloc.mem halloc.used hcdata
  refine ⟨h'',bs'',hrun,hfinal,?_,hc'',halloc.used,hle,?_,?_⟩
  · intro d hd hdused hdb
    obtain ⟨hd',hdbytes⟩ := hkept d hd hdused (hh.data_ne_zero hd)
    obtain ⟨hd'',hdbytes'⟩ := hkept' d hd' hdused hdb
    refine ⟨hd'',fun i h1 h2 => ?_⟩
    have hdc : d≠c := fun heq => halloc.fresh d hd hdused (congrArg Block.addr heq)
    have := hholds.data_apart halloc.mem hd' hdc h1 h2
    unfold Block.stop at this
    rw [hdbytes' i h1 h2,← hdbytes i h1 h2]
    exact Buf.copy_of_outside (by unfold Block.data; omega)
  · exact fun d hd hdused _ => halloc.fresh d hd hdused
  · intro i hi _
    have hbstop : b.stop=b.data+b.size := rfl
    rw [hcbytes _ (Nat.le_add_right _ _) (by omega),← hbytes _ (Nat.le_add_right _ _) (by omega)]
    simp only
    rw [Buf.copy_of_inside (by omega),Nat.add_sub_cancel_left]

lemma Resized.mono {size' : ℕ} (hle : size' ≤ size)
    (hr : Resized h h' bs bs' b c size) : Resized h h' bs bs' b c size' :=
  ⟨hr.mem,hr.used,hle.trans hr.size_le,hr.fresh,fun i hi hi' => hr.bytes i hi (hi'.trans_le hle)⟩

lemma headerAt_absorb_next (a m : ℕ) :
    (headerAt (absorb a m h).mem a).next=(headerAt h.mem m).next := by
  unfold absorb
  dsimp only
  rw [headerAt_setNext (headerAt_next_lt _ _)]

lemma Linked.eq_zero_iff {mem : Buf} {q : ℕ} (hq : Linked mem q r 0)
    (hpos : ∀ a∈r, 0<a.addr) : q=0 ↔ r=[] := by
  cases r with
  | nil => exact iff_of_true hq rfl
  | cons a r =>
    have := hpos a List.mem_cons_self
    refine iff_of_false ?_ (List.cons_ne_nil _ _)
    rw [hq.1]
    omega

/-- `realloc` of a block in use to a nonzero size: nothing happens, or a block of the new size
takes its place. -/
lemma realloc_spec (reply : Option ℕ) (hh : h.Holds bs) (hb : b∈bs)
    (hused : b.free=false) (hpos : 0<size) (hlt : size<2^62) :
    realloc reply b.data size h=some (0,h) ∨ ∃ c h' bs',
      realloc reply b.data size h=some (c.data,h') ∧ h'.Holds bs' ∧
      Kept h h' bs bs' b.data ∧ Resized h h' bs bs' b c size := by
  obtain ⟨hle,halign⟩ := alignUp_of_lt (v := size) (by omega)
  obtain ⟨s,hs⟩ : ∃ s, s=alignUp size 16 := ⟨_,rfl⟩
  obtain ⟨l,r,rfl⟩ := List.append_of_mem hb
  obtain ⟨hl,hbat,hnext,hls,hre⟩ := hh.split
  unfold realloc
  dsimp only
  rw [if_neg (hh.data_ne_zero hb),if_neg (by omega),Block.data_sub,hbat.1,← hs]
  by_cases hfits : s≤b.size
  · rw [if_pos hfits]
    obtain ⟨bs',c,hholds,hdata,hkept,hres⟩ := shrink_spec hh hused hfits (by omega)
    exact .inr ⟨c,_,bs',by rw [hdata],hholds,hkept,hres.mono (by omega)⟩
  rw [if_neg hfits]
  by_cases hgrow : (headerAt h.mem b.addr).next≠0 ∧
      (headerAt h.mem (headerAt h.mem b.addr).next).free≠0 ∧
      b.addr+headerSize+b.size=(headerAt h.mem b.addr).next ∧
      s≤(b.size+headerSize+(headerAt h.mem (headerAt h.mem b.addr).next).size)%2^64
  · rw [if_pos hgrow]
    cases r with
    | nil => exact absurd hnext hgrow.1
    | cons n r =>
      obtain ⟨hbn,hn,hr⟩ := hnext
      rw [hbn] at hgrow ⊢
      obtain ⟨_,hnfree,hadj,hsize⟩ := hgrow
      have hhn : h.Holds ((l++[b])++n::r) := by simpa using hh
      have hnlt := (hhn.block_lt).2
      rw [hn.1,Nat.mod_eq_of_lt (by omega)] at hsize
      have hend := hr.eq_zero_iff fun a ha => hh.pos a (by simp [ha])
      obtain ⟨h',bs',c,hrun,hholds,hdata,hkept,hres⟩ := grow_spec (t := if
        (headerAt (absorb b.addr n.addr h).mem b.addr).next=0 then b.addr
        else (absorb b.addr n.addr h).heapTail) hh hused (hn.2.1 hnfree) hadj
        (by simp only [headerAt_absorb_next,hend]; rfl) hsize (by omega)
      exact .inr ⟨c,h',bs',by rw [hrun,hdata],hholds,hkept,hres.mono (by omega)⟩
  · rw [if_neg hgrow]
    rcases malloc_spec reply s hh (by omega) with hnone | ⟨c,h',bs',hrun,hholds,halloc,hkept⟩
    · rw [hnone]
      exact .inl rfl
    · rw [hrun]
      have hc0 := hholds.data_ne_zero halloc.mem
      obtain ⟨h'',bs'',hfree,hfinal,hkept',hres⟩ :=
        move_spec hh hb hused hholds halloc hkept (by omega)
      refine .inr ⟨c,h'',bs'',?_,hfinal,hkept',hres.mono (by omega)⟩
      simp only [Option.bind_eq_bind,Option.bind_some]
      rw [if_neg hc0,hfree]
      rfl

/-- `calloc` of a number of bytes that fits gives nothing and changes nothing, or a block that
was not in use, filled with zeros. -/
lemma calloc_spec {n : ℕ} (reply : Option ℕ) (hh : h.Holds bs) (hlt : n*size<2^62 ∨ 2^64≤n*size) :
    calloc reply n size h=some (0,h) ∨ ∃ c h' bs', calloc reply n size h=some (c.data,h') ∧
      h'.Holds bs' ∧ Allocated bs bs' (n*size) c ∧ Kept h h' bs bs' 0 ∧
      ∀ i<n*size, h'.mem (c.data+i)=0 := by
  unfold calloc
  by_cases h0 : n=0 ∨ size=0
  · rw [if_pos h0]
    exact .inl (if_pos rfl)
  rw [if_neg h0]
  by_cases hover : (2^64-1)/size<n
  · exact .inl (if_pos hover)
  rw [if_neg hover]
  have hfit : n*size≤2^64-1 := by
    rw [Nat.not_lt,Nat.le_div_iff_mul_le (by omega)] at hover
    exact hover
  dsimp only
  rw [Nat.mod_eq_of_lt (by omega)]
  rcases malloc_spec reply (n*size) hh (by omega) with hnone | ⟨c,h',bs',hrun,hholds,halloc,hkept⟩
  · rw [hnone]
    exact .inl rfl
  · have hle := halloc.size_le
    have hcstop : c.stop=c.data+c.size := rfl
    refine .inr ⟨c,{h' with mem := h'.mem.fill c.data 0 (n*size)},bs',?_,
      hholds.store _ halloc.mem fun i hi => if_neg (by omega),halloc,?_,?_⟩
    · rw [hrun,Option.map_some]
      simp only [if_neg (hholds.data_ne_zero halloc.mem)]
    · intro d hd hdused hdb
      obtain ⟨hd',hbytes⟩ := hkept d hd hdused hdb
      refine ⟨hd',fun i h1 h2 => ?_⟩
      have hdc : d≠c := fun heq => halloc.fresh d hd hdused (congrArg Block.addr heq)
      have := hholds.data_apart halloc.mem hd' hdc h1 h2
      rw [← hbytes i h1 h2]
      unfold Block.stop at this
      exact if_neg (by unfold Block.data; omega)
    · intro i hi
      exact if_pos (by omega)

end Release

end FuriOS.User
