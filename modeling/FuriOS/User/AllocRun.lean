import FuriOS.User.AllocSpec

/-! Runs of a program that uses the allocator: what holds of the blocks it has, whatever it
allocates, resizes, releases and stores. -/
namespace FuriOS.User
open Function

/-- A program's heap and the pointers it may use, with the sizes it has asked for. -/
structure Process where
  heap : Heap
  live : ℕ → Option ℕ

/-- A call of the allocator, or a store of the program into one of its blocks. -/
inductive Op
  | malloc (size : ℕ)
  | free (ptr : ℕ)
  | realloc (ptr size : ℕ)
  | calloc (n size : ℕ)
  | store (ptr off : ℕ) (v : UInt8)

def Op.operand : Op → ℕ
  | .malloc _ => 0
  | .free ptr => ptr
  | .realloc ptr _ => ptr
  | .calloc _ _ => 0
  | .store ptr _ _ => ptr

namespace Process

/-- The returned pointer, unless it is null, is live with the size asked for. -/
def given (live : ℕ → Option ℕ) (p size : ℕ) : ℕ → Option ℕ :=
  if p=0 then live else update live p (some size)

def released (live : ℕ → Option ℕ) (ptr : ℕ) : ℕ → Option ℕ := update live ptr none

def step (reply : Option ℕ) (op : Op) (s : Process) : Option (ℕ × Process) :=
  match op with
  | .malloc size => (User.malloc reply size s.heap).map fun (p,h) => (p,⟨h,given s.live p size⟩)
  | .free ptr => (User.free ptr s.heap).map fun h => (0,⟨h,released s.live ptr⟩)
  | .realloc ptr size => (User.realloc reply ptr size s.heap).map fun (p,h) =>
    -- a failed call leaves the old block to the program
    (p,⟨h,if p=0 ∧ size≠0 then s.live else given (released s.live ptr) p size⟩)
  | .calloc n size => (User.calloc reply n size s.heap).map fun (p,h) =>
    (p,⟨h,given s.live p (n*size)⟩)
  | .store ptr off v => some (0,
    {s with heap := {s.heap with mem := update s.heap.mem (ptr+off) v}})

/-- Sizes are below 2^62 (a product that `calloc` cannot represent is refused by it), and only
live pointers are released, resized or stored through; the null pointer is allowed where the C
functions allow it. -/
def Allowed (s : Process) : Op → Prop
  | .malloc size => size<2^62
  | .free ptr => ptr=0 ∨ ∃ n, s.live ptr=some n
  | .realloc ptr size => size<2^62 ∧ (ptr=0 ∨ ∃ n, s.live ptr=some n)
  | .calloc n size => n*size<2^62 ∨ 2^64≤n*size
  | .store ptr off _ => ∃ n, s.live ptr=some n ∧ off<n

def start (mem : Buf) (brk : ℕ) : Process := ⟨⟨mem,0,0,brk,fun _ => false⟩,fun _ => none⟩

/-- The states of all runs. -/
inductive Reached : Process → Prop
  | start (mem : Buf) (brk : ℕ) (hpos : 0<brk) (hlt : brk<2^64) : Reached (start mem brk)
  | step {s s' : Process} {reply : Option ℕ} {op : Op} {p : ℕ} (hs : Reached s)
    (hop : s.Allowed op) (hstep : s.step reply op=some (p,s')) : Reached s'

end Process

/-- The addresses of the headers of the list. -/
inductive Heap.IsHeader (h : Heap) : ℕ → Prop
  | head (hne : h.heapHead≠0) : IsHeader h h.heapHead
  | next {a : ℕ} (ha : IsHeader h a) (hne : (headerAt h.mem a).next≠0) :
    IsHeader h (headerAt h.mem a).next

/-- The live blocks are disjoint, lie outside the headers and in memory the system has given,
and have at least the size asked for. -/
structure Process.Sound (s : Process) : Prop where
  disjoint : ∀ p q n m, s.live p=some n → s.live q=some m → p≠q → p+n≤q ∨ q+m≤p
  headers : ∀ p n a, s.live p=some n → s.heap.IsHeader a → p+n≤a ∨ a+headerSize≤p
  provided : ∀ p n, s.live p=some n → n≤(headerAt s.heap.mem (p-headerSize)).size ∧
    ∀ i, p ≤ i → i<p+n → s.heap.owned i=true

/-- What a call promises about the pointer `p` it returns. -/
def Op.Promise (op : Op) (s s' : Process) (p : ℕ) : Prop :=
  match op with
  | .malloc size => p≠0 → s.live p=none ∧ s'.live p=some size
  | .free ptr => s'.live ptr=none
  | .realloc ptr size =>
    (p≠0 → s'.live p=some size ∧ (p≠ptr → s.live p=none ∧ s'.live ptr=none) ∧
      ∀ n, s.live ptr=some n → ∀ i < min n size, s'.heap.mem (p+i)=s.heap.mem (ptr+i)) ∧
    (p=0 → size≠0 → s'=s)
  | .calloc n size => p≠0 → s.live p=none ∧ s'.live p=some (n*size) ∧
      ∀ i<n*size, s'.heap.mem (p+i)=0
  | .store ptr off v => s'.live=s.live ∧ s'.heap.mem (ptr+off)=v

/-- The live blocks other than the operand stay live with their bytes. -/
def Process.Others (s s' : Process) (ptr : ℕ) : Prop :=
  ∀ q n, s.live q=some n → q≠ptr → s'.live q=some n ∧ ∀ i<n, s'.heap.mem (q+i)=s.heap.mem (q+i)

/-- The list of blocks behind the live pointers. -/
structure Process.Backed (s : Process) (bs : List Block) : Prop where
  holds : s.heap.Holds bs
  block : ∀ p n, s.live p=some n → ∃ b∈bs, b.free=false ∧ b.data=p ∧ n≤b.size

section
variable {s : Process} {bs : List Block}
variable {p n ptr size : ℕ} {bs' : List Block} {live : ℕ → Option ℕ} {b : Block} {h' : Heap}

lemma Heap.Holds.exists_of_isHeader {h : Heap} {a : ℕ} (hh : h.Holds bs) (ha : h.IsHeader a) :
    ∃ b∈bs, b.addr=a := by
  -- a header and the rest of the list behind it
  suffices hsuff : ∃ l b r, bs=l++b::r ∧ b.addr=a by
    obtain ⟨l,b,r,rfl,hb⟩ := hsuff
    exact ⟨b,by simp,hb⟩
  induction ha with
  | head hne =>
    cases bs with
    | nil => exact absurd hh.linked hne
    | cons b r => exact ⟨[],b,r,rfl,hh.linked.1.symm⟩
  | next _ hne ih =>
    obtain ⟨l,b,r,rfl,rfl⟩ := ih
    have hr := hh.split.2.2.1
    cases r with
    | nil => exact absurd hr hne
    | cons c r => exact ⟨l++[b],c,r,by simp,hr.1.symm⟩

lemma Block.stop_eq (b : Block) : b.stop=b.data+b.size := rfl

lemma Process.Backed.sound (hb : s.Backed bs) : s.Sound := by
  constructor
  · intro p q n m hp hq hpq
    obtain ⟨b,hbm,_,rfl,hn⟩ := hb.block p n hp
    obtain ⟨c,hcm,_,rfl,hm⟩ := hb.block q m hq
    have hbs := b.stop_eq
    have hcs := c.stop_eq
    have hbd : b.data=b.addr+headerSize := rfl
    have hcd : c.data=c.addr+headerSize := rfl
    have := (hb.holds.apart hbm hcm).resolve_left fun heq => hpq (congrArg Block.data heq)
    omega
  · intro p n a hp ha
    obtain ⟨b,hbm,_,rfl,hn⟩ := hb.block p n hp
    obtain ⟨c,hcm,rfl⟩ := hb.holds.exists_of_isHeader ha
    have hbs := b.stop_eq
    have hbd : b.data=b.addr+headerSize := rfl
    have hcs := c.addr_lt_stop
    unfold Block.stop at hbs hcs
    rcases hb.holds.apart hbm hcm with rfl | hd
    · omega
    · unfold Block.stop at hd
      omega
  · intro p n hp
    obtain ⟨b,hbm,_,rfl,hn⟩ := hb.block p n hp
    refine ⟨?_,fun i h1 h2 => hb.holds.owned b hbm i ?_ ?_⟩
    · rw [Block.data_sub,(hb.holds.at_of_mem hbm).1]
      exact hn
    · unfold Block.data at h1
      omega
    · rw [Block.stop_eq]
      omega

lemma Process.Backed.ne_zero (hb : s.Backed bs) (hp : s.live p=some n) : p≠0 := by
  obtain ⟨b,hbm,_,rfl,_⟩ := hb.block p n hp
  exact hb.holds.data_ne_zero hbm

lemma Process.Backed.others {s' : Process} (hb : s.Backed bs)
    (hkept : Kept s.heap s'.heap bs bs' ptr)
    (hlive : ∀ q n, s.live q=some n → q≠ptr → s'.live q=some n) : s.Others s' ptr := by
  intro q n hq hne
  obtain ⟨b,hbm,hused,rfl,hn⟩ := hb.block q n hq
  refine ⟨hlive _ n hq hne,fun i hi => (hkept b hbm hused hne).2 _ (Nat.le_add_right _ _) ?_⟩
  rw [Block.stop_eq]
  omega

lemma Process.given_of_ne_zero (hp : p≠0) : given live p size=update live p (some size) := if_neg hp

lemma Process.given_zero : given live 0 size=live := if_pos rfl

lemma Process.Backed.fresh (hb : s.Backed bs)
    (halloc : Allocated bs bs' size b) : s.live b.data=none := by
  by_contra hne
  obtain ⟨n,hn⟩ := Option.ne_none_iff_exists'.mp hne
  obtain ⟨c,hcm,hused,hdata,_⟩ := hb.block _ n hn
  refine halloc.fresh c hcm hused ?_
  unfold Block.data at hdata
  omega

lemma Process.Backed.allocate
    (hb : s.Backed bs) (hholds : h'.Holds bs') (halloc : Allocated bs bs' size b)
    (hkept : Kept s.heap h' bs bs' 0) :
    (⟨h',given s.live b.data size⟩ : Process).Backed bs' ∧
      s.Others ⟨h',given s.live b.data size⟩ 0 ∧ s.live b.data=none ∧
      given s.live b.data size b.data=some size := by
  have hp := hholds.data_ne_zero halloc.mem
  have hfresh := hb.fresh halloc
  rw [given_of_ne_zero hp]
  have hother : ∀ q n, s.live q=some n → update s.live b.data (some size) q=some n := by
    intro q n hq
    rw [update_of_ne]
    · exact hq
    · rintro rfl
      rw [hfresh] at hq
      cases hq
  refine ⟨⟨hholds,fun p n hpn => ?_⟩,hb.others hkept fun q n hq _ => hother q n hq,hfresh,
    update_self ..⟩
  by_cases hpb : p=b.data
  · subst hpb
    simp only [update_self,Option.some.injEq] at hpn
    exact ⟨b,halloc.mem,halloc.used,rfl,hpn ▸ halloc.size_le⟩
  · simp only [update_of_ne hpb] at hpn
    obtain ⟨c,hcm,hused,rfl,hn⟩ := hb.block p n hpn
    exact ⟨c,(hkept c hcm hused (hb.holds.data_ne_zero hcm)).1,hused,rfl,hn⟩

lemma Process.Backed.release (hb : s.Backed bs)
    (hholds : h'.Holds bs') (hkept : Kept s.heap h' bs bs' ptr) :
    (⟨h',released s.live ptr⟩ : Process).Backed bs' ∧ s.Others ⟨h',released s.live ptr⟩ ptr ∧
      released s.live ptr ptr=none := by
  refine ⟨⟨hholds,fun p n hpn => ?_⟩,hb.others hkept fun q n hq hne => ?_, update_self ..⟩
  · by_cases hp : p=ptr
    · subst hp
      simp [released] at hpn
    · simp only [released,update_of_ne hp] at hpn
      obtain ⟨c,hcm,hused,rfl,hn⟩ := hb.block p n hpn
      exact ⟨c,(hkept c hcm hused hp).1,hused,rfl,hn⟩
  · simp only [released,update_of_ne hne]
    exact hq

lemma Process.Backed.resize {c : Block}
    (hb : s.Backed bs) (hholds : h'.Holds bs') (hkept : Kept s.heap h' bs bs' b.data)
    (hres : Resized s.heap h' bs bs' b c size) :
    (⟨h',given (released s.live b.data) c.data size⟩ : Process).Backed bs' ∧
      s.Others ⟨h',given (released s.live b.data) c.data size⟩ b.data ∧
      (c.data≠b.data → s.live c.data=none) := by
  have hc := hholds.data_ne_zero hres.mem
  obtain ⟨hbacked,hothers,_⟩ := hb.release hholds hkept
  rw [given_of_ne_zero hc]
  have hfresh : ∀ q n, s.live q=some n → q≠b.data → q≠c.data := by
    rintro q n hq hqb rfl
    obtain ⟨d,hdm,hused,hdata,_⟩ := hb.block _ n hq
    refine hres.fresh d hdm hused (fun heq => hqb (by rw [← hdata,heq])) ?_
    unfold Block.data at hdata
    omega
  refine ⟨⟨hholds,fun p n hpn => ?_⟩,fun q n hq hqb => ?_,fun hcb => ?_⟩
  · by_cases hpc : p=c.data
    · subst hpc
      simp only [update_self,Option.some.injEq] at hpn
      exact ⟨c,hres.mem,hres.used,rfl,hpn ▸ hres.size_le⟩
    · simp only [update_of_ne hpc] at hpn
      exact hbacked.block p n hpn
  · obtain ⟨hlive,hbytes⟩ := hothers q n hq hqb
    refine ⟨?_,hbytes⟩
    simp only [update_of_ne (hfresh q n hq hqb)]
    exact hlive
  · by_contra hne
    obtain ⟨n,hn⟩ := Option.ne_none_iff_exists'.mp hne
    exact hfresh _ n hn hcb rfl

/-- What is to be shown of a call: it ends, the live pointers keep their blocks, the other
blocks their bytes, and the call keeps its promise. -/
def Process.Behaves (s : Process) (reply : Option ℕ) (op : Op) : Prop :=
  ∃ p s', s.step reply op=some (p,s') ∧ (∃ bs', s'.Backed bs') ∧ s.Others s' op.operand ∧
    op.Promise s s' p

lemma Process.Others.refl (s : Process) (ptr : ℕ) : s.Others s ptr :=
  fun _ _ hq _ => ⟨hq,fun _ _ => rfl⟩

section
variable (hb : s.Backed bs)
include hb

lemma Process.Backed.malloc_behaves (reply : Option ℕ)
    (hsize : size<2^62) : s.Behaves reply (.malloc size) := by
  rcases malloc_spec reply size hb.holds (by omega) with hnone | ⟨b,h',bs',hrun,hholds,halloc,hkept⟩
  · refine ⟨0,s,?_,⟨bs,hb⟩,.refl s _,fun h0 => absurd rfl h0⟩
    rw [step,hnone]
    rfl
  · obtain ⟨hbacked,hothers,hfresh,hlive⟩ := hb.allocate hholds halloc hkept
    refine ⟨b.data,⟨h',given s.live b.data size⟩,?_,⟨bs',hbacked⟩,hothers, fun _ => ⟨hfresh,hlive⟩⟩
    rw [step,hrun]
    rfl

lemma Process.Backed.calloc_behaves (reply : Option ℕ)
    (hsize : n*size<2^62 ∨ 2^64≤n*size) : s.Behaves reply (.calloc n size) := by
  rcases calloc_spec reply hb.holds hsize with hnone | ⟨b,h',bs',hrun,hholds,halloc,hkept,hzero⟩
  · refine ⟨0,s,?_,⟨bs,hb⟩,.refl s _,fun h0 => absurd rfl h0⟩
    rw [step,hnone]
    rfl
  · obtain ⟨hbacked,hothers,hfresh,hlive⟩ := hb.allocate hholds halloc hkept
    refine ⟨b.data,⟨h',given s.live b.data (n*size)⟩,?_,⟨bs',hbacked⟩,hothers,
      fun _ => ⟨hfresh,hlive,hzero⟩⟩
    rw [step,hrun]
    rfl

lemma Process.Backed.live_zero : s.live 0=none := by
  by_contra hne
  obtain ⟨n,hn⟩ := Option.ne_none_iff_exists'.mp hne
  exact hb.ne_zero hn rfl

lemma Process.Backed.released_zero : released s.live 0=s.live := by
  rw [released,← hb.live_zero,update_eq_self]

section
variable (reply : Option ℕ)
include reply

lemma Process.Backed.free_behaves (hptr : ptr=0 ∨ ∃ n, s.live ptr=some n) : s.Behaves reply (.free ptr) := by
  rcases hptr with rfl | ⟨n,hn⟩
  · refine ⟨0,s,?_,⟨bs,hb⟩,.refl s _,hb.live_zero⟩
    rw [step,User.free,if_pos rfl,Option.map_some,hb.released_zero]
  · obtain ⟨b,hbm,_,rfl,_⟩ := hb.block ptr n hn
    obtain ⟨h',bs',hrun,hholds,hkept⟩ := free_spec hb.holds hbm
    obtain ⟨hbacked,hothers,hnone⟩ := hb.release hholds hkept
    refine ⟨0,⟨h',released s.live b.data⟩,?_,⟨bs',hbacked⟩,hothers,hnone⟩
    rw [step,hrun]
    rfl

lemma Process.Backed.realloc_null_behaves (hsize : size<2^62) : s.Behaves reply (.realloc 0 size) := by
  rcases malloc_spec reply size hb.holds (by omega) with hnone | ⟨b,h',bs',hrun,hholds,halloc,hkept⟩
  · refine ⟨0,s,?_,⟨bs,hb⟩,.refl s _,fun h0 => absurd rfl h0,fun _ _ => rfl⟩
    rw [step,User.realloc,if_pos rfl,hnone,Option.map_some]
    dsimp only
    rw [given_zero,hb.released_zero,ite_self]
  · obtain ⟨hbacked,hothers,hfresh,hlive⟩ := hb.allocate hholds halloc hkept
    have hp := hholds.data_ne_zero halloc.mem
    refine ⟨b.data,⟨h',given s.live b.data size⟩,?_,⟨bs',hbacked⟩,hothers,
      fun _ => ⟨hlive,fun _ => ⟨hfresh,?_⟩,fun n hn => absurd rfl (hb.ne_zero hn)⟩,
      fun h0 => absurd h0 hp⟩
    · rw [step,User.realloc,if_pos rfl,hrun,Option.map_some]
      dsimp only
      rw [if_neg (fun h => hp h.1),hb.released_zero]
    · change given s.live b.data size 0=none
      rw [given_of_ne_zero hp,update_of_ne hp.symm,hb.live_zero]

lemma Process.Backed.realloc_behaves (hsize : size<2^62) (hptr : ptr=0 ∨ ∃ n, s.live ptr=some n) :
    s.Behaves reply (.realloc ptr size) := by
  rcases hptr with rfl | ⟨n,hn⟩
  · exact hb.realloc_null_behaves reply hsize
  obtain ⟨b,hbm,hused,rfl,hle⟩ := hb.block ptr n hn
  have hp := hb.holds.data_ne_zero hbm
  by_cases h0 : size=0
  · subst h0
    obtain ⟨h',bs',hrun,hholds,hkept⟩ := free_spec hb.holds hbm
    obtain ⟨hbacked,hothers,_⟩ := hb.release hholds hkept
    refine ⟨0,⟨h',released s.live b.data⟩,?_,⟨bs',hbacked⟩,hothers,
      fun h0 => absurd rfl h0,fun _ h0 => absurd rfl h0⟩
    rw [step,User.realloc,if_neg hp,if_pos rfl,hrun]
    rfl
  · rcases realloc_spec reply hb.holds hbm hused (Nat.pos_of_ne_zero h0) hsize
      with hnone | ⟨c,h',bs',hrun,hholds,hkept,hres⟩
    · refine ⟨0,s,?_,⟨bs,hb⟩,.refl s _,fun h => absurd rfl h,fun _ _ => rfl⟩
      rw [step,hnone,Option.map_some]
      dsimp only
      rw [if_pos ⟨rfl,h0⟩]
    · obtain ⟨hbacked,hothers,hfresh⟩ := hb.resize hholds hkept hres
      have hc := hholds.data_ne_zero hres.mem
      refine ⟨c.data,⟨h',given (released s.live b.data) c.data size⟩,?_,⟨bs',hbacked⟩,hothers,
        fun _ => ⟨?_,fun hcb => ⟨hfresh hcb,?_⟩,?_⟩,fun h => absurd h hc⟩
      · rw [step,hrun,Option.map_some]
        dsimp only
        rw [if_neg (fun h => hc h.1)]
      · change given _ c.data size c.data=_
        rw [given_of_ne_zero hc,update_self]
      · change given _ c.data size b.data=none
        rw [given_of_ne_zero hc,update_of_ne hcb.symm,released,update_self]
      · intro m hm i hi
        rw [hn,Option.some.injEq] at hm
        exact hres.bytes i (by omega) (by omega)

lemma Process.Backed.store_behaves {off : ℕ}
    {v : UInt8} (hn : s.live ptr=some n) (hoff : off<n) :
    s.Behaves reply (.store ptr off v) := by
  obtain ⟨b,hbm,_,rfl,hle⟩ := hb.block ptr n hn
  have hholds := hb.holds.store (update s.heap.mem (b.data+off) v) hbm (by
    intro i hi
    rw [Block.stop_eq] at hi
    exact update_of_ne (by omega) _ _)
  have hkept : Kept s.heap {s.heap with mem := update s.heap.mem (b.data+off) v} bs bs b.data := by
    intro c hcm hused hne
    refine ⟨hcm,fun i h1 h2 => ?_⟩
    have := hb.holds.data_apart hbm hcm (fun heq => hne (congrArg Block.data heq)) h1 h2
    have hbd : b.data=b.addr+headerSize := rfl
    rw [Block.stop_eq] at this
    exact update_of_ne (by omega) _ _
  exact ⟨0,_,rfl,⟨bs,hholds,hb.block⟩,hb.others hkept fun q m hq _ => hq,rfl, update_self ..⟩

lemma Process.Backed.behaves {op : Op}
    (hop : s.Allowed op) : s.Behaves reply op := by
  cases op with
  | malloc size => exact hb.malloc_behaves reply hop
  | free ptr => exact hb.free_behaves reply hop
  | realloc ptr size => exact hb.realloc_behaves reply hop.1 hop.2
  | calloc n size => exact hb.calloc_behaves reply hop
  | store ptr off v =>
    obtain ⟨n,hn,hoff⟩ := hop
    exact hb.store_behaves reply hn hoff

end

end

lemma Process.backed_start {mem : Buf} {brk : ℕ} (hpos : 0<brk) (hlt : brk<2^64) :
    (start mem brk).Backed [] where
  holds := {
    linked := rfl
    tail := by simp
    pos := by simp
    sorted := .nil
    below := by simp
    brk_pos := hpos
    brk_lt := hlt
    owned := by simp}
  block p n hp := by cases hp

lemma Process.Reached.backed (hs : s.Reached) : ∃ bs, s.Backed bs := by
  induction hs with
  | start mem brk hpos hlt => exact ⟨[],backed_start hpos hlt⟩
  | step _ hop hstep ih =>
    obtain ⟨bs,hb⟩ := ih
    obtain ⟨p',s'',hstep',hbacked,_⟩ := hb.behaves _ hop
    rw [hstep] at hstep'
    cases hstep'
    exact hbacked

end

/-- In every state of every run the live blocks are sound, and every call the program may make
ends, leaves the other live blocks as they are and keeps its promise. -/
theorem Process.heap_safe {s : Process} (hs : s.Reached) :
    s.Sound ∧ ∀ reply op, s.Allowed op → ∃ p s', s.step reply op=some (p,s') ∧
      s.Others s' op.operand ∧ op.Promise s s' p := by
  obtain ⟨bs,hb⟩ := hs.backed
  refine ⟨hb.sound,fun reply op hop => ?_⟩
  obtain ⟨p,s',hstep,_,hothers,hpromise⟩ := hb.behaves reply hop
  exact ⟨p,s',hstep,hothers,hpromise⟩

def Process.after (s : Process) (reply : Option ℕ) (op : Op) : Process :=
  ((s.step reply op).map Prod.snd).getD s

lemma Process.Reached.after {s : Process} (hs : s.Reached) {reply : Option ℕ} {op : Op}
    (hop : s.Allowed op) : (s.after reply op).Reached := by
  rw [Process.after]
  cases hstep : s.step reply op with
  | none => exact hs
  | some r => exact hs.step hop hstep

/-- Three blocks of 16 bytes; the second holds a byte and the first is released. -/
def Process.threeBlocks : Process :=
  (start Buf.zero 4096).after (some 4096) (.malloc 16) |>.after (some 4136) (.malloc 16)
    |>.after (some 4176) (.malloc 16) |>.after none (.store 4160 3 7) |>.after none (.free 4120)

lemma Process.reached_threeBlocks : threeBlocks.Reached := by
  have hsize : 16<2^62 := by norm_num
  refine .after (.after (.after (.after (.after (.start _ _ ?_ ?_) ?_) ?_) ?_) ?_) ?_
  exacts [by norm_num,by norm_num,hsize,hsize,hsize,⟨16,by decide +kernel,by decide⟩,
    .inr ⟨16,by decide +kernel⟩]

/-- The second block is used on both sides and moves behind the third: its byte comes along, and
the third block stays. -/
theorem Process.heap_safe_moved : ∃ s', threeBlocks.Reached ∧ threeBlocks.live 4160=some 16 ∧
    threeBlocks.live 4200=some 16 ∧ threeBlocks.step (some 4216) (.realloc 4160 32)=some (4240,s') ∧
    s'.live 4160=none ∧ s'.live 4200=some 16 ∧ s'.live 4240=some 32 ∧ s'.heap.mem (4240+3)=7 := by
  have h2 : threeBlocks.live 4160=some 16 := by decide +kernel
  have h3 : threeBlocks.live 4200=some 16 := by decide +kernel
  obtain ⟨p,s',hstep,hothers,hpromise,-⟩ := (heap_safe reached_threeBlocks).2 (some 4216)
    (.realloc 4160 32) ⟨by norm_num,.inr ⟨16,h2⟩⟩
  have hp : (threeBlocks.step (some 4216) (.realloc 4160 32)).map Prod.fst=some 4240 := by
    decide +kernel
  rw [hstep,Option.map_some,Option.some.injEq] at hp
  obtain rfl : p=4240 := hp
  obtain ⟨hlive,hmoved,hbytes⟩ := hpromise (by decide)
  have hbyte : threeBlocks.heap.mem (4160+3)=7 := by decide +kernel
  exact ⟨s',reached_threeBlocks,h2,h3,hstep,(hmoved (by decide)).2,
    (hothers 4200 16 h3 (by decide)).1,hlive,(hbytes 16 h2 3 (by decide)).trans hbyte⟩

end FuriOS.User
