import FuriOS.Lib.Bytes

/-! Thread-local storage of the loaded objects: `dso_init_tls_runtime` of the dynamic loader. -/
namespace FuriOS.Ld

/-- The TLS segment of an object. Objects without one, which both loops skip, are left out; the
invariants hold since the object was loaded. -/
structure TlsObj where
  tlsAlign : ℕ
  tlsMemsz : ℕ
  tlsFilesz : ℕ
  tlsInitOff : ℕ
  imageSize : ℕ
  image : Buf
  align_pos : 0<tlsAlign
  align_lt : tlsAlign<2^64
  memsz_pos : 0<tlsMemsz
  filesz_le : tlsFilesz≤tlsMemsz

/-- `(v + a - 1) & ~(a - 1)` in 64 bits, for a power of two `a`. -/
def alignUpU64 (v a : ℕ) : ℕ := (v+a-1)%2^64/a*a

/-- The first loop: every object with its `tls_offset`, and the total. -/
def tlsLayout : ℕ → List TlsObj → Option (List (TlsObj × ℕ) × ℕ)
  | total,[] => some ([],total)
  | total,o::os =>
    let off := alignUpU64 total o.tlsAlign
    if o.tlsAlign &&& (o.tlsAlign-1)≠0 then none
    else (tlsLayout ((off+o.tlsMemsz)%2^64) os).map fun r => ((o,off)::r.1,r.2)

/-- The second loop copies the images into the block. -/
def tlsCopy (blk : ℕ) : List (TlsObj × ℕ) → Buf → Option Buf
  | [],mem => some mem
  | (o,off)::ps,mem =>
    if o.tlsFilesz≠0 ∧ (o.imageSize<o.tlsInitOff ∨ o.imageSize-o.tlsInitOff<o.tlsFilesz) then none
    else tlsCopy blk ps (mem.copy (blk+off) o.image o.tlsInitOff o.tlsFilesz)

/-- The objects with their offsets, `g_tls_block` with its size, and the memory. -/
structure TlsRuntime where
  placed : List (TlsObj × ℕ)
  block : ℕ
  size : ℕ
  mem : Buf

def dsoInitTlsRuntime (mmap : ℕ → Option ℕ) (objs : List TlsObj) (mem : Buf) : Option TlsRuntime :=
  (tlsLayout 0 objs).bind fun (placed,total) =>
    if total=0 then some ⟨placed,0,0,mem⟩
    else
      let len := alignUpU64 total 4096
      (mmap len).bind fun blk =>
        (tlsCopy blk placed (mem.fill blk 0 len)).map fun mem => ⟨placed,blk,len,mem⟩

def TlsApart (x y : TlsObj × ℕ) : Prop := x.2+x.1.tlsMemsz≤y.2 ∨ y.2+y.1.tlsMemsz≤x.2

/-- The blocks are apart from each other, inside the mapped block and aligned, and each holds the
image followed by zeros. -/
structure TlsRuntime.Right (r : TlsRuntime) : Prop where
  apart : r.placed.Pairwise TlsApart
  inside : ∀ x∈r.placed, x.2+x.1.tlsMemsz≤r.size
  aligned : ∀ x∈r.placed, x.1.tlsAlign∣r.block+x.2
  image : ∀ x∈r.placed, ∀ k<x.1.tlsMemsz, r.mem (r.block+x.2+k) =
    if k<x.1.tlsFilesz then x.1.image (x.1.tlsInitOff+k) else 0

def roundUp (v a : ℕ) : ℕ := (v+a-1)/a*a

/-- No sum wraps, from the first loop to the size of the mapped block. -/
def TlsFits : ℕ → List TlsObj → Prop
  | total,[] => total+4095<2^64
  | total,o::os => total+o.tlsAlign-1<2^64 ∧ roundUp total o.tlsAlign+o.tlsMemsz<2^64 ∧
      TlsFits (roundUp total o.tlsAlign+o.tlsMemsz) os

section Layout
variable {v a total e blk : ℕ} {objs : List TlsObj} {placed : List (TlsObj × ℕ)} {mem mem' : Buf}

lemma alignUpU64_of_lt (h : v+a-1<2^64) : alignUpU64 v a=roundUp v a := by
  rw [alignUpU64,Nat.mod_eq_of_lt h,roundUp]

lemma alignUpU64_of_ge (hv : v<2^64) (ha : a<2^64) (h : 2^64≤v+a-1) : alignUpU64 v a=0 := by
  rw [alignUpU64,Nat.div_eq_of_lt (by omega),Nat.zero_mul]

lemma le_roundUp (v : ℕ) (ha : 0<a) : v≤roundUp v a := by
  have hmod := Nat.div_add_mod' (v+a-1) a
  have hlt := Nat.mod_lt (v+a-1) ha
  unfold roundUp
  omega

lemma tlsLayout_cons {o : TlsObj} {os : List TlsObj} (h : tlsLayout total (o::os)=some (placed,e)) :
    ∃ ps, placed=(o,alignUpU64 total o.tlsAlign)::ps ∧
      tlsLayout ((alignUpU64 total o.tlsAlign+o.tlsMemsz)%2^64) os=some (ps,e) := by
  rw [tlsLayout] at h
  split_ifs at h
  obtain ⟨⟨ps,e'⟩,hps,heq⟩ := Option.map_eq_some_iff.1 h
  cases heq
  exact ⟨ps,rfl,hps⟩

section
variable (h : tlsLayout total objs=some (placed,e))
include h

lemma tlsLayout_end : placed.map Prod.fst=objs ∧
    (e=total ∨ ∃ x∈placed, e=(x.2+x.1.tlsMemsz)%2^64) := by
  induction objs generalizing total placed with
  | nil =>
    cases h
    exact ⟨rfl,.inl rfl⟩
  | cons o os ih =>
    obtain ⟨ps,rfl,hps⟩ := tlsLayout_cons h
    obtain ⟨hmap,he⟩ := ih hps
    refine ⟨by rw [List.map_cons,hmap],.inr ?_⟩
    rcases he with he | ⟨x,hx,he⟩
    · exact ⟨_,List.mem_cons_self,he⟩
    · exact ⟨x,List.mem_cons_of_mem _ hx,he⟩

/-- Without a wrap the blocks follow each other. -/
lemma tlsLayout_of_fits (hfits : TlsFits total objs) :
    total≤e ∧ e+4095<2^64 ∧ placed.Pairwise TlsApart ∧ ∀ x∈placed,
      total≤x.2 ∧ x.2+x.1.tlsMemsz≤e ∧ x.1.tlsAlign∣x.2 := by
  induction objs generalizing total placed with
  | nil =>
    cases h
    exact ⟨le_rfl,hfits,.nil,by simp⟩
  | cons o os ih =>
    obtain ⟨ps,rfl,hps⟩ := tlsLayout_cons h
    obtain ⟨hround,hsum,hfits⟩ := hfits
    have hup := le_roundUp total o.align_pos
    rw [alignUpU64_of_lt hround,Nat.mod_eq_of_lt hsum] at hps
    rw [alignUpU64_of_lt hround]
    obtain ⟨hle,hlt,happart,hall⟩ := ih hps hfits
    refine ⟨by omega,hlt,happart.cons fun y hy => .inl (hall y hy).1,List.forall_mem_cons.2
      ⟨⟨hup,hle,Nat.dvd_mul_left _ _⟩,fun x hx => ⟨?_,(hall x hx).2⟩⟩⟩
    have := (hall x hx).1
    omega

/-- A wrap puts a block at offset 0, where another one is, or lets it reach behind the end. -/
lemma tlsFits_of_apart (ht : total<2^64) (he : e+4095<2^64)
    (happart : placed.Pairwise TlsApart) (hin : ∀ x∈placed, x.2+x.1.tlsMemsz<2^64)
    (hzero : 0<total → ∀ x∈placed, x.2≠0) : TlsFits total objs := by
  induction objs generalizing total placed with
  | nil =>
    cases h
    exact he
  | cons o os ih =>
    obtain ⟨ps,rfl,hps⟩ := tlsLayout_cons h
    simp only [List.forall_mem_cons,List.pairwise_cons,TlsApart] at hin hzero happart
    have hround : total+o.tlsAlign-1<2^64 := by
      by_contra hge
      have ha := o.align_lt
      exact (hzero (by omega)).1 (alignUpU64_of_ge ht ha (by omega))
    rw [alignUpU64_of_lt hround] at hps hin happart
    rw [Nat.mod_eq_of_lt hin.1] at hps
    refine ⟨hround,hin.1,ih hps hin.1 happart.2 hin.2 fun _ x hx h0 => ?_⟩
    rcases Nat.eq_zero_or_pos total with rfl | htotal
    · have hstart : roundUp 0 o.tlsAlign=0 := by
        have := o.align_pos
        rw [roundUp,Nat.div_eq_of_lt (by omega),Nat.zero_mul]
      have := x.1.memsz_pos
      have := o.memsz_pos
      have := happart.1 x hx
      omega
    · exact (hzero htotal).2 x hx h0

end

lemma tlsCopy_spec (h : tlsCopy blk placed mem=some mem') (happart : placed.Pairwise TlsApart) :
    (∀ i, (∀ x∈placed, i<blk+x.2 ∨ blk+x.2+x.1.tlsMemsz ≤ i) → mem' i=mem i) ∧
    ∀ x∈placed, ∀ k<x.1.tlsMemsz, mem' (blk+x.2+k) =
      if k<x.1.tlsFilesz then x.1.image (x.1.tlsInitOff+k) else mem (blk+x.2+k) := by
  induction placed generalizing mem with
  | nil =>
    cases h
    exact ⟨fun _ _ => rfl,by simp⟩
  | cons x ps ih =>
    obtain ⟨hfirst,hps⟩ := List.pairwise_cons.1 happart
    unfold TlsApart at hfirst
    have hle := x.1.filesz_le
    rw [tlsCopy] at h
    split_ifs at h
    obtain ⟨hrest,hall⟩ := ih h hps
    refine ⟨fun i hi => ?_,List.forall_mem_cons.2 ⟨fun k hk => ?_,fun y hy k hk => ?_⟩⟩
    · obtain ⟨hx,hi⟩ := List.forall_mem_cons.1 hi
      rw [hrest i hi,Buf.copy,if_neg (by omega)]
    · rw [hrest _ fun z hz => by have := hfirst z hz; omega,Buf.copy]
      by_cases hfile : k<x.1.tlsFilesz
      · rw [if_pos (by omega),if_pos hfile,Nat.add_sub_cancel_left]
      · rw [if_neg (by omega),if_neg hfile]
    · have := hfirst y hy
      have hout : mem.copy (blk+x.2) x.1.image x.1.tlsInitOff x.1.tlsFilesz (blk+y.2+k) =
          mem (blk+y.2+k) := if_neg (by omega)
      rw [hall y hy k hk,hout]

end Layout

variable {mmap : ℕ → Option ℕ} {objs : List TlsObj} {mem : Buf} {r : TlsRuntime}

theorem tls_blocks_right_iff (h : dsoInitTlsRuntime mmap objs mem=some r) :
    r.Right ↔ TlsFits 0 objs ∧ ∀ o∈objs, o.tlsAlign∣r.block := by
  obtain ⟨⟨placed,e⟩,hlayout,h⟩ := Option.bind_eq_some_iff.1 h
  obtain ⟨hmap,hend⟩ := tlsLayout_end hlayout
  rw [← hmap,List.forall_mem_map,hmap]
  dsimp only at h
  split_ifs at h with he
  · -- nothing was mapped
    cases h
    refine ⟨fun hr => ⟨tlsFits_of_apart hlayout (by decide) (by omega) hr.apart
      (fun x hx => (hr.inside x hx).trans_lt (Nat.two_pow_pos 64)) (by omega),fun _ _ => dvd_zero _⟩,fun hr => ?_⟩
    obtain ⟨-,-,-,hall⟩ := tlsLayout_of_fits hlayout hr.1
    have hnil : placed=[] := List.eq_nil_iff_forall_not_mem.2 fun x hx => by
      have := hall x hx
      have := x.1.memsz_pos
      omega
    constructor <;> simp [hnil]
  · obtain ⟨blk,-,h⟩ := Option.bind_eq_some_iff.1 h
    obtain ⟨mem',hcopy,rfl⟩ := Option.map_eq_some_iff.1 h
    refine ⟨fun hr => ?_,fun hr => ?_⟩
    · have hin : ∀ x∈placed, x.2+x.1.tlsMemsz≤alignUpU64 e 4096 := hr.inside
      have hpage : e+4095<2^64 := by
        obtain ⟨x,hx,hxe⟩ := hend.resolve_left he
        by_contra hge
        have hsize := hin x hx
        rw [alignUpU64_of_ge (by omega) (by decide) (by omega)] at hsize
        omega
      have hfits := tlsFits_of_apart hlayout (by decide) hpage hr.apart
        (fun x hx => (hin x hx).trans_lt (by unfold alignUpU64; omega)) (by omega)
      obtain ⟨-,-,-,hall⟩ := tlsLayout_of_fits hlayout hfits
      exact ⟨hfits,fun x hx => (Nat.dvd_add_left (hall x hx).2.2).1 (hr.aligned x hx)⟩
    · obtain ⟨-,hlt,happart,hall⟩ := tlsLayout_of_fits hlayout hr.1
      have hsize : e≤alignUpU64 e 4096 := by
        rw [alignUpU64_of_lt (by omega)]
        exact le_roundUp e (by decide)
      refine ⟨happart,fun x hx => (hall x hx).2.1.trans hsize,
        fun x hx => dvd_add (hr.2 x hx) (hall x hx).2.2,fun x hx k hk => ?_⟩
      have := hall x hx
      have hzero : mem.fill blk 0 (alignUpU64 e 4096) (blk+x.2+k)=0 := if_pos (by omega)
      exact hzero ▸ (tlsCopy_spec hcopy happart).2 x hx k hk

/-- A block of `2^63` bytes without an image. -/
def hugeTls : TlsObj := ⟨1,2^63,0,0,0,Buf.zero,by decide,by decide,by decide,by decide⟩

/-- The sizes of two such blocks add up to 0, and nothing is mapped. -/
theorem tls_sizes_wrap : ∃ r, dsoInitTlsRuntime some [hugeTls,hugeTls] Buf.zero=some r ∧ ¬r.Right :=
  ⟨_,rfl,fun h => absurd (h.inside _ List.mem_cons_self) (by decide)⟩

/-- Two blocks, each with a few bytes in the image and zeros behind them. -/
def twoTls : List TlsObj :=
  [⟨16,24,8,0,8,fun _ => 5,by decide,by decide,by decide,by decide⟩,
    ⟨32,12,4,2,6,fun _ => 9,by decide,by decide,by decide,by decide⟩]

theorem tls_blocks_right_two : ∃ r,
    dsoInitTlsRuntime (fun _ => some 4096) twoTls (fun _ => 1)=some r ∧ r.Right :=
  have h : dsoInitTlsRuntime (fun _ => some 4096) twoTls (fun _ => 1)=some _ := rfl
  ⟨_,h,(tls_blocks_right_iff h).2 ⟨⟨by decide,by decide,by decide,by decide,by unfold TlsFits; decide⟩,
    by decide⟩⟩

end FuriOS.Ld
