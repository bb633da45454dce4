import FuriOS.Ld.Tls

/-! The segments of a loaded object: `map_elf_segments` of the dynamic loader. -/
namespace FuriOS.Ld

/-- A `PT_LOAD` header with a nonempty range of addresses; both loops skip the headers of other types
and the empty ones. A header whose range passes the last address is no such range (the sums of the
source wrap there) and is left out. -/
structure PtLoad where
  vaddr : ℕ
  memsz : ℕ
  filesz : ℕ
  offset : ℕ
  memsz_pos : 0 < memsz
  range_lt : vaddr+memsz<2^64

abbrev userVaBase : ℕ := 0x400000

/-- `USER_STACK_TOP - USER_STACK_PAGES * PAGE_SIZE` -/
abbrev stackFloor : ℕ := 0x7FF000-8*4096

def alignDownU64 (v : ℕ) : ℕ := v/4096*4096

def PtLoad.segVa (p : PtLoad) (bias : ℕ) : ℕ := (p.vaddr+bias)%2^64

section Mapping
variable (mmap mprotect : ℕ → ℕ → Bool) (image : Buf)

/-- A round of the second loop: new pages, the bytes of the file, zeros behind them. `mmap` and
`mprotect` say which calls succeed. -/
def mapSegment (bias : ℕ) (mem : Buf) (p : PtLoad) : Option Buf :=
  let segStart := alignDownU64 (p.segVa bias)
  let segEnd := alignUpU64 ((p.vaddr+bias+p.memsz)%2^64) 4096
  let segLen := (segEnd+2^64-segStart)%2^64
  if mmap segStart segLen && mprotect segStart segLen then
    some (((mem.fill segStart 0 segLen).copy (p.segVa bias) image p.offset p.filesz).fill
      (p.segVa bias+p.filesz) 0 (p.memsz-p.filesz))
  else none

def loadBias (dyn : Bool) (base minPage : ℕ) : Option ℕ :=
  if dyn then
    if base<userVaBase ∨ base%4096≠0 then none else some ((base+2^64-minPage)%2^64)
  else some 0

/-- The load bias and the memory afterwards. -/
def mapElfSegments (dyn : Bool) (base imageSize : ℕ) (ph : List PtLoad) (mem : Buf) : Option (ℕ × Buf) :=
  let minVaddr := ph.foldr (fun p m => min p.vaddr m) (2^64-1)
  let maxVaddr := ph.foldr (fun p m => max (p.vaddr+p.memsz) m) 0
  let minPage := alignDownU64 minVaddr
  let maxPage := alignUpU64 maxVaddr 4096
  if (∃ p∈ph, p.memsz<p.filesz ∨ imageSize<p.offset ∨ imageSize-p.offset<p.filesz) ∨
      minVaddr=2^64-1 ∨ maxVaddr ≤ minVaddr then none
  else (loadBias dyn base minPage).bind fun bias =>
    let mapStart := (minPage+bias)%2^64
    let mapEnd := (maxPage+bias)%2^64
    if mapStart<userVaBase ∨ stackFloor < mapEnd ∨ mapEnd ≤ mapStart then none
    else (ph.foldlM (mapSegment mmap mprotect image bias) mem).map fun mem => (bias,mem)

/-- What the segment is to hold. -/
def PtLoad.byte (p : PtLoad) (k : ℕ) : UInt8 := if k<p.filesz then image (p.offset+k) else 0

/-- The address `v` of the object lies on a page of the segment. -/
def PtLoad.OnPage (p : PtLoad) (v : ℕ) : Prop := p.vaddr/4096≤v/4096 ∧ v/4096≤(p.vaddr+p.memsz-1)/4096

instance (p : PtLoad) (v : ℕ) : Decidable (p.OnPage v) := inferInstanceAs (Decidable (_ ∧ _))

variable {mmap mprotect image} {dyn : Bool} {base imageSize bias m s v : ℕ} {ph : List PtLoad}
variable {mem mem' : Buf} {p : PtLoad}

/-- The segment is moved by whole pages from `m` to `s`. -/
structure PtLoad.Moved (p : PtLoad) (bias m s : ℕ) : Prop where
  low : m≤p.vaddr
  eq : p.segVa bias=p.vaddr-m+s
  high : p.segVa bias+p.memsz<2^63
  file : p.filesz≤p.memsz

lemma mapElfSegments_moved (h : mapElfSegments mmap mprotect image dyn base imageSize ph mem=some (bias,mem')) :
    ph.foldlM (mapSegment mmap mprotect image bias) mem=some mem' ∧
      ∃ m s, m%4096=0 ∧ s%4096=0 ∧ ∀ p∈ph, p.Moved bias m s := by
  have hext : (∀ p∈ph, ph.foldr (fun p m => min p.vaddr m) (2^64-1)≤p.vaddr ∧
      p.vaddr+p.memsz≤ph.foldr (fun p m => max (p.vaddr+p.memsz) m) 0) ∧
      ph.foldr (fun p m => max (p.vaddr+p.memsz) m) 0<2^64 := by
    clear h
    induction ph with
    | nil => simp
    | cons q ph ih =>
      exact ⟨List.forall_mem_cons.2 ⟨⟨min_le_left _ _,le_max_left _ _⟩,fun p hp =>
        ⟨(min_le_right _ _).trans (ih.1 p hp).1,(ih.1 p hp).2.trans (le_max_right _ _)⟩⟩,max_lt q.range_lt ih.2⟩
  unfold mapElfSegments at h
  dsimp only at h
  generalize ph.foldr (fun p m => min p.vaddr m) (2^64-1)=lo at h hext
  generalize ph.foldr (fun p m => max (p.vaddr+p.memsz) m) 0=hi at h hext
  obtain ⟨hext,hlt⟩ := hext
  split_ifs at h with hbad
  obtain ⟨b,hb,h⟩ := Option.bind_eq_some_iff.1 h
  split_ifs at h with hout
  obtain ⟨mem1,hrun,heq⟩ := Option.map_eq_some_iff.1 h
  obtain ⟨rfl,rfl⟩ := Prod.mk.inj heq
  unfold alignDownU64 alignUpU64 userVaBase stackFloor at hout
  unfold loadBias alignDownU64 at hb
  refine ⟨hrun,lo/4096*4096,(lo/4096*4096+b)%2^64,Nat.mul_mod_left _ _,?_,fun p hp => ?_⟩
  · split_ifs at hb <;> cases hb <;> omega
  · obtain ⟨hlo,hhi⟩ := hext p hp
    have hfile : p.filesz≤p.memsz := by
      by_contra hf
      exact hbad (.inl ⟨p,hp,.inl (by omega)⟩)
    have hva : (p.vaddr+b)%2^64=p.vaddr-lo/4096*4096+(lo/4096*4096+b)%2^64 := by
      split_ifs at hb <;> cases hb <;> omega
    refine ⟨by omega,hva,?_,hfile⟩
    rw [PtLoad.segVa,hva]
    split_ifs at hb <;> cases hb <;> omega

lemma mapSegment_byte (hp : p.Moved bias m s) (hm : m%4096=0) (hs : s%4096=0) (hv : m≤v)
    (h : mapSegment mmap mprotect image bias mem p=some mem') :
    mem' (v-m+s)=if p.vaddr≤v ∧ v<p.vaddr+p.memsz then p.byte image (v-p.vaddr)
      else if p.OnPage v then 0 else mem (v-m+s) := by
  obtain ⟨hlow,hva,hhigh,hfile⟩ := hp
  have hpos := p.memsz_pos
  have hend : (p.vaddr+bias+p.memsz)%2^64=p.segVa bias+p.memsz := by
    unfold PtLoad.segVa at hhigh ⊢
    omega
  rw [mapSegment,hend,alignUpU64_of_lt (by omega)] at h
  unfold alignDownU64 roundUp at h
  split_ifs at h
  cases h
  have hpages : p.segVa bias/4096*4096≤v-m+s ∧ v-m+s<p.segVa bias/4096*4096+
      ((p.segVa bias+p.memsz+4096-1)/4096*4096+2^64-p.segVa bias/4096*4096)%2^64 ↔ p.OnPage v := by
    unfold PtLoad.OnPage
    omega
  rw [Buf.fill,Buf.copy,Buf.fill,PtLoad.byte]
  simp only [hpages]
  split_ifs <;> first | omega | rfl | (congr 2; omega)

/-- Mapping further segments turns what lies on their pages into zeros. -/
lemma mapSegments_outside (hmoved : ∀ p∈ph, p.Moved bias m s) (hm : m%4096=0) (hs : s%4096=0) (hv : m≤v)
    (hout : ∀ p∈ph, ¬(p.vaddr≤v ∧ v<p.vaddr+p.memsz))
    (h : ph.foldlM (mapSegment mmap mprotect image bias) mem=some mem') :
    mem' (v-m+s)=if ∃ p∈ph, p.OnPage v then 0 else mem (v-m+s) := by
  induction ph generalizing mem with
  | nil =>
    cases h
    simp
  | cons p ph ih =>
    rw [List.foldlM_cons] at h
    obtain ⟨mem1,h1,h⟩ := Option.bind_eq_some_iff.1 h
    rw [List.forall_mem_cons] at hmoved hout
    rw [ih hmoved.2 hout.2 h,mapSegment_byte hmoved.1 hm hs hv h1,if_neg hout.1]
    by_cases hp : p.OnPage v <;> simp [hp]

theorem segments_right_iff (h : mapElfSegments mmap mprotect image dyn base imageSize ph mem=some (bias,mem'))
    (hd : ph.Pairwise fun p q => p.vaddr+p.memsz≤q.vaddr ∨ q.vaddr+q.memsz≤p.vaddr) :
    (∀ p∈ph, ∀ k<p.memsz, mem' (p.segVa bias+k)=p.byte image k) ↔
      ph.Pairwise fun p q => ∀ k<p.memsz, q.OnPage (p.vaddr+k) → p.byte image k=0 := by
  obtain ⟨hrun,m,s,hm,hs,hmoved⟩ := mapElfSegments_moved h
  clear h
  induction ph generalizing mem with
  | nil => simp
  | cons p ph ih =>
    rw [List.foldlM_cons] at hrun
    obtain ⟨mem1,h1,h⟩ := Option.bind_eq_some_iff.1 hrun
    rw [List.forall_mem_cons] at hmoved
    rw [List.pairwise_cons] at hd
    rw [List.forall_mem_cons,List.pairwise_cons,ih hd.2 h hmoved.2]
    have hlow := hmoved.1.low
    have hfinal (k : ℕ) (hk : k<p.memsz) : mem' (p.segVa bias+k) =
        if ∃ q∈ph, q.OnPage (p.vaddr+k) then 0 else p.byte image k := by
      have hva : p.segVa bias+k=p.vaddr+k-m+s := by rw [hmoved.1.eq]; omega
      have hbyte := mapSegment_byte (v := p.vaddr+k) hmoved.1 hm hs (by omega) h1
      rw [if_pos (by omega),Nat.add_sub_cancel_left] at hbyte
      rw [hva,mapSegments_outside hmoved.2 hm hs (by omega) (fun q hq => by have := hd.1 q hq; omega) h,hbyte]
    refine and_congr_left' ⟨fun hbytes q hq k hk hon => ?_,fun hzero k hk => ?_⟩
    · rw [← hbytes k hk,hfinal k hk,if_pos ⟨q,hq,hon⟩]
    · rw [hfinal k hk]
      split_ifs with hon
      · obtain ⟨q,hq,hon⟩ := hon
        exact (hzero q hq k hk hon).symm
      · rfl

end Mapping

/-- Two segments on one page. -/
def onePage : List PtLoad := [⟨0x400000,8,8,0,by decide,by decide⟩,⟨0x400800,8,8,8,by decide,by decide⟩]

/-- The second one takes the bytes of the first away. -/
theorem segments_share_page : ∃ bias mem', mapElfSegments (fun _ _ => true) (fun _ _ => true) (fun _ => 7) false 0 16
    onePage Buf.zero=some (bias,mem') ∧ ¬∀ p∈onePage, ∀ k<p.memsz, mem' (p.segVa bias+k)=p.byte (fun _ => 7) k :=
  ⟨0,_,rfl,fun h => absurd (h _ List.mem_cons_self 0 (by decide)) (by decide +kernel)⟩

/-- The zeros behind the first segment reach the page of the second. -/
def sharedZeros : List PtLoad := [⟨0x400000,0x1008,8,0,by decide,by decide⟩,⟨0x401800,8,8,8,by decide,by decide⟩]

theorem segments_right_zeros : ∃ bias mem', mapElfSegments (fun _ _ => true) (fun _ _ => true) (fun _ => 7) false 0 16
    sharedZeros Buf.zero=some (bias,mem') ∧ ∀ p∈sharedZeros, ∀ k<p.memsz, mem' (p.segVa bias+k)=p.byte (fun _ => 7) k := by
  have h : mapElfSegments (fun _ _ => true) (fun _ _ => true) (fun _ => 7) false 0 16 sharedZeros Buf.zero=some (0,_) := rfl
  refine ⟨0,_,h,(segments_right_iff h (by unfold sharedZeros; simp)).2 ?_⟩
  refine List.pairwise_pair.2 fun k _ hon => if_neg ?_
  simp only [PtLoad.OnPage] at hon ⊢
  omega

end FuriOS.Ld
