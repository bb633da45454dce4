import FuriOS.FileContent

/-! Reads and writes of a file that stands for an ideal byte array. A read returns bytes of the
array. A write changes the array by the bytes that were taken, except for those that lie beyond the
old end of the file in a page that is evicted during the call: the size is raised after the last
byte, and what a page has beyond the end is not stored. -/
namespace FuriOS
open Prog Owners

namespace IdealFile

variable {f : IdealFile} {offset len i : ℕ} {src : Buf}

/-- The bytes of the file from `offset` on, zeros beyond its end. -/
def slice (f : IdealFile) (offset len : ℕ) : Bytes := (List.range len).map fun k => f.bytes (offset+k)

lemma read_eq_slice (f : IdealFile) (offset len : ℕ) :
    f.read offset len=f.slice offset (min len (f.size-offset)) := rfl

@[simp] lemma length_slice (f : IdealFile) (offset len : ℕ) : (f.slice offset len).length=len := by
  simp [slice]

lemma slice_add (f : IdealFile) (offset a b : ℕ) :
    f.slice offset (a+b)=f.slice offset a++f.slice (offset+a) b := by
  simp only [slice,List.range_add,List.map_append,List.map_map]
  congr 1
  apply List.map_congr_left
  intro k _
  simp only [Function.comp_apply,Nat.add_assoc]

lemma bytes_write_of_outside
    (h : i<offset ∨ offset+len ≤ i) : (f.write offset src len).bytes i=f.bytes i :=
  Buf.copy_of_outside h

end IdealFile

variable {rem cur : ℕ}

lemma pageChunk_pos (cur : ℕ) (h : rem≠0) : 0<pageChunk cur rem := by
  simp only [pageChunk,pageSize]
  omega

lemma pageChunk_le (cur rem : ℕ) : pageChunk cur rem≤rem := by
  simp only [pageChunk]
  omega

lemma pageChunk_page (cur rem : ℕ) : cur%pageSize+pageChunk cur rem≤pageSize := by
  simp only [pageChunk,pageSize]
  omega

lemma pageChunk_of_lt (h : pageChunk cur rem<rem) : cur%pageSize+pageChunk cur rem=pageSize := by
  simp only [pageChunk,pageSize] at *
  omega

lemma pageChunk_end_le (h : pageChunk cur rem<rem) :
    cur+pageChunk cur rem≤alignDown (cur+rem-1) := by
  have hfull := pageChunk_of_lt h
  simp only [alignDown,pageSize] at *
  omega

lemma alignDown_mono {a b : ℕ} (h : a≤b) : alignDown a≤alignDown b :=
  Nat.mul_le_mul_right _ (Nat.div_le_div_right h)

namespace Sees
variable {n : ℕ} {r : Place} {f : IdealFile} {held : List ℕ} {s : System}

lemma round_bytes {pa : ℕ} (h : Sees n r f held s) {j : CacheIx} {c : PageCacheEntry}
    (hj : s.cache.entries j=some c) (hc : c.inode=n) (cur rem : ℕ)
    (hoff : c.fileOff=alignDown cur) (hpa : c.pa=pa) :
    ((List.range (pageChunk cur rem)).map fun k => s.phys.mem (pa+cur%pageSize+k))
      = f.slice cur (pageChunk cur rem) := by
  apply List.map_congr_left
  intro k hk
  have hpage := pageChunk_page cur rem
  have hb := h.page_bytes hj hc (k := cur%pageSize+k) (by have := List.mem_range.1 hk; omega)
  rw [← hpa,Nat.add_assoc,hb,hoff,← Nat.add_assoc,alignDown_add_mod]

lemma readLoop (h : Sees n r f held s) (fuel cur rem : ℕ) (hend : cur+rem≤2^64) :
    wp (pagecacheReadLoop n fuel cur rem)
      (fun bytes s' => Sees n r f held s' ∧ ∃ k, k≤rem ∧ bytes=f.slice cur k)
      (fun _ => False) s := by
  induction fuel generalizing cur rem s with
  | zero => exact ⟨h,0,Nat.zero_le _,rfl⟩
  | succ fuel ih =>
    rw [pagecacheReadLoop]
    split_ifs with hrem
    · exact ⟨h,0,Nat.zero_le _,rfl⟩
    rw [wp_bind,wp_attempt]
    refine wp_mono (h.getOrCreate n (alignDown cur)) (fun pa s1 hs1 => ?_) fun s1 h1 => ?_
    · obtain ⟨h1,-,j,c,hj,hc,hoff,hpa⟩ := hs1
      rw [wp_gets_bind,modifyPhys,wp_modify_bind,wp_bind]
      have hbytes := h1.round_bytes hj (hc.2 rfl) cur rem hoff hpa
      have hle := pageChunk_le cur rem
      -- the sum wraps only when nothing is left
      have hnext : (cur+pageChunk cur rem)%2^64+(rem-pageChunk cur rem)≤2^64 := by
        have := Nat.mod_le (cur+pageChunk cur rem) (2^64)
        omega
      refine wp_imp (ih h1.freePage _ _ hnext) fun rest s2 hs2 => ?_
      obtain ⟨h2,k,hk,hrest⟩ := hs2
      rw [wp_pure]
      refine ⟨h2,pageChunk cur rem+k,by omega,?_⟩
      rw [IdealFile.slice_add,hbytes,hrest]
      by_cases hk0 : k=0
      · subst hk0
        rfl
      · rw [Nat.mod_eq_of_lt (by omega)]
    · exact ⟨h1,0,Nat.zero_le _,rfl⟩

lemma read (h : Sees n r f held s) (offset len : ℕ) (hlen : offset+len<2^64) :
    wp (pagecacheRead n offset len)
      (fun bytes s' => Sees n r f held s' ∧ ∃ k, k ≤ min len (f.size-offset) ∧
        bytes=f.slice offset k ∧ (k=0 → min len (f.size-offset)=0))
      (Sees n r f held) s := by
  rw [pagecacheRead,wp_gets_bind]
  refine wp_require_of h fun _ => ?_
  rw [h.inv.size,Nat.mod_eq_of_lt hlen]
  have hwant : (if f.size<offset+len then f.size-offset else len)=min len (f.size-offset) := by
    split_ifs <;> omega
  dsimp only
  rw [hwant]
  split_ifs with hnone
  · exact ⟨h,0,Nat.zero_le _,rfl,fun _ => by omega⟩
  · rw [wp_bind]
    refine wp_mono (h.readLoop _ _ _ (by omega)) (fun bytes s1 hs1 => ?_) fun _ hf => hf.elim
    obtain ⟨h1,k,hk,rfl⟩ := hs1
    refine wp_require_bind (fun hne => ⟨h1,k,hk,rfl,fun hk0 => ?_⟩) fun _ => h1
    subst hk0
    simp [IdealFile.slice] at hne

end Sees

lemma pagecacheWriteLoop_zero (n : ℕ) (src : Buf) (fuel cur done : ℕ) :
    pagecacheWriteLoop n src fuel cur done 0=pure 0 := by
  cases fuel <;> simp [pagecacheWriteLoop]

namespace FileInv
variable {n : ℕ} {r : Place} {f : Contents} {s s' : System} {j : CacheIx} {c : PageCacheEntry}

/-- The bytes are written, the size is not raised. -/
lemma writeDirty (h : FileInv n r f s) (hj : s.cache.entries j=some c) (hc : c.inode=n)
    (hdirty : c.dirty=true) {cur done len : ℕ} {src : Buf} (hoff : c.fileOff=alignDown cur)
    (hpage : cur%pageSize+len≤pageSize) (hal : ∀ k d, s.cache.entries k=some d → d.pa%pageSize=0)
    (hdisk : SameDisk s s') (he : s'.cache.entries=s.cache.entries)
    (hmem : s'.phys.mem=s.phys.mem.copy (c.pa+cur%pageSize) src done len) :
    FileInv n r (f.overwrite cur src done len) s' := by
  have hcur := alignDown_add_mod cur
  refine ⟨h.same hdisk,he ▸ h.toPaged,?_,fun i hno => ?_⟩
  · rw [he]
    intro k d hk hd i hi
    rw [hmem,Contents.overwrite]
    dsimp only
    by_cases hkj : k=j
    · -- the page that is written to
      subst hkj
      obtain rfl : c=d := Option.some.inj (hj.symm.trans hk)
      by_cases hin : cur%pageSize ≤ i ∧ i<cur%pageSize+len
      · rw [Buf.copy_of_inside (by omega),Buf.copy_of_inside (by omega)]
        congr 1
        omega
      · rw [Buf.copy_of_outside (by omega),Buf.copy_of_outside (by omega)]
        exact h.cached k c hk hd i hi
    · have hpa : d.pa≠c.pa := fun hpa => hkj (h.apart k j d c hk hj hd hpa)
      have hfo : d.fileOff≠c.fileOff := fun ho => hkj (h.unique k j d c hk hj hd hc ho)
      have hd1 := hal k d hk
      have hd2 := hal j c hj
      have hf1 := h.aligned k d hk hd
      have hf2 := h.aligned j c hj hc
      simp only [pageSize] at *
      rw [Buf.copy_of_outside (by omega),Buf.copy_of_outside (by omega)]
      exact h.cached k d hk hd i hi
  · have hpagei : alignDown i≠alignDown cur := fun ho =>
      hno j c (he ▸ hj) hc hdirty (hoff.trans ho.symm)
    have hmod := alignDown_add_mod i
    have hia := alignDown_aligned i
    have hca := alignDown_aligned cur
    have hlt := Nat.mod_lt i (show 0<pageSize by decide)
    rw [hdisk.fileId,hdisk.backing]
    refine (h.below i (hno.congr he)).trans (Buf.copy_of_outside ?_).symm
    simp only [pageSize] at *
    omega

/-- The size is raised; where no dirty page is, the layer below must have nothing yet. -/
lemma grow (h : FileInv n r f s) {size : ℕ} (hcap : r.kind=.mem → size≤(s.inodes n).capacity)
    (hset : r.settled=true → size≤f.size)
    (hgap : ∀ i, f.size ≤ i → i<size → CleanAt n (alignDown i) s → s.backing (s.fileId n) i=0) :
    FileInv n r ⟨max f.size size,f.bytes⟩ (growTo n size s) := by
  have hid := ident_growTo (n := n) s size
  have hn : (growTo n size s).inodes n={s.inodes n with size := max (s.inodes n).size size} := by
    simp only [growTo,System.setInode,Function.update_self]
  refine ⟨h.edit hid ⟨(fsKind_congr (hid n)).trans h.storable.kind,?_,?_,?_⟩ ?_,h.toPaged,h.cached,fun i hno => ?_⟩
  · rw [hn,fileId_congr hid]
    intro hk
    obtain ⟨hdata,hle,hroom,hclear⟩ := h.storable.mem hk
    have := hcap (h.storable.kind ▸ hk)
    exact ⟨hdata,by dsimp only; omega,hroom,fun i hi => hclear i (by dsimp only at hi; omega)⟩
  · rw [hn,fileId_congr hid]
    intro hk
    obtain ⟨hmeta,hz⟩ := h.storable.ext4 hk
    exact ⟨by dsimp only; omega,hz⟩
  · rw [hn]
    intro hs
    obtain ⟨hmeta,hok⟩ := h.storable.settled hs
    have hend := hset hs
    rw [h.size] at hmeta
    exact ⟨by dsimp only; rw [h.size]; omega,hok⟩
  · rw [hn]
    dsimp only
    rw [h.size]
  · rw [fileId_congr hid]
    have hbelow := h.below i hno
    change (if i< max f.size size then s.backing (s.fileId n) i else 0)=_
    by_cases hi : f.size ≤ i ∧ i<size
    · rw [if_pos (by omega),hgap i hi.1 hi.2 hno,h.zero hi.1 hno]
    · rw [← hbelow]
      exact if_congr (by omega) rfl rfl

end FileInv

section Overwrite
variable {n : ℕ} {f g : Contents} {s : System} {src : Buf} {cur done a b : ℕ}

lemma overwrite_zero : f.overwrite cur src done 0=f := Contents.ext rfl (Buf.copy_zero _ _ _ _)

lemma overwrite_add : (f.overwrite cur src done a).overwrite (cur+a) src (done+a) b
    = f.overwrite cur src done (a+b) := by
  refine Contents.ext rfl (funext fun i => ?_)
  simp only [Contents.overwrite,Buf.copy]
  split_ifs <;> first | rfl | omega | (congr 1; omega)

lemma Thinned.overwrite (h : Thinned n f g s) (cur : ℕ) (src : Buf) (done len : ℕ) :
    Thinned n (f.overwrite cur src done len) (g.overwrite cur src done len) s := by
  refine ⟨h.size,fun i => ?_⟩
  simp only [Contents.overwrite,Buf.copy]
  split_ifs
  · exact .inl rfl
  · exact h.bytes i

end Overwrite

/-- `k` of `rem` bytes of `src` have been written from `cur` on while the size stayed as it was: what
the file is now, and what has happened to its pages. -/
structure Wrote (n : ℕ) (f g : Contents) (cur : ℕ) (src : Buf) (done rem k : ℕ) (s s' : System) :
    Prop where
  thin : Thinned n (f.overwrite cur src done k) g s'
  older : ∀ j d, s'.cache.entries j=some d → d.inode=n → d.fileOff<alignDown cur →
    s.cache.entries j=some d
  dirty : k≠0 → ∀ j d, s'.cache.entries j=some d → d.inode=n → alignDown cur≤d.fileOff →
    d.fileOff<cur+k → d.dirty=true
  last : k≠0 → cur+k≤alignDown (cur+rem-1) ∨ ¬Uncached n (alignDown (cur+k-1)) s'

namespace Sees
variable {n : ℕ} {r : Place} {f : Contents} {held : List ℕ} {s : System}
variable {j : CacheIx} {c : PageCacheEntry} {E : System → Prop} {m : ℕ}

lemma writeRound {pa : ℕ} (h : Sees n r f (pa::held) s) (hj : s.cache.entries j=some c) (hc : c.inode=n)
    {done : ℕ} {src : Buf} (hoff : c.fileOff=alignDown cur) (hpa : c.pa=pa) {R : ℕ → System → Prop}
    {next : TaskM ℕ}
    (hnext : ∀ s' t, Sees n r (f.overwrite cur src done (pageChunk cur rem)) held s' →
      s'.cache.entries=s.cache.entries.put j {c with dirty := true, lastTouch := t} → wp next R E s') :
    wp (modifyPhys (fun m => m.copyIn (pa+cur%pageSize) src done (pageChunk cur rem)) >>= fun _ =>
      markWritten n (alignDown cur) >>= fun _ => modifyPhys (pmmFreePage pa) >>= fun _ => next)
      R E s := by
  have hfind : pagecacheFind (s.setPhys (s.phys.copyIn (pa+cur%pageSize) src done (pageChunk cur rem)))
      n (alignDown cur)=some (j,c) := by
    refine Slots.find?_of_unique hj ?_ fun k d hk hd => ?_
    · simp [pagecacheInodeSame,hc,inodeSame_self,hoff]
    · simp only [Bool.and_eq_true,decide_eq_true_eq] at hd
      exact h.inv.unique k j d c hk hj (h.inv.alone _ hd.1) hc (hd.2.trans hoff.symm)
  rw [modifyPhys,wp_modify_bind,wp_bind,markWritten,wp_gets_bind,id_eq,hfind]
  dsimp only
  rw [wp_bind,pagecacheTouchTick,wp_modify_bind,wp_gets,wp_modify,modifyPhys,wp_modify_bind]
  have hpage := pageChunk_page cur rem
  have hw : s.phys.Writes (s.phys.copyIn (pa+cur%pageSize) src done (pageChunk cur rem)) pa :=
    .of_mem fun a ha => Buf.copy_of_outside (by omega)
  refine hnext _ _ ⟨?_,?_⟩ rfl
  · have hok : (s.setPhys (s.phys.copyIn (pa+cur%pageSize) src done (pageChunk cur rem))).memView.Ok
        (pa::held) := h.ok.congr_phys (hw.ok h.ok.phys) hw.refs
    have hset (c' : PageCacheEntry) (hc' : c'.pa=c.pa) := memInv_ok.setEntry hok hj hc'
    exact (hset {c with dirty := true, lastTouch := _} rfl).free
  · have hdirty (tick : ℕ) : FileInv n r f (s.setEntry j {c with dirty := true, lastTouch := tick}) :=
      h.inv.putEntry hj {c with dirty := true, lastTouch := tick} rfl rfl rfl
        (fun hd => by cases hd) ⟨rfl,rfl,rfl⟩ rfl rfl
    have hal (tick : ℕ) (k : CacheIx) (d : PageCacheEntry)
        (hk : (s.setEntry j {c with dirty := true, lastTouch := tick}).cache.entries k=some d) :
        d.pa%pageSize=0 := by
      rcases Slots.put_eq_some.1 hk with ⟨-,rfl⟩ | ⟨-,hk⟩
      · have := h.entry_aligned hj
        exact this
      · exact h.entry_aligned hk
    subst hpa
    exact (hdirty _).writeDirty Slots.put_self hc rfl hoff hpage (hal _) ⟨rfl,rfl,rfl⟩ rfl mem_pmmFreePage

/-- The loop of a write, from a state in which the file has nothing beyond its end from `cur` on. -/
lemma writeLoop (h : Sees n r f held s) (src : Buf) (fuel cur done rem : ℕ) (hend : cur+rem≤2^64)
    (hzero : ∀ i, f.size ≤ i → alignDown cur ≤ i → f.bytes i=0) :
    wp (pagecacheWriteLoop n src fuel cur done rem)
      (fun k s' => k≤rem ∧ ∃ g, Sees n r g held s' ∧ Wrote n f g cur src done rem k s s')
      (fun _ => False) s := by
  have hnone {f : Contents} {cur done rem : ℕ} {s s' : System} (hs' : Shrunk n r f held s s') :
      0≤rem ∧ ∃ g, Sees n r g held s' ∧ Wrote n f g cur src done rem 0 s s' := by
    obtain ⟨g,hg,h',hsub⟩ := hs'
    exact ⟨Nat.zero_le _,g,h',overwrite_zero.symm ▸ hg,fun j d hj _ _ => hsub j d hj,
      fun hk => absurd rfl hk,fun hk => absurd rfl hk⟩
  induction fuel generalizing cur done rem f s with
  | zero => exact hnone h.shrunk
  | succ fuel ih =>
    rw [pagecacheWriteLoop]
    split_ifs with hrem
    · exact hnone h.shrunk
    rw [wp_bind,wp_attempt]
    refine wp_mono (h.fetch n (alignDown cur)) (fun pa s1 hs1 => ?_) fun s1 h1 => hnone h1
    obtain ⟨⟨g1,hg1,h1,⟨j,c,hj,hc,hoff,hpa⟩,hold⟩,-⟩ := hs1
    have hle := pageChunk_le cur rem
    have hpos := pageChunk_pos cur hrem
    have hcn := hc.2 rfl
    refine h1.writeRound hj hcn hoff hpa fun s2 t h2 he2 => ?_
    -- the pages after the round are those before it, and the page of the round is dirty
    have hget {k : CacheIx} {d : PageCacheEntry} (hk : s2.cache.entries k=some d) :
        d.inode=n ∧ d.fileOff=alignDown cur ∧ d.dirty=true ∨ s1.cache.entries k=some d := by
      rcases Slots.put_eq_some.1 (he2 ▸ hk) with ⟨-,rfl⟩ | ⟨-,hk⟩
      · exact .inl ⟨hcn,hoff,rfl⟩
      · exact .inr hk
    have hj2 : s2.cache.entries j=some {c with dirty := true, lastTouch := t} := by
      rw [he2,Slots.put_self]
    have hthin : Thinned n (f.overwrite cur src done (pageChunk cur rem))
        (g1.overwrite cur src done (pageChunk cur rem)) s2 := by
      refine (hg1.overwrite cur src done _).trans (.refl _) fun i _ _ _ hu k d hk hd ho => ?_
      rcases hget hk with ⟨-,hd',-⟩ | hk
      · exact hu j c hj hcn (hoff.trans (hd'.symm.trans ho))
      · exact hu k d hk hd ho
    have holder {k : CacheIx} {d : PageCacheEntry} (hk : s2.cache.entries k=some d)
        (hd : d.inode=n) (hlt : d.fileOff<alignDown cur) : s.cache.entries k=some d := by
      rcases hget hk with ⟨-,hd',-⟩ | hk
      · omega
      · exact hold k d hk hd (by omega)
    have hround {k : CacheIx} {d : PageCacheEntry} (hk : s2.cache.entries k=some d)
        (hd : d.inode=n) (ho : d.fileOff=alignDown cur) : d.dirty=true := by
      obtain rfl := h2.inv.unique k j d _ hk hj2 hd hcn (ho.trans hoff.symm)
      rw [hj2] at hk
      rw [← Option.some.inj hk]
    rw [wp_bind]
    by_cases hmore : pageChunk cur rem=rem
    · rw [hmore,Nat.sub_self,pagecacheWriteLoop_zero,wp_pure,wp_pure,Nat.add_zero]
      rw [hmore] at hthin h2
      refine ⟨le_rfl,_,h2,hthin,fun k d hk => holder hk,fun _ k d hk hd hlo hhi => hround hk hd ?_,
        fun _ => .inr fun hu => hu j _ hj2 hcn ?_⟩
      · have := h2.inv.aligned k d hk hd
        have := pageChunk_page cur rem
        simp only [alignDown,pageSize] at *
        omega
      · have := pageChunk_page cur rem
        rw [hmore] at this
        change c.fileOff=_
        rw [hoff]
        simp only [alignDown,pageSize] at *
        omega
    · have hfull := pageChunk_of_lt (lt_of_le_of_ne hle hmore)
      have hnext : alignDown (cur+pageChunk cur rem)=alignDown cur+pageSize := by
        simp only [alignDown,pageSize] at *
        omega
      have hcur := alignDown_add_mod cur
      rw [Nat.mod_eq_of_lt (by omega)]
      refine wp_imp (ih h2 _ _ _ (by omega) fun i hi hlo => ?_) fun k s3 hs3 => ?_
      · rcases hthin.bytes i with heq | ⟨-,hz,-⟩
        · rw [heq]
          refine (Buf.copy_of_outside (by omega)).trans (hzero i (hg1.size ▸ hi) (by omega))
        · exact hz
      · obtain ⟨hk,g,h3,hw⟩ := hs3
        rw [wp_pure]
        refine ⟨by omega,g,h3,?_,fun j d hj hd hlt => ?_,fun _ j d hj hd hlo hhi => ?_,fun _ => ?_⟩
        · rw [← overwrite_add]
          refine (hthin.overwrite _ src _ k).trans hw.thin fun i hi hz hf hu k' d hk' hd ho => ?_
          -- what is lost before the rest of the loop lies before its pages
          have hbefore : i<cur+pageChunk cur rem := by
            by_contra hge
            by_cases hin : i<cur+pageChunk cur rem+k
            · refine hf (Eq.trans ?_ hz)
              exact (Buf.copy_of_inside (by omega)).trans (Buf.copy_of_inside (by omega)).symm
            · refine hf ((Buf.copy_of_outside (by omega)).trans ?_)
              exact (Buf.copy_of_outside (by omega)).trans (hzero i hi (by omega))
          refine hu k' d (hw.older k' d hk' hd ?_) hd ho
          have := alignDown_add_mod i
          omega
        · exact holder (hw.older j d hj hd (by omega)) hd hlt
        · by_cases hlt : d.fileOff<alignDown (cur+pageChunk cur rem)
          · refine hround (hw.older j d hj hd hlt) hd ?_
            have := h3.inv.aligned j d hj hd
            simp only [alignDown,pageSize] at *
            omega
          · exact hw.dirty (by omega) j d hj hd (by omega) (by omega)
        · by_cases hk0 : k=0
          · subst hk0
            exact .inl (pageChunk_end_le (lt_of_le_of_ne hle hmore))
          · have hsum : cur+pageChunk cur rem+(rem-pageChunk cur rem)=cur+rem := by omega
            have hlast := hw.last hk0
            rwa [hsum,Nat.add_assoc] at hlast

end Sees

/-- The inode and the offset of the pages in the cache. -/
def pagePlaces (s : System) (j : CacheIx) : Option (ℕ × ℕ) :=
  (s.cache.entries j).map fun e => (e.inode,e.fileOff)

lemma uncached_iff {n off : ℕ} {s : System} : Uncached n off s ↔ ∀ j, pagePlaces s j≠some (n,off) := by
  simp only [Uncached,pagePlaces,ne_eq,Option.map_eq_some_iff,Prod.mk.injEq,not_exists,not_and]

section Writeback
variable {i : CacheIx} {e : PageCacheEntry} {s : System}

lemma entryWriteback_entries : wp (pagecacheEntryWriteback i e)
      (fun _ s' => ∃ t, s'.cache.entries=s.cache.entries.put i {e with dirty := false, lastTouch := t})
      (fun s' => s'.cache.entries=s.cache.entries) s := by
  have hsame : ∀ s1 : System, s1.cache.entries=s.cache.entries → wp (entryClean i e)
      (fun _ s' => ∃ t, s'.cache.entries=s.cache.entries.put i {e with dirty := false, lastTouch := t})
      (fun s' => s'.cache.entries=s.cache.entries) s1 := by
    intro s1 hs1
    rw [entryClean,wp_bind,pagecacheTouchTick,wp_modify_bind,wp_gets,wp_modify]
    rw [← hs1]
    exact ⟨_,rfl⟩
  have hprot (m off : ℕ) : Preserves (fun s1 : System => s1.cache.entries=s.cache.entries)
      (taskPagecacheWriteprotectShared m off) :=
    preserves_writeprotect (fun _ _ _ _ h => h) m off
  have hmod (g : Phys → Phys) : Preserves (fun s1 : System => s1.cache.entries=s.cache.entries)
      (modifyPhys g) := .of_modify fun _ h => h
  rw [pagecacheEntryWriteback,wp_gets_bind,wp_gets_bind]
  split_ifs with hmax
  · rw [wp_bind]
    exact wp_imp ((Preserves.when fun _ => (hmod _).bind fun _ => hprot _ _).wp rfl) fun _ => hsame
  · have hstore : Preserves (fun s1 : System => s1.cache.entries=s.cache.entries)
        (pagecacheStorePage e.inode e.fileOff e.pa (pagecacheEntryMaxBytes s e)) :=
      .of_keeps (P := fun v => v.entries=s.cache.entries) (storePage_view _ _ _ _)
    rw [wp_bind]
    refine wp_imp (hstore.wp rfl) fun _ s1 h1 => ?_
    rw [wp_bind]
    refine wp_imp ((Preserves.when fun _ => hmod _).wp h1) fun _ s2 h2 => ?_
    rw [wp_bind]
    exact wp_imp ((hprot _ _).wp h2) fun _ => hsame

lemma places_flushMatch (sel : System → PageCacheEntry → Bool) (budget : ℕ) (v) :
    Preserves (fun s => pagePlaces s=v) (pagecacheFlushMatch sel budget) := by
  refine .of_wp ?_
  induction budget with
  | zero => exact fun s hs => hs
  | succ budget ih =>
    intro s hs
    rw [pagecacheFlushMatch,wp_gets_bind]
    split
    · exact hs
    · rename_i i e ho
      have hi : s.cache.entries i=some e := (oldestEntry_eq_some ho).1
      rw [wp_bind,notingResult,wp_bind,wp_onFail]
      refine wp_mono (entryWriteback_entries (s := s)) (fun _ s1 hs1 => ?_) fun s1 hs1 => ?_
      · obtain ⟨t,he⟩ := hs1
        rw [wp_modify]
        refine ih _ (Eq.trans (funext fun k => ?_) hs)
        change ((pagecacheNoteWritebackResult true s1.cache).entries k).map _=(s.cache.entries k).map _
        rw [entries_noteResult,he]
        by_cases hk : k=i
        · rw [hk,Slots.put_self,hi]
          rfl
        · rw [Slots.put_of_ne hk]
      · refine Eq.trans (funext fun k => ?_) hs
        change ((pagecacheNoteWritebackResult false s1.cache).entries k).map _=(s.cache.entries k).map _
        rw [entries_noteResult,hs1]

lemma wp_pressure {I E : System → Prop} (hI : ∀ sel b, Preserves I (pagecacheFlushMatch sel b))
    (h : I s) : wp pagecacheMaybeWritebackPressure (fun _ => I) E s := by
  rw [pagecacheMaybeWritebackPressure,wp_gets_bind]
  refine wp_when (fun _ => ?_) fun _ => h
  rw [wp_bind,wp_attempt]
  exact (hI _ _).wp h

end Writeback

/-- The pages of a write that reach beyond the old end of the file are cached. -/
def Kept (n size offset k : ℕ) (s : System) : Prop :=
  ∀ i, offset ≤ i → i<offset+k → size ≤ i → ¬Uncached n (alignDown i) s

lemma Kept.congr {n size offset k : ℕ} {s s' : System} (h : Kept n size offset k s)
    (hp : pagePlaces s'=pagePlaces s) : Kept n size offset k s' := by
  intro i hlo hhi hi hu
  rw [uncached_iff,hp,← uncached_iff] at hu
  exact h i hlo hhi hi hu

lemma Wrote.kept {n : ℕ} {f g : Contents} {cur done rem k : ℕ} {src : Buf} {s s' : System}
    (h : Wrote n f g cur src done rem k s s') (hk : k≤rem)
    (hlast : alignDown (cur+rem-1)≤ max f.size cur) : Kept n f.size cur k s' := by
  intro i hlo hhi hi
  have hmono : alignDown (cur+k-1)≤alignDown (cur+rem-1) := alignDown_mono (by omega)
  rcases h.last (by omega) with hle | hc
  · omega
  · have hpage : alignDown i=alignDown (cur+k-1) := by
      have hle : alignDown i≤alignDown (cur+k-1) := alignDown_mono (by omega)
      simp only [alignDown,pageSize] at *
      omega
    rwa [hpage]

/-- The file after `k` of `len` bytes were written: the ideal result, but for bytes beyond the old
end whose page is no longer cached. -/
structure Landed (n : ℕ) (f g : IdealFile) (offset : ℕ) (src : Buf) (len k : ℕ) (s : System) : Prop where
  size : g.size=(f.write offset src k).size
  bytes : ∀ i, g.bytes i=(f.write offset src k).bytes i ∨
    f.size ≤ i ∧ g.bytes i=0 ∧ Uncached n (alignDown i) s
  gone : ∀ i, f.size ≤ i → Uncached n (alignDown i) s → k≠0 → g.bytes i=0
  last : alignDown (offset+len-1)≤ max f.size offset → Kept n f.size offset k s

lemma Landed.eq_write {n : ℕ} {f g : IdealFile} {offset len k : ℕ} {src : Buf} {s : System}
    (h : Landed n f g offset src len k s) (hk : Kept n f.size offset k s) : g=f.write offset src k := by
  refine IdealFile.ext_iff' h.size fun i => ?_
  rcases h.bytes i with heq | ⟨hi,hz,hu⟩
  · exact heq
  · have hout : i<offset ∨ offset+k ≤ i := by
      by_contra hin
      exact hk i (by omega) (by omega) hi hu
    rw [hz,IdealFile.bytes_write_of_outside hout,f.beyond i hi]

namespace Sees
variable {n : ℕ} {r : Place} {f : IdealFile} {held : List ℕ} {s : System}
variable {j : CacheIx} {c : PageCacheEntry} {E : System → Prop} {m : ℕ}

/-- The size is raised after the loop. -/
lemma growWritten {s1 : System} {g : Contents} {offset len k : ℕ} {src : Buf} (h1 : Sees n r g held s1)
    (hw : Wrote n f g offset src 0 len k s s1) (hk : k≠0)
    (hroom : r.kind=.mem → offset+k≤r.room) (hset : r.settled=true → offset+k≤f.size)
    (hclear : r.kind=.mem → alignDown offset≤r.clear) (hkept : r.kind=.mem → Kept n f.size offset k s1) :
    Sees n r ⟨max f.size (offset+k),g.bytes⟩ held (growTo n (offset+k) s1) := by
  have hsize : g.size=f.size := hw.thin.size
  refine ⟨h1.ok,hsize ▸ h1.inv.grow (fun hm => ?_) (hsize ▸ hset) fun i hi hlt hc => ?_⟩
  · have hmem := h1.inv.storable.mem (h1.inv.storable.kind.trans hm)
    exact (hroom hm).trans hmem.2.2.1
  · cases hkind : r.kind with
    | ext4 =>
      obtain ⟨hmeta,hz⟩ := h1.inv.storable.ext4 (h1.inv.storable.kind.trans hkind)
      rw [h1.inv.size] at hmeta
      exact hz i (by omega)
    | mem =>
      obtain ⟨-,-,-,hz⟩ := h1.inv.storable.mem (h1.inv.storable.kind.trans hkind)
      rw [h1.inv.size] at hz
      by_cases hgap : i<alignDown offset
      · exact hz i hi (hgap.trans_le (hclear hkind))
      · -- the page was written by the call and is still there, so that it is dirty
        exfalso
        have hpage : ¬Uncached n (alignDown i) s1 := by
          by_cases hlo : offset ≤ i
          · exact hkept hkind i hlo hlt (hsize ▸ hi)
          · have heq : alignDown i=alignDown offset := by
              simp only [alignDown,pageSize] at *
              omega
            rw [heq]
            exact hkept hkind offset le_rfl (by omega) (by omega)
        simp only [Uncached,not_forall,not_not] at hpage
        obtain ⟨j,d,hj,hd,ho⟩ := hpage
        refine hc j d hj hd (hw.dirty hk j d hj hd ?_ ?_) ho
        · rw [ho]
          simp only [alignDown,pageSize] at *
          omega
        · have := alignDown_add_mod i
          omega

lemma write (h : Sees n r f held s) (offset : ℕ) (src : Buf) (len : ℕ)
    (hlen : len≠0 → offset+len<2^64) (hroom : len≠0 → offset+len≤r.room)
    (hset : r.settled=true → len≠0 → offset+len≤f.size) :
    wp (pagecacheWrite n offset src len)
      (fun k s' => k≤len ∧ ∃ g, Landed n f g offset src len k s' ∧
        ((r.kind=.mem → k≠0 → alignDown offset≤r.clear ∧ Kept n f.size offset k s') → Sees n r g held s'))
      (Sees n r f held) s := by
  rw [pagecacheWrite,wp_gets_bind]
  refine wp_require_of h fun _ => ?_
  split_ifs with hzero
  · refine ⟨Nat.zero_le _,f,⟨by rw [IdealFile.write_zero],fun i => .inl (by rw [IdealFile.write_zero]),
      fun _ _ _ hk => absurd rfl hk,fun _ i hlo hhi => ?_⟩,fun _ => h⟩
    omega
  have hlen := hlen hzero
  have hroom := hroom hzero
  refine wp_require_of h fun _ => ?_
  refine wp_require_of h fun _ => ?_
  have hwant : pagecacheWriteLen (s.inodes n) offset len=len := by
    have hdev : ¬((s.inodes n).type=.dev ∧ (s.inodes n).size<(offset+len)%2^64) := by
      rw [h.inv.type]
      simp
    simp only [pagecacheWriteLen,if_neg hdev]
    split_ifs with hk
    · obtain ⟨-,-,hr,-⟩ := h.inv.storable.mem hk
      omega
    · rfl
  dsimp only
  rw [hwant,wp_bind]
  refine wp_mono (h.writeLoop src len offset 0 len (by omega) fun i hi _ => f.beyond i hi)
    (fun k s1 hs1 => ?_) fun _ hf => hf.elim
  obtain ⟨hk,g,h1,hw⟩ := hs1
  refine wp_require_bind (fun hk0 => ?_) fun hk0 => ?_
  · have hk0 : k≠0 := of_decide_eq_true hk0
    rw [wp_modify_bind,Nat.mod_eq_of_lt (by omega),wp_bind]
    let g' : IdealFile := ⟨⟨max f.size (offset+k),g.bytes⟩,fun i hi => by
      rcases hw.thin.bytes i with heq | hz
      · rw [heq]
        dsimp only at hi
        exact (Buf.copy_of_outside (by omega)).trans (f.beyond i (by omega))
      · exact hz.2.1⟩
    refine wp_imp (wp_pressure (I := fun s' => pagePlaces s'=pagePlaces s1 ∧
      ((r.kind=.mem → alignDown offset≤r.clear ∧ Kept n f.size offset k s1) → Sees n r g' held s'))
      (fun sel b s' hs' => ⟨places_flushMatch sel b _ s' hs'.1,fun hc => flushMatch sel b s' (hs'.2 hc)⟩)
      ⟨rfl,fun hc => ?_⟩) fun _ s2 hs2 => ?_
    · exact growWritten h1 hw hk0 (fun _ => by omega) (fun hs => by have := hset hs hzero; omega)
        (fun hm => (hc hm).1) fun hm => (hc hm).2
    · refine ⟨hk,g',⟨(IdealFile.size_write hk0).symm,fun i => ?_,fun i hi hu _ => ?_,fun hlast => ?_⟩,
        fun hc => hs2.2 fun hm => ⟨(hc hm hk0).1,(hc hm hk0).2.congr hs2.1.symm⟩⟩
      · rcases hw.thin.bytes i with heq | ⟨hi,hz,hu⟩
        · exact .inl heq
        · refine .inr ⟨hi,hz,?_⟩
          rwa [uncached_iff,hs2.1,← uncached_iff]
      · rw [uncached_iff,hs2.1,← uncached_iff] at hu
        exact h1.inv.zero (hw.thin.size ▸ hi) hu.cleanAt
      · exact (hw.kept hk hlast).congr hs2.1
  · obtain rfl : k=0 := by simpa using hk0
    have hthin := hw.thin
    rw [overwrite_zero] at hthin
    rwa [hthin.eq_ideal] at h1

lemma forget {p : ℕ} (h : Sees n r f (p::held) s) : Sees n r f held s :=
  ⟨⟨h.ok.phys,h.ok.counted.forget⟩,h.inv⟩

lemma page_apart (h : Sees n r f held s)
    (hj : s.cache.entries j=some c) (hc : c.inode≠n) {k : CacheIx}
    {d : PageCacheEntry} (hk : s.cache.entries k=some d) (hd : d.inode=n) : d.pa≠c.pa := by
  intro hpa
  obtain rfl := h.inv.apart k j d c hk hj hd hpa
  obtain rfl : d=c := Option.some.inj (hk.symm.trans hj)
  exact hc hd

lemma markWritten (m off : ℕ) : Preserves (Sees n r f held) (markWritten m off) := by
  refine .of_wp fun s h => ?_
  rw [FuriOS.markWritten,wp_gets_bind]
  split
  · rename_i i hit hfind
    have hi := (Slots.find?_eq_some hfind).1
    rw [wp_bind]
    refine h.wp_touchTick fun tick s1 h1 he1 _ _ _ => ?_
    have hi1 : s1.cache.entries i=some hit := by
      rw [he1]
      exact hi
    rw [wp_modify]
    exact ⟨h1.setEntry_ok hi1 {hit with dirty := true, lastTouch := tick} rfl,
      h1.inv.putEntry hi1 {hit with dirty := true, lastTouch := tick} rfl rfl rfl
        (fun hd => by cases hd) ⟨rfl,rfl,rfl⟩ rfl rfl⟩
  · exact h

lemma readLoop_other (m fuel cur rem : ℕ) :
    Preserves (Sees n r f held) (pagecacheReadLoop m fuel cur rem) := by
  refine .of_wp ?_
  induction fuel generalizing cur rem with
  | zero => exact fun s h => h
  | succ fuel ih =>
    intro s h
    rw [pagecacheReadLoop]
    split_ifs with hrem
    · exact h
    rw [wp_bind,wp_attempt]
    refine wp_mono (h.getOrCreate m (alignDown cur)) (fun pa s1 hs1 => ?_) fun s1 h1 => h1
    rw [wp_gets_bind,modifyPhys,wp_modify_bind,wp_bind]
    exact wp_imp (ih _ _ _ hs1.1.freePage) fun _ s2 h2 => h2

lemma read_any (m offset len : ℕ) : Preserves (Sees n r f held) (pagecacheRead m offset len) := by
  refine .gets fun ino => .require fun _ => ?_
  refine .ite (fun _ => .of_pure _) fun _ => ?_
  exact .bind (readLoop_other _ _ _ _) fun _ => .require fun _ => .of_pure _

lemma writeLoop_other (hm : m≠n) (src : Buf) (fuel cur done rem : ℕ) :
    Preserves (Sees n r f held) (pagecacheWriteLoop m src fuel cur done rem) := by
  refine .of_wp ?_
  induction fuel generalizing cur done rem with
  | zero => exact fun s h => h
  | succ fuel ih =>
    intro s h
    rw [pagecacheWriteLoop]
    split_ifs with hrem
    · exact h
    rw [wp_bind,wp_attempt]
    refine wp_mono (h.getOrCreate m (alignDown cur)) (fun pa s1 hs1 => ?_) fun s1 h1 => h1
    obtain ⟨h1,-,j,c,hj,hc,-,rfl⟩ := hs1
    have hcn : c.inode≠n := fun hn => hm (hc.1 hn)
    have hpage := pageChunk_page cur rem
    have hw : s1.phys.Writes (s1.phys.copyIn (c.pa+cur%pageSize) src done (pageChunk cur rem)) c.pa :=
      .of_mem fun a ha => Buf.copy_of_outside (by omega)
    have h2 := h1.writePage (h1.ok.congr_phys (hw.ok h1.ok.phys) hw.refs) hw.outside
      (h1.entry_aligned hj) fun k d hk hd => h1.page_apart hj hcn hk hd
    rw [wp_bind,modifyPhys,wp_modify,wp_bind]
    refine wp_mono ((markWritten m (alignDown cur)).wp h2) (fun _ s3 h3 => ?_) fun _ h3 => h3.forget
    rw [wp_bind,modifyPhys,wp_modify,wp_bind]
    exact wp_imp (ih _ _ _ _ h3.freePage) fun _ s4 h4 => h4

lemma write_other (hm : m≠n) (offset : ℕ) (src : Buf) (len : ℕ) :
    Preserves (Sees n r f held) (pagecacheWrite m offset src len) := by
  refine .gets fun ino => .require fun _ => ?_
  refine .ite (fun _ => .of_pure _) fun _ => ?_
  refine .require fun _ => .require fun _ => ?_
  refine .bind (writeLoop_other hm _ _ _ _ _) fun k => .require fun _ => ?_
  refine .bind (.of_modify fun s h => ⟨h.ok,?_⟩) fun _ => pressure.bind fun _ => .of_pure _
  exact h.inv.setOther hm fun _ => rfl

end Sees

end FuriOS
