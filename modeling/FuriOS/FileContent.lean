import FuriOS.FileIO
import FuriOS.PageCacheSpec

/-! The contents of a file in the page cache and below it. A file stands for an ideal byte array:
its cached pages hold the bytes of the array, and every byte without a dirty page is found in the
layer below. What the cache does for other files and under memory pressure keeps this. -/
namespace FuriOS
open Prog Owners Function

/-- What is known of a file: its size, and its bytes as the cache and the layer below have them. -/
@[ext] structure Contents where
  size : ℕ
  bytes : Buf

/-- A byte array with a size; beyond it there is nothing but zeros. -/
structure IdealFile extends Contents where
  beyond : ∀ i, size ≤ i → bytes i=0

instance : Coe IdealFile Contents := ⟨IdealFile.toContents⟩

/-- `len` bytes of `src` from `done` on are written at `cur`, the size stays as it is. -/
def Contents.overwrite (f : Contents) (cur : ℕ) (src : Buf) (done len : ℕ) : Contents where
  size := f.size
  bytes := f.bytes.copy cur src done len

/-- The file without what the page of an entry has beyond the end. -/
def Contents.forget (f : Contents) (n : ℕ) (e : PageCacheEntry) : Contents where
  size := f.size
  bytes i := if e.inode=n ∧ alignDown i=e.fileOff ∧ f.size ≤ i then 0 else f.bytes i

@[simp] lemma IdealFile.forget (f : IdealFile) (n : ℕ) (e : PageCacheEntry) :
    (f : Contents).forget n e=f := by
  refine Contents.ext rfl (funext fun i => ?_)
  simp only [Contents.forget]
  split_ifs with hi
  · exact (f.beyond i hi.2.2).symm
  · rfl

namespace IdealFile

/-- `len` bytes of `src` are written at `offset`; a gap before them is filled with zeros. -/
def write (f : IdealFile) (offset : ℕ) (src : Buf) (len : ℕ) : IdealFile where
  size := if len=0 then f.size else max f.size (offset+len)
  bytes := f.bytes.copy offset src 0 len
  beyond i hi := by
    split_ifs at hi with h
    · rw [Buf.copy_of_outside (by omega)]
      exact f.beyond i hi
    · rw [Buf.copy_of_outside (by omega)]
      exact f.beyond i (by omega)

def truncate (f : IdealFile) (size : ℕ) : IdealFile where
  size := size
  bytes := fun i => if i<size then f.bytes i else 0
  beyond i hi := if_neg (by omega)

/-- The bytes that a read at `offset` returns. -/
def read (f : IdealFile) (offset len : ℕ) : Bytes :=
  (List.range (min len (f.size-offset))).map fun k => f.bytes (offset+k)

lemma ext_iff' {f g : IdealFile} (hs : f.size=g.size) (hb : ∀ i, f.bytes i=g.bytes i) : f=g := by
  obtain ⟨⟨n,b⟩,hf⟩ := f
  obtain ⟨⟨n',b'⟩,hg⟩ := g
  obtain rfl : n=n' := hs
  obtain rfl : b=b' := funext hb
  rfl

@[simp] lemma write_zero (f : IdealFile) (offset : ℕ) (src : Buf) : f.write offset src 0=f :=
  ext_iff' rfl fun i => by simp [write,Buf.copy_zero]

lemma size_write {f : IdealFile} {offset len : ℕ} {src : Buf} (h : len≠0) :
    (f.write offset src len).size=max f.size (offset+len) := if_neg h

end IdealFile

/-- Where a file lies: the kind of its file system, the bytes that the array of a memory file has
room for, whether the record of an ext4 file has the size of the inode, and the offset up to which the
array of a memory file has zeros from the end of the file on. -/
structure Place where
  kind : FsKind
  room : ℕ
  settled : Bool
  clear : ℕ

abbrev Place.memfs : Place := ⟨.mem,0,false,0⟩

abbrev Place.ext4 (settled : Bool) : Place := ⟨.ext4,0,settled,0⟩

/-- The layer below can take every byte of the file and has nothing beyond its end. When the sizes
have to agree, transfers must not fail. -/
structure Storable (n : ℕ) (r : Place) (s : System) : Prop where
  kind : (s.inodes n).fsKind=r.kind
  mem : (s.inodes n).fsKind=.mem →
    (s.inodes n).hasData=true ∧ (s.inodes n).size≤(s.inodes n).capacity ∧
      r.room≤(s.inodes n).capacity ∧
      ∀ i, (s.inodes n).size ≤ i → i<r.clear → s.backing (s.fileId n) i=0
  ext4 : (s.inodes n).fsKind=.ext4 → (s.inodes n).metaSize≤(s.inodes n).size ∧
    ∀ i, (s.inodes n).metaSize ≤ i → s.backing (s.fileId n) i=0
  settled : r.settled=true → (s.inodes n).metaSize=(s.inodes n).size ∧ ∀ k, s.ioOk k=true

/-- No page of the file is cached at `off`. -/
def Uncached (n off : ℕ) (s : System) : Prop :=
  ∀ j e, s.cache.entries j=some e → e.inode=n → e.fileOff≠off

/-- No dirty page of the file is cached at `off`. -/
def CleanAt (n off : ℕ) (s : System) : Prop :=
  ∀ j e, s.cache.entries j=some e → e.inode=n → e.dirty=true → e.fileOff≠off

/-- The inode `n` is a file of its own with a size that the layer below can take. -/
structure IsFile (n : ℕ) (r : Place) (k : ℕ) (s : System) : Prop where
  type : (s.inodes n).type=.file
  alone : ∀ m, s.inodeSame m n=true → m=n
  storable : Storable n r s
  size : (s.inodes n).size=k

/-- The cache has each page of the inode `n` at most once, and in a place of its own. -/
structure Paged (n : ℕ) (c : Slots maxFileCachePages PageCacheEntry) : Prop where
  aligned : ∀ j e, c j=some e → e.inode=n → e.fileOff%pageSize=0
  unique : ∀ j j' e e', c j=some e → c j'=some e' → e.inode=n → e'.inode=n →
    e.fileOff=e'.fileOff → j=j'
  apart : ∀ j j' e e', c j=some e → c j'=some e' → e.inode=n → e.pa=e'.pa → j=j'

/-- The inodes and the layer below are the same. -/
structure SameDisk (s s' : System) : Prop where
  inodes : s'.inodes=s.inodes
  backing : s'.backing=s.backing
  ioOk : s'.ioOk=s.ioOk

/-- The inode `n` stands for the file `f`: cached pages hold its bytes, and a byte without a dirty
page is in the layer below, or zero when it lies beyond the end. -/
structure FileInv (n : ℕ) (r : Place) (f : Contents) (s : System) : Prop
    extends IsFile n r f.size s, Paged n s.cache.entries where
  cached : ∀ j e, s.cache.entries j=some e → e.inode=n →
    ∀ k, k<pageSize → s.phys.mem (e.pa+k)=f.bytes (e.fileOff+k)
  below : ∀ i, CleanAt n (alignDown i) s →
    (if i<f.size then s.backing (s.fileId n) i else 0)=f.bytes i

/-- All references to pages are counted and the inode `n` stands for the file `f`. -/
structure Sees (n : ℕ) (r : Place) (f : Contents) (held : List ℕ) (s : System) : Prop where
  ok : s.memView.Ok held
  inv : FileInv n r f s

lemma alignDown_add {off k : ℕ} (ho : off%pageSize=0) (hk : k<pageSize) :
    alignDown (off+k)=off := by
  simp only [alignDown,pageSize] at *
  omega

lemma alignDown_add_mod (i : ℕ) : alignDown i+i%pageSize=i := by
  simp only [alignDown]
  exact Nat.div_add_mod' i pageSize

lemma alignDown_aligned (i : ℕ) : alignDown i%pageSize=0 := Nat.mul_mod_left _ _

/-- The fields by which files are told apart. -/
def Inode.ident (ino : Inode) : InodeType × FsKind × ℕ × ℕ × DevKind × ℕ × ℕ :=
  (ino.type,ino.fsKind,ino.fsId,ino.fsIno,ino.devKind,ino.devLbaStart,ino.devLbaCount)

lemma fsKind_congr {a b : Inode} (h : a.ident=b.ident) : a.fsKind=b.fsKind :=
  congrArg (fun p => p.2.1) h

section Ident
variable {s s' : System} (h : ∀ m, (s'.inodes m).ident=(s.inodes m).ident)
include h

lemma inodeSame_congr (a b : ℕ) : s'.inodeSame a b=s.inodeSame a b := by
  have ha := h a
  have hb := h b
  simp only [Inode.ident,Prod.mk.injEq] at ha hb
  obtain ⟨ha1,ha2,ha3,ha4,ha5,ha6,ha7⟩ := ha
  obtain ⟨hb1,hb2,hb3,hb4,hb5,hb6,hb7⟩ := hb
  simp only [System.inodeSame,ha1,ha2,ha3,ha4,ha5,ha6,ha7,hb1,hb2,hb3,hb4,hb5,hb6,hb7]

lemma fileId_congr (n : ℕ) : s'.fileId n=s.fileId n := by
  have hn := h n
  simp only [Inode.ident,Prod.mk.injEq] at hn
  obtain ⟨h1,h2,h3,h4,h5,-,-⟩ := hn
  simp only [System.fileId,h1,h2,h3,h4,h5]

end Ident

lemma inodeSame_self (s : System) (n : ℕ) : s.inodeSame n n=true := by simp [System.inodeSame]

lemma inodeSame_comm (s : System) (a b : ℕ) : s.inodeSame a b=s.inodeSame b a := by
  simp only [System.inodeSame]
  by_cases hab : a=b
  · rw [if_pos hab,if_pos hab.symm]
  · rw [if_neg hab,if_neg (Ne.symm hab)]
    grind

lemma fileId_ne {s : System} {m n : ℕ} (hm : pagecacheInodeSupported (s.inodes m)=true)
    (hn : (s.inodes n).type=.file) (h : s.inodeSame m n=false) : s.fileId m≠s.fileId n := by
  have hmn : m≠n := by
    rintro rfl
    rw [inodeSame_self] at h
    exact absurd h (by decide)
  simp only [System.inodeSame,if_neg hmn] at h
  simp only [System.fileId,hn,reduceCtorEq,if_false]
  have hdir : (s.inodes m).type≠.dir := by
    intro hd
    simp [pagecacheInodeSupported,hd] at hm
  cases hm' : (s.inodes m).type with
  | dir => exact absurd hm' hdir
  | dev =>
    simp only [if_true]
    split_ifs <;> simp
  | file =>
    simp only [hm',hn] at h
    split_ifs at h ⊢ <;> simp_all

lemma Storable.congr {n : ℕ} {r : Place} {s s' : System} (h : Storable n r s)
    (hid : ∀ m, (s'.inodes m).ident=(s.inodes m).ident) (hn : s'.inodes n=s.inodes n)
    (hb : s'.backing (s.fileId n)=s.backing (s.fileId n)) (hio : s'.ioOk=s.ioOk) :
    Storable n r s' := by
  refine ⟨by rw [hn]; exact h.kind,fun hk => ?_,fun hk => ?_,by rw [hn,hio]; exact h.settled⟩
  · rw [hn] at hk ⊢
    rw [fileId_congr hid,hb]
    exact h.mem hk
  · rw [hn] at hk ⊢
    rw [fileId_congr hid,hb]
    exact h.ext4 hk

section
variable {n k : ℕ} {r : Place} {s s' : System}

lemma IsFile.edit {r' : Place} {k' : ℕ} (h : IsFile n r k s) (hid : ∀ m, (s'.inodes m).ident=(s.inodes m).ident)
    (hst : Storable n r' s') (hsize : (s'.inodes n).size=k') : IsFile n r' k' s' :=
  ⟨(congrArg Prod.fst (hid n)).trans h.type,fun m hm => h.alone m (inodeSame_congr hid m n ▸ hm),hst,hsize⟩

lemma IsFile.same (h : IsFile n r k s) (hd : SameDisk s s') : IsFile n r k s' :=
  have hid : ∀ m, (s'.inodes m).ident=(s.inodes m).ident := fun m => by rw [hd.inodes]
  h.edit hid (h.storable.congr hid (by rw [hd.inodes]) (by rw [hd.backing]) hd.ioOk) (hd.inodes ▸ h.size)

lemma SameDisk.trans {s'' : System} (h : SameDisk s s') (h' : SameDisk s' s'') : SameDisk s s'' :=
  ⟨h'.inodes.trans h.inodes,h'.backing.trans h.backing,h'.ioOk.trans h.ioOk⟩

lemma SameDisk.fileId (hd : SameDisk s s') : s'.fileId n=s.fileId n :=
  fileId_congr (fun m => by rw [hd.inodes]) n

/-- The entries of the new table stand for the old ones in the same slots. -/
lemma Paged.of_some {c c' : Slots maxFileCachePages PageCacheEntry} (h : Paged n c)
    (hc : ∀ {j d}, c' j=some d → ∃ b, c j=some b ∧ d.inode=b.inode ∧ d.fileOff=b.fileOff ∧ d.pa=b.pa) :
    Paged n c' := by
  refine ⟨fun j d hj hd => ?_,fun j j' d d' hj hj' hd hd' ho => ?_,fun j j' d d' hj hj' hd hp => ?_⟩
  · obtain ⟨b,hb,h1,h2,-⟩ := hc hj
    rw [h2]
    exact h.aligned j b hb (h1 ▸ hd)
  · obtain ⟨b,hb,h1,h2,-⟩ := hc hj
    obtain ⟨b',hb',h1',h2',-⟩ := hc hj'
    exact h.unique j j' b b' hb hb' (h1 ▸ hd) (h1' ▸ hd') (by rw [← h2,← h2',ho])
  · obtain ⟨b,hb,h1,-,h3⟩ := hc hj
    obtain ⟨b',hb',-,-,h3'⟩ := hc hj'
    exact h.apart j j' b b' hb hb' (h1 ▸ hd) (by rw [← h3,← h3',hp])

end

lemma CleanAt.congr {n off : ℕ} {s s' : System} (he : s'.cache.entries=s.cache.entries)
    (h : CleanAt n off s') : CleanAt n off s := fun j e hj => h j e (he ▸ hj)

lemma Uncached.cleanAt {n off : ℕ} {s : System} (h : Uncached n off s) : CleanAt n off s :=
  fun j e hj he _ => h j e hj he

namespace FileInv
variable {n m : ℕ} {r : Place} {f : Contents} {s s' : System} {j : CacheIx} {e : PageCacheEntry}

section
variable (h : FileInv n r f s)
include h

lemma stored {i : ℕ} (hi : i<f.size) (hc : CleanAt n (alignDown i) s) :
    s.backing (s.fileId n) i=f.bytes i := by
  have hb := h.below i hc
  rwa [if_pos hi] at hb

lemma zero {i : ℕ} (hi : f.size ≤ i) (hc : CleanAt n (alignDown i) s) : f.bytes i=0 := by
  have hb := h.below i hc
  rw [if_neg (by omega)] at hb
  exact hb.symm

lemma congr (hid : ∀ m, (s'.inodes m).ident=(s.inodes m).ident)
    (hn : s'.inodes n=s.inodes n) (hb : s'.backing (s.fileId n)=s.backing (s.fileId n))
    (hio : s'.ioOk=s.ioOk) (he : s'.cache.entries=s.cache.entries)
    (hmem : ∀ j e, s.cache.entries j=some e → e.inode=n → s'.phys.mem.Agree s.phys.mem e.pa pageSize) :
    FileInv n r f s' where
  toIsFile := h.edit hid (h.storable.congr hid hn hb hio) (hn ▸ h.size)
  toPaged := he ▸ h.toPaged
  cached j e hj hen k hk := by
    rw [he] at hj
    rw [hmem j e hj hen _ (by omega) (by omega)]
    exact h.cached j e hj hen k hk
  below i hd := by
    rw [fileId_congr hid,hb]
    exact h.below i (hd.congr he)

lemma maxBytes_le (hen : e.inode=n) :
    pagecacheEntryMaxBytes s e=min pageSize (f.size-e.fileOff) := by
  rw [pagecacheEntryMaxBytes,hen,h.size]

lemma setOther (hmn : m≠n) {g : Inode → Inode}
    (hg : ∀ ino, (g ino).ident=ino.ident) : FileInv n r f (s.setInode m g) := by
  refine h.congr (fun m' => ?_) ?_ rfl rfl rfl fun _ _ _ _ _ _ _ => rfl
  · by_cases hm : m'=m
    · subst hm
      simp [System.setInode,hg]
    · simp [System.setInode,hm]
  · simp [System.setInode,hmn.symm]

lemma storeOther (hf : s.fileId m≠s.fileId n) (off src len : ℕ) :
    FileInv n r f (storeBytes m off src len s) :=
  h.congr (fun _ => rfl) rfl (by simp [storeBytes,hf.symm]) rfl rfl fun _ _ _ _ _ _ _ => rfl

lemma ioCount (c : ℕ) : FileInv n r f {s with ioCount := c} :=
  h.congr (fun _ => rfl) rfl rfl rfl rfl fun _ _ _ _ _ _ _ => rfl

end

/-- The page of an entry has reached the layer below. -/
def Stored (n : ℕ) (f : Contents) (e : PageCacheEntry) (s : System) : Prop :=
  e.inode=n → ∀ i, alignDown i=e.fileOff → (if i<f.size then s.backing (s.fileId n) i else 0)=f.bytes i

lemma stored_forget (h : e.inode=n → ∀ i, i<f.size → alignDown i=e.fileOff →
    s.backing (s.fileId n) i=f.bytes i) : Stored n (f.forget n e) e s := by
  intro hen i hai
  change (if i<f.size then _ else _)=if _ then _ else _
  by_cases hi : i<f.size
  · rw [if_pos hi,if_neg (by omega)]
    exact h hen i hi hai
  · rw [if_neg hi,if_pos ⟨hen,hai,by omega⟩]

/-- The state after a page of the file was stored: its bytes below the size are copied and the
size is the same. -/
lemma store (h : FileInv n r f s) (hj : s.cache.entries j=some e) (hen : e.inode=n)
    (hid : ∀ m, (s'.inodes m).ident=(s.inodes m).ident)
    (hsize : (s'.inodes n).size=f.size) (hst : Storable n r s')
    (hb : s'.backing (s.fileId n) =
      (s.backing (s.fileId n)).copy e.fileOff s.phys.mem e.pa (min pageSize (f.size-e.fileOff)))
    (he : s'.cache.entries=s.cache.entries) (hmem : s'.phys.mem=s.phys.mem) :
    FileInv n r f s' ∧ Stored n (f.forget n e) e s' := by
  have hal := h.aligned j e hj hen
  have hin (i : ℕ) (hi : i<f.size) (hai : alignDown i=e.fileOff) :
      s'.backing (s.fileId n) i=f.bytes i := by
    have hmod := alignDown_add_mod i
    have hlt := Nat.mod_lt i (show 0<pageSize by decide)
    rw [hb,Buf.copy_of_inside (by omega),h.cached j e hj hen _ (by omega)]
    congr 1
    omega
  refine ⟨⟨h.edit hid hst hsize,he ▸ h.toPaged,?_,fun i hd => ?_⟩,stored_forget fun _ i hi hai => ?_⟩
  · rw [he,hmem]
    exact h.cached
  · rw [fileId_congr hid]
    by_cases hai : i<f.size ∧ alignDown i=e.fileOff
    · rw [if_pos hai.1]
      exact hin i hai.1 hai.2
    · rw [hb,Buf.copy_of_outside ?_]
      · exact h.below i (hd.congr he)
      · have hmod := alignDown_add_mod i
        have hai' := alignDown_aligned i
        have hlt := Nat.mod_lt i (show 0<pageSize by decide)
        simp only [pageSize] at *
        omega
  · rw [fileId_congr hid]
    exact hin i hi hai

end FileInv

lemma wp_backingTransfer {Q : Unit → System → Prop} {E : System → Prop} {s : System}
    (ht : s.ioOk s.ioCount=true → Q () {s with ioCount := s.ioCount+1})
    (hf : s.ioOk s.ioCount=false → E {s with ioCount := s.ioCount+1}) :
    wp backingTransfer Q E s := by
  rw [backingTransfer,wp_gets_bind,wp_modify_bind,wp_require]
  cases hio : s.ioOk s.ioCount with
  | true => exact ht hio
  | false => exact hf hio

namespace FileInv
variable {n m : ℕ} {r : Place} {f : Contents} {s s' : System} {j : CacheIx} {e : PageCacheEntry}

lemma ident_setInode (s : System) {g : Inode → Inode} (hg : ∀ ino, (g ino).ident=ino.ident) (k : ℕ) :
    ((s.setInode n g).inodes k).ident=(s.inodes k).ident := by
  by_cases hk : k=n
  · subst hk
    simp [System.setInode,hg]
  · simp [System.setInode,hk]

lemma ident_growTo (s : System) (size k : ℕ) :
    ((growTo n size s).inodes k).ident=(s.inodes k).ident := by
  apply ident_setInode
  intro
  rfl

lemma ident_growMeta (s : System) (size k : ℕ) :
    ((growMeta n size s).inodes k).ident=(s.inodes k).ident := by
  apply ident_setInode
  intro
  rfl

lemma ident_raiseMeta (s : System) (k : ℕ) : ((raiseMeta n s).inodes k).ident=(s.inodes k).ident := by
  apply ident_setInode
  intro
  rfl

variable (h : FileInv n r f s)
include h

lemma storePage_other (hmn : s.inodeSame m n=false) (off src len : ℕ) :
    wp (pagecacheStorePage m off src len) (fun _ s' => FileInv n r f s') (FileInv n r f) s := by
  have hne : m≠n := fun he => by rw [he,inodeSame_self] at hmn; exact absurd hmn (by decide)
  rw [pagecacheStorePage,wp_gets_bind]
  refine wp_require_of h fun hreq => ?_
  simp only [Bool.and_eq_true] at hreq
  have hf := fileId_ne hreq.1.1 h.type hmn
  split_ifs
  · refine wp_require_of h fun _ => ?_
    refine wp_require_of h fun _ => ?_
    rw [wp_bind]
    refine wp_backingTransfer (fun _ => ?_) fun _ => h.ioCount _
    rw [wp_modify_bind,wp_modify]
    refine setOther ?_ hne fun _ => rfl
    exact (h.ioCount (s.ioCount+1)).storeOther hf _ _ _
  · exact h
  · rw [wp_modify_bind,wp_modify]
    refine setOther ?_ hne fun _ => rfl
    exact h.storeOther hf _ _ _
  · rw [wp_bind]
    refine wp_backingTransfer (fun _ => ?_) fun _ => h.ioCount _
    refine wp_require_bind (fun _ => ?_) fun _ => h.ioCount _
    rw [wp_modify_bind,wp_bind]
    have hraise : FileInv n r f (raiseMeta m {s with ioCount := s.ioCount+1}) := by
      refine setOther ?_ hne fun _ => rfl
      exact h.ioCount _
    refine wp_backingTransfer (fun _ => ?_) fun _ => hraise.ioCount _
    rw [wp_modify_bind,wp_modify]
    refine setOther ?_ hne fun _ => rfl
    refine (hraise.ioCount _).storeOther ?_ _ _ _
    have h1 := fileId_congr (ident_raiseMeta (n := m) {s with ioCount := s.ioCount+1})
    exact fun he => hf ((h1 m).symm.trans (he.trans (h1 n)))

lemma store_ext4 (hj : s.cache.entries j=some e) (hen : e.inode=n)
    (hk : (s.inodes n).fsKind=.ext4) (hoff : e.fileOff<f.size)
    (hin : s'.inodes=update s.inodes n
      {s.inodes n with metaSize := max (s.inodes n).metaSize (s.inodes n).size})
    (hb : s'.backing=s.backing) (hio : s'.ioOk=s.ioOk)
    (he : s'.cache.entries=s.cache.entries) (hmem : s'.phys.mem=s.phys.mem) :
    FileInv n r f (growMeta n (e.fileOff+min pageSize (f.size-e.fileOff))
        (storeBytes n e.fileOff e.pa (min pageSize (f.size-e.fileOff)) s')) ∧
      Stored n (f.forget n e) e (growMeta n (e.fileOff+min pageSize (f.size-e.fileOff))
        (storeBytes n e.fileOff e.pa (min pageSize (f.size-e.fileOff)) s')) := by
  obtain ⟨hmeta,hbeyond⟩ := h.storable.ext4 hk
  rw [h.size] at hmeta
  have hid' : ∀ m, (s'.inodes m).ident=(s.inodes m).ident := by
    intro m
    by_cases hm : m=n
    · subst hm
      simp [hin,Inode.ident]
    · simp [hin,hm]
  have hfile := fileId_congr hid' n
  have hid : ∀ m, ((growMeta n (e.fileOff+min pageSize (f.size-e.fileOff))
      (storeBytes n e.fileOff e.pa (min pageSize (f.size-e.fileOff)) s')).inodes m).ident
      = (s.inodes m).ident := fun m => by
    rw [ident_growMeta]
    exact hid' m
  have hback : (growMeta n (e.fileOff+min pageSize (f.size-e.fileOff))
      (storeBytes n e.fileOff e.pa (min pageSize (f.size-e.fileOff)) s')).backing (s.fileId n) =
      (s.backing (s.fileId n)).copy e.fileOff s.phys.mem e.pa (min pageSize (f.size-e.fileOff)) := by
    simp [growMeta,System.setInode,storeBytes,hfile,hb,hmem]
  refine h.store hj hen hid ?_ ⟨(fsKind_congr (hid n)).trans h.storable.kind,fun hk' => ?_,
    fun _ => ⟨?_,fun i hi => ?_⟩,fun hs => ⟨?_,?_⟩⟩ hback he hmem
  · simp only [growMeta,System.setInode,storeBytes,update_self,hin,h.size]
    omega
  · simp only [growMeta,System.setInode,storeBytes,update_self,hin,hk] at hk'
    exact absurd hk' (by decide)
  · simp only [growMeta,System.setInode,storeBytes,update_self,hin,le_refl]
  · rw [fileId_congr hid,hback]
    simp only [growMeta,System.setInode,storeBytes,update_self,hin,h.size] at hi
    rw [Buf.copy_of_outside (by omega)]
    exact hbeyond i (by omega)
  · simp only [growMeta,System.setInode,update_self]
  · simpa only [growMeta,System.setInode,storeBytes,hio] using (h.storable.settled hs).2

lemma raise (hk : (s.inodes n).fsKind=.ext4) : FileInv n r f (raiseMeta n s) := by
  have hid := ident_raiseMeta (n := n) s
  have hn : (raiseMeta n s).inodes n
      = {s.inodes n with metaSize := max (s.inodes n).metaSize (s.inodes n).size} := by
    simp only [raiseMeta,System.setInode,update_self]
  obtain ⟨hmeta,hbeyond⟩ := h.storable.ext4 hk
  refine ⟨h.edit hid ⟨(fsKind_congr (hid n)).trans h.storable.kind,fun hk' => ?_,fun _ => ?_,fun hs => ?_⟩ ?_,
    h.toPaged,h.cached,?_⟩
  · rw [hn] at hk'
    cases hk.symm.trans hk'
  · rw [hn,fileId_congr hid]
    exact ⟨by dsimp only; omega,fun i hi => hbeyond i (by dsimp only at hi; omega)⟩
  · rw [hn]
    obtain ⟨hs,hok⟩ := h.storable.settled hs
    exact ⟨by dsimp only; omega,hok⟩
  · rw [hn]
    exact h.size
  · rw [fileId_congr hid]
    exact h.below

section
variable (hj : s.cache.entries j=some e)
include hj

lemma storePage_self (hen : e.inode=n)
    (hmax : pagecacheEntryMaxBytes s e≠0) :
    wp (pagecacheStorePage n e.fileOff e.pa (pagecacheEntryMaxBytes s e))
      (fun _ s' => FileInv n r f s' ∧ Stored n (f.forget n e) e s') (FileInv n r f) s := by
  have hmax' := h.maxBytes_le hen
  rw [hmax'] at hmax ⊢
  have hoff : e.fileOff<f.size := by
    by_contra hc
    exact hmax (by rw [Nat.sub_eq_zero_of_le (by omega),Nat.min_zero])
  have hlen : min (min pageSize (f.size-e.fileOff)) pageSize=min pageSize (f.size-e.fileOff) := by
    omega
  rw [pagecacheStorePage,wp_gets_bind]
  refine wp_require_of h fun _ => ?_
  rw [if_neg (by rw [h.type]; decide)]
  split_ifs with hk hskip
  · obtain ⟨hdata,hcap,-,-⟩ := h.storable.mem hk
    rw [h.size] at hcap
    simp only [hdata,Bool.not_true,Bool.false_or,decide_eq_true_eq] at hskip
    omega
  · obtain ⟨hdata,hcap,hroom,hclear⟩ := h.storable.mem hk
    rw [h.size] at hcap hclear
    have hn : min (min pageSize (f.size-e.fileOff)) ((s.inodes n).capacity-e.fileOff)
        = min pageSize (f.size-e.fileOff) := by omega
    rw [hlen,hn,wp_modify_bind,wp_modify]
    refine h.store hj hen (ident_growTo _ _) ?_
      ⟨(fsKind_congr (ident_growTo _ _ n)).trans h.storable.kind,fun _ => ?_,fun hk' => ?_,
        fun hs => ?_⟩ ?_ rfl rfl
    · simp only [growTo,System.setInode,storeBytes,update_self,h.size]
      omega
    · rw [fileId_congr (ident_growTo _ _)]
      simp only [growTo,System.setInode,update_self]
      refine ⟨hdata,?_,hroom,fun i hi hlt => ?_⟩
      · change max (s.inodes n).size _≤(s.inodes n).capacity
        rw [h.size]
        omega
      change max (s.inodes n).size _≤ _ at hi
      rw [h.size] at hi
      change (update s.backing (s.fileId n) _) (s.fileId n) i=0
      rw [update_self]
      exact (Buf.copy_of_outside (by omega)).trans (hclear i (by omega) hlt)
    · simp only [growTo,System.setInode,storeBytes,update_self,hk] at hk'
      exact absurd hk' (by decide)
    · obtain ⟨hmeta,hok⟩ := h.storable.settled hs
      rw [h.size] at hmeta
      refine ⟨?_,hok⟩
      simp only [growTo,System.setInode,storeBytes,update_self,h.size,hmeta]
      omega
    · simp [growTo,System.setInode,storeBytes]
  · have hk4 : (s.inodes n).fsKind=.ext4 := by
      cases hkk : (s.inodes n).fsKind with
      | mem => exact absurd hkk hk
      | ext4 => rfl
    rw [wp_bind]
    refine wp_backingTransfer (fun _ => ?_) fun _ => h.ioCount _
    refine wp_require_bind (fun _ => ?_) fun _ => h.ioCount _
    rw [wp_modify_bind,wp_bind]
    refine wp_backingTransfer (fun _ => ?_) fun _ => ((h.ioCount (s.ioCount+1)).raise hk4).ioCount _
    rw [wp_modify_bind,wp_modify,hlen]
    exact h.store_ext4 hj hen hk4 hoff rfl rfl rfl rfl rfl

lemma storePage (hmax : pagecacheEntryMaxBytes s e≠0) :
    wp (pagecacheStorePage e.inode e.fileOff e.pa (pagecacheEntryMaxBytes s e))
      (fun _ s' => FileInv n r f s' ∧ Stored n (f.forget n e) e s') (FileInv n r f) s := by
  by_cases hen : e.inode=n
  · have hself := h.storePage_self hj hen hmax
    rwa [hen]
  · have hsame : s.inodeSame e.inode n=false := by
      rw [Bool.eq_false_iff]
      exact fun hs => hen (h.alone _ hs)
    exact wp_imp (h.storePage_other hsame _ _ _) fun _ s' h' => ⟨h',fun he => absurd he hen⟩

lemma stored_of_clean (hd : e.dirty=false) :
    Stored n f e s := by
  intro hen i hai
  refine h.below i fun j' e' hj' hen' hd' ho => ?_
  obtain rfl := h.unique j j' e e' hj hj' hen hen' (hai ▸ ho.symm)
  rw [hj] at hj'
  rw [Option.some.inj hj',hd'] at hd
  cases hd

end

lemma stored_of_maxBytes (hmax : pagecacheEntryMaxBytes s e=0) : Stored n (f.forget n e) e s := by
  refine stored_forget fun hen i hi hai => ?_
  have hmod := alignDown_add_mod i
  rw [h.maxBytes_le hen] at hmax
  simp only [pageSize] at *
  omega

/-- An entry is dropped; what its page had beyond the end is lost. -/
lemma clearEntry (hj : s.cache.entries j=some e) (hst : Stored n (f.forget n e) e s)
    (hdisk : SameDisk s s') (he : s'.cache.entries=s.cache.entries.clear j)
    (hmem : s'.phys.mem=s.phys.mem) : FileInv n r (f.forget n e) s' := by
  have hold {k : CacheIx} {d : PageCacheEntry} (hk : s'.cache.entries k=some d) :
      k≠j ∧ s.cache.entries k=some d := by
    rw [he] at hk
    exact Slots.clear_eq_some.1 hk
  have hsame {i : ℕ} (hi : ¬(e.inode=n ∧ alignDown i=e.fileOff)) : (f.forget n e).bytes i=f.bytes i :=
    if_neg fun hc => hi ⟨hc.1,hc.2.1⟩
  refine ⟨h.same hdisk,h.of_some fun hk => ⟨_,(hold hk).2,rfl,rfl,rfl⟩,fun k d hk hdn i hi => ?_,fun i hd => ?_⟩
  · rw [hmem,h.cached k d (hold hk).2 hdn i hi,hsame]
    rintro ⟨hen,hpage⟩
    rw [alignDown_add (h.aligned k d (hold hk).2 hdn) hi] at hpage
    exact (hold hk).1 (h.unique k j d e (hold hk).2 hj hdn hen hpage)
  · rw [hdisk.fileId,hdisk.backing]
    by_cases hpage : e.inode=n ∧ alignDown i=e.fileOff
    · exact hst hpage.1 i hpage.2
    · rw [hsame hpage]
      refine h.below i fun k d hk hdn hdd ho => ?_
      by_cases hkj : k=j
      · subst hkj
        rw [hj] at hk
        obtain rfl := Option.some.inj hk
        exact hpage ⟨hdn,ho.symm⟩
      · exact hd k d (by rw [he,Slots.clear_of_ne hkj,hk]) hdn hdd ho

lemma putEntry (hj : s.cache.entries j=some e) (e' : PageCacheEntry)
    (hi : e'.inode=e.inode) (ho : e'.fileOff=e.fileOff) (hp : e'.pa=e.pa)
    (hst : e'.dirty=false → Stored n f e s) (hdisk : SameDisk s s')
    (he : s'.cache.entries=s.cache.entries.put j e') (hmem : s'.phys.mem=s.phys.mem) :
    FileInv n r f s' := by
  have hold {k : CacheIx} {d : PageCacheEntry} (hk : s'.cache.entries k=some d) :
      ∃ d', s.cache.entries k=some d' ∧ d.inode=d'.inode ∧ d.fileOff=d'.fileOff ∧ d.pa=d'.pa := by
    rw [he] at hk
    rcases Slots.put_eq_some.1 hk with ⟨rfl,rfl⟩ | ⟨-,hk⟩
    · exact ⟨e,hj,hi,ho,hp⟩
    · exact ⟨d,hk,rfl,rfl,rfl⟩
  refine ⟨h.same hdisk,h.of_some hold,fun k d hk hdn => ?_,fun i hd => ?_⟩
  · obtain ⟨b,hb,h1,h2,h3⟩ := hold hk
    rw [hmem,h2,h3]
    exact h.cached k b hb (h1 ▸ hdn)
  · rw [hdisk.fileId,hdisk.backing]
    by_cases hpage : e.inode=n ∧ alignDown i=e.fileOff
    · by_cases hdirty : e'.dirty=true
      · refine absurd (hpage.2.trans ho.symm).symm (hd j e' ?_ (hi.trans hpage.1) hdirty)
        rw [he,Slots.put_self]
      · exact hst (by simpa using hdirty) hpage.1 i hpage.2
    · refine h.below i fun k d hk hdn hdd ho' => ?_
      by_cases hkj : k=j
      · subst hkj
        rw [hj] at hk
        obtain rfl := Option.some.inj hk
        exact hpage ⟨hdn,ho'.symm⟩
      · exact hd k d (by rw [he,Slots.put_of_ne hkj,hk]) hdn hdd ho'

lemma newEntry (hj : s.cache.entries j=none) (hfresh : ∀ k d, s.cache.entries k=some d → d.pa≠e.pa)
    (hpage : e.inode=n → e.fileOff%pageSize=0 ∧
      (∀ k d, s.cache.entries k=some d → d.inode=n → d.fileOff≠e.fileOff) ∧
      ∀ k, k<pageSize → s.phys.mem (e.pa+k)=f.bytes (e.fileOff+k))
    (hdisk : SameDisk s s') (he : s'.cache.entries=s.cache.entries.put j e)
    (hmem : s'.phys.mem=s.phys.mem) : FileInv n r f s' := by
  have hnew {k : CacheIx} {d : PageCacheEntry} (hk : s'.cache.entries k=some d) :
      k=j ∧ e=d ∨ k≠j ∧ s.cache.entries k=some d := by
    rw [he] at hk
    exact Slots.put_eq_some.1 hk
  refine ⟨h.same hdisk,⟨fun k d hk hdn => ?_,fun k k' d d' hk hk' hdn hdn' hoo => ?_,
    fun k k' d d' hk hk' hdn hpp => ?_⟩,fun k d hk hdn => ?_,fun i hd => ?_⟩
  · rcases hnew hk with ⟨-,rfl⟩ | ⟨-,hk⟩
    · exact (hpage hdn).1
    · exact h.aligned k d hk hdn
  · rcases hnew hk with ⟨rfl,rfl⟩ | ⟨hkj,hk⟩ <;> rcases hnew hk' with ⟨rfl,rfl⟩ | ⟨hkj',hk'⟩
    · rfl
    · exact absurd hoo.symm ((hpage hdn).2.1 k' d' hk' hdn')
    · exact absurd hoo ((hpage hdn').2.1 k d hk hdn)
    · exact h.unique k k' d d' hk hk' hdn hdn' hoo
  · rcases hnew hk with ⟨rfl,rfl⟩ | ⟨hkj,hk⟩ <;> rcases hnew hk' with ⟨rfl,rfl⟩ | ⟨hkj',hk'⟩
    · rfl
    · exact absurd hpp.symm (hfresh k' d' hk')
    · exact absurd hpp (hfresh k d hk)
    · exact h.apart k k' d d' hk hk' hdn hpp
  · rw [hmem]
    rcases hnew hk with ⟨-,rfl⟩ | ⟨-,hk⟩
    · exact (hpage hdn).2.2
    · exact h.cached k d hk hdn
  · rw [hdisk.fileId,hdisk.backing]
    refine h.below i fun k d hk hdn hdd ho' => ?_
    have hkj : k≠j := by
      rintro rfl
      rw [hj] at hk
      exact absurd hk (by simp)
    exact hd k d (by rw [he,Slots.put_of_ne hkj,hk]) hdn hdd ho'

end FileInv

lemma memView_entry_own {v : MemView} {j : CacheIx} {c : PageCacheEntry}
    (hj : v.entries j=some c) : v.own (.cache j)=some c.pa := by simp [MemView.own,hj]

lemma memInv_ok : MemInv fun held v => v.Ok held where
  ok h := h.cacheOk
  perm h hp := h.perm hp
  handed h hp := h.handed hp
  free h := h.free
  refCached h hp := by
    obtain ⟨j,c,hj,rfl⟩ := hp
    exact h.ref (h.refs_own (memView_entry_own hj))
  writeHeld h _ hw := h.congr_phys (hw.ok h.phys) hw.refs
  writeCached h _ hw := h.congr_phys (hw.ok h.phys) hw.refs
  setEntry h hj hpa := by
    refine ⟨h.phys,?_⟩
    rw [MemView.own_put,hpa,update_eq_self_iff.2 (memView_entry_own hj).symm]
    exact h.counted
  takeEntry h _ hj := by
    refine ⟨h.phys,?_⟩
    rw [MemView.own_put]
    exact h.counted.take (by simp [MemView.own,hj])
  dropEntry h hj := by
    refine ⟨h.phys,?_⟩
    rw [MemView.own_clear]
    exact h.counted.drop (memView_entry_own hj)
  protect := preserves_writeprotect (fun s t va e hs => by
    refine ⟨?_,hs.2⟩
    rw [memView_setMm]
    refine ⟨hs.1.phys,?_⟩
    rw [← memView_mm,MemView.own_setPte]
    exact hs.1.counted) _ _

namespace Sees
variable {n m : ℕ} {r : Place} {f : Contents} {held : List ℕ} {s : System} {held' : List ℕ} {ph : Phys}

section
variable (h : Sees n r f held s)
include h

lemma entry_aligned {j : CacheIx} {e : PageCacheEntry}
    (hj : s.cache.entries j=some e) : e.pa%pageSize=0 :=
  h.ok.aligned (h.ok.refs_own (memView_entry_own hj))

lemma writePage {p : ℕ}
    (hok : (s.memView.setPhys ph).Ok held') (hout : s.phys.SameOutside ph p) (hp : p%pageSize=0)
    (hne : ∀ j e, s.cache.entries j=some e → e.inode=n → e.pa≠p) :
    Sees n r f held' (s.setPhys ph) :=
  ⟨hok,h.inv.congr (fun _ => rfl) rfl rfl rfl rfl fun _ _ hj hen =>
    hout.agree hp (h.entry_aligned hj) (hne _ _ hj hen)⟩

lemma setRefs (hok : (s.memView.setPhys ph).Ok held') (hmem : ph.mem=s.phys.mem) :
    Sees n r f held' (s.setPhys ph) :=
  ⟨hok,h.inv.congr (fun _ => rfl) rfl rfl rfl rfl fun _ _ _ _ _ _ _ => congrFun hmem _⟩

lemma touch (c : PageCache) (hc : c.entries=s.cache.entries) : Sees n r f held (s.setCache c) := by
  refine ⟨?_,h.inv.congr (fun _ => rfl) rfl rfl rfl hc fun _ _ _ _ _ _ _ => rfl⟩
  rw [memView_setCache,hc]
  exact h.ok

lemma wp_touchTick {Q : ℕ → System → Prop} {E : System → Prop}
    (hQ : ∀ tick s', Sees n r f held s' → s'.cache.entries=s.cache.entries → s'.phys=s.phys →
      s'.inodes=s.inodes → s'.backing=s.backing → Q tick s') : wp pagecacheTouchTick Q E s := by
  rw [pagecacheTouchTick,wp_modify_bind,wp_gets]
  exact hQ _ _ (h.touch _ rfl) rfl rfl rfl rfl

end

end Sees

/-- `g` is `f` without some bytes beyond the end of the file whose pages have left the cache. -/
structure Thinned (n : ℕ) (f g : Contents) (s : System) : Prop where
  size : g.size=f.size
  bytes : ∀ i, g.bytes i=f.bytes i ∨ f.size ≤ i ∧ g.bytes i=0 ∧ Uncached n (alignDown i) s

namespace Thinned
variable {n : ℕ} {f g g' : Contents} {s s' : System}

lemma refl (f : Contents) : Thinned n f f s := ⟨rfl,fun _ => .inl rfl⟩

lemma trans (h : Thinned n f g s) (h' : Thinned n g g' s')
    (hs : ∀ i, f.size ≤ i → g.bytes i=0 → f.bytes i≠0 → Uncached n (alignDown i) s →
      Uncached n (alignDown i) s') : Thinned n f g' s' := by
  refine ⟨h'.size.trans h.size,fun i => ?_⟩
  rcases h'.bytes i with heq | ⟨hi,hz,hu⟩
  · rw [heq]
    rcases h.bytes i with heq | ⟨hi,hz,hu⟩
    · exact .inl heq
    · by_cases hf : f.bytes i=0
      · exact .inl (hz.trans hf.symm)
      · exact .inr ⟨hi,hz,hs i hi hz hf hu⟩
  · exact .inr ⟨h.size ▸ hi,hz,hu⟩

/-- A file that has zeros beyond its end cannot lose anything. -/
lemma eq_ideal {f : IdealFile} (h : Thinned n f g s) : g=f := by
  refine Contents.ext h.size (funext fun i => ?_)
  rcases h.bytes i with heq | ⟨hi,hz,-⟩
  · exact heq
  · rw [hz,f.beyond i hi]

end Thinned

namespace FileInv
variable {n m : ℕ} {r : Place} {f : Contents} {s s' : System} {j : CacheIx} {e : PageCacheEntry}

lemma setCache (h : FileInv n r f s) (c : PageCache) (hc : c.entries=s.cache.entries) :
    FileInv n r f (s.setCache c) :=
  h.congr (fun _ => rfl) rfl rfl rfl hc fun _ _ _ _ _ _ _ => rfl

lemma notingStore (h : FileInv n r f s) (hj : s.cache.entries j=some e)
    (hmax : pagecacheEntryMaxBytes s e≠0) :
    wp (notingResult (pagecacheStorePage e.inode e.fileOff e.pa (pagecacheEntryMaxBytes s e)))
      (fun _ s' => FileInv n r f s' ∧ Stored n (f.forget n e) e s' ∧ s'.memView=s.memView)
      (fun s' => FileInv n r f s' ∧ s'.memView=s.memView) s := by
  rw [notingResult,wp_bind,wp_onFail]
  have hview := (storePage_view e.inode e.fileOff e.pa (pagecacheEntryMaxBytes s e)).wp (w := s)
  refine wp_mono (wp_and (h.storePage hj hmax) hview) (fun _ s1 h1 => ?_) fun s1 h1 => ?_
  · rw [wp_modify]
    refine ⟨h1.1.1.setCache _ (entries_noteResult _ _),h1.1.2,?_⟩
    rw [noteResult_view]
    exact h1.2
  · refine ⟨h1.1.setCache _ (entries_noteResult _ _),?_⟩
    rw [noteResult_view]
    exact h1.2

lemma slot (h : FileInv n r f s) : wp pagecacheSlot
    (fun _ s' => ∃ g, Thinned n f g s' ∧ FileInv n r g s' ∧
      ∀ k d, s'.cache.entries k=some d → s.cache.entries k=some d)
    (fun s' => FileInv n r f s' ∧ s'.cache.entries=s.cache.entries) s := by
  rw [pagecacheSlot,wp_gets_bind]
  cases hfree : Slots.free? s.cache.entries with
  | some i => exact ⟨f,.refl f,h,fun _ _ hk => hk⟩
  | none =>
    dsimp only
    rw [wp_gets_bind]
    split
    · exact ⟨h,rfl⟩
    · rename_i i e ho
      have hi : s.cache.entries i=some e := (oldestEntry_eq_some ho).1
      -- as far as the size goes, the victim is below before it is dropped
      have hdone (s1 : System) (h1 : FileInv n r f s1) (hst : Stored n (f.forget n e) e s1)
          (hv : s1.memView=s.memView) : wp (modifyPhys (pmmFreePage e.pa) >>= fun _ =>
          Prog.modify (fun s => s.setCache {s.cache with entries := s.cache.entries.clear i}) >>=
            fun _ => pure i) (fun _ s' => ∃ g, Thinned n f g s' ∧ FileInv n r g s' ∧
          ∀ k d, s'.cache.entries k=some d → s.cache.entries k=some d)
          (fun s' => FileInv n r f s' ∧ s'.cache.entries=s.cache.entries) s1 := by
        have hentries : s1.cache.entries=s.cache.entries := congrArg MemView.entries hv
        rw [modifyPhys,wp_modify_bind,wp_modify_bind,wp_pure]
        have hold {k : CacheIx} {d : PageCacheEntry}
            (hk : s1.cache.entries.clear i k=some d) : k≠i ∧ s.cache.entries k=some d :=
          hentries ▸ Slots.clear_eq_some.1 hk
        refine ⟨f.forget n e,⟨rfl,fun k => ?_⟩,
          h1.clearEntry (hentries ▸ hi) hst ⟨rfl,rfl,rfl⟩ rfl mem_pmmFreePage,fun k d hk => (hold hk).2⟩
        simp only [Contents.forget]
        split_ifs with hpage
        · refine .inr ⟨hpage.2.2,rfl,fun k' d hk hd hoff => ?_⟩
          exact (hold hk).1 (h.unique k' i d e (hold hk).2 hi hd hpage.1 (hoff.trans hpage.2.1))
        · exact .inl rfl
      rw [wp_bind]
      refine wp_when (fun hc => ?_) fun hc => hdone s h ?_ rfl
      · simp only [Bool.and_eq_true,decide_eq_true_eq] at hc
        exact wp_mono (h.notingStore hi hc.2) (fun _ s1 h1 => hdone s1 h1.1 h1.2.1 h1.2.2) fun _ h1 =>
          ⟨h1.1,congrArg MemView.entries h1.2⟩
      · cases hd : e.dirty with
        | false => exact stored_forget fun hen k hk hak => (if_pos hk).symm.trans (h.stored_of_clean hi hd hen k hak)
        | true =>
          refine h.stored_of_maxBytes ?_
          simpa [hd] using hc

end FileInv

/-- The state after the cache may have given up pages, with no new page in it. -/
def Shrunk (n : ℕ) (r : Place) (f : Contents) (held : List ℕ) (s s' : System) : Prop :=
  ∃ g, Thinned n f g s' ∧ Sees n r g held s' ∧
    ∀ k d, s'.cache.entries k=some d → s.cache.entries k=some d

section
variable {n : ℕ} {r : Place} {f : Contents} {held held' : List ℕ} {s s' : System} {ph : Phys}

lemma Sees.shrunk (h : Sees n r f held s) : Shrunk n r f held s s := ⟨f,.refl f,h,fun _ _ hk => hk⟩

lemma Shrunk.ideal {f : IdealFile} (h : Shrunk n r f held s s') : Sees n r f held s' := by
  obtain ⟨g,hg,h',-⟩ := h
  rwa [hg.eq_ideal] at h'

lemma Sees.slot (h : Sees n r f held s) : wp pagecacheSlot
      (fun i s' => Shrunk n r f held s s' ∧ s'.cache.entries i=none ∧ s'.phys.mem=s.phys.mem ∧
        ∀ q, ¬s.memView.cached q → s'.phys.pageRefs q=s.phys.pageRefs q)
      (Shrunk n r f held s) s := by
  refine wp_mono (wp_and (memInv_ok.slot h.ok) h.inv.slot) (fun _ _ h' => ?_) fun _ h' =>
    ⟨f,.refl f,⟨h'.1,h'.2.1⟩,fun _ _ hk => h'.2.2 ▸ hk⟩
  obtain ⟨⟨hok,hnone,hmem,hrefs⟩,g,hg,hinv,hsub⟩ := h'
  exact ⟨⟨g,hg,⟨hok,hinv⟩,hsub⟩,hnone,hmem,hrefs⟩

end

namespace Sees
variable {n m : ℕ} {r : Place} {f : Contents} {held : List ℕ} {s : System} {p : ℕ}
variable {ph : Phys} {k : ℕ} {j i : CacheIx} {e : PageCacheEntry}

lemma not_cached (h : Sees n r f (p::held) s) (hp : s.phys.pageRefs p=1) :
    ∀ j e, s.cache.entries j=some e → e.pa≠p := by
  rintro j e hj rfl
  exact h.ok.counted.not_owned hp (.cache j) (memView_entry_own hj)

lemma handed (h : Sees n r f held s) (hp : Handed s.phys ph p) :
    Sees n r f (p::held) (s.setPhys ph) ∧ (s.setPhys ph).phys.pageRefs p=1 := by
  refine ⟨h.writePage (h.ok.handed hp) hp.outside (pageIndexed_iff.1 hp.indexed).1 ?_,by simp [hp.refs]⟩
  rintro j e hj - rfl
  exact h.ok.refs_own (memView_entry_own hj) hp.fresh

lemma newPage (h : Sees n r f held s) : wp pagecacheNewPage
    (fun p s' => Shrunk n r f (p::held) s s' ∧ s'.phys.pageRefs p=1) (Shrunk n r f held s) s := by
  rw [pagecacheNewPage,wp_bind,wp_attempt]
  refine wp_mono (memInv_ok.alloc h.ok) ?_ ?_
  · rintro p s' ⟨ph,hp,rfl⟩
    exact ⟨⟨f,.refl f,(h.handed hp).1,fun _ _ hk => hk⟩,(h.handed hp).2⟩
  · rintro s' rfl
    rw [wp_gets_bind]
    refine wp_require_of h.shrunk fun _ => ?_
    rw [wp_bind]
    refine wp_imp h.slot fun i s1 hs1 => ?_
    obtain ⟨⟨g,hg,h1,hsub⟩,-⟩ := hs1
    refine wp_mono (memInv_ok.alloc h1.ok) ?_ ?_
    · rintro p s' ⟨ph,hp,rfl⟩
      exact ⟨⟨g,⟨hg.size,hg.bytes⟩,(h1.handed hp).1,hsub⟩,(h1.handed hp).2⟩
    · rintro s' rfl
      exact ⟨g,hg,h1,hsub⟩

lemma writeHeld (h : Sees n r f (p::held) s) (hp : s.phys.pageRefs p=1)
    (hw : s.phys.Writes ph p) : Sees n r f (p::held) (s.setPhys ph) :=
  h.writePage (h.ok.congr_phys (hw.ok h.ok.phys) hw.refs) hw.outside (h.ok.aligned h.ok.refs_ne)
    fun j e hj _ => h.not_cached hp j e hj

lemma backing_page (h : FileInv n r f s) {off : ℕ} (hoff : off%pageSize=0)
    (hno : Uncached n off s) (hk : k<pageSize) :
    (if k<backingLen (s.inodes n) off then s.backing (s.fileId n) (off+k) else 0)
      = f.bytes (off+k) := by
  have hclean : CleanAt n (alignDown (off+k)) s := by
    rw [alignDown_add hoff hk]
    exact hno.cleanAt
  have hbelow := h.below (off+k) hclean
  have hnd : ¬(s.inodes n).type=.dev := by rw [h.type]; decide
  rw [backingLen,if_neg hnd,← hbelow]
  cases hkind : (s.inodes n).fsKind with
  | mem =>
    simp only [if_true,h.size]
    exact if_congr (by omega) rfl rfl
  | ext4 =>
    obtain ⟨hmeta,hzero⟩ := h.storable.ext4 hkind
    rw [h.size] at hmeta
    simp only [reduceCtorEq,if_false]
    split_ifs with hlt hin
    · rfl
    · omega
    · exact (hzero _ (by omega)).symm
    · rfl

lemma loadPage (h : Sees n r f (p::held) s) (hp : s.phys.pageRefs p=1) (m off : ℕ) :
    wp (pagecacheLoadPage m off p)
      (fun _ s' => Sees n r f (p::held) s' ∧ s'.phys.pageRefs p=1 ∧ s'.cache=s.cache ∧
        off%pageSize=0 ∧ (m=n → Uncached n off s → ∀ k, k<pageSize → s'.phys.mem (p+k)=f.bytes (off+k)))
      (fun s' => Sees n r f (p::held) s' ∧ s'.cache=s.cache) s := by
  rw [pagecacheLoadPage,wp_gets_bind]
  refine wp_require_bind (fun hreq => ?_) fun _ => ⟨h,rfl⟩
  simp only [Bool.and_eq_true,decide_eq_true_eq] at hreq
  rw [modifyPhys,wp_modify_bind]
  have hzero := h.writeHeld hp (Phys.Writes.zeroPage (m := s.phys) (p := p))
  refine wp_require_bind (fun _ => ?_) fun _ => ⟨hzero,rfl⟩
  refine wp_require_bind (fun _ => ?_) fun _ => ⟨hzero,rfl⟩
  -- the transfer changes nothing but the number of transfers
  have hdone (s2 : System) (h2 : Sees n r f (p::held) s2) (hph : s2.phys=s.phys.zeroPage p)
      (hc : s2.cache=s.cache) (hin : s2.inodes=s.inodes) (hb : s2.backing=s.backing) :
      wp ((Prog.gets fun s => s.backing (s.fileId m)) >>= fun src => Prog.modify fun s' =>
          s'.setPhys (s'.phys.copyIn p src (backingOff (s.inodes m) off) (backingLen (s.inodes m) off)))
        (fun _ s' => Sees n r f (p::held) s' ∧ s'.phys.pageRefs p=1 ∧ s'.cache=s.cache ∧
          off%pageSize=0 ∧ (m=n → Uncached n off s → ∀ k, k<pageSize → s'.phys.mem (p+k)=f.bytes (off+k)))
        (fun s' => Sees n r f (p::held) s' ∧ s'.cache=s.cache) s2 := by
    have hlen := backingLen_le (s.inodes m) off
    have hp2 : s2.phys.pageRefs p=1 := by
      rw [hph]
      exact hp
    rw [wp_gets_bind,wp_modify]
    refine ⟨h2.writeHeld hp2 (.copyIn hlen),hp2,hc,hreq.2,?_⟩
    rintro rfl hno k hk
    have hpage := backing_page h.inv hreq.2 hno hk
    have hfile : s2.fileId m=s.fileId m := fileId_congr (fun k => by rw [hin]) m
    simp only [Phys.copyIn,System.phys_setPhys,Buf.copy]
    have hoff : backingOff (s.inodes m) off=off := if_neg (by rw [h.inv.type]; decide)
    rw [← hpage,hb,hfile,hph,hoff]
    by_cases hlt : k<backingLen (s.inodes m) off
    · rw [if_pos (by omega),if_pos hlt]
      congr 1
      omega
    · rw [if_neg (by omega),if_neg hlt]
      simp only [Phys.zeroPage,Buf.fill]
      rw [if_pos (by omega)]
  rw [wp_bind]
  refine wp_when (fun _ => ?_) fun _ => hdone _ hzero rfl rfl rfl rfl
  refine wp_backingTransfer (fun _ => ?_) fun _ => ?_
  · exact hdone _ ⟨hzero.ok,hzero.inv.ioCount _⟩ rfl rfl rfl rfl
  · exact ⟨⟨hzero.ok,hzero.inv.ioCount _⟩,rfl⟩

lemma setEntry_ok (h : Sees n r f held s)
    (hj : s.cache.entries j=some e) (d : PageCacheEntry) (hd : d.pa=e.pa) :
    (s.setEntry j d).memView.Ok held := memInv_ok.setEntry h.ok hj hd

lemma refEntry (h : Sees n r f held s)
    (hj : s.cache.entries j=some e) : Sees n r f (e.pa::held) (s.setPhys (pmmRefPage e.pa s.phys)) :=
  h.setRefs (h.ok.ref (h.ok.refs_own (memView_entry_own hj))) mem_pmmRefPage

lemma freePage (h : Sees n r f (p::held) s) : Sees n r f held (s.setPhys (pmmFreePage p s.phys)) :=
  h.setRefs h.ok.free mem_pmmFreePage

/-- The state after a page was made for inode `m` at `off`, which the caller refers to. -/
def Fetched (n : ℕ) (r : Place) (f : Contents) (held : List ℕ) (m off : ℕ) (s : System) (p : ℕ)
    (s' : System) : Prop :=
  ∃ g, Thinned n f g s' ∧ Sees n r g (p::held) s' ∧
    (∃ j c, s'.cache.entries j=some c ∧ (c.inode=n ↔ m=n) ∧ c.fileOff=off ∧ c.pa=p) ∧
    ∀ k d, s'.cache.entries k=some d → d.inode=n → d.fileOff≠off → s.cache.entries k=some d

lemma Shrunk.freePage {s' : System} (h : Shrunk n r f (p::held) s s') :
    Shrunk n r f held s (s'.setPhys (pmmFreePage p s'.phys)) := by
  obtain ⟨g,hg,h',hsub⟩ := h
  exact ⟨g,⟨hg.size,hg.bytes⟩,h'.freePage,hsub⟩

lemma create (h : Sees n r f held s) (m off : ℕ) (hno : m=n → Uncached n off s) :
    wp (pagecacheCreate m off) (Fetched n r f held m off s) (Shrunk n r f held s) s := by
  rw [pagecacheCreate,wp_bind]
  refine wp_imp h.newPage fun p s1 hs1 => ?_
  obtain ⟨⟨g1,hg1,h1,hsub1⟩,hp1⟩ := hs1
  rw [wp_bind,wp_onFail,wp_bind]
  refine wp_mono (h1.loadPage hp1 m off) (fun _ s2 hs2 => ?_) fun s2 hs2 => ?_
  · obtain ⟨h2,hp2,hc2,hoff,hbytes⟩ := hs2
    have hold {g2 : Contents} {s3 : System} (hg2 : Thinned n g1 g2 s3)
        (hsub3 : ∀ k d, s3.cache.entries k=some d → s2.cache.entries k=some d) :
        Thinned n f g2 s3 ∧ ∀ k d, s3.cache.entries k=some d → s1.cache.entries k=some d :=
      have hsub (k d) (hk : s3.cache.entries k=some d) : s1.cache.entries k=some d :=
        hc2 ▸ hsub3 k d hk
      ⟨hg1.trans hg2 fun i _ _ _ hu k d hk => hu k d (hsub k d hk),hsub⟩
    refine wp_mono h2.slot (fun j s3 hs3 => ?_) fun s3 hs3 => ?_
    rotate_left
    · obtain ⟨g2,hg2,h3,hsub3⟩ := hs3
      obtain ⟨hthin,hsub⟩ := hold hg2 hsub3
      exact Shrunk.freePage ⟨g2,hthin,h3,fun k d hk => hsub1 k d (hsub k d hk)⟩
    obtain ⟨⟨g2,hg2,h3,hsub3⟩,hj,hmem3,hrefs⟩ := hs3
    obtain ⟨hthin,hsub⟩ := hold hg2 hsub3
    have hp3 : s3.phys.pageRefs p=1 := (hrefs p fun hc => by
      obtain ⟨k,c,hk,hcp⟩ := hc
      exact h2.not_cached hp2 k c hk hcp).trans hp2
    have hno1 (hmn : m=n) : Uncached n off s1 := fun k d hk => hno hmn k d (hsub1 k d hk)
    -- the new page was empty beyond the end before, so that nothing of it has been lost
    have hpage (hmn : m=n) (k : ℕ) (hk : k<pageSize) : g1.bytes (off+k)=g2.bytes (off+k) := by
      rcases hg2.bytes (off+k) with heq | ⟨hi,hz,-⟩
      · exact heq.symm
      · rw [hz]
        refine h1.inv.zero hi ?_
        rw [alignDown_add hoff hk]
        exact (hno1 hmn).cleanAt
    rw [wp_bind]
    refine h3.wp_touchTick fun tick s4 h4 he4 hph4 hin4 hb4 => ?_
    rw [wp_modify_bind,modifyPhys,wp_modify_bind,wp_pure]
    have hentry : (s4.setEntry j ⟨m,off,p,tick,false⟩).cache.entries j=some ⟨m,off,p,tick,false⟩ :=
      Slots.put_self
    have hp4 : s4.phys.pageRefs p=1 := hph4 ▸ hp3
    have hj4 : s4.cache.entries j=none := he4 ▸ hj
    have hnew : Sees n r g2 held (s4.setEntry j ⟨m,off,p,tick,false⟩) := by
      refine ⟨?_,h4.inv.newEntry hj4 (h4.not_cached hp4) ?_ ⟨rfl,rfl,rfl⟩ rfl rfl⟩
      · exact memInv_ok.takeEntry (c := ⟨m,off,p,tick,false⟩) h4.ok hp4 hj4
      · intro hmn
        refine ⟨hoff,fun k d hk hdn => hno1 hmn k d (hsub k d (he4 ▸ hk)) hdn,fun k hk => ?_⟩
        rw [hph4,hmem3,← hpage hmn k hk]
        exact hbytes hmn (hno1 hmn) k hk
    have hgone {k : CacheIx} {d : PageCacheEntry}
        (hk : (s4.setEntry j ⟨m,off,p,tick,false⟩).cache.entries k=some d) :
        ⟨m,off,p,tick,false⟩=d ∨ s3.cache.entries k=some d := by
      rcases Slots.put_eq_some.1 hk with ⟨-,hd⟩ | ⟨-,hk⟩
      · exact .inl hd
      · exact .inr (he4 ▸ hk)
    refine ⟨g2,hthin.trans (.refl g2) fun i hi _ hf hu k d hk hdn hoff => ?_,hnew.refEntry hentry,
      ⟨j,_,hentry,.rfl,rfl,rfl⟩,fun k d hk hdn hd => ?_⟩
    · rcases hgone hk with rfl | hk
      · refine hf (h.inv.zero hi ?_)
        rw [← hoff]
        exact (hno hdn).cleanAt
      · exact hu k d hk hdn hoff
    · rcases hgone hk with rfl | hk
      · exact absurd rfl hd
      · exact hsub1 k d (hsub k d hk)
  · refine Shrunk.freePage ⟨g1,hg1.trans (.refl g1) fun i _ _ _ hu k d hk => ?_,hs2.1,fun k d hk => ?_⟩
    · exact hu k d (hs2.2 ▸ hk)
    · exact hsub1 k d (hs2.2 ▸ hk)

lemma fetch (h : Sees n r f held s) (m off : ℕ) : wp (pagecacheGetOrCreate m off)
      (fun p s' => Fetched n r f held m off s p s' ∧ off%pageSize=0) (Shrunk n r f held s) s := by
  rw [pagecacheGetOrCreate,wp_gets_bind]
  refine wp_require_of h.shrunk fun hreq => ?_
  simp only [Bool.and_eq_true,decide_eq_true_eq] at hreq
  split
  · rename_i i hit hfind
    obtain ⟨hi,hsel⟩ := Slots.find?_eq_some hfind
    simp only [Bool.and_eq_true,decide_eq_true_eq] at hsel
    rw [wp_bind]
    refine h.wp_touchTick fun tick s1 h1 he1 hph1 hin1 hb1 => ?_
    rw [wp_modify_bind,modifyPhys,wp_modify_bind,wp_pure]
    have hi1 : s1.cache.entries i=some hit := he1 ▸ hi
    have hentry : (s1.setEntry i {hit with lastTouch := tick}).cache.entries i
        = some {hit with lastTouch := tick} := Slots.put_self
    have htouch : Sees n r f held (s1.setEntry i {hit with lastTouch := tick}) :=
      ⟨h1.setEntry_ok hi1 {hit with lastTouch := tick} rfl,
        h1.inv.putEntry hi1 {hit with lastTouch := tick} rfl rfl rfl
          (fun hd => h1.inv.stored_of_clean hi1 hd) ⟨rfl,rfl,rfl⟩ rfl rfl⟩
    have href := htouch.refEntry hentry
    refine ⟨⟨f,.refl f,href,⟨i,_,hentry,⟨fun hn => ?_,fun hmn => ?_⟩,hsel.2,rfl⟩,fun k d hk _ hd => ?_⟩,hreq.2⟩
    · refine h.inv.alone _ ?_
      rw [inodeSame_comm]
      exact hn ▸ hsel.1
    · subst hmn
      exact h.inv.alone _ hsel.1
    · rcases Slots.put_eq_some.1 hk with ⟨-,rfl⟩ | ⟨-,hk⟩
      · exact absurd hsel.2 hd
      · exact he1 ▸ hk
  · rename_i hfind
    refine wp_imp (h.create m off fun hmn j e hj hen ho => ?_) fun p s' h' => ⟨h',hreq.2⟩
    have := Slots.find?_eq_none.1 hfind j e hj
    subst hmn
    rw [hen,ho] at this
    simp [pagecacheInodeSame,inodeSame_self] at this

lemma getOrCreate {f : IdealFile} (h : Sees n r f held s) (m off : ℕ) :
    wp (pagecacheGetOrCreate m off) (fun p s' => Sees n r f (p::held) s' ∧ off%pageSize=0 ∧
        ∃ j c, s'.cache.entries j=some c ∧ (c.inode=n ↔ m=n) ∧ c.fileOff=off ∧ c.pa=p)
      (Sees n r f held) s := by
  refine wp_mono (h.fetch m off) (fun p s' h' => ?_) fun _ h' => h'.ideal
  obtain ⟨⟨g,hg,h',hc,-⟩,hoff⟩ := h'
  rw [hg.eq_ideal] at h'
  exact ⟨h',hoff,hc⟩

end Sees

namespace Sees
variable {n m : ℕ} {r : Place} {f : IdealFile} {held : List ℕ} {s : System} {p : ℕ}
variable {ph : Phys} {k : ℕ} {j i : CacheIx} {e : PageCacheEntry}

lemma page_bytes (h : Sees n r f held s) {c : PageCacheEntry}
    (hj : s.cache.entries j=some c) (hc : c.inode=n) (hk : k<pageSize) :
    s.phys.mem (c.pa+k)=f.bytes (c.fileOff+k) := h.inv.cached j c hj hc k hk

lemma zeroTail (h : Sees n r f held s) (hj : s.cache.entries j=some e) {len : ℕ}
    (hlen : e.inode=n → len<pageSize → f.size≤e.fileOff+len) :
    Sees n r f held (s.setPhys (s.phys.zeroTail e.pa len)) := by
  have hw : s.phys.Writes (s.phys.zeroTail e.pa len) e.pa := .zeroTail
  refine ⟨h.ok.congr_phys (hw.ok h.ok.phys) hw.refs,?_⟩
  by_cases hen : e.inode=n
  · have hagree : (s.phys.zeroTail e.pa len).mem.Agree s.phys.mem e.pa pageSize := by
      intro a ha hlt
      simp only [Phys.zeroTail,Buf.fill]
      split_ifs with hin
      · obtain ⟨k,rfl⟩ := Nat.exists_eq_add_of_le ha
        rw [h.page_bytes hj hen (by omega)]
        exact (f.beyond _ (by have := hlen hen (by omega); omega)).symm
      · rfl
    refine h.inv.congr (fun _ => rfl) rfl rfl rfl rfl fun k d hk hdn => ?_
    by_cases hkj : d.pa=e.pa
    · rw [hkj]
      exact hagree
    · exact hw.outside.agree (h.entry_aligned hj) (h.entry_aligned hk) hkj
  · refine h.inv.congr (fun _ => rfl) rfl rfl rfl rfl fun k d hk hdn => ?_
    refine hw.outside.agree (h.entry_aligned hj) (h.entry_aligned hk) fun hpa => ?_
    have hkj := h.inv.apart k j d e hk hj hdn hpa
    subst hkj
    rw [hj] at hk
    exact hen (Option.some.inj hk ▸ hdn)

lemma zeroPage_eq (ph : Phys) (q : ℕ) : ph.zeroPage q=ph.zeroTail q 0 := by
  simp [Phys.zeroPage,Phys.zeroTail]

/-- The file, an entry whose page is below, and the entry itself. -/
def Cleanable (n : ℕ) (r : Place) (f : IdealFile) (held : List ℕ) (i : CacheIx) (e : PageCacheEntry)
    (s : System) : Prop :=
  Sees n r f held s ∧ FileInv.Stored n f e s ∧ s.cache.entries i=some e

lemma protect (i : CacheIx) (e : PageCacheEntry) (m off : ℕ) :
    Preserves (Cleanable n r f held i e) (taskPagecacheWriteprotectShared m off) := by
  refine preserves_writeprotect (fun s t va d hs => ⟨⟨?_,?_⟩,hs.2.1,hs.2.2⟩) m off
  · rw [memView_setMm]
    refine ⟨hs.1.ok.phys,?_⟩
    rw [← memView_mm,MemView.own_setPte]
    exact hs.1.ok.counted
  · exact hs.1.inv.congr (fun _ => rfl) rfl rfl rfl rfl fun _ _ _ _ _ _ _ => rfl

lemma entryClean (h : Cleanable n r f held i e s) :
    wp (entryClean i e) (fun _ => Sees n r f held) (Sees n r f held) s := by
  obtain ⟨hs,hst,hi⟩ := h
  rw [FuriOS.entryClean,wp_bind]
  refine hs.wp_touchTick fun tick s1 h1 he1 hph1 hin1 hb1 => ?_
  rw [wp_modify]
  have hi1 : s1.cache.entries i=some e := he1 ▸ hi
  refine ⟨h1.setEntry_ok hi1 {e with dirty := false, lastTouch := tick} rfl,
    h1.inv.putEntry hi1 {e with dirty := false, lastTouch := tick} rfl rfl rfl (fun _ => ?_)
      ⟨rfl,rfl,rfl⟩ rfl rfl⟩
  intro hen k hak
  have hfile : s1.fileId n=s.fileId n := fileId_congr (fun m => by rw [hin1]) n
  rw [hb1,hfile]
  exact hst hen k hak

lemma entryWriteback (h : Sees n r f held s) (hi : s.cache.entries i=some e) :
    wp (pagecacheEntryWriteback i e) (fun _ => Sees n r f held) (Sees n r f held) s := by
  rw [pagecacheEntryWriteback,wp_gets_bind,wp_gets_bind]
  split_ifs with hmax
  · rw [wp_bind]
    have hclean : Cleanable n r f held i e s := ⟨h,f.forget n e ▸ h.inv.stored_of_maxBytes hmax,hi⟩
    refine wp_when (fun _ => ?_) fun _ => entryClean hclean
    rw [modifyPhys,wp_modify_bind]
    have hzero : Cleanable n r f held i e (s.setPhys (s.phys.zeroPage e.pa)) := by
      refine ⟨?_,hclean.2.1,hi⟩
      rw [zeroPage_eq]
      refine h.zeroTail hi fun hen _ => ?_
      rw [h.inv.maxBytes_le hen] at hmax
      simp only [pageSize] at *
      omega
    exact wp_mono ((protect i e _ _).wp hzero) (fun _ _ h' => entryClean h') fun _ h' => h'.1
  · rw [wp_bind]
    have hview := (storePage_view e.inode e.fileOff e.pa (pagecacheEntryMaxBytes s e)).wp (w := s)
    refine wp_mono (wp_and (h.inv.storePage hi hmax) hview) (fun _ s1 h1 => ?_) fun s1 h1 => ?_
    · obtain ⟨⟨hinv,hst⟩,hv⟩ := h1
      rw [IdealFile.forget] at hst
      have hi1 : s1.cache.entries i=some e := (congrFun (congrArg MemView.entries hv) i).trans hi
      have hclean : Cleanable n r f held i e s1 := ⟨⟨hv ▸ h.ok,hinv⟩,hst,hi1⟩
      have hafter (s2 : System) (h2 : Cleanable n r f held i e s2) :
          wp (taskPagecacheWriteprotectShared e.inode e.fileOff >>= fun _ => FuriOS.entryClean i e)
            (fun _ => Sees n r f held) (Sees n r f held) s2 := by
        rw [wp_bind]
        exact wp_mono ((protect i e _ _).wp h2) (fun _ _ h' => entryClean h') fun _ h' => h'.1
      rw [wp_bind]
      refine wp_when (fun _ => ?_) fun _ => hafter s1 hclean
      rw [modifyPhys,wp_modify]
      refine hafter _ ⟨hclean.1.zeroTail hi1 fun hen hlt => ?_,hst,hi1⟩
      rw [h.inv.maxBytes_le hen] at hlt ⊢
      simp only [pageSize] at *
      omega
    · exact ⟨h1.2 ▸ h.ok,h1.1⟩

lemma noting {q : TaskM Unit} (hq : wp q (fun _ => Sees n r f held) (Sees n r f held) s) :
    wp (notingResult q) (fun _ => Sees n r f held) (Sees n r f held) s := by
  rw [notingResult,wp_bind,wp_onFail]
  refine wp_mono hq (fun _ s1 h1 => ?_) fun s1 h1 => ?_
  · rw [wp_modify]
    exact h1.touch _ (entries_noteResult _ _)
  · exact h1.touch _ (entries_noteResult _ _)

lemma flushMatch (sel : System → PageCacheEntry → Bool) (budget : ℕ) :
    Preserves (Sees n r f held) (pagecacheFlushMatch sel budget) := by
  refine .of_wp ?_
  induction budget with
  | zero => exact fun s hs => hs
  | succ budget ih =>
    intro s hs
    rw [pagecacheFlushMatch,wp_gets_bind]
    split
    · exact hs
    · rename_i i e ho
      have hi : s.cache.entries i=some e := (oldestEntry_eq_some ho).1
      rw [wp_bind]
      exact wp_imp (noting (hs.entryWriteback hi)) fun _ s1 h1 => ih s1 h1

lemma pressure : Preserves (Sees n r f held) pagecacheMaybeWritebackPressure :=
  .gets fun _ => .when fun _ => .bind (flushMatch _ _).attempt fun _ => .of_pure _

lemma tick (lastWriteback now : ℕ) : Preserves (Sees n r f held) (pagecacheTick lastWriteback now) :=
  .bind (.of_modify fun _ h => h.touch _ rfl) fun _ => .gets fun _ =>
    .when fun _ => .bind (flushMatch _ _).attempt fun _ => .of_pure _

end Sees

end FuriOS
