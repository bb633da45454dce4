import FuriOS.FileRun

/-! Other views of a file: the size that `fs_stat` reports and the image that `load_exec_image`
hands to `exec`. -/
namespace FuriOS
open Prog

variable {n : ℕ} {r : Place} {f : IdealFile} {held : List ℕ} {s s' : System}

/-! The sizes of an ext4 file. -/

/-- The system after calls on the ext4 file of inode `n` whose writes end within the file. -/
inductive Ext4Run (n : ℕ) (s0 : System) : System → Prop
  | start : Ext4Run n s0 s0
  | write {s : System} (h : Ext4Run n s0 s) {offset len : ℕ} (src : Buf) (hlen : offset+len<2^64)
      (hin : len≠0 → offset+len≤(s.inodes n).size) : Ext4Run n s0 ((fsWrite n offset src len).run s).2
  | truncate {s : System} (h : Ext4Run n s0 s) (size : ℕ) : Ext4Run n s0 ((fsTruncate n size).run s).2
  | quiet {s s' : System} (h : Ext4Run n s0 s) (hq : Quiet n s s') : Ext4Run n s0 s'

lemma Sees.ext4Write (h : Sees n (.ext4 true) f [] s) {offset len : ℕ} (src : Buf)
    (hlen : offset+len<2^64) (hin : len≠0 → offset+len≤(s.inodes n).size) :
    ∃ g : IdealFile, Sees n (.ext4 true) g [] ((FuriOS.fsWrite n offset src len).run s).2 := by
  rw [h.inv.size] at hin
  have hwp := Sees.fsWrite h offset src len (fun _ => hlen) fun _ => hin
  cases hrun : (FuriOS.fsWrite n offset src len).run s with
  | mk res s' =>
    cases res with
    | none => exact ⟨f,wp_none hwp hrun⟩
    | some k =>
      obtain ⟨-,g,-,hg⟩ := wp_some hwp hrun
      exact ⟨g,hg fun hm => by cases hm⟩

lemma Sees.ext4Run {s0 : System} {f0 : IdealFile} (h0 : Sees n (.ext4 true) f0 [] s0)
    (hrun : Ext4Run n s0 s) : ∃ f : IdealFile, Sees n (.ext4 true) f [] s := by
  induction hrun with
  | start => exact ⟨f0,h0⟩
  | write _ src hlen hin ih =>
    obtain ⟨f,h⟩ := ih
    exact h.ext4Write src hlen hin
  | @truncate s _ size ih =>
    obtain ⟨f,h⟩ := ih
    cases hrun : (fsTruncate n size).run s with
    | mk res s' =>
      cases res with
      | none => exact ⟨f,wp_none (h.truncateExt4 size) hrun⟩
      | some u =>
        have h' := wp_some (h.truncateExt4 size) hrun
        exact ⟨_,h'⟩
  | quiet _ hq ih =>
    obtain ⟨f,h⟩ := ih
    exact ⟨f,h.quiet hq⟩

/-- The sizes agree in every run whose writes end within the file. -/
theorem fsStat_ext4Run {s0 : System} {f0 : IdealFile} (h0 : Sees n (.ext4 true) f0 [] s0)
    (hrun : Ext4Run n s0 s) :
    fsStatSize s n=fsLstatSize s n ∧ fsStatSize s n=(s.inodes n).size := by
  obtain ⟨f,h⟩ := h0.ext4Run hrun
  refine ⟨rfl,?_⟩
  rw [fsStatSize,fsFillStatSize,if_pos h.inv.storable.kind]
  exact (h.inv.storable.settled rfl).1

/-- Three bytes that an ext4 file starts with. -/
def threeBytes : IdealFile where
  size := 3
  bytes := fun i => if i<3 then 9 else 0
  beyond i hi := if_neg (by omega)

theorem fsStat_ext4Run_cut : let s := ((fsTruncate 0 1).run ((fsWrite 0 1 (fun _ => 5) 2).run
      (System.withFile (ext4File 3) threeBytes.bytes)).2).2
    fsStatSize s 0=fsLstatSize s 0 ∧ fsStatSize s 0=(s.inodes 0).size :=
  fsStat_ext4Run (sees_ext4 (f := threeBytes) rfl fun _ => rfl)
    (.truncate (.write .start _ (by decide) fun _ => by decide) 1)

/-- A write beyond the end of an ext4 file raises the size of the inode only. -/
theorem fsStat_differs :
    let s := ((fsWrite 0 0 (fun _ => 5) 3).run (System.withFile (ext4File 0) Buf.zero)).2
    Sees 0 (.ext4 true) IdealFile.empty [] (System.withFile (ext4File 0) Buf.zero) ∧
      fsStatSize s 0=0 ∧ (s.inodes 0).size=3 ∧ ((fsRead 0 0 3).run s).1=some [5,5,5] :=
  ⟨sees_ext4 (f := .empty) rfl fun _ => rfl,by decide +kernel,by decide +kernel,by decide +kernel⟩

/-! The image of an executable. -/

section
variable (h : Sees n r f held s)
include h

lemma Sees.fsRead_eq (offset len : ℕ) :
    (fsRead n offset len).run s=(pagecacheRead n offset len).run s := by
  simp [fsRead,h.inv.type]

lemma Sees.wp_fsRead (offset len : ℕ) (hlen : offset+len<2^64) : wp (fsRead n offset len)
      (fun bytes s' => Sees n r f held s' ∧ ∃ k, k ≤ min len (f.size-offset) ∧
        bytes=f.slice offset k ∧ (k=0 → min len (f.size-offset)=0))
      (Sees n r f held) s := by
  have hwp := h.read offset len hlen
  rw [wp] at hwp ⊢
  rwa [h.fsRead_eq]

lemma Sees.loadLoop (hsize : f.size<2^64) (fuel off : ℕ)
    (hfuel : f.size-off≤fuel) : wp (loadExecLoop n f.size fuel off)
      (fun bytes s' => Sees n r f held s' ∧ bytes=f.slice off (f.size-off)) (Sees n r f held) s := by
  induction fuel generalizing off s with
  | zero =>
    have hz : f.size-off=0 := by omega
    refine ⟨h,?_⟩
    rw [hz]
    rfl
  | succ fuel ih =>
    rw [loadExecLoop]
    split_ifs with hoff
    · refine ⟨h,?_⟩
      rw [Nat.sub_eq_zero_of_le hoff]
      rfl
    · rw [wp_bind]
      refine wp_imp (h.wp_fsRead off (f.size-off) (by omega)) fun bytes s1 hs1 => ?_
      obtain ⟨h1,k,hk,rfl,hpos⟩ := hs1
      refine wp_require_of h1 fun _ => ?_
      rw [wp_bind,IdealFile.length_slice]
      refine wp_imp (ih h1 (off+k) (by omega)) fun rest s2 hs2 => ?_
      obtain ⟨h2,rfl⟩ := hs2
      refine ⟨h2,?_⟩
      rw [← IdealFile.slice_add]
      congr 1
      omega

/-- An image is what the page cache shows when the file has no array of its own, and what its array
holds otherwise. -/
lemma Sees.loadExecImage (hsize : f.size<2^64) {img : ExecImage}
    (hload : (loadExecImage n).run s=(some img,s')) : img.size=f.size ∧
      ∀ i, i<f.size → img.image i =
        if (s.inodes n).hasData=true then s.backing (s.fileId n) i else f.bytes i := by
  have hwp : wp (FuriOS.loadExecImage n) (fun img _ => img.size=f.size ∧ ∀ i, i<f.size →
      img.image i=if (s.inodes n).hasData=true then s.backing (s.fileId n) i else f.bytes i)
      (fun _ => True) s := by
    rw [FuriOS.loadExecImage,wp_gets_bind]
    refine wp_require_of trivial fun _ => ?_
    split_ifs with hdata
    · rw [wp_gets_bind,wp_pure]
      exact ⟨h.inv.size,fun i _ => rfl⟩
    · refine wp_require_of trivial fun _ => ?_
      rw [wp_bind]
      refine wp_mono (h.alloc _ (by decide) le_rfl) (fun buf s1 hs1 => ?_) fun _ _ => trivial
      obtain ⟨ph,-,h1⟩ := hs1
      rw [wp_bind,wp_onFail,h.inv.size]
      refine wp_mono (h1.loadLoop hsize f.size 0 (by omega)) (fun bytes s2 hs2 => ?_) fun _ _ => trivial
      obtain ⟨-,rfl⟩ := hs2
      refine ⟨rfl,fun i hi => ?_⟩
      simp [IdealFile.slice,List.getD_eq_getElem?_getD,hi]
  have himg := wp_some hwp hload
  exact himg

end

end FuriOS
