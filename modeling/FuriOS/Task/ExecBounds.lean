import FuriOS.PmmSpec
import FuriOS.Task.ExecSpec

/-! What the checks of `task_validate_elf_loads` say about the segments as unbounded integers. The
upper bound is checked as `p_vaddr > USER_VA_LIMIT - p_memsz`, where the difference wraps around
for a size above the limit, and segments of size 0 are not checked at all. -/
namespace FuriOS

namespace Phdr

/-- The file part lies in the file and the segment in user space. -/
structure Bounded (ph : Phdr) (elfSize : ℕ) : Prop where
  filesz : ph.pFilesz≤ph.pMemsz
  file : ph.pOffset+ph.pFilesz≤elfSize
  base : userVaBase≤ph.pVaddr
  limit : ph.pVaddr+ph.pMemsz≤userVaLimit

/-- The loops over the pages and over the bytes of the segment keep to user pages. -/
structure InUserPages (ph : Phdr) : Prop where
  pages : ∀ va∈ph.pages, userVaBase≤va ∧ va+pageSize≤userVaLimit
  bytes : ∀ j, j<ph.pMemsz → alignDown ((ph.pVaddr+j)%2^64)∈ph.pages

variable {ph : Phdr} {elfSize : ℕ}

lemma valid_iff : ph.valid elfSize=true ↔ ph.pFilesz≤ph.pMemsz ∧ userVaBase≤ph.pVaddr ∧
    ph.pVaddr≤(userVaLimit+2^64-ph.pMemsz)%2^64 ∧ ph.pOffset≤elfSize ∧
    ph.pFilesz≤elfSize-ph.pOffset ∧ ph.endPage≤userVaLimit ∧ ph.firstPage≤ph.endPage := by
  simp [valid,and_assoc]

lemma bounded_of_valid (h : ph.valid elfSize=true) (hsize : ph.pMemsz≤userVaLimit) :
    ph.Bounded elfSize := by
  obtain ⟨hfile,hbase,hlimit,hoff,hend,-,-⟩ := valid_iff.1 h
  have hmod : (userVaLimit+2^64-ph.pMemsz)%2^64=userVaLimit-ph.pMemsz := by
    rw [show userVaLimit+2^64-ph.pMemsz=userVaLimit-ph.pMemsz+2^64 by omega,Nat.add_mod_right]
    exact Nat.mod_eq_of_lt (by simp only [userVaLimit]; omega)
  rw [hmod] at hlimit
  exact ⟨hfile,by omega,hbase,by omega⟩

lemma inUserPages_of_valid (h : ph.valid elfSize=true) (hsize : ph.pMemsz≤userVaLimit) :
    ph.InUserPages := by
  obtain ⟨-,hbase,-,-,-,hend,-⟩ := valid_iff.1 h
  have hlimit := (bounded_of_valid h hsize).limit
  have hmem (va : ℕ) : va∈ph.pages ↔ va%pageSize=0 ∧ ph.firstPage≤va ∧ va<ph.endPage :=
    mem_pageRange (Nat.mul_mod_left ..) (alignUp_mod _)
  refine ⟨fun va hva => ?_,fun j hj => ?_⟩
  · obtain ⟨hal,hlo,hhi⟩ := (hmem va).1 hva
    have hmod := alignUp_mod ((ph.pVaddr+ph.pMemsz)%2^64)
    change ph.endPage%pageSize=0 at hmod
    simp only [firstPage,alignDown,pageSize,userVaBase,userVaLimit] at *
    omega
  · rw [hmem]
    simp only [firstPage,endPage,alignDown,alignUp,pageSize,userVaLimit] at *
    omega

end Phdr

/-- `task_validate_elf_loads` accepts the program headers. -/
def elfLoadsAccepted (elf : Buf) (elfSize : ℕ) : Bool :=
  (taskValidateElfLoads (programHeaders elf (Ehdr.read elf)) elfSize).isSome

lemma valid_of_accepted {elf : Buf} {elfSize : ℕ} (h : elfLoadsAccepted elf elfSize=true)
    {ph : Phdr} (hph : ph∈programHeaders elf (Ehdr.read elf)) (hload : ph.loadable=true) :
    ph.valid elfSize=true := by
  rw [elfLoadsAccepted,taskValidateElfLoads,Option.isSome_iff_exists] at h
  obtain ⟨r,hr⟩ := h
  rw [Option.ite_none_right_eq_some,Bool.and_eq_true,List.all_eq_true] at hr
  exact hr.1.1 ph (List.mem_filter.2 ⟨hph,hload⟩)

/-- Every load segment of an accepted image lies in the file and in user space exactly if none is
larger than the user space and those without a size satisfy the bounds by themselves. -/
theorem elfLoads_bounded_iff {elf : Buf} {elfSize : ℕ} (h : elfLoadsAccepted elf elfSize=true) :
    (∀ ph∈programHeaders elf (Ehdr.read elf), ph.pType=ptLoad →
      ph.Bounded elfSize ∧ (ph.pMemsz≠0 → ph.InUserPages)) ↔
    ∀ ph∈programHeaders elf (Ehdr.read elf), ph.pType=ptLoad → ph.pMemsz≤userVaLimit ∧
      (ph.pMemsz=0 → ph.pFilesz=0 ∧ ph.pOffset≤elfSize ∧
        userVaBase≤ph.pVaddr ∧ ph.pVaddr≤userVaLimit) := by
  constructor
  · intro hall ph hph htype
    obtain ⟨⟨hfile,hoff,hbase,hlimit⟩,-⟩ := hall ph hph htype
    exact ⟨by omega,fun hzero => ⟨by omega,by omega,hbase,by omega⟩⟩
  · intro hall ph hph htype
    obtain ⟨hsize,hempty⟩ := hall ph hph htype
    by_cases hzero : ph.pMemsz=0
    · obtain ⟨hfile,hoff,hbase,hlimit⟩ := hempty hzero
      exact ⟨⟨by omega,by omega,hbase,by omega⟩,fun hne => absurd hzero hne⟩
    · have hvalid := valid_of_accepted h hph (by simp [Phdr.loadable,htype,hzero])
      exact ⟨Phdr.bounded_of_valid hvalid hsize,fun _ => Phdr.inUserPages_of_valid hvalid hsize⟩

theorem elfLoads_bounded_onePage : elfLoadsAccepted onePageElf 120=true ∧
    (Phdr.mk 1 7 0 0x600000 8 8).Bounded 120 ∧ (Phdr.mk 1 7 0 0x600000 8 8).InUserPages := by
  have haccepted : elfLoadsAccepted onePageElf 120=true := by decide +kernel
  have hphs : programHeaders onePageElf (Ehdr.read onePageElf)=[⟨1,7,0,0x600000,8,8⟩] := by rfl
  have hall := (elfLoads_bounded_iff haccepted).2 (by
    rw [hphs]
    intro ph hph _
    rw [List.mem_singleton] at hph
    subst hph
    decide)
  rw [hphs] at hall
  have hone := hall _ List.mem_cons_self rfl
  exact ⟨haccepted,hone.1,hone.2 (by decide)⟩

/-- An executable whose segment has the size 2^64-1. -/
def hugeSegmentElf : Buf := wordBytes [0x00010102464c457f,0,0x0000000100b70002,0x600000,64,0,
  0x0038004000000000,1,0x0000000700000001,0,0x600005,0,8,0xffffffffffffffff,0]

/-- The size wraps around and the image is accepted. -/
theorem elfLoads_hugeSegment : elfHeaderOk hugeSegmentElf 120 (Ehdr.read hugeSegmentElf)=true ∧
    elfLoadsAccepted hugeSegmentElf 120=true ∧
    ∃ ph∈programHeaders hugeSegmentElf (Ehdr.read hugeSegmentElf), ph.pType=ptLoad ∧
      ¬ph.Bounded 120 := by
  refine ⟨by decide +kernel,by decide +kernel,⟨1,7,0,0x600005,8,0xffffffffffffffff⟩,
    List.mem_singleton.2 rfl,rfl,fun hb => ?_⟩
  exact absurd hb.limit (by decide)

end FuriOS
