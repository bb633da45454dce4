import FuriOS.Lib.Slots

/-! The array of mapped areas of a task (`vm_area_t vmas[MAX_VMAS]` in `kernel/task.c`): the
scans over it, splitting an area and cutting a range out of it, and what these do to the map
from addresses to mapping attributes that the array stands for. -/
namespace FuriOS

abbrev pageSize : ℕ := 4096
abbrev maxVmas : ℕ := 64

instance neZero_maxVmas : NeZero maxVmas := ⟨by decide⟩

abbrev protRead : ℕ := 1
abbrev protWrite : ℕ := 2
abbrev protExec : ℕ := 4
abbrev mapShared : ℕ := 1
abbrev mapPrivate : ℕ := 2
abbrev mapFixed : ℕ := 16
abbrev mapAnonymous : ℕ := 32

/-- `x & mask` as a condition. -/
def hasBits (x mask : ℕ) : Bool := x &&& mask != 0

/-- `align_down(x, PAGE_SIZE)` -/
def alignDown (x : ℕ) : ℕ := x / pageSize * pageSize

/-- `align_up(x, PAGE_SIZE)` on 64-bit values -/
def alignUp (x : ℕ) : ℕ := (x+(pageSize-1))%2^64 / pageSize * pageSize

/-- A mapped area. The field `stop` is `end` of the source. `forWriting` is not in the source:
it records for a file mapping whether the descriptor given to `mmap` was open for writing, and
no function reads it. -/
structure VmArea where
  start : ℕ
  stop : ℕ
  fileOffset : ℕ
  inode : Option ℕ
  prot : ℕ
  flags : ℕ
  forWriting : Bool
  deriving DecidableEq

abbrev Vmas := Slots maxVmas VmArea

namespace VmArea

def shared (v : VmArea) : Bool := hasBits v.flags mapShared

/-- The area from `addr` on, with the file offset moved along (64-bit addition). -/
def dropTo (v : VmArea) (addr : ℕ) : VmArea :=
  {v with start := addr, fileOffset := (v.fileOffset+(addr-v.start))%2^64}

/-- The area up to `addr`. -/
def takeTo (v : VmArea) (addr : ℕ) : VmArea := {v with stop := addr}

def Contains (v : VmArea) (p : ℕ) : Prop := v.start≤p ∧ p<v.stop

instance (v : VmArea) (p : ℕ) : Decidable (v.Contains p) := inferInstanceAs (Decidable (_ ∧ _))

/-- The overlap test of the scans over a range. -/
def meets (v : VmArea) (start stop : ℕ) : Bool := !(stop≤v.start || v.stop ≤ start)

end VmArea

def taskVmaProtValid (prot : ℕ) : Bool := prot<8

def taskVmaFlagsValid (flags : ℕ) : Bool :=
  (flags &&& (mapPrivate ||| mapShared) == mapPrivate
    || flags &&& (mapPrivate ||| mapShared) == mapShared)
  && flags &&& (mapPrivate ||| mapShared ||| mapAnonymous ||| mapFixed) == flags

def taskVmaSlot (vs : Vmas) : Option (Fin maxVmas) := vs.free?

def taskVmaFind (vs : Vmas) (va : ℕ) : Option (Fin maxVmas × VmArea) :=
  vs.find? fun v => v.Contains va

def taskVmaOverlaps (vs : Vmas) (start stop : ℕ) : Bool :=
  if stop ≤ start then true else vs.any fun v => start<v.stop && v.start<stop

/-- The loop of `task_vma_range_mapped`; every round moves `cur` on, so the length of the range
is enough fuel. -/
def rangeMappedLoop (vs : Vmas) (stop : ℕ) : ℕ → ℕ → Bool
  | 0, cur => stop≤cur
  | fuel+1, cur =>
    if stop≤cur then true
    else match taskVmaFind vs cur with
      | none => false
      | some (_,v) => if v.stop≤cur then false else rangeMappedLoop vs stop fuel (min v.stop stop)

def taskVmaRangeMapped (vs : Vmas) (start stop : ℕ) : Bool :=
  if stop ≤ start then false else rangeMappedLoop vs stop (stop-start) start

def taskVmaFreeSlots (vs : Vmas) : ℕ := vs.count Option.isNone

/-- `task_vma_split_at`: on failure the array is as before. -/
def taskVmaSplitAt (vs : Vmas) (addr : ℕ) : Option Vmas :=
  if addr%pageSize≠0 then none
  else match vs.find? fun v => v.start<addr && addr<v.stop with
    | none => some vs
    | some (i,v) => match taskVmaSlot vs with
      | none => none
      | some k => some ((vs.put k (v.dropTo addr)).put i (v.takeTo addr))

def taskVmaSplitNeed (vs : Vmas) (start stop : ℕ) : ℕ :=
  vs.count fun o => o.any fun v =>
    v.meets start stop && (v.start < max start v.start && min stop v.stop<v.stop)

/-- The edit of slot `i` in the scan of `task_vma_unmap_range`, once the pages are gone. -/
def taskVmaCut (vs : Vmas) (i : Fin maxVmas) (v : VmArea) (start stop : ℕ) : Option Vmas :=
  if max start v.start≤v.start ∧ v.stop ≤ min stop v.stop then some (vs.clear i)
  else if max start v.start≤v.start then some (vs.put i (v.dropTo (min stop v.stop)))
  else if v.stop ≤ min stop v.stop then some (vs.put i (v.takeTo (max start v.start)))
  else match taskVmaSlot vs with
    | none => none
    | some k => some ((vs.put k (v.dropTo (min stop v.stop))).put i (v.takeTo (max start v.start)))

/-- The protection loop of `task_mprotect`. -/
def taskVmaSetProt (vs : Vmas) (start stop prot : ℕ) : Vmas := fun i =>
  (vs i).map fun v => if start≤v.start ∧ v.stop ≤ stop then {v with prot := prot} else v

/-- The slots `task_mprotect` asks for before it splits. -/
def mprotectNeed (vs : Vmas) (start stop : ℕ) : ℕ :=
  (vs.count fun o => o.any fun v => v.start<start && start<v.stop)
  + vs.count fun o => o.any fun v => v.start<stop && stop<v.stop

end FuriOS
