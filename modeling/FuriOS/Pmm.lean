import FuriOS.Lib.Prog
import FuriOS.Lib.Bytes
import FuriOS.Task.Vma

/-! The physical page allocator of `kernel/pmm.c`: a bump pointer, a stack of freed pages and a
reference count for every page of the RAM. The counts are indexed by page address. -/
namespace FuriOS

abbrev physRamBase : ℕ := 0x40000000
abbrev physRamSize : ℕ := 0x10000000

/-- Physical memory with the allocator's state; the top of the stack comes first. -/
structure Phys where
  mem : Buf
  cur : ℕ
  limit : ℕ
  freePages : List ℕ
  pageRefs : ℕ → ℕ
  ownedPages : ℕ

/-- The page addresses of a loop `for (va = start; va < stop; va += PAGE_SIZE)`. -/
def pageRange (start stop : ℕ) : List ℕ :=
  (List.range ((stop-start+(pageSize-1))/pageSize)).map fun k => start+k*pageSize

/-- `page_index` succeeds. -/
def pageIndexed (p : ℕ) : Bool :=
  p%pageSize=0 ∧ physRamBase≤p ∧ p<physRamBase+physRamSize

namespace Phys

def setRefs (m : Phys) (p n : ℕ) : Phys := {m with pageRefs := Function.update m.pageRefs p n}

def markPageOwned (m : Phys) (p : ℕ) : Phys :=
  if pageIndexed p && m.pageRefs p=0 then {m.setRefs p 1 with ownedPages := m.ownedPages+1} else m

def markRangeOwned (m : Phys) (base bytes : ℕ) : Phys :=
  (pageRange (alignUp base) (alignDown (base+bytes))).foldl markPageOwned m

/-- `memcpy` between two pages -/
def copyPage (m : Phys) (dst src : ℕ) : Phys := {m with mem := m.mem.copy dst m.mem src pageSize}

/-- `memcpy` of `n` bytes from a buffer or between two addresses -/
def copyIn (m : Phys) (dst : ℕ) (src : Buf) (from_ n : ℕ) : Phys :=
  {m with mem := m.mem.copy dst src from_ n}

/-- `memset` to zero of the bytes of a page from the `n`-th on -/
def zeroTail (m : Phys) (p n : ℕ) : Phys := {m with mem := m.mem.fill (p+n) 0 (pageSize-n)}

/-- `memset` of a page to zero -/
def zeroPage (m : Phys) (p : ℕ) : Phys := {m with mem := m.mem.fill p 0 pageSize}

end Phys

/-- `align_up` of the allocator for any alignment, on 64-bit values -/
def alignUpTo (x align : ℕ) : ℕ :=
  ((BitVec.ofNat 64 x+(BitVec.ofNat 64 align-1)) &&& ~~~(BitVec.ofNat 64 align-1)).toNat

def pmmAlloc (bytes align : ℕ) : Prog Phys ℕ := do
  let m ← .gets id
  let cur := alignUpTo m.cur align
  .require (cur+bytes ≤ m.limit && cur+bytes<2^64)
  .modify fun m => {(m.markRangeOwned cur bytes) with
    cur := cur+bytes, mem := m.mem.fill cur 0 bytes}
  -- the address 0 is the null pointer, by which callers know a failure
  .require (cur≠0)
  pure cur

def pmmAllocPage : Prog Phys ℕ := do
  match (← .gets Phys.freePages) with
  | p::rest =>
    .modify fun m => {m with freePages := rest}
    .modify fun m => if pageIndexed p then {m.setRefs p 1 with ownedPages := m.ownedPages+1} else m
    .modify fun m => m.zeroPage p
    pure p
  | [] => pmmAlloc 4096 4096

def pmmRefPage (p : ℕ) (m : Phys) : Phys :=
  if !pageIndexed p then m
  else if m.pageRefs p=0 then {m.setRefs p 1 with ownedPages := m.ownedPages+1}
  else m.setRefs p (m.pageRefs p+1)

def pmmPageRefcount (m : Phys) (p : ℕ) : ℕ := if pageIndexed p then m.pageRefs p else 0

def pmmFreePage (p : ℕ) (m : Phys) : Phys :=
  if !pageIndexed p || m.pageRefs p=0 then m
  else if m.pageRefs p-1≠0 then m.setRefs p (m.pageRefs p-1)
  else if m.freePages.length<physRamSize/pageSize then
    {m.setRefs p 0 with freePages := p::m.freePages, ownedPages := m.ownedPages-1}
  else {m.setRefs p 0 with ownedPages := m.ownedPages-1}

def pmmAvailablePages (m : Phys) : ℕ :=
  m.freePages.length + if alignUp m.cur < m.limit then (m.limit-alignUp m.cur)/pageSize else 0

end FuriOS
