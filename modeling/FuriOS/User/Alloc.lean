import FuriOS.Lib.Bytes

/-! The user-space allocator (`malloc`, `free`, `realloc` and `calloc` of the C library): a list
of blocks linked through headers that lie in the managed memory itself. -/
namespace FuriOS.User

/-- `sizeof(block_header_t)`: the size, the flag with its padding and the link. -/
def headerSize : ℕ := 24

/-- The memory of the process with the allocator's two variables. A pointer is an address,
the null pointer is 0. `owned` records which addresses `sys_sbrk` has given out. -/
structure Heap where
  mem : Buf
  heapHead : ℕ
  heapTail : ℕ
  brk : ℕ
  owned : ℕ → Bool

structure Header where
  size : ℕ
  free : ℕ
  next : ℕ

def headerAt (mem : Buf) (b : ℕ) : Header :=
  ⟨mem.rdLe64 b,mem.rdLe32 (b+8),mem.rdLe64 (b+16)⟩

def setSize (mem : Buf) (b size : ℕ) : Buf := mem.wrLe64 b size

def setFree (mem : Buf) (b free : ℕ) : Buf := mem.wrLe32 (b+8) free

def setNext (mem : Buf) (b next : ℕ) : Buf := mem.wrLe64 (b+16) next

/-- `(v + a - 1) & ~(a - 1)` in 64 bits, for a power of two `a`. -/
def alignUp (v a : ℕ) : ℕ := (v+a-1)%2^64 / a * a

/-- The least block worth splitting off: a header and 16 bytes. -/
def minRemain : ℕ := headerSize+16

def maybeSplitBlock (b need : ℕ) (h : Heap) : Heap :=
  let hb := headerAt h.mem b
  if b=0 ∨ hb.size<(need+minRemain)%2^64 then h
  else
    let n := b+headerSize+need
    {h with
      mem := setNext (setSize (setNext (setFree (setSize h.mem n (hb.size-need-headerSize)) n 1) n
        hb.next) b need) b n
      heapTail := if h.heapTail=b then n else h.heapTail}

/-- `b` takes over the block after it, which is `n`. -/
def absorb (b n : ℕ) (h : Heap) : Heap :=
  let hb := headerAt h.mem b
  let hn := headerAt h.mem n
  {h with mem := setNext (setSize h.mem b (hb.size+headerSize+hn.size)) b hn.next}

/-- The loop of `coalesce_all` from block `b` on, for a bounded number of rounds. -/
def coalesceFrom : ℕ → ℕ → Heap → Option Heap
  | 0,_,_ => none
  | rounds+1,b,h =>
    let hb := headerAt h.mem b
    if b=0 ∨ hb.next=0 then some h
    else
      let n := hb.next
      if hb.free≠0 ∧ (headerAt h.mem n).free≠0 ∧ b+headerSize+hb.size=n then
        let h := absorb b n h
        coalesceFrom rounds b {h with heapTail := if h.heapTail=n then b else h.heapTail}
      else coalesceFrom rounds n h

def coalesceAll (h : Heap) : Option Heap := coalesceFrom (h.brk+1) h.heapHead h

/-- The search of `malloc` for a free block that is large enough; 0 if there is none. -/
def findFit (mem : Buf) (size : ℕ) : ℕ → ℕ → Option ℕ
  | 0,_ => none
  | rounds+1,b =>
    if b=0 then some 0
    else
      let hb := headerAt mem b
      if hb.free≠0 ∧ size≤hb.size then some b else findFit mem size rounds hb.next

/-- `sys_sbrk` with a positive argument. The system decides the outcome: it fails, or it
extends the heap at an address that is not below the present end. -/
def sysSbrk (reply : Option ℕ) (increment : ℕ) (h : Heap) : Option (ℕ × Heap) :=
  match reply with
  | none => none
  | some p =>
    if h.brk≤p ∧ p+increment<2^64 then
      some (p,{h with
        brk := p+increment
        owned := fun i => h.owned i || decide (p ≤ i ∧ i<p+increment)})
    else none

/-- The new block `b` at the end of the list. -/
def appendBlock (b size : ℕ) (h : Heap) : Heap :=
  let mem := setNext (setFree (setSize h.mem b size) b 0) b 0
  if h.heapHead=0 then {h with mem := mem, heapHead := b, heapTail := b}
  else {h with mem := setNext mem h.heapTail b, heapTail := b}

def malloc (reply : Option ℕ) (size : ℕ) (h : Heap) : Option (ℕ × Heap) :=
  if size=0 then some (0,h)
  else
    let size := alignUp size 16
    (findFit h.mem size (h.brk+1) h.heapHead).map fun b =>
      if b≠0 then
        let h := maybeSplitBlock b size h
        (b+headerSize,{h with mem := setFree h.mem b 0})
      else match sysSbrk reply ((headerSize+size)%2^64) h with
        | none => (0,h)
        | some (b,h) => (b+headerSize,appendBlock b size h)

def free (ptr : ℕ) (h : Heap) : Option Heap :=
  if ptr=0 then some h
  else coalesceAll {h with mem := setFree h.mem (ptr-headerSize) 1}

def realloc (reply : Option ℕ) (ptr size : ℕ) (h : Heap) : Option (ℕ × Heap) :=
  if ptr=0 then malloc reply size h
  else if size=0 then (free ptr h).map fun h => (0,h)
  else
    let size := alignUp size 16
    let b := ptr-headerSize
    let hb := headerAt h.mem b
    let hn := headerAt h.mem hb.next
    if size≤hb.size then some (ptr,maybeSplitBlock b size h)
    else if hb.next≠0 ∧ hn.free≠0 ∧ b+headerSize+hb.size=hb.next ∧
        size≤(hb.size+headerSize+hn.size)%2^64 then
      let h := absorb b hb.next h
      let h := {h with heapTail := if (headerAt h.mem b).next=0 then b else h.heapTail}
      some (ptr,maybeSplitBlock b size h)
    else do
      let (n,h) ← malloc reply size h
      if n=0 then some (0,h)
      else
        let h ← free ptr {h with mem := h.mem.copy n h.mem ptr (headerAt h.mem b).size}
        some (n,h)

def calloc (reply : Option ℕ) (n size : ℕ) (h : Heap) : Option (ℕ × Heap) :=
  if n=0 ∨ size=0 then malloc reply 0 h
  else if (2^64-1)/size<n then some (0,h)
  else
    let total := n*size%2^64
    (malloc reply total h).map fun (p,h) =>
      if p=0 then (0,h) else (p,{h with mem := h.mem.fill p 0 total})

end FuriOS.User
