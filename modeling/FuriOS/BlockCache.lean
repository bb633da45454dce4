import FuriOS.Lib.Prog

/-! The write-back sector cache of `kernel/block_cache.c` over the sector requests of its
backends. Sector contents stay abstract: the cache only moves them. Console messages are not
modelled. -/
namespace FuriOS

abbrev blockCacheLines : ℕ := 128
abbrev LineIx : Type := Fin blockCacheLines

/-- Device kinds; the SATA and NVMe ranges are indexed from their first value. -/
inductive DevKind
  | none | null | zero | tty | vda
  | sd (i : Fin 8)
  | nvme (i : Fin 64)
  | net0
  deriving DecidableEq, Repr

/-- The kinds one of the block drivers serves. -/
def DevKind.isBlock : DevKind → Bool
  | .vda | .sd _ | .nvme _ => true
  | _ => false

/-- How a sector read ends. A failed one leaves `junk` in the buffer it was given. -/
inductive Outcome (σ : Type)
  | ok
  | fail (junk : σ)

structure SectorWrite (σ : Type) where
  kind : DevKind
  lba : ℕ
  data : σ

/-- The devices: contents, how the request of each number ends, the sectors asked for, and the
sector writes done. -/
structure Backend (σ : Type) where
  present : DevKind → Bool
  store : DevKind → ℕ → σ
  readOutcome : ℕ → Outcome σ
  writeOk : ℕ → Bool
  flushOk : ℕ → Bool
  requests : ℕ
  reads : List (DevKind × ℕ)
  log : List (SectorWrite σ)

structure CacheLine (σ : Type) where
  valid : Bool
  dirty : Bool
  lba : ℕ
  lastUse : ℕ
  data : σ

/-- The static state of the cache together with the devices under it. -/
structure BlockCache (σ : Type) where
  lines : LineIx → CacheLine σ
  useClock : ℕ
  readyFlag : Bool
  activeDevKind : DevKind
  activeLbaBase : ℕ
  activeLbaCount : ℕ
  selftestDone : Bool
  dev : Backend σ

/-- The fields of a device inode that the cache looks at. -/
structure DevInode where
  isDev : Bool
  devKind : DevKind
  devLbaStart : ℕ
  devLbaCount : ℕ

namespace BlockCache
variable {σ : Type}

def setLine (c : BlockCache σ) (i : LineIx) (l : CacheLine σ) : BlockCache σ :=
  {c with lines := Function.update c.lines i l}

def backendReady (c : BlockCache σ) (kind : DevKind) : Bool := kind.isBlock && c.dev.present kind

/-- One sector transfer; the result is the success flag and the buffer afterwards. -/
def backendRw (kind : DevKind) (lba : ℕ) (buf : σ) (write : Bool) :
    Prog (BlockCache σ) (Bool × σ) := ⟨fun c =>
  if !kind.isBlock then (some (false,buf),c) else
    let n := c.dev.requests
    let d := {c.dev with requests := n+1}
    if write then
      if d.writeOk n then
        let store := Function.update d.store kind (Function.update (d.store kind) lba buf)
        (some (true,buf),{c with dev := {d with store := store, log := d.log++[⟨kind,lba,buf⟩]}})
      else (some (false,buf),{c with dev := d})
    else
      let d' := {d with reads := d.reads++[(kind,lba)]}
      match d.readOutcome n with
      | .ok => (some (true,d.store kind lba),{c with dev := d' })
      | .fail junk => (some (false,junk),{c with dev := d' })⟩

def backendFlush (kind : DevKind) : Prog (BlockCache σ) Unit := ⟨fun c =>
  if !kind.isBlock then (none,c) else
    let n := c.dev.requests
    let c' := {c with dev := {c.dev with requests := n+1}}
    if c.dev.flushOk n then (some (),c') else (none,c')⟩

/-- The 32-bit use clock skips zero when it wraps. -/
def nextClock (t : ℕ) : ℕ := if (t+1)%2^32=0 then 1 else (t+1)%2^32

def touched (c : BlockCache σ) (i : LineIx) : BlockCache σ :=
  {c.setLine i {c.lines i with lastUse := nextClock c.useClock} with
    useClock := nextClock c.useClock}

def cacheTouch (i : LineIx) : Prog (BlockCache σ) Unit := .modify (touched · i)

/-- Device address of a sector of the attached partition. A partition ends at or below the
device's last 64-bit address, so the sum does not wrap for sectors inside it. -/
def deviceLba (c : BlockCache σ) (lba : ℕ) : ℕ := c.activeLbaBase+lba

def cacheWritebackLine (i : LineIx) : Prog (BlockCache σ) Unit := do
  let c ← .gets id
  let l := c.lines i
  if !l.valid || !l.dirty then pure () else
    let (ok,_) ← backendRw c.activeDevKind (c.deviceLba l.lba) l.data true
    .require ok
    .modify fun c => c.setLine i {c.lines i with dirty := false}

def holds (c : BlockCache σ) (lba : ℕ) (i : LineIx) : Bool :=
  (c.lines i).valid && (c.lines i).lba == lba

def lineOf (c : BlockCache σ) (lba : ℕ) : Option LineIx :=
  (List.finRange blockCacheLines).find? (c.holds lba)

def cacheFind (lba : ℕ) : Prog (BlockCache σ) (Option LineIx) := do
  match ← .gets (·.lineOf lba) with
  | some i => cacheTouch i; pure (some i)
  | none => pure none

def selectVictimLoop (c : BlockCache σ) : List LineIx → Option LineIx → Option LineIx
  | [],best => best
  | i::is,best =>
    if !(c.lines i).valid then some i else
      match best with
      | none => selectVictimLoop c is (some i)
      | some b =>
        if (c.lines i).lastUse<(c.lines b).lastUse then selectVictimLoop c is (some i)
        else selectVictimLoop c is (some b)

/-- An unused line if there is one, else the first line that was used longest ago. -/
def cacheSelectVictim (c : BlockCache σ) : Option LineIx :=
  selectVictimLoop c (List.finRange blockCacheLines) none

def cacheGetLoad (lba : ℕ) : Prog (BlockCache σ) LineIx := do
  match ← cacheFind lba with
  | some i => pure i
  | none =>
    match ← .gets cacheSelectVictim with
    | none => .fail
    | some v =>
      cacheWritebackLine v
      let c ← .gets id
      let (ok,data) ← backendRw c.activeDevKind (c.deviceLba lba) (c.lines v).data false
      -- the driver writes into the line's own buffer, also when it fails
      .modify fun c => c.setLine v {c.lines v with data := data}
      .require ok
      .modify fun c => c.setLine v {c.lines v with valid := true, dirty := false, lba := lba}
      cacheTouch v
      pure v

def blockCacheReady (c : BlockCache σ) : Bool :=
  c.readyFlag && (c.activeDevKind != .none) && c.backendReady c.activeDevKind &&
    c.activeLbaCount != 0

/-- The range test shared by reads and writes. -/
def inRange (c : BlockCache σ) (lba count : ℕ) : Bool :=
  c.blockCacheReady && !(count == 0 || decide (c.activeLbaCount≤lba) ||
    decide (c.activeLbaCount-lba<count))

def readLoop (lba : ℕ) : ℕ → Prog (BlockCache σ) (List σ)
  | 0 => pure []
  | n+1 => do
    let i ← cacheGetLoad lba
    let s ← .gets fun c => (c.lines i).data
    let rest ← readLoop (lba+1) n
    pure (s::rest)

def blockCacheRead (lba count : ℕ) : Prog (BlockCache σ) (List σ) := do
  .require (← .gets fun c => c.inRange lba count)
  readLoop lba count

def writeLoop (lba : ℕ) : List σ → Prog (BlockCache σ) Unit
  | [] => pure ()
  | s::rest => do
    let i ← cacheGetLoad lba
    .modify fun c => c.setLine i {c.lines i with data := s, dirty := true}
    cacheTouch i
    writeLoop (lba+1) rest

def blockCacheWrite (lba : ℕ) (buf : List σ) : Prog (BlockCache σ) Unit := do
  .require (← .gets fun c => c.inRange lba buf.length)
  writeLoop lba buf

def flushLoop : List LineIx → Prog (BlockCache σ) Unit
  | [] => pure ()
  | i::is => do
    cacheWritebackLine i
    flushLoop is

def blockCacheFlush : Prog (BlockCache σ) Unit := do
  .require (← .gets blockCacheReady)
  flushLoop (List.finRange blockCacheLines)
  backendFlush (← .gets (·.activeDevKind))

section Attach
variable [Inhabited σ] [BEq σ]

def CacheLine.cleared : CacheLine σ := ⟨false,false,0,0,default⟩

def blockCacheInit (c : BlockCache σ) : BlockCache σ :=
  {c with
    lines := fun _ => CacheLine.cleared, useClock := 0, readyFlag := false
    activeDevKind := .none, activeLbaBase := 0, activeLbaCount := 0, selftestDone := false}

def cacheSelftest : Prog (BlockCache σ) Unit := do
  let cap ← .gets (·.activeLbaCount)
  .require (cap != 0)
  let a ← blockCacheRead 0 1
  let b ← blockCacheRead 0 1
  .require (a == b)
  .require (← .attempt (blockCacheRead cap 1)).isNone

def reset (c : BlockCache σ) (kind : DevKind) (base count : ℕ) : BlockCache σ :=
  {c with
    lines := fun _ => CacheLine.cleared, useClock := 0, readyFlag := true
    activeDevKind := kind, activeLbaBase := base, activeLbaCount := count}

def disabled (c : BlockCache σ) : BlockCache σ :=
  {c with readyFlag := false, activeDevKind := .none, activeLbaBase := 0, activeLbaCount := 0}

def attachedTo (c : BlockCache σ) (inode : DevInode) : Bool :=
  c.readyFlag && c.activeDevKind == inode.devKind && c.activeLbaBase == inode.devLbaStart &&
    c.activeLbaCount == inode.devLbaCount

def blockCacheAttachInode (inode : DevInode) : Prog (BlockCache σ) Unit := do
  .require inode.isDev
  .require (← .gets fun c => c.backendReady inode.devKind && inode.devLbaCount != 0)
  if ← .gets (·.attachedTo inode) then pure () else
    let ready ← .gets (·.readyFlag)
    (if ready then (do let _ ← .attempt blockCacheFlush) else pure () : Prog (BlockCache σ) Unit)
    .modify (reset · inode.devKind inode.devLbaStart inode.devLbaCount)
    if ← .gets (·.selftestDone) then pure () else
      cacheSelftest.onFail disabled
      .modify fun c => {c with selftestDone := true}

end Attach
end BlockCache
end FuriOS
