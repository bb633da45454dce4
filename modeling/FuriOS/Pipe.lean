import FuriOS.Lib.Ring

/-! The pipes of `kernel/pipe.c`. -/
namespace FuriOS

abbrev pipeCapacity : ℕ := 1024

/-- `pipe_t`: the ring is `data` with the positions and the count. The two counts are `int` in the
source: a reference is one of the 64*16 descriptors of all tasks, so they stay below `2^31`. The last
two fields are not in the source: they record the bytes that writes have accepted and reads have delivered since the slot
was allocated, and no function reads them. -/
structure Pipe where
  used : Bool
  ring : Ring UInt8 pipeCapacity
  readers : ℕ
  writers : ℕ
  accepted : List UInt8
  delivered : List UInt8

namespace Pipe

/-- A slot after `memset` to zero. -/
def zero : Pipe := ⟨false,.reset (by decide) fun _ => 0,0,0,[],[]⟩

def maybeRelease (p : Pipe) : Pipe := if p.readers=0 ∧ p.writers=0 then zero else p

def refRead (p : Pipe) : Pipe := if p.used then {p with readers := p.readers+1} else p

def refWrite (p : Pipe) : Pipe := if p.used then {p with writers := p.writers+1} else p

def closeRead (p : Pipe) : Pipe :=
  if !p.used ∨ p.readers=0 then p else maybeRelease {p with readers := p.readers-1}

def closeWrite (p : Pipe) : Pipe :=
  if !p.used ∨ p.writers=0 then p else maybeRelease {p with writers := p.writers-1}

def read (p : Pipe) (len : ℕ) : List UInt8 × Pipe :=
  if p.used then ((p.ring.read len).1,
    {p with ring := (p.ring.read len).2, delivered := p.delivered++(p.ring.read len).1})
  else ([],p)

def write (p : Pipe) (bs : List UInt8) : ℕ × Pipe :=
  if p.used then ((p.ring.write bs).1,
    {p with ring := (p.ring.write bs).2, accepted := p.accepted++bs.take (p.ring.write bs).1})
  else (0,p)

/-- A call on the slot. -/
inductive Call
  | alloc | refRead | refWrite | closeRead | closeWrite
  | read (len : ℕ)
  | write (bs : List UInt8)

def perform (p : Pipe) : Call → Pipe
  -- the search of `pipe_alloc` passes over slots in use
  | .alloc => if p.used then p else {zero with used := true, readers := 1, writers := 1}
  | .refRead => p.refRead
  | .refWrite => p.refWrite
  | .closeRead => p.closeRead
  | .closeWrite => p.closeWrite
  | .read len => (p.read len).2
  | .write bs => (p.write bs).2

/-- Reads have delivered what writes had accepted, in order, and the ring holds the rest; the slot is
in use as long as an end is open. -/
structure Ok (p : Pipe) : Prop where
  bytes : p.accepted=p.delivered++p.ring.contents
  live : p.used=true ↔ p.readers≠0 ∨ p.writers≠0

lemma Ok.perform {p : Pipe} (h : p.Ok) (c : Call) : (p.perform c).Ok := by
  have hrelease {q : Pipe} (hq : q.accepted=q.delivered++q.ring.contents) (hu : q.used=true) :
      q.maybeRelease.Ok := by
    unfold maybeRelease
    split_ifs with h0
    · exact ⟨rfl,by decide⟩
    · exact ⟨hq,by simp [hu,← not_and_or,h0]⟩
  cases c <;>
    simp only [Pipe.perform,refRead,refWrite,closeRead,closeWrite,read,write] <;> split_ifs with hu
  any_goals exact h
  · exact ⟨rfl,by simp⟩
  · exact ⟨h.bytes,by simp [hu]⟩
  · exact ⟨h.bytes,by simp [hu]⟩
  · exact hrelease h.bytes (by simp_all)
  · exact hrelease h.bytes (by simp_all)
  · exact ⟨by simp [Ring.read_eq,h.bytes],h.live⟩
  · exact ⟨by simp [Ring.contents_write,h.bytes],h.live⟩

/-- What holds of a slot after any calls on it. -/
theorem pipe_fifo (cs : List Call) : (cs.foldl perform zero).Ok := by
  induction cs using List.reverseRecOn with
  | nil => exact ⟨rfl,by decide⟩
  | append_singleton cs c ih =>
    rw [List.foldl_append]
    exact ih.perform c

end Pipe

end FuriOS
