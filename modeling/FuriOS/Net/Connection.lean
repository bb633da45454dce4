import FuriOS.Net.Stream

/-! A connection between two sockets of the stack over a network that may drop, duplicate, delay and
reorder its segments. -/
namespace FuriOS
open Reentrant Reentrant.Act Function

inductive Side
  | left
  | right
  deriving DecidableEq, Repr

namespace Side

def other : Side → Side
  | left => right
  | right => left

@[simp] lemma other_other (X : Side) : X.other.other=X := by cases X <;> rfl

@[simp] lemma other_ne (X : Side) : X.other≠X := by cases X <;> decide

lemma both {P : Side → Prop} (X : Side) (h : P X) (h' : P X.other) (Y : Side) : P Y := by
  cases X <;> cases Y <;> assumption

end Side

/-- A segment that was sent, with the numbers of bytes that its sender and the other side had sent
by then. -/
structure Packet where
  seg : Segment
  own : ℕ
  peer : ℕ
  deriving DecidableEq

/-- Both sockets of a connection and what went over it. Only the sockets are read by the code. -/
structure Line where
  sock : Side → Sock
  /-- the sequence number of the first byte of a side -/
  start : Side → Seq
  /-- the bytes that a side has sent at least once -/
  sent : Side → Bytes
  /-- a side has sent its FIN -/
  fin : Side → Bool
  /-- the bytes that `net_socket_write` has accepted from a side -/
  accepted : Side → Bytes
  /-- the bytes that `net_socket_read` has returned on a side -/
  returned : Side → Bytes
  /-- the segments that a side has sent -/
  net : Side → List Packet

abbrev LineCall : Type := Side × SockCall

abbrev LineM : Type → Type := Act Line LineCall

namespace Line

def setSock (w : Line) (X : Side) (s : Sock) : Line := {w with sock := update w.sock X s}

/-- A segment goes out. Its payload is new if it starts where the stream ends. -/
def onSend (w : Line) (X : Side) (g : Segment) : Line :=
  let sent := if g.seq=seqAt (w.start X) (w.sent X).length then w.sent X++g.payload else w.sent X
  {w with
    sent := update w.sent X sent
    fin := update w.fin X (w.fin X || g.flags.fin)
    net := update w.net X (⟨g,sent.length,(w.sent X.other).length⟩::w.net X)}

/-- What a call does: a send reported as failed delivers nothing. -/
def emit : LineCall → Bool → Line → Line
  | (X,.send g),true, w => w.onSend X g
  | _,_, w => w

end Line

def onSide {α : Type} (X : Side) (p : SockM α) : LineM α :=
  p.zoom (fun w => w.sock X) (fun s w => w.setSock X s) fun d => (X,d)

/-- `process_tcp_established` -/
def receiveSegment (now : ℕ) (g : Segment) : SockM Unit := do
  modify fun s => {s with peerWnd := g.window}
  if g.flags.rst then modify Sock.onRst else processSegment now g

/-- The round of `tcp_tick` for a slot that it does not reset. -/
def tickSock (now : ℕ) : SockM Unit := do
  let s ← gets id
  match s.txSeg with
  | none => pure ()
  | some tx =>
    if (now+2^64-tx.sentTick)%2^64<netTcpRtoTicks*2^(min tx.retries 3) then pure ()
    else if netTcpMaxRetries≤tx.retries then modify fun s => (socketSetError 110 s).onRst
    else tickResend now tx

/-- The round of `tcp_tick` resets the slot. -/
def Sock.TickResets (s : Sock) (now : ℕ) : Prop :=
  s.detached=true ∧ (s.state=.closed ∨ s.error=true) ∨
    s.state=.timeWait ∧ s.timewaitDeadline≠0 ∧ s.timewaitDeadline≤now ∨
    s.listener.isSome=true ∧ s.refs≤1 ∧ ∃ tx, s.txSeg=some tx ∧ netTcpMaxRetries≤tx.retries ∧
      netTcpRtoTicks*2^(min tx.retries 3)≤(now+2^64-tx.sentTick)%2^64

inductive LineEvent
  | deliver (X : Side) (now : ℕ) (p : Packet)
  | tick (X : Side) (now : ℕ)
  | write (X : Side) (now : ℕ) (buf : Bytes) (nonblock : Bool) (depth : ℕ)
  | read (X : Side) (len : ℕ) (nonblock : Bool)
  | shutdown (X : Side) (now : ℕ) (rd wr : Bool)

namespace LineEvent

/-- `deliver X` is the arrival of a segment that side `X` has sent. -/
def perform : LineEvent → LineM Unit
  | deliver X now p => onSide X.other (receiveSegment now p.seg)
  | tick X now => onSide X (tickSock now)
  | write X now buf nonblock depth => do
    let r ← onSide X (netSocketWrite now buf nonblock depth)
    modify fun w => {w with
      accepted := update w.accepted X (w.accepted X++buf.take r.toNat)}
  | read X len nonblock => do
    let r ← onSide X (netSocketRead len nonblock)
    modify fun w => {w with returned := update w.returned X (w.returned X++r.2)}
  | shutdown X now rd wr => do let _ ← onSide X (netSocketShutdown now rd wr)

/-- What can happen while calls are under way. Segments arrive, once or several times, that were
sent before fewer than `2^31` further bytes of each side; socket calls are not made during calls. -/
def Possible (σ : List (LineCall × Bool)) (w : Line) : LineEvent → Prop
  | deliver X _ p => p∈w.net X ∧ (w.sent X).length<p.own+2^31 ∧
      (w.sent X.other).length<p.peer+2^31
  | tick X now => ¬(w.sock X).TickResets now
  | write _ _ _ _ _ | read _ _ _ | shutdown _ _ _ _ => σ=[]

/-- The retransmission timer does not run for a socket while a send of it is under way that will be
reported as failed. -/
def TimerWaits (σ : List (LineCall × Bool)) : LineEvent → Prop
  | tick X _ => ∀ g, ((X,SockCall.send g),false)∉σ
  | _ => True

end LineEvent

def lineWorld (ok : List (LineCall × Bool) → LineEvent → Prop) :
    Reentrant.World Line LineCall LineEvent where
  emit := Line.emit
  handler := LineEvent.perform
  enabled σ w v := v.Possible σ w ∧ ok σ v

/-- The connection has just become ESTABLISHED: the sequence numbers match, and nothing but segments
of the handshake is on its way. -/
structure Line.Fresh (w : Line) : Prop where
  used : ∀ X, (w.sock X).used=true
  proto : ∀ X, (w.sock X).proto=.tcp
  state : ∀ X, (w.sock X).state=.established
  una : ∀ X, (w.sock X).sndUna=w.start X
  nxt : ∀ X, (w.sock X).sndNxt=w.start X
  rcv : ∀ X, (w.sock X.other).rcvNxt=w.start X
  tx : ∀ X, (w.sock X).txSeg=none
  rx : ∀ X, (w.sock X).rx.len=0
  opened : ∀ X, (w.sock X).appShutRd=false ∧ (w.sock X).appShutWr=false ∧ (w.sock X).finPending=false
  attached : ∀ X, (w.sock X).detached=false
  sent : ∀ X, w.sent X=[]
  fin : ∀ X, w.fin X=false
  accepted : ∀ X, w.accepted X=[]
  returned : ∀ X, w.returned X=[]
  net : ∀ X, ∀ p∈w.net X, p.seg.payload=[] ∧ p.seg.flags.fin=false ∧ p.seg.flags.rst=false ∧
    (p.seg.flags.ack=true → p.seg.ack=w.start X.other) ∧ p.own=0 ∧ p.peer=0

end FuriOS
