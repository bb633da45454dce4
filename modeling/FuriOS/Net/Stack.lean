import FuriOS.Net.Socket

/-! The socket table of `kernel/net.c`: allocation and release of slots, the queue of a listener,
received segments, the timer and the socket calls. Routing, address resolution and the device are
the environment: it answers whether a segment was sent. -/
namespace FuriOS
open Reentrant Reentrant.Act

/-- The socket table, the next ephemeral port, and the addresses that are local or have a route
(with the source address for it). -/
structure Net where
  socks : SockIx → Sock
  nextEphemeral : ℕ
  isLocal : ℕ → Bool
  route : ℕ → Option ℕ

namespace Net

def setSock (n : Net) (i : SockIx) (s : Sock) : Net := {n with socks := Function.update n.socks i s}

def modSock (n : Net) (i : SockIx) (f : Sock → Sock) : Net := n.setSock i (f (n.socks i))

def findSock (n : Net) (p : Sock → Bool) : Option SockIx :=
  (List.finRange netSockMax).find? fun i => p (n.socks i)

end Net

/-- What the stack calls out to, with the slot that the calling code works on. -/
inductive NetCall
  | send (owner : Option SockIx) (g : Segment)
  | pump (owner : SockIx)
  deriving DecidableEq

abbrev NetM : Type → Type := Act Net NetCall

/-- A call of the code of one socket, made by slot `i`. -/
def SockCall.on (i : SockIx) : SockCall → NetCall
  | .send g => .send (some i) g
  | .pump => .pump i

/-- Code of one socket, run on slot `i`. -/
def onSock {α : Type} (i : SockIx) (p : SockM α) : NetM α :=
  p.zoom (fun n => n.socks i) (fun s n => n.setSock i s) (SockCall.on i)

/-- The loop of `listener_queue_prune` over the queue: the entries that stay, and the table with
the others cleared. -/
def pruneLoop (l : SockIx) : List SockIx → Net → List SockIx × Net
  | [], n => ([],n)
  | c::cs, n =>
    let s := n.socks c
    if !s.used || s.listener≠some l || s.state=.closed || s.error then
      pruneLoop l cs (if s.used then n.setSock c .zero else n)
    else (c::(pruneLoop l cs n).1,(pruneLoop l cs n).2)

def listenerQueuePrune (l : SockIx) (n : Net) : Net :=
  let r := pruneLoop l (n.socks l).pending n
  r.2.modSock l fun s => {s with pending := r.1}

def listenerQueueRemove (l c : SockIx) (n : Net) : Net :=
  if c∈(n.socks l).pending then
    (n.modSock l fun s => {s with pending := s.pending.erase c}).modSock c fun s => {s with listener := none}
  else n

/-- `socket_reset` takes a queued connection from the queue of its listener. -/
def leaveQueue (i : SockIx) (n : Net) : Net :=
  match (n.socks i).listener with
  | some l => if (n.socks i).proto=.tcp then listenerQueueRemove l i n else n
  | none => n

/-- `socket_reset` clears the queued connections of a listener. -/
def dropQueue (i : SockIx) (n : Net) : Net :=
  if (n.socks i).proto=.tcp ∧ (n.socks i).state=.listen then
    (n.socks i).pending.foldr (fun c n => n.setSock c .zero) n
  else n

def socketReset (i : SockIx) (n : Net) : Net := (dropQueue i (leaveQueue i n)).setSock i .zero

def socketPortConflict (n : Net) (port ip : ℕ) (proto : NetSockProto) (skip : SockIx) : Bool :=
  (List.finRange netSockMax).any fun i =>
    let s := n.socks i
    s.used && s.bound && i≠skip && s.proto=proto && s.bindPort=port
      && (s.bindIp=0 || ip=0 || s.bindIp=ip) && !(s.reuseaddr && (n.socks skip).reuseaddr)

/-- `socket_alloc_ephemeral` searches the ports from 49152 to 65535 in a circle. -/
def socketAllocEphemeral (n : Net) (skip : SockIx) (ip : ℕ) (proto : NetSockProto) :
    Option (ℕ × Net) :=
  let start := if n.nextEphemeral<49152 ∨ 65535<n.nextEphemeral then 49152 else n.nextEphemeral
  let ports := (List.range 16384).map fun k => 49152+(start-49152+k)%16384
  (ports.find? fun p => !socketPortConflict n p ip proto skip).map fun p =>
    (p,{n with nextEphemeral := if p=65535 then 49152 else p+1})

/-- The slot that `socket_alloc_internal` takes. -/
def freeSock (n : Net) : Option SockIx := n.findSock fun s => !s.used

/-- A slot as `socket_alloc_internal` sets it up. -/
def Sock.fresh (proto : NetSockProto) : Sock :=
  {Sock.zero with
    used := true, refs := 1, proto := proto, peerWnd := if proto=.tcp then netTcpBufMax else 0}

def tcpPeerMatch (s : Sock) (g : Segment) : Bool :=
  s.used && s.proto=.tcp && s.bound && s.bindPort=g.dstPort
    && (s.bindIp=0 || s.bindIp=g.dstIp) && s.peerIp=g.srcIp && s.peerPort=g.srcPort
    && s.state≠.listen

def tcpFindListener (n : Net) (g : Segment) : Option SockIx :=
  n.findSock fun s => s.used && s.proto=.tcp && s.state=.listen && s.bound
    && s.bindPort=g.dstPort && (s.bindIp=0 || s.bindIp=g.dstIp)

def tcpFindSocket (n : Net) (g : Segment) : Option SockIx :=
  (n.findSock fun s => tcpPeerMatch s g).orElse fun _ => tcpFindListener n g

/-- `tcp_send_rst_for_segment`; `len` is the length of the payload that it counts. -/
def tcpSendRstForSegment (g : Segment) (len : ℕ) : NetM Unit :=
  let reply (seq ack : Seq) (flags : TcpFlags) : NetM Unit := do
    let _ ← callOut (.send none ⟨g.dstIp,g.srcIp,g.dstPort,g.srcPort,seq,ack,flags,netTcpBufMax,[]⟩)
  if g.flags.rst then pure ()
  else if g.flags.ack then reply g.ack 0 .onlyRst
  else reply 0 (g.seq+BitVec.ofNat 32 len+(if g.flags.syn then 1 else 0)+(if g.flags.fin then 1 else 0)) .rstAck

/-- `tcp_on_rst`; a connection that nobody accepted is released. -/
def tcpOnRst (i : SockIx) (n : Net) : Net :=
  let n := n.modSock i Sock.onRst
  if (n.socks i).listener.isSome ∧ (n.socks i).refs≤1 then socketReset i n else n

/-- The socket of a new connection to the listener `l`. -/
def Sock.child (l : Sock) (g : Segment) (rand : Seq) : Sock :=
  {Sock.fresh .tcp with
    bound := true
    bindIp := if l.bindIp≠0 then l.bindIp else g.dstIp
    bindPort := l.bindPort
    peerIp := g.srcIp
    peerPort := g.srcPort
    state := .synRecv
    iss := rand
    sndUna := rand
    sndNxt := rand+1
    irs := g.seq
    rcvNxt := g.seq+1}

/-- `listener_queue_add`, and `socket_reset` of the new socket if the queue is full. -/
def listenerQueueAdd (l c : SockIx) (n : Net) : Net :=
  let n := listenerQueuePrune l n
  if netTcpAcceptq≤(n.socks l).pending.length then socketReset c n
  else (n.modSock l fun s => {s with pending := s.pending++[c]}).modSock c fun s => {s with listener := some l}

def processTcpListener (now : ℕ) (rand : Seq) (l : SockIx) (g : Segment) : NetM Unit := do
  let n ← gets id
  if (n.socks l).backlog≤(n.socks l).pending.length then
    when g.flags.syn <| tcpSendRstForSegment {g with dstPort := (n.socks l).bindPort} 0
  else when g.flags.syn do
    match freeSock n with
    | none => pure ()
    | some c => do
      modify fun n => listenerQueueAdd l c (n.setSock c ((n.socks l).child g rand))
      let n ← gets id
      when ((n.socks c).listener=some l) <| onSock c do
        let _ ← tcpSendSegment now .synAck (n.socks c).iss (n.socks c).rcvNxt [] false

def processTcpEstablished (now : ℕ) (i : SockIx) (g : Segment) : NetM Unit := do
  modify fun n => n.modSock i fun s => {s with peerWnd := g.window}
  if g.flags.rst then modify (tcpOnRst i) else onSock i (processSegment now g)

/-- The answer to the SYN of a connecting socket. -/
def synAnswered (now : ℕ) (g : Segment) : SockM Unit := do
  modify fun s => {s with irs := g.seq, rcvNxt := g.seq+1, peerWnd := g.window}
  let _ ← tcpAckAdvance now g.ack
  modify fun s => {s with state := .established}
  tcpSendAck now

def processTcpSynSent (now : ℕ) (i : SockIx) (g : Segment) : NetM Unit := do
  let s ← gets fun n => n.socks i
  if g.flags.ack ∧ (tcpSeqLt g.ack s.sndUna ∨ tcpSeqGt g.ack s.sndNxt) then
    tcpSendRstForSegment g g.payload.length
  else if g.flags.syn ∧ g.flags.ack ∧ g.ack=s.sndNxt then onSock i (synAnswered now g)
  else when g.flags.rst <| modify (tcpOnRst i)

/-- The history notes a segment that acknowledges the initial sequence number. -/
def Sock.noteAck (s : Sock) (g : Segment) : Sock :=
  if g.flags.ack ∧ g.ack=s.iss+1 then {s with hist := {s.hist with acked := true}} else s

/-- `process_tcp` for a segment whose header was read. -/
def processTcp (now : ℕ) (rand : Seq) (g : Segment) : NetM Unit := do
  let n ← gets id
  match tcpFindSocket n g with
  | none => tcpSendRstForSegment g g.payload.length
  | some i =>
    if (n.socks i).state=.listen then processTcpListener now rand i g
    else do
      modify fun n => n.modSock i fun s => s.noteAck g
      if (n.socks i).state=.synSent then processTcpSynSent now i g
      else processTcpEstablished now i g

/-- The round of `tcp_tick` for one slot; times are 64-bit numbers. -/
def tcpTickSlot (now : ℕ) (i : SockIx) : NetM Unit := do
  let s ← gets fun n => n.socks i
  if !s.used ∨ s.proto≠.tcp then pure ()
  else if s.detached ∧ (s.state=.closed ∨ s.error) then modify (socketReset i)
  else if s.state=.timeWait ∧ s.timewaitDeadline≠0 ∧ s.timewaitDeadline≤now then
    modify (socketReset i)
  else match s.txSeg with
    | none => pure ()
    | some tx =>
      if (now+2^64-tx.sentTick)%2^64<netTcpRtoTicks*2^(min tx.retries 3) then pure ()
      else if netTcpMaxRetries≤tx.retries then
        modify fun n => tcpOnRst i (n.modSock i (socketSetError 110))
      else onSock i (tickResend now tx)

/-- Descriptors refer to the socket from now on. -/
def Sock.own (s : Sock) : Sock := {s with hist := {s.hist with owned := true}}

def netSocketCreate (proto : NetSockProto) : NetM Unit := do
  match freeSock (← gets id) with
  | none => pure ()
  | some i => modify fun n => n.setSock i (Sock.fresh proto).own

def netSocketRef (i : SockIx) : NetM Unit :=
  modify fun n => n.modSock i fun s => if s.used ∧ s.refs<0xFFFF then {s with refs := s.refs+1} else s

def Sock.disown (s : Sock) : Sock := {s with refs := 0, hist := {s.hist with owned := false}}

/-- `net_socket_close` of a connection that is not at its end. -/
def closeConnection (now : ℕ) (i : SockIx) : NetM Unit := do
  modify fun n => n.modSock i fun s => {s with detached := true, appShutRd := true, appShutWr := true}
  let s ← gets fun n => n.socks i
  if s.state=.synSent ∨ s.state=.synRecv then modify fun n => socketReset i (tcpOnRst i n)
  else if s.txSeg.isSome then modify fun n => n.modSock i fun s => {s with finPending := true}
  else when (s.state=.established || s.state=.closeWait) do
    let ok ← onSock i (tcpSendFinNow now)
    when !ok <| modify fun n => socketReset i (tcpOnRst i n)

def netSocketClose (now : ℕ) (i : SockIx) : NetM Unit := do
  let s ← gets fun n => n.socks i
  if !s.used then pure ()
  else if 1<s.refs then modify fun n => n.modSock i fun s => {s with refs := s.refs-1}
  else do
    modify fun n => n.modSock i Sock.disown
    if s.proto≠.tcp ∨ s.state=.listen ∨ s.state=.closed ∨ s.state=.timeWait ∨ s.error then
      modify (socketReset i)
    else closeConnection now i

def Sock.bindTo (s : Sock) (ip port : ℕ) : Sock := {s with bound := true, bindIp := ip, bindPort := port}

/-- Bind slot `i` to a port chosen by the stack; the result tells whether there was one. -/
def bindEphemeral (i : SockIx) (ip : ℕ) : NetM Bool := do
  let n ← gets id
  match socketAllocEphemeral n i ip (n.socks i).proto with
  | none => pure false
  | some (port,n') => do
    modify fun n => {n with nextEphemeral := n'.nextEphemeral}.modSock i fun s => s.bindTo ip port
    pure true

def netSocketBind (i : SockIx) (ip port : ℕ) : NetM ℤ := do
  let n ← gets id
  if !(n.socks i).used ∨ !(ip=0 ∨ n.isLocal ip) then pure (-1)
  else if port=0 then do
    let ok ← bindEphemeral i ip
    pure (if ok then 0 else -1)
  else if socketPortConflict n port ip (n.socks i).proto i then pure (-1)
  else do
    modify fun n => n.modSock i fun s => s.bindTo ip port
    pure 0

def Sock.connecting (s : Sock) (ip port : ℕ) (rand : Seq) : Sock :=
  {s with
    lastError := 0
    error := false
    rxClosed := false
    peerIp := ip
    peerPort := port
    state := .synSent
    iss := rand
    sndUna := rand
    sndNxt := rand+1
    rcvNxt := 0
    peerWnd := netTcpBufMax}

/-- The end of `net_socket_connect`: send the SYN. -/
def sendSyn (now : ℕ) (rand : Seq) (i : SockIx) (ip port : ℕ) (nonblock : Bool) : NetM ℤ := do
  modify fun n => n.modSock i fun s => s.connecting ip port rand
  if (← onSock i (tcpSendSegment now .onlySyn rand 0 [] false)) then pure (if nonblock then -115 else -2)
  else do
    modify fun n => tcpOnRst i (n.modSock i (socketSetError 101))
    pure (-101)

/-- `net_socket_connect` of a socket that is connecting already. -/
def stillConnecting (i : SockIx) (nonblock : Bool) : NetM ℤ := do
  if nonblock then pure () else let _ ← callOut (.pump i)
  let s ← gets fun n => n.socks i
  if !nonblock ∧ (s.state=.established ∨ s.state=.closeWait) then pure 0
  else if s.error then pure (-socketErrorOr s 111)
  else pure (if nonblock then -114 else -2)

def netSocketConnect (now : ℕ) (rand : Seq) (i : SockIx) (ip port : ℕ) (nonblock : Bool) :
    NetM ℤ := do
  let n ← gets id
  let s := n.socks i
  if !s.used ∨ s.proto≠.tcp ∨ port=0 then pure (-22)
  else if !n.isLocal ip ∧ (n.route ip).isNone then pure (-101)
  else if s.state=.established ∨ s.state=.closeWait then pure 0
  else if s.error ∨ (s.state=.closed ∧ s.peerPort≠0) then pure (-socketErrorOr s 111)
  else if s.state=.synSent ∨ s.state=.synRecv then stillConnecting i nonblock
  else if s.state≠.closed then pure (-106)
  else if s.bound then sendSyn now rand i ip port nonblock
  else do
    if (← bindEphemeral i ((n.route ip).getD 0)) then sendSyn now rand i ip port nonblock
    else pure (-105)

/-- The end of `net_socket_listen`. -/
def startListening (i : SockIx) (backlog : ℤ) : NetM ℤ := do
  modify fun n => n.modSock i fun s =>
    {s with state := .listen, backlog := (min (max backlog 1) netTcpAcceptq).toNat}
  pure 0

def netSocketListen (i : SockIx) (backlog : ℤ) : NetM ℤ := do
  let s ← gets fun n => n.socks i
  if !s.used ∨ s.proto≠.tcp then pure (-1)
  else if s.bound then startListening i backlog
  else do
    if (← bindEphemeral i 0) then startListening i backlog else pure (-1)

/-- The connection that `listener_queue_take_established` finds after pruning. -/
def establishedChild (n : Net) (l : SockIx) : Option SockIx :=
  (n.socks l).pending.find? fun c =>
    (n.socks c).used && ((n.socks c).state=.established || (n.socks c).state=.closeWait)

/-- The history notes that descriptors refer to the socket that is returned. -/
def Sock.handOut (s : Sock) : Sock :=
  {s with hist := {s.hist with owned := true, returned := s.hist.returned+1}}

def listenerQueueTakeEstablished (l : SockIx) : NetM (Option SockIx) := do
  modify (listenerQueuePrune l)
  let n ← gets id
  match establishedChild n l with
  | none => pure none
  | some c => do
    modify fun n => (listenerQueueRemove l c n).modSock c Sock.handOut
    pure (some c)

def netSocketAccept (l : SockIx) (nonblock : Bool) : NetM (Option SockIx) := do
  let s ← gets fun n => n.socks l
  if !s.used ∨ s.proto≠.tcp ∨ s.state≠.listen then pure none
  else match (← listenerQueueTakeEstablished l) with
    | some c => pure (some c)
    | none => if nonblock then pure none else do
      let _ ← callOut (.pump l)
      listenerQueueTakeEstablished l

/-- `net_socket_poll_revents` prunes the queue of a listener. -/
def netSocketPoll (i : SockIx) : NetM Unit := do
  let s ← gets fun n => n.socks i
  when (s.used && s.proto=.tcp && s.state=.listen) <| modify (listenerQueuePrune i)

def netSocketReuseaddr (i : SockIx) (v : Bool) : NetM Unit :=
  modify fun n => n.modSock i fun s => if s.used then {s with reuseaddr := v} else s

/-- What happens to the stack: a received segment, a round of `tcp_tick` for one slot (`tcpTick` is the
whole loop), and the socket calls. -/
inductive NetEvent
  | segment (now : ℕ) (rand : Seq) (g : Segment)
  | tick (now : ℕ) (i : SockIx)
  | create (proto : NetSockProto)
  | ref (i : SockIx)
  | close (now : ℕ) (i : SockIx)
  | bind (i : SockIx) (ip port : ℕ)
  | connect (now : ℕ) (rand : Seq) (i : SockIx) (ip port : ℕ) (nonblock : Bool)
  | listen (i : SockIx) (backlog : ℤ)
  | accept (i : SockIx) (nonblock : Bool)
  | shutdown (now : ℕ) (i : SockIx) (rd wr : Bool)
  | read (i : SockIx) (len : ℕ) (nonblock : Bool)
  | write (now : ℕ) (i : SockIx) (buf : Bytes) (nonblock : Bool) (depth : ℕ)
  | poll (i : SockIx)
  | reuseaddr (i : SockIx) (v : Bool)

/-- The loop of `tcp_tick`: the rounds of all slots in turn. -/
def tcpTick (now : ℕ) : List NetEvent := (List.finRange netSockMax).map (.tick now)

def NetEvent.perform : NetEvent → NetM Unit
  | .segment now rand g => processTcp now rand g
  | .tick now i => tcpTickSlot now i
  | .create proto => netSocketCreate proto
  | .ref i => netSocketRef i
  | .close now i => netSocketClose now i
  | .bind i ip port => do let _ ← netSocketBind i ip port
  | .connect now rand i ip port nonblock => do let _ ← netSocketConnect now rand i ip port nonblock
  | .listen i backlog => do let _ ← netSocketListen i backlog
  | .accept i nonblock => do let _ ← netSocketAccept i nonblock
  | .shutdown now i rd wr => do let _ ← onSock i (netSocketShutdown now rd wr)
  | .read i len nonblock => do let _ ← onSock i (netSocketRead len nonblock)
  | .write now i buf nonblock depth => do let _ ← onSock i (netSocketWrite now buf nonblock depth)
  | .poll i => netSocketPoll i
  | .reuseaddr i v => netSocketReuseaddr i v

def NetEvent.target : NetEvent → Option SockIx
  | .ref i | .close _ i | .bind i _ _ | .connect _ _ i _ _ _ | .listen i _ | .accept i _
  | .shutdown _ i _ _ | .read i _ _ | .write _ i _ _ _ | .poll i | .reuseaddr i _ => some i
  | .segment _ _ _ | .tick _ _ | .create _ => none

def NetEvent.isCall : NetEvent → Bool
  | .segment _ _ _ | .tick _ _ => false
  | _ => true

/-- When an event can happen: socket calls come from descriptors, and not while another call or
event is under way. -/
def NetEvent.Possible (σ : List (NetCall × Bool)) (n : Net) (v : NetEvent) : Prop :=
  (v.isCall=true → σ=[]) ∧ ∀ i, v.target=some i → (n.socks i).hist.owned=true

/-- The stack with the events for which `ok` holds. -/
def netWorld (ok : List (NetCall × Bool) → Net → NetEvent → Prop) :
    Reentrant.World Net NetCall NetEvent where
  emit _ _ n := n
  handler := NetEvent.perform
  enabled σ n v := v.Possible σ n ∧ ok σ n v

/-- The table after `net_init`, for any addresses and routes. -/
def Net.init (isLocal : ℕ → Bool) (route : ℕ → Option ℕ) : Net := ⟨fun _ => .zero,49152,isLocal,route⟩

end FuriOS
