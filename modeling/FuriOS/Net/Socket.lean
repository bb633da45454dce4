import FuriOS.Lib.Bytes
import FuriOS.Lib.Reentrant
import FuriOS.Lib.Ring

/-! A TCP socket of `kernel/net.c`: the part of the code that works on one socket. Sending a
segment and `net_pump` are calls out of the program, because while they last (synchronous delivery
on the loopback interface, waiting for an address to be resolved) the same code may run again. -/
namespace FuriOS
open Reentrant Reentrant.Act

abbrev netSockMax : ℕ := 32
abbrev SockIx : Type := Fin netSockMax

instance neZero_netSockMax : NeZero netSockMax := ⟨by decide⟩

abbrev netTcpBufMax : ℕ := 2048
abbrev netTcpAcceptq : ℕ := 4
abbrev netTcpRtoTicks : ℕ := 51
abbrev netTcpTimewaitTicks : ℕ := 200
abbrev netTcpMaxRetries : ℕ := 6

/-- `NET_MTU - sizeof(tcp_hdr_t)` -/
abbrev tcpMaxPayload : ℕ := 1480

/-- A sequence number. -/
abbrev Seq : Type := BitVec 32

/-- `(int32_t)(a - b) < 0` -/
def tcpSeqLt (a b : Seq) : Bool := (a-b).msb

/-- `(int32_t)(a - b) > 0` -/
def tcpSeqGt (a b : Seq) : Bool := !(a-b).msb && a≠b

inductive TcpState
  | closed
  | listen
  | synSent
  | synRecv
  | established
  | finWait1
  | finWait2
  | closeWait
  | lastAck
  | closing
  | timeWait
  deriving DecidableEq, Repr

inductive NetSockProto
  | none
  | udp
  | tcp
  deriving DecidableEq, Repr

structure TcpFlags where
  fin : Bool
  syn : Bool
  rst : Bool
  psh : Bool
  ack : Bool
  deriving DecidableEq, Repr

namespace TcpFlags

def onlyAck : TcpFlags := ⟨false,false,false,false,true⟩
def onlySyn : TcpFlags := ⟨false,true,false,false,false⟩
def onlyRst : TcpFlags := ⟨false,false,true,false,false⟩
def synAck : TcpFlags := ⟨false,true,false,false,true⟩
def finAck : TcpFlags := ⟨true,false,false,false,true⟩
def pshAck : TcpFlags := ⟨false,false,false,true,true⟩
def rstAck : TcpFlags := ⟨false,false,true,false,true⟩

end TcpFlags

/-- A segment with the addresses of its IP packet. -/
structure Segment where
  srcIp : ℕ
  dstIp : ℕ
  srcPort : ℕ
  dstPort : ℕ
  seq : Seq
  ack : Seq
  flags : TcpFlags
  window : ℕ
  payload : Bytes
  deriving DecidableEq

/-- The segment that waits for its acknowledgement; a cleared `tx_seg` is `none`. -/
structure TxSeg where
  flags : TcpFlags
  seq : Seq
  data : Bytes
  sentTick : ℕ
  retries : ℕ
  deriving DecidableEq

/-- History of a slot since it was allocated; the code does not read it. -/
structure SockHistory where
  /-- descriptors refer to the socket -/
  owned : Bool
  /-- a segment arrived that acknowledges exactly the initial sequence number -/
  acked : Bool
  /-- how often `net_socket_accept` returned the socket -/
  returned : ℕ
  deriving DecidableEq

/-- `struct net_socket`; slots of the table are referred to by their index. -/
structure Sock where
  used : Bool
  refs : ℕ
  proto : NetSockProto
  reuseaddr : Bool
  bound : Bool
  lastError : ℕ
  bindIp : ℕ
  bindPort : ℕ
  peerIp : ℕ
  peerPort : ℕ
  state : TcpState
  backlog : ℕ
  pending : List SockIx
  listener : Option SockIx
  iss : Seq
  sndUna : Seq
  sndNxt : Seq
  irs : Seq
  rcvNxt : Seq
  peerWnd : ℕ
  rx : Ring UInt8 netTcpBufMax
  rxClosed : Bool
  appShutRd : Bool
  appShutWr : Bool
  finPending : Bool
  detached : Bool
  error : Bool
  txSeg : Option TxSeg
  timewaitDeadline : ℕ
  hist : SockHistory

/-- `memset` of a slot to zero -/
def Sock.zero : Sock :=
  ⟨false,0,.none,false,false,0,0,0,0,0,.closed,0,[],none,0,0,0,0,0,0,.reset (by decide) fun _ => 0,
    false,false,false,false,false,false,none,0,⟨false,false,0⟩⟩

/-- What the code of a socket calls out to. -/
inductive SockCall
  | send (g : Segment)
  | pump
  deriving DecidableEq

/-- Code that works on one socket. -/
abbrev SockM : Type → Type := Act Sock SockCall

def tcpTxSegEndSeq (tx : TxSeg) : Seq :=
  tx.seq+BitVec.ofNat 32 tx.data.length+(if tx.flags.syn then 1 else 0)+(if tx.flags.fin then 1 else 0)

def socketSetError (err : ℕ) (s : Sock) : Sock :=
  if err=0 ∨ s.lastError≠0 then s else {s with lastError := err}

lemma socketSetError_eq (err : ℕ) (s : Sock) :
    socketSetError err s={s with lastError := (socketSetError err s).lastError} := by
  unfold socketSetError
  split <;> rfl

def socketErrorOr (s : Sock) (fallback : ℕ) : ℤ := if s.lastError≠0 then s.lastError else fallback

def Sock.segment (s : Sock) (flags : TcpFlags) (seq ack : Seq) (payload : Bytes) : Segment :=
  ⟨s.bindIp,s.peerIp,s.bindPort,s.peerPort,seq,ack,flags,netTcpBufMax-s.rx.len,payload⟩

/-- `tcp_send_segment`; `now` is the time. -/
def tcpSendSegment (now : ℕ) (flags : TcpFlags) (seq ack : Seq) (payload : Bytes)
    (retransmit : Bool) : SockM Bool := do
  let s ← gets id
  if s.proto≠.tcp ∨ tcpMaxPayload<payload.length then pure false
  else do
    let trackTx := !retransmit && (flags.syn || flags.fin || 0<payload.length)
    when trackTx <| modify fun s => {s with txSeg := some ⟨flags,seq,payload,now,0⟩}
    let ok ← callOut (.send (s.segment flags seq ack payload))
    when (!ok && trackTx) <| modify fun s => {s with txSeg := none}
    pure ok

def tcpSendAck (now : ℕ) : SockM Unit := do
  let s ← gets id
  when (s.proto=.tcp) do
    let _ ← tcpSendSegment now .onlyAck s.sndNxt s.rcvNxt [] true

def Sock.enterTimeWait (now : ℕ) (s : Sock) : Sock :=
  {s with state := .timeWait, timewaitDeadline := now+netTcpTimewaitTicks}

def Sock.finSent (s : Sock) : Sock :=
  match s.state with
  | .established => {s with state := .finWait1}
  | .closeWait => {s with state := .lastAck}
  | _ => s

def tcpSendFinNow (now : ℕ) : SockM Bool := do
  let s ← gets id
  if s.proto≠.tcp then pure false
  else do
    let seq := s.sndNxt
    if (← tcpSendSegment now .finAck seq s.rcvNxt [] false) then do
      modify fun s => {s with sndNxt := seq+1}
      modify Sock.finSent
      pure true
    else pure false

/-- The end of `tcp_ack_advance`: the segment in flight is acknowledged. -/
def txAcked (now : ℕ) : SockM Unit := do
  modify fun s => {s with txSeg := none}
  let s ← gets id
  when (s.finPending && (s.state=.established || s.state=.closeWait)) do
    let ok ← tcpSendFinNow now
    when ok <| modify fun s => {s with finPending := false}

def tcpAckAdvance (now : ℕ) (ackSeq : Seq) : SockM Bool := do
  let s ← gets id
  if s.proto≠.tcp ∨ ackSeq=s.sndUna ∨ tcpSeqLt ackSeq s.sndUna ∨ tcpSeqGt ackSeq s.sndNxt then
    pure false
  else do
    modify fun s => {s with sndUna := ackSeq}
    when (s.txSeg.any fun tx => !tcpSeqLt ackSeq (tcpTxSegEndSeq tx)) <| txAcked now
    pure true

/-- What the acknowledgement of everything sent does to the state. -/
def Sock.allAcked (now : ℕ) (s : Sock) : Sock :=
  match s.state with
  | .synRecv => {s with state := .established}
  | .synSent => {s with state := .established}
  | .finWait1 => if s.rxClosed then s.enterTimeWait now else {s with state := .finWait2}
  | .closing => s.enterTimeWait now
  | .lastAck => {s with state := .closed, rxClosed := true}
  | _ => s

/-- The acknowledgement of a segment; the result tells whether the rest is looked at. -/
def processAck (now : ℕ) (ackSeq : Seq) : SockM Bool := do
  let s ← gets id
  if tcpSeqLt ackSeq s.sndUna ∨ tcpSeqGt ackSeq s.sndNxt then do
    tcpSendAck now
    pure false
  else do
    if (← tcpAckAdvance now ackSeq) then do
      modify fun s => if ackSeq=s.sndNxt then s.allAcked now else s
      pure true
    else pure true

/-- `tcp_rx_write` and the move of the receive edge. -/
def Sock.receive (s : Sock) (payload : Bytes) : Sock :=
  {s with rx := (s.rx.write payload).2, rcvNxt := s.rcvNxt+BitVec.ofNat 32 (s.rx.write payload).1}

/-- The part of the payload that is new, with its sequence number. -/
def trimPayload (rcvNxt seq : Seq) (payload : Bytes) : Seq × Bytes :=
  if tcpSeqLt seq rcvNxt then
    if payload.length≤(rcvNxt-seq).toNat then (seq,[])
    else (rcvNxt,payload.drop (rcvNxt-seq).toNat)
  else (seq,payload)

/-- The payload of a segment; the result is the sequence number behind it, if the rest is looked
at. -/
def processPayload (now : ℕ) (seq : Seq) (payload : Bytes) : SockM (Option Seq) := do
  if payload.length=0 then pure (some seq)
  else do
    let s ← gets id
    if s.rxClosed then do
      tcpSendAck now
      pure none
    else do
      let (seq,payload) := trimPayload s.rcvNxt seq payload
      if payload.length=0 then do
        tcpSendAck now
        pure (some seq)
      else if seq=s.rcvNxt then do
        modify fun s => s.receive payload
        tcpSendAck now
        pure (some (seq+BitVec.ofNat 32 payload.length))
      else do
        tcpSendAck now
        pure none

/-- What the FIN of the peer does to the state. -/
def Sock.finReceived (now : ℕ) (s : Sock) : Sock :=
  match s.state with
  | .established => {s with state := .closeWait}
  | .finWait1 => if s.sndUna=s.sndNxt then s.enterTimeWait now else {s with state := .closing}
  | .finWait2 => s.enterTimeWait now
  | .timeWait => s.enterTimeWait now
  | _ => s

/-- A FIN with the sequence number `finSeq`. -/
def processFin (now : ℕ) (finSeq : Seq) : SockM Unit := do
  let s ← gets id
  if tcpSeqLt finSeq s.rcvNxt then do
    tcpSendAck now
    modify fun s => if s.state=.timeWait then s.enterTimeWait now else s
  else if finSeq=s.rcvNxt then do
    modify fun s => {s with rcvNxt := s.rcvNxt+1, rxClosed := true}
    tcpSendAck now
    modify (Sock.finReceived now)
  else tcpSendAck now

/-- `process_tcp_established` for a segment without RST, after the window was noted. -/
def processSegment (now : ℕ) (g : Segment) : SockM Unit := do
  let go ← if g.flags.ack then processAck now g.ack else pure true
  when go do
    match (← processPayload now g.seq g.payload) with
    | some finSeq => when g.flags.fin <| processFin now finSeq
    | none => pure ()

/-- `tcp_on_rst`, without the release of a connection that nobody accepted. -/
def Sock.onRst (s : Sock) : Sock :=
  let s := socketSetError (if s.state=.synSent ∨ s.state=.synRecv then 111 else 104) s
  {s with error := true, rxClosed := true, state := .closed, txSeg := none}

lemma Sock.onRst_eq (s : Sock) : s.onRst={s with
    lastError := s.onRst.lastError
    error := true
    rxClosed := true
    state := .closed
    txSeg := none} := by
  unfold Sock.onRst
  rw [socketSetError_eq]

/-- The retransmission of `tcp_tick`. -/
def tickResend (now : ℕ) (tx : TxSeg) : SockM Unit := do
  let s ← gets id
  let flags := if tx.flags.syn || tx.flags.fin || 0<tx.data.length then {tx.flags with ack := true}
    else tx.flags
  if (← tcpSendSegment now flags tx.seq s.rcvNxt tx.data true) then
    modify fun s => {s with txSeg := s.txSeg.map fun t => {t with sentTick := now, retries := t.retries+1}}
  else pure ()

/-- `net_socket_shutdown`; `rd` and `wr` say which directions. -/
def netSocketShutdown (now : ℕ) (rd wr : Bool) : SockM ℤ := do
  let s ← gets id
  if !s.used ∨ s.proto≠.tcp then pure (-22)
  else if s.state=.listen ∨ (s.state=.closed ∧ !s.error ∧ s.peerPort=0) then pure (-107)
  else do
    when rd <| modify fun s => {s with appShutRd := true, rx := .reset (by decide) s.rx.buf}
    when wr do
      modify fun s => {s with appShutWr := true}
      let s ← gets id
      if s.txSeg.isSome then modify fun s => {s with finPending := true}
      else when (s.state=.established || s.state=.closeWait) do
        let _ ← tcpSendFinNow now
    pure 0

/-- `tcp_rx_read` -/
def tcpRxRead (len : ℕ) : SockM (ℤ × Bytes) := do
  let s ← gets id
  modify fun s => {s with rx := (s.rx.read len).2}
  pure (((s.rx.read len).1.length : ℤ),(s.rx.read len).1)

/-- `net_socket_read`: the return value and the bytes. -/
def netSocketRead (len : ℕ) (nonblock : Bool) : SockM (ℤ × Bytes) := do
  let s ← gets id
  if !s.used ∨ s.proto≠.tcp then pure (-22,[])
  else if s.appShutRd then pure (0,[])
  else if s.rx.len=0 then do
    if nonblock then pure () else let _ ← callOut .pump
    let s ← gets id
    if s.error then pure (-socketErrorOr s 104,[])
    else if s.rxClosed ∨ s.state=.closed then pure (0,[])
    else if 0<s.rx.len then tcpRxRead len
    else pure (if nonblock then -11 else -2,[])
  else tcpRxRead len

/-- The end of `net_socket_write`: send as much as one segment and the window of the peer take. -/
def writeChunk (now : ℕ) (buf : Bytes) (nonblock : Bool) : SockM ℤ := do
  let s ← gets id
  let chunk := buf.take (min tcpMaxPayload s.peerWnd)
  if chunk.length=0 then pure (if nonblock then -11 else -2)
  else if (← tcpSendSegment now .pshAck s.sndNxt s.rcvNxt chunk false) then do
    modify fun s => {s with sndNxt := s.sndNxt+BitVec.ofNat 32 chunk.length}
    pure chunk.length
  else pure (-101)

/-- One pass of `net_socket_write`, with the call of itself that may follow `net_pump`. -/
def writeOnce (now : ℕ) (buf : Bytes) (nonblock : Bool) (again : SockM ℤ) : SockM ℤ := do
  let s ← gets id
  if !s.used ∨ s.proto≠.tcp then pure (if buf.length=0 then 0 else -22)
  else if s.error then pure (-socketErrorOr s 32)
  else if s.appShutWr then pure (-32)
  else if s.state≠.established ∧ s.state≠.closeWait then pure (-107)
  else if s.txSeg.isSome ∧ nonblock then pure (-11)
  else if s.txSeg.isSome then do
    let _ ← callOut .pump
    let s ← gets id
    if s.txSeg.isNone then again else pure (-2)
  else if s.peerWnd=0 ∧ nonblock then pure (-11)
  else if s.peerWnd=0 then do
    let _ ← callOut .pump
    let s ← gets id
    if s.error then pure (-socketErrorOr s 104)
    else if s.peerWnd≠0 then again else pure (-2)
  else writeChunk now buf nonblock

/-- `net_socket_write`, cut off after `depth` calls of itself. -/
def netSocketWrite (now : ℕ) (buf : Bytes) (nonblock : Bool) : ℕ → SockM ℤ
  | 0 => writeOnce now buf nonblock (pure (-2))
  | depth+1 => writeOnce now buf nonblock (netSocketWrite now buf nonblock depth)

end FuriOS
