import FuriOS.Lib.OnesComplement
import FuriOS.Net.Socket

/-! The packets of `kernel/net.c` on their way out: routing, headers and checksums, and what is
handed to the Ethernet device or to the loopback interface. -/
namespace FuriOS
open OnesComplement

abbrev netMtu : ℕ := 1500
abbrev netUdpPayloadMax : ℕ := 1472
abbrev netLoopbackIp : ℕ := 0x7F000001
abbrev limitedBroadcast : ℕ := 0xFFFFFFFF
abbrev ipProtoTcp : ℕ := 6
abbrev ipProtoUdp : ℕ := 17

structure NetIf where
  up : Bool
  loopback : Bool
  /-- `dev_index`, if the interface has a device -/
  dev : Option ℕ
  addr : ℕ

structure NetRoute where
  net : ℕ
  mask : ℕ
  gw : ℕ
  ifIndex : ℕ

/-- `g_ifaces` and the used entries of `g_routes` -/
structure Routing where
  ifaces : List NetIf
  routes : List NetRoute

structure RouteResult where
  isLocal : Bool
  ifIndex : ℕ
  dev : Option ℕ
  srcIp : ℕ
  nextHop : ℕ

def isLoopbackIp (ip : ℕ) : Bool := ip &&& 0xFF000000=0x7F000000

def ipInSubnet (ip net mask : ℕ) : Bool := ip &&& mask=net &&& mask

def maskPrefixLen (mask : ℕ) : ℕ := ((List.range 32).takeWhile fun k => mask.testBit (31-k)).length

namespace Routing

def ipIsAnyLocal (T : Routing) (ip : ℕ) : Bool :=
  isLoopbackIp ip || T.ifaces.any fun i => i.up && i.addr≠0 && i.addr=ip

def ifaceSrcIpForDst (i : NetIf) (dst : ℕ) : ℕ :=
  if i.loopback || isLoopbackIp dst then netLoopbackIp else i.addr

/-- The route with the longest mask, the first of several. -/
def bestRoute (T : Routing) (dst : ℕ) : Option (NetRoute × NetIf) :=
  T.routes.foldl (fun best r =>
    match T.ifaces[r.ifIndex]? with
    | none => best
    | some i =>
      if i.up && ipInSubnet dst r.net r.mask
        && best.all (fun b => maskPrefixLen b.1.mask < maskPrefixLen r.mask) then some (r,i)
      else best) none

def routeLookup (T : Routing) (dst : ℕ) : Option RouteResult :=
  match T.ifaces.findIdx? NetIf.loopback,T.ipIsAnyLocal dst with
  | some k,true => some ⟨true,k,none,netLoopbackIp,dst⟩
  | _,_ => (T.bestRoute dst).map fun (r,i) =>
      ⟨i.loopback,r.ifIndex,i.dev,ifaceSrcIpForDst i dst,if r.gw≠0 then r.gw else dst⟩

def pickBroadcastIface (T : Routing) (bindIp : ℕ) : Option RouteResult :=
  let fits (i : NetIf) := i.up && !i.loopback && i.dev.isSome && (bindIp=0 || i.addr=bindIp)
  (T.ifaces.findIdx? fits).bind fun k =>
    T.ifaces[k]?.map fun i => ⟨false,k,i.dev,i.addr,limitedBroadcast⟩

def route (T : Routing) (src dst : ℕ) : Option RouteResult :=
  if dst=limitedBroadcast then T.pickBroadcastIface src else T.routeLookup dst

/-- A packet is looked at only if its destination is an address of this machine. -/
def accepts (T : Routing) (dst : ℕ) : Bool := T.ipIsAnyLocal dst || dst=limitedBroadcast

lemma ne_zero_of_accepts {T : Routing} {dst : ℕ} (h : T.accepts dst) : dst≠0 := by
  rintro rfl
  simp [accepts,ipIsAnyLocal,isLoopbackIp] at h
  obtain ⟨i,-,⟨-,h0⟩,h1⟩ := h
  exact h0 h1

end Routing

/-- The bytes of a 16-bit number, high byte first. -/
def be16 (n : ℕ) : Bytes := [UInt8.ofNat (n/256),UInt8.ofNat n]

def be32 (n : ℕ) : Bytes := be16 (n/65536)++be16 n

@[simp] lemma length_be16 (n : ℕ) : (be16 n).length=2 := by simp [be16]

@[simp] lemma length_be32 (n : ℕ) : (be32 n).length=4 := by simp [be32]

@[simp] lemma wordSum_be16 (n : ℕ) : wordSum (be16 n)=n%65536 := by
  simp only [be16,wordSum,UInt8.toNat_ofNat']
  omega

def addrSum (ip : ℕ) : ℕ := ip/65536%65536+ip%65536

@[simp] lemma wordSum_be32 (n : ℕ) : wordSum (be32 n)=addrSum n := by
  rw [be32,wordSum_append _ (by simp),wordSum_be16,wordSum_be16,addrSum]

def checksum16 (data : Bytes) : ℕ := 65535-fold16 (wordSum data%2^32)

/-- The addresses, the protocol and the length as the checksums of the payload see them. -/
def pseudoHeader (src dst proto len : ℕ) : Bytes :=
  be32 src++be32 dst++[0,UInt8.ofNat proto]++be16 len

@[simp] lemma wordSum_pseudoHeader (src dst proto len : ℕ) :
    wordSum (pseudoHeader src dst proto len)=addrSum src+addrSum dst+proto%256+len%65536 := by
  simp [pseudoHeader,wordSum_append,wordSum]
  omega

def ipv4L4Checksum (src dst proto : ℕ) (payload : Bytes) : ℕ :=
  65535-fold16 ((wordSum (pseudoHeader src dst proto payload.length)+wordSum payload)%2^32)

structure IpPacket where
  src : ℕ
  dst : ℕ
  proto : ℕ
  id : ℕ
  payload : Bytes
  deriving DecidableEq

namespace IpPacket
variable (p : IpPacket)

def headerWith (csum : ℕ) : Bytes :=
  [0x45,0]++be16 (20+p.payload.length)++be16 p.id++be16 0x4000++[64,UInt8.ofNat p.proto]++be16 csum
    ++be32 p.src++be32 p.dst

def header : Bytes := p.headerWith (checksum16 (p.headerWith 0))

/-- Both checksums are right for the addresses in the header. -/
def Checked : Prop :=
  fold16 (wordSum p.header)=65535 ∧
    fold16 (wordSum (pseudoHeader p.src p.dst p.proto p.payload.length)+wordSum p.payload)=65535

lemma wordSum_headerWith (c : ℕ) : wordSum (p.headerWith c)=wordSum (p.headerWith 0)+c%65536 := by
  simp [headerWith,wordSum_append,wordSum]
  omega

lemma header_checked : fold16 (wordSum p.header)=65535 := by
  have hle := wordSum_le (p.headerWith 0)
  have hpos : 0<wordSum (p.headerWith 0) := by
    simp [headerWith,wordSum_append,wordSum]
  have hlen : (p.headerWith 0).length=20 := rfl
  have hmod := add_complement_mod (wordSum (p.headerWith 0))
  rw [header,wordSum_headerWith,fold16_eq_ones (by omega),checksum16,Nat.mod_eq_of_lt (b := 2^32) (by omega)]
  omega

end IpPacket

/-- A packet on its way out. -/
inductive OutPacket
  | loopback (p : IpPacket)
  | ethernet (dev : Option ℕ) (p : IpPacket)
  deriving DecidableEq

def OutPacket.packet : OutPacket → IpPacket
  | loopback p => p
  | ethernet _ p => p

/-- What the rest of the machine answers: whether an address is resolved on an interface, whether a
device takes a frame, and the random number for the next packet. -/
structure Wire where
  resolveArp : ℕ → ℕ → Bool
  netdevSend : ℕ → IpPacket → Bool
  rand : ℕ

/-- `send_ipv4_l4_ex` up to the point where the packet is handed on -/
def sendIpv4L4Ex (T : Routing) (W : Wire) (proto src dst : ℕ) (payload : Bytes)
    (preserveZeroSrc : Bool) : Option OutPacket :=
  if netMtu<payload.length then none
  else match T.route src dst with
    | none => none
    | some r =>
      let p : IpPacket := ⟨if src=0 && !preserveZeroSrc then r.srcIp else src,dst,proto,W.rand,payload⟩
      if r.isLocal then some (.loopback p)
      else if T.ifaces.length≤r.ifIndex then none
      else if dst=limitedBroadcast || W.resolveArp r.ifIndex r.nextHop then some (.ethernet r.dev p)
      else none

/-- `send_ethernet` -/
def sendEthernet (W : Wire) (dev : Option ℕ) (p : IpPacket) : Bool :=
  20+p.payload.length≤netMtu && dev.any fun d => W.netdevSend d p

/-- The result of `send_ipv4_l4_ex`. -/
def OutPacket.sent (W : Wire) : OutPacket → Bool
  | loopback _ => true
  | ethernet dev p => sendEthernet W dev p

def udpHeader (srcPort dstPort len csum : ℕ) : Bytes :=
  be16 srcPort++be16 dstPort++be16 (8+len)++be16 csum

def udpCsum (src dst srcPort dstPort : ℕ) (payload : Bytes) : ℕ :=
  let c := ipv4L4Checksum src dst ipProtoUdp (udpHeader srcPort dstPort payload.length 0++payload)
  if c=0 then 0xFFFF else c

def sendUdpIpv4 (T : Routing) (W : Wire) (src dst dstPort srcPort : ℕ) (payload : Bytes) :
    Option OutPacket :=
  if netUdpPayloadMax<payload.length then none
  else sendIpv4L4Ex T W ipProtoUdp src dst (udpHeader srcPort dstPort payload.length
    (udpCsum src dst srcPort dstPort payload)++payload) (src=0)

def TcpFlags.bits (f : TcpFlags) : ℕ :=
  f.fin.toNat+2*f.syn.toNat+4*f.rst.toNat+8*f.psh.toNat+16*f.ack.toNat

namespace Segment
variable (g : Segment)

def header (csum : ℕ) : Bytes :=
  be16 g.srcPort++be16 g.dstPort++be32 g.seq.toNat++be32 g.ack.toNat++be16 (0x5000+g.flags.bits)
    ++be16 g.window++be16 csum++be16 0

lemma wordSum_header (c : ℕ) (l : Bytes) :
    wordSum (g.header c++l)=wordSum (g.header 0++l)+c%65536 := by
  simp [header,wordSum_append]
  omega

/-- The bytes of the segment, with the checksum for the source address `src`. -/
def bytesFor (src : ℕ) : Bytes :=
  g.header (ipv4L4Checksum src g.dstIp ipProtoTcp (g.header 0++g.payload))++g.payload

/-- The address that `tcp_send_segment` computes the checksum for. -/
def guessedSrc : ℕ := if g.srcIp≠0 then g.srcIp else netLoopbackIp

end Segment

/-- The packet of `tcp_send_segment`. -/
def sendSegmentPacket (T : Routing) (W : Wire) (g : Segment) : Option OutPacket :=
  sendIpv4L4Ex T W ipProtoTcp g.srcIp g.dstIp (g.bytesFor g.guessedSrc) false

/-- The packet of `tcp_send_reply_raw`. -/
def sendReplyPacket (T : Routing) (W : Wire) (g : Segment) : Option OutPacket :=
  sendIpv4L4Ex T W ipProtoTcp g.srcIp g.dstIp (g.bytesFor g.srcIp) false

section Checksums
variable {T : Routing} {W : Wire} {src dst guess proto c : ℕ} {body body0 payload : Bytes} {x : OutPacket}

lemma addrSum_le (ip : ℕ) : addrSum ip≤131070 := by
  unfold addrSum
  omega

variable (src dst proto body) in
lemma ipv4L4Checksum_lt : ipv4L4Checksum src dst proto body<65536 := by
  unfold ipv4L4Checksum
  omega

variable (src dst proto) in
lemma ipv4L4Checksum_mod (h : body.length≤1500) :
    (addrSum src+addrSum dst+proto%256+body.length%65536+wordSum body
      +ipv4L4Checksum src dst proto body)%65535=0 := by
  have hs := addrSum_le src
  have hd := addrSum_le dst
  have hb := wordSum_le body
  rw [ipv4L4Checksum,wordSum_pseudoHeader,Nat.mod_eq_of_lt (b := 2^32) (by omega)]
  exact add_complement_mod _

variable (guess c body0) in
lemma transport_checked_iff (hsum : wordSum body=wordSum body0+c) (hlen : body.length=body0.length)
    (hmtu : body.length≤netMtu) (hproto : 0<proto%256)
    (hc : c%65535=ipv4L4Checksum guess dst proto body0%65535) :
    fold16 (wordSum (pseudoHeader src dst proto body.length)+wordSum body)=65535 ↔
      addrSum src%65535=addrSum guess%65535 := by
  have hmod := ipv4L4Checksum_mod guess dst proto (hlen ▸ hmtu)
  rw [wordSum_pseudoHeader,fold16_eq_ones (by omega),hsum,hlen]
  omega

lemma sendIpv4L4Ex_eq_some {keep : Bool} (h : sendIpv4L4Ex T W proto src dst payload keep=some x) :
    payload.length≤netMtu ∧ ∃ r, T.route src dst=some r ∧
      x.packet=⟨if src=0 && !keep then r.srcIp else src,dst,proto,W.rand,payload⟩ := by
  unfold sendIpv4L4Ex at h
  by_cases hlen : netMtu<payload.length
  · simp [hlen] at h
  rw [if_neg hlen] at h
  cases hr : T.route src dst with
  | none => simp [hr] at h
  | some r =>
    refine ⟨by omega,r,rfl,?_⟩
    simp only [hr] at h
    generalize (if (src=0 && !keep) then r.srcIp else src)=ip at h ⊢
    split_ifs at h <;> cases h <;> rfl

lemma udp_checked {dstPort srcPort : ℕ} (h : sendUdpIpv4 T W src dst dstPort srcPort payload=some x) :
    x.packet.Checked := by
  unfold sendUdpIpv4 at h
  split_ifs at h
  obtain ⟨hlen,r,-,hx⟩ := sendIpv4L4Ex_eq_some h
  have hlt := ipv4L4Checksum_lt src dst ipProtoUdp
    (udpHeader srcPort dstPort payload.length 0++payload)
  have hc : udpCsum src dst srcPort dstPort payload<65536 := by
    unfold udpCsum
    dsimp only
    split_ifs <;> omega
  refine ⟨x.packet.header_checked,?_⟩
  rw [hx]
  -- a source address of zero stays
  have hsrc : (if (src=0 && !decide (src=0)) then r.srcIp else src)=src := by simp
  rw [hsrc]
  refine (transport_checked_iff src (udpCsum src dst srcPort dstPort payload)
    (udpHeader srcPort dstPort payload.length 0++payload) ?_ ?_ hlen (show 0<17%256 by decide) ?_).2 rfl
  · simp [udpHeader,wordSum_append]
    omega
  · simp [udpHeader]
  · unfold udpCsum
    dsimp only
    split_ifs with h0 <;> simp [h0]

variable (guess) in
lemma segment_checked_iff {g : Segment}
    (h : sendIpv4L4Ex T W ipProtoTcp g.srcIp g.dstIp (g.bytesFor guess) false=some x) :
    x.packet.Checked ↔ addrSum x.packet.src%65535=addrSum guess%65535 := by
  obtain ⟨hlen,r,-,hx⟩ := sendIpv4L4Ex_eq_some h
  have hlt := ipv4L4Checksum_lt guess g.dstIp ipProtoTcp (g.header 0++g.payload)
  rw [IpPacket.Checked,and_iff_right x.packet.header_checked,hx]
  refine transport_checked_iff _ (ipv4L4Checksum guess g.dstIp ipProtoTcp (g.header 0++g.payload))
    (g.header 0++g.payload) ?_ ?_ hlen (show 0<6%256 by decide) rfl
  · rw [Segment.bytesFor,Segment.wordSum_header,Nat.mod_eq_of_lt hlt]
  · simp [Segment.bytesFor,Segment.header]

/-- The packets of UDP and TCP: a datagram, the answer to a segment that no socket takes, and a
segment of a socket. -/
inductive Outgoing
  | udp (src dst dstPort srcPort : ℕ) (payload : Bytes)
  | reply (g : Segment)
  | segment (s : Sock) (flags : TcpFlags) (seq ack : Seq) (payload : Bytes)

namespace Outgoing

def handed (T : Routing) (W : Wire) : Outgoing → Option OutPacket
  | udp src dst dstPort srcPort payload => sendUdpIpv4 T W src dst dstPort srcPort payload
  | reply g => sendReplyPacket T W g
  | segment s flags seq ack payload => sendSegmentPacket T W (s.segment flags seq ack payload)

/-- An answer goes out from the destination of a segment that was looked at. -/
def Possible (T : Routing) : Outgoing → Prop
  | reply g => T.accepts g.srcIp
  | _ => True

/-- The socket is bound to an address, or the route has a source address with the sum of the
loopback address. -/
def SourceKnown (T : Routing) : Outgoing → Prop
  | segment s _ _ _ _ => s.bindIp≠0 ∨
      ∃ r, T.route 0 s.peerIp=some r ∧ addrSum r.srcIp%65535=addrSum netLoopbackIp%65535
  | _ => True

end Outgoing

/-- The checksums of every packet handed on are right, except for the segments of a socket bound to
any address whose route has another source address than the loopback address. -/
theorem checksums_right_iff {o : Outgoing} (ho : o.Possible T) (h : o.handed T W=some x) :
    x.packet.Checked ↔ o.SourceKnown T := by
  cases o with
  | udp src dst dstPort srcPort payload => exact iff_of_true (udp_checked h) trivial
  | reply g =>
    obtain ⟨-,r,-,hx⟩ := sendIpv4L4Ex_eq_some h
    refine iff_of_true ((segment_checked_iff _ h).2 ?_) trivial
    simp [hx,Routing.ne_zero_of_accepts ho]
  | segment s flags seq ack payload =>
    obtain ⟨-,r,hr,hx⟩ := sendIpv4L4Ex_eq_some h
    rw [segment_checked_iff _ h,hx]
    by_cases h0 : s.bindIp=0
    · have hr0 : T.route 0 s.peerIp=some r := by simpa [Sock.segment,h0] using hr
      simp [Outgoing.SourceKnown,Segment.guessedSrc,Sock.segment,h0,hr0]
    · simp [Outgoing.SourceKnown,Segment.guessedSrc,Sock.segment,h0]

/-- A machine with the address 10.0.2.15 behind the gateway 10.0.2.2. -/
def guestRouting : Routing :=
  ⟨[⟨true,true,none,netLoopbackIp⟩,⟨true,false,some 0,0x0A00020F⟩],
    [⟨0x7F000000,0xFF000000,0,0⟩,⟨0x0A000200,0xFFFFFF00,0,1⟩,⟨0,0,0x0A000202,1⟩]⟩

def openWire : Wire := ⟨fun _ _ => true,fun _ _ => true,7⟩

/-- A socket with the address `ip` that connects to port 80 of the gateway. -/
def guestSock (ip : ℕ) : Sock := {Sock.zero with
  used := true
  proto := .tcp
  bound := true
  bindIp := ip
  bindPort := 5000
  peerIp := 0x0A000202
  peerPort := 80
  state := .synSent}

theorem checksum_wrong_when_bound_to_any : ∃ x,
    (Outgoing.segment (guestSock 0) .onlySyn 0 0 []).handed guestRouting openWire=some x ∧
      ¬x.packet.Checked := by
  refine ⟨_,rfl,?_⟩
  rw [segment_checked_iff ((guestSock 0).segment .onlySyn 0 0 []).guessedSrc (T := guestRouting)
    (W := openWire) (g := (guestSock 0).segment .onlySyn 0 0 []) rfl]
  decide

theorem checksums_right_when_bound : ∃ x,
    (Outgoing.segment (guestSock 0x0A00020F) .onlySyn 0 0 []).Possible guestRouting ∧
      (Outgoing.segment (guestSock 0x0A00020F) .onlySyn 0 0 []).handed guestRouting openWire=some x ∧
      x.packet.Checked :=
  have h : (Outgoing.segment (guestSock 0x0A00020F) .onlySyn 0 0 []).handed guestRouting openWire=some _ := rfl
  ⟨_,trivial,h,(checksums_right_iff (by trivial) h).2 (Or.inl (by decide))⟩

end Checksums

section Write
open Reentrant Reentrant.Act
variable {T : Routing} {W : Wire} {r : RouteResult} {s : Sock} {buf : Bytes} {g : Segment}

/-- A working route: the packets either stay in the machine or leave through a device that takes
every frame. -/
structure Routing.Works (T : Routing) (W : Wire) (src dst : ℕ) (r : RouteResult) : Prop where
  route : T.route src dst=some r
  wayOut : r.isLocal ∨ r.ifIndex<T.ifaces.length ∧
    (dst=limitedBroadcast ∨ W.resolveArp r.ifIndex r.nextHop) ∧
    ∃ d, r.dev=some d ∧ ∀ p : IpPacket, 20+p.payload.length≤netMtu → W.netdevSend d p

/-- The result of `send_ipv4_l4` for a segment. -/
def transmits (T : Routing) (W : Wire) (g : Segment) : Bool :=
  (sendSegmentPacket T W g).any (OutPacket.sent W)

lemma transmits_iff (h : T.Works W g.srcIp g.dstIp r) (hlen : g.payload.length≤tcpMaxPayload) :
    transmits T W g ↔ r.isLocal ∨ g.payload.length≤1460 := by
  have hbytes : (g.bytesFor g.guessedSrc).length=20+g.payload.length := by
    simp [Segment.bytesFor,Segment.header]
    omega
  have hfit : 20+(20+g.payload.length)≤netMtu ↔ g.payload.length≤1460 := by
    show _≤1500 ↔ _
    omega
  have hmtu : ¬netMtu<(g.bytesFor g.guessedSrc).length := by
    rw [hbytes]
    exact not_lt.2 (Nat.add_le_add_left hlen 20)
  simp only [transmits,sendSegmentPacket,sendIpv4L4Ex,if_neg hmtu,h.route]
  by_cases hl : r.isLocal
  · simp [hl,OutPacket.sent]
  · obtain ⟨hi,ha,d,hd,hsend⟩ := h.wayOut.resolve_left hl
    have ha' : (decide (g.dstIp=limitedBroadcast) || W.resolveArp r.ifIndex r.nextHop)=true := by
      simpa using ha
    simp only [hl,ha',Nat.not_le.2 hi,hd]
    by_cases hp : g.payload.length≤1460
    · have hsent := hsend ⟨if g.srcIp=0 && !false then r.srcIp else g.srcIp,g.dstIp,ipProtoTcp,W.rand,
        g.bytesFor g.guessedSrc⟩ (by simpa only [hbytes] using hfit.2 hp)
      simpa [OutPacket.sent,sendEthernet,hbytes,hfit.2 hp,hp] using hsent
    · simpa [OutPacket.sent,sendEthernet,hbytes,hp] using fun h => absurd (hfit.1 h) hp

/-- A socket that can take data: connected, without an error or a segment in flight, and with an
open window. -/
structure Sock.CanWrite (s : Sock) : Prop where
  used : s.used
  proto : s.proto=.tcp
  state : s.state=.established ∨ s.state=.closeWait
  error : s.error=false
  idle : s.txSeg=none
  window : s.peerWnd≠0

def answers (T : Routing) (W : Wire) (pumped : Bool) : SockCall → Bool
  | .send g => transmits T W g
  | .pump => pumped

/-- A write sends one segment with the first `n` bytes and returns `n`. -/
def WritesSome (T : Routing) (W : Wire) (s : Sock) (buf : Bytes) (done : List SockCall × ℤ) : Prop :=
  ∃ n g, 1≤n ∧ n ≤ min buf.length s.peerWnd ∧ g.payload=buf.take n ∧ transmits T W g ∧
    done=([.send g],(n:ℤ))

section Trace
variable {now : ℕ} {nonblock : Bool} {answer : SockCall → Bool} {during : SockCall → Sock → Sock}

lemma netSocketWrite_trace (hs : s.CanWrite) (depth : ℕ) :
    (netSocketWrite now buf nonblock depth).trace answer during s=
      if s.appShutWr then ([],-32) else (writeChunk now buf nonblock).trace answer during s := by
  have hstate : ¬(s.state≠.established ∧ s.state≠.closeWait) := by
    have := hs.state
    tauto
  cases depth <;> cases hw : s.appShutWr <;>
    simp [netSocketWrite,writeOnce,hs.used,hs.proto,hs.error,hs.idle,hs.window,hstate,hw]

lemma writeChunk_trace (hproto : s.proto=.tcp) (hwnd : s.peerWnd≠0) (hbuf : buf≠[]) :
    let g := s.segment .pshAck s.sndNxt s.rcvNxt (buf.take (min tcpMaxPayload s.peerWnd))
    (writeChunk now buf nonblock).trace answer during s=
      ([.send g],if answer (.send g) then (g.payload.length:ℤ) else -101) := by
  intro g
  have hne : buf.take (min tcpMaxPayload s.peerWnd)≠[] := by simp [hbuf,hwnd]
  have hle : ¬tcpMaxPayload<(buf.take (min tcpMaxPayload s.peerWnd)).length := by simp
  unfold writeChunk
  simp only [trace_gets,id_eq,g]
  generalize buf.take (min tcpMaxPayload s.peerWnd)=chunk at hne hle
  have hpos : 0<chunk.length := List.length_pos_of_ne_nil hne
  cases ha : answer (.send (s.segment .pshAck s.sndNxt s.rcvNxt chunk)) with
  | false => simp [tcpSendSegment,hproto,hne,hle,hpos,bind_assoc,when,ha]
  | true =>
    simp [tcpSendSegment,hproto,hne,hle,hpos,bind_assoc,when,ha]
    rfl

/-- The segment that a write of `buf` sends. -/
def Sock.nextSegment (s : Sock) (buf : Bytes) : Segment :=
  s.segment .pshAck s.sndNxt s.rcvNxt (buf.take (min tcpMaxPayload s.peerWnd))

lemma writesSome_iff {pumped : Bool} (hs : s.CanWrite) (hbuf : buf≠[]) (depth : ℕ) :
    WritesSome T W s buf ((netSocketWrite now buf nonblock depth).trace (answers T W pumped) during s) ↔
      s.appShutWr=false ∧ transmits T W (s.nextSegment buf) := by
  rw [netSocketWrite_trace hs]
  cases hw : s.appShutWr with
  | true => simp [WritesSome]
  | false =>
    rw [if_neg (by simp),writeChunk_trace hs.proto hs.window hbuf]
    by_cases ht : transmits T W (s.nextSegment buf)
    · have hpos : 0<buf.length := List.length_pos_of_ne_nil hbuf
      have hwnd := hs.window
      refine iff_of_true ⟨min (min tcpMaxPayload s.peerWnd) buf.length,s.nextSegment buf,?_,?_,?_,ht,?_⟩ ⟨rfl,ht⟩
      · simp only [tcpMaxPayload]
        omega
      · omega
      · show buf.take _=_
        simp
      · show (_,if transmits T W (s.nextSegment buf) then _ else _)=_
        rw [if_pos ht]
        show (_,((buf.take _).length:ℤ))=_
        rw [List.length_take]
        rfl
    · refine iff_of_false ?_ fun h => ht h.2
      rintro ⟨n,g,-,-,-,hg,h⟩
      have hsend : s.nextSegment buf=g := by
        simpa [Sock.nextSegment] using (Prod.mk.inj h).1
      exact ht (hsend ▸ hg)

/-- A write to a socket that can take data sends a segment exactly if writing was not shut down and
the data that one segment would carry fits into a frame, or stays in the machine. -/
theorem write_sends_iff {pumped : Bool} (hs : s.CanWrite) (hbuf : buf≠[])
    (hT : T.Works W s.bindIp s.peerIp r) (depth : ℕ) :
    WritesSome T W s buf ((netSocketWrite now buf nonblock depth).trace (answers T W pumped) during s) ↔
      s.appShutWr=false ∧ (r.isLocal ∨ min buf.length s.peerWnd≤1460) := by
  have hsent := transmits_iff (g := s.nextSegment buf) hT (by simp [Sock.nextSegment,Sock.segment])
  have hfit : (s.nextSegment buf).payload.length≤1460 ↔ min buf.length s.peerWnd≤1460 := by
    show (buf.take _).length≤1460 ↔ _
    simp only [List.length_take,tcpMaxPayload]
    omega
  rw [writesSome_iff hs hbuf,hsent,hfit]

end Trace

def guestConnected : Sock := {guestSock 0x0A00020F with
  state := .established
  peerWnd := 2048}

lemma guestConnected_canWrite : guestConnected.CanWrite := ⟨rfl,rfl,.inl rfl,rfl,rfl,by decide⟩

lemma guestRouting_works : guestRouting.Works openWire 0x0A00020F 0x0A000202
    ⟨false,1,some 0,0x0A00020F,0x0A000202⟩ :=
  ⟨rfl,.inr ⟨by decide,.inr rfl,0,rfl,fun _ _ => rfl⟩⟩

/-- One byte more than fits into a frame with the two headers. -/
def longBuf : Bytes := List.replicate 1461 0

lemma length_longBuf : longBuf.length=1461 := List.length_replicate

theorem write_of_1461_bytes_fails : guestConnected.CanWrite ∧
    guestRouting.Works openWire 0x0A00020F 0x0A000202 ⟨false,1,some 0,0x0A00020F,0x0A000202⟩ ∧
    ¬WritesSome guestRouting openWire guestConnected longBuf
      ((netSocketWrite 0 longBuf false 0).trace (answers guestRouting openWire true) (fun _ => id)
        guestConnected) := by
  have hlen : (guestConnected.nextSegment longBuf).payload.length=1461 := by
    show (longBuf.take _).length=_
    rw [List.length_take,length_longBuf]
    rfl
  refine ⟨guestConnected_canWrite,guestRouting_works,?_⟩
  rw [writesSome_iff guestConnected_canWrite (List.ne_nil_of_length_pos (by simp [length_longBuf])),
    transmits_iff (r := ⟨false,1,some 0,0x0A00020F,0x0A000202⟩) guestRouting_works (by rw [hlen]; decide),hlen]
  decide

theorem write_of_5_bytes_sends : guestConnected.CanWrite ∧
    WritesSome guestRouting openWire guestConnected (List.replicate 5 0)
      ((netSocketWrite 0 (List.replicate 5 0) false 0).trace (answers guestRouting openWire true)
        (fun _ => id) guestConnected) :=
  ⟨guestConnected_canWrite,
    (write_sends_iff guestConnected_canWrite (by decide) guestRouting_works 0).2 ⟨rfl,.inr (by decide)⟩⟩

end Write

end FuriOS
