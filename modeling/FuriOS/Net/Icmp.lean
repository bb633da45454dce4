import FuriOS.Net.Packet

/-! `process_ipv4` of `kernel/net.c`: what the stack does with a packet that has arrived, and what
becomes of an echo request. -/
namespace FuriOS
open OnesComplement

abbrev ipProtoIcmp : ℕ := 1
abbrev icmpEchoReply : UInt8 := 0
abbrev icmpEchoRequest : UInt8 := 8

def be16At (l : Bytes) (k : ℕ) : ℕ := (l.getD k 0).toNat*256+(l.getD (k+1) 0).toNat

def be32At (l : Bytes) (k : ℕ) : ℕ := be16At l k*65536+be16At l (k+2)

def icmpWith (kind : UInt8) (csum id seq : ℕ) (data : Bytes) : Bytes :=
  [kind,0]++be16 csum++be16 id++be16 seq++data

/-- An ICMP message with its checksum. -/
def icmpMessage (kind : UInt8) (id seq : ℕ) (data : Bytes) : Bytes :=
  icmpWith kind (checksum16 (icmpWith kind 0 id seq data)) id seq data

lemma icmpMessage_checked {kind : UInt8} {data : Bytes} (id seq : ℕ) (hlen : data.length≤netMtu)
    (hpos : 0<wordSum data) : fold16 (wordSum (icmpMessage kind id seq data))=65535 := by
  have hsum : ∀ c, wordSum (icmpWith kind c id seq data)=wordSum (icmpWith kind 0 id seq data)+c%65536 := by
    intro c
    simp [icmpWith,wordSum_append,wordSum]
    omega
  have h0 : wordSum data≤wordSum (icmpWith kind 0 id seq data) := by
    simp [icmpWith,wordSum_append,wordSum]
    omega
  have hle := wordSum_le (icmpWith kind 0 id seq data)
  have hl : (icmpWith kind 0 id seq data).length=data.length+8 := by
    simp [icmpWith]
    omega
  have hmtu : data.length≤1500 := hlen
  have hmod := add_complement_mod (wordSum (icmpWith kind 0 id seq data))
  rw [icmpMessage,hsum,fold16_eq_ones (by omega),checksum16,Nat.mod_eq_of_lt (b := 2^32) (by omega)]
  omega

/-- The bytes `'A'` to `'H'`. -/
def echoData : Bytes := [65,66,67,68,69,70,71,72]

/-- The reply that `process_ipv4` builds for a request. -/
def echoReply (src dst id seq : ℕ) : IpPacket :=
  ⟨src,dst,ipProtoIcmp,seq,icmpMessage icmpEchoReply id seq echoData⟩

def IpPacket.bytes (p : IpPacket) : Bytes := p.header++p.payload

def ihl (packet : Bytes) : ℕ := (packet.getD 0 0).toNat%16*4

lemma echoReply_kind (src dst id seq : ℕ) :
    (echoReply src dst id seq).bytes.getD (ihl (echoReply src dst id seq).bytes) 0=icmpEchoReply := by
  have hfirst : (echoReply src dst id seq).bytes.getD 0 0=0x45 := rfl
  rw [ihl,hfirst]
  rfl

structure PingWait where
  active : Bool
  id : ℕ
  seq : ℕ
  replied : Bool
  rxTick : ℕ

structure IpState where
  /-- what `arp_update` was called with, the last call first -/
  arp : List (ℕ × Option ℕ × Bytes)
  ping : PingWait
  /-- the packets that were handed on, the last one first -/
  out : List OutPacket

/-- The bytes behind the header. -/
def l4 (packet : Bytes) : Bytes := (packet.drop (ihl packet)).take (be16At packet 2-ihl packet)

/-- The checks of `process_ipv4` on the header. -/
def Ipv4Header (packet : Bytes) : Prop :=
  20≤packet.length ∧ (packet.getD 0 0).toNat/16=4 ∧ 20 ≤ ihl packet ∧ ihl packet≤packet.length ∧
    ihl packet≤be16At packet 2 ∧ be16At packet 2≤packet.length

instance (packet : Bytes) : Decidable (Ipv4Header packet) := inferInstanceAs (Decidable (_ ∧ _))

def Routing.limitedBroadcastOn (T : Routing) (ifIndex : Option ℕ) (dst : ℕ) : Bool :=
  dst=limitedBroadcast && ifIndex.any fun k => T.ifaces[k]?.any fun i => i.up && !i.loopback

section Input
variable (T : Routing) (now : ℕ) (ifIndex : Option ℕ)
-- `process_udp` and `process_tcp`
variable (processUdp processTcp : Bytes → Bytes → Bool → IpState → IpState)

/-- A packet that `process_ipv4` hands to itself counts as handed to the loopback interface. -/
def processIpv4 (srcMac : Option Bytes) (packet : Bytes) (localInject : Bool) (st : IpState) :
    IpState :=
  let src := be32At packet 12
  let dst := be32At packet 16
  if ¬Ipv4Header packet then st
  else if !T.ipIsAnyLocal dst && !T.limitedBroadcastOn ifIndex dst then st
  else
    let st := if localInject then st
      else {st with arp := (srcMac.toList.map fun mac => (src,ifIndex,mac))++st.arp}
    if (packet.getD 9 0).toNat=ipProtoIcmp then
      let id := be16At packet (ihl packet+4)
      let seq := be16At packet (ihl packet+6)
      if (l4 packet).length<8 then st
      else if _h : packet.getD (ihl packet) 0=icmpEchoRequest then
        let reply := echoReply dst src id seq
        processIpv4 none reply.bytes true {st with out := .loopback reply::st.out}
      else if packet.getD (ihl packet) 0=icmpEchoReply && st.ping.active && id=st.ping.id
          && seq=st.ping.seq then
        {st with ping := {st.ping with replied := true, rxTick := now}}
      else st
    else if (packet.getD 9 0).toNat=ipProtoUdp then processUdp packet (l4 packet) localInject st
    else if (packet.getD 9 0).toNat=ipProtoTcp then processTcp packet (l4 packet) localInject st
    else st
termination_by if packet.getD (ihl packet) 0=icmpEchoRequest then 1 else 0
decreasing_by
  -- a reply is no request
  rw [if_pos _h,echoReply_kind]
  decide

variable {T now ifIndex processUdp processTcp}

lemma processIpv4_echoReply (src dst id seq : ℕ) (st : IpState) :
    (processIpv4 T now ifIndex processUdp processTcp none (echoReply src dst id seq).bytes true st).out =
      st.out := by
  have hproto : ((echoReply src dst id seq).bytes.getD 9 0).toNat=ipProtoIcmp := rfl
  have hkind : ¬icmpEchoReply=icmpEchoRequest := by decide
  rw [processIpv4]
  simp only [hproto,echoReply_kind,dif_neg hkind]
  split_ifs <;> rfl

/-- An echo request for an address of the machine. -/
structure EchoRequest (T : Routing) (packet : Bytes) : Prop where
  header : Ipv4Header packet
  proto : (packet.getD 9 0).toNat=ipProtoIcmp
  mine : T.ipIsAnyLocal (be32At packet 16)=true
  size : 8≤(l4 packet).length
  kind : packet.getD (ihl packet) 0=icmpEchoRequest

/-- A packet goes out on a device, or it is delivered to the machine itself. -/
def OutPacket.Leaves (T : Routing) : OutPacket → Prop
  | loopback p => T.ipIsAnyLocal p.dst=true
  | ethernet _ _ => True

/-- One of the packets is the reply to a request: it goes to the sender and has the identifier, the
sequence number and the data of the request, and both checksums are right. -/
def Answers (T : Routing) (packet : Bytes) (out : List OutPacket) : Prop :=
  ∃ x∈out, x.Leaves T ∧ x.packet.dst=be32At packet 12 ∧ x.packet.src=be32At packet 16 ∧
    x.packet.proto=ipProtoIcmp ∧ fold16 (wordSum x.packet.header)=65535 ∧
    fold16 (wordSum x.packet.payload)=65535 ∧
    ∃ csum, x.packet.payload=icmpWith icmpEchoReply csum (be16At packet (ihl packet+4))
      (be16At packet (ihl packet+6)) ((l4 packet).drop 8)

variable {packet mac : Bytes} {st : IpState}

lemma processIpv4_echoRequest (h : EchoRequest T packet) :
    (processIpv4 T now ifIndex processUdp processTcp (some mac) packet false st).out =
      .loopback (echoReply (be32At packet 16) (be32At packet 12) (be16At packet (ihl packet+4))
        (be16At packet (ihl packet+6)))::st.out := by
  rw [processIpv4]
  simp only [h.header,h.mine,h.proto,not_true,if_false,if_true,Bool.not_true,Bool.false_and,dif_pos h.kind,
    not_lt.2 h.size,processIpv4_echoReply,Bool.false_eq_true]

/-- The reply is only fed back into the stack: it reaches no other machine. Its data is always the
same. -/
theorem echo_request_answered_iff (h : EchoRequest T packet) (hst : st.out=[]) :
    Answers T packet (processIpv4 T now ifIndex processUdp processTcp (some mac) packet false st).out ↔
      T.ipIsAnyLocal (be32At packet 12)=true ∧ (l4 packet).drop 8=echoData := by
  rw [processIpv4_echoRequest h,hst]
  constructor
  · rintro ⟨x,hx,hleaves,-,-,-,-,-,csum,hdata⟩
    obtain rfl := List.mem_singleton.1 hx
    refine ⟨hleaves,?_⟩
    have hdrop := congrArg (List.drop 8) hdata
    exact hdrop.symm
  · rintro ⟨hsrc,hdata⟩
    refine ⟨_,List.mem_singleton_self _,hsrc,rfl,rfl,rfl,IpPacket.header_checked _,
      icmpMessage_checked _ _ (by decide) (by decide),
      checksum16 (icmpWith icmpEchoReply 0 (be16At packet (ihl packet+4)) (be16At packet (ihl packet+6)) echoData),
      ?_⟩
    rw [hdata]
    rfl

end Input

/-- The machine with the address 10.0.2.15 is asked for an echo. -/
def pingFrom (src : ℕ) : IpPacket := ⟨src,0x0A00020F,ipProtoIcmp,1,icmpMessage icmpEchoRequest 9 1 echoData⟩

/-- The gateway 10.0.2.2 asks. -/
abbrev gatewayPing : IpPacket := pingFrom 0x0A000202

def noPing : IpState := ⟨[],⟨false,0,0,false,0⟩,[]⟩

lemma gatewayPing_echoRequest : EchoRequest guestRouting gatewayPing.bytes := by
  constructor <;> decide +kernel

theorem gateway_echo_unanswered : EchoRequest guestRouting gatewayPing.bytes ∧
    (l4 gatewayPing.bytes).drop 8=echoData ∧ fold16 (wordSum gatewayPing.header)=65535 ∧
    fold16 (wordSum gatewayPing.payload)=65535 ∧
    ¬Answers guestRouting gatewayPing.bytes (processIpv4 guestRouting 5 (some 1) (fun _ _ _ st => st)
      (fun _ _ _ st => st) (some [0x52,0x54,0,0,0,2]) gatewayPing.bytes false noPing).out := by
  refine ⟨gatewayPing_echoRequest,by decide +kernel,IpPacket.header_checked _,
    icmpMessage_checked _ _ (by decide) (by decide),?_⟩
  rw [processIpv4_echoRequest gatewayPing_echoRequest]
  rintro ⟨x,hx,hleaves,-⟩
  obtain rfl := List.mem_singleton.1 hx
  exact absurd hleaves (by simp only [OutPacket.Leaves]; decide +kernel)

/-- The machine asks itself. -/
theorem own_echo_answered : EchoRequest guestRouting (pingFrom 0x0A00020F).bytes ∧
    Answers guestRouting (pingFrom 0x0A00020F).bytes (processIpv4 guestRouting 5 (some 1) (fun _ _ _ st => st)
      (fun _ _ _ st => st) (some [0x52,0x54,0,0,0,2]) (pingFrom 0x0A00020F).bytes false noPing).out := by
  have h : EchoRequest guestRouting (pingFrom 0x0A00020F).bytes := by constructor <;> decide +kernel
  exact ⟨h,(echo_request_answered_iff h rfl).2 ⟨by decide +kernel,by decide +kernel⟩⟩

end FuriOS
