import FuriOS.Net.States

/-! The bytes of one direction of a connection: where the sequence numbers of the sending and of the
receiving socket stand in the stream of bytes that were sent, and what a segment on its way may
carry. -/
namespace FuriOS
open Reentrant

variable {a : Seq} {p q : ℕ}

/-- The sequence number of position `k` of a stream that starts at `a`. -/
def seqAt (a : Seq) (k : ℕ) : Seq := a+BitVec.ofNat 32 k

lemma seqAt_add (a : Seq) (k m : ℕ) : seqAt a k+BitVec.ofNat 32 m=seqAt a (k+m) := by
  rw [seqAt,seqAt,BitVec.add_assoc,← BitVec.ofNat_add]

lemma seqAt_succ (a : Seq) (k : ℕ) : seqAt a k+1=seqAt a (k+1) := seqAt_add a k 1

lemma toNat_seqAt_sub (h : p≤q) (hq : q<p+2^32) : (seqAt a q-seqAt a p).toNat=q-p := by
  simp only [seqAt,BitVec.toNat_sub,BitVec.toNat_add,BitVec.toNat_ofNat]
  omega

lemma seqAt_ne (h : p<q) (hq : q<p+2^32) : seqAt a p≠seqAt a q := by
  intro heq
  have hsub := toNat_seqAt_sub (a := a) h.le hq
  rw [heq,BitVec.sub_self] at hsub
  simp at hsub
  omega

lemma seqAt_inj (heq : seqAt a p=seqAt a q) (hp : p<q+2^32) (hq : q<p+2^32) : p=q := by
  rcases Nat.lt_trichotomy p q with h | h | h
  · exact absurd heq (seqAt_ne h hq)
  · exact h
  · exact absurd heq.symm (seqAt_ne h hp)

lemma tcpSeqLt_near (h : p<q) (hq : q≤p+2^31) : tcpSeqLt (seqAt a p) (seqAt a q)=true := by
  rw [tcpSeqLt,BitVec.msb_eq_decide,decide_eq_true_eq]
  simp only [seqAt,BitVec.toNat_sub,BitVec.toNat_add,BitVec.toNat_ofNat]
  omega

lemma tcpSeqLt_far (h : p+2^31<q) (hq : q<p+2^32) : tcpSeqLt (seqAt a p) (seqAt a q)=false := by
  rw [tcpSeqLt,BitVec.msb_eq_decide,decide_eq_false_iff_not]
  simp only [seqAt,BitVec.toNat_sub,BitVec.toNat_add,BitVec.toNat_ofNat]
  omega

lemma tcpSeqLt_ge (h : q≤p) (hp : p<q+2^31) : tcpSeqLt (seqAt a p) (seqAt a q)=false := by
  rw [tcpSeqLt,BitVec.msb_eq_decide,decide_eq_false_iff_not,toNat_seqAt_sub h (by omega)]
  omega

lemma tcpSeqGt_eq (a b : Seq) : tcpSeqGt a b=(!tcpSeqLt a b && a≠b) := rfl

/-- An acknowledgement that passes both comparisons lies between the two edges, even when it is
slightly more than half of the number space old. -/
lemma seqAt_between {u n k : ℕ} (hun : u≤n) (hk : k<n+2^31) (hold : n<k+2^31+2^30)
    (hlt : tcpSeqLt (seqAt a k) (seqAt a u)=false) (hgt : tcpSeqGt (seqAt a k) (seqAt a n)=false) :
    u≤k ∧ k≤n := by
  rw [tcpSeqGt_eq] at hgt
  rcases Nat.lt_or_ge k u with h | h
  · rcases Nat.lt_or_ge (k+2^31) u with hfar | hnear
    · rw [tcpSeqLt_far (by omega : k+2^31<n) (by omega)] at hgt
      have hne := seqAt_ne (a := a) (by omega : k<n) (by omega)
      simp [hne] at hgt
    · rw [tcpSeqLt_near h hnear] at hlt
      exact absurd hlt (by decide)
  · refine ⟨h,?_⟩
    by_contra hkn
    rw [tcpSeqLt_ge (by omega : n≤k) hk] at hgt
    have hne := seqAt_ne (a := a) (by omega : n<k) (by omega)
    simp [hne.symm] at hgt

/-- Where the new part of a payload starts: a segment at position `p` of the stream is cut to what
the receiver at position `q` lacks, or is not taken at all. -/
lemma trimPayload_new {payload : Bytes} (hp : p<q+2^31)
    (hq : q<p+2^31+2^30) (hnew : (trimPayload (seqAt a q) (seqAt a p) payload).2≠[])
    (hin : (trimPayload (seqAt a q) (seqAt a p) payload).1=seqAt a q) :
    p≤q ∧ (trimPayload (seqAt a q) (seqAt a p) payload).2=payload.drop (q-p) := by
  unfold trimPayload at hnew hin ⊢
  rcases Nat.lt_or_ge p q with h | h
  · rcases Nat.lt_or_ge (p+2^31) q with hfar | hnear
    · rw [if_neg (by rw [tcpSeqLt_far hfar (by omega)]; decide)] at hin
      exact absurd hin (seqAt_ne h (by omega))
    · rw [if_pos (tcpSeqLt_near h hnear),toNat_seqAt_sub h.le (by omega)] at hnew ⊢
      refine ⟨h.le,?_⟩
      split_ifs at hnew ⊢ with hle
      · exact absurd rfl hnew
      · rfl
  · rw [if_neg (by rw [tcpSeqLt_ge h hp]; decide)] at hin ⊢
    have hpq : p=q := seqAt_inj hin (by omega) (by omega)
    exact ⟨hpq.le,by rw [hpq,Nat.sub_self,List.drop_zero]⟩


section Feeds
variable {s s' : Sock} {t : TxSeg} {a : Seq} {sent : Bytes} {fin : Bool}
variable {failing failing' : Seq → Prop} {u n q k : ℕ}

/-- The segment in flight is one that the code sends: data, or a FIN. -/
structure TxSeg.Well (t : TxSeg) : Prop where
  kind : t.flags=.pshAck ∧ t.data≠[] ∨ t.flags=.finAck ∧ t.data=[]
  small : t.data.length≤tcpMaxPayload

/-- The segment in flight is the end of what was sent. -/
def TxSeg.Sent (t : TxSeg) (a : Seq) (sent : Bytes) (fin : Bool) : Prop :=
  ∃ k ≤ sent.length, t.seq=seqAt a k ∧ t.data=sent.drop k ∧ t.flags.fin=fin

/-- A socket feeds a stream of which the bytes `sent`, and the FIN if `fin`, were sent at least
once: `u` and `n` are the positions of its edges. An edge is behind what was sent only while the
first transmission of a segment is under way; `failing` are the first transmissions under way that
will be reported as failed. -/
structure Sock.Feeds (s : Sock) (a : Seq) (sent : Bytes) (fin : Bool) (failing : Seq → Prop)
    (u n : ℕ) : Prop where
  una : s.sndUna=seqAt a u
  nxt : s.sndNxt=seqAt a n
  una_le : u≤n
  nxt_le : n ≤ sent.length+fin.toNat
  near : sent.length+fin.toNat≤u+tcpMaxPayload
  busy : n=sent.length+fin.toNat ∨ u=n
  tx : ∀ t, s.txSeg=some t → t.Well ∧ (t.Sent a sent fin ∨
    failing t.seq ∧ t.seq=seqAt a (sent.length+fin.toNat) ∧ u=sent.length+fin.toNat)
  idle : s.state.Sends → s.txSeg=none → u=sent.length+fin.toNat
  ended : fin=true → n=sent.length+fin.toNat → ¬s.state.Sends
  opened : ¬s.state.Opening
  shut : s.finPending=true ∨ fin=true → s.appShutWr=true

lemma TxSeg.Sent.endSeq (hw : t.Well) (h : t.Sent a sent fin) :
    tcpTxSegEndSeq t=seqAt a (sent.length+fin.toNat) := by
  obtain ⟨k,hk,hseq,hdata,hfin⟩ := h
  have hsyn : t.flags.syn=false := by
    rcases hw.kind with hkind | hkind <;> rw [hkind.1] <;> rfl
  have hlen : k+t.data.length=sent.length := by
    rw [hdata,List.length_drop]
    omega
  rw [tcpTxSegEndSeq,hsyn,hseq,seqAt_add,hlen,hfin]
  cases fin with
  | false => simp
  | true => simpa using seqAt_succ a sent.length

/-- The fields that the stream does not depend on may change, the segment in flight may be given
up by a socket that does not send any more, and the shutdown may be noted. -/
structure Sock.Alike (s s' : Sock) : Prop where
  una : s'.sndUna=s.sndUna
  nxt : s'.sndNxt=s.sndNxt
  tx : ∀ t', s'.txSeg=some t' → ∃ t, s.txSeg=some t ∧ t'.flags=t.flags ∧ t'.seq=t.seq ∧
    t'.data=t.data
  sends : s'.state.Sends → s.state.Sends
  given_up : s'.state.Sends → s'.txSeg=none → s.txSeg=none
  opening : s'.state.Opening → s.state.Opening
  shut : s.appShutWr=true → s'.appShutWr=true
  pending : s'.finPending=true → s.finPending=true ∨ s'.appShutWr=true

/-- The fields that say where a socket is in its stream. -/
def Sock.sending (s : Sock) : Seq × Seq × Option TxSeg × Bool × Bool :=
  (s.sndUna,s.sndNxt,s.txSeg,s.appShutWr,s.finPending)

lemma Sock.Alike.of_sending (h : s'.sending=s.sending) (hs : s'.state.Sends → s.state.Sends)
    (ho : s'.state.Opening → s.state.Opening) : s.Alike s' := by
  simp only [Sock.sending,Prod.mk.injEq] at h
  obtain ⟨hu,hn,ht,hw,hp⟩ := h
  exact ⟨hu,hn,fun t' h => ⟨t',ht ▸ h,rfl,rfl,rfl⟩,hs,fun _ h => ht ▸ h,ho,fun h => hw.trans h,
    fun h => .inl (hp ▸ h)⟩

/-- A change that neither stream depends on. -/
structure Sock.Neutral (s s' : Sock) : Prop where
  alike : s.Alike s'
  rcv : s'.rcvNxt=s.rcvNxt
  shutRd : s'.appShutRd=s.appShutRd
  rx : s'.rx=s.rx

lemma Sock.Neutral.refl (s : Sock) : s.Neutral s := ⟨.of_sending rfl id id,rfl,rfl,rfl⟩

lemma Sock.Neutral.of_state {st : TcpState} (hs : st.Sends → s.state.Sends)
    (ho : st.Opening → s.state.Opening) (d : ℕ) (r : Bool) :
    s.Neutral {s with state := st, timewaitDeadline := d, rxClosed := r} :=
  ⟨.of_sending rfl hs ho,rfl,rfl,rfl⟩

lemma Sock.finSent_edge (s : Sock) (x : Seq) :
    {s with sndNxt := x}.finSent={s.finSent with sndNxt := x} := by
  cases h : s.state <;> simp only [Sock.finSent,h]

lemma Sock.finSent_not_sends (s : Sock) : ¬s.finSent.state.Sends := by
  unfold Sock.finSent
  cases h : s.state <;> simp [h,TcpState.Sends]

lemma Sock.finSent_neutral (s : Sock) : s.Neutral s.finSent := by
  unfold Sock.finSent
  cases hs : s.state <;> first | exact .refl s |
    exact .of_state (by simp [TcpState.Sends]) (by simp [TcpState.Opening]) _ _

lemma Sock.enterTimeWait_neutral (now : ℕ) (s : Sock) : s.Neutral (s.enterTimeWait now) :=
  .of_state (by simp [TcpState.Sends]) (by simp [TcpState.Opening]) _ _

lemma Sock.allAcked_neutral (now : ℕ) (h : ¬s.state.Opening) : s.Neutral (s.allAcked now) := by
  unfold Sock.allAcked
  cases hs : s.state with
  | synSent => exact absurd (.inl hs) h
  | synRecv => exact absurd (.inr hs) h
  | finWait1 =>
    dsimp only
    split_ifs
    · exact s.enterTimeWait_neutral now
    · exact .of_state (by simp [TcpState.Sends]) (by simp [TcpState.Opening]) _ _
  | closing => exact s.enterTimeWait_neutral now
  | lastAck => exact .of_state (by simp [TcpState.Sends]) (by simp [TcpState.Opening]) _ _
  | _ => exact .refl s

lemma Sock.finReceived_neutral (now : ℕ) (s : Sock) : s.Neutral (s.finReceived now) := by
  unfold Sock.finReceived
  cases hs : s.state with
  | established => exact .of_state (fun _ => .inl hs) (by simp [TcpState.Opening]) _ _
  | finWait1 =>
    dsimp only
    split_ifs
    · exact s.enterTimeWait_neutral now
    · exact .of_state (by simp [TcpState.Sends]) (by simp [TcpState.Opening]) _ _
  | finWait2 => exact s.enterTimeWait_neutral now
  | timeWait => exact s.enterTimeWait_neutral now
  | _ => exact .refl s

lemma Sock.onRst_neutral (err : ℕ) (s : Sock) : s.Neutral (socketSetError err s).onRst := by
  rw [Sock.onRst_eq,socketSetError_eq]
  exact ⟨⟨rfl,rfl,nofun,by simp [TcpState.Sends],by simp [TcpState.Sends],by simp [TcpState.Opening],
    id,.inl⟩,rfl,rfl,rfl⟩

namespace Sock.Feeds

section
variable (h : s.Feeds a sent fin failing u n)
include h

lemma alike (hs : s.Alike s') : s'.Feeds a sent fin failing u n where
  una := hs.una.trans h.una
  nxt := hs.nxt.trans h.nxt
  una_le := h.una_le
  nxt_le := h.nxt_le
  near := h.near
  busy := h.busy
  tx t' ht' := by
    obtain ⟨t,ht,hf,hseq,hd⟩ := hs.tx t' ht'
    obtain ⟨⟨hkind,hsmall⟩,hsent⟩ := h.tx t ht
    rw [← hf,← hd] at hkind
    rw [← hd] at hsmall
    unfold TxSeg.Sent at hsent ⊢
    rw [← hf,← hd,← hseq] at hsent
    exact ⟨⟨hkind,hsmall⟩,hsent⟩
  idle hst ht := h.idle (hs.sends hst) (hs.given_up hst ht)
  ended hf hn hst := h.ended hf hn (hs.sends hst)
  opened ho := h.opened (hs.opening ho)
  shut hf := by
    rcases hf with hp | hf
    · exact (hs.pending hp).elim (fun hp => hs.shut (h.shut (.inl hp))) id
    · exact hs.shut (h.shut (.inr hf))

lemma mono (hf : ∀ t, s.txSeg=some t → failing t.seq → t.seq=seqAt a (sent.length+fin.toNat) →
      failing' t.seq) : s.Feeds a sent fin failing' u n :=
  {h with tx := fun t ht => ⟨(h.tx t ht).1,(h.tx t ht).2.imp id
    fun hfail => ⟨hf t ht hfail.1 hfail.2.1,hfail.2⟩⟩}

lemma settled (hne : u≠n) : n=sent.length+fin.toNat :=
  h.busy.resolve_right hne

lemma acked (hk : u<k) (hkn : k≤n) : {s with sndUna := seqAt a k}.Feeds a sent fin failing k n where
  una := rfl
  nxt := h.nxt
  una_le := hkn
  nxt_le := h.nxt_le
  near := h.near.trans (by omega)
  busy := .inl (h.settled (by omega))
  tx t ht := ⟨(h.tx t ht).1,(h.tx t ht).2.imp id fun hfail => by
    have := h.nxt_le
    omega⟩
  idle hs ht := by
    have hu := h.idle hs ht
    have := h.nxt_le
    omega
  ended := h.ended
  opened := h.opened
  shut := h.shut

lemma acked_all (hk : u<k) (hkn : k≤n) (ht : s.txSeg=some t)
    (hend : tcpSeqLt (seqAt a k) (tcpTxSegEndSeq t)=false) : k=sent.length+fin.toNat := by
  obtain ⟨hwell,hsent⟩ := h.tx t ht
  have hle := h.nxt_le
  have hnear := h.near
  have hsent := hsent.resolve_right fun hfail => by omega
  rw [hsent.endSeq hwell] at hend
  by_contra hne
  rw [tcpSeqLt_near (by omega) (by have : tcpMaxPayload=1480 := rfl; omega)] at hend
  exact absurd hend (by decide)

lemma drop (hu : u=sent.length+fin.toNat) : {s with txSeg := none}.Feeds a sent fin failing u n :=
  {h with tx := fun _ ht => (nomatch ht), idle := fun _ _ => hu}

lemma fail (hu : u=sent.length+fin.toNat) (hw : t.Well)
    (ht : t.seq=s.sndNxt) (hf : failing' t.seq) :
    {s with txSeg := some t}.Feeds a sent fin failing' u n where
  una := h.una
  nxt := h.nxt
  una_le := h.una_le
  nxt_le := h.nxt_le
  near := h.near
  busy := h.busy
  tx t' ht' := by
    cases ht'
    have hn : n=sent.length+fin.toNat := le_antisymm h.nxt_le (hu ▸ h.una_le)
    exact ⟨hw,.inr ⟨hf,by rw [ht,h.nxt,hn],hu⟩⟩
  idle _ ht' := nomatch ht'
  ended := h.ended
  opened := h.opened
  shut := h.shut

end

lemma send (h : s.Feeds a sent false failing u n) (hu : u=sent.length) (hw : t.Well)
    (ht : t.seq=s.sndNxt) (hshut : t.flags.fin=true → s.appShutWr=true) :
    {s with txSeg := some t}.Feeds a (sent++t.data) t.flags.fin failing' u n := by
  have hle := h.una_le
  have hnle := h.nxt_le
  have hsmall := hw.small
  have hpos : 0<t.data.length+t.flags.fin.toNat ∧ t.data.length+t.flags.fin.toNat≤tcpMaxPayload := by
    rcases hw.kind with ⟨hf,hd⟩ | ⟨hf,hd⟩
    · have := List.length_pos_iff.2 hd
      rw [hf]
      exact ⟨Nat.add_pos_left this _,hsmall⟩
    · rw [hf,hd]
      decide
  rw [Bool.toNat_false,Nat.add_zero] at hnle
  have hn : n=sent.length := by omega
  have hlen : (sent++t.data).length=sent.length+t.data.length := List.length_append
  refine ⟨h.una,h.nxt,hle,by omega,by omega,.inr (by omega),?_,fun _ ht' => (nomatch ht'),
    fun _ heq => by omega,h.opened,fun hf => hf.elim (fun hp => h.shut (.inl hp)) hshut⟩
  intro t' ht'
  cases ht'
  exact ⟨hw,.inl ⟨sent.length,by omega,by rw [ht,h.nxt,hn],List.drop_left.symm,rfl⟩⟩

lemma advance (h : s.Feeds a sent fin failing u n) (hf : fin=true → ¬s.state.Sends) :
    {s with sndNxt := seqAt a (sent.length+fin.toNat)}.Feeds a sent fin failing u (sent.length+fin.toNat) where
  una := h.una
  nxt := rfl
  una_le := h.una_le.trans h.nxt_le
  nxt_le := le_rfl
  near := h.near
  busy := .inl rfl
  tx := h.tx
  idle := h.idle
  ended hfin _ := hf hfin
  opened := h.opened
  shut := h.shut

end Sock.Feeds
end Feeds

section Drains
variable {s s' : Sock} {a b : Seq} {sent returned : Bytes} {fin : Bool} {q q' k own peer : ℕ}
variable {g : Segment}

/-- A socket drains a stream: it has taken the first `q` positions, and what the reads have
returned and what is in the ring are the bytes of these. -/
structure Sock.Drains (s : Sock) (a : Seq) (sent : Bytes) (fin : Bool) (returned : Bytes)
    (q : ℕ) : Prop where
  rcv : s.rcvNxt=seqAt a q
  le : q ≤ sent.length+fin.toNat
  ring : s.appShutRd=false → returned++s.rx.contents=sent.take q
  got : returned <+: sent

/-- What a segment of the stream may carry; `own` and `peer` are the numbers of bytes that its
sender and the other side had sent when it was sent. -/
structure Segment.Carries (g : Segment) (own peer : ℕ) (a : Seq) (sent : Bytes) (fin : Bool)
    (b : Seq) (q : ℕ) : Prop where
  rst : g.flags.rst=false
  data : g.payload≠[] ∨ g.flags.fin=true → ∃ k ≤ sent.length, g.seq=seqAt a k ∧
    g.payload <+: sent.drop k ∧ own≤k+tcpMaxPayload ∧
      (g.flags.fin=true → g.payload=[] ∧ fin=true ∧ k=sent.length)
  ack : g.flags.ack=true → ∃ k≤q, g.ack=seqAt b k ∧ peer≤k+tcpMaxPayload

namespace Sock.Drains

lemma alike (h : s.Drains a sent fin returned q) (hr : s'.rcvNxt=s.rcvNxt)
    (hx : s'.appShutRd=false → s.appShutRd=false ∧ s'.rx=s.rx) :
    s'.Drains a sent fin returned q where
  rcv := hr.trans h.rcv
  le := h.le
  ring hs := by
    rw [(hx hs).2]
    exact h.ring (hx hs).1
  got := h.got

lemma grow (h : s.Drains a sent false returned q) (more : Bytes) (fin : Bool) :
    s.Drains a (sent++more) fin returned q where
  rcv := h.rcv
  le := by
    have := h.le
    rw [List.length_append]
    simp only [Bool.toNat_false] at this
    omega
  ring hs := by
    rw [h.ring hs,List.take_append_of_le_length h.le]
  got := h.got.trans (List.prefix_append _ _)

section
variable (h : s.Drains a sent fin returned q)
include h

lemma receive {bytes : Bytes} (hb : bytes <+: sent.drop q) (hne : bytes≠[]) :
    (s.receive bytes).Drains a sent fin returned (q+(s.rx.write bytes).1) := by
  have hle := s.rx.write_le bytes
  have hlen := hb.length_le
  have hpos := List.length_pos_iff.2 hne
  rw [List.length_drop] at hlen
  refine ⟨?_,by omega,fun hs => ?_,h.got⟩
  · rw [Sock.receive,h.rcv,seqAt_add]
  · have hring := h.ring hs
    rw [Sock.receive,Ring.contents_write,← List.append_assoc,hring,List.take_add]
    congr 1
    obtain ⟨rest,hrest⟩ := hb
    rw [← hrest,List.take_append_of_le_length hle]

lemma finish (hfin : fin=true) (hq : q=sent.length) :
    {s with rcvNxt := s.rcvNxt+1, rxClosed := true}.Drains a sent fin returned (q+1) where
  rcv := by rw [h.rcv,seqAt_succ]
  le := by simp [hq,hfin]
  ring hs := by
    have hring := h.ring hs
    rw [List.take_of_length_le (by omega)] at hring ⊢
    exact hring
  got := h.got

lemma read (hs : s.appShutRd=false) (len : ℕ) :
    {s with rx := (s.rx.read len).2}.Drains a sent fin (returned++(s.rx.read len).1) q := by
  obtain ⟨hread,hrest⟩ := s.rx.read_eq len
  have hring := h.ring hs
  refine ⟨h.rcv,h.le,fun _ => ?_,?_⟩
  · rw [hread,hrest,List.append_assoc,List.take_append_drop,hring]
  · have hpre : returned++(s.rx.read len).1 <+: returned++s.rx.contents := by
      rw [hread,List.prefix_append_right_inj]
      exact List.take_prefix _ _
    rw [hring] at hpre
    exact hpre.trans (List.take_prefix _ _)

end

end Sock.Drains

namespace Segment.Carries

lemma mono (h : g.Carries own peer a sent fin b q) (hq : q≤q') :
    g.Carries own peer a sent fin b q' where
  rst := h.rst
  data := h.data
  ack hf := by
    obtain ⟨k,hk,hrest⟩ := h.ack hf
    exact ⟨k,hk.trans hq,hrest⟩

lemma grow (h : g.Carries own peer a sent false b q) (more : Bytes) (fin : Bool) :
    g.Carries own peer a (sent++more) fin b q where
  rst := h.rst
  data hd := by
    obtain ⟨k,hk,hseq,hpre,hown,hfin⟩ := h.data hd
    refine ⟨k,by rw [List.length_append]; omega,hseq,?_,hown,fun hf => absurd (hfin hf).2.1 (by decide)⟩
    rw [List.drop_append_of_le_length hk]
    exact hpre.trans (List.prefix_append _ _)
  ack := h.ack

lemma pure (hrst : g.flags.rst=false) (hd : g.payload=[]) (hf : g.flags.fin=false)
    (hack : g.ack=seqAt b q) (hp : peer≤q+tcpMaxPayload) : g.Carries own peer a sent fin b q where
  rst := hrst
  data h := by simp [hd,hf] at h
  ack _ := ⟨q,le_rfl,hack,hp⟩

lemma track {t : TxSeg} (hw : t.Well) (ht : t.Sent a sent fin) (hrst : g.flags.rst=false)
    (hfin : g.flags.fin=t.flags.fin) (hseq : g.seq=t.seq) (hpay : g.payload=t.data)
    (hack : g.ack=seqAt b q) (hp : peer≤q+tcpMaxPayload) :
    g.Carries sent.length peer a sent fin b q where
  rst := hrst
  data _ := by
    obtain ⟨k,hk,htseq,hdata,htfin⟩ := ht
    have hsmall := hw.small
    refine ⟨k,hk,hseq.trans htseq,(hpay.trans hdata).symm ▸ List.prefix_rfl,?_,fun hf => ?_⟩
    · rw [hdata,List.length_drop] at hsmall
      omega
    · rw [hfin] at hf
      rcases hw.kind with ⟨hflags,-⟩ | ⟨-,hnil⟩
      · rw [hflags] at hf
        exact absurd hf (by decide)
      · refine ⟨hpay.trans hnil,htfin ▸ hf,?_⟩
        rw [hnil] at hdata
        have := List.drop_eq_nil_iff.1 hdata.symm
        omega
  ack _ := ⟨q,le_rfl,hack,hp⟩

end Segment.Carries
end Drains
end FuriOS
