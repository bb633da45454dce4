import FuriOS.Net.QueueSock

/-! The TCP state of a socket: the transitions of the RFC 793 diagram, and the code of one socket
proved to take only these. -/
namespace FuriOS
open Reentrant Reentrant.Act

variable {a b : Seq}

/-- The transitions of the RFC 793 state diagram and the aborts to CLOSED. -/
def tcpEdge : TcpState → TcpState → Bool
  | _,.closed => true
  | .closed,.listen | .closed,.synSent => true
  | .listen,.synRecv | .listen,.synSent => true
  | .synSent,.synRecv | .synSent,.established => true
  | .synRecv,.established | .synRecv,.finWait1 => true
  | .established,.finWait1 | .established,.closeWait => true
  | .finWait1,.finWait2 | .finWait1,.closing => true
  | .finWait2,.timeWait | .closing,.timeWait => true
  | .closeWait,.lastAck => true
  | _,_ => false

/-- The state stays or takes a transition of the diagram. -/
def TcpState.Moves (a b : TcpState) : Prop := b=a ∨ tcpEdge a b=true

lemma TcpState.Moves.refl (a : TcpState) : a.Moves a := .inl rfl

def TcpState.Opening (a : TcpState) : Prop := a=.synSent ∨ a=.synRecv

def TcpState.Sends (a : TcpState) : Prop := a=.established ∨ a=.closeWait

instance (a : TcpState) : Decidable a.Opening := inferInstanceAs (Decidable (_ ∨ _))

instance (a : TcpState) : Decidable a.Sends := inferInstanceAs (Decidable (_ ∨ _))

lemma TcpState.Sends.not_opening {a : TcpState} (h : a.Sends) : ¬a.Opening := by
  rcases h with rfl | rfl <;> decide

lemma seq_eq_of_bounds (hlt : tcpSeqLt a b=false) (hgt : tcpSeqGt a b=false) : a=b := by
  unfold tcpSeqLt at hlt
  unfold tcpSeqGt at hgt
  rw [hlt] at hgt
  simpa using hgt

lemma seq_eq_succ (hne : a≠b) (hlt : tcpSeqLt a b=false)
    (hgt : tcpSeqGt a (b+1)=false) : a=b+1 := by
  by_contra hb
  simp only [tcpSeqLt,tcpSeqGt,BitVec.msb_eq_decide] at hlt hgt
  simp at hlt hgt
  bv_omega

/-- What holds of the sequence numbers of a socket in each of its states. -/
structure Sock.Flow (s : Sock) : Prop where
  closed : s.state=.closed → s.txSeg=none
  opening : s.state.Opening → s.sndNxt=s.sndUna+1 ∧ s.rxClosed=false
  finWait1 : s.state=.finWait1 → s.sndUna≠s.sndNxt
  idle : s.state.Sends → s.txSeg=none → s.sndUna=s.sndNxt
  tx : ∀ t, s.txSeg=some t → tcpTxSegEndSeq t=s.sndNxt ∨ s.sndUna=s.sndNxt

/-- The peer has sent its FIN, and the connection is still called established. -/
def Sock.Late (s : Sock) : Prop := s.state=.established ∧ s.rxClosed=true

/-- The sequence number behind the segment in flight. -/
def Sock.txEnd (s : Sock) : Option Seq := s.txSeg.map tcpTxSegEndSeq

/-- What the events during a call leave of a slot that the call works on. -/
structure Sock.Steady (s s' : Sock) : Prop where
  used : s'.used=true → s.used=true
  acked : s'.used=true → s.sndUna=s.sndNxt → s.state.Sends ∨ s.state=.closed →
    s'.sndUna=s.sndUna ∧ s'.sndNxt=s.sndNxt ∧ (s'.state=.closed ∨
      s.state≠.closed ∧ s'.txEnd=s.txEnd ∧ (s'.state=s.state ∨ s'.state=.closeWait))
  opening : s'.used=true → s'.state.Opening → s'.state=s.state
  opened : s'.used=true → s.state.Opening → s'.state.Sends → s'.sndUna=s'.sndNxt
  sends : s'.used=true → s'.state.Sends → s.state.Sends ∨ s.state.Opening
  closed : s'.used=true → s.state=.closed → s'.state=.closed
  late : s'.used=true → s'.Late → s.Late

/-- The part of a socket that the transitions depend on. -/
def Sock.flow (s : Sock) : Bool × TcpState × Seq × Seq × Option Seq × Bool :=
  (s.used,s.state,s.sndUna,s.sndNxt,s.txEnd,s.rxClosed)

section Steady
variable {s s' s'' : Sock}

lemma Sock.Steady.of_flow (h : s'.flow=s.flow) : s.Steady s' := by
  simp only [flow,Prod.mk.injEq] at h
  obtain ⟨hu,hs,ha,hn,ht,hr⟩ := h
  refine ⟨fun h => hu ▸ h,fun _ _ hst => ⟨ha,hn,?_⟩,fun _ _ => hs,fun _ ho hse => ?_,fun _ hse => ?_,
    fun _ hc => hs.trans hc,fun _ hl => ?_⟩
  · by_cases hc : s.state=.closed
    · exact .inl (hs.trans hc)
    · exact .inr ⟨hc,ht,.inl hs⟩
  · exact absurd ho (hs ▸ hse).not_opening
  · exact .inl (hs ▸ hse)
  · exact ⟨hs ▸ hl.1,hr ▸ hl.2⟩

lemma Sock.Steady.refl (s : Sock) : s.Steady s := .of_flow rfl

lemma Sock.Steady.of_unused (h : s'.used=false) : s.Steady s' := by
  have hno : ∀ {p : Prop}, s'.used=true → p := fun hu => by rw [h] at hu; cases hu
  exact ⟨hno,hno,hno,hno,hno,hno,hno⟩

lemma Sock.Steady.trans (h : s.Steady s') (h' : s'.Steady s'') : s.Steady s'' where
  used hu := h.used (h'.used hu)
  acked hu heq hst := by
    obtain ⟨ha,hn,hs⟩ := h.acked (h'.used hu) heq hst
    have heq' : s'.sndUna=s'.sndNxt := by rw [ha,hn,heq]
    have hst' : s'.state.Sends ∨ s'.state=.closed := by
      rcases hs with hs | ⟨hc,_,hs | hs⟩
      · exact .inr hs
      · exact hs ▸ hst
      · exact .inl (.inr hs)
    obtain ⟨ha',hn',hs'⟩ := h'.acked hu heq' hst'
    refine ⟨ha'.trans ha,hn'.trans hn,?_⟩
    rcases hs' with hs' | ⟨hc',ht',hs'⟩
    · exact .inl hs'
    · rcases hs with hs | ⟨hc,ht,hs⟩
      · exact absurd hs hc'
      · refine .inr ⟨hc,ht'.trans ht,?_⟩
        rcases hs' with hs' | hs'
        · exact hs' ▸ hs
        · exact .inr hs'
  opening hu ho := by
    have hs' := h'.opening hu ho
    exact hs'.trans (h.opening (h'.used hu) (hs' ▸ ho))
  opened hu ho hse := by
    rcases h'.sends hu hse with hse' | ho'
    · have heq := h.opened (h'.used hu) ho hse'
      obtain ⟨ha,hn,_⟩ := h'.acked hu heq (.inl hse')
      rw [ha,hn,heq]
    · exact h'.opened hu ho' hse
  sends hu hse := by
    rcases h'.sends hu hse with hse' | ho'
    · exact h.sends (h'.used hu) hse'
    · exact .inr (h.opening (h'.used hu) ho' ▸ ho')
  closed hu hc := h'.closed hu (h.closed (h'.used hu) hc)
  late hu hl := h.late (h'.used hu) (h'.late hu hl)

end Steady

def flowSpec : Spec Sock SockCall where
  inv _ s := s.used=true → s.Flow
  rely _ := Sock.Steady
  guar s s' := s'.used=s.used ∧ (s.used=true → s.state.Moves s'.state)

section Programs
variable {s s' : Sock} {now : ℕ} {ack : Seq}
variable {s'' s2 s1 : Sock} {flags : TcpFlags} {seq : Seq} {payload chunk : Bytes} {g : Segment}

lemma flowSpec_guar_refl (s : Sock) : flowSpec.guar s s := ⟨rfl,fun _ => .refl _⟩

lemma guar_of_state (hu : s'.used=s.used) (hs : s'.state=s.state) : flowSpec.guar s s' :=
  ⟨hu,fun _ => .inl hs⟩

abbrev flowContract : Contract Sock SockCall Empty := ⟨sockWorld,flowSpec,[],Sock.Steady⟩

instance flowWalk : Walk flowContract where
  refl := .refl
  trans := .trans
  still s _ := flowSpec_guar_refl s
  call _ _ _ hs := ⟨hs,fun _ hi hr => ⟨hi,hr⟩⟩

/-- What events leave of the slot they work on. -/
abbrev Sock.Goes (s s' : Sock) : Prop := flowContract.Ends s s'

lemma Sock.Goes.refl (h : s.used=true → s.Flow) : s.Goes s := ⟨h,.refl s⟩

lemma Sock.Flow.of_flow (h : s.Flow) (hf : s'.flow=s.flow) : s'.Flow := by
  simp only [Sock.flow,Prod.mk.injEq,Sock.txEnd] at hf
  obtain ⟨_,hs,ha,hn,ht,hr⟩ := hf
  have hnone : s'.txSeg=none ↔ s.txSeg=none := by
    rw [← Option.map_eq_none_iff (f := tcpTxSegEndSeq),ht,Option.map_eq_none_iff]
  refine ⟨?_,?_,?_,?_,fun t htx => ?_⟩
  · rw [hs,hnone]
    exact h.closed
  · rw [hs,ha,hn,hr]
    exact h.opening
  · rw [hs,ha,hn]
    exact h.finWait1
  · rw [hs,hnone,ha,hn]
    exact h.idle
  · rw [htx,Option.map_some] at ht
    obtain ⟨t',ht',he⟩ := Option.map_eq_some_iff.1 ht.symm
    rw [← he,ha,hn]
    exact h.tx t' ht'

lemma Sock.Goes.of_flow (h : s.used=true → s.Flow) (hf : s'.flow=s.flow) : s.Goes s' := by
  refine ⟨fun hu => (h ?_).of_flow hf,.of_flow hf⟩
  have : s'.used=s.used := congrArg Prod.fst hf
  rw [← this]
  exact hu

lemma wp_flowCall {e : SockCall} {Q : Bool → Sock → Prop} (hs : s.used=true → s.Flow)
    (h : ∀ b s', s.Goes s' → Q b s') : wp sockWorld flowSpec [] (callOut e) Q s :=
  fun b => ⟨hs,fun s' hi hr => h b s' ⟨hi,hr⟩⟩

lemma leads_sameFlow {f : Sock → Sock} (h : (f s).flow=s.flow) : flowContract.Leads (modify f) s := fun hs =>
  ⟨guar_of_state (congrArg Prod.fst h) (congrArg (fun x => x.2.1) h),Sock.Goes.of_flow hs h⟩

lemma wp_sendFlow (hnew : (flags.syn || flags.fin || decide (0<payload.length))=true)
    (hs : s.used=true → Sock.Flow {s with txSeg := some ⟨flags,seq,payload,now,0⟩}) :
    wp sockWorld flowSpec [] (tcpSendSegment now flags seq ack payload false)
      (fun ok s' => (ok=false ∧ s'=s) ∨ ∃ s2,
        Sock.Goes {s with txSeg := some ⟨flags,seq,payload,now,0⟩} s2 ∧
        (ok=true ∧ s'=s2 ∨ ok=false ∧ s'={s2 with txSeg := none})) s := by
  rw [tcpSendSegment,wp_bind,wp_gets]
  refine ⟨flowSpec_guar_refl s,wp_ite (fun _ => .inl ⟨rfl,rfl⟩) fun _ => ?_⟩
  rw [wp_bind]
  refine wp_when (fun _ => wp_modify.2 ⟨guar_of_state rfl rfl,?_⟩) fun hno => ?_
  · rw [wp_bind]
    refine wp_flowCall hs fun b s2 h2 => ?_
    rw [wp_bind]
    refine wp_when (fun hb => wp_modify.2 ⟨guar_of_state rfl rfl,.inr ⟨s2,h2,?_⟩⟩)
      fun hb => .inr ⟨s2,h2,?_⟩
    · simp at hb
      exact .inr ⟨hb.1,rfl⟩
    · cases b with
      | true => exact .inl ⟨rfl,rfl⟩
      | false => simp [hnew] at hb
  · simp [hnew] at hno

lemma Sock.Flow.of_closed (hs : s.state=.closed) (htx : s.txSeg=none) : s.Flow where
  closed _ := htx
  opening ho := by rcases ho with h | h <;> simp [hs] at h
  finWait1 hf := by simp [hs] at hf
  idle hse := by rcases hse with h | h <;> simp [hs] at h
  tx t ht := by simp [htx] at ht

lemma Sock.Flow.send (hs : s.state.Sends) (heq : s.sndUna=s.sndNxt) (t : Option TxSeg) :
    Sock.Flow {s with txSeg := t} where
  closed hc := by rcases hs with h | h <;> simp [h] at hc
  opening ho := absurd ho hs.not_opening
  finWait1 hf := by rcases hs with h | h <;> simp [h] at hf
  idle _ _ := heq
  tx _ _ := .inr heq

@[simp] lemma txEnd_fin (seq : Seq) (now : ℕ) : tcpTxSegEndSeq ⟨.finAck,seq,[],now,0⟩=seq+1 := by
  simp [tcpTxSegEndSeq,TcpFlags.finAck]

/-- A FIN was sent, or that failed. -/
structure Sock.FinTried (s : Sock) (ok : Bool) (s' : Sock) : Prop where
  flow : s'.used=true → s'.Flow
  una : s'.used=true → s'.sndUna=s.sndUna
  sent : s'.used=true → ok=true → s'.sndNxt=s.sndNxt+1 ∧ ¬s'.state.Sends ∧ ¬s'.state.Opening
  failed : s'.used=true → ok=false → s'.sndNxt=s.sndNxt ∧
    (s'.state=.closed ∨ s'.state.Sends) ∧ (s'.Late → s.Late)

lemma Sock.finSent_moves (s : Sock) : s.state.Moves s.finSent.state := by
  unfold finSent
  split
  next h => exact .inr (by rw [h]; rfl)
  next h => exact .inr (by rw [h]; rfl)
  · exact .refl _

lemma Sock.finSent_fields (s : Sock) : s.finSent.used=s.used ∧ s.finSent.sndUna=s.sndUna ∧
    s.finSent.sndNxt=s.sndNxt ∧ s.finSent.txSeg=s.txSeg := by
  unfold finSent
  split <;> exact ⟨rfl,rfl,rfl,rfl⟩

lemma Sock.finSent_state (h : s.state=.closed ∨ s.state.Sends) : s.finSent.state=.closed ∧ s.state=.closed ∨
    s.state.Sends ∧ (s.finSent.state=.finWait1 ∨ s.finSent.state=.lastAck) := by
  unfold finSent
  rcases h with h | h | h
  · simp [h]
  · simp [h,TcpState.Sends]
  · simp [h,TcpState.Sends]

/-- What is left of a slot after the call that sends its FIN. -/
def Sock.FinCall (s s2 : Sock) : Prop := s2.used=true → s2.sndUna=s.sndUna ∧
  s2.sndNxt=s.sndNxt ∧ (s2.state=.closed ∨ s2.txEnd=some (s.sndNxt+1) ∧ s2.state.Sends)

lemma Sock.FinCall.sent (h : s.FinCall s2) (heq : s.sndUna=s.sndNxt)
    (hflow : s2.used=true → s2.Flow) :
    s.FinTried true (Sock.finSent {s2 with sndNxt := s.sndNxt+1}) := by
  obtain ⟨huf,haf,hnf,htf⟩ := Sock.finSent_fields {s2 with sndNxt := s.sndNxt+1}
  refine ⟨fun hu => ?_,fun hu => haf.trans (h (huf ▸ hu)).1,fun hu _ => ⟨hnf,?_⟩,nofun⟩
  · have hu : s2.used=true := huf ▸ hu
    obtain ⟨ha,hn,hs⟩ := h hu
    have hstate := Sock.finSent_state (s := {s2 with sndNxt := s.sndNxt+1}) (hs.imp_right And.right)
    refine ⟨fun hc => ?_,fun ho => ?_,fun _ => ?_,fun hse => ?_,fun t ht => ?_⟩
    · rcases hstate with ⟨_,hc2⟩ | ⟨_,h | h⟩
      · exact htf.trans ((hflow hu).closed hc2)
      · rw [h] at hc
        cases hc
      · rw [h] at hc
        cases hc
    · rcases hstate with ⟨h,_⟩ | ⟨_,h | h⟩ <;> rw [h] at ho <;> exact absurd ho (by decide)
    · rw [haf,hnf]
      change s2.sndUna≠s.sndNxt+1
      rw [ha,heq]
      simp
    · rcases hstate with ⟨h,_⟩ | ⟨_,h | h⟩ <;> rw [h] at hse <;> exact absurd hse (by decide)
    · rw [htf] at ht
      change s2.txSeg=some t at ht
      rw [hnf]
      rcases hs with hc | ⟨hend,_⟩
      · rw [(hflow hu).closed hc] at ht
        cases ht
      · rw [Sock.txEnd,ht] at hend
        exact .inl (Option.some.inj hend)
  · have hs := (h (huf ▸ hu)).2.2
    have hstate := Sock.finSent_state (s := {s2 with sndNxt := s.sndNxt+1}) (hs.imp_right And.right)
    rcases hstate with ⟨h,_⟩ | ⟨_,h | h⟩ <;> rw [h] <;> decide

lemma Sock.FinCall.failed (h : s.FinCall s2) (heq : s.sndUna=s.sndNxt)
    (hlate : s2.used=true → s2.Late → s.Late) :
    s.FinTried false {s2 with txSeg := none} := by
  refine ⟨fun hu => ?_,fun hu => (h hu).1,nofun,
    fun hu _ => ⟨(h hu).2.1,(h hu).2.2.imp_right And.right,hlate hu⟩⟩
  obtain ⟨ha,hn,hs | ⟨_,hs⟩⟩ := h hu
  · exact .of_closed hs rfl
  · exact .send hs (by rw [ha,hn,heq]) none

lemma wp_sendFinFlow (hst : s.state.Sends) (heq : s.sndUna=s.sndNxt) :
    wp sockWorld flowSpec [] (tcpSendFinNow now) (fun ok s' => s.FinTried ok s') s := by
  have hself : s.FinTried false s :=
    ⟨fun _ => .send hst heq s.txSeg,fun _ => rfl,fun _ h => absurd h (by decide),
      fun _ _ => ⟨rfl,.inr hst,id⟩⟩
  rw [tcpSendFinNow,wp_bind,wp_gets]
  refine ⟨flowSpec_guar_refl s,wp_ite (fun _ => hself) fun _ => ?_⟩
  rw [wp_bind]
  refine wp_mono (wp_sendFlow rfl fun _ => .send hst heq _) fun ok s1 h1 => ?_
  rcases h1 with ⟨rfl,rfl⟩ | ⟨s2,h2,h1⟩
  · exact hself
  · have hcall : s.FinCall s2 := by
      intro hu
      obtain ⟨ha,hn,hs⟩ := h2.rel.acked hu heq (.inl hst)
      refine ⟨ha,hn,hs.imp_right fun h => ⟨h.2.1.trans (by simp [Sock.txEnd]),?_⟩⟩
      rcases h.2.2 with hs | hs
      · exact hs ▸ hst
      · exact .inr hs
    rcases h1 with ⟨rfl,rfl⟩ | ⟨rfl,rfl⟩
    · refine wp_ite (fun _ => ?_) fun h => absurd rfl h
      rw [wp_bind,wp_modify]
      refine ⟨guar_of_state rfl rfl,?_⟩
      rw [wp_bind,wp_modify]
      exact ⟨⟨(Sock.finSent_fields _).1,fun _ => Sock.finSent_moves _⟩,hcall.sent heq h2.inv⟩
    · exact hcall.failed heq h2.rel.late

/-- An acknowledgement in the window took everything up to `ack` off the slot; the FIN that waited
for it may have been tried. -/
inductive Sock.Advanced (s : Sock) (ack : Seq) : Sock → Prop
  | plain : s.Advanced ack {s with sndUna := ack, txSeg := if ack=s.sndNxt then none else s.txSeg}
  | fin {ok : Bool} {s' : Sock} (hst : s.state.Sends) (hack : ack=s.sndNxt)
      (h : Sock.FinTried {s with sndUna := ack, txSeg := none} ok s') : s.Advanced ack s'

/-- The acknowledgement is one that the slot waits for. -/
structure Sock.Awaits (s : Sock) (ack : Seq) : Prop where
  new : ack≠s.sndUna
  low : tcpSeqLt ack s.sndUna=false
  high : tcpSeqGt ack s.sndNxt=false

lemma Sock.Awaits.ne (h : s.Awaits ack) : s.sndUna≠s.sndNxt := fun heq =>
  h.new (seq_eq_of_bounds h.low (heq ▸ h.high))

lemma Sock.Flow.tx_end (h : s.Flow) (hne : s.sndUna≠s.sndNxt) {t : TxSeg} (ht : s.txSeg=some t) :
    tcpTxSegEndSeq t=s.sndNxt :=
  (h.tx t ht).resolve_right hne

lemma wp_txAckedFlow (hack : ack=s.sndNxt) :
    wp sockWorld flowSpec [] (txAcked now) (fun _ s' => s.Advanced ack s') {s with sndUna := ack} := by
  rw [txAcked,wp_bind,wp_modify]
  refine ⟨guar_of_state rfl rfl,?_⟩
  rw [wp_bind,wp_gets]
  have hplain : s.Advanced ack {s with sndUna := ack, txSeg := none} := by
    have hadv : s.Advanced ack {s with sndUna := ack, txSeg := if ack=s.sndNxt then none else s.txSeg} :=
      .plain
    rwa [if_pos hack] at hadv
  refine ⟨flowSpec_guar_refl _,wp_when (fun hcond => ?_) fun _ => hplain⟩
  simp only [id,Bool.and_eq_true,Bool.or_eq_true,decide_eq_true_eq] at hcond
  rw [wp_bind]
  refine wp_mono (wp_sendFinFlow hcond.2 hack) fun ok s1 h1 => ?_
  refine wp_when (fun _ => wp_modify.2 ⟨guar_of_state rfl rfl,?_⟩) fun _ => .fin hcond.2 hack h1
  have h2 : Sock.FinTried {s with sndUna := ack, txSeg := none} ok {s1 with finPending := false} :=
    ⟨fun hu => {h1.flow hu with},h1.una,h1.sent,h1.failed⟩
  exact .fin hcond.2 hack h2

lemma wp_ackFlow (hf : s.Flow) (ack : Seq) :
    wp sockWorld flowSpec [] (tcpAckAdvance now ack) (fun ok s' =>
      ok=false ∧ s'=s ∧ (s.proto≠.tcp ∨ ¬s.Awaits ack) ∨
      ok=true ∧ s.Awaits ack ∧ s.Advanced ack s') s := by
  rw [tcpAckAdvance,wp_bind,wp_gets]
  refine ⟨flowSpec_guar_refl s,wp_ite (fun hcond => ?_) fun hcond => ?_⟩
  · refine .inl ⟨rfl,rfl,hcond.imp_right fun hcond ha => ?_⟩
    rcases hcond with h | h | h
    · exact ha.new h
    · exact Bool.false_ne_true (ha.low.symm.trans h)
    · exact Bool.false_ne_true (ha.high.symm.trans h)
  · have ha : s.Awaits ack := by
      refine ⟨fun h => hcond (.inr (.inl h)),?_,?_⟩
      · by_contra h
        exact hcond (.inr (.inr (.inl (by simpa using h))))
      · by_contra h
        exact hcond (.inr (.inr (.inr (by simpa using h))))
    rw [wp_bind,wp_modify]
    refine ⟨guar_of_state rfl rfl,?_⟩
    rw [wp_bind]
    refine wp_when (fun hany => ?_) fun hany => ?_
    · obtain ⟨t,ht,hlt⟩ := (Option.any_eq_true _ _).1 hany
      have hack : ack=s.sndNxt := by
        refine seq_eq_of_bounds ?_ ha.high
        rw [← hf.tx_end ha.ne ht]
        simpa using hlt
      exact wp_mono (wp_txAckedFlow hack) fun _ s' h => .inr ⟨rfl,ha,h⟩
    · refine .inr ⟨rfl,ha,?_⟩
      have hnone : (if ack=s.sndNxt then none else s.txSeg)=s.txSeg := by
        split
        next hack =>
          cases ht : s.txSeg with
          | none => rfl
          | some t =>
            have hlt : tcpSeqLt ack (tcpTxSegEndSeq t)=false := by
              rw [hf.tx_end ha.ne ht,hack]
              simp [tcpSeqLt]
            simp [ht,hlt] at hany
        · rfl
      have hadv : s.Advanced ack {s with sndUna := ack, txSeg := if ack=s.sndNxt then none else s.txSeg} :=
        .plain
      rwa [hnone] at hadv

lemma Sock.Goes.of_acked (t : TcpState) (hst : s'.state=t) (hne : s.sndUna≠s.sndNxt)
    (hu : s'.used=s.used) (heq : s'.sndUna=s'.sndNxt) (htx : s'.txSeg=none) (hop : ¬t.Opening)
    (hfin : t≠.finWait1) (hse : t.Sends → s.state.Sends ∨ s.state.Opening)
    (hc : s.state=.closed → t=.closed)
    (hl : t=.established → s'.rxClosed=true → s.Late) : s.Goes s' := by
  subst hst
  exact ⟨fun _ => ⟨fun _ => htx,fun ho => absurd ho hop,fun h => absurd h hfin,fun _ _ => heq,
      fun t ht => by rw [htx] at ht; cases ht⟩,
    ⟨fun h => hu ▸ h,fun _ h => absurd h hne,fun _ ho => absurd ho hop,fun _ _ _ => heq,fun _ => hse,
      fun _ => hc,fun _ h => hl h.1 h.2⟩⟩

lemma Sock.allAcked_used (s : Sock) : (s.allAcked now).used=s.used := by
  unfold allAcked
  split
  case h_3 => split <;> rfl
  all_goals rfl

lemma allAcked_goes (hf : s.Flow) (ha : s.Awaits ack) (hack : ack=s.sndNxt)
    (hlate : s.state=.finWait1 → s.rxClosed=false) :
    flowSpec.guar {s with sndUna := ack, txSeg := none}
      (Sock.allAcked now {s with sndUna := ack, txSeg := none}) ∧
    s.Goes (Sock.allAcked now {s with sndUna := ack, txSeg := none}) := by
  unfold Sock.allAcked
  split
  next hst =>
    have hst : s.state=.synRecv := hst
    have hrx := (hf.opening (.inr hst)).2
    exact ⟨⟨rfl,fun _ => .inr (by simp [hst,tcpEdge])⟩,.of_acked .established rfl ha.ne rfl hack rfl (by decide)
      nofun (fun _ => .inr (.inr hst)) (by simp [hst]) fun _ hl => nomatch hrx.symm.trans hl⟩
  next hst =>
    have hst : s.state=.synSent := hst
    have hrx := (hf.opening (.inl hst)).2
    exact ⟨⟨rfl,fun _ => .inr (by simp [hst,tcpEdge])⟩,.of_acked .established rfl ha.ne rfl hack rfl (by decide)
      nofun (fun _ => .inr (.inl hst)) (by simp [hst]) fun _ hl => nomatch hrx.symm.trans hl⟩
  next hst =>
    have hst : s.state=.finWait1 := hst
    rw [if_neg (by simp [hlate hst])]
    exact ⟨⟨rfl,fun _ => .inr (by simp [hst,tcpEdge])⟩,.of_acked .finWait2 rfl ha.ne rfl hack rfl (by decide)
      nofun (fun h => absurd h (by decide)) (by simp [hst]) nofun⟩
  next hst =>
    have hst : s.state=.closing := hst
    exact ⟨⟨rfl,fun _ => .inr (by simp [hst,tcpEdge,Sock.enterTimeWait])⟩,.of_acked .timeWait rfl ha.ne rfl hack
      rfl (by decide) nofun (fun h => absurd h (by decide)) (by simp [hst]) nofun⟩
  next hst =>
    exact ⟨⟨rfl,fun _ => .inr rfl⟩,.of_acked .closed rfl ha.ne rfl hack rfl (by decide) nofun
      (fun h => absurd h (by decide)) (fun _ => rfl) nofun⟩
  next h1 h2 h3 h4 h5 =>
    have hop : ¬s.state.Opening := fun ho => ho.elim h2 h1
    exact ⟨flowSpec_guar_refl _,.of_acked s.state rfl ha.ne rfl hack rfl hop h3 .inl id fun h h' => ⟨h,h'⟩⟩

lemma partAcked_goes (hf : s.Flow) (ha : s.Awaits ack) (hack : ack≠s.sndNxt) :
    s.Goes {s with sndUna := ack} := by
  have hop : ¬s.state.Opening := fun ho => by
    have hn := (hf.opening ho).1
    exact hack (hn ▸ seq_eq_succ ha.new ha.low (hn ▸ ha.high))
  have hidle : s.state.Sends → s.txSeg≠none := fun hse htx => ha.ne (hf.idle hse htx)
  refine ⟨fun _ => ⟨hf.closed,fun ho => absurd ho hop,fun _ => hack,fun hse htx => absurd htx (hidle hse),
    fun t ht => .inl (hf.tx_end ha.ne ht)⟩,?_⟩
  exact ⟨id,fun _ h => absurd h ha.ne,fun _ _ => rfl,fun _ ho => absurd ho hop,fun _ h => .inl h,
    fun _ h => h,fun _ h => h⟩

lemma advanced_goes (now : ℕ) (hu : s.used=true) (hf : s.Flow) (ha : s.Awaits ack)
    (hlate : s.state=.finWait1 → s.rxClosed=true → ack≠s.sndNxt) (h : s.Advanced ack s1) :
    flowSpec.guar s1 (if ack=s1.sndNxt then s1.allAcked now else s1) ∧
    s.Goes (if ack=s1.sndNxt then s1.allAcked now else s1) := by
  cases h with
  | plain =>
    by_cases hack : ack=s.sndNxt
    · simp only [if_pos hack]
      exact allAcked_goes hf ha hack fun hst => by
        by_contra hrx
        exact hlate hst (by simpa using hrx) hack
    · simp only [if_neg hack]
      exact ⟨flowSpec_guar_refl _,partAcked_goes hf ha hack⟩
  | @fin ok _ hst hack h =>
    have hused : (if ack=s1.sndNxt then s1.allAcked now else s1).used=s1.used := by
      split
      · exact Sock.allAcked_used s1
      · rfl
    by_cases hu1 : s1.used=true
    · have hsame : (if ack=s1.sndNxt then s1.allAcked now else s1)=s1 := by
        cases ok with
        | true =>
          rw [if_neg]
          rw [(h.sent hu1 rfl).1,hack]
          simp
        | false =>
          have hno : s1.allAcked now=s1 := by
            unfold Sock.allAcked
            rcases (h.failed hu1 rfl).2.1 with hs | hs | hs <;> simp [hs]
          rw [hno,ite_self]
      rw [hsame]
      refine ⟨flowSpec_guar_refl _,h.flow,fun _ => hu,fun _ heq => absurd heq ha.ne,?_,
        fun _ ho => absurd ho hst.not_opening,fun _ _ => .inl hst,
        fun _ hc => by rcases hst with h | h <;> simp [h] at hc,?_⟩
      · intro _ ho
        cases ok with
        | true => exact absurd ho (h.sent hu1 rfl).2.2
        | false =>
          rcases (h.failed hu1 rfl).2.1 with hs | hs
          · rw [hs] at ho
            exact absurd ho (by decide)
          · exact absurd ho hs.not_opening
      · intro _ hl
        cases ok with
        | true => exact absurd (.inl hl.1) (h.sent hu1 rfl).2.1
        | false => exact (h.failed hu1 rfl).2.2 hl
    · have hno : (if ack=s1.sndNxt then s1.allAcked now else s1).used=false := by
        rw [hused]
        simpa using hu1
      refine ⟨⟨hused,fun h => absurd h hu1⟩,fun h => ?_,.of_unused hno⟩
      rw [hno] at h
      cases h

lemma Sock.Flow.awaits (hf : s.Flow) (ho : s.state.Opening) (hlow : ¬tcpSeqLt ack s.sndUna=true)
    (hack : ack=s.sndNxt) : s.Awaits ack := by
  have hn := (hf.opening ho).1
  refine ⟨?_,by simpa using hlow,?_⟩
  · rw [hack,hn]
    simp
  · rw [hack]
    simp [tcpSeqGt]

/-- The acknowledgement of a segment; afterwards a connection that was being opened is open if
everything is acknowledged. -/
lemma wp_processAckFlow (hu : s.used=true) (hf : s.Flow) (hp : s.proto=.tcp)
    (hlate : s.state=.finWait1 → s.rxClosed=true → ack≠s.sndNxt) :
    wp sockWorld flowSpec [] (processAck now ack) (fun go s' => s.Goes s' ∧
      (go=true → ack=s.sndNxt → s.state.Opening → s'.used=true → ¬s'.state.Opening)) s := by
  rw [processAck,wp_bind,wp_gets]
  refine ⟨flowSpec_guar_refl s,wp_ite (fun _ => ?_) fun hrange => ?_⟩
  · rw [wp_bind]
    exact wp_mono (leads_sendAck (C := flowContract) fun _ => hf) fun _ s1 h1 => ⟨h1,fun h => by cases h⟩
  · rw [wp_bind]
    refine wp_mono (wp_ackFlow hf ack) fun ok s1 h1 => ?_
    rcases h1 with ⟨rfl,rfl,hno⟩ | ⟨rfl,ha,hadv⟩
    · refine ⟨Sock.Goes.refl fun _ => hf,fun _ hack ho => ?_⟩
      rcases hno with hno | hno
      · exact absurd hp hno
      · exact absurd (hf.awaits ho (fun h => hrange (.inl h)) hack) hno
    · refine wp_ite (fun _ => ?_) fun h => absurd rfl h
      rw [wp_bind,wp_modify]
      obtain ⟨hg,hgoes⟩ := advanced_goes now hu hf ha hlate hadv
      refine ⟨hg,hgoes,fun _ hack ho hu' ho' => ?_⟩
      cases hadv with
      | plain =>
        have hs := hgoes.rel.opening hu' ho'
        simp only [if_pos hack] at hs ho'
        unfold Sock.allAcked at ho'
        rcases ho with ho | ho
        · simp only [ho] at ho'
          exact absurd ho' (by decide)
        · simp only [ho] at ho'
          exact absurd ho' (by decide)
      | fin hst => exact absurd ho hst.not_opening

lemma Sock.finReceived_fields (now : ℕ) (s : Sock) : (s.finReceived now).used=s.used ∧
    (s.finReceived now).sndUna=s.sndUna ∧ (s.finReceived now).sndNxt=s.sndNxt ∧
    (s.finReceived now).txSeg=s.txSeg ∧ (s.finReceived now).rxClosed=s.rxClosed := by
  unfold finReceived
  split
  case h_2 => split <;> exact ⟨rfl,rfl,rfl,rfl,rfl⟩
  all_goals exact ⟨rfl,rfl,rfl,rfl,rfl⟩

lemma Sock.finReceived_state (now : ℕ) (h : s.state=.finWait1 → s.sndUna≠s.sndNxt) :
    s.state=.established ∧ (s.finReceived now).state=.closeWait ∨
    (s.state=.finWait1 ∧ (s.finReceived now).state=.closing ∨
      s.state=.finWait2 ∧ (s.finReceived now).state=.timeWait) ∨
    s.state≠.established ∧ s.state≠.finWait1 ∧ (s.finReceived now).state=s.state := by
  unfold finReceived
  split
  next hst => exact .inl ⟨hst,rfl⟩
  next hst =>
    rw [if_neg (h hst)]
    exact .inr (.inl (.inl ⟨hst,rfl⟩))
  next hst => exact .inr (.inl (.inr ⟨hst,rfl⟩))
  next hst => exact .inr (.inr ⟨by simp [hst],by simp [hst],hst.symm⟩)
  next h1 h2 h3 h4 => exact .inr (.inr ⟨h1,h2,rfl⟩)

lemma Sock.finReceived_moves (h : s.Flow) : s.state.Moves (s.finReceived now).state := by
  rcases Sock.finReceived_state now h.finWait1 with ⟨h1,h2⟩ | (⟨h1,h2⟩ | ⟨h1,h2⟩) | ⟨_,_,h2⟩
  · exact .inr (by rw [h1,h2]; rfl)
  · exact .inr (by rw [h1,h2]; rfl)
  · exact .inr (by rw [h1,h2]; rfl)
  · exact .inl h2

lemma Sock.Flow.move (h : s.Flow) (t : TcpState) (hst : s'.state=t) (ha : s'.sndUna=s.sndUna)
    (hn : s'.sndNxt=s.sndNxt) (ht : s'.txSeg=s.txSeg) (hc : t≠.closed) (ho : ¬t.Opening)
    (hf : t≠.finWait1) (hse : t.Sends → s.state.Sends) : s'.Flow := by
  subst hst
  refine ⟨fun h => absurd h hc,fun h => absurd h ho,fun h => absurd h hf,fun hs => ?_,?_⟩
  · rw [ht,ha,hn]
    exact h.idle (hse hs)
  · rw [ht,ha,hn]
    exact h.tx

lemma Sock.finReceived_flow (h : s.Flow) : (s.finReceived now).Flow := by
  obtain ⟨hu,ha,hn,ht,hr⟩ := Sock.finReceived_fields now s
  rcases Sock.finReceived_state now h.finWait1 with ⟨h1,h2⟩ | (⟨_,h2⟩ | ⟨_,h2⟩) | ⟨_,_,h2⟩
  · exact h.move .closeWait h2 ha hn ht nofun (by decide) nofun fun _ => .inl h1
  · exact h.move .closing h2 ha hn ht nofun (by decide) nofun fun h => absurd h (by decide)
  · exact h.move .timeWait h2 ha hn ht nofun (by decide) nofun fun h => absurd h (by decide)
  · refine h.of_flow ?_
    simp only [Sock.flow,Sock.txEnd,hu,ha,hn,ht,hr,h2]

lemma finReceived_goes (hop : s.used=true → ¬s.state.Opening)
    (hs1 : s1={s with rcvNxt := s.rcvNxt+1, rxClosed := true}) (h : s1.Goes s2) :
    s.Goes (s2.finReceived now) := by
  subst hs1
  obtain ⟨hu,ha,hn,ht,hr⟩ := Sock.finReceived_fields now s2
  refine ⟨fun hu3 => Sock.finReceived_flow (h.inv (hu ▸ hu3)),?_⟩
  have hused : (s2.finReceived now).used=true → s.used=true := fun hu3 => h.rel.used (hu ▸ hu3)
  have hstate : (s2.finReceived now).used=true → _ := fun hu3 =>
    Sock.finReceived_state now (h.inv (hu ▸ hu3)).finWait1
  have hclosed (hu3 : (s2.finReceived now).used=true) (hc : s2.state=.closed) :
      (s2.finReceived now).state=.closed := by
    have h1 := hstate hu3
    simp only [hc] at h1
    simpa using h1
  refine ⟨hused,fun hu3 heq hst => ?_,fun hu3 ho => ?_,fun hu3 ho => absurd ho (hop (hused hu3)),
    fun hu3 hse => ?_,fun hu3 hc => ?_,fun hu3 hl => ?_⟩
  · obtain ⟨ha2,hn2,hs2⟩ := h.rel.acked (hu ▸ hu3) heq hst
    refine ⟨ha.trans ha2,hn.trans hn2,?_⟩
    have htx : (s2.finReceived now).txEnd=s2.txEnd := by rw [Sock.txEnd,ht,Sock.txEnd]
    rcases hs2 with hc2 | ⟨hc,ht2,hs2⟩
    · exact .inl (hclosed hu3 hc2)
    · refine .inr ⟨hc,htx.trans ht2,?_⟩
      have hse : s2.state.Sends := by
        rcases hs2 with hs2 | hs2
        · exact hs2 ▸ hst.resolve_right hc
        · exact .inr hs2
      rcases hstate hu3 with ⟨_,h2⟩ | h1 | ⟨_,_,h2⟩
      · exact .inr h2
      · rcases h1 with ⟨h1,_⟩ | ⟨h1,_⟩ <;> exact absurd (h1 ▸ hse) (by decide)
      · rw [h2]
        exact hs2
  · rcases hstate hu3 with ⟨_,h2⟩ | h2 | ⟨_,_,h2⟩
    · exact absurd (h2 ▸ ho) (by decide)
    · rcases h2 with ⟨_,h2⟩ | ⟨_,h2⟩ <;> exact absurd (h2 ▸ ho) (by decide)
    · exact h2.trans (h.rel.opening (hu ▸ hu3) (h2 ▸ ho))
  · refine h.rel.sends (hu ▸ hu3) ?_
    rcases hstate hu3 with ⟨h1,_⟩ | h2 | ⟨_,_,h2⟩
    · exact .inl h1
    · rcases h2 with ⟨_,h2⟩ | ⟨_,h2⟩ <;> exact absurd (h2 ▸ hse) (by decide)
    · exact h2 ▸ hse
  · exact hclosed hu3 (h.rel.closed (hu ▸ hu3) hc)
  · -- the FIN has taken the connection out of ESTABLISHED
    rcases hstate hu3 with ⟨_,h2⟩ | h2 | ⟨hne,_,h2⟩
    · exact nomatch h2.symm.trans hl.1
    · rcases h2 with ⟨_,h2⟩ | ⟨_,h2⟩ <;> exact nomatch h2.symm.trans hl.1
    · exact absurd (h2.symm.trans hl.1) hne

lemma leads_processFin (hop : s.used=true → ¬s.state.Opening) (finSeq : Seq) :
    flowContract.Leads (processFin now finSeq) s := by
  refine .gets <| .ite (fun _ => .bind leads_sendAck fun _ s1 _ => leads_sameFlow ?_) fun _ =>
    .ite (fun _ hs => ?_) fun _ => leads_sendAck
  · split
    next hst => simp [Sock.flow,Sock.txEnd,Sock.enterTimeWait,hst]
    · rfl
  · have hs1 : s.used=true → Sock.Flow {s with rcvNxt := s.rcvNxt+1, rxClosed := true} := fun hu =>
      {hs hu with opening := fun ho => absurd ho (hop hu)}
    refine wp_bind.2 ⟨guar_of_state rfl rfl,wp_bind.2 (wp_mono (leads_sendAck hs1) fun _ s2 h2 => ?_)⟩
    exact ⟨⟨(Sock.finReceived_fields now s2).1,fun hu => Sock.finReceived_moves (h2.inv hu)⟩,
      finReceived_goes hop rfl h2⟩

/-- What is asked of a segment: a FIN does not reach a connection whose opening it does not complete,
and the FIN of the slot is not acknowledged while that of the peer is being answered. -/
structure Sock.Accepts (s : Sock) (g : Segment) : Prop where
  fin : g.flags.fin=true → s.state=.synRecv → g.flags.ack=true ∧ g.ack=s.sndNxt
  late : g.flags.ack=true → s.state=.finWait1 → s.rxClosed=true → g.ack≠s.sndNxt

lemma leads_afterAck (go : Bool) (hop : go=true → g.flags.fin=true → s.used=true → ¬s.state.Opening) :
    flowContract.Leads (when go do
      match (← processPayload now g.seq g.payload) with
      | some finSeq => when g.flags.fin <| processFin now finSeq
      | none => pure ()) s := by
  refine .when fun hgo => .bind (leads_payload fun _ _ => leads_sameFlow rfl) fun r s1 hr => ?_
  cases r with
  | none => exact .ret _
  | some finSeq =>
    refine .when fun hfin => leads_processFin (fun hu ho => hop hgo hfin (hr.used hu) ?_) finSeq
    exact hr.opening hu ho ▸ ho

lemma leads_processSegment (hu : s.used=true) (hp : s.proto=.tcp)
    (hsyn : s.state≠.synSent) (hg : s.Accepts g) : flowContract.Leads (processSegment now g) s := by
  have hrecv : s.state.Opening → s.state=.synRecv := fun ho => ho.resolve_left hsyn
  refine .given fun hs => .ite (fun hack => .bind_wp (wp_processAckFlow hu (hs hu) hp (hg.late hack)) fun go s1 hr h =>
    leads_afterAck go fun hgo hfin hu1 ho => ?_) fun hack => leads_afterAck true fun _ hfin _ ho => ?_
  · have ho0 : s.state.Opening := hr.opening hu1 ho ▸ ho
    exact h hgo (hg.fin hfin (hrecv ho0)).2 ho0 hu1 ho
  · exact hack (hg.fin hfin (hrecv ho)).1

lemma leads_synAnswered (hu : s.used=true) (hp : s.proto=.tcp)
    (hst : s.state=.synSent) (hack : g.ack=s.sndNxt) : flowContract.Leads (synAnswered now g) s := by
  intro hs
  have hf := hs hu
  have hf1 : Sock.Flow {s with irs := g.seq, rcvNxt := g.seq+1, peerWnd := g.window} := {hf with}
  have hn := (hf.opening (.inl hst)).1
  have hlow : ¬tcpSeqLt g.ack s.sndUna=true := by
    rw [hack,hn,tcpSeqLt,BitVec.msb_eq_decide]
    simp only [decide_eq_true_eq,Nat.not_le]
    bv_omega
  rw [synAnswered,wp_bind,wp_modify]
  refine ⟨guar_of_state rfl rfl,?_⟩
  rw [wp_bind]
  refine wp_mono (wp_ackFlow hf1 g.ack) fun ok s2 h2 => ?_
  rcases h2 with ⟨_,_,hno⟩ | ⟨_,ha,hadv⟩
  · rcases hno with hno | hno
    · exact absurd hp hno
    · exact absurd (hf1.awaits (.inl hst) hlow hack) hno
  · cases hadv with
    | fin hse => exact absurd (.inl hst) hse.not_opening
    | plain =>
      rw [wp_bind,wp_modify]
      have hne : s.sndUna≠s.sndNxt := ha.ne
      have hrx := (hf.opening (.inl hst)).2
      have hgoes : s.Goes {s with irs := g.seq, rcvNxt := g.seq+1, peerWnd := g.window, sndUna := g.ack
                                  txSeg := if g.ack=s.sndNxt then none else s.txSeg
                                  state := .established} :=
        .of_acked .established rfl hne rfl hack (if_pos hack) (by decide) (fun h => by cases h)
          (fun _ => .inr (.inl hst)) (by simp [hst]) fun _ hl => by cases hrx.symm.trans hl
      refine ⟨⟨rfl,fun _ => .inr (by simp [hst,tcpEdge])⟩,?_⟩
      exact wp_mono (leads_sendAck hgoes.inv) fun _ s3 h3 => ⟨h3.inv,hgoes.rel.trans h3.rel⟩

/-- What the calls of the owner leave of a slot. -/
structure Sock.Tame (s s' : Sock) : Prop where
  used : s'.used=true → s.used=true
  late : s'.used=true → s'.Late → s.Late

abbrev ownedContract : Contract Sock SockCall Empty := ⟨sockWorld,flowSpec,[],Sock.Tame⟩

instance ownedWalk : Walk ownedContract where
  refl _ := ⟨id,fun _ => id⟩
  trans h h' := ⟨fun hu => h.used (h'.used hu),fun hu hl => h.late (h'.used hu) (h'.late hu hl)⟩
  still s _ := flowSpec_guar_refl s
  call _ _ _ hs := ⟨hs,fun _ hi hr => ⟨hi,hr.used,hr.late⟩⟩

abbrev Sock.Owned (s s' : Sock) : Prop := ownedContract.Ends s s'

lemma Sock.Owned.of_flow (hs : s.used=true → s.Flow) (h : s'.flow=s.flow) : s.Owned s' :=
  have hgo := Sock.Goes.of_flow hs h
  ⟨hgo.inv,hgo.rel.used,hgo.rel.late⟩

lemma leads_sameFlowOwned {f : Sock → Sock} (h : (f s).flow=s.flow) : ownedContract.Leads (modify f) s :=
  fun hs => ⟨(leads_sameFlow h hs).1,Sock.Owned.of_flow hs h⟩

lemma Sock.FinTried.owned {ok : Bool} (h : s.FinTried ok s') (hu : s.used=true) : s.Owned s' := by
  refine ⟨h.flow,fun _ => hu,fun hu hl => ?_⟩
  cases ok with
  | true => exact absurd (.inl hl.1) (h.sent hu rfl).2.1
  | false => exact (h.failed hu rfl).2.2 hl

lemma leads_shutdown (rd wr : Bool) : ownedContract.Leads (netSocketShutdown now rd wr) s := by
  refine .given fun hs => .gets <| .ite (fun _ => .ret _) fun hused => .ite (fun _ => .ret _) fun _ => ?_
  have hu : s.used=true := by
    by_contra h
    exact hused (.inl (by simpa using h))
  refine .bind_wp (P := fun _ s1 => s1.used=true) (wp_when (fun _ => ?_) fun _ => ⟨⟨hs,ownedWalk.refl s⟩,hu⟩)
    fun _ s1 _ hu1 => .drop (.when fun _ => ?_) _
  · exact ⟨guar_of_state rfl rfl,Sock.Owned.of_flow hs rfl,hu⟩
  · refine .step (leads_sameFlowOwned rfl) <| .gets <| .ite (fun _ => leads_sameFlowOwned rfl) fun htx =>
      .when fun hst => .drop (fun hs1 => ?_) _
    simp only [id,Bool.or_eq_true,decide_eq_true_eq] at hst
    exact wp_mono (wp_sendFinFlow hst ((hs1 hu1).idle hst (by simpa using htx))) fun _ _ h2 => h2.owned hu1

lemma leads_readOwned {len : ℕ} {nonblock : Bool} : ownedContract.Leads (netSocketRead len nonblock) s :=
  leads_read fun _ => leads_sameFlowOwned rfl

lemma txEnd_data : tcpTxSegEndSeq ⟨.pshAck,seq,chunk,now,0⟩=seq+BitVec.ofNat 32 chunk.length := by
  simp [tcpTxSegEndSeq,TcpFlags.pshAck]

lemma written_owned (hst : s.state.Sends) (heq : s.sndUna=s.sndNxt)
    (h : Sock.Goes {s with txSeg := some ⟨.pshAck,s.sndNxt,chunk,now,0⟩} s2) :
    s.Owned {s2 with sndNxt := s2.sndNxt+BitVec.ofNat 32 chunk.length} := by
  refine ⟨fun hu => ?_,h.rel.used,h.rel.late⟩
  obtain ⟨ha,hn,hs⟩ := h.rel.acked hu heq (.inl hst)
  rcases hs with hc | ⟨_,ht,hs⟩
  · exact .of_closed hc ((h.inv hu).closed hc)
  · have hse : s2.state.Sends := by
      rcases hs with hs | hs
      · exact hs ▸ hst
      · exact .inr hs
    have hend : s2.txEnd=some (s.sndNxt+BitVec.ofNat 32 chunk.length) := ht.trans (by simp [Sock.txEnd,txEnd_data])
    refine ⟨fun hc => by rcases hse with h | h <;> simp [h] at hc,fun ho => absurd ho hse.not_opening,
      fun hf => by rcases hse with h | h <;> simp [h] at hf,fun _ hnone => ?_,fun t htx => .inl ?_⟩
    · rw [Sock.txEnd,hnone] at hend
      cases hend
    · have htx : s2.txSeg=some t := htx
      rw [Sock.txEnd,htx] at hend
      have hn : s2.sndNxt=s.sndNxt := hn
      rw [Option.some.inj hend,hn]

lemma unsent_owned {t : Option TxSeg}
    (hst : s.used=true → s.state.Sends ∧ s.sndUna=s.sndNxt ∨ s.state.Opening) (h : Sock.Goes {s with txSeg := t} s2) : s.Owned {s2 with txSeg := none} := by
  refine ⟨fun hu => ?_,h.rel.used,h.rel.late⟩
  refine ⟨fun _ => rfl,(h.inv hu).opening,(h.inv hu).finWait1,fun hse _ => ?_,nofun⟩
  rcases hst (h.rel.used hu) with ⟨hst,heq⟩ | hst
  · obtain ⟨ha,hn,_⟩ := h.rel.acked hu heq (.inl hst)
    change s2.sndUna=s2.sndNxt
    rw [ha,hn]
    exact heq
  · exact h.rel.opened hu hst hse

lemma leads_writeOwned (buf : Bytes) (nonblock : Bool) (depth : ℕ) :
    ownedContract.Leads (netSocketWrite now buf nonblock depth) s := by
  refine leads_write (P := fun _ => True) (fun _ _ _ _ => trivial) (fun s _ hu hst htx => ?_) depth trivial
  refine .gets <| .ite (fun _ => .ret _) fun hlen hs => wp_bind.2 ?_
  have heq := (hs hu).idle hst htx
  have hpos := decide_eq_true (Nat.pos_of_ne_zero hlen)
  refine wp_mono (wp_sendFlow (Bool.or_eq_true_iff.2 (.inr hpos)) fun _ => .send hst heq _) fun ok s1 h1 => ?_
  rcases h1 with ⟨rfl,rfl⟩ | ⟨s2,h2,⟨rfl,rfl⟩ | ⟨rfl,rfl⟩⟩
  · exact ⟨hs,ownedWalk.refl _⟩
  · exact ⟨guar_of_state rfl rfl,written_owned hst heq h2⟩
  · exact unsent_owned (fun _ => .inl ⟨hst,heq⟩) h2

lemma txEnd_syn (hsyn : flags.syn=true) (hfin : flags.fin=false) :
    tcpTxSegEndSeq ⟨flags,seq,[],now,0⟩=seq+1 := by
  simp [tcpTxSegEndSeq,hsyn,hfin]

lemma leads_syn {rcv : Seq} (ho : s.used=true → s.state.Opening ∧ s.sndNxt=seq+1)
    (hsyn : flags.syn=true) (hfin : flags.fin=false) :
    ownedContract.Leads (tcpSendSegment now flags seq rcv [] false) s := by
  intro hs
  have hs1 : s.used=true → Sock.Flow {s with txSeg := some ⟨flags,seq,[],now,0⟩} := by
    intro hu
    obtain ⟨ho,hseq⟩ := ho hu
    refine ⟨fun hc => ?_,(hs hu).opening,(hs hu).finWait1,fun hse => absurd ho hse.not_opening,
      fun t ht => .inl ?_⟩
    · rcases ho with h | h <;> simp [h] at hc
    · cases ht
      rw [txEnd_syn hsyn hfin]
      exact hseq.symm
  refine wp_mono (wp_sendFlow (by simp [hsyn]) hs1) fun ok s1 h1 => ?_
  rcases h1 with ⟨rfl,rfl⟩ | ⟨s2,h2,⟨rfl,rfl⟩ | ⟨rfl,rfl⟩⟩
  · exact ⟨hs,ownedWalk.refl _⟩
  · exact ⟨h2.inv,h2.rel.used,h2.rel.late⟩
  · exact unsent_owned (fun hu => .inr (ho hu).1) h2

end Programs
end FuriOS
