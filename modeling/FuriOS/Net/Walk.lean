import FuriOS.Net.Queue

/-! The code of the stack, walked through once for every contract: what is left to show is that the
few steps in it keep the contract. -/
namespace FuriOS
open Reentrant Reentrant.Act

/-- The environment of the code of one socket. -/
def sockWorld : Reentrant.World Sock SockCall Empty where
  emit _ _ s := s
  handler := Empty.elim
  enabled _ _ _ := False

section Walks
variable {C : Contract Sock SockCall Empty} [Walk C]
variable {s : Sock} {now len : ℕ} {flags : TcpFlags} {seq ack : Seq} {payload buf : Bytes}
variable {nonblock : Bool}

lemma leads_resend : C.Leads (tcpSendSegment now flags seq ack payload true) s :=
  .gets <| .ite (fun _ => .ret _) fun _ => .bind (.when nofun) fun _ _ _ => .bind (.call _) fun _ _ _ =>
    .bind (.when fun h => by simp at h) fun _ _ _ => .ret _

lemma leads_sendAck : C.Leads (tcpSendAck now) s :=
  .gets <| .when fun _ => .drop leads_resend _

lemma leads_payload (h : ∀ s data, C.Leads (modify fun s => s.receive data) s) :
    C.Leads (processPayload now seq payload) s :=
  .ite (fun _ => .ret _) fun _ => .gets <| .ite (fun _ => .drop leads_sendAck _) fun _ =>
    .ite (fun _ => .drop leads_sendAck _) fun _ =>
      .ite (fun _ => .step (h _ _) (.drop leads_sendAck _)) fun _ => .drop leads_sendAck _

lemma leads_tickResend {tx : TxSeg} (h : ∀ s, C.Leads (modify fun s =>
      {s with txSeg := s.txSeg.map fun t => {t with sentTick := now, retries := t.retries+1}}) s) :
    C.Leads (tickResend now tx) s :=
  .gets <| .bind leads_resend fun _ s1 _ => .ite (fun _ => h s1) fun _ => .ret _

lemma leads_read (h : ∀ s, C.Leads (modify fun s => {s with rx := (s.rx.read len).2}) s) :
    C.Leads (netSocketRead len nonblock) s := by
  have hread : ∀ s, C.Leads (tcpRxRead len) s := fun s => .gets <| .drop (h s) _
  have hrest : ∀ (r : ℤ) s, C.Leads (do
      let s ← gets id
      if s.error then pure (-socketErrorOr s 104,[])
      else if s.rxClosed ∨ s.state=.closed then pure (0,[])
      else if 0<s.rx.len then tcpRxRead len
      else pure (r,[])) s := fun r s => .gets <| .ite (fun _ => .ret _) fun _ =>
    .ite (fun _ => .ret _) fun _ => .ite (fun _ => hread s) fun _ => .ret _
  exact .gets <| .ite (fun _ => .ret _) fun _ => .ite (fun _ => .ret _) fun _ => .ite
    (fun _ => .ite (fun _ => hrest _ s) fun _ => .bind (.call _) fun _ s1 _ => hrest _ s1) fun _ => hread s

/-- Writing leads on if sending a chunk does, from states that the calls in between keep. -/
lemma leads_write {P : Sock → Prop} (hP : ∀ s s', P s → C.rel s s' → P s')
    (h : ∀ s, P s → s.used=true → s.state=.established ∨ s.state=.closeWait → s.txSeg=none →
      C.Leads (writeChunk now buf nonblock) s) (depth : ℕ) (hs : P s) :
    C.Leads (netSocketWrite now buf nonblock depth) s := by
  have honce : ∀ again : SockM ℤ, (∀ s, P s → C.Leads again s) → ∀ s, P s →
      C.Leads (writeOnce now buf nonblock again) s := by
    refine fun again hagain s hs => .gets <| .ite (fun _ => .ret _) fun hu => .ite (fun _ => .ret _) fun _ =>
      .ite (fun _ => .ret _) fun _ => .ite (fun _ => .ret _) fun hst => .ite (fun _ => .ret _) fun _ =>
      .ite (fun _ => ?_) fun htx => .ite (fun _ => .ret _) fun _ => .ite (fun _ => ?_) fun _ => ?_
    · exact .bind (.call _) fun _ s1 hr => .gets <| .ite (fun _ => hagain s1 (hP s s1 hs hr)) fun _ => .ret _
    · exact .bind (.call _) fun _ s1 hr => .gets <| .ite (fun _ => .ret _) fun _ =>
        .ite (fun _ => hagain s1 (hP s s1 hs hr)) fun _ => .ret _
    · refine h s hs ?_ ?_ (by simpa using htx)
      · by_contra hno
        exact hu (.inl (by simpa using hno))
      · by_contra hno
        exact hst (not_or.1 hno)
  induction depth generalizing s with
  | zero => exact honce _ (fun _ _ => .ret _) s hs
  | succ depth ih => exact honce _ (fun s1 h1 => ih h1) s hs

end Walks

section NetWalks
variable {C : Contract Net NetCall NetEvent} [Walk C]
variable {n : Net} {i l : SockIx} {now ip port len : ℕ} {rand : Seq} {g : Segment} {nonblock : Bool}
variable {backlog : ℤ} {proto : NetSockProto}

lemma leads_sendRst : C.Leads (tcpSendRstForSegment g len) n :=
  .ite (fun _ => .ret _) fun _ => .ite (fun _ => .drop (.call _) _) fun _ => .drop (.call _) _

/-- The answer to a SYN, if the new connection got into the queue. -/
def answerSyn (now : ℕ) (l c : SockIx) : NetM Unit := do
  let n ← gets id
  when ((n.socks c).listener=some l) <| onSock c do
    let _ ← tcpSendSegment now .synAck (n.socks c).iss (n.socks c).rcvNxt [] false

lemma leads_processTcpListener (h : ∀ c, (n.socks l).pending.length<(n.socks l).backlog →
      g.flags.syn=true → freeSock n=some c →
      C.Leads (modify fun n =>
        listenerQueueAdd l c (n.setSock c ((n.socks l).child g rand))) n ∧
      C.Leads (answerSyn now l c) (listenerQueueAdd l c (n.setSock c ((n.socks l).child g rand)))) :
    C.Leads (processTcpListener now rand l g) n := by
  refine .gets <| .ite (fun _ => .when fun _ => leads_sendRst) fun hroom => .when fun hsyn => ?_
  cases hfree : freeSock n with
  | none =>
    simp only [id,hfree]
    exact .ret _
  | some c =>
    simp only [id,hfree]
    obtain ⟨hadd,hanswer⟩ := h c (Nat.lt_of_not_le hroom) hsyn hfree
    exact .step hadd hanswer

lemma leads_processTcpEstablished
    (hwnd : C.Leads (modify fun n => n.modSock i fun s => {s with peerWnd := g.window}) n)
    (hrst : C.Leads (modify (tcpOnRst i)) (n.modSock i fun s => {s with peerWnd := g.window}))
    (hseg : C.Leads (onSock i (processSegment now g))
      (n.modSock i fun s => {s with peerWnd := g.window})) :
    C.Leads (processTcpEstablished now i g) n :=
  .step hwnd <| .ite (fun _ => hrst) fun _ => hseg

lemma leads_processTcpSynSent (hrst : C.Leads (modify (tcpOnRst i)) n)
    (h : g.ack=(n.socks i).sndNxt → C.Leads (onSock i (synAnswered now g)) n) :
    C.Leads (processTcpSynSent now i g) n :=
  .gets <| .ite (fun _ => leads_sendRst) fun _ => .ite (fun hack => h hack.2.2) fun _ => .when fun _ => hrst

lemma leads_processTcp (hnote : ∀ i, C.Leads (modify fun n => n.modSock i fun s => s.noteAck g) n)
    (hlis : ∀ i, tcpFindSocket n g=some i → (n.socks i).state=.listen →
      C.Leads (processTcpListener now rand i g) n)
    (hsyn : ∀ i, tcpFindSocket n g=some i → (n.socks i).state=.synSent →
      C.Leads (processTcpSynSent now i g) (n.modSock i fun s => s.noteAck g))
    (hest : ∀ i, tcpFindSocket n g=some i → (n.socks i).state≠.listen → (n.socks i).state≠.synSent →
      C.Leads (processTcpEstablished now i g) (n.modSock i fun s => s.noteAck g)) :
    C.Leads (processTcp now rand g) n := by
  refine .gets ?_
  simp only [id]
  cases hfind : tcpFindSocket n g with
  | none => exact leads_sendRst
  | some i => exact .ite (hlis i hfind) fun hl => .step (hnote i) <| .ite (hsyn i hfind) (hest i hfind hl)

lemma leads_tcpTickSlot (hreset : (n.socks i).detached=true ∨ (n.socks i).state=.timeWait ∧
        (n.socks i).timewaitDeadline≠0 ∧ (n.socks i).timewaitDeadline≤now →
      C.Leads (modify (socketReset i)) n)
    (hquit : (n.socks i).txSeg≠none → C.Leads (modify fun n =>
      tcpOnRst i (n.modSock i (socketSetError 110))) n)
    (h : ∀ tx, C.Leads (onSock i (tickResend now tx)) n) :
    C.Leads (tcpTickSlot now i) n := by
  refine .gets <| .ite (fun _ => .ret _) fun _ => .ite (fun hd => hreset (.inl hd.1)) fun _ =>
    .ite (fun ht => hreset (.inr ht)) fun _ => ?_
  cases htx : (n.socks i).txSeg with
  | none => exact .ret _
  | some tx => exact .ite (fun _ => .ret _) fun _ => .ite (fun _ => hquit (by simp [htx])) fun _ => h tx

lemma leads_netSocketCreate (h : ∀ i, freeSock n=some i →
      C.Leads (modify fun n => n.setSock i (Sock.fresh proto).own) n) :
    C.Leads (netSocketCreate proto) n := by
  refine .gets ?_
  cases hfree : freeSock n with
  | none =>
    simp only [id,hfree]
    exact .ret _
  | some i =>
    simp only [id,hfree]
    exact h i hfree

/-- The slot `i` was bound, and nothing else of it has changed. -/
def Net.Rebound (i : SockIx) (n n' : Net) : Prop :=
  ∃ b ip port, n'.socks i={n.socks i with bound := b, bindIp := ip, bindPort := port}

section
variable (h : ∀ e port, C.Leads (modify fun n => {n with nextEphemeral := e}.modSock i fun s => s.bindTo ip port) n)
include h

lemma wp_bindEphemeral (hn : C.spec.inv C.calls n) : wp C.world C.spec C.calls (bindEphemeral i ip)
      (fun _ n' => C.Ends n n' ∧ n.Rebound i n') n := by
  rw [bindEphemeral,wp_bind,wp_gets]
  refine ⟨Walk.still n hn,?_⟩
  split
  · exact ⟨⟨hn,Walk.refl n⟩,_,_,_,rfl⟩
  next port n' _ =>
    have hb := h n'.nextEphemeral port hn
    rw [wp_bind,wp_modify]
    exact ⟨hb.1,hb.2,_,_,_,Net.modSock_self _ _ _⟩

lemma leads_netSocketBind : C.Leads (netSocketBind i ip port) n :=
  .gets <| .ite (fun _ => .ret _) fun _ => .ite (fun _ => .given fun hn =>
    .bind_wp (wp_bindEphemeral h hn) fun _ _ _ _ => .ret _) fun _ => .ite (fun _ => .ret _) fun _ =>
      .drop (h n.nextEphemeral port) _

end

lemma leads_stillConnecting : C.Leads (stillConnecting i nonblock) n := by
  have hrest : ∀ n, C.Leads (do
      let s ← gets fun n => n.socks i
      if !nonblock ∧ (s.state=.established ∨ s.state=.closeWait) then pure 0
      else if s.error then pure (-socketErrorOr s 111)
      else pure (if nonblock then -114 else -2)) n := fun n =>
    .gets <| .ite (fun _ => .ret _) fun _ => .ite (fun _ => .ret _) fun _ => .ret _
  exact .ite (fun _ => hrest n) fun _ => .bind (.call _) fun _ n1 _ => hrest n1

section
variable (hbind : ∀ e ip port, C.Leads (modify fun n => {n with nextEphemeral := e}.modSock i fun s => s.bindTo ip port) n)
include hbind

lemma leads_netSocketConnect (h : ∀ n', n.Rebound i n' → (n.socks i).used=true → (n.socks i).state=.closed →
      C.Leads (sendSyn now rand i ip port nonblock) n') :
    C.Leads (netSocketConnect now rand i ip port nonblock) n := by
  refine .gets <| .ite (fun _ => .ret _) fun hu => .ite (fun _ => .ret _) fun _ => .ite (fun _ => .ret _)
    fun _ => .ite (fun _ => .ret _) fun _ => .ite (fun _ => leads_stillConnecting) fun _ =>
    .ite (fun _ => .ret _) fun hst => ?_
  have hused : (n.socks i).used=true := by
    by_contra hno
    exact hu (.inl (by simpa using hno))
  exact .ite (fun _ => h n ⟨_,_,_,rfl⟩ hused (not_not.1 hst)) fun _ => .given fun hn =>
    .bind_wp (wp_bindEphemeral (fun e => hbind e _) hn) fun _ n1 _ hr =>
      .ite (fun _ => h n1 hr hused (not_not.1 hst)) fun _ => .ret _

lemma leads_netSocketListen (h : ∀ n', n.Rebound i n' → (n.socks i).proto=.tcp →
      C.Leads (startListening i backlog) n') :
    C.Leads (netSocketListen i backlog) n := by
  refine .gets <| .ite (fun _ => .ret _) fun hcond => ?_
  have htcp : (n.socks i).proto=.tcp := by
    by_contra hp
    exact hcond (.inr hp)
  exact .ite (fun _ => h n ⟨_,_,_,rfl⟩ htcp) fun _ => .given fun hn =>
    .bind_wp (wp_bindEphemeral (fun e => hbind e 0) hn) fun _ n1 _ hr =>
      .ite (fun _ => h n1 hr htcp) fun _ => .ret _

end

lemma leads_netSocketAccept (hprune : ∀ n, C.Leads (modify (listenerQueuePrune l)) n)
    (h : ∀ n c, establishedChild n l=some c → C.Leads (modify fun n =>
      (listenerQueueRemove l c n).modSock c Sock.handOut) n) :
    C.Leads (netSocketAccept l nonblock) n := by
  have htake : ∀ n, C.Leads (listenerQueueTakeEstablished l) n := by
    refine fun n => .step (hprune n) (.gets ?_)
    generalize listenerQueuePrune l n=m
    cases hfind : establishedChild m l with
    | none =>
      simp only [id,hfind]
      exact .ret _
    | some c =>
      simp only [id,hfind]
      exact .drop (h m c hfind) _
  refine .gets <| .ite (fun _ => .ret _) fun _ => .bind (htake n) fun r n1 _ => ?_
  cases r with
  | some c => exact .ret _
  | none => exact .ite (fun _ => .ret _) fun _ => .bind (.call _) fun _ n2 _ => htake n2

end NetWalks

end FuriOS
