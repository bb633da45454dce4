import FuriOS.Net.Walk

/-! The code of one socket, proved against a contract of its slot: it leaves the links of the table
alone, and a connection in a queue is established only by the acknowledgement of its SYN. -/
namespace FuriOS
open Reentrant Reentrant.Act

def sockSpec (full : Prop) : Spec Sock SockCall where
  inv _ s := full → s.Settled
  rely _ s s' := s'.hist.owned=s.hist.owned ∧ (full →
    (s.listener=none → s'.listener=none) ∧ (s'.state=.listen → s.state=.listen))
  guar := Sock.Soft full

abbrev sockContract (full : Prop) : Contract Sock SockCall Empty :=
  ⟨sockWorld,sockSpec full,[],(sockSpec full).rely []⟩

/-- The code runs from `s` and keeps the contract. -/
abbrev Sock.Runs {α : Type} (full : Prop) (s : Sock) (p : SockM α) : Prop := (sockContract full).Leads p s

instance sockWalk (full : Prop) : Walk (sockContract full) where
  refl _ := ⟨rfl,fun _ => ⟨id,id⟩⟩
  trans h h' := ⟨h'.1.trans h.1,fun hf =>
    ⟨fun hl => (h'.2 hf).1 ((h.2 hf).1 hl),fun hl => (h.2 hf).2 ((h'.2 hf).2 hl)⟩⟩
  still s _ := .refl s
  call _ _ _ hs := ⟨hs,fun _ hi hr => ⟨hi,hr⟩⟩

/-- The socket is in no queue and has none. -/
def Sock.Loose (full : Prop) (s : Sock) : Prop := full → s.listener=none ∧ s.state≠.listen

section Sock
variable {full : Prop} {s s' s'' : Sock} {now : ℕ} {f : Sock → Sock}

lemma Sock.Loose.mono (h : s.Loose full) (hr : (sockSpec full).rely [] s s') : s'.Loose full := fun hf =>
  ⟨(hr.2 hf).1 (h hf).1,fun hl => (h hf).2 ((hr.2 hf).2 hl)⟩

lemma Sock.Soft.runs (h : s.Soft full (f s)) : s.Runs full (modify f) := fun hs =>
  ⟨h,fun hf => h.settled hf (hs hf),h.owned,fun hf => ⟨fun hl => h.listener.trans hl,(h.listen hf).1⟩⟩

/-- The part of a socket that links it to the rest of the table. -/
def Sock.links (s : Sock) :
    Bool × NetSockProto × List SockIx × Option SockIx × Bool × SockHistory :=
  (s.used,s.proto,s.pending,s.listener,s.detached,s.hist)

/-- What decides whether a socket is settled, apart from the links. -/
def Sock.phase (s : Sock) : ℕ × TcpState × Bool × Seq × Seq × Bool × Option TxSeg :=
  (s.refs,s.state,s.finPending,s.sndNxt,s.iss,s.error,s.txSeg)

lemma Sock.Soft.of_links (h : s'.links=s.links) : s.Soft False s' := by
  simp only [links,Prod.mk.injEq] at h
  obtain ⟨hu,hp,hq,hl,hd,hh⟩ := h
  exact ⟨hu,hp,hq,hl,by rw [hh],.inl hd,⟨by rw [hh],by rw [hh]; exact id⟩,False.elim,False.elim⟩

lemma Sock.Soft.of_phase (h : s'.links=s.links) (h' : s'.phase=s.phase) : s.Soft full s' := by
  have hlinks := of_links h
  simp only [links,phase,Prod.mk.injEq] at h h'
  obtain ⟨_,_,_,hl,_,hh⟩ := h
  obtain ⟨hr,hs,hf,hn,hi,he,ht⟩ := h'
  refine {hlinks with listen := fun _ => by rw [hs], settled := fun _ hset => ⟨fun hne => ?_,?_⟩}
  · obtain ⟨hr1,hf1,hn1,he1,hk1,hs1⟩ := hset.waiting (hl ▸ hne)
    exact ⟨hr ▸ hr1,hf ▸ hf1,by rw [hn,hi,hn1],he ▸ he1,hh ▸ hk1,by rw [hs,hh]; exact hs1⟩
  · rw [hs,ht]
    exact hset.calm

lemma Sock.Loose.soft (h : s.Loose full) (hst : full → s'.state≠.listen) (hl : s'.links=s.links) :
    s.Soft full s' :=
  {Soft.of_links hl with
    listen := fun hf => ⟨fun hs => absurd hs (hst hf),fun hs => absurd hs (h hf).2⟩
    settled := fun hf _ => ⟨fun hne => absurd ((Soft.of_links hl).listener.trans (h hf).1) hne,
      fun hs => absurd hs (hst hf)⟩}

lemma Sock.Soft.tx {t : Option TxSeg} (h : full → s.state=.listen → t=none) :
    s.Soft full {s with txSeg := t} :=
  ⟨rfl,rfl,rfl,rfl,rfl,.inl rfl,⟨rfl,id⟩,fun _ => Iff.rfl,
    fun hf hs => ⟨fun hl => {hs.waiting hl with},h hf⟩⟩

lemma runs_sendSegment {flags : TcpFlags} {seq ack : Seq} {payload : Bytes}
    (h : full → s.state≠.listen) :
    s.Runs full (tcpSendSegment now flags seq ack payload false) := by
  have hsend : s.Soft full {s with txSeg := some ⟨flags,seq,payload,now,0⟩} :=
    .tx fun hf hl => absurd hl (h hf)
  exact .gets <| .ite (fun _ => .ret _) fun _ => .bind (.when fun _ => hsend.runs) fun _ _ _ =>
    .bind (.call _) fun _ _ _ => .drop (.when fun _ => Sock.Soft.runs (.tx fun _ _ => rfl)) _

lemma Sock.finSent_links (s : Sock) : s.finSent.links=s.links := by
  unfold finSent
  split <;> rfl

lemma Sock.finSent_listen (h : s.state≠.listen) : s.finSent.state≠.listen := by
  unfold finSent
  split
  · nofun
  · nofun
  · exact h

lemma runs_sendFinNow (h : s.Loose full) : s.Runs full (tcpSendFinNow now) := by
  refine .gets <| .ite (fun _ => .ret _) fun _ => .bind (runs_sendSegment fun hf => (h hf).2) fun _ s1 hr =>
    .ite (fun _ => ?_) fun _ => .ret _
  have h1 := h.mono hr
  have hnxt : s1.Soft full {s1 with sndNxt := s.sndNxt+1} := h1.soft (fun hf => (h1 hf).2) rfl
  refine .step hnxt.runs (.drop (Sock.Soft.runs ?_) _)
  exact Sock.Loose.soft h1 (fun hf => Sock.finSent_listen (h1 hf).2) (Sock.finSent_links _)

lemma Sock.Settled.loose (h : full → s.Settled) (hfin : s.finPending=true)
    (hst : s.state=.established ∨ s.state=.closeWait) : s.Loose full := by
  refine fun hf => ⟨by_contra fun hl => ?_,by rcases hst with h | h <;> simp [h]⟩
  have hno := ((h hf).waiting hl).noFin
  rw [hfin] at hno
  cases hno

/-- Only a FIN that waited for the acknowledgement changes more of the socket. -/
lemma wp_txAcked (hs : full → s.Settled) :
    wp sockWorld (sockSpec full) [] (txAcked now) (fun _ s' =>
      (sockContract full).Ends s s' ∧
      (s.finPending=false → s'={s with txSeg := none})) s := by
  have hclear : s.Runs full (modify fun s => {s with txSeg := none}) := Sock.Soft.runs (.tx fun _ _ => rfl)
  by_cases hfin : s.finPending=false
  · refine ⟨(hclear hs).1,.refl _,wp_when (fun hc => ?_) fun _ => ⟨(hclear hs).2,fun _ => rfl⟩⟩
    simp [hfin] at hc
  · suffices h : s.Runs full (txAcked now) from wp_mono (h hs) fun _ _ h' => ⟨h',fun h => absurd h hfin⟩
    refine .step hclear (.given fun hs1 => .gets <| .when fun hc => ?_)
    simp only [id,Bool.and_eq_true,Bool.or_eq_true,decide_eq_true_eq] at hc
    have hl := Sock.Settled.loose hs1 hc.1 hc.2
    refine .bind (runs_sendFinNow hl) fun _ s1 hr => .when fun _ => Sock.Soft.runs ?_
    exact (hl.mono hr).soft (fun hf => (hl.mono hr hf).2) rfl

lemma wp_tcpAckAdvance (hs : full → s.Settled) (ackSeq : Seq) :
    wp sockWorld (sockSpec full) [] (tcpAckAdvance now ackSeq) (fun _ s' =>
      (sockContract full).Ends s s' ∧
      (s.finPending=false → s'={s with sndUna := s'.sndUna, txSeg := s'.txSeg})) s := by
  have huna : s.Runs full (modify fun s => {s with sndUna := ackSeq}) := Sock.Soft.runs (.of_phase rfl rfl)
  rw [tcpAckAdvance,wp_bind,wp_gets]
  refine ⟨.refl _,wp_ite (fun _ => ⟨⟨hs,(sockWalk full).refl s⟩,fun _ => rfl⟩) fun _ => ?_⟩
  rw [wp_bind,wp_modify]
  refine ⟨(huna hs).1,?_⟩
  rw [wp_bind]
  refine wp_when (fun _ => ?_) fun _ => ⟨(huna hs).2,fun _ => rfl⟩
  refine wp_mono (wp_txAcked (huna hs).2.1) fun _ s1 h1 =>
    ⟨⟨h1.1.1,(sockWalk full).trans (huna hs).2.2 h1.1.2⟩,fun hfin => ?_⟩
  rw [h1.2 hfin]

lemma Sock.Soft.of_state (t : TcpState) (h : s'.links=s.links) (h' : s'.phase={s with state := t}.phase)
    (hlis : full → (t=.listen ↔ s.state=.listen))
    (hwait : full → s.listener≠none → s.Waiting →
      t=.synRecv ∨ (t=.established ∨ t=.closeWait) ∧ s.hist.acked=true) : s.Soft full s' := by
  have hfirst : s.Soft full {s with state := t} :=
    ⟨rfl,rfl,rfl,rfl,rfl,.inl rfl,⟨rfl,id⟩,hlis,fun hf hset =>
      ⟨fun hne => {hset.waiting hne with state := hwait hf hne (hset.waiting hne)},
        fun ht => hset.calm ((hlis hf).1 ht)⟩⟩
  have hrest : Sock.Soft full {s with state := t} s' := .of_phase h h'
  exact ⟨hrest.used,hrest.proto,hrest.pending,hrest.listener,hrest.owned,hrest.detached,hrest.returned,
    fun hf => (hrest.listen hf).trans (hfirst.listen hf),
    fun hf hset => hrest.settled hf (hfirst.settled hf hset)⟩

lemma Sock.Waiting.absurd {t : TcpState} {p : Prop} (h : s.Waiting) (hs : s.state=t)
    (ht : t≠.synRecv ∧ t≠.established ∧ t≠.closeWait) : p := by
  rcases h.state with h | ⟨h | h,_⟩
  · exact False.elim (ht.1 (hs ▸ h))
  · exact False.elim (ht.2.1 (hs ▸ h))
  · exact False.elim (ht.2.2 (hs ▸ h))

/-- A step from a state that no connection in a queue has. -/
lemma Sock.Soft.of_leaving (t : TcpState) (hst : s.state=t)
    (ht : t≠.synRecv ∧ t≠.established ∧ t≠.closeWait ∧ t≠.listen) (t' : TcpState) (ht' : t'≠.listen)
    (h : s'.links=s.links) (h' : s'.phase={s with state := t'}.phase) : s.Soft full s' :=
  .of_state t' h h' (fun _ => by simp [hst,ht,ht']) fun _ _ hw => hw.absurd hst ⟨ht.1,ht.2.1,ht.2.2.1⟩

lemma Sock.allAcked_soft (hack : full → s.listener≠none → s.hist.acked=true) :
    s.Soft full (s.allAcked now) := by
  have hopen : s.state≠.listen → s.Soft full {s with state := .established} := fun hst =>
    .of_state .established rfl rfl (fun _ => by simp [hst]) fun hf hne _ => .inr ⟨.inl rfl,hack hf hne⟩
  unfold allAcked
  split
  next hst => exact hopen (by simp [hst])
  next hst => exact hopen (by simp [hst])
  next hst =>
    split
    · exact .of_leaving _ hst (by decide) .timeWait (by decide) rfl rfl
    · exact .of_leaving _ hst (by decide) .finWait2 (by decide) rfl rfl
  next hst => exact .of_leaving _ hst (by decide) .timeWait (by decide) rfl rfl
  next hst => exact .of_leaving _ hst (by decide) .closed (by decide) rfl rfl
  · exact .refl _

lemma Sock.finReceived_soft : s.Soft full (s.finReceived now) := by
  unfold finReceived
  split
  next hst =>
    refine .of_state .closeWait rfl rfl (fun _ => by simp [hst]) fun _ _ hw => ?_
    rcases hw.state with h | ⟨_,h⟩
    · rw [hst] at h
      cases h
    · exact .inr ⟨.inr rfl,h⟩
  next hst =>
    split
    · exact .of_leaving _ hst (by decide) .timeWait (by decide) rfl rfl
    · exact .of_leaving _ hst (by decide) .closing (by decide) rfl rfl
  next hst => exact .of_leaving _ hst (by decide) .timeWait (by decide) rfl rfl
  next hst => exact .of_leaving _ hst (by decide) .timeWait (by decide) rfl rfl
  · exact .refl _

lemma runs_processAck {ackSeq : Seq} (hack : ackSeq=s.iss+1 → s.hist.acked=true) :
    s.Runs full (processAck now ackSeq) := by
  refine .given fun hs => .gets <| .ite (fun _ => .drop leads_sendAck _) fun _ =>
    .bind_wp (wp_tcpAckAdvance hs ackSeq) fun _ s1 hr hsame => .ite (fun _ => .drop (Sock.Soft.runs ?_) _)
      fun _ => .ret _
  split
  next hall =>
    refine Sock.allAcked_soft fun hf hne => ?_
    have hw := (hs hf).waiting fun hl => hne ((hr.2 hf).1 hl)
    rw [hsame hw.noFin] at hall ⊢
    exact hack (hall.trans hw.onlySyn)
  · exact .refl _

lemma runs_processPayload {seq : Seq} {payload : Bytes} :
    s.Runs full (processPayload now seq payload) :=
  leads_payload fun _ _ => Sock.Soft.runs (.of_phase rfl rfl)

lemma runs_processFin {finSeq : Seq} : s.Runs full (processFin now finSeq) := by
  refine .gets <| .ite (fun _ => .bind leads_sendAck fun _ s1 _ => Sock.Soft.runs ?_) fun _ =>
    .ite (fun _ => .step (Sock.Soft.runs (.of_phase rfl rfl)) <| .bind leads_sendAck fun _ _ _ =>
      Sock.Soft.runs Sock.finReceived_soft) fun _ => leads_sendAck
  split
  next hst => exact .of_leaving _ hst (by decide) .timeWait (by decide) rfl rfl
  · exact .refl _

lemma runs_afterAck {g : Segment} (go : Bool) : s.Runs full (when go do
    match (← processPayload now g.seq g.payload) with
    | some finSeq => when g.flags.fin <| processFin now finSeq
    | none => pure ()) := by
  refine .when fun _ => .bind runs_processPayload fun r _ _ => ?_
  cases r with
  | none => exact .ret _
  | some finSeq => exact .when fun _ => runs_processFin

lemma runs_processSegment {g : Segment} (hack : g.flags.ack=true → g.ack=s.iss+1 → s.hist.acked=true) :
    s.Runs full (processSegment now g) :=
  .ite (fun hflag => .bind (runs_processAck (hack hflag)) fun go _ _ => runs_afterAck go) fun _ => runs_afterAck true

lemma runs_synAnswered (h : s.Loose full) (g : Segment) : s.Runs full (synAnswered now g) := by
  refine .step (Sock.Soft.runs (.of_phase rfl rfl)) <| .given fun hs =>
    .bind_wp (wp_tcpAckAdvance hs g.ack) fun _ s1 hr _ => .step (Sock.Soft.runs ?_) leads_sendAck
  have h1 : s1.Loose full := Sock.Loose.mono (s := {s with irs := g.seq, rcvNxt := g.seq+1, peerWnd := g.window}) h hr
  exact h1.soft nofun rfl

lemma runs_tickResend (tx : TxSeg) : s.Runs full (tickResend now tx) :=
  leads_tickResend fun s1 => .given fun hs1 =>
    Sock.Soft.runs (.tx fun hf hl => by rw [(hs1 hf).calm hl]; rfl)

lemma runs_netSocketShutdown (hl : full → s.listener=none) (rd wr : Bool) :
    s.Runs full (netSocketShutdown now rd wr) := by
  refine .gets <| .ite (fun _ => .ret _) fun _ => .ite (fun _ => .ret _) fun hopen => ?_
  have h : s.Loose full := fun hf => ⟨hl hf,fun hlis => hopen (.inl hlis)⟩
  refine .bind (.when fun _ => Sock.Soft.runs (.of_phase rfl rfl)) fun _ s1 hr => .drop (.when fun _ => ?_) _
  have h1 := h.mono hr
  refine .step (Sock.Soft.runs (.of_phase rfl rfl)) <| .gets <| .ite (fun _ => Sock.Soft.runs ?_) fun _ =>
    .when fun _ => .drop (runs_sendFinNow (s := {s1 with appShutWr := true}) h1) _
  exact Sock.Loose.soft h1 (fun hf => (h1 hf).2) rfl

lemma runs_netSocketRead (len : ℕ) (nonblock : Bool) : s.Runs full (netSocketRead len nonblock) :=
  leads_read fun _ => Sock.Soft.runs (.of_phase rfl rfl)

lemma runs_netSocketWrite (hl : full → s.listener=none) (buf : Bytes) (nonblock : Bool) (depth : ℕ) :
    s.Runs full (netSocketWrite now buf nonblock depth) := by
  refine leads_write (P := fun s => full → s.listener=none) (fun s s' h hr hf => (hr.2 hf).1 (h hf))
    (fun s hl _ hst _ => ?_) depth hl
  have h : s.Loose full := fun hf => ⟨hl hf,by rcases hst with h | h <;> simp [h]⟩
  refine .gets <| .ite (fun _ => .ret _) fun _ => .bind (runs_sendSegment fun hf => (h hf).2) fun _ s1 hr =>
    .ite (fun _ => .drop (Sock.Soft.runs ?_) _) fun _ => .ret _
  exact (h.mono hr).soft (fun hf => (h.mono hr hf).2) rfl

end Sock

end FuriOS
