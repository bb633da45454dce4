import FuriOS.Net.QueueSock

/-! Runs of the network stack: slots that descriptors refer to are not cleared, and the queues of
the listeners stay linked. The contract of a slot is lifted to the table, and every event is proved
against it. -/
namespace FuriOS
open Reentrant Reentrant.Act

def NetCall.owner : NetCall → Option SockIx
  | .send o _ => o
  | .pump i => some i

/-- The slots that the calls under way work on. -/
def owners (σ : List (NetCall × Bool)) : List SockIx := σ.filterMap fun e => e.1.owner

namespace NetEvent

/-- The timer does not look at a socket of a descriptor whose TIME_WAIT is over. -/
def InTime (n : Net) : NetEvent → Prop
  | .tick now i => (n.socks i).hist.owned=true → (n.socks i).state=.timeWait →
      (n.socks i).timewaitDeadline=0 ∨ now<(n.socks i).timewaitDeadline
  | _ => True

/-- A socket that starts to listen has nothing in flight. -/
def ListensIdle (n : Net) : NetEvent → Prop
  | .listen i _ => (n.socks i).txSeg=none
  | _ => True

/-- The slot that a segment opens a connection in. -/
def allocates (n : Net) : NetEvent → Option SockIx
  | .segment _ _ g => do
    let l ← tcpFindSocket n g
    if (n.socks l).state=.listen ∧ (n.socks l).pending.length<(n.socks l).backlog ∧ g.flags.syn
    then freeSock n else none
  | _ => none

/-- A connection is not opened in a slot that a call under way still works on. -/
def AllocatesApart (σ : List (NetCall × Bool)) (n : Net) (v : NetEvent) : Prop :=
  ∀ c, v.allocates n=some c → c∉owners σ

/-- What is asked of the events, with `full` for the handshake. -/
def Orderly (full : Prop) (σ : List (NetCall × Bool)) (n : Net) (v : NetEvent) : Prop :=
  v.InTime n ∧ (full → v.ListensIdle n ∧ v.AllocatesApart σ n)

end NetEvent

/-- The queues of the listeners, seen from outside, and what `net_socket_accept` returned. -/
structure Net.Queues (n : Net) : Prop where
  nodup : ∀ l, (n.socks l).state=.listen → (n.socks l).pending.Nodup
  queued : ∀ l, (n.socks l).state=.listen → ∀ c∈(n.socks l).pending,
    (n.socks c).used=true ∧ (n.socks c).listener=some l
  back : ∀ l, (n.socks l).state=.listen → ∀ c, (n.socks c).listener=some l → c∈(n.socks l).pending
  acked : ∀ c, (n.socks c).hist.returned≠0 → (n.socks c).hist.acked=true
  once : ∀ c, (n.socks c).hist.returned≤1

lemma Net.Sound.queues {full : Prop} {n : Net} (h : Net.Sound full n) (hf : full) : n.Queues where
  nodup l _ := h.linked.nodup l
  queued l _ c hc := ⟨(h.linked.queued l c hc).2.1,(h.linked.queued l c hc).2.2.2.1⟩
  back l _ c hc := (h.handshake hf).back c l hc
  acked c := ((h.handshake hf).returned c).2
  once c := ((h.handshake hf).returned c).1

/-- A step leaves the slots of descriptors allocated; only the last `net_socket_close` ends that. -/
structure Net.Guarded (full : Prop) (n n' : Net) : Prop where
  kept : ∀ i, (n.socks i).hist.owned=true → (n'.socks i).used=true ∧
    ((n'.socks i).hist.owned=true ∨ (n'.socks i).refs=0)
  owned : ∀ i, (n'.socks i).hist.owned=true → (n'.socks i).used=true
  queues : full → n'.Queues

def queueSpec (full : Prop) : Spec Net NetCall where
  inv _ := Net.Sound full
  rely σ n n' := σ≠[] → Net.Mild full (owners σ) n n'
  guar := Net.Guarded full

abbrev queueContract (full : Prop) (ok : List (NetCall × Bool) → Net → NetEvent → Prop)
    (σ : List (NetCall × Bool)) : Contract Net NetCall NetEvent :=
  ⟨netWorld ok,queueSpec full,σ,(queueSpec full).rely σ⟩

section Net
variable {full : Prop} {ok : List (NetCall × Bool) → Net → NetEvent → Prop}
variable {σ : List (NetCall × Bool)} {n n' : Net} {i : SockIx} {now : ℕ}
variable {P : List SockIx} {α : Type} {f : Net → Net} {g : Segment} {rand : Seq}
variable {l : SockIx} {ip port : ℕ} {nonblock : Bool}

lemma queueSpec_lawful : (queueSpec full).Lawful :=
  ⟨fun _ n _ => .refl n,fun h h' hne => (h hne).trans (h' hne)⟩

lemma Net.Sound.guarded (h : Net.Sound full n')
    (ho : ∀ j, (n.socks j).hist.owned=true → (n'.socks j).hist.owned=true) :
    Net.Guarded full n n' :=
  ⟨fun j hj => ⟨(h.linked.own j (ho j hj)).1,.inl (ho j hj)⟩,fun j hj => (h.linked.own j hj).1,h.queues⟩

lemma Net.Sound.guarded_mild (h : Net.Sound full n') (hm : Net.Mild full P n n') :
    Net.Guarded full n n' :=
  h.guarded fun j hj => (hm.owned j).trans hj

lemma Net.Mild.mono {P' : List SockIx} (h : Net.Mild full P n n') (hP : ∀ j∈P', j∈P) :
    Net.Mild full P' n n' :=
  ⟨h.owned,h.listen,fun hf j hj => h.unqueued hf j (hP j hj)⟩

lemma mem_owners_cons {e : NetCall} {b : Bool} {j : SockIx} (h : j∈owners σ) : j∈owners ((e,b)::σ) := by
  obtain ⟨x,hx,hj⟩ := List.mem_filterMap.1 h
  exact List.mem_filterMap.2 ⟨x,List.mem_cons_of_mem _ hx,hj⟩

instance queueWalk : Walk (queueContract full ok σ) where
  refl := queueSpec_lawful.refl σ
  trans := queueSpec_lawful.trans
  still _ hn := hn.guarded fun _ h => h
  call _ _ _ hn := ⟨hn,fun _ hn' hr => ⟨hn',fun _ =>
    (hr (List.cons_ne_nil _ _)).mono fun _ hj => mem_owners_cons hj⟩⟩

lemma sock_lifts (i : SockIx) : Lifts (netWorld ok) (queueSpec full) σ sockWorld (sockSpec full) []
    (fun n : Net => n.socks i) (fun s n => n.setSock i s)
    (SockCall.on i) (Net.Sound full) ((queueSpec full).rely σ) where
  get_put s n := Net.setSock_self n i s
  silent _ _ _ := rfl
  silent_part _ _ _ := rfl
  refl := queueSpec_lawful.refl σ
  trans := queueSpec_lawful.trans
  step n s hn hsoft := by
    have hsame : ∀ j, j≠i → (n.setSock i s).socks j=n.socks j := fun j hj => Net.setSock_of_ne n s hj
    have hsoft' : (n.socks i).Soft full ((n.setSock i s).socks i) := by
      rw [Net.setSock_self]
      exact hsoft
    have hmild : Net.Mild full (owners σ) n (n.setSock i s) := Net.mild_soft hsame hsoft'
    have hsound := hn.soft hsame hsoft'
    exact ⟨hsound.guarded_mild hmild,hsound,fun _ => hmild⟩
  call _ _ n hn _ := hn
  back d b n n' _ hn' hr := by
    have hm := hr (List.cons_ne_nil _ _)
    have ho : owners ((d.on i,b)::σ)=i::owners σ := by cases d <;> rfl
    rw [ho] at hm
    refine ⟨fun hf => hn'.settled hf i,
      ⟨hm.owned i,fun hf => ⟨hm.unqueued hf i List.mem_cons_self,hm.listen hf i⟩⟩,hn',
      fun _ => hm.mono fun j hj => List.mem_cons_of_mem i hj⟩

lemma wp_onSock {p : SockM α} (h : (n.socks i).Runs full p) (hn : Net.Sound full n) :
    wp (netWorld ok) (queueSpec full) σ (onSock i p) (fun _ n' => (queueContract full ok σ).Ends n n' ∧
      (sockSpec full).rely [] (n.socks i) (n'.socks i)) n :=
  wp_mono (wp_zoom (sock_lifts i) (h fun hf => hn.settled hf i) hn) fun _ _ h' => ⟨⟨h'.2.1,h'.2.2⟩,h'.1.rel⟩

lemma Sock.Runs.onSock {p : SockM α} (h : (n.socks i).Runs full p) :
    (queueContract full ok σ).Leads (onSock i p) n := fun hn => wp_mono (wp_onSock h hn) fun _ _ h' => h'.1

lemma leads_mild (h : Net.Sound full n → Net.Sound full (f n) ∧ Net.Mild full (owners σ) n (f n)) :
    (queueContract full ok σ).Leads (modify f) n := fun hn =>
  ⟨(h hn).1.guarded_mild (h hn).2,(h hn).1,fun _ => (h hn).2⟩

lemma leads_top (h : Net.Sound full n → Net.Guarded full n (f n) ∧ Net.Sound full (f n)) :
    (queueContract full ok []).Leads (modify f) n := fun hn =>
  ⟨(h hn).1,(h hn).2,fun hne => absurd rfl hne⟩

lemma Net.Sound.modSock {f : Sock → Sock} (hn : Net.Sound full n)
    (hf : (n.socks i).Soft full (f (n.socks i))) :
    Net.Sound full (n.modSock i f) ∧ Net.Mild full P n (n.modSock i f) := by
  have hsame : ∀ j, j≠i → (n.modSock i f).socks j=n.socks j := fun j hj => Net.modSock_of_ne n f hj
  have hsoft : (n.socks i).Soft full ((n.modSock i f).socks i) := by
    rw [Net.modSock_self]
    exact hf
  exact ⟨hn.soft hsame hsoft,Net.mild_soft hsame hsoft⟩

lemma leads_soft {f : Sock → Sock} (h : Net.Sound full n → (n.socks i).Soft full (f (n.socks i))) :
    (queueContract full ok σ).Leads (modify fun n => n.modSock i f) n :=
  leads_mild fun hn => hn.modSock (h hn)

lemma findSock_some {p : Sock → Bool} (h : n.findSock p=some i) : p (n.socks i)=true := by
  have hfound := List.find?_some h
  exact hfound

lemma freeSock_free (h : freeSock n=some i) : (n.socks i).used=false := by
  simpa using findSock_some h

lemma tcpFindSocket_tcp (h : tcpFindSocket n g=some i) :
    (n.socks i).used=true ∧ (n.socks i).proto=.tcp := by
  unfold tcpFindSocket at h
  cases hpeer : n.findSock fun s => tcpPeerMatch s g with
  | some j =>
    rw [hpeer] at h
    cases h
    have hmatch := findSock_some hpeer
    simp only [tcpPeerMatch,Bool.and_eq_true,decide_eq_true_eq] at hmatch
    exact hmatch.1.1.1.1.1.1
  | none =>
    rw [hpeer] at h
    change tcpFindListener n g=some i at h
    have hmatch := findSock_some h
    simp only [Bool.and_eq_true,decide_eq_true_eq] at hmatch
    exact hmatch.1.1.1.1

lemma leads_answerSyn (l c : SockIx) : (queueContract full ok σ).Leads (answerSyn now l c) n := by
  refine .given fun hn => .gets <| .when fun hc => Sock.Runs.onSock <| .drop (runs_sendSegment fun hf hlis => ?_) _
  have hc : (n.socks c).listener=some l := of_decide_eq_true hc
  exact ((hn.settled hf c).waiting (by rw [hc]; simp)).absurd hlis (by simp)

lemma leads_onRst (h : full → (n.socks i).state≠.listen) :
    (queueContract full ok σ).Leads (modify (tcpOnRst i)) n := leads_mild fun hn => hn.onRst h

/-- A connection is given up with an error. -/
lemma leads_quit {err : ℕ} (h : full → (n.socks i).state≠.listen) :
    (queueContract full ok σ).Leads (modify fun n => tcpOnRst i (n.modSock i (socketSetError err))) n := by
  refine leads_mild fun hn => ?_
  have herr := hn.modSock (i := i) (P := owners σ) (f := socketSetError err) (by
    rw [socketSetError_eq]
    exact .of_phase rfl rfl)
  have hrst := herr.1.onRst (i := i) (P := owners σ) fun hf => by
    rw [Net.modSock_self,socketSetError_eq]
    exact h hf
  exact ⟨hrst.1,herr.2.trans hrst.2⟩

lemma Sock.noteAck_soft (s : Sock) (g : Segment) : s.Soft full (s.noteAck g) := by
  unfold noteAck
  split
  · exact ⟨rfl,rfl,rfl,rfl,rfl,.inl rfl,⟨rfl,fun _ => rfl⟩,fun _ => Iff.rfl,fun _ hs =>
      ⟨fun hne => {hs.waiting hne with state := (hs.waiting hne).state.imp_right fun h => ⟨h.1,rfl⟩},hs.calm⟩⟩
  · exact .refl s

lemma Sock.noteAck_acked (s : Sock) (g : Segment) (hflag : g.flags.ack=true)
    (hack : g.ack=(s.noteAck g).iss+1) : (s.noteAck g).hist.acked=true := by
  unfold noteAck at hack ⊢
  split
  · rfl
  next hno =>
    rw [if_neg hno] at hack
    exact absurd ⟨hflag,hack⟩ hno

lemma Sock.noteAck_fields (s : Sock) (g : Segment) :
    s.noteAck g={s with hist := (s.noteAck g).hist} := by
  unfold noteAck
  split <;> rfl

lemma leads_synSent (hst : (n.socks i).state=.synSent) :
    (queueContract full ok σ).Leads (processTcpSynSent now i g) n := by
  have hne : (n.socks i).state≠.listen := by simp [hst]
  refine leads_processTcpSynSent (leads_onRst fun _ => hne) fun _ => .given fun hn =>
    Sock.Runs.onSock (runs_synAnswered (fun hf => ⟨by_contra fun hl => ?_,hne⟩) g)
  exact ((hn.settled hf i).waiting hl).absurd hst (by simp)

lemma leads_segment (hc : full → (NetEvent.segment now rand g).AllocatesApart σ n) :
    (queueContract full ok σ).Leads (processTcp now rand g) n := by
  have hnote : ∀ i, ((n.modSock i fun s => s.noteAck g).socks i).state=(n.socks i).state := fun i =>
    Net.modSock_proj Sock.state (by rw [Sock.noteAck_fields]) i
  refine leads_processTcp (fun i => leads_soft fun _ => Sock.noteAck_soft _ g) (fun l hfind hlis => ?_)
    (fun i _ hst => leads_synSent ((hnote i).trans hst)) fun i hfind hlis _ => ?_
  · refine leads_processTcpListener fun c hroom hsyn hfree => ⟨leads_mild fun hn => ?_,leads_answerSyn l c⟩
    refine hn.addChild (freeSock_free hfree) (tcpFindSocket_tcp hfind).1 (fun _ => hlis) (fun hf => hc hf c ?_) g rand
    simp [NetEvent.allocates,hfind,hlis,hroom,hsyn,hfree]
  · refine leads_processTcpEstablished (leads_soft fun _ => .of_phase rfl rfl) (leads_onRst fun _ => ?_)
      (Sock.Runs.onSock (runs_processSegment ?_))
    · rw [Net.modSock_self]
      exact fun hl => hlis ((hnote i).symm.trans hl)
    · rw [Net.modSock_self,Net.modSock_self]
      exact Sock.noteAck_acked _ g

lemma leads_tick (ht : (NetEvent.tick now i).InTime n) :
    (queueContract full ok σ).Leads (tcpTickSlot now i) n := by
  refine leads_tcpTickSlot (fun hend => leads_mild fun hn => ⟨hn.reset i,hn.reset_mild (by_contra fun ho => ?_)⟩)
    (fun htx => .given fun hn => leads_quit fun hf hlis => htx ((hn.settled hf i).calm hlis))
    fun tx => Sock.Runs.onSock (runs_tickResend tx)
  have ho : (n.socks i).hist.owned=true := by simpa using ho
  rcases hend with hd | ⟨hst,hne,hle⟩
  · cases hd.symm.trans (hn.linked.own i ho).2.2
  · rcases ht ho hst with h | h
    · exact hne h
    · exact absurd hle (Nat.not_le.2 h)

lemma Sock.Soft.refs {s : Sock} (hl : s.listener=none) (r : ℕ) : s.Soft full {s with refs := r} :=
  ⟨rfl,rfl,rfl,rfl,rfl,.inl rfl,⟨rfl,id⟩,fun _ => Iff.rfl,fun _ hs => ⟨fun hne => absurd hl hne,hs.calm⟩⟩

lemma leads_create {proto : NetSockProto} :
    (queueContract full ok []).Leads (netSocketCreate proto) n := by
  refine leads_netSocketCreate fun i hfree => leads_top fun hn => ?_
  have halloc := hn.alloc (i := i) (s := (Sock.fresh proto).own)
    ⟨freeSock_free hfree,rfl,rfl,rfl,rfl,nofun,rfl⟩
  refine ⟨halloc.guarded fun j hj => ?_,halloc⟩
  have hji : j≠i := by
    rintro rfl
    rw [hn.linked.not_owned_of_free (freeSock_free hfree)] at hj
    cases hj
  rwa [Net.setSock_of_ne _ _ hji]

lemma leads_ref (ho : (n.socks i).hist.owned=true) :
    (queueContract full ok []).Leads (netSocketRef i) n := by
  refine leads_soft fun hn => ?_
  split
  · exact .refs (hn.linked.own i ho).2.1 _
  · exact .refl _

lemma Net.Linked.disown (h : n.Linked) (i : SockIx) : (n.modSock i Sock.disown).Linked := by
  have hfits : (n.socks i).Fits False ((n.modSock i Sock.disown).socks i) := by
    rw [Net.modSock_self]
    exact ⟨rfl,rfl,rfl,rfl,nofun,.inl rfl,⟨rfl,id⟩,False.elim,False.elim,False.elim⟩
  exact h.fits (fun j hj => Net.modSock_of_ne _ _ hj) hfits

lemma Net.Sound.disown (hn : Net.Sound full n) (ho : (n.socks i).hist.owned=true)
    (hst : full → (n.socks i).state≠.listen) : Net.Sound full (n.modSock i Sock.disown) := by
  refine hn.fits (fun j hj => Net.modSock_of_ne _ _ hj) ?_
  rw [Net.modSock_self]
  exact ⟨rfl,rfl,rfl,rfl,nofun,.inl rfl,⟨rfl,id⟩,fun hf h => absurd h (hst hf),fun hf h => absurd h (hst hf),
    fun _ hs => ⟨fun hne => absurd (hn.linked.own i ho).2.1 hne,hs.calm⟩⟩

lemma guarded_disown (hn : Net.Sound full n) : Net.Guarded full n (n.modSock i Sock.disown) where
  kept j hj := by
    refine ⟨(Net.modSock_proj Sock.used rfl j).trans (hn.linked.own j hj).1,?_⟩
    by_cases hji : j=i
    · subst hji
      rw [Net.modSock_self]
      exact .inr rfl
    · rw [Net.modSock_of_ne _ _ hji]
      exact .inl hj
  owned j hj := ((hn.linked.disown i).own j hj).1
  queues hf := by
    have hq := hn.queues hf
    have hacked := Net.modSock_proj (n := n) (i := i) (f := Sock.disown) (fun s => s.hist.acked) rfl
    have hreturned := Net.modSock_proj (n := n) (i := i) (f := Sock.disown) (fun s => s.hist.returned) rfl
    refine ⟨fun l _ => (hn.linked.disown i).nodup l,fun l _ c hc => ?_,fun l hl c hc => ?_,fun c hc => ?_,fun c => ?_⟩
    · obtain ⟨_,hu,_,hlis,_⟩ := (hn.linked.disown i).queued l c hc
      exact ⟨hu,hlis⟩
    · rw [Net.modSock_proj Sock.state rfl] at hl
      rw [Net.modSock_proj Sock.listener rfl] at hc
      rw [Net.modSock_proj Sock.pending rfl]
      exact hq.back l hl c hc
    · exact (hacked c).trans (hq.acked c (hreturned c ▸ hc))
    · exact (hreturned c).trans_le (hq.once c)

lemma wp_resetDisowned (hn : Net.Sound full n) :
    wp (netWorld ok) (queueSpec full) [] (modify (socketReset i))
      (fun _ n' => (queueContract full ok []).Ends n n') (n.modSock i Sock.disown) := by
  have hself := Net.modSock_self n i Sock.disown
  have hset : (n.modSock i Sock.disown).resetSet i=n.resetSet i := by
    rw [Net.resetSet,hself]
    rfl
  have hcl := Net.socketReset_cleared (hn.linked.disown i) i
  have hown : ∀ j, ((n.modSock i Sock.disown).socks j).hist.owned=true →
      ((socketReset i (n.modSock i Sock.disown)).socks j).hist.owned=true := by
    intro j hj
    have hjD : j∉(n.modSock i Sock.disown).resetSet i := by
      intro hjD
      rcases (hn.linked.disown i).resetSet_not_owned hjD with rfl | ho
      · rw [hself] at hj
        cases hj
      · rw [ho] at hj
        cases hj
    rw [hcl.rest j hjD]
    exact hj
  rw [hset] at hcl
  have hsound := hn.cleared (hcl.of_same List.mem_cons_self fun j hj => Net.modSock_of_ne _ _ hj)
  exact ⟨hsound.guarded hown,hsound,fun hne => absurd rfl hne⟩

lemma leads_abort (ho : (n.socks i).hist.owned=false) (hst : full → (n.socks i).state≠.listen) :
    (queueContract full ok σ).Leads (modify fun n => socketReset i (tcpOnRst i n)) n := by
  refine leads_mild fun hn => ?_
  have hrst := hn.onRst (P := owners σ) hst
  exact ⟨hrst.1.reset i,hrst.2.trans (hrst.1.reset_mild ((hrst.2.owned i).trans ho))⟩

lemma leads_closeConnection (ho : (n.socks i).hist.owned=false) (h : (n.socks i).Loose full)
    (hl : (n.socks i).listener=none) :
    (queueContract full ok σ).Leads (closeConnection now i) n := by
  refine .step (leads_soft fun _ => ?_) ?_
  · exact ⟨rfl,rfl,rfl,rfl,rfl,.inr ⟨ho,hl⟩,⟨rfl,id⟩,fun _ => Iff.rfl,
      fun _ hs => ⟨fun hne => absurd hl hne,hs.calm⟩⟩
  · have hself := Net.modSock_self n i fun s => {s with detached := true, appShutRd := true, appShutWr := true}
    generalize (n.modSock i fun s => {s with detached := true, appShutRd := true, appShutWr := true})=m at hself
    have ho : (m.socks i).hist.owned=false := by rw [hself]; exact ho
    have h : (m.socks i).Loose full := by rw [hself]; exact h
    refine .gets <| .ite (fun _ => leads_abort ho fun hf => (h hf).2) fun _ =>
      .ite (fun _ => leads_soft fun _ => h.soft (fun hf => (h hf).2) rfl) fun _ => .when fun _ => ?_
    refine .given fun hm => .bind_wp (wp_onSock (runs_sendFinNow h) hm) fun ok n2 _ hlater => .when fun _ => ?_
    exact leads_abort (hlater.1.trans ho) fun hf => (h.mono hlater hf).2

lemma leads_close (ho : (n.socks i).hist.owned=true) :
    (queueContract full ok []).Leads (netSocketClose now i) n := by
  refine .given fun hn => ?_
  have hl := (hn.linked.own i ho).2.1
  refine .gets <| .ite (fun _ => .ret _) fun _ => .ite (fun _ => leads_soft fun _ => .refs hl _) fun _ => ?_
  -- between the two steps that close a listener the table is not sound
  refine fun _ => wp_bind.2 ⟨guarded_disown hn,wp_ite (fun _ => wp_resetDisowned hn) fun hopen => ?_⟩
  have hst : (n.socks i).state≠.listen := fun hlis => hopen (.inr (.inl hlis))
  have hself := Net.modSock_self n i Sock.disown
  have hclose : (queueContract full ok []).Leads (closeConnection now i) (n.modSock i Sock.disown) :=
    leads_closeConnection ?_ ?_ ?_
  refine wp_mono (hclose (hn.disown ho fun _ => hst)) fun _ n' h => ⟨h.1,fun hne => absurd rfl hne⟩
  · rw [hself]
    rfl
  · rw [hself]
    exact fun _ => ⟨hl,hst⟩
  · rw [hself]
    exact hl

lemma leads_bindTo {e : ℕ} : (queueContract full ok σ).Leads (modify fun n =>
    {n with nextEphemeral := e}.modSock i fun s => s.bindTo ip port) n := by
  refine leads_mild fun hn => ?_
  have hsame : ∀ j, j≠i → (Net.modSock {n with nextEphemeral := e} i fun s => s.bindTo ip port).socks j =
      n.socks j := fun j hj => Net.modSock_of_ne _ _ hj
  have hsoft : (n.socks i).Soft full
      ((Net.modSock {n with nextEphemeral := e} i fun s => s.bindTo ip port).socks i) := by
    rw [Net.modSock_self]
    exact .of_phase rfl rfl
  exact ⟨hn.soft hsame hsoft,Net.mild_soft hsame hsoft⟩

lemma leads_sendSyn (hl : (n.socks i).listener=none) (hst : (n.socks i).state=.closed) :
    (queueContract full ok σ).Leads (sendSyn now rand i ip port nonblock) n := by
  have h : (n.socks i).Loose full := fun _ => ⟨hl,by simp [hst]⟩
  refine .step (leads_soft fun _ => h.soft nofun rfl) <| .given fun h1 => ?_
  have hst1 : full → ((n.modSock i fun s => s.connecting ip port rand).socks i).state≠.listen := fun _ => by
    rw [Net.modSock_self]
    nofun
  exact .bind_wp (wp_onSock (runs_sendSegment hst1) h1) fun _ _ _ hlater => .ite (fun _ => .ret _) fun _ =>
    .drop (leads_quit fun hf hlis => hst1 hf ((hlater.2 hf).2 hlis)) _

lemma leads_startListening (ho : (n.socks i).hist.owned=true) (htcp : (n.socks i).proto=.tcp)
    (htx : full → (n.socks i).txSeg=none) (backlog : ℤ) :
    (queueContract full ok []).Leads (startListening i backlog) n := by
  refine .drop (leads_top fun hn => ?_) _
  generalize (min (max backlog 1) netTcpAcceptq).toNat=b
  have hsound : Net.Sound full (n.modSock i fun s => {s with state := .listen, backlog := b}) := by
    refine hn.fits (fun j hj => Net.modSock_of_ne _ _ hj) ?_
    rw [Net.modSock_self]
    exact ⟨rfl,rfl,rfl,rfl,id,.inl rfl,⟨rfl,id⟩,fun _ _ => rfl,fun _ _ => .inl ⟨ho,htcp⟩,
      fun hf _ => ⟨fun hne => absurd (hn.linked.own i ho).2.1 hne,fun _ => htx hf⟩⟩
  exact ⟨hsound.guarded fun j hj => (Net.modSock_proj (fun s => s.hist.owned) rfl j).trans hj,hsound⟩

lemma leads_accept : (queueContract full ok []).Leads (netSocketAccept l nonblock) n := by
  refine leads_netSocketAccept (fun m => leads_mild fun hm => ⟨hm.prune l,hm.prune_mild l⟩)
    fun m c hfind => leads_top fun hm => ?_
  have hmem : c∈(m.socks l).pending := List.mem_of_find?_eq_some hfind
  have hfound := List.find?_some hfind
  have htake := hm.take hmem (by simpa using (Bool.and_eq_true_iff.1 hfound).2)
  exact ⟨htake.guarded (Net.owned_take hm.linked hmem),htake⟩

lemma queue_handles (hok : ∀ σ n v, ok σ n v → v.Orderly full σ n) :
    Handles (netWorld ok) (queueSpec full) := by
  refine handles_of_leads ?_
  intro σ n v hn ⟨⟨hcall,htarget⟩,hv⟩
  obtain ⟨htime,hfull⟩ := hok σ n v hv
  have hlis : ∀ i, v.target=some i → full → (n.socks i).listener=none := fun i hi _ =>
    (hn.linked.own i (htarget i hi)).2.1
  have htop : v.isCall=true → (queueContract full ok []).Leads v.perform n →
      (queueContract full ok σ).Leads v.perform n := by
    intro hv h
    obtain rfl := hcall hv
    exact h
  cases v with
  | segment now rand g => exact leads_segment fun hf => (hfull hf).2
  | tick now i => exact leads_tick htime
  | create proto => exact htop rfl leads_create
  | ref i => exact htop rfl (leads_ref (htarget i rfl))
  | close now i => exact htop rfl (leads_close (htarget i rfl))
  | bind i ip port => exact .drop (leads_netSocketBind fun _ _ => leads_bindTo) _
  | connect now rand i ip port nonblock =>
    refine .drop (leads_netSocketConnect (fun _ _ _ => leads_bindTo) fun n' hr _ hst => ?_) _
    obtain ⟨b,ip,port,hr⟩ := hr
    refine leads_sendSyn ?_ ?_
    · rw [hr]
      exact (hn.linked.own i (htarget i rfl)).2.1
    · rw [hr]
      exact hst
  | listen i backlog =>
    refine htop rfl (.drop (leads_netSocketListen (fun _ _ _ => leads_bindTo) fun n' hr htcp => ?_) _)
    obtain ⟨b,ip,port,hr⟩ := hr
    refine leads_startListening ?_ ?_ ?_ backlog
    · rw [hr]
      exact htarget i rfl
    · rw [hr]
      exact htcp
    · rw [hr]
      exact fun hf => (hfull hf).1
  | accept i nonblock => exact htop rfl (.drop leads_accept _)
  | shutdown now i rd wr => exact .drop (Sock.Runs.onSock (runs_netSocketShutdown (hlis i rfl) rd wr)) _
  | read i len nonblock => exact .drop (Sock.Runs.onSock (runs_netSocketRead len nonblock)) _
  | write now i buf nonblock depth =>
    exact .drop (Sock.Runs.onSock (runs_netSocketWrite (hlis i rfl) buf nonblock depth)) _
  | poll i => exact .gets <| .when fun _ => leads_mild fun hn => ⟨hn.prune i,hn.prune_mild i⟩
  | reuseaddr i v =>
    refine leads_soft fun _ => ?_
    split
    · exact .of_phase rfl rfl
    · exact .refl _

lemma sound_init (isLocal : ℕ → Bool) (route : ℕ → Option ℕ) : Net.Sound full (Net.init isLocal route) where
  linked := ⟨nofun,nofun,fun _ => List.nodup_nil⟩
  handshake _ := ⟨nofun,fun _ h => absurd rfl h,fun _ h => absurd rfl h,nofun,
    fun _ => ⟨Nat.zero_le 1,fun h => absurd rfl h⟩⟩

/-- A slot that descriptors refer to is not free and stays allocated in every step, until
`net_socket_close` takes its last reference. -/
theorem owned_socket_kept (isLocal : ℕ → Bool) (route : ℕ → Option ℕ) {c c' : Config Net NetCall}
    (hr : Reaches (netWorld fun _ n v => v.InTime n) (Net.init isLocal route) c)
    (hs : Step (netWorld fun _ n v => v.InTime n) c c') (i : SockIx)
    (ho : (c.state.socks i).hist.owned=true) :
    freeSock c.state≠some i ∧ (c'.state.socks i).used=true ∧
      ((c'.state.socks i).hist.owned=true ∨ (c'.state.socks i).refs=0) := by
  have hM : Handles (netWorld fun _ n v => v.InTime n) (queueSpec False) :=
    queue_handles fun _ _ _ hv => ⟨hv,False.elim⟩
  have hused : ∀ {d : Config Net NetCall},
      Reaches (netWorld fun _ n v => v.InTime n) (Net.init isLocal route) d →
      ∀ j, (d.state.socks j).hist.owned=true → (d.state.socks j).used=true := fun hd =>
    Good.always (P := fun n => ∀ j, (n.socks j).hist.owned=true → (n.socks j).used=true)
      queueSpec_lawful hM (sound_init isLocal route) nofun (fun _ _ _ hg => hg.owned)
      (fun _ _ _ h => h) hd
  have hgood := Good.run queueSpec_lawful hM (sound_init isLocal route) hr
  have hu := hused hr i ho
  refine ⟨fun hfree => ?_,?_⟩
  · rw [freeSock_free hfree] at hu
    cases hu
  · cases hs with
    | step => exact hgood.guar.kept i ho
    | call b => exact ⟨hu,.inl ho⟩
    | ret => exact ⟨hu,.inl ho⟩
    | start v hv => exact ⟨hu,.inl ho⟩
    | resume => exact ⟨hu,.inl ho⟩

/-- The queues of the listeners are linked in every state, and `net_socket_accept` returns a
connection once, after its SYN was acknowledged. -/
theorem listener_queues_linked (isLocal : ℕ → Bool) (route : ℕ → Option ℕ) {c : Config Net NetCall}
    (hr : Reaches (netWorld fun σ n v => v.InTime n ∧ v.ListensIdle n ∧ v.AllocatesApart σ n)
      (Net.init isLocal route) c) : c.state.Queues :=
  Good.always (S := queueSpec True) (P := Net.Queues) queueSpec_lawful
    (queue_handles fun _ _ _ hv => ⟨hv.1,fun _ => hv.2⟩) (sound_init isLocal route)
    ((sound_init isLocal route).queues trivial) (fun _ _ _ hg => hg.queues trivial) (fun _ _ _ h => h) hr

end Net

section Examples

variable {ok : List (NetCall × Bool) → Net → NetEvent → Prop} {n : Net} {vs : List NetEvent}

/-- Whether the events can happen one after the other, each if `check` allows it. -/
def netRunPossible (ok : List (NetCall × Bool) → Net → NetEvent → Prop) (check : Net → NetEvent → Bool)
    (n : Net) : List NetEvent → Bool
  | [] => true
  | v::vs => v.target.all (fun i => (n.socks i).hist.owned) && check n v &&
      netRunPossible ok check (quiet (netWorld ok) v.perform n) vs

lemma netRun_reaches {check : Net → NetEvent → Bool} (hcheck : ∀ n v, check n v=true → ok [] n v) (h : netRunPossible ok check n vs=true) :
    Reaches (netWorld ok) n ⟨quietRun (netWorld ok) vs n,none,[]⟩ := by
  have hstart : Reaches (netWorld ok) n ⟨n,none,[]⟩ := .refl
  refine hstart.quietRun vs ?_
  clear hstart
  induction vs generalizing n with
  | nil => trivial
  | cons v vs ih =>
    simp only [netRunPossible,Bool.and_eq_true] at h
    obtain ⟨⟨hown,hok⟩,hrest⟩ := h
    refine ⟨⟨⟨fun _ => rfl,fun i hi => ?_⟩,hcheck n v hok⟩,ih hrest⟩
    rw [hi] at hown
    exact hown

/-- The state after the events, one after the other. -/
def netRun (vs : List NetEvent) (n : Net) : Net := quietRun (netWorld fun _ _ _ => True) vs n

lemma netRun_possible (h : netRunPossible (fun _ _ _ => True) (fun _ _ => true) n vs=true) :
    Reaches (netWorld fun _ _ _ => True) n ⟨netRun vs n,none,[]⟩ :=
  netRun_reaches (fun _ _ _ => trivial) h

def netExample : Net := Net.init (fun _ => true) fun _ => none

/-- A connection that is closed by both sides, and whose descriptor stays open. -/
def timeWaitRun : List NetEvent :=
  [.create .tcp,.bind 0 10 80,.connect 0 100 0 20 99 true,
    .segment 1 0 ⟨20,10,99,80,500,101,.synAck,1000,[]⟩,.shutdown 2 0 false true,
    .segment 3 0 ⟨20,10,99,80,501,102,.onlyAck,1000,[]⟩,.segment 4 0 ⟨20,10,99,80,501,102,.finAck,1000,[]⟩]

/-- The timer clears a slot of an open descriptor, and the next allocation hands it out. -/
theorem timeWait_slot_cleared : ∃ n,
    Reaches (netWorld fun _ _ _ => True) netExample ⟨n,none,[]⟩ ∧ (n.socks 0).hist.owned=true ∧
    Reaches (netWorld fun _ _ _ => True) n ⟨netRun (tcpTick 1000) n,none,[]⟩ ∧
    freeSock (netRun (tcpTick 1000) n)=some 0 :=
  ⟨netRun timeWaitRun netExample,netRun_possible (by decide +kernel),by decide +kernel,
    netRun_possible (by decide +kernel),by decide +kernel⟩

/-- A test for the events that the theorems allow. -/
def orderly (n : Net) : NetEvent → Bool
  | .listen i _ => (n.socks i).txSeg.isNone
  | .tick _ i => (n.socks i).state≠.timeWait
  | _ => true

lemma orderly_spec (n : Net) (v : NetEvent) (h : orderly n v=true) :
    v.InTime n ∧ v.ListensIdle n ∧ v.AllocatesApart [] n := by
  refine ⟨?_,?_,fun _ _ => List.not_mem_nil⟩
  · cases v with
    | tick now i => exact fun _ ht => absurd ht (of_decide_eq_true h)
    | _ => trivial
  · cases v with
    | listen i backlog => exact Option.isNone_iff_eq_none.1 h
    | _ => trivial

/-- A connection with data in flight that the timer sends again. -/
def connectedRun : List NetEvent :=
  [.create .tcp,.bind 0 10 80,.connect 0 100 0 20 99 true,
    .segment 1 0 ⟨20,10,99,80,500,101,.synAck,1000,[]⟩,.write 2 0 [7,7] true 0] ++
  tcpTick 60 ++ tcpTick 200

/-- The theorem on a connected socket whose descriptor is duplicated. -/
theorem owned_socket_kept_connected : ∃ n : Net, (n.socks 0).state=.established ∧
    (n.socks 0).txSeg.map (·.retries)=some 2 ∧ freeSock n≠some 0 ∧
    ((n.modSock 0 fun s => if s.used ∧ s.refs<0xFFFF then {s with refs := s.refs+1} else s).socks 0).used=true := by
  have hrun : netRunPossible (fun _ n v => v.InTime n) orderly netExample connectedRun=true := by
    decide +kernel
  have hc := netRun_reaches (fun n v h => (orderly_spec n v h).1) hrun
  have hn : ∃ n, n=quietRun (netWorld fun _ n v => v.InTime n) connectedRun netExample ∧
      (n.socks 0).hist.owned=true ∧ (n.socks 0).state=.established ∧
      (n.socks 0).txSeg.map (·.retries)=some 2 := ⟨_,rfl,by decide +kernel⟩
  obtain ⟨n,hn,ho,he,ht⟩ := hn
  rw [← hn] at hc
  have hs := hc.tail (.start (M := netWorld fun _ n v => v.InTime n) (NetEvent.ref 0)
    ⟨⟨fun _ => rfl,fun i hi => by cases hi; exact ho⟩,trivial⟩)
  have h := owned_socket_kept _ _ hs .step 0 ho
  exact ⟨n,he,ht,h.1,h.2.1⟩

/-- A connecting socket starts to listen and accepts a connection, its SYN is given up, and the slot
is closed and listens again. -/
def listenRun : List NetEvent :=
  [.create .tcp,.bind 0 10 80,.connect 0 100 0 20 99 true,.listen 0 4,
    .segment 1 7 ⟨30,10,55,80,500,0,.onlySyn,1000,[]⟩,.segment 2 0 ⟨30,10,55,80,501,8,.onlyAck,1000,[]⟩] ++
  [1000,2000,3000,4000,5000,6000,7000].flatMap tcpTick ++
  [.close 7000 0,.create .tcp,.bind 0 10 80,.listen 0 4]

/-- A connection of the old listener points to the new one, which does not have it in its queue. -/
theorem listener_back_pointer_dangles : ∃ n,
    Reaches (netWorld fun _ _ _ => True) netExample ⟨n,none,[]⟩ ∧ ¬n.Queues := by
  refine ⟨netRun listenRun netExample,netRun_possible (by decide +kernel),fun hq => ?_⟩
  have hback := hq.back 0 (by decide +kernel) 1 (by decide +kernel)
  revert hback
  decide +kernel

/-- The events of a host that accepts one connection. -/
def acceptRun : List NetEvent :=
  [.create .tcp,.bind 0 10 80,.listen 0 4,.segment 1 7 ⟨30,10,55,80,500,0,.onlySyn,1000,[]⟩,
    .segment 2 0 ⟨30,10,55,80,501,8,.onlyAck,1000,[]⟩] ++ tcpTick 60 ++ [.accept 0 true]

/-- The theorem on a host that accepted one connection. -/
theorem listener_queues_linked_accepted : ∃ n : Net, (n.socks 1).hist.returned=1 ∧ n.Queues :=
  ⟨_,by decide +kernel,listener_queues_linked _ _
    (netRun_reaches (orderly_spec · · ·) (by decide +kernel :
      netRunPossible _ orderly netExample acceptRun=true))⟩

end Examples
end FuriOS
