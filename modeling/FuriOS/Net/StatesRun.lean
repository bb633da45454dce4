import FuriOS.Net.States
import FuriOS.Net.QueueRun

/-! Runs of the network stack and the RFC 793 state diagram: every step changes the states of the
sockets along the diagram, under conditions on listening, on FINs and on slots that are allocated
again. -/
namespace FuriOS
open Reentrant Reentrant.Act

/-- A slot is given back, keeps its flow, or is aborted. -/
def Sock.Drops (s s' : Sock) : Prop := s'.used=false ∨ s'.flow=s.flow ∨
  s'.used=s.used ∧ s'.state=.closed ∧ s'.txSeg=none ∧ s'.sndUna=s.sndUna ∧ s'.sndNxt=s.sndNxt

section Drops
variable {s s' s'' : Sock}

lemma Sock.Drops.refl (s : Sock) : s.Drops s := .inr (.inl rfl)

lemma Sock.Drops.used (h : s.Drops s') (hu : s'.used=true) : s.used=true := by
  rcases h with h | h | ⟨h,_⟩
  · rw [h] at hu
    cases hu
  · exact (congrArg Prod.fst h).symm.trans hu
  · exact h ▸ hu

lemma Sock.flow_eq_iff : s'.flow=s.flow ↔ s'.used=s.used ∧ s'.state=s.state ∧ s'.sndUna=s.sndUna ∧
    s'.sndNxt=s.sndNxt ∧ s'.txEnd=s.txEnd ∧ s'.rxClosed=s.rxClosed := by
  simp only [Sock.flow,Prod.mk.injEq]

lemma Sock.Drops.trans (h : s.Drops s') (h' : s'.Drops s'') : s.Drops s'' := by
  rcases h' with h' | h' | ⟨hu,hs,ht,ha,hn⟩
  · exact .inl h'
  · rcases h with h | h | ⟨hu,hs,ht,ha,hn⟩
    · exact .inl ((congrArg Prod.fst h').trans h)
    · exact .inr (.inl (h'.trans h))
    · obtain ⟨hu',hs',ha',hn',ht',_⟩ := Sock.flow_eq_iff.1 h'
      refine .inr (.inr ⟨hu'.trans hu,hs'.trans hs,?_,ha'.trans ha,hn'.trans hn⟩)
      rw [Sock.txEnd,Sock.txEnd,ht,Option.map_none,Option.map_eq_none_iff] at ht'
      exact ht'
  · rcases h with h | h | ⟨hu1,_,_,ha1,hn1⟩
    · exact .inl (hu.trans h)
    · obtain ⟨hu1,_,ha1,hn1,_,_⟩ := Sock.flow_eq_iff.1 h
      exact .inr (.inr ⟨hu.trans hu1,hs,ht,ha.trans ha1,hn.trans hn1⟩)
    · exact .inr (.inr ⟨hu.trans hu1,hs,ht,ha.trans ha1,hn.trans hn1⟩)

lemma Sock.Drops.moves (h : s.Drops s') (hu : s'.used=true) : s.state.Moves s'.state := by
  rcases h with h | h | ⟨_,h,_⟩
  · rw [h] at hu
    cases hu
  · exact .inl (Sock.flow_eq_iff.1 h).2.1
  · refine .inr ?_
    rw [h]
    cases s.state <;> rfl

lemma Sock.Drops.steady (h : s.Drops s') : s.Steady s' := by
  rcases h with h | h | ⟨hu,hs,_,ha,hn⟩
  · exact .of_unused h
  · exact .of_flow h
  · have hop : ¬s'.state.Opening := by
      rw [hs]
      decide
    have hse : ¬s'.state.Sends := by
      rw [hs]
      decide
    exact ⟨fun h => hu ▸ h,fun _ _ _ => ⟨ha,hn,.inl hs⟩,fun _ ho => absurd ho hop,fun _ _ h => absurd h hse,
      fun _ h => absurd h hse,fun _ _ => hs,fun _ hl => absurd (.inl hl.1) hse⟩

lemma Sock.Drops.goes (h : s.Drops s') (hs : s.used=true → s.Flow) : s.Goes s' := by
  refine ⟨fun hu => ?_,h.steady⟩
  rcases h with h' | h' | ⟨hu',hst,ht,_⟩
  · rw [h'] at hu
    cases hu
  · exact (hs ((congrArg Prod.fst h').symm.trans hu)).of_flow h'
  · exact .of_closed hst ht

end Drops

/-- No slot is touched except to give it back or to abort its connection. -/
def Net.Drops (n n' : Net) : Prop := ∀ j, (n.socks j).Drops (n'.socks j)

section NetDrops
variable {n n' m : Net} {i l c : SockIx}

lemma Net.Drops.refl (n : Net) : n.Drops n := fun _ => .refl _

lemma Net.Drops.trans (h : n.Drops m) (h' : m.Drops n') : n.Drops n' := fun j => (h j).trans (h' j)

lemma Net.drops_modSock {f : Sock → Sock} (h : (n.socks i).Drops (f (n.socks i))) : n.Drops (n.modSock i f) := by
  intro j
  by_cases hj : j=i
  · subst hj
    rw [modSock_self]
    exact h
  · rw [modSock_of_ne _ _ hj]
    exact .refl _

lemma Net.drops_zero (n : Net) (i : SockIx) : n.Drops (n.setSock i .zero) := by
  intro j
  by_cases hj : j=i
  · subst hj
    rw [setSock_self]
    exact .inl rfl
  · rw [setSock_of_ne _ _ hj]
    exact .refl _

lemma Net.drops_remove (l c : SockIx) (n : Net) : n.Drops (listenerQueueRemove l c n) := by
  unfold listenerQueueRemove
  split
  · exact (drops_modSock (.inr (.inl rfl))).trans (drops_modSock (.inr (.inl rfl)))
  · exact .refl n

lemma Net.drops_reset (i : SockIx) (n : Net) : n.Drops (socketReset i n) := by
  have hleave : n.Drops (leaveQueue i n) := by
    unfold leaveQueue
    split
    · split
      · exact drops_remove _ i n
      · exact .refl n
    · exact .refl n
  have hfold : ∀ (cs : List SockIx) (n : Net), n.Drops (cs.foldr (fun c n => n.setSock c .zero) n) := by
    intro cs n
    induction cs with
    | nil => exact .refl n
    | cons c cs ih => exact ih.trans (drops_zero _ c)
  have hdrop : (leaveQueue i n).Drops (dropQueue i (leaveQueue i n)) := by
    unfold dropQueue
    split
    · exact hfold _ _
    · exact .refl _
  exact hleave.trans (hdrop.trans (drops_zero _ i))

lemma Net.drops_prune (l : SockIx) (n : Net) : n.Drops (listenerQueuePrune l n) := by
  have hloop : ∀ (cs : List SockIx) (n : Net), n.Drops (pruneLoop l cs n).2 := by
    intro cs
    induction cs with
    | nil => exact fun n => .refl n
    | cons c cs ih =>
      intro n
      unfold pruneLoop
      dsimp only
      split
      · refine Net.Drops.trans ?_ (ih _)
        split
        · exact drops_zero n c
        · exact .refl n
      · exact ih n
  unfold listenerQueuePrune
  exact (hloop _ n).trans (drops_modSock (.inr (.inl rfl)))

lemma Sock.drops_onRst (s : Sock) : s.Drops s.onRst := by
  rw [onRst_eq]
  exact .inr (.inr ⟨rfl,rfl,rfl,rfl,rfl⟩)

lemma Net.drops_tcpOnRst (i : SockIx) (n : Net) : n.Drops (tcpOnRst i n) := by
  unfold tcpOnRst
  dsimp only
  split
  · exact (drops_modSock (Sock.drops_onRst _)).trans (drops_reset i _)
  · exact drops_modSock (Sock.drops_onRst _)

lemma Net.drops_setError (i : SockIx) (err : ℕ) (n : Net) : n.Drops (n.modSock i (socketSetError err)) := by
  refine drops_modSock (.inr (.inl ?_))
  rw [socketSetError_eq]
  rfl

end NetDrops

/-- The contract of the table: the flow of every slot in use, and a FIN that is being answered only
in slots that a call under way works on. -/
def stateSpec : Spec Net NetCall where
  inv σ n := ∀ i, (n.socks i).used=true → (n.socks i).Flow ∧ ((n.socks i).Late → i∈owners σ)
  rely σ n n' := ∀ i∈owners σ, (n.socks i).Steady (n'.socks i)
  guar n n' := ∀ i, (n.socks i).used=true → (n'.socks i).used=true →
    (n.socks i).state.Moves (n'.socks i).state

namespace NetEvent

/-- A socket starts to listen only if it is closed or listens already. -/
def ListensClosed (n : Net) : NetEvent → Prop
  | .listen i _ => (n.socks i).state=.closed ∨ (n.socks i).state=.listen
  | _ => True

/-- What is asked of the FIN and the acknowledgement of a segment. -/
def FinInOrder (n : Net) : NetEvent → Prop
  | .segment _ _ g => ∀ i, tcpFindSocket n g=some i → (n.socks i).Accepts g
  | _ => True

/-- The condition under which the states follow the diagram. -/
def Regular (σ : List (NetCall × Bool)) (n : Net) (v : NetEvent) : Prop :=
  v.InTime n ∧ v.ListensClosed n ∧ v.AllocatesApart σ n ∧ v.FinInOrder n

end NetEvent

section Net
variable {ok : List (NetCall × Bool) → Net → NetEvent → Prop}
variable {σ : List (NetCall × Bool)} {n n' : Net} {i : SockIx} {now : ℕ}
variable {α : Type} {s : Sock} {l c : SockIx} {rand : Seq} {g : Segment} {f : Net → Net}
variable {ip port : ℕ} {nonblock : Bool}

lemma stateSpec_lawful : stateSpec.Lawful :=
  ⟨fun _ _ _ _ => .refl _,fun h h' i hi => (h i hi).trans (h' i hi)⟩

lemma stateSpec_guar_refl (n : Net) : stateSpec.guar n n := fun _ _ _ => .refl _

/-- The other slots while code of slot `i` runs. -/
def OthersFlow (σ : List (NetCall × Bool)) (i : SockIx) (n : Net) : Prop :=
  ∀ j, j≠i → (n.socks j).used=true → (n.socks j).Flow ∧ ((n.socks j).Late → j∈owners σ)

def OthersSteady (σ : List (NetCall × Bool)) (i : SockIx) (n n' : Net) : Prop :=
  ∀ j, j≠i → j∈owners σ → (n.socks j).Steady (n'.socks j)

lemma flow_lifts (i : SockIx) : Lifts (netWorld ok) stateSpec σ sockWorld flowSpec []
    (fun n : Net => n.socks i) (fun s n => n.setSock i s) (SockCall.on i) (OthersFlow σ i)
    (OthersSteady σ i) where
  get_put s n := Net.setSock_self n i s
  silent _ _ _ := rfl
  silent_part _ _ _ := rfl
  refl _ _ _ _ := .refl _
  trans h h' j hj ho := (h j hj ho).trans (h' j hj ho)
  step n s hn hg := by
    have hother : ∀ j, j≠i → (n.setSock i s).socks j=n.socks j := fun j hj => Net.setSock_of_ne n s hj
    refine ⟨fun j hu hu' => ?_,fun j hj hu => ?_,fun j hj _ => ?_⟩
    · by_cases hj : j=i
      · subst hj
        rw [Net.setSock_self]
        exact hg.2 hu
      · rw [hother j hj]
        exact .refl _
    · rw [hother j hj] at hu ⊢
      exact hn j hj hu
    · rw [hother j hj]
      exact .refl _
  call d b n hn hi j hu := by
    have ho : owners ((d.on i,b)::σ)=i::owners σ := by cases d <;> rfl
    by_cases hj : j=i
    · subst hj
      exact ⟨hi hu,fun _ => ho ▸ List.mem_cons_self⟩
    · exact ⟨(hn j hj hu).1,fun hl => ho ▸ List.mem_cons_of_mem _ ((hn j hj hu).2 hl)⟩
  back d b n n' _ hn' hr := by
    have ho : owners ((d.on i,b)::σ)=i::owners σ := by cases d <;> rfl
    refine ⟨fun hu => (hn' i hu).1,hr i (ho ▸ List.mem_cons_self),fun j hj hu => ⟨(hn' j hu).1,fun hl => ?_⟩,
      fun j _ hj => hr j (ho ▸ List.mem_cons_of_mem _ hj)⟩
    have hmem := (hn' j hu).2 hl
    rw [ho] at hmem
    exact (List.mem_cons.1 hmem).resolve_left hj

abbrev stateContract (ok : List (NetCall × Bool) → Net → NetEvent → Prop) (σ : List (NetCall × Bool)) :
    Contract Net NetCall NetEvent := ⟨netWorld ok,stateSpec,σ,stateSpec.rely σ⟩

instance stateWalk : Walk (stateContract ok σ) where
  refl := stateSpec_lawful.refl σ
  trans := stateSpec_lawful.trans
  still n _ := stateSpec_guar_refl n
  call _ _ _ hn := by
    refine ⟨fun j hu => ⟨(hn j hu).1,fun hl => mem_owners_cons ((hn j hu).2 hl)⟩,
      fun n' hi hr => ⟨fun j hu => ⟨(hi j hu).1,fun hl => ?_⟩,fun j hj => hr j (mem_owners_cons hj)⟩⟩
    -- a FIN that is being answered now was being answered when the call began
    have hst := hr j ((hi j hu).2 hl)
    exact (hn j (hst.used hu)).2 (hst.late hu hl)

lemma Net.Drops.follows (h : n.Drops n') (hn : stateSpec.inv σ n) : (stateContract ok σ).Ends n n' := by
  refine ⟨fun j hu => ?_,fun j _ => (h j).steady⟩
  have hu0 := (h j).used hu
  have hg := (h j).goes fun _ => (hn j hu0).1
  exact ⟨hg.inv hu,fun hl => (hn j hu0).2 (hg.rel.late hu hl)⟩

lemma Net.Drops.leads (h : n.Drops (f n)) : (stateContract ok σ).Leads (modify f) n := fun hn =>
  ⟨fun j _ hu => (h j).moves hu,h.follows hn⟩

/-- A step that keeps the flow of slot `i`. -/
lemma leads_same {f : Sock → Sock} (h : (f (n.socks i)).flow=(n.socks i).flow) :
    (stateContract ok σ).Leads (modify fun n => n.modSock i f) n :=
  (Net.drops_modSock (.inr (.inl h))).leads

lemma leads_onSock {p : SockM α} (h : flowContract.Leads p (n.socks i)) :
    (stateContract ok σ).Leads (onSock i p) n := by
  intro hn
  refine wp_mono (wp_zoom (flow_lifts i) (h fun hu => (hn i hu).1) fun j _ => hn j)
    fun _ n' h' => ⟨fun j hu => ?_,fun j hjo => ?_⟩
  · by_cases hji : j=i
    · subst hji
      exact ⟨h'.1.inv hu,fun hl => (hn j (h'.1.rel.used hu)).2 (h'.1.rel.late hu hl)⟩
    · exact h'.2.1 j hji hu
  · by_cases hji : j=i
    · subst hji
      exact h'.1.rel
    · exact h'.2.2 j hji hjo

lemma leads_onOwned {p : SockM α} (hi : i∉owners σ) (h : ownedContract.Leads p (n.socks i)) :
    (stateContract ok σ).Leads (onSock i p) n := by
  intro hn
  refine wp_mono (wp_zoom (flow_lifts i) (h fun hu => (hn i hu).1) fun j _ => hn j)
    fun _ n' h' => ⟨fun j hu => ?_,fun j hjo => ?_⟩
  · by_cases hji : j=i
    · subst hji
      exact ⟨h'.1.inv hu,fun hl => (hn j (h'.1.rel.used hu)).2 (h'.1.rel.late hu hl)⟩
    · exact h'.2.1 j hji hu
  · have hji : j≠i := fun he => hi (he ▸ hjo)
    exact h'.2.2 j hji hjo

lemma Sock.child_flow (l : Sock) (g : Segment) (rand : Seq) : (l.child g rand).Flow :=
  ⟨nofun,fun _ => ⟨rfl,rfl⟩,nofun,fun hse => hse.elim nofun nofun,nofun⟩

lemma flow_alloc (hn : stateSpec.inv σ n) (hi : i∉owners σ) (hs : s.Flow) (hl : ¬s.Late) :
    (stateContract ok σ).Ends n (n.setSock i s) := by
  refine ⟨fun j hu => ?_,fun j hj => ?_⟩
  · by_cases hji : j=i
    · subst hji
      rw [Net.setSock_self]
      exact ⟨hs,fun h => absurd h hl⟩
    · rw [Net.setSock_of_ne _ _ hji] at hu ⊢
      exact hn j hu
  · have hji : j≠i := fun he => hi (he ▸ hj)
    rw [Net.setSock_of_ne _ _ hji]
    exact .refl _

lemma guar_alloc (hfree : (n.socks i).used=false) (h : (n.setSock i s).Drops n') :
    stateSpec.guar n n' := by
  intro j hu hu'
  have hji : j≠i := by
    rintro rfl
    rw [hfree] at hu
    cases hu
  have hj := h j
  rw [Net.setSock_of_ne _ _ hji] at hj
  exact hj.moves hu'

lemma Net.drops_enqueue (l c : SockIx) (n : Net) : n.Drops (n.enqueue l c) :=
  (drops_modSock (.inr (.inl rfl))).trans (drops_modSock (.inr (.inl rfl)))

lemma Net.drops_queueAdd (l c : SockIx) (n : Net) : n.Drops (listenerQueueAdd l c n) := by
  unfold listenerQueueAdd
  dsimp only
  split
  · exact (drops_prune l n).trans (drops_reset c _)
  · exact (drops_prune l n).trans (drops_enqueue l c _)

lemma socks_pruneLoop (l : SockIx) (cs : List SockIx) (n : Net) (j : SockIx) :
    (pruneLoop l cs n).2.socks j=n.socks j ∨ (pruneLoop l cs n).2.socks j=.zero := by
  induction cs generalizing n with
  | nil => exact .inl rfl
  | cons c cs ih =>
    unfold pruneLoop
    dsimp only
    split
    · rcases ih (if (n.socks c).used then n.setSock c .zero else n) with h | h
      · rw [h]
        split
        · by_cases hj : j=c
          · subst hj
            exact .inr (Net.setSock_self _ _ _)
          · exact .inl (Net.setSock_of_ne _ _ hj)
        · exact .inl rfl
      · exact .inr h
    · exact ih n

lemma queueAdd_child (hcl : c≠l) (hu : ((listenerQueueAdd l c (n.setSock c s)).socks c).used=true) :
    (listenerQueueAdd l c (n.setSock c s)).socks c={s with listener := some l} := by
  have hprune : (listenerQueuePrune l (n.setSock c s)).socks c=s ∨
      (listenerQueuePrune l (n.setSock c s)).socks c=.zero := by
    unfold listenerQueuePrune
    rw [Net.modSock_of_ne _ _ hcl]
    have h := socks_pruneLoop l ((n.setSock c s).socks l).pending (n.setSock c s) c
    rwa [Net.setSock_self] at h
  unfold listenerQueueAdd at hu ⊢
  dsimp only at hu ⊢
  split at hu
  · rw [socketReset,Net.setSock_self] at hu
    cases hu
  next hroom =>
    rw [if_neg hroom]
    rw [Net.modSock_self,Net.modSock_of_ne _ _ hcl] at hu ⊢
    rcases hprune with h | h
    · rw [h]
    · rw [h] at hu
      cases hu

lemma leads_listenerFlow (hl : (n.socks l).used=true)
    (hc : ∀ c, (n.socks l).pending.length<(n.socks l).backlog → g.flags.syn=true →
      freeSock n=some c → c∉owners σ) :
    (stateContract ok σ).Leads (processTcpListener now rand l g) n := by
  refine leads_processTcpListener fun c hroom hsyn hfree => ?_
  have hco := hc c hroom hsyn hfree
  have hcl : c≠l := by
    rintro rfl
    rw [freeSock_free hfree] at hl
    cases hl
  have hdrops := Net.drops_queueAdd l c (n.setSock c ((n.socks l).child g rand))
  refine ⟨fun hn => ⟨guar_alloc (freeSock_free hfree) hdrops,?_⟩,.gets <| .when fun _ =>
    leads_onOwned hco (.drop (leads_syn (fun hu => ?_) rfl rfl) _)⟩
  · have halloc : (stateContract ok σ).Ends n (n.setSock c ((n.socks l).child g rand)) :=
      flow_alloc hn hco ((n.socks l).child_flow g rand) fun h => by cases h.1
    have hfol : (stateContract ok σ).Ends _ _ := hdrops.follows halloc.inv
    exact ⟨hfol.inv,stateWalk.trans halloc.rel hfol.rel⟩
  · rw [id,queueAdd_child hcl hu]
    exact ⟨.inr rfl,rfl⟩

lemma leads_segmentFlow (hc : (NetEvent.segment now rand g).AllocatesApart σ n)
    (hg : (NetEvent.segment now rand g).FinInOrder n) :
    (stateContract ok σ).Leads (processTcp now rand g) n := by
  have hself : ∀ i, (n.modSock i fun s => s.noteAck g).socks i =
      {n.socks i with hist := ((n.socks i).noteAck g).hist} := fun i => by
    rw [Net.modSock_self,← Sock.noteAck_fields]
  refine leads_processTcp (fun i => leads_same ?_) (fun l hfind hlis => leads_listenerFlow (tcpFindSocket_tcp hfind).1
    fun c hroom hsyn hfree => hc c ?_) (fun i hfind hst => leads_processTcpSynSent (Net.drops_tcpOnRst i _).leads
    fun hack => leads_onSock ?_) fun i hfind _ hst =>
    leads_processTcpEstablished (leads_same rfl) (Net.drops_tcpOnRst i _).leads (leads_onSock ?_)
  · rw [Sock.noteAck_fields]
    rfl
  · simp [NetEvent.allocates,hfind,hlis,hroom,hsyn,hfree]
  · rw [hself] at hack ⊢
    exact leads_synAnswered (tcpFindSocket_tcp hfind).1 (tcpFindSocket_tcp hfind).2 hst hack
  · rw [Net.modSock_self,hself]
    exact leads_processSegment (tcpFindSocket_tcp hfind).1 (tcpFindSocket_tcp hfind).2 hst {hg i hfind with}

lemma leads_tickFlow : (stateContract ok σ).Leads (tcpTickSlot now i) n := by
  refine leads_tcpTickSlot (fun _ => (Net.drops_reset i n).leads)
    (fun _ => ((Net.drops_setError i 110 n).trans (Net.drops_tcpOnRst i _)).leads)
    fun tx => leads_onSock (leads_tickResend fun s => leads_sameFlow ?_)
  cases htx : s.txSeg <;> simp [Sock.flow,Sock.txEnd,htx,tcpTxSegEndSeq]

lemma leads_createFlow {proto : NetSockProto} : (stateContract ok []).Leads (netSocketCreate proto) n := by
  refine leads_netSocketCreate fun i hfree hn => ⟨guar_alloc (freeSock_free hfree) (.refl _),?_⟩
  exact flow_alloc hn List.not_mem_nil (.of_closed rfl rfl) fun h => by cases h.1

lemma leads_abortFlow : (stateContract ok σ).Leads (modify fun n => socketReset i (tcpOnRst i n)) n :=
  ((Net.drops_tcpOnRst i n).trans (Net.drops_reset i _)).leads

lemma leads_closeConnectionFlow (hu : (n.socks i).used=true) :
    (stateContract ok []).Leads (closeConnection now i) n := by
  refine .step (leads_same rfl) ?_
  have hself := Net.modSock_self n i fun s => {s with detached := true, appShutRd := true, appShutWr := true}
  generalize (n.modSock i fun s => {s with detached := true, appShutRd := true, appShutWr := true})=m at hself
  have hu' : (m.socks i).used=true := by
    rw [hself]
    exact hu
  refine .gets <| .ite (fun _ => leads_abortFlow) fun _ => .ite (fun _ => leads_same rfl) fun htx =>
    .when fun hst => .bind (leads_onOwned List.not_mem_nil fun hs => ?_) fun _ _ _ => .when fun _ => leads_abortFlow
  have hst : (m.socks i).state.Sends := by simpa [TcpState.Sends] using hst
  exact wp_mono (wp_sendFinFlow hst ((hs hu').idle hst (by simpa using htx))) fun _ _ h => h.owned hu'

lemma leads_closeFlow : (stateContract ok []).Leads (netSocketClose now i) n := by
  refine .gets <| .ite (fun _ => .ret _) fun hused => .ite (fun _ => leads_same rfl) fun _ =>
    .step (leads_same rfl) <| .ite (fun _ => (Net.drops_reset i _).leads) fun _ => leads_closeConnectionFlow ?_
  have hu : (n.socks i).used=true := by simpa using hused
  rw [Net.modSock_self]
  exact hu

lemma leads_bindToFlow {e : ℕ} : (stateContract ok σ).Leads (modify fun n =>
    {n with nextEphemeral := e}.modSock i fun s => s.bindTo ip port) n :=
  Net.Drops.leads (Net.drops_modSock (n := {n with nextEphemeral := e}) (.inr (.inl rfl)))

lemma leads_move {f : Sock → Sock} (hmove : (n.socks i).used=true → (n.socks i).state.Moves (f (n.socks i)).state)
    (hflow : stateSpec.inv [] n → (f (n.socks i)).used=true → (f (n.socks i)).Flow) (hlate : ¬(f (n.socks i)).Late) :
    (stateContract ok []).Leads (modify fun n => n.modSock i f) n := by
  refine fun hn => ⟨fun j hu _ => ?_,fun j hu => ?_,fun _ h => absurd h List.not_mem_nil⟩
  · by_cases hj : j=i
    · subst hj
      rw [Net.modSock_self]
      exact hmove hu
    · rw [Net.modSock_of_ne _ _ hj]
      exact .refl _
  · by_cases hj : j=i
    · subst hj
      rw [Net.modSock_self] at hu ⊢
      exact ⟨hflow hn hu,fun h => absurd h hlate⟩
    · rw [Net.modSock_of_ne _ _ hj] at hu ⊢
      exact hn j hu

lemma leads_sendSynFlow (hu : (n.socks i).used=true) (hst : (n.socks i).state=.closed) :
    (stateContract ok []).Leads (sendSyn now rand i ip port nonblock) n := by
  refine .step (leads_move (fun _ => .inr ?_) (fun hn _ => ?_) fun h => by cases h.1) <|
    .bind (leads_onOwned List.not_mem_nil (leads_syn ?_ rfl rfl)) fun _ n2 _ => .ite (fun _ => .ret _) fun _ =>
    .drop ((Net.drops_setError i 101 n2).trans (Net.drops_tcpOnRst i _)).leads _
  · rw [hst]
    rfl
  · have htx := (hn i hu).1.closed hst
    refine ⟨fun _ => htx,fun _ => ⟨rfl,rfl⟩,(fun h => by cases h),fun hse => ?_,fun t ht => ?_⟩
    · rcases hse with h | h <;> cases h
    · cases htx.symm.trans ht
  · rw [Net.modSock_self]
    exact fun _ => ⟨.inl rfl,rfl⟩

lemma leads_startListeningFlow (hst : (n.socks i).state=.closed ∨ (n.socks i).state=.listen) (backlog : ℤ) :
    (stateContract ok []).Leads (startListening i backlog) n := by
  refine .drop (leads_move (fun _ => ?_) (fun hn hu => ?_) fun h => by cases h.1) _
  · rcases hst with h | h
    · exact .inr (by rw [h]; rfl)
    · exact .inl h.symm
  · refine ⟨(fun h => by cases h),fun ho => ?_,(fun h => by cases h),fun hse => ?_,(hn i hu).1.tx⟩
    · rcases ho with h | h <;> cases h
    · rcases hse with h | h <;> cases h

lemma state_handles : Handles (netWorld fun σ n v => v.Regular σ n) stateSpec := by
  refine handles_of_leads ?_
  intro σ n v hn ⟨⟨hcall,_⟩,_,hlisten,halloc,hfin⟩
  have htop : v.isCall=true → (stateContract (fun σ n v => v.Regular σ n) []).Leads v.perform n →
      (stateContract (fun σ n v => v.Regular σ n) σ).Leads v.perform n := by
    intro hv h
    obtain rfl := hcall hv
    exact h
  cases v with
  | segment now rand g => exact leads_segmentFlow halloc hfin
  | tick now i => exact leads_tickFlow
  | create proto => exact htop rfl leads_createFlow
  | ref i =>
    refine leads_same ?_
    split <;> rfl
  | close now i => exact htop rfl leads_closeFlow
  | bind i ip port => exact .drop (leads_netSocketBind fun _ _ => leads_bindToFlow) _
  | connect now rand i ip port nonblock =>
    refine htop rfl (.drop (leads_netSocketConnect (fun _ _ _ => leads_bindToFlow) fun n' hr hu hst => ?_) _)
    obtain ⟨b,ip,port,hr⟩ := hr
    refine leads_sendSynFlow ?_ ?_
    · rw [hr]
      exact hu
    · rw [hr]
      exact hst
  | listen i backlog =>
    refine htop rfl (.drop (leads_netSocketListen (fun _ _ _ => leads_bindToFlow) fun n' hr _ => ?_) _)
    obtain ⟨b,ip,port,hr⟩ := hr
    refine leads_startListeningFlow ?_ backlog
    rw [hr]
    exact hlisten
  | accept i nonblock =>
    refine .drop (leads_netSocketAccept (fun m => (Net.drops_prune i m).leads) fun m c _ => ?_) _
    exact ((Net.drops_remove i c m).trans (Net.drops_modSock (.inr (.inl rfl)))).leads
  | shutdown now i rd wr => exact htop rfl (.drop (leads_onOwned List.not_mem_nil (leads_shutdown rd wr)) _)
  | read i len nonblock => exact htop rfl (.drop (leads_onOwned List.not_mem_nil leads_readOwned) _)
  | write now i buf nonblock depth =>
    exact htop rfl (.drop (leads_onOwned List.not_mem_nil (leads_writeOwned buf nonblock depth)) _)
  | poll i => exact .gets <| .when fun _ => (Net.drops_prune i n).leads
  | reuseaddr i v =>
    refine leads_same ?_
    split <;> rfl

/-- Every step of a run moves the states of the sockets along the diagram, and a socket that has
received a FIN is not ESTABLISHED, except while the call that answers the FIN is under way. -/
theorem tcp_states_follow_diagram (isLocal : ℕ → Bool) (route : ℕ → Option ℕ) {c : Config Net NetCall}
    (hr : Reaches (netWorld fun σ n v => v.Regular σ n) (Net.init isLocal route) c) :
    (∀ c', Step (netWorld fun σ n v => v.Regular σ n) c c' → ∀ i, (c.state.socks i).used=true →
      (c'.state.socks i).used=true → (c.state.socks i).state.Moves (c'.state.socks i).state) ∧
    (c.running=none → ∀ i, (c.state.socks i).used=true → (c.state.socks i).rxClosed=true →
      (c.state.socks i).state=.established → i∈owners (c.frames.map Frame.call)) := by
  have hinit : stateSpec.inv [] (Net.init isLocal route) := nofun
  have hgood := Good.run stateSpec_lawful state_handles hinit hr
  refine ⟨fun c' hs i hu hu' => ?_,fun hrun i hu hrx hst => ?_⟩
  · cases hs with
    | step => exact hgood.guar i hu hu'
    | call b => exact .refl _
    | ret => exact .refl _
    | start v hv => exact .refl _
    | resume => exact .refl _
  · obtain ⟨n,running,frames⟩ := c
    cases hrun
    exact (hgood.1 i hu).2 ⟨hst,hrx⟩

end Net

section Examples

def openRun : List NetEvent :=
  [.create .tcp,.bind 0 10 80,.connect 0 100 0 20 99 true,
    .segment 1 0 ⟨20,10,99,80,500,101,.synAck,1000,[]⟩]

/-- A FIN without acknowledgement reaches a connection that is being opened. -/
def earlyFinRun : List NetEvent :=
  [.create .tcp,.bind 0 10 80,.listen 0 4,.segment 1 7 ⟨30,10,55,80,500,0,.onlySyn,1000,[]⟩,
    .segment 2 0 ⟨30,10,55,80,501,0,⟨true,false,false,false,false⟩,1000,[]⟩,
    .segment 3 0 ⟨30,10,55,80,502,8,.onlyAck,1000,[]⟩]

/-- An established connection becomes a listener, and a connection that has received a FIN is
established while nothing runs. -/
theorem tcp_states_leave_diagram :
    (∃ n n', Reaches (netWorld fun _ _ _ => True) netExample ⟨n,none,[]⟩ ∧
      (n.socks 0).state=.established ∧
      Reaches (netWorld fun _ _ v => v=.listen 0 1) n ⟨n',none,[]⟩ ∧ (n'.socks 0).state=.listen) ∧
    ∃ n, Reaches (netWorld fun _ _ _ => True) netExample ⟨n,none,[]⟩ ∧ (n.socks 1).used=true ∧
      (n.socks 1).rxClosed=true ∧ (n.socks 1).state=.established := by
  refine ⟨⟨netRun openRun netExample,quietRun (netWorld fun _ _ v => v=.listen 0 1) [.listen 0 1]
    (netRun openRun netExample),netRun_possible (by decide +kernel),by decide +kernel,?_,by decide +kernel⟩,
    netRun earlyFinRun netExample,netRun_possible (by decide +kernel),by decide +kernel,by decide +kernel,
    by decide +kernel⟩
  have hown : ((netRun openRun netExample).socks 0).hist.owned=true := by decide +kernel
  have hv : (NetEvent.listen 0 1).Possible [] (netRun openRun netExample) :=
    ⟨fun _ => rfl,fun i hi => by cases hi; exact hown⟩
  exact Reaches.quiet (M := netWorld fun _ _ v => v=.listen 0 1) (v := .listen 0 1) .refl ⟨hv,rfl⟩

/-- The events of a client that does not close. -/
def opensOnly (n : Net) : NetEvent → Bool
  | .segment _ _ g => !g.flags.fin && (List.finRange netSockMax).all fun i => (n.socks i).state≠.finWait1
  | .listen _ _ | .tick _ _ => false
  | _ => true

/-- The theorem on an open connection. -/
theorem tcp_states_follow_diagram_open : ∃ n : Net, (n.socks 0).used=true ∧
    (n.socks 0).state=.established ∧ (n.socks 0).rxClosed=false := by
  have hcheck : ∀ n v, opensOnly n v=true → v.Regular [] n := by
    intro n v h
    refine ⟨?_,?_,fun _ _ => List.not_mem_nil,?_⟩
    · cases v <;> trivial
    · cases v <;> trivial
    · cases v with
      | segment now rand g =>
        obtain ⟨hfin,hall⟩ := Bool.and_eq_true_iff.1 h
        refine fun i _ => ⟨fun hg => ?_,fun _ hst => ?_⟩
        · rw [hg] at hfin
          cases hfin
        · have hi := List.all_eq_true.1 hall i (List.mem_finRange i)
          exact absurd hst (by simpa using hi)
      | _ => trivial
  have hpossible : netRunPossible (fun σ n v => v.Regular σ n) opensOnly netExample openRun=true := by
    decide +kernel
  have hreach := netRun_reaches hcheck hpossible
  have hu : ((quietRun (netWorld fun σ n v => v.Regular σ n) openRun netExample).socks 0).used=true := by
    decide +kernel
  have hst : ((quietRun (netWorld fun σ n v => v.Regular σ n) openRun netExample).socks 0).state =
      .established := by decide +kernel
  refine ⟨_,hu,hst,?_⟩
  by_contra hrx
  have hmem := (tcp_states_follow_diagram _ _ hreach).2 rfl 0 hu (by simpa using hrx) hst
  exact absurd hmem List.not_mem_nil

end Examples
end FuriOS
