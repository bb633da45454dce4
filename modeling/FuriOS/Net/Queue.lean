import FuriOS.Net.Stack

/-! The queues of the listeners: what ties the pending connections, their back pointers and the
descriptors together, and what each edit of the socket table does to it. -/
namespace FuriOS

/-- A connection that waits in the queue of a listener. -/
structure Sock.Waiting (s : Sock) : Prop where
  refs : s.refs≤1
  noFin : s.finPending=false
  onlySyn : s.sndNxt=s.iss+1
  healthy : s.error=false
  kept : s.hist.returned=0
  state : s.state=.synRecv ∨ (s.state=.established ∨ s.state=.closeWait) ∧ s.hist.acked=true

/-- A connection in a queue waits there, and a listener has nothing in flight. -/
structure Sock.Settled (s : Sock) : Prop where
  waiting : s.listener≠none → s.Waiting
  calm : s.state=.listen → s.txSeg=none

/-- A change of a socket that leaves the links of the table alone. -/
structure Sock.Soft (full : Prop) (s s' : Sock) : Prop where
  used : s'.used=s.used
  proto : s'.proto=s.proto
  pending : s'.pending=s.pending
  listener : s'.listener=s.listener
  owned : s'.hist.owned=s.hist.owned
  detached : s'.detached=s.detached ∨ s.hist.owned=false ∧ s.listener=none
  returned : s'.hist.returned=s.hist.returned ∧ (s.hist.acked=true → s'.hist.acked=true)
  listen : full → (s'.state=.listen ↔ s.state=.listen)
  settled : full → s.Settled → s'.Settled

lemma Sock.Soft.refl {full : Prop} (s : Sock) : s.Soft full s :=
  ⟨rfl,rfl,rfl,rfl,rfl,.inl rfl,⟨rfl,id⟩,fun _ => Iff.rfl,fun _ h => h⟩

/-- A change of a socket that fits the links of the table: descriptors may be closed, and a socket
of descriptors may start to listen. -/
structure Sock.Fits (full : Prop) (s s' : Sock) : Prop where
  used : s'.used=s.used
  proto : s'.proto=s.proto
  pending : s'.pending=s.pending
  listener : s'.listener=s.listener
  owned : s'.hist.owned=true → s.hist.owned=true
  detached : s'.detached=s.detached ∨ s.hist.owned=false ∧ s.listener=none
  returned : s'.hist.returned=s.hist.returned ∧ (s.hist.acked=true → s'.hist.acked=true)
  listening : full → s.state=.listen → s'.state=.listen
  listen : full → s'.state=.listen → s'.hist.owned=true ∧ s'.proto=.tcp ∨
    s.state=.listen ∧ s'.hist.owned=s.hist.owned
  settled : full → s.Settled → s'.Settled

lemma Sock.Soft.fits {full : Prop} {s s' : Sock} (h : s.Soft full s') : s.Fits full s' :=
  ⟨h.used,h.proto,h.pending,h.listener,fun ho => h.owned ▸ ho,h.detached,h.returned,
    fun hf => (h.listen hf).2,fun hf hl => .inr ⟨(h.listen hf).1 hl,h.owned⟩,h.settled⟩

namespace Net
variable {n n' m : Net} {i l c : SockIx} {D : List SockIx}

/-- Descriptors refer to used slots outside the queues, and queues hold used slots that point
back. -/
structure Linked (n : Net) : Prop where
  own : ∀ i, (n.socks i).hist.owned=true →
    (n.socks i).used=true ∧ (n.socks i).listener=none ∧ (n.socks i).detached=false
  queued : ∀ l, ∀ c∈(n.socks l).pending, c≠l ∧ (n.socks c).used=true ∧
    (n.socks c).proto=.tcp ∧ (n.socks c).listener=some l ∧ (n.socks c).detached=false
  nodup : ∀ l, (n.socks l).pending.Nodup

/-- Every back pointer belongs to a queue, only listeners have queues, and the connections in them
are in the middle of the handshake or through with it. -/
structure Handshake (n : Net) : Prop where
  back : ∀ c l, (n.socks c).listener=some l → c∈(n.socks l).pending
  waiting : ∀ c, (n.socks c).listener≠none → (n.socks c).Waiting
  listening : ∀ l, (n.socks l).pending≠[] → (n.socks l).state=.listen
  listener : ∀ l, (n.socks l).state=.listen →
    (n.socks l).hist.owned=true ∧ (n.socks l).proto=.tcp ∧ (n.socks l).txSeg=none
  returned : ∀ c, (n.socks c).hist.returned≤1 ∧
    ((n.socks c).hist.returned≠0 → (n.socks c).hist.acked=true)

lemma Linked.not_owned_of_listener (h : n.Linked) (hl : (n.socks i).listener≠none) :
    (n.socks i).hist.owned=false := by
  by_contra ho
  exact hl (h.own i (by simpa using ho)).2.1

lemma Linked.not_owned_of_free (h : n.Linked) (hi : (n.socks i).used=false) :
    (n.socks i).hist.owned=false := by
  by_contra ho
  have hu := (h.own i (by simpa using ho)).1
  rw [hi] at hu
  cases hu

lemma Linked.not_owned (h : n.Linked) (hc : c∈(n.socks l).pending) : (n.socks c).hist.owned=false :=
  h.not_owned_of_listener (by simp [(h.queued l c hc).2.2.2.1])

lemma Linked.unique (h : n.Linked) {k : SockIx} (hl : c∈(n.socks l).pending)
    (hk : c∈(n.socks k).pending) : l=k := by
  have := (h.queued l c hl).2.2.2.1.symm.trans (h.queued k c hk).2.2.2.1
  exact Option.some.inj this

lemma Handshake.pending_nil (h : n.Handshake) (hs : (n.socks i).state≠.listen) :
    (n.socks i).pending=[] := by
  by_contra hp
  exact hs (h.listening i hp)

/-- The slots of `D` are cleared and taken out of every queue. -/
structure Cleared (D : List SockIx) (n n' : Net) : Prop where
  zero : ∀ j∈D, n'.socks j=.zero
  rest : ∀ j, j∉D → n'.socks j={n.socks j with pending := (n.socks j).pending.filter (· ∉ D)}

lemma Cleared.linked (h : Cleared D n n') (hn : n.Linked) : n'.Linked where
  own i hi := by
    by_cases hD : i∈D
    · rw [h.zero i hD] at hi
      cases hi
    · rw [h.rest i hD] at hi ⊢
      exact hn.own i hi
  queued l c hc := by
    by_cases hD : l∈D
    · rw [h.zero l hD] at hc
      cases hc
    · rw [h.rest l hD,List.mem_filter,decide_eq_true_eq] at hc
      rw [h.rest c hc.2]
      exact hn.queued l c hc.1
  nodup l := by
    by_cases hD : l∈D
    · rw [h.zero l hD]
      exact List.nodup_nil
    · rw [h.rest l hD]
      exact (hn.nodup l).filter _

lemma Cleared.handshake (h : Cleared D n n') (hn : n.Handshake)
    (hD : ∀ l∈D, ∀ c∈(n.socks l).pending, c∈D) : n'.Handshake where
  back c l hc := by
    by_cases hcD : c∈D
    · rw [h.zero c hcD] at hc
      cases hc
    · rw [h.rest c hcD] at hc
      have hmem := hn.back c l hc
      have hl : l∉D := fun hl => hcD (hD l hl c hmem)
      rw [h.rest l hl]
      exact List.mem_filter.2 ⟨hmem,by simpa using hcD⟩
  waiting c hc := by
    by_cases hcD : c∈D
    · rw [h.zero c hcD] at hc
      exact absurd rfl hc
    · rw [h.rest c hcD] at hc ⊢
      exact {hn.waiting c hc with}
  listening l hl := by
    by_cases hlD : l∈D
    · rw [h.zero l hlD] at hl
      exact absurd rfl hl
    · rw [h.rest l hlD] at hl ⊢
      exact hn.listening l fun hnil => hl (by simp [hnil])
  listener l hl := by
    by_cases hlD : l∈D
    · rw [h.zero l hlD] at hl
      cases hl
    · rw [h.rest l hlD] at hl ⊢
      exact hn.listener l hl
  returned c := by
    by_cases hcD : c∈D
    · rw [h.zero c hcD]
      exact ⟨Nat.zero_le 1,fun hne => absurd rfl hne⟩
    · rw [h.rest c hcD]
      exact hn.returned c

@[simp] lemma setSock_self (n : Net) (i : SockIx) (s : Sock) : (n.setSock i s).socks i=s := by
  simp [setSock]

@[simp] lemma setSock_of_ne (n : Net) {i j : SockIx} (s : Sock) (h : j≠i) :
    (n.setSock i s).socks j=n.socks j := by
  simp [setSock,h]

@[simp] lemma modSock_self (n : Net) (i : SockIx) (f : Sock → Sock) :
    (n.modSock i f).socks i=f (n.socks i) := by
  simp [modSock]

@[simp] lemma modSock_of_ne (n : Net) {i j : SockIx} (f : Sock → Sock) (h : j≠i) :
    (n.modSock i f).socks j=n.socks j := by
  simp [modSock,h]

lemma modSock_proj {β : Type} {f : Sock → Sock} (π : Sock → β) (h : π (f (n.socks i))=π (n.socks i))
    (j : SockIx) : π ((n.modSock i f).socks j)=π (n.socks j) := by
  by_cases hj : j=i
  · subst hj
    rw [modSock_self,h]
  · rw [modSock_of_ne _ _ hj]

lemma Cleared.of_same (h : Cleared D m n') (hD : i∈D) (hm : ∀ j, j≠i → m.socks j=n.socks j) :
    Cleared D n n' where
  zero := h.zero
  rest j hj := by
    have hji : j≠i := fun he => hj (he ▸ hD)
    rw [h.rest j hj,hm j hji]

lemma foldr_setSock_zero (L : List SockIx) (n : Net) (j : SockIx) :
    (L.foldr (fun c n => n.setSock c .zero) n).socks j=if j∈L then .zero else n.socks j := by
  induction L with
  | nil => simp
  | cons c L ih =>
    rw [List.foldr_cons]
    by_cases hj : j=c
    · subst hj
      simp
    · rw [setSock_of_ne _ _ hj,ih]
      simp [hj]

lemma socks_leaveQueue (h : n.Linked) {j : SockIx} (hj : j≠i) :
    (leaveQueue i n).socks j={n.socks j with pending := (n.socks j).pending.erase i} := by
  have hother : ∀ k, (n.socks i).listener≠some k ∨ (n.socks i).proto≠.tcp →
      (n.socks k).pending.erase i=(n.socks k).pending := by
    intro k hk
    refine List.erase_of_not_mem fun hmem => ?_
    obtain ⟨_,_,htcp,hlis,_⟩ := h.queued k i hmem
    exact hk.elim (fun hne => hne hlis) fun hne => hne htcp
  unfold leaveQueue
  split
  next l hl =>
    split
    next htcp =>
      unfold listenerQueueRemove
      split
      next hmem =>
        rw [modSock_of_ne _ _ hj]
        by_cases hjl : j=l
        · subst hjl
          rw [modSock_self]
        · rw [modSock_of_ne _ _ hjl,hother j (.inl fun he => hjl (Option.some.inj (he.symm.trans hl)))]
      next hmem =>
        by_cases hjl : j=l
        · subst hjl
          rw [List.erase_of_not_mem hmem]
        · rw [hother j (.inl fun he => hjl (Option.some.inj (he.symm.trans hl)))]
    next htcp => rw [hother j (.inr htcp)]
  next hl => rw [hother j (.inl (by simp [hl]))]

lemma leaveQueue_self (h : n.Linked) : ((leaveQueue i n).socks i).proto=(n.socks i).proto ∧
    ((leaveQueue i n).socks i).state=(n.socks i).state ∧
    ((leaveQueue i n).socks i).pending=(n.socks i).pending := by
  unfold leaveQueue
  split
  next l hl =>
    split
    · unfold listenerQueueRemove
      split
      next hmem =>
        have hil : i≠l := (h.queued l i hmem).1
        simp [hil]
      · exact ⟨rfl,rfl,rfl⟩
    · exact ⟨rfl,rfl,rfl⟩
  · exact ⟨rfl,rfl,rfl⟩

/-- The slots that `socket_reset` clears. -/
def resetSet (n : Net) (i : SockIx) : List SockIx :=
  i::if (n.socks i).proto=.tcp ∧ (n.socks i).state=.listen then (n.socks i).pending else []

lemma socketReset_cleared (h : n.Linked) (i : SockIx) :
    Cleared (n.resetSet i) n (socketReset i n) := by
  obtain ⟨hproto,hstate,hpend⟩ := leaveQueue_self (i := i) h
  have hsocks : ∀ j, j≠i → (socketReset i n).socks j=if j∈n.resetSet i then .zero
      else {n.socks j with pending := (n.socks j).pending.erase i} := by
    intro j hj
    rw [socketReset,setSock_of_ne _ _ hj,dropQueue,hproto,hstate,hpend,resetSet]
    split
    · rw [foldr_setSock_zero,socks_leaveQueue h hj]
      simp [hj]
    · rw [socks_leaveQueue h hj]
      simp [hj]
  refine ⟨fun j hjD => ?_,fun j hjD => ?_⟩
  · by_cases hj : j=i
    · subst hj
      rw [socketReset,setSock_self]
    · rw [hsocks j hj,if_pos hjD]
  · have hj : j≠i := fun he => hjD (he ▸ List.mem_cons_self)
    have hfilter : (n.socks j).pending.erase i = (n.socks j).pending.filter (· ∉ n.resetSet i) := by
      rw [(h.nodup j).erase_eq_filter]
      refine List.filter_congr fun c hc => ?_
      -- a connection in the queue of `j` is not in the queue of `i`
      have hci : c∉(n.socks i).pending := fun hci => hj (h.unique hc hci)
      by_cases hcond : (n.socks i).proto=.tcp ∧ (n.socks i).state=.listen
      · simp [resetSet,hcond,hci,bne,beq_eq_decide]
      · simp [resetSet,hcond,bne,beq_eq_decide]
    rw [hsocks j hj,if_neg hjD,hfilter]

/-- `listener_queue_prune` drops the connection. -/
def stale (n : Net) (l c : SockIx) : Bool :=
  !(n.socks c).used || (n.socks c).listener≠some l || (n.socks c).state=.closed || (n.socks c).error

lemma pruneLoop_spec (l : SockIx) (cs : List SockIx) (n : Net) (hcs : cs.Nodup) :
    (pruneLoop l cs n).1=cs.filter (fun c => !n.stale l c) ∧
    ∀ j, (pruneLoop l cs n).2.socks j =
      if j∈cs ∧ n.stale l j=true ∧ (n.socks j).used=true then .zero else n.socks j := by
  induction cs generalizing n with
  | nil => exact ⟨rfl,fun j => by simp [pruneLoop]⟩
  | cons c cs ih =>
    obtain ⟨hc,hcs⟩ := List.nodup_cons.1 hcs
    by_cases hstale : n.stale l c=true
    · have hm : ∀ j, j≠c → (if (n.socks c).used then n.setSock c .zero else n).socks j=n.socks j := by
        intro j hj
        split
        · exact setSock_of_ne n _ hj
        · rfl
      obtain ⟨hkeep,hsocks⟩ := ih (if (n.socks c).used then n.setSock c .zero else n) hcs
      have hloop : pruneLoop l (c::cs) n =
          pruneLoop l cs (if (n.socks c).used then n.setSock c .zero else n) := if_pos hstale
      rw [hloop]
      refine ⟨?_,fun j => ?_⟩
      · rw [hkeep,List.filter_cons_of_neg (by simp [hstale])]
        refine List.filter_congr fun d hd => ?_
        rw [stale,stale,hm d fun he => hc (he ▸ hd)]
      · rw [hsocks]
        by_cases hj : j=c
        · subst hj
          cases hu : (n.socks j).used <;> simp [hc,hstale,hu]
        · rw [stale,hm j hj]
          simp [hj,stale]
    · obtain ⟨hkeep,hsocks⟩ := ih n hcs
      have hloop : pruneLoop l (c::cs) n=(c::(pruneLoop l cs n).1,(pruneLoop l cs n).2) :=
        if_neg hstale
      rw [hloop]
      refine ⟨?_,fun j => ?_⟩
      · rw [List.filter_cons_of_pos (by simp [hstale]),hkeep]
      · rw [hsocks]
        by_cases hj : j=c
        · subst hj
          simp [hc,hstale]
        · simp [hj]

lemma listenerQueuePrune_cleared (h : n.Linked) (l : SockIx) :
    Cleared ((n.socks l).pending.filter (n.stale l)) n (listenerQueuePrune l n) := by
  obtain ⟨hkeep,hsocks⟩ := pruneLoop_spec l (n.socks l).pending n (h.nodup l)
  have hl : l∉(n.socks l).pending := fun hmem => (h.queued l l hmem).1 rfl
  refine ⟨fun j hj => ?_,fun j hj => ?_⟩
  · obtain ⟨hmem,hst⟩ := List.mem_filter.1 hj
    have hjl : j≠l := fun he => hl (he ▸ hmem)
    rw [listenerQueuePrune,modSock_of_ne _ _ hjl,hsocks,if_pos ⟨hmem,hst,(h.queued l j hmem).2.1⟩]
  · have hjst : ¬(j∈(n.socks l).pending ∧ n.stale l j=true ∧ (n.socks j).used=true) :=
      fun hall => hj (List.mem_filter.2 ⟨hall.1,hall.2.1⟩)
    by_cases hjl : j=l
    · subst hjl
      have hfilter : (n.socks j).pending.filter (fun c => !n.stale j c) =
          (n.socks j).pending.filter (· ∉ (n.socks j).pending.filter (n.stale j)) :=
        List.filter_congr fun c hc => by simp [hc]
      rw [listenerQueuePrune,modSock_self,hsocks,if_neg hjst,hkeep,hfilter]
    · have hfilter : (n.socks j).pending.filter (· ∉ (n.socks l).pending.filter (n.stale l)) =
          (n.socks j).pending := by
        refine List.filter_eq_self.2 fun c hc => ?_
        have hcl : c∉(n.socks l).pending := fun hcl => hjl (h.unique hc hcl)
        simp [hcl]
      rw [listenerQueuePrune,modSock_of_ne _ _ hjl,hsocks,if_neg hjst,hfilter]

lemma Handshake.not_stale (hn : n.Linked) (h : n.Handshake) (hc : c∈(n.socks l).pending) :
    n.stale l c=false := by
  obtain ⟨_,hused,_,hlis,_⟩ := hn.queued l c hc
  have hw := h.waiting c (by simp [hlis])
  have hstate : (n.socks c).state≠.closed := by
    rcases hw.state with hs | ⟨hs | hs,_⟩ <;> simp [hs]
  simp [stale,hused,hlis,hw.healthy,hstate]

/-- The links hold, with `full` also those of the handshake. -/
structure Sound (full : Prop) (n : Net) : Prop where
  linked : n.Linked
  handshake : full → n.Handshake

/-- What handlers that run during other calls do not do: change which slots descriptors refer to,
start a listener, or put a slot of `P` that is in no queue into one. -/
structure Mild (full : Prop) (P : List SockIx) (n n' : Net) : Prop where
  owned : ∀ j, (n'.socks j).hist.owned=(n.socks j).hist.owned
  listen : full → ∀ j, (n'.socks j).state=.listen → (n.socks j).state=.listen
  unqueued : full → ∀ j∈P, (n.socks j).listener=none → (n'.socks j).listener=none

variable {full : Prop} {P : List SockIx}

lemma Mild.refl (n : Net) : Mild full P n n := ⟨fun _ => rfl,fun _ _ h => h,fun _ _ _ h => h⟩

lemma Mild.trans (h : Mild full P n m) (h' : Mild full P m n') : Mild full P n n' where
  owned j := (h'.owned j).trans (h.owned j)
  listen hf j hj := h.listen hf j (h'.listen hf j hj)
  unqueued hf j hj hl := h'.unqueued hf j hj (h.unqueued hf j hj hl)

lemma Cleared.mild (h : Cleared D n n') (hD : ∀ j∈D, (n.socks j).hist.owned=false) :
    Mild full P n n' where
  owned j := by
    by_cases hj : j∈D
    · rw [h.zero j hj,hD j hj]
      rfl
    · rw [h.rest j hj]
  listen _ j hl := by
    by_cases hj : j∈D
    · rw [h.zero j hj] at hl
      cases hl
    · rw [h.rest j hj] at hl
      exact hl
  unqueued _ j _ hl := by
    by_cases hj : j∈D
    · rw [h.zero j hj]
      rfl
    · rw [h.rest j hj]
      exact hl

lemma Sound.cleared (h : Sound full n) (hcl : Cleared (n.resetSet i) n n') : Sound full n' := by
  refine ⟨hcl.linked h.linked,fun hf => hcl.handshake (h.handshake hf) fun l hl c hc => ?_⟩
  have hs := (h.handshake hf).listening l (List.ne_nil_of_mem hc)
  rcases List.mem_cons.1 hl with rfl | hl
  · have htcp := ((h.handshake hf).listener l hs).2.1
    exact List.mem_cons_of_mem _ (by simpa [htcp,hs] using hc)
  · split at hl
    next hi =>
      -- a connection in a queue has no queue of its own
      have hlis := (h.linked.queued i l hl).2.2.2.1
      rcases ((h.handshake hf).waiting l (by simp [hlis])).state with hst | ⟨hst | hst,_⟩ <;>
        simp [hst] at hs
    · cases hl

lemma Sound.reset (h : Sound full n) (i : SockIx) : Sound full (socketReset i n) :=
  h.cleared (socketReset_cleared h.linked i)

lemma Linked.resetSet_not_owned (h : n.Linked) {j : SockIx} (hj : j∈n.resetSet i) :
    j=i ∨ (n.socks j).hist.owned=false := by
  rcases List.mem_cons.1 hj with rfl | hj
  · exact .inl rfl
  · split at hj
    · exact .inr (h.not_owned hj)
    · cases hj

lemma Sound.reset_mild (h : Sound full n) (hi : (n.socks i).hist.owned=false) :
    Mild full P n (socketReset i n) := by
  refine (socketReset_cleared h.linked i).mild fun j hj => ?_
  rcases h.linked.resetSet_not_owned hj with rfl | hj
  · exact hi
  · exact hj

lemma Sound.prune (h : Sound full n) (l : SockIx) : Sound full (listenerQueuePrune l n) := by
  have hcl := listenerQueuePrune_cleared h.linked l
  refine ⟨hcl.linked h.linked,fun hf => hcl.handshake (h.handshake hf) fun k hk => ?_⟩
  obtain ⟨hmem,hst⟩ := List.mem_filter.1 hk
  rw [(h.handshake hf).not_stale h.linked hmem] at hst
  cases hst

lemma Sound.prune_mild (h : Sound full n) (l : SockIx) : Mild full P n (listenerQueuePrune l n) :=
  (listenerQueuePrune_cleared h.linked l).mild fun _ hj =>
    h.linked.not_owned (List.mem_filter.1 hj).1

lemma Sound.settled (h : Sound full n) (hf : full) (i : SockIx) : (n.socks i).Settled :=
  ⟨(h.handshake hf).waiting i,fun hs => ((h.handshake hf).listener i hs).2.2⟩

section Fits
variable (hs : ∀ j, j≠i → n'.socks j=n.socks j) (hfits : (n.socks i).Fits full (n'.socks i))
include hs hfits

lemma fits_at (j : SockIx) : (n.socks j).Fits full (n'.socks j) := by
  by_cases hj : j=i
  · subst hj
    exact hfits
  · rw [hs j hj]
    exact (Sock.Soft.refl _).fits

lemma Linked.fits (h : n.Linked) : n'.Linked where
  own j hj := by
    have hj' := fits_at hs hfits j
    obtain ⟨hu,hl,hd⟩ := h.own j (hj'.owned hj)
    refine ⟨hj'.used.trans hu,hj'.listener.trans hl,?_⟩
    rcases hj'.detached with he | ⟨ho,_⟩
    · exact he.trans hd
    · cases ho.symm.trans (hj'.owned hj)
  queued l c hc := by
    have hc' := fits_at hs hfits c
    rw [(fits_at hs hfits l).pending] at hc
    obtain ⟨hne,hu,hp,hl,hd⟩ := h.queued l c hc
    refine ⟨hne,hc'.used.trans hu,hc'.proto.trans hp,hc'.listener.trans hl,?_⟩
    rcases hc'.detached with he | ⟨_,hnone⟩
    · exact he.trans hd
    · rw [hl] at hnone
      cases hnone
  nodup l := by
    rw [(fits_at hs hfits l).pending]
    exact h.nodup l

lemma Sound.fits (h : Sound full n) : Sound full n' where
  linked := h.linked.fits hs hfits
  handshake hf := by
    have hn := h.handshake hf
    have hset : ∀ j, (n'.socks j).Settled := fun j => (fits_at hs hfits j).settled hf (h.settled hf j)
    refine ⟨fun c l hc => ?_,fun c => (hset c).waiting,fun l hl => ?_,fun l hl => ?_,fun c => ?_⟩
    · rw [(fits_at hs hfits c).listener] at hc
      rw [(fits_at hs hfits l).pending]
      exact hn.back c l hc
    · rw [(fits_at hs hfits l).pending] at hl
      exact (fits_at hs hfits l).listening hf (hn.listening l hl)
    · have hl' := fits_at hs hfits l
      rcases hl'.listen hf hl with ⟨ho,hp⟩ | ⟨hlis,ho⟩
      · exact ⟨ho,hp,(hset l).calm hl⟩
      · obtain ⟨ho1,hp,_⟩ := hn.listener l hlis
        exact ⟨ho.trans ho1,hl'.proto.trans hp,(hset l).calm hl⟩
    · obtain ⟨hret,hack⟩ := (fits_at hs hfits c).returned
      rw [hret]
      exact ⟨(hn.returned c).1,fun hne => hack ((hn.returned c).2 hne)⟩

end Fits

section Soft
variable (hs : ∀ j, j≠i → n'.socks j=n.socks j) (hsoft : (n.socks i).Soft full (n'.socks i))
include hs hsoft

lemma soft_at (j : SockIx) : (n.socks j).Soft full (n'.socks j) := by
  by_cases hj : j=i
  · subst hj
    exact hsoft
  · rw [hs j hj]
    exact .refl _

lemma Linked.soft (h : n.Linked) : n'.Linked := h.fits hs hsoft.fits

lemma Sound.soft (h : Sound full n) : Sound full n' := h.fits hs hsoft.fits

lemma mild_soft : Mild full P n n' where
  owned j := (soft_at hs hsoft j).owned
  listen hf j hj := ((soft_at hs hsoft j).listen hf).1 hj
  unqueued _ j _ hl := (soft_at hs hsoft j).listener.trans hl

end Soft

/-- A slot that is free in `n` is set up. -/
structure Allocated (i : SockIx) (s : Sock) (n : Net) : Prop where
  free : (n.socks i).used=false
  used : s.used=true
  pending : s.pending=[]
  listener : s.listener=none
  detached : s.detached=false
  state : s.state≠.listen
  returned : s.hist.returned=0

lemma Sound.alloc {s : Sock} (h : Sound full n) (ha : Allocated i s n) :
    Sound full (n.setSock i s) := by
  have hown := h.linked.not_owned_of_free ha.free
  have hmem : ∀ l, i∉(n.socks l).pending := by
    intro l hi
    have hu := (h.linked.queued l i hi).2.1
    rw [ha.free] at hu
    cases hu
  refine ⟨⟨fun j hj => ?_,fun l c hc => ?_,fun l => ?_⟩,fun hf => ?_⟩
  · by_cases hji : j=i
    · subst hji
      simpa using ⟨ha.used,ha.listener,ha.detached⟩
    · rw [setSock_of_ne _ _ hji] at hj ⊢
      exact h.linked.own j hj
  · by_cases hl : l=i
    · subst hl
      simp [ha.pending] at hc
    · rw [setSock_of_ne _ _ hl] at hc
      rw [setSock_of_ne _ _ fun he : c=i => hmem l (he ▸ hc)]
      exact h.linked.queued l c hc
  · by_cases hl : l=i
    · subst hl
      simp [ha.pending]
    · rw [setSock_of_ne _ _ hl]
      exact h.linked.nodup l
  · have hn := h.handshake hf
    refine ⟨fun c l hc => ?_,fun c hc => ?_,fun l hl => ?_,fun l hl => ?_,fun c => ?_⟩
    · have hci : c≠i := by
        rintro rfl
        simp [ha.listener] at hc
      rw [setSock_of_ne _ _ hci] at hc
      have hback := hn.back c l hc
      -- the queue of a free slot is empty, because a listener is owned
      have hl : l≠i := by
        rintro rfl
        have ho := (hn.listener l (hn.listening l (List.ne_nil_of_mem hback))).1
        rw [hown] at ho
        cases ho
      rwa [setSock_of_ne _ _ hl]
    · by_cases hci : c=i
      · subst hci
        simp [ha.listener] at hc
      · rw [setSock_of_ne _ _ hci] at hc ⊢
        exact hn.waiting c hc
    · by_cases hli : l=i
      · subst hli
        simp [ha.pending] at hl
      · rw [setSock_of_ne _ _ hli] at hl ⊢
        exact hn.listening l hl
    · by_cases hli : l=i
      · subst hli
        exact absurd hl (by simpa using ha.state)
      · rw [setSock_of_ne _ _ hli] at hl ⊢
        exact hn.listener l hl
    · by_cases hci : c=i
      · subst hci
        simp [ha.returned]
      · rw [setSock_of_ne _ _ hci]
        exact hn.returned c

/-- A connection `c` in no queue can join the queue of the listener `l`. -/
structure Joins (full : Prop) (l c : SockIx) (n : Net) : Prop where
  ne : c≠l
  used : (n.socks c).used=true
  proto : (n.socks c).proto=.tcp
  listener : (n.socks c).listener=none
  detached : (n.socks c).detached=false
  owned : (n.socks c).hist.owned=false
  waiting : full → (n.socks c).Waiting
  listens : full → (n.socks l).state=.listen

/-- The end of `listener_queue_add`. -/
def enqueue (l c : SockIx) (n : Net) : Net :=
  (n.modSock l fun s => {s with pending := s.pending++[c]}).modSock c fun s => {s with listener := some l}

lemma enqueue_queue (n : Net) (h : c≠l) :
    (n.enqueue l c).socks l={n.socks l with pending := (n.socks l).pending++[c]} := by
  rw [enqueue,modSock_of_ne _ _ h.symm,modSock_self]

lemma enqueue_new (n : Net) (h : c≠l) :
    (n.enqueue l c).socks c={n.socks c with listener := some l} := by
  rw [enqueue,modSock_self,modSock_of_ne _ _ h]

lemma enqueue_other (n : Net) {j : SockIx} (hl : j≠l) (hc : j≠c) :
    (n.enqueue l c).socks j=n.socks j := by
  rw [enqueue,modSock_of_ne _ _ hc,modSock_of_ne _ _ hl]

lemma mem_enqueue (h : Joins full l c n) {k d : SockIx} :
    d∈((n.enqueue l c).socks k).pending ↔ d∈(n.socks k).pending ∨ k=l ∧ d=c := by
  by_cases hk : k=l
  · subst hk
    rw [enqueue_queue _ h.ne]
    simp
  · by_cases hkc : k=c
    · subst hkc
      rw [enqueue_new _ h.ne]
      simp [hk]
    · rw [enqueue_other _ hk hkc]
      simp [hk]

lemma enqueue_fields (h : Joins full l c n) (k : SockIx) : (n.enqueue l c).socks k={n.socks k with
      pending := ((n.enqueue l c).socks k).pending
      listener := if k=c then some l else (n.socks k).listener} := by
  by_cases hk : k=l
  · subst hk
    rw [enqueue_queue _ h.ne,if_neg h.ne.symm]
  · by_cases hkc : k=c
    · subst hkc
      rw [enqueue_new _ h.ne,if_pos rfl]
    · rw [enqueue_other _ hk hkc,if_neg hkc]

lemma Linked.enqueue (h : n.Linked) (hj : Joins full l c n) : (n.enqueue l c).Linked where
  own k hk := by
    rw [enqueue_fields hj k] at hk ⊢
    have hkc : k≠c := by
      rintro rfl
      exact absurd hk (by simp [hj.owned])
    simpa only [if_neg hkc] using h.own k hk
  queued k d hd := by
    rcases (mem_enqueue hj).1 hd with hd | ⟨rfl,rfl⟩
    · obtain ⟨hne,hu,hp,hl,hdet⟩ := h.queued k d hd
      have hdc : d≠c := by
        rintro rfl
        rw [hj.listener] at hl
        cases hl
      rw [enqueue_fields hj d]
      exact ⟨hne,hu,hp,by simpa only [if_neg hdc] using hl,hdet⟩
    · rw [enqueue_fields hj d]
      exact ⟨hj.ne,hj.used,hj.proto,if_pos rfl,hj.detached⟩
  nodup k := by
    by_cases hk : k=l
    · subst hk
      rw [enqueue_queue _ hj.ne]
      refine List.Nodup.append (h.nodup k) (List.nodup_singleton c) ?_
      rintro d hd hdc
      rw [List.mem_singleton] at hdc
      subst hdc
      have hl := (h.queued k d hd).2.2.2.1
      rw [hj.listener] at hl
      cases hl
    · by_cases hkc : k=c
      · subst hkc
        rw [enqueue_new _ hj.ne]
        exact h.nodup k
      · rw [enqueue_other _ hk hkc]
        exact h.nodup k

lemma Sound.enqueue (h : Sound full n) (hj : Joins full l c n) : Sound full (n.enqueue l c) where
  linked := h.linked.enqueue hj
  handshake hf := by
    have hn := h.handshake hf
    refine ⟨fun d k hd => ?_,fun d hd => ?_,fun k hk => ?_,fun k hk => ?_,fun d => ?_⟩
    · rw [mem_enqueue hj]
      rw [enqueue_fields hj d] at hd
      by_cases hdc : d=c
      · subst hdc
        simp only [if_true,Option.some.injEq] at hd
        exact .inr ⟨hd.symm,rfl⟩
      · simp only [if_neg hdc] at hd
        exact .inl (hn.back d k hd)
    · rw [enqueue_fields hj d] at hd ⊢
      by_cases hdc : d=c
      · subst hdc
        exact {hj.waiting hf with}
      · simp only [if_neg hdc] at hd
        exact {hn.waiting d hd with}
    · rw [enqueue_fields hj k]
      obtain ⟨d,hd⟩ := List.exists_mem_of_ne_nil _ hk
      rcases (mem_enqueue hj).1 hd with hd | ⟨rfl,_⟩
      · exact hn.listening k (List.ne_nil_of_mem hd)
      · exact hj.listens hf
    · rw [enqueue_fields hj k] at hk ⊢
      exact hn.listener k hk
    · rw [enqueue_fields hj d]
      exact hn.returned d

lemma mild_enqueue (hj : Joins full l c n) (hP : full → c∉P) : Mild full P n (n.enqueue l c) where
  owned k := by rw [enqueue_fields hj k]
  listen _ k hk := by
    rw [enqueue_fields hj k] at hk
    exact hk
  unqueued hf k hk hl := by
    have hkc : k≠c := fun he => hP hf (he ▸ hk)
    rw [enqueue_fields hj k]
    simpa only [if_neg hkc] using hl

/-- The connection `c` leaves the queue of `l` and is handed out. -/
def take (l c : SockIx) (n : Net) : Net := (listenerQueueRemove l c n).modSock c Sock.handOut

lemma take_fields (h : n.Linked) (hc : c∈(n.socks l).pending) (k : SockIx) :
    (n.take l c).socks k={n.socks k with
      pending := (n.socks k).pending.erase c
      listener := if k=c then none else (n.socks k).listener
      hist := if k=c then (n.socks k).handOut.hist else (n.socks k).hist} := by
  have hcl : c≠l := (h.queued l c hc).1
  have hother : k≠l → (n.socks k).pending.erase c=(n.socks k).pending := fun hk =>
    List.erase_of_not_mem fun hmem => hk (h.unique hmem hc)
  rw [take,listenerQueueRemove,if_pos hc]
  by_cases hkc : k=c
  · subst hkc
    rw [modSock_self,modSock_self,modSock_of_ne _ _ hcl,if_pos rfl,if_pos rfl,hother hcl]
    rfl
  · rw [modSock_of_ne _ _ hkc,modSock_of_ne _ _ hkc,if_neg hkc,if_neg hkc]
    by_cases hk : k=l
    · subst hk
      rw [modSock_self]
    · rw [modSock_of_ne _ _ hk,hother hk]

lemma Linked.take (h : n.Linked) (hc : c∈(n.socks l).pending) : (n.take l c).Linked where
  own k hk := by
    rw [take_fields h hc k] at hk ⊢
    by_cases hkc : k=c
    · subst hkc
      exact ⟨(h.queued l k hc).2.1,if_pos rfl,(h.queued l k hc).2.2.2.2⟩
    · simp only [if_neg hkc] at hk ⊢
      exact h.own k hk
  queued k d hd := by
    rw [take_fields h hc k] at hd
    have hdk := List.mem_of_mem_erase hd
    have hdc : d≠c := by
      rintro rfl
      exact (h.nodup k).not_mem_erase hd
    rw [take_fields h hc d]
    simpa only [if_neg hdc] using h.queued k d hdk
  nodup k := by
    rw [take_fields h hc k]
    exact (h.nodup k).erase c

lemma Sound.take (h : Sound full n) (hc : c∈(n.socks l).pending)
    (hs : (n.socks c).state=.established ∨ (n.socks c).state=.closeWait) :
    Sound full (n.take l c) where
  linked := h.linked.take hc
  handshake hf := by
    have hn := h.handshake hf
    have hfields := take_fields h.linked hc
    have hw := hn.waiting c (by simp [(h.linked.queued l c hc).2.2.2.1])
    have hwait : (n.socks c).state≠.listen := by rcases hs with hs | hs <;> simp [hs]
    refine ⟨fun d k hd => ?_,fun d hd => ?_,fun k hk => ?_,fun k hk => ?_,fun d => ?_⟩
    · rw [hfields d] at hd
      rw [hfields k]
      by_cases hdc : d=c
      · subst hdc
        simp at hd
      · simp only [if_neg hdc] at hd
        exact (List.mem_erase_of_ne hdc).2 (hn.back d k hd)
    · rw [hfields d] at hd ⊢
      by_cases hdc : d=c
      · subst hdc
        simp at hd
      · simp only [if_neg hdc] at hd ⊢
        exact {hn.waiting d hd with}
    · rw [hfields k] at hk ⊢
      exact hn.listening k fun hnil => hk (by simp [hnil])
    · rw [hfields k] at hk ⊢
      have hkc : k≠c := by
        rintro rfl
        exact hwait hk
      simpa only [if_neg hkc] using hn.listener k hk
    · rw [hfields d]
      by_cases hdc : d=c
      · subst hdc
        have hack : (n.socks d).hist.acked=true := by
          rcases hw.state with hst | ⟨_,hack⟩
          · rcases hs with hs | hs <;> simp [hs] at hst
          · exact hack
        simp [Sock.handOut,hw.kept,hack]
      · simpa only [if_neg hdc] using hn.returned d

lemma owned_take (h : n.Linked) (hc : c∈(n.socks l).pending) (k : SockIx)
    (hk : (n.socks k).hist.owned=true) : ((n.take l c).socks k).hist.owned=true := by
  rw [take_fields h hc k]
  by_cases hkc : k=c
  · simp only [if_pos hkc]
    rfl
  · simpa only [if_neg hkc] using hk

lemma tcpOnRst_cases (h : n.Linked) (i : SockIx) :
    ((n.socks i).listener≠none ∧ Cleared [i] n (tcpOnRst i n)) ∨
    (((n.socks i).listener=none ∨ 1<(n.socks i).refs) ∧ tcpOnRst i n=n.modSock i Sock.onRst) := by
  have hself := modSock_self n i Sock.onRst
  have hsoft : (n.socks i).Soft False ((n.modSock i Sock.onRst).socks i) := by
    rw [hself,Sock.onRst_eq]
    exact ⟨rfl,rfl,rfl,rfl,rfl,.inl rfl,⟨rfl,id⟩,False.elim,False.elim⟩
  have hlinked : (n.modSock i Sock.onRst).Linked := h.soft (fun j hj => modSock_of_ne _ _ hj) hsoft
  by_cases hc : (n.socks i).listener≠none ∧ (n.socks i).refs≤1
  · have hrst : tcpOnRst i n=socketReset i (n.modSock i Sock.onRst) := by
      refine if_pos ?_
      rw [hself,Sock.onRst_eq]
      exact ⟨Option.isSome_iff_ne_none.2 hc.1,hc.2⟩
    have hcl := socketReset_cleared hlinked i
    have hset : (n.modSock i Sock.onRst).resetSet i=[i] := by
      rw [resetSet,hself,Sock.onRst_eq]
      simp
    rw [hset,← hrst] at hcl
    exact .inl ⟨hc.1,hcl.of_same List.mem_cons_self fun j hj => modSock_of_ne _ _ hj⟩
  · refine .inr ⟨by_contra fun hn => hc ⟨fun hl => hn (.inl hl),Nat.le_of_not_lt fun hl => hn (.inr hl)⟩,
      if_neg ?_⟩
    rw [hself,Sock.onRst_eq]
    exact fun hcond => hc ⟨Option.isSome_iff_ne_none.1 hcond.1,hcond.2⟩

lemma Sound.onRst (h : Sound full n) (hs : full → (n.socks i).state≠.listen) :
    Sound full (tcpOnRst i n) ∧ Mild full P n (tcpOnRst i n) := by
  rcases tcpOnRst_cases h.linked i with ⟨hl,hcl⟩ | ⟨hl,heq⟩
  · refine ⟨⟨hcl.linked h.linked,fun hf => hcl.handshake (h.handshake hf) fun k hk c hc => ?_⟩,
      hcl.mild fun k hk => ?_⟩
    · rw [List.mem_singleton.1 hk,(h.handshake hf).pending_nil (hs hf)] at hc
      cases hc
    · rw [List.mem_singleton.1 hk]
      exact h.linked.not_owned_of_listener hl
  · have hsoft : (n.socks i).Soft full ((n.modSock i Sock.onRst).socks i) := by
      rw [modSock_self,Sock.onRst_eq]
      refine ⟨rfl,rfl,rfl,rfl,rfl,.inl rfl,⟨rfl,id⟩,fun hf => ?_,fun _ hset => ⟨fun hne => ?_,nofun⟩⟩
      · exact ⟨nofun,fun hlis => absurd hlis (hs hf)⟩
      · have hrefs := (hset.waiting hne).refs
        rcases hl with hl | hl
        · exact absurd hl hne
        · omega
    have hsame : ∀ j, j≠i → (n.modSock i Sock.onRst).socks j=n.socks j :=
      fun j hj => modSock_of_ne _ _ hj
    rw [heq]
    exact ⟨h.soft hsame hsoft,mild_soft hsame hsoft⟩

lemma child_allocated (hc : (n.socks c).used=false) (s : Sock) (g : Segment) (rand : Seq) :
    Allocated c (s.child g rand) n :=
  ⟨hc,rfl,rfl,rfl,rfl,nofun,rfl⟩

lemma child_waiting (s : Sock) (g : Segment) (rand : Seq) : (s.child g rand).Waiting :=
  ⟨le_refl 1,rfl,rfl,rfl,rfl,.inl rfl⟩

lemma Sound.addChild (h : Sound full n) (hc : (n.socks c).used=false) (hl : (n.socks l).used=true)
    (hs : full → (n.socks l).state=.listen) (hP : full → c∉P) (g : Segment) (rand : Seq) :
    Sound full (listenerQueueAdd l c (n.setSock c ((n.socks l).child g rand))) ∧
    Mild full P n (listenerQueueAdd l c (n.setSock c ((n.socks l).child g rand))) := by
  have hcl : c≠l := by
    rintro rfl
    rw [hc] at hl
    cases hl
  have ha := h.alloc (child_allocated hc (n.socks l) g rand)
  have hma : Mild full P n (n.setSock c ((n.socks l).child g rand)) := by
    have hother : ∀ j, j≠c → (n.setSock c ((n.socks l).child g rand)).socks j=n.socks j :=
      fun j hj => setSock_of_ne _ _ hj
    refine ⟨fun j => ?_,fun _ j hj => ?_,fun _ j _ hj => ?_⟩
    · by_cases hjc : j=c
      · subst hjc
        rw [setSock_self,h.linked.not_owned_of_free hc]
        rfl
      · rw [hother j hjc]
    · by_cases hjc : j=c
      · subst hjc
        rw [setSock_self] at hj
        cases hj
      · rwa [hother j hjc] at hj
    · by_cases hjc : j=c
      · subst hjc
        rw [setSock_self]
        rfl
      · rwa [hother j hjc]
  have hp := ha.prune l
  have hmp := hma.trans (ha.prune_mild l)
  -- pruning leaves the new connection alone, because it is in no queue yet
  have hnew : (listenerQueuePrune l (n.setSock c ((n.socks l).child g rand))).socks c =
      (n.socks l).child g rand := by
    have hcD : c∉((n.setSock c ((n.socks l).child g rand)).socks l).pending := fun hmem => by
      have hlis := (ha.linked.queued l c hmem).2.2.2.1
      rw [setSock_self] at hlis
      cases hlis
    rw [(listenerQueuePrune_cleared ha.linked l).rest c fun hD => hcD (List.mem_filter.1 hD).1,
      setSock_self]
    rfl
  unfold listenerQueueAdd
  dsimp only
  split
  · refine ⟨hp.reset c,hmp.trans (hp.reset_mild ?_)⟩
    rw [hnew]
    rfl
  · have hj : Joins full l c (listenerQueuePrune l (n.setSock c ((n.socks l).child g rand))) := by
      refine ⟨hcl,?_,?_,?_,?_,?_,fun _ => ?_,fun hf => ?_⟩
      · rw [hnew]; rfl
      · rw [hnew]; rfl
      · rw [hnew]; rfl
      · rw [hnew]; rfl
      · rw [hnew]; rfl
      · rw [hnew]; exact child_waiting _ g rand
      · have hlD : l∉((n.setSock c ((n.socks l).child g rand)).socks l).pending :=
          fun hmem => (ha.linked.queued l l hmem).1 rfl
        rw [(listenerQueuePrune_cleared ha.linked l).rest l fun hD => hlD (List.mem_filter.1 hD).1,
          setSock_of_ne _ _ hcl.symm]
        exact hs hf
    exact ⟨hp.enqueue hj,hmp.trans (mild_enqueue hj hP)⟩

end Net
end FuriOS
