import FuriOS.Net.Connection

/-! The two byte streams of a connection along every run: the contract of the code of both sockets,
and what the reads of one side return. -/
namespace FuriOS
open Reentrant Reentrant.Act Function

namespace Line
variable {w w' w'' : Line} {X Y : Side} {σ : List (LineCall × Bool)} {u n q : Side → ℕ} {s : Sock}

/-- The first transmissions of a side that are under way and will be reported as failed. -/
def Failing (σ : List (LineCall × Bool)) (X : Side) (seq : Seq) : Prop :=
  ∃ g, ((X,SockCall.send g),false)∈σ ∧ g.seq=seq ∧ (g.payload≠[] ∨ g.flags.fin=true)

/-- Both streams are in order, at the positions `u`, `n` and `q` of the edges of each side. -/
structure Ordered (σ : List (LineCall × Bool)) (w : Line) (u n q : Side → ℕ) : Prop where
  feeds : ∀ X, (w.sock X).Feeds (w.start X) (w.sent X) (w.fin X) (Failing σ X) (u X) (n X)
  drains : ∀ X, (w.sock X).Drains (w.start X.other) (w.sent X.other) (w.fin X.other) (w.returned X) (q X)
  taken : ∀ X, u X≤q X.other
  carries : ∀ X, ∀ p∈w.net X, p.seg.Carries p.own p.peer (w.start X) (w.sent X) (w.fin X)
    (w.start X.other) (q X)
  kept : ∀ X, w.returned X.other <+: w.accepted X

def Core (σ : List (LineCall × Bool)) (w : Line) : Prop := ∃ u n q, Ordered σ w u n q

/-- The right edge of a side is behind everything it has sent. -/
def Settled (X : Side) (w : Line) : Prop :=
  (w.sock X).sndNxt=seqAt (w.start X) ((w.sent X).length+(w.fin X).toNat)

/-- What no event during a call changes. -/
structure Same (w w' : Line) : Prop where
  start : w'.start=w.start
  sent : w'.sent=w.sent
  accepted : w'.accepted=w.accepted
  returned : w'.returned=w.returned
  net : ∀ X, ∀ p∈w.net X, p∈w'.net X
  fin : ∀ X, w.fin X=true → w'.fin X=true
  shutRd : ∀ X, (w'.sock X).appShutRd=(w.sock X).appShutRd
  settled : ∀ X, Settled X w → Settled X w'

/-- The edges of a side stay while everything is acknowledged. -/
def Still (X : Side) (w w' : Line) : Prop := (w.sock X).sndUna=(w.sock X).sndNxt →
  (w'.sock X).sndUna=(w.sock X).sndUna ∧ (w'.sock X).sndNxt=(w.sock X).sndNxt ∧ w'.fin X=w.fin X

structure Kept (w w' : Line) : Prop where
  same : Same w w'
  still : ∀ X, Still X w w'

lemma Same.refl (w : Line) : Same w w :=
  ⟨rfl,rfl,rfl,rfl,fun _ _ h => h,fun _ h => h,fun _ => rfl,fun _ h => h⟩

lemma Same.trans (h : Same w w') (h' : Same w' w'') : Same w w'' where
  start := h'.start.trans h.start
  sent := h'.sent.trans h.sent
  accepted := h'.accepted.trans h.accepted
  returned := h'.returned.trans h.returned
  net X p hp := h'.net X p (h.net X p hp)
  fin X hf := h'.fin X (h.fin X hf)
  shutRd X := (h'.shutRd X).trans (h.shutRd X)
  settled X hs := h'.settled X (h.settled X hs)

lemma Still.trans (h : Still X w w') (h' : Still X w' w'') : Still X w w'' := by
  intro heq
  obtain ⟨hu,hn,hf⟩ := h heq
  obtain ⟨hu',hn',hf'⟩ := h' (by rw [hu,hn,heq])
  exact ⟨hu'.trans hu,hn'.trans hn,hf'.trans hf⟩

instance : IsPreorder Line Kept where
  refl w := ⟨.refl w,fun _ _ => ⟨rfl,rfl,rfl⟩⟩
  trans _ _ _ h h' := ⟨h.same.trans h'.same,fun X => (h.still X).trans (h'.still X)⟩

/-- What a first transmission of side `X` leaves as it is. -/
structure Quits (X : Side) (w w' : Line) : Prop where
  same : Same w w'
  still : Still X.other w w'

instance : IsPreorder Line (Quits X) where
  refl w := ⟨.refl w,fun _ => ⟨rfl,rfl,rfl⟩⟩
  trans _ _ _ h h' := ⟨h.same.trans h'.same,h.still.trans h'.still⟩

lemma Kept.quits (h : Kept w w') : Quits X w w' := ⟨h.same,h.still _⟩

@[simp] lemma setSock_self (w : Line) (X : Side) (s : Sock) : (w.setSock X s).sock X=s :=
  update_self _ _ _

@[simp] lemma setSock_other (w : Line) (X : Side) (s : Sock) :
    (w.setSock X s).sock X.other=w.sock X.other := update_of_ne X.other_ne _ _

@[simp] lemma setSock_start (w : Line) (X : Side) (s : Sock) : (w.setSock X s).start=w.start := rfl

@[simp] lemma setSock_sent (w : Line) (X : Side) (s : Sock) : (w.setSock X s).sent=w.sent := rfl

@[simp] lemma setSock_fin (w : Line) (X : Side) (s : Sock) : (w.setSock X s).fin=w.fin := rfl

@[simp] lemma setSock_returned (w : Line) (X : Side) (s : Sock) :
    (w.setSock X s).returned=w.returned := rfl

@[simp] lemma setSock_setSock (w : Line) (X : Side) (s s' : Sock) :
    (w.setSock X s).setSock X s'=w.setSock X s' := by
  rw [setSock,setSock,setSock,update_idem]

@[simp] lemma setSock_accepted (w : Line) (X : Side) (s : Sock) :
    (w.setSock X s).accepted=w.accepted := rfl

lemma setSock_same (w : Line) (X : Side) : w.setSock X (w.sock X)=w := by
  rw [setSock,update_eq_self]

lemma setSock_settled (hn : s.sndNxt=(w.sock X).sndNxt) (Y : Side) :
    Settled Y w → Settled Y (w.setSock X s) := by
  revert Y
  refine X.both ?_ ?_
  · rw [Settled,Settled,setSock_self,hn]
    exact id
  · rw [Settled,Settled,setSock_other]
    exact id

lemma setSock_sameLine (hn : s.sndNxt=(w.sock X).sndNxt) (hr : s.appShutRd=(w.sock X).appShutRd) :
    Same w (w.setSock X s) :=
  {Same.refl w with
    shutRd := X.both (by rw [setSock_self,hr]) (by rw [setSock_other])
    settled := setSock_settled hn}

lemma setSock_still (s : Sock) : Still X.other w (w.setSock X s) := by
  intro _
  rw [setSock_other]
  exact ⟨rfl,rfl,rfl⟩

lemma setSock_kept (hu : s.sndUna=(w.sock X).sndUna) (hn : s.sndNxt=(w.sock X).sndNxt)
    (hr : s.appShutRd=(w.sock X).appShutRd) : Kept w (w.setSock X s) where
  same := setSock_sameLine hn hr
  still := X.both (fun _ => by rw [setSock_self]; exact ⟨hu,hn,rfl⟩) (setSock_still s)

def addPacket (w : Line) (X : Side) (g : Segment) : Line :=
  {w with net := update w.net X (⟨g,(w.sent X).length,(w.sent X.other).length⟩::w.net X)}

lemma addPacket_net (w : Line) (X : Side) (g : Segment) : (w.addPacket X g).net X =
    ⟨g,(w.sent X).length,(w.sent X.other).length⟩::w.net X := update_self _ _ _

lemma addPacket_net_other (w : Line) (X : Side) (g : Segment) :
    (w.addPacket X g).net X.other=w.net X.other := update_of_ne X.other_ne _ _

lemma onSend_old {g : Segment} (hp : g.payload≠[] → g.seq≠seqAt (w.start X) (w.sent X).length)
    (hf : g.flags.fin=true → w.fin X=true) : w.onSend X g=w.addPacket X g := by
  have hsent : (if g.seq=seqAt (w.start X) (w.sent X).length then w.sent X++g.payload
      else w.sent X)=w.sent X := by
    split_ifs with h
    · rw [not_not.1 (mt hp (not_not.2 h)),List.append_nil]
    · rfl
  have hfin : (w.fin X || g.flags.fin)=w.fin X := by
    cases hg : g.flags.fin with
    | false => exact Bool.or_false _
    | true => rw [hf hg,Bool.or_true]
  rw [onSend,hsent,hfin,update_eq_self,update_eq_self,addPacket]

lemma addPacket_kept (w : Line) (X : Side) (g : Segment) : Kept w (w.addPacket X g) where
  same := {Same.refl w with
    net := X.both (fun p hp => by rw [addPacket_net]; exact List.mem_cons_of_mem _ hp)
      fun p hp => by rwa [addPacket_net_other]}
  still _ _ := ⟨rfl,rfl,rfl⟩

def grown (w : Line) (X : Side) (g : Segment) : Line :=
  {w with
    sent := update w.sent X (w.sent X++g.payload)
    fin := update w.fin X g.flags.fin
    net := update w.net X (⟨g,(w.sent X++g.payload).length,(w.sent X.other).length⟩::w.net X)}

section Grown
variable (w : Line) (X : Side) (g : Segment)

@[simp] lemma grown_sock : (w.grown X g).sock=w.sock := rfl

@[simp] lemma grown_start : (w.grown X g).start=w.start := rfl

@[simp] lemma grown_returned : (w.grown X g).returned=w.returned := rfl

@[simp] lemma grown_sent : (w.grown X g).sent X=w.sent X++g.payload := update_self _ _ _

@[simp] lemma grown_fin : (w.grown X g).fin X=g.flags.fin := update_self _ _ _

@[simp] lemma grown_sent_other : (w.grown X g).sent X.other=w.sent X.other :=
  update_of_ne X.other_ne _ _

@[simp] lemma grown_fin_other : (w.grown X g).fin X.other=w.fin X.other :=
  update_of_ne X.other_ne _ _

lemma grown_net : (w.grown X g).net X =
    ⟨g,(w.sent X++g.payload).length,(w.sent X.other).length⟩::w.net X := update_self _ _ _

lemma grown_net_other : (w.grown X g).net X.other=w.net X.other :=
  update_of_ne X.other_ne _ _

end Grown

lemma onSend_new {g : Segment} (hseq : g.seq=seqAt (w.start X) (w.sent X).length)
    (hfin : w.fin X=false) : w.onSend X g=w.grown X g := by
  rw [onSend,if_pos hseq,hfin,Bool.false_or,grown]

/-- What the reads of a side have returned is a prefix of what was accepted from the other. -/
def Agreed (w : Line) : Prop := ∀ X, w.returned X.other <+: w.accepted X

/-- The contract: the streams are in order, and between the calls everything sent is accepted. -/
def spec : Spec Line LineCall where
  inv σ w := Core σ w ∧ (σ=[] → w.sent=w.accepted ∧ ∀ X, Settled X w)
  rely σ w w' := σ≠[] → Kept w w'
  guar w w' := Agreed w → Agreed w'

lemma spec_lawful : spec.Lawful where
  refl _ w _ := refl_of Kept w
  trans h h' hσ := trans_of Kept (h hσ) (h' hσ)

namespace Ordered

variable {g : Segment}

lemma put (h : Ordered σ w u n q) {u' n' q' : ℕ}
    (hf : s.Feeds (w.start X) (w.sent X) (w.fin X) (Failing σ X) u' n')
    (hd : s.Drains (w.start X.other) (w.sent X.other) (w.fin X.other) (w.returned X) q')
    (hu : u'≤q X.other) (hq : q X≤q') :
    Ordered σ (w.setSock X s) (update u X u') (update n X n') (update q X q') where
  feeds := X.both (by simpa using hf) (by simpa using h.feeds X.other)
  drains := X.both (by simpa using hd) (by simpa using h.drains X.other)
  taken := X.both (by simpa using hu) (by simpa using (h.taken X.other).trans (by simpa using hq))
  carries := X.both (fun p hp => by simpa using (h.carries X p hp).mono hq)
    fun p hp => by simpa using h.carries X.other p hp
  kept := h.kept

lemma addPacket (h : Ordered σ w u n q)
    (hg : g.Carries (w.sent X).length (w.sent X.other).length (w.start X) (w.sent X) (w.fin X)
      (w.start X.other) (q X)) :
    Ordered σ (w.addPacket X g) u n q where
  feeds := h.feeds
  drains := h.drains
  taken := h.taken
  carries := X.both (by rw [addPacket_net]; exact List.forall_mem_cons.2 ⟨hg,h.carries X⟩)
    (by rw [addPacket_net_other]; exact h.carries X.other)
  kept := h.kept

lemma pop {e : LineCall × Bool} (h : Ordered (e::σ) w u n q)
    (hno : ∀ X g t, e=((X,.send g),false) → g.payload≠[] ∨ g.flags.fin=true →
      (w.sock X).txSeg=some t → g.seq≠seqAt (w.start X) ((w.sent X).length+(w.fin X).toNat)) :
    Ordered σ w u n q :=
  {h with
    feeds := fun X => (h.feeds X).mono fun t ht hfail htop => by
      obtain ⟨g,hmem,hseq,hg⟩ := hfail
      rcases List.mem_cons.1 hmem with he | hmem
      · exact absurd (hseq.trans htop) (hno X g t he.symm hg ht)
      · exact ⟨g,hmem,hseq,hg⟩}

lemma push (h : Ordered σ w u n q) (e : LineCall × Bool) : Ordered (e::σ) w u n q :=
  {h with
    feeds := fun X => (h.feeds X).mono fun _ _ hfail _ => by
      obtain ⟨g,hmem,hg⟩ := hfail
      exact ⟨g,List.mem_cons_of_mem _ hmem,hg⟩}

lemma near_taken (h : Ordered σ w u n q) (X : Side) : (w.sent X.other).length≤q X+tcpMaxPayload := by
  have hnear := (h.feeds X.other).near
  have htaken := h.taken X.other
  rw [Side.other_other] at htaken
  omega

lemma sendNew (h : Ordered σ w u n q) {t : TxSeg} (hu : u X=(w.sent X).length)
    (hfin : w.fin X=false) (hw : t.Well) (ht : t.seq=(w.sock X).sndNxt)
    (hshut : t.flags.fin=true → (w.sock X).appShutWr=true) (hflags : g.flags=t.flags)
    (hseq : g.seq=t.seq) (hpay : g.payload=t.data) (hack : g.ack=(w.sock X).rcvNxt) :
    Ordered σ ((w.setSock X {w.sock X with txSeg := some t}).grown X g) u n q := by
  have hfeeds := h.feeds X
  rw [hfin] at hfeeds
  have hsend : {w.sock X with txSeg := some t}.Feeds (w.start X) (w.sent X++t.data) t.flags.fin
      (Failing σ X) (u X) (n X) := hfeeds.send hu hw ht hshut
  have htrack : t.Sent (w.start X) (w.sent X++t.data) t.flags.fin := by
    refine ⟨(w.sent X).length,by simp,?_,List.drop_left.symm,rfl⟩
    have hle := hfeeds.una_le
    have hnle := hfeeds.nxt_le
    rw [Bool.toNat_false] at hnle
    rw [ht,hfeeds.nxt]
    congr 1
    omega
  have hrst : g.flags.rst=false := by
    rw [hflags]
    rcases hw.kind with ⟨hk,-⟩ | ⟨hk,-⟩ <;> rw [hk] <;> rfl
  have hself : {w.sock X with txSeg := some t}.Drains (w.start X.other) (w.sent X.other)
      (w.fin X.other) (w.returned X) (q X) := (h.drains X).alike rfl fun hs => ⟨hs,rfl⟩
  have hother := h.drains X.other
  rw [Side.other_other,hfin] at hother
  refine ⟨X.both ?_ ?_,X.both ?_ ?_,h.taken,X.both ?_ ?_,h.kept⟩
  · simpa [hflags,hpay] using hsend
  · simpa using h.feeds X.other
  · simpa using hself
  · simpa [hflags,hpay] using hother.grow t.data t.flags.fin
  · rw [grown_net]
    simp only [grown_sent,grown_fin,grown_start,setSock_start,setSock_sent,hflags,hpay]
    refine List.forall_mem_cons.2 ⟨?_,fun p hp => ?_⟩
    · exact .track hw htrack hrst (congrArg TcpFlags.fin hflags) hseq hpay
        (hack.trans (h.drains X).rcv) (h.near_taken X)
    · have hc := h.carries X p hp
      rw [hfin] at hc
      exact hc.grow t.data t.flags.fin
  · rw [grown_net_other]
    exact fun p hp => by simpa using h.carries X.other p hp

end Ordered

section Code
variable {ok : List (LineCall × Bool) → LineEvent → Prop} {α β : Type} {Q : α → Line → Prop}
variable {now : ℕ} {flags : TcpFlags} {seq ack : Seq} {payload : Bytes}

/-- The contract of a program of side `X`. -/
abbrev sideWp (ok : List (LineCall × Bool) → LineEvent → Prop) (σ : List (LineCall × Bool)) (X : Side)
    (p : SockM α) (Q : α → Line → Prop) (w : Line) : Prop := wp (lineWorld ok) spec σ (onSide X p) Q w

lemma wp_onSide_pure {r : α} : sideWp ok σ X (pure r) Q w ↔ Q r w := wp_zoom_pure

lemma wp_onSide_bind {p : SockM β} {f : β → SockM α} : sideWp ok σ X (p >>= f) Q w ↔
    sideWp ok σ X p (fun b w' => sideWp ok σ X (f b) Q w') w := wp_zoom_bind

lemma wp_onSide_gets {f : Sock → α} :
    sideWp ok σ X (gets f) Q w ↔ Q (f (w.sock X)) w := by
  rw [sideWp,onSide,wp_zoom_gets (setSock_same w X)]
  exact ⟨fun h => h.2,fun h => ⟨id,h⟩⟩

lemma wp_onSide_modify {f : Sock → Sock} {Q : Unit → Line → Prop} :
    sideWp ok σ X (modify f) Q w ↔ Q () (w.setSock X (f (w.sock X))) :=
  ⟨fun h => h.2,fun h => ⟨id,h⟩⟩

lemma wp_onSide_when {c : Bool} {p : SockM Unit} {Q : Unit → Line → Prop}
    (ht : c=true → sideWp ok σ X p Q w) (hf : c=false → Q () w) :
    sideWp ok σ X (when c p) Q w := wp_zoom_when ht hf

lemma wp_onSide_ite {c : Prop} [Decidable c] {p p' : SockM α}
    (ht : c → sideWp ok σ X p Q w) (hf : ¬c → sideWp ok σ X p' Q w) :
    sideWp ok σ X (if c then p else p') Q w := wp_zoom_ite ht hf

lemma wp_onSide_callOut {d : SockCall} {Q : Bool → Line → Prop}
    (h : ∀ b, Core (((X,d),b)::σ) (emit (X,d) b w) ∧
      ∀ w', Core (((X,d),b)::σ) w' → Kept (emit (X,d) b w) w' → Q b w') :
    sideWp ok σ X (callOut d) Q w := by
  intro b
  obtain ⟨hw,hk⟩ := h b
  exact ⟨⟨hw,fun hnil => absurd hnil (List.cons_ne_nil _ _)⟩,
    fun w' hi hr => hk w' hi.1 (hr (List.cons_ne_nil _ _))⟩

/-- From `w` the program of side `X` keeps the streams in order and relates the states by `R`. -/
def Keeps (ok : List (LineCall × Bool) → LineEvent → Prop) (σ : List (LineCall × Bool)) (X : Side)
    (R : Line → Line → Prop) (p : SockM α) (w : Line) : Prop :=
  Core σ w → sideWp ok σ X p (fun _ w' => Core σ w' ∧ R w w') w

namespace Keeps
variable {R R' : Line → Line → Prop} {p p' : SockM α} {k : α → SockM β} {f : Sock → Sock} {b : Bool}

lemma given (h : Core σ w → Keeps ok σ X R p w) : Keeps ok σ X R p w := fun hw => h hw hw

lemma mono (h : Keeps ok σ X R p w) (hR : ∀ {w w'}, R w w' → R' w w') : Keeps ok σ X R' p w := fun hw =>
  wp_mono (h hw) fun _ _ h' => ⟨h'.1,hR h'.2⟩

lemma ite {c : Prop} [Decidable c] (ht : c → Keeps ok σ X R p w) (hf : ¬c → Keeps ok σ X R p' w) :
    Keeps ok σ X R (if c then p else p') w := fun hw =>
  wp_onSide_ite (fun h => ht h hw) fun h => hf h hw

lemma modify (h : Core σ w → Core σ (w.setSock X (f (w.sock X))) ∧ R w (w.setSock X (f (w.sock X)))) :
    Keeps ok σ X R (modify f) w := fun hw => wp_onSide_modify.2 (h hw)

lemma skip {p : SockM Unit} {k : Unit → SockM β} (hb : b=false) (h : Keeps ok σ X R (k ()) w) :
    Keeps ok σ X R (Act.when b p >>= k) w := by
  subst hb
  exact h

lemma gets {g : Sock → α} (h : Keeps ok σ X R (k (g (w.sock X))) w) :
    Keeps ok σ X R (Act.gets g >>= k) w := fun hw => wp_onSide_bind.2 (wp_onSide_gets.2 (h hw))

variable [IsPreorder Line R]

lemma ret (a : α) : Keeps ok σ X R (pure a) w := fun hw => wp_onSide_pure.2 ⟨hw,refl_of R w⟩

lemma when {p : SockM Unit} (h : b=true → Keeps ok σ X R p w) : Keeps ok σ X R (Act.when b p) w :=
  fun hw => wp_onSide_when (fun hb => h hb hw) fun _ => ⟨hw,refl_of R w⟩

lemma bind (h : Keeps ok σ X R p w) (hk : ∀ a w', R w w' → Keeps ok σ X R (k a) w') :
    Keeps ok σ X R (p >>= k) w := fun hw => wp_onSide_bind.2 <| wp_mono (h hw) fun a w' h' =>
  wp_mono (hk a w' h'.2 h'.1) fun _ _ h'' => ⟨h''.1,trans_of R h'.2 h''.2⟩

lemma drop (h : Keeps ok σ X R p w) (a : β) : Keeps ok σ X R (p >>= fun _ => pure a) w :=
  h.bind fun _ _ _ => .ret a

lemma step {k : Unit → SockM β} (h : Keeps ok σ X R (Act.modify f) w)
    (hk : Keeps ok σ X R (k ()) (w.setSock X (f (w.sock X)))) : Keeps ok σ X R (Act.modify f >>= k) w :=
  fun hw => by
    have h1 := wp_onSide_modify.1 (h hw)
    exact wp_onSide_bind.2 (wp_onSide_modify.2 (wp_mono (hk h1.1) fun _ _ h' =>
      ⟨h'.1,trans_of R h1.2 h'.2⟩))

end Keeps

lemma Core.alike (h : Core σ w) (ha : (w.sock X).Alike s) (hr : s.rcvNxt=(w.sock X).rcvNxt)
    (hx : s.appShutRd=false → (w.sock X).appShutRd=false ∧ s.rx=(w.sock X).rx) :
    Core σ (w.setSock X s) := by
  obtain ⟨u,n,q,ho⟩ := h
  exact ⟨_,_,_,ho.put ((ho.feeds X).alike ha) ((ho.drains X).alike hr hx) (ho.taken X) le_rfl⟩

lemma keeps_neutral {f : Sock → Sock} (h : (w.sock X).Neutral (f (w.sock X))) :
    Keeps ok σ X Kept (modify f) w := .modify fun hw =>
  ⟨hw.alike h.alike h.rcv fun hs => ⟨h.shutRd ▸ hs,h.rx⟩,setSock_kept h.alike.una h.alike.nxt h.shutRd⟩

lemma keeps_sendOld
    (hg : ∀ u n q, Ordered σ w u n q → ((w.sock X).segment flags seq ack payload).Carries
      (w.sent X).length (w.sent X.other).length (w.start X) (w.sent X) (w.fin X) (w.start X.other) (q X))
    (hold : payload≠[] → seq≠seqAt (w.start X) (w.sent X).length)
    (hfin : flags.fin=true → w.fin X=true)
    (hpop : ∀ w', Same w w' → payload≠[] ∨ flags.fin=true →
      seq≠seqAt (w'.start X) ((w'.sent X).length+(w'.fin X).toNat)) :
    Keeps ok σ X Kept (tcpSendSegment now flags seq ack payload true) w := by
  refine .gets <| .ite (fun _ => .ret _) fun _ => .skip rfl <| .bind (fun h => wp_onSide_callOut fun b => ?_)
    fun _ _ _ => .skip (by simp) (.ret _)
  have hw : Core σ (emit (X,.send ((w.sock X).segment flags seq ack payload)) b w) ∧
      Kept w (emit (X,.send ((w.sock X).segment flags seq ack payload)) b w) := by
    cases b with
    | false => exact ⟨h,refl_of Kept w⟩
    | true =>
      obtain ⟨u,n,q,ho⟩ := h
      rw [emit,onSend_old hold hfin]
      exact ⟨⟨u,n,q,ho.addPacket (hg u n q ho)⟩,addPacket_kept _ _ _⟩
  obtain ⟨⟨u,n,q,ho⟩,hkept⟩ := hw
  refine ⟨⟨u,n,q,ho.push _⟩,fun w' hw' hr => ?_⟩
  have hk : Kept w w' := trans_of Kept hkept hr
  obtain ⟨u',n',q',ho'⟩ := hw'
  refine ⟨⟨u',n',q',ho'.pop fun Y g _ he hd _ => ?_⟩,hk⟩
  simp only [Prod.mk.injEq,SockCall.send.injEq] at he
  obtain ⟨⟨rfl,rfl⟩,-⟩ := he
  exact hpop w' hk.same hd

lemma keeps_sendAck : Keeps ok σ X Kept (tcpSendAck now) w := by
  refine .gets <| .when fun _ => .drop (keeps_sendOld (fun u n q ho => ?_) (fun hne => absurd rfl hne)
    (fun hf => absurd hf (by decide)) fun w' _ hd => ?_) _
  · exact .pure rfl rfl rfl (ho.drains X).rcv (ho.near_taken X)
  · exact absurd hd (by simp [TcpFlags.onlyAck])

lemma Ordered.acked_still {σ' : List (LineCall × Bool)} {u n q u' n' q' : Side → ℕ}
    (ho : Ordered σ w u n q) (ho' : Ordered σ' w' u' n' q') (hk : Kept w w')
    (hu : u X=(w.sent X).length+(w.fin X).toNat) :
    u' X=(w'.sent X).length+(w'.fin X).toNat := by
  have hf := ho.feeds X
  have hf' := ho'.feeds X
  have hle := hf.una_le
  have hnle := hf.nxt_le
  have hle' := hf'.una_le
  have hnle' := hf'.nxt_le
  have hnear' := hf'.near
  obtain ⟨huna,-,hfin⟩ := hk.still X (by rw [hf.una,hf.nxt]; congr 1; omega)
  rw [hf.una,hf'.una,hk.same.start] at huna
  rw [hk.same.sent,hfin] at hnle' hnear' ⊢
  have h1480 : tcpMaxPayload=1480 := rfl
  rw [seqAt_inj huna (by omega) (by omega),hu]

/-- What is left of the line when a first transmission has succeeded. -/
structure Begun (X : Side) (g : Segment) (t : TxSeg) (w w' : Line) : Prop where
  unfinished : w.fin X=false
  edge : (w.sock X).sndNxt=seqAt (w.start X) (w.sent X).length
  acked : (w.sock X).sndUna=(w.sock X).sndNxt
  after : Kept ((w.setSock X {w.sock X with txSeg := some t}).grown X g) w'

lemma wp_sendNew (h : Core σ w) (hs : (w.sock X).state.Sends) (htx : (w.sock X).txSeg=none)
    (hw : TxSeg.Well ⟨flags,(w.sock X).sndNxt,payload,now,0⟩)
    (hshut : flags.fin=true → (w.sock X).appShutWr=true) :
    sideWp ok σ X (tcpSendSegment now flags (w.sock X).sndNxt (w.sock X).rcvNxt payload false)
      (fun r w' => Core σ w' ∧ (r=false → Kept w w') ∧ (r=true → Begun X
        ((w.sock X).segment flags (w.sock X).sndNxt (w.sock X).rcvNxt payload)
        ⟨flags,(w.sock X).sndNxt,payload,now,0⟩ w w')) w := by
  have htrack : (!false && (flags.syn || flags.fin || decide (0<payload.length)))=true := by
    rcases hw.kind with ⟨hk,hne⟩ | ⟨hk,-⟩
    · have := List.length_pos_iff.2 hne
      simpa using .inr this
    · have hk : flags=.finAck := hk
      rw [hk]
      rfl
  unfold tcpSendSegment
  rw [wp_onSide_bind,wp_onSide_gets]
  refine wp_onSide_ite (fun _ => wp_onSide_pure.2 ⟨h,fun _ => refl_of Kept w,nofun⟩) fun _ => ?_
  rw [wp_onSide_bind]
  refine wp_onSide_when (fun _ => ?_) fun hf => absurd (htrack.symm.trans hf) (by decide)
  rw [wp_onSide_modify,wp_onSide_bind]
  obtain ⟨u,n,q,ho⟩ := h
  have hf := ho.feeds X
  have hu := hf.idle hs htx
  have hn : n X=(w.sent X).length+(w.fin X).toNat := le_antisymm hf.nxt_le (hu ▸ hf.una_le)
  have hfin : w.fin X=false := Bool.eq_false_iff.2 fun hfin => hf.ended hfin hn hs
  have hu' : u X=(w.sent X).length := by rw [hu,hfin]; rfl
  have hedge : (w.sock X).sndNxt=seqAt (w.start X) (w.sent X).length := by
    rw [hf.nxt,hn,hfin]
    rfl
  have hacked : (w.sock X).sndUna=(w.sock X).sndNxt := by rw [hf.una,hf.nxt,hu,hn]
  refine wp_onSide_callOut fun b => ?_
  cases b with
  | true =>
    have hsend := ho.sendNew (g := (w.sock X).segment flags (w.sock X).sndNxt (w.sock X).rcvNxt payload)
      hu' hfin hw rfl hshut rfl rfl rfl rfl
    rw [emit,onSend_new (by exact hedge) (by exact hfin)]
    refine ⟨⟨u,n,q,hsend.push _⟩,fun w' hw' hr => ?_⟩
    obtain ⟨u',n',q',ho'⟩ := hw'
    rw [wp_onSide_bind]
    refine wp_onSide_when (fun hf => absurd hf (by simp)) fun _ => ?_
    exact wp_onSide_pure.2 ⟨⟨u',n',q',ho'.pop fun _ _ _ he => by simp at he⟩,nofun,
      fun _ => ⟨hfin,hedge,hacked,hr⟩⟩
  | false =>
    have hfail : Failing (((X,SockCall.send ((w.sock X).segment flags (w.sock X).sndNxt
        (w.sock X).rcvNxt payload)),false)::σ) X (w.sock X).sndNxt :=
      ⟨_,List.mem_cons_self,rfl,hw.kind.imp (fun h => h.2) fun h => by
        have h : flags=.finAck := h.1
        rw [h]
        rfl⟩
    have hput := (ho.push _).put (hf.fail hu hw rfl hfail)
      ((ho.drains X).alike rfl fun hs => ⟨hs,rfl⟩) (ho.taken X) le_rfl
    refine ⟨⟨_,_,_,hput⟩,fun w' hw' hr => ?_⟩
    obtain ⟨u',n',q',ho'⟩ := hw'
    have hu1 := hput.acked_still ho' hr (by simpa using hu)
    rw [wp_onSide_bind]
    refine wp_onSide_when (fun _ => ?_) fun hf => absurd hf (by rw [htrack]; decide)
    rw [wp_onSide_modify]
    have hdrop := ho'.put ((ho'.feeds X).drop hu1) ((ho'.drains X).alike rfl fun hs => ⟨hs,rfl⟩)
      (ho'.taken X) le_rfl
    refine wp_onSide_pure.2 ⟨⟨_,_,_,hdrop.pop fun Y g t he _ ht => ?_⟩,fun _ => ?_,nofun⟩
    · simp only [Prod.mk.injEq] at he
      rw [← he.1.1,setSock_self] at ht
      exact nomatch ht
    · have hset : Kept w (w.setSock X {w.sock X with
          txSeg := some ⟨flags,(w.sock X).sndNxt,payload,now,0⟩}) := setSock_kept rfl rfl rfl
      have hclear : Kept w' (w'.setSock X {w'.sock X with txSeg := none}) := setSock_kept rfl rfl rfl
      exact trans_of Kept hset (trans_of Kept hr hclear)

namespace Begun
variable {g : Segment} {t : TxSeg}

section
variable (h : Begun X g t w w')
include h

lemma sent_eq : w'.sent=update w.sent X (w.sent X++g.payload) :=
  h.after.same.sent

lemma start_eq : w'.start=w.start := h.after.same.start

lemma still : (w'.sock X).sndNxt=(w.sock X).sndNxt ∧ w'.fin X=g.flags.fin := by
  have hs := h.after.still X
  rw [Still,grown_sock,setSock_self,grown_fin] at hs
  exact ⟨(hs h.acked).2.1,(hs h.acked).2.2⟩

lemma still_other : Still X.other w w' := by
  have hs := h.after.still X.other
  rw [Still,grown_sock,setSock_other,grown_fin_other] at hs
  exact hs

lemma settled_other (hs : Settled X.other w) : Settled X.other w' := by
  refine h.after.same.settled X.other ?_
  rw [Settled,grown_sock,setSock_other,grown_start,grown_sent_other,grown_fin_other]
  exact hs

lemma shutRd_eq : ∀ Y, (w'.sock Y).appShutRd=(w.sock Y).appShutRd :=
  X.both (by rw [h.after.same.shutRd,grown_sock,setSock_self])
    (by rw [h.after.same.shutRd,grown_sock,setSock_other])

lemma top_eq : seqAt (w'.start X) ((w'.sent X).length+(w'.fin X).toNat) =
    (w.sock X).sndNxt+BitVec.ofNat 32 (g.payload.length+g.flags.fin.toNat) := by
  rw [h.edge,seqAt_add,h.sent_eq,h.start_eq,h.still.2,update_self,List.length_append, Nat.add_assoc]

lemma same (hg : g.payload=[]) (hr : s.appShutRd=(w'.sock X).appShutRd)
    (hs : Settled X (w'.setSock X s)) : Same w (w'.setSock X s) where
  start := h.start_eq
  sent := by rw [setSock_sent,h.sent_eq,hg,List.append_nil,update_eq_self]
  accepted := h.after.same.accepted
  returned := h.after.same.returned
  net := X.both (fun p hp => h.after.same.net X p (by rw [grown_net]; exact List.mem_cons_of_mem _ hp))
    fun p hp => h.after.same.net X.other p (by rwa [grown_net_other])
  fin := X.both (fun hf => absurd (h.unfinished.symm.trans hf) (by decide))
    fun hf => h.after.same.fin X.other (by rwa [grown_fin_other])
  shutRd := X.both (by rw [setSock_self,hr,h.shutRd_eq]) (by rw [setSock_other,h.shutRd_eq])
  settled := X.both (fun _ => hs) fun hY => by
    rw [Settled,setSock_other]
    exact h.settled_other hY

end

end Begun

variable {p : Packet} {buf : Bytes} {nonblock : Bool} {len : ℕ}

lemma keeps_sendFinNow (hs : (w.sock X).state.Sends) (htx : (w.sock X).txSeg=none)
    (hshut : (w.sock X).appShutWr=true) : Keeps ok σ X (Quits X) (tcpSendFinNow now) w := by
  refine .gets <| .ite (fun _ => .ret _) fun _ h => wp_onSide_bind.2 ?_
  refine wp_mono (wp_sendNew h hs htx ⟨.inr ⟨rfl,rfl⟩,Nat.zero_le _⟩ fun _ => hshut) fun r w' hw' => ?_
  obtain ⟨⟨u,n,q,ho⟩,hfail,hsent⟩ := hw'
  cases r with
  | false => exact wp_onSide_pure.2 ⟨⟨u,n,q,ho⟩,(hfail rfl).quits⟩
  | true =>
    have hb := hsent rfl
    have htop : (w.sock X).sndNxt+1=seqAt (w'.start X) ((w'.sent X).length+(w'.fin X).toNat) :=
      hb.top_eq.symm
    have hx := (w'.sock X).finSent_neutral
    have hput := ho.put (((ho.feeds X).alike hx.alike).advance fun _ => Sock.finSent_not_sends _)
      ((ho.drains X).alike hx.rcv fun hs => ⟨hx.shutRd ▸ hs,hx.rx⟩) (ho.taken X) le_rfl
    refine wp_onSide_bind.2 (wp_onSide_modify.2 (wp_onSide_bind.2 (wp_onSide_modify.2
      (wp_onSide_pure.2 ?_))))
    rw [setSock_setSock,setSock_self,Sock.finSent_edge,id,htop]
    refine ⟨⟨_,_,_,hput⟩,hb.same rfl hx.shutRd ?_,?_⟩
    · rw [Settled,setSock_self]
      rfl
    · rw [Still,setSock_other]
      exact hb.still_other

lemma wp_txAcked (ho : Ordered σ w u n q) (hu : u X=(w.sent X).length+(w.fin X).toNat) :
    sideWp ok σ X (txAcked now) (fun _ w' => Core σ w' ∧ Quits X w w') w := by
  have hput := ho.put ((ho.feeds X).drop hu) ((ho.drains X).alike rfl fun hs => ⟨hs,rfl⟩)
    (ho.taken X) le_rfl
  have hk : Kept w (w.setSock X {w.sock X with txSeg := none}) := setSock_kept rfl rfl rfl
  refine Keeps.step (R := Quits X) (.modify fun _ => ⟨⟨_,_,_,hput⟩,hk.quits⟩) (.gets <| .when fun hc => ?_) ⟨u,n,q,ho⟩
  simp only [id,setSock_self,Bool.and_eq_true,Bool.or_eq_true,decide_eq_true_eq] at hc
  refine .bind (keeps_sendFinNow (by rw [setSock_self]; exact hc.2) (by simp)
    (by simpa using (ho.feeds X).shut (.inl hc.1))) fun _ w' _ => .when fun _ =>
    (keeps_neutral ⟨?_,rfl,rfl,rfl⟩).mono Kept.quits
  exact ⟨rfl,rfl,fun t ht => ⟨t,ht,rfl,rfl,rfl⟩,id,fun _ ht => ht,id,id,nofun⟩

/-- A segment for a side arrives in time. -/
structure Arrives (X : Side) (p : Packet) (w : Line) : Prop where
  mem : p∈w.net X.other
  own : (w.sent X.other).length<p.own+2^31
  peer : (w.sent X).length<p.peer+2^31

lemma Arrives.same (h : Arrives X p w) (hs : Same w w') : Arrives X p w' where
  mem := hs.net _ p h.mem
  own := by rw [hs.sent]; exact h.own
  peer := by rw [hs.sent]; exact h.peer

lemma Ordered.acked (ho : Ordered σ w u n q) (hp : Arrives X p w)
    (hf : p.seg.flags.ack=true) (hlt : tcpSeqLt p.seg.ack (w.sock X).sndUna=false)
    (hgt : tcpSeqGt p.seg.ack (w.sock X).sndNxt=false) :
    ∃ k, p.seg.ack=seqAt (w.start X) k ∧ u X≤k ∧ k≤n X ∧ k≤q X.other := by
  obtain ⟨k,hk,hack,hpeer⟩ := (ho.carries X.other p hp.mem).ack hf
  have hfeeds := ho.feeds X
  have hle := (ho.drains X.other).le
  rw [Side.other_other] at hack hle
  rw [hack,hfeeds.una] at hlt
  rw [hack,hfeeds.nxt] at hgt
  have hun := hfeeds.una_le
  have hnle := hfeeds.nxt_le
  have hnear := hfeeds.near
  have hin := hp.peer
  have h1480 : tcpMaxPayload=1480 := rfl
  have hfin : (w.fin X).toNat≤1 := Bool.toNat_le _
  obtain ⟨huk,hkn⟩ := seqAt_between hun (by omega) (by omega) hlt hgt
  exact ⟨k,hack,huk,hkn,hk⟩

lemma keeps_ackAdvance (hp : Arrives X p w) (hf : p.seg.flags.ack=true) :
    Keeps ok σ X Kept (tcpAckAdvance now p.seg.ack) w := by
  refine .gets <| .ite (fun _ => .ret _) fun hc h => ?_
  simp only [id,not_or,Bool.not_eq_true] at hc
  obtain ⟨-,hne,hlt,hgt⟩ := hc
  obtain ⟨u,n,q,ho⟩ := h
  obtain ⟨k,hack,huk,hkn,hkq⟩ := ho.acked hp hf hlt hgt
  have hfeeds := ho.feeds X
  have hlt : u X<k := by
    refine Nat.lt_of_le_of_ne huk fun heq => hne ?_
    rw [hack,hfeeds.una,heq]
  have hput := ho.put (hfeeds.acked hlt hkn) ((ho.drains X).alike rfl fun hs => ⟨hs,rfl⟩) hkq le_rfl
  have hfirst : Quits X w (w.setSock X {w.sock X with sndUna := p.seg.ack}) :=
    ⟨setSock_sameLine rfl rfl,setSock_still _⟩
  -- everything below starts from a state in which something was in flight
  have hkept : ∀ w', Quits X w w' → Kept w w' := by
    intro w' hq
    refine ⟨hq.same,X.both (fun heq => ?_) hq.still⟩
    rw [hfeeds.una,hfeeds.nxt] at heq
    have hnear := hfeeds.near
    have hnle := hfeeds.nxt_le
    have h1480 : tcpMaxPayload=1480 := rfl
    exact absurd heq (seqAt_ne (by omega) (by omega))
  rw [wp_onSide_bind,wp_onSide_modify,wp_onSide_bind]
  rw [← hack] at hput
  refine wp_onSide_when (fun hany => ?_) fun _ => wp_onSide_pure.2 ⟨⟨_,_,_,hput⟩,hkept _ hfirst⟩
  obtain ⟨t,ht,hend⟩ := (Option.any_eq_true _ _).1 hany
  have hall := hfeeds.acked_all hlt hkn ht (by rw [← hack]; simpa using hend)
  exact wp_mono (wp_txAcked hput (by simpa using hall)) fun _ w' hw' => wp_onSide_pure.2
    ⟨hw'.1,hkept _ (trans_of (Quits X) hfirst hw'.2)⟩

lemma keeps_processAck (hp : Arrives X p w) (hf : p.seg.flags.ack=true) :
    Keeps ok σ X Kept (processAck now p.seg.ack) w := by
  refine .gets <| .ite (fun _ => .drop keeps_sendAck _) fun _ => .bind (keeps_ackAdvance hp hf) fun _ w' _ =>
    .ite (fun _ => .drop (.given fun ⟨u,n,q,ho⟩ => keeps_neutral ?_) _) fun _ => .ret _
  split_ifs
  · exact Sock.allAcked_neutral now (ho.feeds X).opened
  · exact .refl _

lemma Ordered.follows (ho : Ordered σ w u n q) (hp : Arrives X p w) (hne : p.seg.payload≠[])
    (hnew : (trimPayload (w.sock X).rcvNxt p.seg.seq p.seg.payload).2≠[])
    (hin : (trimPayload (w.sock X).rcvNxt p.seg.seq p.seg.payload).1=(w.sock X).rcvNxt) :
    (trimPayload (w.sock X).rcvNxt p.seg.seq p.seg.payload).2 <+: (w.sent X.other).drop (q X) := by
  obtain ⟨k,hk,hseq,hpre,hown,-⟩ := (ho.carries X.other p hp.mem).data (.inl hne)
  have hle := (ho.drains X).le
  have hnear := ho.near_taken X
  have hin' := hp.own
  have h1480 : tcpMaxPayload=1480 := rfl
  have hfin : (w.fin X.other).toNat≤1 := Bool.toNat_le _
  rw [hseq,(ho.drains X).rcv] at hnew hin ⊢
  obtain ⟨hkq,htrim⟩ := trimPayload_new (by omega) (by omega) hnew hin
  have hdrop := hpre.drop (q X-k)
  rw [List.drop_drop,Nat.add_sub_cancel' hkq] at hdrop
  rw [htrim]
  exact hdrop

section
variable (hp : Arrives X p w)
include hp

lemma keeps_processPayload (hne : p.seg.payload≠[]) :
    Keeps ok σ X Kept (processPayload now p.seg.seq p.seg.payload) w := by
  refine .ite (fun _ => .ret _) fun _ => .gets <| .ite (fun _ => .drop keeps_sendAck _) fun _ => ?_
  have hfollows : ∀ {u n q}, Ordered σ w u n q → _ → _ → _ := fun ho => ho.follows hp hne
  rw [id]
  generalize trimPayload (w.sock X).rcvNxt p.seg.seq p.seg.payload=new at hfollows ⊢
  refine .ite (fun _ => .drop keeps_sendAck _) fun hnil => .ite (fun hin => .step (.modify fun h => ?_)
    (.drop keeps_sendAck _)) fun _ => .drop keeps_sendAck _
  obtain ⟨u,n,q,ho⟩ := h
  have hnew : new.2≠[] := fun hn => hnil (List.length_eq_zero_iff.2 hn)
  exact ⟨⟨_,_,_,ho.put ((ho.feeds X).alike (.of_sending rfl id id))
    ((ho.drains X).receive (hfollows ho hnew hin) hnew) (ho.taken X) (Nat.le_add_right _ _)⟩,
    setSock_kept rfl rfl rfl⟩

lemma keeps_processFin (hf : p.seg.flags.fin=true) :
    Keeps ok σ X Kept (processFin now p.seg.seq) w := by
  refine .gets <| .ite (fun _ => .bind keeps_sendAck fun _ w' _ => keeps_neutral ?_) fun _ =>
    .ite (fun hin => .step (.modify fun h => ?_) <| .bind keeps_sendAck fun _ w' _ =>
      keeps_neutral (Sock.finReceived_neutral now _)) fun _ => keeps_sendAck
  · split_ifs
    · exact Sock.enterTimeWait_neutral now _
    · exact .refl _
  · obtain ⟨u,n,q,ho⟩ := h
    obtain ⟨k,hk,hseq,-,-,hlast⟩ := (ho.carries X.other p hp.mem).data (.inr hf)
    obtain ⟨-,hfin,rfl⟩ := hlast hf
    have hd := ho.drains X
    have hle := hd.le
    have hnear := ho.near_taken X
    have h1480 : tcpMaxPayload=1480 := rfl
    rw [hfin] at hle
    have hq : q X=(w.sent X.other).length := by
      rw [hseq,id,hd.rcv] at hin
      simp only [Bool.toNat_true] at hle
      exact (seqAt_inj hin (by omega) (by omega)).symm
    exact ⟨⟨_,_,_,ho.put ((ho.feeds X).alike (.of_sending rfl id id)) (hd.finish hfin hq) (ho.taken X)
      (Nat.le_add_right _ _)⟩,setSock_kept rfl rfl rfl⟩

lemma keeps_afterAck {b : Bool} : Keeps ok σ X Kept (when b do
    match (← processPayload now p.seg.seq p.seg.payload) with
    | some finSeq => when p.seg.flags.fin <| processFin now finSeq
    | none => pure ()) w := by
  refine .when fun _ => .given fun ⟨u,n,q,ho⟩ => ?_
  by_cases hnil : p.seg.payload=[]
  · rw [hnil]
    exact .when fun hf => keeps_processFin hp hf
  · refine .bind (keeps_processPayload hp hnil) fun r w' _ => ?_
    cases r with
    | none => exact .ret _
    | some finSeq =>
      -- a segment with a FIN has no payload
      refine .when fun hf => absurd ?_ hnil
      obtain ⟨k,-,-,-,-,hfin⟩ := (ho.carries X.other p hp.mem).data (.inr hf)
      exact (hfin hf).1

lemma keeps_receiveSegment : Keeps ok σ X Kept (receiveSegment now p.seg) w := by
  have hwnd : Keeps ok σ X Kept (modify fun s => {s with peerWnd := p.seg.window}) w :=
    keeps_neutral ⟨.of_sending rfl id id,rfl,rfl,rfl⟩
  refine .given fun ⟨u,n,q,ho⟩ => .step hwnd ?_
  have hk : Kept w (w.setSock X {w.sock X with peerWnd := p.seg.window}) := setSock_kept rfl rfl rfl
  generalize w.setSock X {w.sock X with peerWnd := p.seg.window}=w1 at hk ⊢
  have hp := hp.same hk.same
  have hrst := (ho.carries X.other p ‹Arrives X p w›.mem).rst
  refine .ite (fun hf => absurd (hrst.symm.trans hf) (by decide)) fun _ => .ite (fun hf => ?_) fun _ =>
    keeps_afterAck (b := true) hp
  exact .bind (keeps_processAck hp hf) fun _ w2 hk2 => keeps_afterAck (hp.same hk2.same)

end

lemma keeps_tickResend {tx : TxSeg} (hw : tx.Well) (ht : tx.Sent (w.start X) (w.sent X) (w.fin X)) :
    Keeps ok σ X Kept (tickResend now tx) w := by
  obtain ⟨k,hk,hseq,hdata,hfin⟩ := id ht
  have hsmall := hw.small
  have hlen : tx.data.length=(w.sent X).length-k := by rw [hdata,List.length_drop]
  have h1480 : tcpMaxPayload=1480 := rfl
  have hflags : (if tx.flags.syn || tx.flags.fin || 0<tx.data.length then {tx.flags with ack := true}
      else tx.flags)=tx.flags := by
    rcases hw.kind with ⟨hkind,-⟩ | ⟨hkind,-⟩ <;> rw [hkind] <;> split_ifs <;> rfl
  have hrst : tx.flags.rst=false := by
    rcases hw.kind with ⟨hkind,-⟩ | ⟨hkind,-⟩ <;> rw [hkind] <;> rfl
  refine .gets ?_
  rw [hflags]
  refine .bind (keeps_sendOld (fun u n q ho => ?_) (fun hne => ?_) (fun hf => hfin ▸ hf)
    fun w' hs hd => ?_) fun _ w' _ => .ite (fun _ => keeps_neutral ⟨?_,rfl,rfl,rfl⟩) fun _ => .ret _
  · exact .track hw ht hrst rfl rfl rfl (ho.drains X).rcv (ho.near_taken X)
  · have := List.length_pos_iff.2 hne
    rw [hseq]
    exact seqAt_ne (by omega) (by omega)
  · have hfin' : (w'.fin X).toNat≤1 := Bool.toNat_le _
    rw [hseq,hs.start,hs.sent]
    refine seqAt_ne ?_ (by omega)
    rcases hd with hne | hf
    · have := List.length_pos_iff.2 hne
      omega
    · rw [hs.fin X (hfin ▸ hf),Bool.toNat_true]
      omega
  · refine ⟨rfl,rfl,fun t' ht' => ?_,id,fun _ hn => Option.map_eq_none_iff.1 hn,id,id,.inl⟩
    obtain ⟨t,ht,rfl⟩ := Option.map_eq_some_iff.1 ht'
    exact ⟨t,ht,rfl,rfl,rfl⟩

lemma keeps_tickSock (hwait : ∀ g, ((X,SockCall.send g),false)∉σ) :
    Keeps ok σ X Kept (tickSock now) w := by
  refine .gets ?_
  rw [id]
  cases htx : (w.sock X).txSeg with
  | none => exact .ret _
  | some tx =>
    refine .ite (fun _ => .ret _) fun _ => .ite (fun _ => keeps_neutral (Sock.onRst_neutral 110 _)) fun _ =>
      .given fun ⟨u,n,q,ho⟩ => ?_
    obtain ⟨hw,hsent⟩ := (ho.feeds X).tx tx htx
    refine keeps_tickResend hw (hsent.resolve_right fun hfail => ?_)
    obtain ⟨g,hmem,-⟩ := hfail.1
    exact hwait g hmem

/-- What a socket call of a side leaves of the line: `bytes` more of it are sent. -/
structure Wrote (X : Side) (bytes : Bytes) (w w' : Line) : Prop where
  sent : w'.sent=update w.sent X (w.sent X++bytes)
  accepted : w'.accepted=w.accepted
  settled : ∀ Y, Settled Y w → Settled Y w'

lemma Same.wrote (h : Same w w') : Wrote X [] w w' where
  sent := by rw [h.sent,List.append_nil,update_eq_self]
  accepted := h.accepted
  settled := h.settled

lemma Wrote.trans {bytes : Bytes} (h : Wrote X [] w w') (h' : Wrote X bytes w' w'') :
    Wrote X bytes w w'' where
  sent := by rw [h'.sent,h.sent,List.append_nil,update_eq_self]
  accepted := h'.accepted.trans h.accepted
  settled Y hs := h'.settled Y (h.settled Y hs)

instance : IsPreorder Line (Wrote X []) where
  refl w := (Same.refl w).wrote
  trans _ _ _ h h' := h.trans h'

lemma setSock_wrote (hn : s.sndNxt=(w.sock X).sndNxt) : Wrote X [] w (w.setSock X s) where
  sent := by rw [List.append_nil,update_eq_self]; rfl
  accepted := rfl
  settled := setSock_settled hn

/-- The contract of `net_socket_write`. -/
def Written (X : Side) (σ : List (LineCall × Bool)) (buf : Bytes) (w : Line) (r : ℤ) (w' : Line) : Prop :=
  Core σ w' ∧ Wrote X (buf.take r.toNat) w w'

lemma written_none {r : ℤ} (hw : Core σ w') (hs : Same w w') (hr : r≤0) :
    Written X σ buf w r w' := by
  refine ⟨hw,?_⟩
  rw [Int.toNat_of_nonpos hr,List.take_zero]
  exact hs.wrote

lemma wp_writeChunk (h : Core σ w) (hs : (w.sock X).state.Sends) (htx : (w.sock X).txSeg=none) :
    sideWp ok σ X (writeChunk now buf nonblock) (Written X σ buf w) w := by
  unfold writeChunk
  rw [wp_onSide_bind,wp_onSide_gets,id]
  generalize hchunk : buf.take (min tcpMaxPayload (w.sock X).peerWnd)=chunk
  have hlen : chunk.length≤tcpMaxPayload := by
    rw [← hchunk,List.length_take]
    omega
  have htake : buf.take chunk.length=chunk := by
    rw [← hchunk,List.length_take,← List.take_eq_take_min]
  refine wp_onSide_ite (fun _ => wp_onSide_pure.2 (written_none h (.refl w) ?_)) fun hpos => ?_
  · split_ifs <;> decide
  have hne : chunk≠[] := fun hnil => hpos (by rw [hnil]; rfl)
  rw [wp_onSide_bind]
  refine wp_mono (wp_sendNew h hs htx ⟨.inl ⟨rfl,hne⟩,hlen⟩ fun hf => absurd hf (by decide))
    fun r w' hw' => ?_
  obtain ⟨⟨u,n,q,ho⟩,hfail,hsent⟩ := hw'
  cases r with
  | false => exact wp_onSide_pure.2 (written_none ⟨u,n,q,ho⟩ (hfail rfl).same (by decide))
  | true =>
    have hb := hsent rfl
    have htop : (w'.sock X).sndNxt+BitVec.ofNat 32 chunk.length =
        seqAt (w'.start X) ((w'.sent X).length+(w'.fin X).toNat) := by
      rw [hb.still.1]
      exact hb.top_eq.symm
    have hfin : w'.fin X=true → ¬(w'.sock X).state.Sends := by
      rw [hb.still.2]
      exact fun hf => absurd hf Bool.false_ne_true
    have hput := ho.put ((ho.feeds X).advance hfin) ((ho.drains X).alike rfl fun hs => ⟨hs,rfl⟩)
      (ho.taken X) le_rfl
    refine wp_onSide_bind.2 (wp_onSide_modify.2 (wp_onSide_pure.2 ?_))
    rw [htop]
    refine ⟨⟨_,_,_,hput⟩,?_,hb.after.same.accepted,X.both (fun _ => ?_) fun hY => ?_⟩
    · rw [Int.toNat_natCast,htake]
      exact hb.sent_eq
    · rw [Settled,setSock_self]
      rfl
    · rw [Settled,setSock_other]
      exact hb.settled_other hY

lemma wp_pump {Q : Bool → Line → Prop} (h : Core σ w) (hQ : ∀ b w', Core σ w' → Kept w w' → Q b w') :
    sideWp ok σ X (callOut .pump) Q w := by
  refine wp_onSide_callOut fun b => ?_
  have hemit : emit (X,.pump) b w=w := by cases b <;> rfl
  rw [hemit]
  obtain ⟨u,n,q,ho⟩ := h
  refine ⟨⟨u,n,q,ho.push _⟩,fun w' hw' hk => hQ b w' ?_ hk⟩
  obtain ⟨u',n',q',ho'⟩ := hw'
  exact ⟨u',n',q',ho'.pop fun _ _ _ he => by simp at he⟩

lemma socketErrorOr_nonpos (s : Sock) (e : ℕ) : -socketErrorOr s e≤0 := by
  unfold socketErrorOr
  split_ifs <;> omega

lemma wp_writeOnce {again : SockM ℤ} (h : Core σ w)
    (hagain : ∀ w', Core σ w' → sideWp ok σ X again (Written X σ buf w') w') :
    sideWp ok σ X (writeOnce now buf nonblock again) (Written X σ buf w) w := by
  have hno : ∀ {r : ℤ} {w' : Line}, Core σ w' → Kept w w' → r≤0 →
      sideWp ok σ X (pure r) (Written X σ buf w) w' :=
    fun hw hk hr => wp_onSide_pure.2 (written_none hw hk.same hr)
  have hre : ∀ w', Core σ w' → Kept w w' →
      sideWp ok σ X again (Written X σ buf w) w' :=
    fun w' hw hk => wp_mono (hagain w' hw) fun r w'' hw'' => ⟨hw''.1,hk.same.wrote.trans hw''.2⟩
  have hk := refl_of Kept w
  unfold writeOnce
  rw [wp_onSide_bind,wp_onSide_gets,id]
  refine wp_onSide_ite (fun _ => hno h hk (by split_ifs <;> decide)) fun _ =>
    wp_onSide_ite (fun _ => hno h hk (socketErrorOr_nonpos _ _)) fun _ =>
    wp_onSide_ite (fun _ => hno h hk (by decide)) fun _ =>
    wp_onSide_ite (fun _ => hno h hk (by decide)) fun hst =>
    wp_onSide_ite (fun _ => hno h hk (by decide)) fun _ =>
    wp_onSide_ite (fun _ => ?_) fun htx =>
    wp_onSide_ite (fun _ => hno h hk (by decide)) fun _ =>
    wp_onSide_ite (fun _ => ?_) fun _ => ?_
  · rw [wp_onSide_bind]
    refine wp_pump h fun _ w' hw' hk' => ?_
    rw [wp_onSide_bind,wp_onSide_gets]
    exact wp_onSide_ite (fun _ => hre w' hw' hk') fun _ => hno hw' hk' (by decide)
  · rw [wp_onSide_bind]
    refine wp_pump h fun _ w' hw' hk' => ?_
    rw [wp_onSide_bind,wp_onSide_gets]
    exact wp_onSide_ite (fun _ => hno hw' hk' (socketErrorOr_nonpos _ _)) fun _ =>
      wp_onSide_ite (fun _ => hre w' hw' hk') fun _ => hno hw' hk' (by decide)
  · refine wp_writeChunk h ?_ (by simpa using htx)
    rw [TcpState.Sends]
    tauto

lemma wp_netSocketWrite (depth : ℕ) (h : Core σ w) :
    sideWp ok σ X (netSocketWrite now buf nonblock depth) (Written X σ buf w) w := by
  induction depth generalizing w with
  | zero => exact wp_writeOnce h fun w' hw' =>
      wp_onSide_pure.2 (written_none hw' (.refl w') (by decide))
  | succ depth ih => exact wp_writeOnce h fun w' hw' => ih hw'

/-- A read has returned `bytes`. -/
def give (w : Line) (X : Side) (bytes : Bytes) : Line :=
  {w with returned := update w.returned X (w.returned X++bytes)}

lemma give_nil (w : Line) (X : Side) : w.give X []=w := by
  rw [give,List.append_nil,update_eq_self]

lemma Ordered.read (h : Ordered σ w u n q) (hacc : w.sent=w.accepted)
    (hs : (w.sock X).appShutRd=false) (len : ℕ) :
    Ordered σ ((w.setSock X {w.sock X with rx := ((w.sock X).rx.read len).2}).give X
      ((w.sock X).rx.read len).1) u n q := by
  have hd := (h.drains X).read hs len
  have hf : {w.sock X with rx := ((w.sock X).rx.read len).2}.Feeds (w.start X) (w.sent X) (w.fin X)
      (Failing σ X) (u X) (n X) := (h.feeds X).alike (.of_sending rfl id id)
  refine ⟨X.both ?_ ?_,X.both ?_ ?_,h.taken,h.carries,X.both ?_ ?_⟩
  · simpa [give] using hf
  · simpa [give] using h.feeds X.other
  · simpa [give] using hd
  · simpa [give] using h.drains X.other
  · simpa [give] using h.kept X
  · simpa [give,← hacc] using hd.got

/-- The contract of `net_socket_read`: nothing is sent, and what it returns was received. -/
def ReadBack (X : Side) (σ : List (LineCall × Bool)) (w : Line) (r : ℤ × Bytes) (w' : Line) : Prop :=
  Core σ (w'.give X r.2) ∧ Wrote X [] w w'

lemma wp_tcpRxRead (h : Core σ w) (hacc : w.sent=w.accepted) (hs : (w.sock X).appShutRd=false) :
    sideWp ok σ X (tcpRxRead len) (ReadBack X σ w) w := by
  obtain ⟨u,n,q,ho⟩ := h
  unfold tcpRxRead
  rw [wp_onSide_bind,wp_onSide_gets,wp_onSide_bind,wp_onSide_modify]
  exact wp_onSide_pure.2 ⟨⟨u,n,q,ho.read hacc hs len⟩,setSock_wrote rfl⟩

lemma wp_netSocketRead (h : Core σ w) (hacc : w.sent=w.accepted) :
    sideWp ok σ X (netSocketRead len nonblock) (ReadBack X σ w) w := by
  have hno : ∀ {r : ℤ} {w' : Line}, Core σ w' → Kept w w' →
      sideWp ok σ X (pure (r,[])) (ReadBack X σ w) w' := by
    intro r w' hw hk
    refine wp_onSide_pure.2 ⟨?_,hk.same.wrote⟩
    rw [give_nil]
    exact hw
  unfold netSocketRead
  rw [wp_onSide_bind,wp_onSide_gets,id]
  refine wp_onSide_ite (fun _ => hno h (refl_of Kept w)) fun _ =>
    wp_onSide_ite (fun _ => hno h (refl_of Kept w)) fun hs => ?_
  have hs : (w.sock X).appShutRd=false := by simpa using hs
  have hread : ∀ w', Core σ w' → Kept w w' → sideWp ok σ X (tcpRxRead len) (ReadBack X σ w) w' := by
    intro w' hw hk
    refine wp_mono (wp_tcpRxRead hw ?_ ((hk.same.shutRd X).trans hs)) fun r w'' hw'' =>
      ⟨hw''.1,hk.same.wrote.trans hw''.2⟩
    rw [hk.same.sent,hk.same.accepted,hacc]
  refine wp_onSide_ite (fun _ => ?_) fun _ => hread w h (refl_of Kept w)
  -- after the wait, if any, what the ring holds by then is read
  have hrest : ∀ w', Core σ w' → Kept w w' → sideWp ok σ X (do
      let s ← gets id
      if s.error then pure (-socketErrorOr s 104,[])
      else if s.rxClosed ∨ s.state=.closed then pure (0,[])
      else if 0<s.rx.len then tcpRxRead len
      else pure (if nonblock then -11 else -2,[])) (ReadBack X σ w) w' := by
    intro w' hw hk
    rw [wp_onSide_bind,wp_onSide_gets]
    exact wp_onSide_ite (fun _ => hno hw hk) fun _ => wp_onSide_ite (fun _ => hno hw hk) fun _ =>
      wp_onSide_ite (fun _ => hread w' hw hk) fun _ => hno hw hk
  refine wp_onSide_ite (fun _ => hrest w h (refl_of Kept w)) fun _ => ?_
  exact wp_onSide_bind.2 (wp_pump h fun _ w' hw hk => hrest w' hw hk)

lemma keeps_shutdown {rd wr : Bool} : Keeps ok σ X (Wrote X []) (netSocketShutdown now rd wr) w := by
  refine .gets <| .ite (fun _ => .ret _) fun _ => .ite (fun _ => .ret _) fun _ =>
    .bind (.when fun _ => .modify fun h => ⟨h.alike (.of_sending rfl id id) rfl (fun hs => by cases hs),
      setSock_wrote rfl⟩) fun _ w' _ => .drop (.when fun _ => .step (.modify fun h =>
        ⟨h.alike ?_ rfl fun hs => ⟨hs,rfl⟩,setSock_wrote rfl⟩) <| .gets ?_) _
  · exact ⟨rfl,rfl,fun t ht => ⟨t,ht,rfl,rfl,rfl⟩,id,fun _ ht => ht,id,fun _ => rfl,.inl⟩
  have hshut : ((w'.setSock X {w'.sock X with appShutWr := true}).sock X).appShutWr=true := by
    rw [setSock_self]
  generalize w'.setSock X {w'.sock X with appShutWr := true}=w1 at hshut ⊢
  refine .ite (fun _ => .modify fun h => ⟨h.alike ?_ rfl fun hs => ⟨hs,rfl⟩,setSock_wrote rfl⟩) fun htx =>
    .when fun hs => .drop ((keeps_sendFinNow (by simpa [TcpState.Sends] using hs) (by simpa using htx)
      hshut).mono fun hq => hq.same.wrote) _
  exact ⟨rfl,rfl,fun t ht => ⟨t,ht,rfl,rfl,rfl⟩,id,fun _ ht => ht,id,id,fun _ => .inr hshut⟩

lemma inv_of_kept (h : spec.inv σ w) (hw : Core σ w' ∧ Kept w w') :
    spec.inv σ w' ∧ spec.rely σ w w' := by
  refine ⟨⟨hw.1,fun hnil => ?_⟩,fun _ => hw.2⟩
  obtain ⟨hacc,hset⟩ := h.2 hnil
  exact ⟨by rw [hw.2.same.sent,hw.2.same.accepted,hacc],fun X => hw.2.same.settled X (hset X)⟩

lemma Core.agreed (h : Core σ w) : Agreed w := by
  obtain ⟨u,n,q,ho⟩ := h
  exact ho.kept

lemma Core.accept (h : Core σ w) (bytes : Bytes) : Core σ {w with
    accepted := update w.accepted X (w.accepted X++bytes)} := by
  obtain ⟨u,n,q,ho⟩ := h
  refine ⟨u,n,q,{ho with kept := X.both ?_ ?_}⟩
  · simpa using (ho.kept X).trans (List.prefix_append _ _)
  · simpa using ho.kept X.other

lemma handles : Handles (lineWorld fun σ v => v.TimerWaits σ) spec := by
  intro σ w v hi hv
  obtain ⟨hpos,hwait⟩ := hv
  cases v with
  | deliver X now p =>
    refine wp_mono (keeps_receiveSegment ⟨?_,?_,hpos.2.2⟩ hi.1) fun _ w' hw' => inv_of_kept hi hw'
    · rw [Side.other_other]
      exact hpos.1
    · rw [Side.other_other]
      exact hpos.2.1
  | tick X now => exact wp_mono (keeps_tickSock hwait hi.1) fun _ w' hw' => inv_of_kept hi hw'
  | write X now buf nonblock depth =>
    obtain rfl : σ=[] := hpos
    obtain ⟨hcore,hsettled⟩ := hi
    obtain ⟨hacc,hset⟩ := hsettled rfl
    refine wp_bind.2 (wp_mono (wp_netSocketWrite depth hcore) fun r w' hw' => ?_)
    obtain ⟨hw',hr⟩ := hw'
    have hend : Core [] {w' with
        accepted := update w'.accepted X (w'.accepted X++buf.take r.toNat)} := hw'.accept _
    refine wp_modify.2 ⟨fun _ => hend.agreed,⟨hend,fun _ => ⟨?_,fun Y => hr.settled Y (hset Y)⟩⟩,
      fun hne => absurd rfl hne⟩
    simp only [hr.sent,hr.accepted,hacc]
  | read X len nonblock =>
    obtain rfl : σ=[] := hpos
    obtain ⟨hcore,hsettled⟩ := hi
    obtain ⟨hacc,hset⟩ := hsettled rfl
    refine wp_bind.2 (wp_mono (wp_netSocketRead hcore hacc) fun r w' hw' => ?_)
    obtain ⟨hw',hr⟩ := hw'
    refine wp_modify.2 ⟨fun _ => hw'.agreed,⟨hw',fun _ => ⟨?_,fun Y => hr.settled Y (hset Y)⟩⟩,
      fun hne => absurd rfl hne⟩
    simp [hr.sent,hr.accepted,hacc]
  | shutdown X now rd wr =>
    obtain rfl : σ=[] := hpos
    obtain ⟨hcore,hsettled⟩ := hi
    obtain ⟨hacc,hset⟩ := hsettled rfl
    refine wp_bind.2 (wp_mono (keeps_shutdown hcore) fun r w' hw' => ?_)
    refine wp_pure.2 ⟨⟨hw'.1,fun _ => ⟨?_,fun Y => hw'.2.settled Y (hset Y)⟩⟩,fun hne => absurd rfl hne⟩
    simp [hw'.2.sent,hw'.2.accepted,hacc]

lemma Fresh.inv (h : w.Fresh) : spec.inv [] w := by
  have htop : ∀ X, (w.sent X).length+(w.fin X).toNat=0 := fun X => by rw [h.sent,h.fin]; rfl
  have hzero : ∀ a : Seq, seqAt a 0=a := fun a => BitVec.add_zero a
  refine ⟨⟨fun _ => 0,fun _ => 0,fun _ => 0,?_⟩,fun _ => ⟨?_,fun X => ?_⟩⟩
  · refine ⟨fun X => ?_,fun X => ?_,fun _ => le_rfl,fun X p hp => ?_,fun X => ?_⟩
    · refine ⟨by rw [h.una,hzero],by rw [h.nxt,hzero],le_rfl,Nat.zero_le _,by rw [htop]; omega,.inr rfl,
        fun t ht => ?_,fun _ _ => (htop X).symm,fun hf => ?_,?_,fun hf => ?_⟩
      · rw [h.tx] at ht
        cases ht
      · rw [h.fin] at hf
        cases hf
      · rw [h.state]
        decide
      · rw [(h.opened X).2.2,h.fin] at hf
        simp at hf
    · have hrcv := h.rcv X.other
      rw [Side.other_other] at hrcv
      refine ⟨by rw [hrcv,hzero],Nat.zero_le _,fun _ => ?_,by rw [h.returned]; exact List.nil_prefix⟩
      rw [h.returned,List.nil_append,List.take_zero]
      exact List.length_eq_zero_iff.1 (by rw [Ring.length_contents,h.rx])
    · obtain ⟨hd,hf,hr,hack,-,hpeer⟩ := h.net X p hp
      refine ⟨hr,fun hc => ?_,fun ha => ⟨0,le_rfl,by rw [hack ha,hzero],by omega⟩⟩
      rw [hd,hf] at hc
      simp at hc
    · rw [h.returned]
      exact List.nil_prefix
  · funext X
    rw [h.sent,h.accepted]
  · rw [Settled,htop,h.nxt,hzero]

end Code

/-- What the reads of one side return is a prefix of what the writes of the other side accepted, in
every state of every run in which the retransmission timer waits for the sends that fail. -/
theorem reads_prefix_of_writes {c : Config Line LineCall} (hw : w.Fresh)
    (hr : Reaches (lineWorld fun σ v => v.TimerWaits σ) w c) (X : Side) :
    c.state.returned X.other <+: c.state.accepted X := by
  have hemit : ∀ e b w, Agreed w → Agreed (emit e b w) := by
    intro e b w h
    rcases e with ⟨Y,_ | _⟩ <;> cases b <;> exact h
  exact Good.always (P := Agreed) spec_lawful handles hw.inv hw.inv.1.agreed (fun _ _ h hg => hg h)
    hemit hr X

section Examples

/-- A connection that has just been established. -/
def lineExample : Line where
  sock _ := {Sock.zero with
    used := true
    proto := .tcp
    state := .established
    sndUna := 1
    sndNxt := 1
    rcvNxt := 1
    peerWnd := 1000}
  start _ := 1
  sent _ := []
  fin _ := false
  accepted _ := []
  returned _ := []
  net _ := []

lemma lineExample_fresh : lineExample.Fresh where
  used _ := rfl
  proto _ := rfl
  state _ := rfl
  una _ := rfl
  nxt _ := rfl
  rcv _ := rfl
  tx _ := rfl
  rx _ := rfl
  opened _ := ⟨rfl,rfl,rfl⟩
  attached _ := rfl
  sent _ := rfl
  fin _ := rfl
  accepted _ := rfl
  returned _ := rfl
  net _ _ hp := absurd hp List.not_mem_nil

def lineByte : Packet := ⟨⟨0,0,0,0,1,1,.pshAck,2048,[7]⟩,1,0⟩

/-- Its arrival, and the read on the right side. -/
def lineArrival : List LineEvent := [.deliver .left 61 lineByte,.read .right 10 true]

/-- The state after a write whose only send fails, if the timer runs during the send. -/
def lineFailed : Line := scripted (lineWorld fun _ _ => True)
  (LineEvent.perform (.write .left 0 [7] true 0)) [(false,[.tick .left 60])] lineExample

/-- The timer sends a segment again while its first transmission is under way; the transmission
fails, the write is reported as failed, and the other side reads its byte. -/
theorem failed_write_is_read : ∃ w c, w.Fresh ∧ Reaches (lineWorld fun _ _ => True) w c ∧
    ¬c.state.returned .right <+: c.state.accepted .left := by
  have hstart : Reaches (lineWorld fun _ _ => True) lineExample ⟨lineExample,none,[]⟩ := .refl
  have hreach : Reaches (lineWorld fun _ _ => True) lineExample ⟨lineFailed,none,[]⟩ := by
    refine hstart.scripted (v := .write .left 0 [7] true 0) ⟨rfl,trivial⟩ [(false,[.tick .left 60])]
      (And.intro (And.intro (And.intro ?_ trivial) trivial) trivial)
    rintro (⟨h,-⟩ | ⟨h,-⟩ | ⟨h,-⟩) <;> exact absurd h (by decide +kernel)
  have hend : Reaches (lineWorld fun _ _ => True) lineExample
      ⟨quietRun (lineWorld fun _ _ => True) lineArrival lineFailed,none,[]⟩ :=
    hreach.quietRun lineArrival ⟨⟨⟨by decide +kernel,by decide +kernel,by decide +kernel⟩,trivial⟩,
      ⟨rfl,trivial⟩,trivial⟩
  exact ⟨_,_,lineExample_fresh,hend,by decide +kernel⟩

/-- The theorem on a connection over which one byte goes. -/
theorem reads_prefix_of_writes_byte : ∃ w c, w.Fresh ∧
    Reaches (lineWorld fun σ v => v.TimerWaits σ) w c ∧ c.state.returned .right=[7] ∧
    c.state.returned .right <+: c.state.accepted .left := by
  have hstart : Reaches (lineWorld fun σ v => v.TimerWaits σ) lineExample ⟨lineExample,none,[]⟩ := .refl
  have hend : Reaches (lineWorld fun σ v => v.TimerWaits σ) lineExample
      ⟨quietRun (lineWorld fun σ v => v.TimerWaits σ)
        (.write .left 0 [7] true 0::lineArrival) lineExample,none,[]⟩ :=
    hstart.quietRun _ ⟨⟨rfl,trivial⟩,⟨⟨by decide +kernel,by decide +kernel,by decide +kernel⟩,trivial⟩,
      ⟨rfl,trivial⟩,trivial⟩
  exact ⟨_,_,lineExample_fresh,hend,by decide +kernel,reads_prefix_of_writes lineExample_fresh hend .left⟩

end Examples

end Line
end FuriOS
