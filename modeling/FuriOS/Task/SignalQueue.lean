import FuriOS.Task.Signal

/-! The pending set of a task and the queue beside it. Both are edited by the same few operations;
a history of these operations stamps every signal with the time it was queued, and the two stay in
step, in the order of the stamps. -/
namespace FuriOS
open Function

namespace SignalState
variable {g : SignalState} {sig n : ℕ}

lemma signalNumber_iff : signalNumber n=true ↔ 0<n ∧ n<32 := by
  simp [signalNumber]

lemma getLsbD_sigbit (hn : n<32) (i : ℕ) : (sigbit n).getLsbD i=decide (i=n) := by
  have hbit : sigbit n=BitVec.twoPow 32 n := by rw [sigbit,Nat.mod_eq_of_lt hn,BitVec.twoPow_eq]
  rw [hbit,BitVec.getLsbD_twoPow]
  by_cases h : i=n
  · simp [h,hn]
  · simp [h,Ne.symm h]

lemma isPending_eq (hn : n<32) : g.isPending n=g.pendingSignals.getLsbD n := by
  have hbit : sigbit n=BitVec.twoPow 32 n := by rw [sigbit,Nat.mod_eq_of_lt hn,BitVec.twoPow_eq]
  rw [isPending,hbit,BitVec.and_twoPow]
  cases g.pendingSignals.getLsbD n with
  | false => simp
  | true =>
    have hne : BitVec.twoPow 32 n≠0 := by
      intro h0
      have := congrArg (BitVec.getLsbD · n) h0
      simp [hn] at this
    simpa using hne

lemma isPending_remove (hn : n<32) (hs : sig<32) (q : List ℕ) :
    isPending {g with signalQueue := q, pendingSignals := g.pendingSignals &&& ~~~sigbit sig} n
      = (g.isPending n && n≠sig) := by
  rw [isPending_eq hn,isPending_eq hn,BitVec.getLsbD_and,BitVec.getLsbD_not,getLsbD_sigbit hs]
  simp [hn]

lemma isPending_insert (hn : n<32) (hs : sig<32) (q : List ℕ) :
    isPending {g with signalQueue := q, pendingSignals := g.pendingSignals ||| sigbit sig} n
      = (g.isPending n || n=sig) := by
  rw [isPending_eq hn,isPending_eq hn,BitVec.getLsbD_or,getLsbD_sigbit hs]

lemma pickFromQueue_eq {q : List ℕ} (h : ∀ a∈q, signalNumber a=true ∧ g.isPending a=true) :
    g.pickFromQueue q=(q.find? fun a => !g.blocked a,
      (q.find? fun a => !g.blocked a).elim q q.erase) := by
  induction q with
  | nil => rfl
  | cons a q ih =>
    have ih := ih fun b hb => h b (List.mem_cons_of_mem a hb)
    obtain ⟨hnum,hpend⟩ := h a List.mem_cons_self
    rw [pickFromQueue,hnum,hpend,List.find?_cons]
    cases hb : g.blocked a with
    | false => simp
    | true =>
      simp only [ih,Bool.not_true,Bool.or_self,Bool.false_eq_true,if_false,if_true,Prod.mk.injEq,
        true_and]
      cases hf : q.find? fun a => !g.blocked a with
      | none => rfl
      | some b =>
        have hne : a≠b := by
          rintro rfl
          have := List.find?_some hf
          simp [hb] at this
        simp [List.erase_cons_tail,hne]

/-- The signal state without the pending signals. -/
def actions (g : SignalState) : SignalState := {g with pendingSignals := 0, signalQueue := []}

lemma eq_of_actions {g' : SignalState} (h : g'.actions=g.actions) :
    g'.handler=g.handler ∧ g'.signalMask=g.signalMask ∧ g'.savedMask=g.savedMask := by
  have hh := congrArg handler h
  have hm := congrArg signalMask h
  have hs := congrArg savedMask h
  exact ⟨hh,hm,hs⟩

@[simp] lemma actions_clearPending : (g.clearPending sig).actions=g.actions := by
  unfold clearPending
  split_ifs <;> rfl

@[simp] lemma actions_addPending : (g.addPending sig).actions=g.actions := by
  unfold addPending
  split_ifs <;> rfl

@[simp] lemma actions_enqueue : (g.enqueue sig).actions=g.actions := by
  unfold enqueue
  split_ifs <;> simp

@[simp] lemma actions_pickPending : g.pickPending.2.actions=g.actions := by
  unfold pickPending
  split
  · rfl
  · split <;> rfl

end SignalState

/-- A signal state with a clock and, for every signal, the time at which it was last queued. -/
structure Stamped where
  sig : SignalState
  clock : ℕ
  stamp : ℕ → ℕ

/-- The operations on the pending set and the queue. `task_signal_enqueue` stamps a signal unless
it is already pending; exec, exit, fork and a freed slot start with nothing pending; everything
else works on masks, actions and reports. -/
inductive SignalEvent : Stamped → Stamped → Prop
  | enqueue (w : Stamped) (sig : ℕ) (hs : signalNumber sig=true) : SignalEvent w
      ⟨w.sig.enqueue sig,w.clock+1,
        if w.sig.isPending sig then w.stamp else update w.stamp sig w.clock⟩
  | clear (w : Stamped) (sig : ℕ) : SignalEvent w {w with sig := w.sig.clearPending sig}
  | pick (w : Stamped) : SignalEvent w {w with sig := w.sig.pickPending.2}
  | reset (w : Stamped) (g : SignalState) (hp : g.pendingSignals=0) (hq : g.signalQueue=[]) :
      SignalEvent w {w with sig := g}
  | other (w : Stamped) (g : SignalState) (hp : g.pendingSignals=w.sig.pendingSignals)
      (hq : g.signalQueue=w.sig.signalQueue) : SignalEvent w {w with sig := g}

namespace Stamped
variable {w w' : Stamped}

/-- The pending set and the queue agree, and the queue is in the order of the stamps. -/
structure Ordered (w : Stamped) : Prop where
  entry : ∀ a∈w.sig.signalQueue, signalNumber a=true ∧ w.sig.isPending a=true
  queued : ∀ a, signalNumber a=true → w.sig.isPending a=true → a∈w.sig.signalQueue
  sorted : w.sig.signalQueue.Pairwise fun a b => w.stamp a<w.stamp b
  past : ∀ a∈w.sig.signalQueue, w.stamp a<w.clock
  apart : ¬(w.sig.isPending sigstop=true ∧ w.sig.isPending sigcont=true)

namespace Ordered

section
variable (h : w.Ordered)
include h

lemma nodup : w.sig.signalQueue.Nodup :=
  h.sorted.imp fun hlt he => by simp [he] at hlt

lemma length_lt : w.sig.signalQueue.length<taskSignalQueueLen := by
  have hsub : w.sig.signalQueue ⊆ List.range 32 := fun a ha =>
    List.mem_range.2 (SignalState.signalNumber_iff.1 (h.entry a ha).1).2
  have := h.nodup.length_le_of_subset hsub
  rw [List.length_range] at this
  exact this.trans_lt (by decide)

lemma count_eq_one {a : ℕ} (ha : signalNumber a=true) :
    w.sig.isPending a=true ↔ w.sig.signalQueue.count a=1 := by
  constructor
  · exact fun hp => List.count_eq_one_of_mem h.nodup (h.queued a ha hp)
  · exact fun hc => (h.entry a (List.count_pos_iff.1 (by omega))).2

lemma drop {g : SignalState} (hsub : g.signalQueue.Sublist w.sig.signalQueue)
    (hmem : ∀ a, signalNumber a=true → (g.isPending a=true ↔ w.sig.isPending a=true ∧
      a∈g.signalQueue)) : Ordered {w with sig := g} where
  entry a ha := by
    have hold := h.entry a (hsub.subset ha)
    exact ⟨hold.1,(hmem a hold.1).2 ⟨hold.2,ha⟩⟩
  queued a ha hp := ((hmem a ha).1 hp).2
  sorted := h.sorted.sublist hsub
  past a ha := h.past a (hsub.subset ha)
  apart hp := h.apart ⟨((hmem _ rfl).1 hp.1).1,((hmem _ rfl).1 hp.2).1⟩

lemma clear (sig : ℕ) : Ordered {w with sig := w.sig.clearPending sig} := by
  unfold SignalState.clearPending
  split_ifs with hs
  · refine h.drop List.filter_sublist fun a ha => ?_
    have ha' := SignalState.signalNumber_iff.1 ha
    rw [SignalState.isPending_remove ha'.2 (SignalState.signalNumber_iff.1 hs).2]
    simp only [Bool.and_eq_true,decide_eq_true_eq,List.mem_filter]
    constructor
    · exact fun hp => ⟨hp.1,h.queued a ha hp.1,hp.2⟩
    · exact fun hp => ⟨hp.1,hp.2.2⟩
  · exact h

lemma pickFromSet_none (hf : (w.sig.signalQueue.find? fun a => !w.sig.blocked a)=none) :
    w.sig.pickFromSet=none := by
  refine List.find?_eq_none.2 fun a ha => ?_
  obtain ⟨k,hk,rfl⟩ := List.mem_map.1 ha
  have hk := List.mem_range.1 hk
  intro hp
  simp only [Bool.and_eq_true,Bool.not_eq_true'] at hp
  have hq := h.queued (k+1) (SignalState.signalNumber_iff.2 ⟨by omega,by omega⟩) hp.1
  have := List.find?_eq_none.1 hf _ hq
  simp [hp.2] at this

lemma pickPending_eq : w.sig.pickPending =
    match w.sig.signalQueue.find? fun a => !w.sig.blocked a with
    | none => (none,w.sig)
    | some sig => (some sig,{w.sig with
        signalQueue := w.sig.signalQueue.erase sig
        pendingSignals := w.sig.pendingSignals &&& ~~~sigbit sig}) := by
  rw [SignalState.pickPending,SignalState.pickFromQueue_eq h.entry]
  cases hf : w.sig.signalQueue.find? fun a => !w.sig.blocked a with
  | none =>
    simp only [h.pickFromSet_none hf]
    rfl
  | some sig => rfl

lemma pick : Ordered {w with sig := w.sig.pickPending.2} := by
  rw [h.pickPending_eq]
  cases hf : w.sig.signalQueue.find? fun a => !w.sig.blocked a with
  | none => exact h
  | some sig =>
    have hsig := List.mem_of_find?_eq_some hf
    refine h.drop List.erase_sublist fun a ha => ?_
    have ha' := SignalState.signalNumber_iff.1 ha
    have hs' := SignalState.signalNumber_iff.1 (h.entry sig hsig).1
    rw [SignalState.isPending_remove ha'.2 hs'.2]
    simp only [Bool.and_eq_true,decide_eq_true_eq,h.nodup.mem_erase_iff]
    constructor
    · exact fun hp => ⟨hp.1,hp.2,h.queued a ha hp.1⟩
    · exact fun hp => ⟨hp.1,hp.2.1⟩

lemma add {sig : ℕ} (hs : signalNumber sig=true)
    (hstop : sig=sigstop → w.sig.isPending sigcont=false)
    (hcont : sig=sigcont → w.sig.isPending sigstop=false) :
    Ordered ⟨w.sig.addPending sig,w.clock+1,
      if w.sig.isPending sig then w.stamp else update w.stamp sig w.clock⟩ := by
  unfold SignalState.addPending
  cases hp : w.sig.isPending sig with
  | true => exact {h with past := fun a ha => (h.past a ha).trans (Nat.lt_succ_self _)}
  | false =>
    simp only [Bool.false_eq_true,if_false,if_pos h.length_lt]
    have hnew : sig∉w.sig.signalQueue := fun hm => by simp [(h.entry sig hm).2] at hp
    have hs' := SignalState.signalNumber_iff.1 hs
    have hold {a : ℕ} (ha : a∈w.sig.signalQueue) : update w.stamp sig w.clock a=w.stamp a :=
      update_of_ne (by rintro rfl; exact hnew ha) ..
    constructor <;> dsimp only
    · intro a ha
      have hnum : signalNumber a=true := by
        rcases List.mem_append.1 ha with ha | ha
        · exact (h.entry a ha).1
        · rw [List.mem_singleton.1 ha,hs]
      refine ⟨hnum,?_⟩
      rw [SignalState.isPending_insert (SignalState.signalNumber_iff.1 hnum).2 hs'.2]
      rcases List.mem_append.1 ha with ha | ha
      · simp [(h.entry a ha).2]
      · simp [List.mem_singleton.1 ha]
    · intro a ha hpa
      rw [SignalState.isPending_insert (SignalState.signalNumber_iff.1 ha).2 hs'.2] at hpa
      simp only [Bool.or_eq_true,decide_eq_true_eq] at hpa
      rcases hpa with hpa | rfl
      · exact List.mem_append_left _ (h.queued a ha hpa)
      · exact List.mem_append_right _ (List.mem_singleton.2 rfl)
    · refine List.pairwise_append.2 ⟨h.sorted.imp_of_mem ?_,List.pairwise_singleton ..,?_⟩
      · intro a b ha hb hab
        rwa [hold ha,hold hb]
      · intro a ha b hb
        rw [List.mem_singleton.1 hb,hold ha,update_self]
        exact h.past a ha
    · intro a ha
      rcases List.mem_append.1 ha with ha | ha
      · rw [hold ha]
        exact (h.past a ha).trans (Nat.lt_succ_self _)
      · rw [List.mem_singleton.1 ha,update_self]
        exact Nat.lt_succ_self _
    · intro hboth
      rw [SignalState.isPending_insert (by decide) hs'.2,
        SignalState.isPending_insert (by decide) hs'.2] at hboth
      simp only [Bool.or_eq_true,decide_eq_true_eq] at hboth
      rcases hboth with ⟨hst | hst,hct | hct⟩
      · exact h.apart ⟨hst,hct⟩
      · simp [hcont hct.symm] at hst
      · simp [hstop hst.symm] at hct
      · exact absurd (hst.trans hct.symm) (by decide)

end

lemma isPending_clear (g : SignalState) {a b : ℕ} (ha : a<32) (hb : signalNumber b=true) :
    (g.clearPending b).isPending a=(g.isPending a && a≠b) := by
  rw [SignalState.clearPending,if_pos hb]
  exact SignalState.isPending_remove ha (SignalState.signalNumber_iff.1 hb).2 _

lemma enqueue (h : w.Ordered) {sig : ℕ} (hs : signalNumber sig=true) :
    Ordered ⟨w.sig.enqueue sig,w.clock+1,
      if w.sig.isPending sig then w.stamp else update w.stamp sig w.clock⟩ := by
  rw [SignalState.enqueue,if_neg (by simp [hs])]
  -- of stop and continue, the other one is no longer pending when this one is added
  have hcancel {other : ℕ} (ho : signalNumber other=true) (hne : sig≠other)
      (hpair : sig=sigstop ∧ other=sigcont ∨ sig=sigcont ∧ other=sigstop) :
      Ordered ⟨(w.sig.clearPending other).addPending sig,w.clock+1,
        if w.sig.isPending sig then w.stamp else update w.stamp sig w.clock⟩ := by
    have hgone : (w.sig.clearPending other).isPending other=false := by
      rw [isPending_clear _ (SignalState.signalNumber_iff.1 ho).2 ho]
      simp
    have hkept : (w.sig.clearPending other).isPending sig=w.sig.isPending sig := by
      rw [isPending_clear _ (SignalState.signalNumber_iff.1 hs).2 ho]
      simp [hne]
    rw [← hkept]
    refine (h.clear other).add hs (fun he => ?_) fun he => ?_
    · rcases hpair with ⟨-,rfl⟩ | ⟨hc,-⟩
      · exact hgone
      · exact absurd (hc.symm.trans he) (by decide)
    · rcases hpair with ⟨hc,-⟩ | ⟨-,rfl⟩
      · exact absurd (hc.symm.trans he) (by decide)
      · exact hgone
  by_cases hc : sig=sigcont
  · rw [if_pos hc]
    exact hcancel rfl (by rw [hc]; decide) (.inr ⟨hc,rfl⟩)
  rw [if_neg hc]
  by_cases ht : sig=sigstop
  · rw [if_pos ht]
    exact hcancel rfl (by rw [ht]; decide) (.inl ⟨ht,rfl⟩)
  rw [if_neg ht]
  exact h.add hs (fun he => absurd he ht) fun he => absurd he hc

end Ordered

/-- The signal that is picked is pending and not blocked, and every other such signal has been
queued after it. -/
def PicksEarliest (w : Stamped) : Prop :=
  match w.sig.pickPending.1 with
  | none => ∀ a, signalNumber a=true → w.sig.isPending a=true → w.sig.blocked a=true
  | some sig => (signalNumber sig=true ∧ w.sig.isPending sig=true ∧ w.sig.blocked sig=false) ∧
      ∀ a, signalNumber a=true → w.sig.isPending a=true → w.sig.blocked a=false → a≠sig →
        w.stamp sig<w.stamp a

lemma Ordered.picksEarliest (h : w.Ordered) : w.PicksEarliest := by
  rw [PicksEarliest,h.pickPending_eq]
  cases hf : w.sig.signalQueue.find? fun a => !w.sig.blocked a with
  | none =>
    intro a ha hp
    have := List.find?_eq_none.1 hf a (h.queued a ha hp)
    simpa using this
  | some sig =>
    obtain ⟨hb,front,back,hq,hfront⟩ := List.find?_eq_some_iff_append.1 hf
    have hentry := h.entry sig (List.mem_of_find?_eq_some hf)
    refine ⟨⟨hentry.1,hentry.2,by simpa using hb⟩,fun a ha hp hba hne => ?_⟩
    have hmem := h.queued a ha hp
    rw [hq] at hmem
    rcases List.mem_append.1 hmem with hm | hm
    · have := hfront a hm
      simp [hba] at this
    · have hsorted := (List.pairwise_append.1 (hq ▸ h.sorted)).2.1
      exact (List.pairwise_cons.1 hsorted).1 a ((List.mem_cons.1 hm).resolve_left hne)

lemma Ordered.event (h : w.Ordered) (he : SignalEvent w w') : w'.Ordered := by
  cases he with
  | enqueue sig hs => exact h.enqueue hs
  | clear sig => exact h.clear sig
  | pick => exact h.pick
  | reset g hp hq =>
    have hnone (a : ℕ) : g.isPending a=false := by simp [SignalState.isPending,hp]
    constructor <;> dsimp only <;> simp [hq,hnone]
  | other g hp hq =>
    have hsame (a : ℕ) : g.isPending a=w.sig.isPending a := by
      rw [SignalState.isPending,SignalState.isPending,hp]
    constructor <;> dsimp only <;> simp only [hq,hsame]
    · exact h.entry
    · exact h.queued
    · exact h.sorted
    · exact h.past
    · exact h.apart

/-- The signal state has come about by these operations from one with nothing pending. -/
def History (w : Stamped) : Prop :=
  Relation.ReflTransGen SignalEvent ⟨SignalState.zero,0,fun _ => 0⟩ w

lemma History.ordered (h : w.History) : w.Ordered := by
  induction h with
  | refl => constructor <;> simp [SignalState.zero,SignalState.isPending]
  | tail _ he ih => exact ih.event he

end Stamped

end FuriOS
