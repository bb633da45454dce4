import FuriOS.Ext4.LatestWrite
import Mathlib.Order.CompletePartialOrder

/-! The ring of the log as the committed transactions that wait for their checkpoint fill it:
their logs follow each other from the tail to the head, and an open transaction finds the space
that its start has set aside. -/
namespace FuriOS
open BlockCache World Jbd2State Prog

namespace Jbd2State

/-- The blocks of the ring that hold the log of a transaction. -/
def segment (j : Jbd2State) (t : Jbd2Pending) : Set ℕ :=
  {b | ∃ k<j.ext4Jbd2PendingLogBlocks t, b=j.pos t.start k}

/-- The logs of the transactions follow each other from `p` to `q`, none of them empty. -/
def Consecutive (j : Jbd2State) : ℕ → List Jbd2Pending → ℕ → Prop
  | p,[],q => p=q
  | p,t::ts,q => t.start=p ∧ 0<j.ext4Jbd2PendingLogBlocks t ∧
      t.end_=j.pos p (j.ext4Jbd2PendingLogBlocks t) ∧ j.Consecutive t.end_ ts q

/-- The log blocks of all transactions of a list. -/
def logBlocks (j : Jbd2State) (ts : List Jbd2Pending) : ℕ :=
  (ts.map j.ext4Jbd2PendingLogBlocks).sum

/-- How the pending transactions lie in the ring. -/
structure Segmented (j : Jbd2State) : Prop where
  tail : j.inRing j.tail=true
  consecutive : j.Consecutive j.tail j.pending j.head
  disjoint : j.pending.Pairwise fun t t' => Disjoint (j.segment t) (j.segment t')
  free : j.ext4Jbd2RingFreeBlocks=j.ring-1-j.logBlocks j.pending

/-- The space that the start of a transaction makes sure of. -/
structure Roomy (j : Jbd2State) : Prop where
  list : j.pending.length<ext4Jbd2MaxPendingTx
  ring : j.ext4Jbd2TxReserveBlocks≤j.ext4Jbd2RingFreeBlocks

/-- The part of `Segmented` that the rest follows from. -/
structure Chained (j : Jbd2State) : Prop where
  tail : j.inRing j.tail=true
  consecutive : j.Consecutive j.tail j.pending j.head
  room : j.logBlocks j.pending<j.ring

section Ring
variable {G : Geometry} {j : Jbd2State} {p k m : ℕ} {ts : List Jbd2Pending} {q : ℕ}

lemma OnRing.ring_pos (h : j.OnRing G) : 0<j.ring := by
  have := h.first
  unfold ring
  omega

lemma OnRing.pos_eq (_ : j.OnRing G) (p k : ℕ) : j.pos p k=j.first+(p-j.first+k)%j.ring := rfl

lemma inRing_iff : j.inRing p=true ↔ j.first≤p ∧ p<j.maxlen := by
  simp only [inRing,Bool.and_eq_true,decide_eq_true_eq]

lemma OnRing.distance_pos (h : j.OnRing G) (hp : j.inRing p=true) (hk : k<j.ring) :
    j.ext4Jbd2RingDistance p (j.pos p k)=k := by
  have hq := h.inRing_pos p k
  have hring := h.ring_pos
  rw [ext4Jbd2RingDistance,if_neg (by simp [hp,hq]; omega),h.pos_eq,Nat.add_sub_cancel_left]
  rw [inRing_iff] at hp
  have hlt : p-j.first<j.ring := by
    unfold ring
    omega
  by_cases hw : p-j.first+k<j.ring
  · rw [Nat.mod_eq_of_lt hw,if_pos (by omega)]
    omega
  · rw [Nat.mod_eq_sub_mod (by omega),Nat.mod_eq_of_lt (by omega)]
    by_cases h0 : p-j.first≤p-j.first+k-j.ring
    · omega
    · rw [if_neg h0]
      omega

lemma OnRing.pos_ring (h : j.OnRing G) (hp : j.inRing p=true) : j.pos p j.ring=p := by
  rw [h.pos_eq,Nat.add_mod_right,← Nat.add_zero (p-j.first),← h.pos_eq,h.pos_zero hp]

lemma OnRing.distance_back (h : j.OnRing G) (hp : j.inRing p=true) (hk : 0<k)
    (hlt : k<j.ring) : j.ext4Jbd2RingDistance (j.pos p k) p=j.ring-k := by
  have hback : j.pos (j.pos p k) (j.ring-k)=p := by
    rw [h.pos_pos',Nat.add_sub_cancel' hlt.le,h.pos_ring hp]
  have := h.distance_pos (h.inRing_pos p k) (show j.ring-k<j.ring by omega)
  rwa [hback] at this

lemma OnRing.pos_inj (_ : j.OnRing G) (hk : k<j.ring) (hm : m<j.ring)
    (he : j.pos p k=j.pos p m) : k=m := ringPos_inj hk hm he

lemma logBlocks_cons (t : Jbd2Pending) (ts : List Jbd2Pending) :
    j.logBlocks (t::ts)=j.ext4Jbd2PendingLogBlocks t+j.logBlocks ts := by
  simp [logBlocks]

section
variable (h : j.OnRing G)
include h

lemma OnRing.consecutive_end (hp : j.inRing p=true) (hc : j.Consecutive p ts q) : q=j.pos p (j.logBlocks ts) := by
  induction ts generalizing p with
  | nil =>
    obtain rfl : p=q := hc
    exact (h.pos_zero hp).symm
  | cons t ts ih =>
    obtain ⟨_,_,hend,hrest⟩ := hc
    rw [hend] at hrest
    rw [ih (h.inRing_pos _ _) hrest,h.pos_pos',logBlocks_cons]

lemma OnRing.segment_subset (hc : j.Consecutive p ts q) {t : Jbd2Pending} (ht : t∈ts) {b : ℕ} (hb : b∈j.segment t) :
    ∃ k<j.logBlocks ts, b=j.pos p k := by
  induction ts generalizing p with
  | nil => cases ht
  | cons t' ts ih =>
    obtain ⟨hstart,_,hend,hrest⟩ := hc
    rw [logBlocks_cons]
    rcases List.mem_cons.1 ht with rfl | ht
    · obtain ⟨k,hk,rfl⟩ := hb
      exact ⟨k,by omega,by rw [hstart]⟩
    · obtain ⟨k,hk,rfl⟩ := ih hrest ht
      exact ⟨j.ext4Jbd2PendingLogBlocks t'+k,by omega,by rw [hend,h.pos_pos']⟩

lemma OnRing.consecutive_disjoint (hc : j.Consecutive p ts q) (hroom : j.logBlocks ts≤j.ring) :
    ts.Pairwise fun t t' => Disjoint (j.segment t) (j.segment t') := by
  induction ts generalizing p with
  | nil => exact .nil
  | cons t ts ih =>
    obtain ⟨hstart,_,hend,hrest⟩ := hc
    rw [logBlocks_cons] at hroom
    refine List.pairwise_cons.2 ⟨fun t' ht' => ?_,ih hrest (by omega)⟩
    rw [Set.disjoint_left]
    rintro b ⟨k,hk,rfl⟩ hb
    obtain ⟨m,hm,heq⟩ := h.segment_subset hrest ht' hb
    rw [hend,hstart,h.pos_pos'] at heq
    have := h.pos_inj (by omega) (by omega) heq
    omega

lemma OnRing.head_eq (hc : j.Chained) : j.head=j.pos j.tail (j.logBlocks j.pending) :=
  h.consecutive_end hc.tail hc.consecutive

lemma OnRing.inRing_head (hc : j.Chained) : j.inRing j.head=true := by
  rw [h.head_eq hc]
  exact h.inRing_pos _ _

lemma OnRing.ringFreeBlocks (hc : j.Chained) :
    j.ext4Jbd2RingFreeBlocks=j.ring-1-j.logBlocks j.pending := by
  have hhead := h.head_eq hc
  have hin := h.inRing_head hc
  have hroom := hc.room
  unfold ext4Jbd2RingFreeBlocks
  by_cases hone : j.ring≤1
  · rw [if_pos hone]
    omega
  rw [if_neg hone]
  dsimp only
  cases hpend : j.pending with
  | nil => simp [logBlocks]
  | cons t ts =>
    have hfirst := hc.consecutive
    rw [hpend] at hroom hhead hfirst
    have hpos : 0<j.logBlocks (t::ts) := by
      rw [logBlocks_cons]
      have := hfirst.2.1
      omega
    have hdist := h.distance_back hc.tail hpos hroom
    have hne : j.head≠j.tail := by
      intro heq
      rw [hhead] at heq
      have h0 := h.pos_zero hc.tail
      have := h.pos_inj hroom h.ring_pos (heq.trans h0.symm)
      omega
    simp only [List.isEmpty_cons,Bool.false_eq_true,if_false,clamp,hin,hc.tail,if_true]
    rw [if_neg hne]
    rw [← hhead] at hdist
    rw [hdist]
    split_ifs
    · omega
    · omega

lemma Chained.segmented (hc : j.Chained) : j.Segmented :=
  ⟨hc.tail,hc.consecutive,h.consecutive_disjoint hc.consecutive hc.room.le,h.ringFreeBlocks hc⟩

end

end Ring

section Steps
variable {G : Geometry} {j j' : Jbd2State} {p q : ℕ} {ts : List Jbd2Pending}

def SameRing (j j' : Jbd2State) : Prop := j'.first=j.first ∧ j'.maxlen=j.maxlen

section
variable (h : SameRing j j')
include h

lemma SameRing.pendingLogBlocks (t : Jbd2Pending) :
    j'.ext4Jbd2PendingLogBlocks t=j.ext4Jbd2PendingLogBlocks t := by
  obtain ⟨h1,h2⟩ := h
  cases j
  cases j'
  dsimp only at h1 h2
  subst h1 h2
  rfl

lemma SameRing.inRing (b : ℕ) : j'.inRing b=j.inRing b := by
  simp only [Jbd2State.inRing,h.1,h.2]

lemma SameRing.ring : j'.ring=j.ring := by
  simp only [Jbd2State.ring,h.1,h.2]

lemma SameRing.pos (p k : ℕ) : j'.pos p k=j.pos p k := by
  simp only [Jbd2State.pos,h.1,h.2]

lemma SameRing.logBlocks (ts : List Jbd2Pending) : j'.logBlocks ts=j.logBlocks ts := by
  unfold Jbd2State.logBlocks
  rw [List.map_congr_left fun t _ => h.pendingLogBlocks t]

lemma SameRing.consecutive : j'.Consecutive p ts q ↔ j.Consecutive p ts q := by
  induction ts generalizing p with
  | nil => exact Iff.rfl
  | cons t ts ih => simp only [Consecutive,h.pendingLogBlocks,h.pos,ih]

end

lemma Chained.congr (hc : j.Chained) (h : SameRing j j') (htail : j'.tail=j.tail)
    (hhead : j'.head=j.head) (hpend : j'.pending=j.pending) : j'.Chained := by
  constructor
  · rw [h.inRing,htail]
    exact hc.tail
  · rw [htail,hhead,hpend,h.consecutive]
    exact hc.consecutive
  · rw [hpend,h.logBlocks,h.ring]
    exact hc.room

lemma OnRing.consecutive_drop (h : j.OnRing G) (hp : j.inRing p=true)
    (hc : j.Consecutive p ts q) (k : ℕ) :
    ∃ p', j.inRing p'=true ∧ j.Consecutive p' (ts.drop k) q := by
  induction k generalizing p ts with
  | zero => exact ⟨p,hp,hc⟩
  | succ k ih =>
    cases ts with
    | nil => exact ⟨p,hp,hc⟩
    | cons t ts =>
      obtain ⟨_,_,hend,hrest⟩ := hc
      exact ih (by rw [hend]; exact h.inRing_pos _ _) hrest

lemma logBlocks_drop_le (j : Jbd2State) (ts : List Jbd2Pending) (k : ℕ) :
    j.logBlocks (ts.drop k)≤j.logBlocks ts := by
  rw [← List.take_append_drop k ts,logBlocks,logBlocks,List.map_append,List.sum_append,
    List.take_append_drop]
  exact Nat.le_add_left _ _

lemma refresh_tail (hc : j.Consecutive p j.pending j.head) : j.ext4Jbd2RefreshStartTail.tail=p := by
  unfold ext4Jbd2RefreshStartTail
  cases hpend : j.pending with
  | nil =>
    rw [hpend] at hc
    exact hc.symm
  | cons t ts =>
    rw [hpend] at hc
    exact hc.1

lemma sameRing_refresh (j : Jbd2State) : SameRing j j.ext4Jbd2RefreshStartTail := by
  unfold ext4Jbd2RefreshStartTail
  split
  · exact ⟨rfl,rfl⟩
  · exact ⟨rfl,rfl⟩

lemma refresh_head (j : Jbd2State) : j.ext4Jbd2RefreshStartTail.head=j.head := by
  unfold ext4Jbd2RefreshStartTail
  split
  · rfl
  · rfl

lemma chained_refresh (hp : j.inRing p=true) (hc : j.Consecutive p j.pending j.head)
    (hroom : j.logBlocks j.pending<j.ring) : j.ext4Jbd2RefreshStartTail.Chained := by
  have hring := sameRing_refresh j
  constructor
  · rw [refresh_tail hc,hring.inRing]
    exact hp
  · rw [refresh_tail hc,refresh_head,refresh_pending,hring.consecutive]
    exact hc
  · rw [refresh_pending,hring.logBlocks,hring.ring]
    exact hroom

lemma OnRing.chained_popped (h : j.OnRing G) (hc : j.Chained) (k : ℕ) : (popped k j).Chained := by
  obtain ⟨p,hp,hcons⟩ := h.consecutive_drop hc.tail hc.consecutive k
  have hring : SameRing j {j with pending := j.pending.drop k} := ⟨rfl,rfl⟩
  refine chained_refresh (p := p) hp (hring.consecutive.2 hcons) ?_
  rw [hring.logBlocks,hring.ring]
  exact (j.logBlocks_drop_le _ k).trans_lt hc.room

lemma consecutive_concat {t : Jbd2Pending} (hc : j.Consecutive p ts q)
    (hstart : t.start=q) (hpos : 0<j.ext4Jbd2PendingLogBlocks t)
    (hend : t.end_=j.pos q (j.ext4Jbd2PendingLogBlocks t)) :
    j.Consecutive p (ts++[t]) t.end_ := by
  induction ts generalizing p with
  | nil =>
    obtain rfl : p=q := hc
    exact ⟨hstart,hpos,hend,rfl⟩
  | cons t' ts ih => exact ⟨hc.1,hc.2.1,hc.2.2.1,ih hc.2.2.2⟩

lemma OnRing.chained_pushed (h : j.OnRing G) (hc : j.Chained) {n : ℕ} (hn : 0<n)
    (hfree : n≤j.ext4Jbd2RingFreeBlocks) {i : Jbd2State} (hring : SameRing j i)
    (hpend : i.pending=j.pending) : (i.pushed j.head (j.pos j.head n)).Chained := by
  rw [h.ringFreeBlocks hc] at hfree
  have hblocks : j.ext4Jbd2PendingLogBlocks ⟨i.sequence,j.head,j.pos j.head n,i.txDirty⟩=n :=
    h.distance_pos (h.inRing_head hc) (by omega)
  have hcons := consecutive_concat (t := ⟨i.sequence,j.head,j.pos j.head n,i.txDirty⟩)
    hc.consecutive rfl (by rw [hblocks]; exact hn) (by rw [hblocks])
  have hsum : j.logBlocks (j.pending++[⟨i.sequence,j.head,j.pos j.head n,i.txDirty⟩]) =
      j.logBlocks j.pending+n := by
    simp only [logBlocks,List.map_append,List.sum_append,List.map_cons,List.map_nil,
      List.sum_singleton,hblocks]
  obtain ⟨k,hk⟩ : ∃ k : Jbd2State, k={i with
    pending := i.pending++[⟨i.sequence,j.head,j.pos j.head n,i.txDirty⟩],head := j.pos j.head n} := ⟨_,rfl⟩
  have hkring : SameRing j k := hk ▸ hring
  have hkpend : k.pending=j.pending++[⟨i.sequence,j.head,j.pos j.head n,i.txDirty⟩] := by rw [hk,← hpend]
  have hkhead : k.head=j.pos j.head n := by rw [hk]
  have hchain : k.ext4Jbd2RefreshStartTail.Chained := by
    refine chained_refresh (p := j.tail) (by rw [hkring.inRing]; exact hc.tail) ?_ ?_
    · rwa [hkpend,hkhead,hkring.consecutive]
    · rw [hkpend,hkring.logBlocks,hkring.ring,hsum]
      omega
  refine hchain.congr ?_ ?_ ?_ ?_
  · have h1 := sameRing_refresh k
    obtain ⟨hs1,hs2,hs3,hs4,hs5⟩ := sameEngine_pushed i j.head (j.pos j.head n)
    exact ⟨by rw [hs5,h1.1,hk],by rw [hs3,h1.2,hk]⟩
  · rw [hk]
    unfold pushed ext4Jbd2RefreshStartTail
    cases i.pending <;> rfl
  · rw [refresh_head,hkhead]
    rfl
  · rw [refresh_pending,pushed_pending,hk]

lemma totalBlocks_pos (j : Jbd2State) : 0<j.totalBlocks := Nat.succ_pos _

/-- The log of a transaction within the limits fits into the space set aside, unless it needs
the whole ring. -/
lemma totalBlocks_le_reserve (he : j.enabled=true) (hdesc : 12+j.tailBytes<j.blockSize)
    (htags : 0<j.tagsPerDesc) (hd : j.txDirty.length≤ext4Jbd2TxMaxBlocks)
    (hr : j.txRevokes.length≤ext4Jbd2TxMaxRevokes) (htotal : j.totalBlocks<j.ring) :
    j.totalBlocks≤j.ext4Jbd2TxReserveBlocks := by
  have hdescs : (j.txDirty.length+j.tagsPerDesc-1)/j.tagsPerDesc ≤
      (ext4Jbd2TxMaxBlocks+j.tagsPerDesc-1)/j.tagsPerDesc := Nat.div_le_div_right (by omega)
  have hrevs : (if j.txRevokes.isEmpty then 0
      else (j.txRevokes.length+j.revokePerBlock-1)/j.revokePerBlock) ≤
        (ext4Jbd2TxMaxRevokes+j.revokePerBlock-1)/j.revokePerBlock := by
    split_ifs
    · exact Nat.zero_le _
    · exact Nat.div_le_div_right (by omega)
  have hone := j.totalBlocks_pos
  unfold ext4Jbd2TxReserveBlocks
  rw [he,if_neg (by simp),if_neg (by omega),if_neg (by omega),if_neg (by omega)]
  dsimp only
  split_ifs
  · omega
  · unfold totalBlocks
    dsimp only
    omega

lemma OnRing.reserveRing_eq_some (h : j.OnRing G) (hc : j.Chained) {n : ℕ} (hn : 0<n)
    (hfree : n≤j.ext4Jbd2RingFreeBlocks) :
    ext4Jbd2ReserveRing j n=some (j.head,j.pos j.head n) := by
  have hfree' := hfree
  rw [h.ringFreeBlocks hc] at hfree'
  have hin := h.inRing_head hc
  have hclamp : j.clamp j.head=j.head := by rw [clamp,if_pos hin]
  have htail : j.clamp j.tail=j.tail := by rw [clamp,if_pos hc.tail]
  have hnext : j.pos j.head n=j.pos j.tail (j.logBlocks j.pending+n) := by
    rw [h.head_eq hc,h.pos_pos']
  have hback : j.pos j.head n≠j.tail := by
    intro heq
    rw [hnext] at heq
    have := h.pos_inj (by omega) h.ring_pos (heq.trans (h.pos_zero hc.tail).symm)
    omega
  unfold ext4Jbd2ReserveRing
  rw [if_neg (by omega),if_neg (by omega),if_neg (by omega)]
  dsimp only
  rw [hclamp,h.ringAdvance hin,if_neg (h.pos_pos _ _),htail]
  by_cases hnil : j.pending.isEmpty=true
  · rw [if_pos hnil,if_neg]
    intro heq
    have := h.pos_inj (p := j.head) (by omega) h.ring_pos (heq.trans (h.pos_zero hin).symm)
    omega
  · rw [if_neg hnil,if_neg hback]

/-- The log of a commit starts at the head. -/
lemma OnRing.reserved_eq (h : j.OnRing G) (hc : j.Chained) {next : ℕ} (htags : 0<j.tagsPerDesc)
    (hres : ext4Jbd2ReserveRing j j.totalBlocks=some (p,next)) : p=j.head ∧ next=j.pos j.head j.totalBlocks ∧
      j.totalBlocks≤j.ext4Jbd2RingFreeBlocks ∧ (txLog (j.reserved p next)).length=j.totalBlocks := by
  have hfree := (reserveRing_some hres).2.1
  have hsome := h.reserveRing_eq_some hc j.totalBlocks_pos hfree
  rw [hres] at hsome
  obtain ⟨rfl,rfl⟩ := Prod.mk.inj (Option.some.inj hsome)
  exact ⟨rfl,rfl,hfree,length_txLog (j.reserved _ _) htags⟩

end Steps
end Jbd2State

section Worlds
variable {G : Geometry} {w w' : World} {b x : ℕ} {ok : Bool} {j : Jbd2State} {t : Jbd2Pending}

lemma World.BackStep.chained (h : BackStep G w w') (hr : w.Running G) (hc : w.jbd2.Chained) :
    w'.jbd2.Chained ∧ ∃ k, w'.jbd2.pending=w.jbd2.pending.drop k := by
  rcases h with ⟨n,e,b,rfl⟩ | ⟨_,k,hk⟩
  · exact ⟨hc.congr ⟨rfl,rfl⟩ rfl rfl rfl,0,rfl⟩
  · obtain ⟨t,ht⟩ := hk.jbd2
    refine ⟨?_,k,hk.pending⟩
    rw [ht]
    exact (hr.engine.onRing.chained_popped hc k).congr ⟨rfl,rfl⟩ rfl rfl rfl

lemma World.Settles.chained (h : Settles G w w') (hr : w.Running G) (hc : w.jbd2.Chained) :
    w'.jbd2.Chained ∧ ∃ k, w'.jbd2.pending=w.jbd2.pending.drop k := by
  induction h with
  | refl => exact ⟨hc,0,rfl⟩
  | tail hs hb ih =>
    obtain ⟨hc',k,hk⟩ := ih
    obtain ⟨hc'',k',hk'⟩ := hb.chained (Settles.settled hs hr).running hc'
    refine ⟨hc'',k+k',?_⟩
    rw [hk',hk,List.drop_drop]

lemma World.Settled.sameRing (h : Settled G w w') : SameRing w.jbd2 w'.jbd2 :=
  ⟨h.sameTx.engine.2.2.2.2,h.sameTx.engine.2.2.1⟩

lemma World.Settles.free_le (h : Settles G w w') (hr : w.Running G) (hc : w.jbd2.Chained) :
    w.jbd2.ext4Jbd2RingFreeBlocks≤w'.jbd2.ext4Jbd2RingFreeBlocks := by
  obtain ⟨hc',k,hk⟩ := h.chained hr hc
  have hs := h.settled hr
  rw [hr.engine.onRing.ringFreeBlocks hc,hs.running.engine.onRing.ringFreeBlocks hc',
    hs.sameRing.ring,hs.sameRing.logBlocks,hk]
  have := w.jbd2.logBlocks_drop_le w.jbd2.pending k
  omega

lemma World.Settles.roomy (h : Settles G w w') (hr : w.Running G) (hc : w.jbd2.Chained)
    (hroom : w.jbd2.Roomy) : w'.jbd2.Roomy := by
  obtain ⟨_,k,hk⟩ := h.chained hr hc
  constructor
  · rw [hk,List.length_drop]
    exact (Nat.sub_le _ _).trans_lt hroom.list
  · rw [txReserveBlocks_congr (h.settled hr).sameTx]
    exact hroom.ring.trans (h.free_le hr hc)

lemma World.Settles.log_kept (h : Settles G w w') (hr : w.Running G)
    (hb : b<G.maxlen) (h0 : b≠0) (hx : x/w.ext4.blockSize=G.jmap b) :
    w'.rawView x=w.rawView x := by
  induction h with
  | refl => rfl
  | tail hs hstep ih =>
    have hset := Settles.settled hs hr
    have hpos := hr.engine.maxlen_pos
    have hlayout := hr.engine.placed.layout
    rw [← ih]
    rcases hstep with ⟨n,e,c,rfl⟩ | ⟨_,k,hk⟩
    · rfl
    · refine hk.touches.other x ?_
      rw [hset.ext4,hx]
      rintro (hold | hsuper)
      · exact (hset.running.pending.oldest hold).2.2 ⟨b,hb,rfl⟩
      · exact h0 (hlayout.inj b hb 0 hpos hsuper)

lemma World.MadeRoom.roomy (h : MadeRoom G w w') (hr : w.Running G) (hc : w.jbd2.Chained) : w'.jbd2.Roomy := by
  obtain ⟨w1,w2,h1,hlist,h2,hfree,h3⟩ := h
  have hs1 := h1.settled hr
  have h12 : Settles G w w2 := h1.trans h2
  have hs2 := h12.settled hr
  have hc1 := (h1.chained hr hc).1
  obtain ⟨hc2,k,hk⟩ := h2.chained hs1.running hc1
  refine h3.roomy hs2.running hc2 ⟨?_,?_⟩
  · rw [hk,List.length_drop]
    exact (Nat.sub_le _ _).trans_lt hlist
  · rwa [txReserveBlocks_congr hs2.sameTx]

lemma wp_txBegin_roomy (h : w.Running G) (hw : w.cache.WritesOk) (hc : w.jbd2.Chained) :
    ext4TxBegin.wp (fun _ w' => w'.jbd2.Roomy) (fun _ => True) w := by
  have h0 : Settles G w (setErrno 0 w) := Settles.errno w 0
  have hs := h0.settled h
  simp only [ext4TxBegin,wp_bind,wp_modify,wp_gets,id]
  rw [if_pos hs.running.engine.enabled,wp_onFail]
  refine wp_mono (wp_ext4Jbd2TxStart hs.running (hs.writesOk hw)) ?_ fun _ _ => trivial
  rintro _ w' ⟨w1,h1,-,rfl⟩
  have hroom := h1.roomy hs.running (h0.chained h hc).1
  exact ⟨hroom.list,hroom.ring⟩

/-- The ring between calls. -/
structure World.InOrder (w : World) : Prop where
  chained : w.jbd2.Chained
  roomy : w.jbd2.txActive=true → w.jbd2.Roomy

lemma World.InOrder.settles (hi : w.InOrder) (hr : w.Running G) (h : Settles G w w') : w'.InOrder :=
  ⟨(h.chained hr hi.chained).1,fun ht =>
    h.roomy hr hi.chained (hi.roomy (by rw [← (h.settled hr).sameTx.active]; exact ht))⟩

lemma World.InOrder.txFrame (hi : w.InOrder) (h : TxFrame w w') : w'.InOrder := by
  obtain ⟨c,ds,rs,e,o,_,rfl⟩ := h
  exact ⟨hi.chained.congr ⟨rfl,rfl⟩ rfl rfl rfl,fun ht =>
    ⟨(hi.roomy ht).list,(hi.roomy ht).ring⟩⟩

lemma CommitPhases.chained {p next : ℕ} {w1 : World} (hr : w.Running G) (hc : w.jbd2.Chained)
    (hres : ext4Jbd2ReserveRing w.jbd2 w.jbd2.totalBlocks=some (p,next))
    (htags : 0<w.jbd2.tagsPerDesc)
    (h : CommitPhases G p (w.setJbd2 fun j => j.reserved p next) w1) :
    (w1.setJbd2 closeTx).jbd2.Chained := by
  have hring := hr.engine.onRing
  obtain ⟨rfl,rfl,hfree,hlen⟩ := hring.reserved_eq hc htags hres
  have hj : w1.jbd2=(w.jbd2.reserved _ _).pushed w.jbd2.head
      (w.jbd2.pos w.jbd2.head (txLog (w.jbd2.reserved _ _)).length) := h.jbd2
  rw [hlen] at hj
  refine Chained.congr (j := w1.jbd2) ?_ ⟨rfl,rfl⟩ rfl rfl rfl
  rw [hj]
  exact hring.chained_pushed hc w.jbd2.totalBlocks_pos hfree ⟨rfl,rfl⟩ rfl

lemma World.Does.inOrder {op : Op} (hd : Does G w w' op ok) (hr : w.Running G)
    (hi : w.InOrder) (hbegin : op=.begin → ok=true → w'.jbd2.Roomy) : w'.InOrder := by
  cases hd with
  | settle h _ => exact hi.settles hr h
  | quiet h =>
    have hj := h.jbd2
    exact ⟨by rw [hj]; exact hi.chained,by rw [hj]; exact hi.roomy⟩
  | sync h =>
    obtain ⟨_,w1,w2,⟨hs,_⟩,hput,hq,_⟩ := h
    have hj : w'.jbd2=w1.jbd2 := by rw [hq.jbd2,hput.put.jbd2]
    have hi1 := hi.settles hr hs
    exact ⟨by rw [hj]; exact hi1.chained,by rw [hj]; exact hi1.roomy⟩
  | @begin w1 h _ =>
    exact ⟨(h.chained hr hi.chained).1.congr ⟨rfl,rfl⟩ rfl rfl rfl,fun _ => hbegin rfl rfl⟩
  | abort _ => exact ⟨hi.chained.congr ⟨rfl,rfl⟩ rfl rfl rfl,fun ht => by cases ht⟩
  | write _ _ _ h => exact hi.txFrame h.frame
  | revoke _ h => exact hi.txFrame h.frame
  | commitEmpty _ _ _ => exact ⟨hi.chained.congr ⟨rfl,rfl⟩ rfl rfl rfl,fun ht => by cases ht⟩
  | commit _ h =>
    obtain ⟨p,next,w1,hres,htags,_,hphases,hsettles⟩ := h
    have hrun := hphases.running hr
    exact World.InOrder.settles ⟨CommitPhases.chained hr hi.chained hres htags hphases,
      fun ht => by cases ht⟩ hrun hsettles

lemma Jbd2State.OnRing.free_apart (h : j.OnRing G) (hc : j.Chained) {n k : ℕ}
    (hn : n≤j.ext4Jbd2RingFreeBlocks) (hk : k<n) (ht : t∈j.pending) :
    j.pos j.head k∉j.segment t := by
  intro hb
  obtain ⟨m,hm,heq⟩ := h.segment_subset hc.consecutive ht hb
  rw [h.ringFreeBlocks hc] at hn
  rw [h.head_eq hc,h.pos_pos'] at heq
  have := h.pos_inj (by omega) (by omega) heq
  omega

lemma Jbd2State.OnRing.segment_block (h : j.OnRing G) (hb : b∈j.segment t) : b<G.maxlen ∧ b≠0 := by
  obtain ⟨k,_,rfl⟩ := hb
  exact ⟨h.pos_lt _ _,h.pos_pos _ _⟩

lemma World.Does.log_kept (hd : Does G w w' .commit ok) (hr : w.Running G)
    (hi : w.InOrder) (ht : t∈w.jbd2.pending)
    (hb : b∈w.jbd2.segment t) (hx : x/w.ext4.blockSize=G.jmap b) :
    w'.rawView x=w.rawView x := by
  have hring := hr.engine.onRing
  obtain ⟨hlt,h0⟩ := hring.segment_block hb
  cases hd with
  | settle h _ => exact h.log_kept hr hlt h0 hx
  | commitEmpty _ _ _ => rfl
  | commit _ h =>
    obtain ⟨p,next,w1,hres,htags,_,hphases,hsettles⟩ := h
    have htouch := hphases.touches
    have hext : w1.ext4=w.ext4 := htouch.ext4
    rw [hsettles.log_kept (hphases.running hr) hlt h0 (by rw [← hx,← hext]; rfl)]
    refine htouch.other x ?_
    change ¬ (x/w.ext4.blockSize=G.jmap 0 ∨ _)
    rw [hx]
    have hlayout := hr.engine.placed.layout
    rintro (hsuper | ⟨k,hk,hlog⟩)
    · exact h0 (hlayout.inj b hlt 0 hr.engine.maxlen_pos hsuper)
    · obtain ⟨rfl,rfl,hfree,hlen⟩ := hring.reserved_eq hi.chained htags hres
      have hk' : k<w.jbd2.totalBlocks := hlen ▸ hk
      have heq : b=w.jbd2.pos w.jbd2.head k :=
        hlayout.inj b hlt _ (hring.pos_lt _ _) (hx.symm.trans hlog)
      exact hring.free_apart hi.chained hfree hk' ht (heq ▸ hb)

/-- A mounted volume before its first transaction: its log is empty. -/
structure World.EmptyLog (G : Geometry) (w : World) : Prop where
  idle : w.Idle G
  head : w.jbd2.inRing w.jbd2.head=true
  tail : w.jbd2.tail=w.jbd2.head

lemma World.EmptyLog.inOrder (h : w.EmptyLog G) : w.InOrder := by
  have hring := h.idle.running.engine.onRing
  refine ⟨⟨by rw [h.tail]; exact h.head,?_,?_⟩,fun ht => ?_⟩
  · rw [h.idle.noPending]
    exact h.tail
  · rw [h.idle.noPending]
    exact hring.ring_pos
  · rw [h.idle.noTx] at ht
    cases ht

lemma Session.inOrder {w0 : World} {a : Latest} (h0 : w0.EmptyLog G) (h : Session G w0 w a) :
    w.InOrder := by
  induction h with
  | start => exact h0.inOrder
  | @call w w' a op r h hop hr ih =>
    obtain ⟨hrun,hw,_,_⟩ := h.shown h0.idle
    refine (does_of_run hrun hw hop hr).inOrder hrun ih ?_
    rintro rfl hok
    obtain ⟨u,rfl⟩ := Option.isSome_iff_exists.1 hok
    exact wp_some (wp_txBegin_roomy hrun hw ih.chained) hr

end Worlds

/-- The ring in every state that calls lead to, when no device request fails. The logs of the
pending transactions follow each other from the tail to the head and fix the free space. The log
of an open transaction, if it needs less than the ring, gets its space at once and behind them,
and no commit changes them. -/
theorem jbd2_ring_segments {G : Geometry} {w0 w : World} {a : Latest} (h0 : w0.EmptyLog G)
    (h : Session G w0 w a) : w.jbd2.Segmented ∧
    (w.jbd2.txActive=true → w.jbd2.totalBlocks<w.jbd2.ring →
      w.jbd2.pending.length<ext4Jbd2MaxPendingTx ∧
      ext4Jbd2ReserveRing w.jbd2 w.jbd2.totalBlocks =
        some (w.jbd2.head,w.jbd2.pos w.jbd2.head w.jbd2.totalBlocks) ∧
      ∀ t∈w.jbd2.pending, ∀ k<w.jbd2.totalBlocks, w.jbd2.pos w.jbd2.head k∉w.jbd2.segment t) ∧
    ∀ r w', ext4TxCommit.run w=(r,w') → ∀ t∈w.jbd2.pending, ∀ b∈w.jbd2.segment t,
      ∀ x, x/w.ext4.blockSize=G.jmap b → w'.rawView x=w.rawView x := by
  obtain ⟨hrun,hw,_,_⟩ := h.shown h0.idle
  have hi := h.inOrder h0
  have hring := hrun.engine.onRing
  refine ⟨hi.chained.segmented hring,fun htx htotal => ?_,fun r w' hr t ht b hb x hx => ?_⟩
  · have hroom := hi.roomy htx
    have hblock := hrun.engine.placed.blockSize
    rw [← hrun.engine.block] at hblock
    have htail : w.jbd2.tailBytes≤4 := by
      unfold tailBytes
      split
      · exact le_rfl
      · exact Nat.zero_le _
    have htags : 0<w.jbd2.tagsPerDesc := by
      refine Nat.div_pos ?_ ?_
      · unfold ext4Jbd2TxTagBytes
        split_ifs
        · omega
        · omega
        · omega
      · unfold ext4Jbd2TxTagBytes
        split_ifs
        · omega
        · omega
        · omega
    have hfree := (totalBlocks_le_reserve hrun.engine.enabled (by omega) htags hrun.tx.size
      hrun.tx.revSize htotal).trans hroom.ring
    exact ⟨hroom.list,hring.reserveRing_eq_some hi.chained w.jbd2.totalBlocks_pos hfree,
      fun t ht k hk => hring.free_apart hi.chained hfree hk ht⟩
  · have hop : Op.commit.Admissible G w := trivial
    have hd : Does G w w' .commit r.isSome := does_of_run hrun hw hop hr
    exact hd.log_kept hrun hi ht hb hx

lemma fresh_emptyLog (store : ℕ → Sector) (feat seq : ℕ) :
    (fresh store feat seq).EmptyLog freshGeometry := ⟨fresh_idle store feat seq,rfl,rfl⟩

/-- An open transaction with one block gets its three log blocks. -/
theorem jbd2_ring_segments_fresh : ∃ w a,
    Session freshGeometry (fresh (fun _ _ => 0) 1 1) w a ∧ w.jbd2.Segmented ∧
    ext4Jbd2ReserveRing w.jbd2 w.jbd2.totalBlocks =
      some (w.jbd2.head,w.jbd2.pos w.jbd2.head w.jbd2.totalBlocks) := by
  have hbegin : Op.begin.Admissible freshGeometry (fresh (fun _ _ => 0) 1 1) := trivial
  have h2 := (Session.start.exec hbegin).exec fresh_write
  obtain ⟨hseg,hspace,_⟩ := jbd2_ring_segments (fresh_emptyLog _ 1 1) h2
  exact ⟨_,_,h2,hseg,(hspace (by decide +kernel) (by decide +kernel)).2.1⟩

end FuriOS
