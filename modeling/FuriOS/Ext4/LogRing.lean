import FuriOS.Ext4.Checkpoint

/-! Runs of log blocks in the ring of the journal. -/
namespace FuriOS
open BlockCache World

/-- The position `k` blocks after `p` in the ring of the blocks `first` to `maxlen-1`. -/
def ringPos (first maxlen p k : ℕ) : ℕ := first+(p-first+k)%(maxlen-first)

section RingPos
variable {first maxlen p k m : ℕ}

lemma ringPos_lt (h : first < maxlen) : ringPos first maxlen p k < maxlen := by
  have := Nat.mod_lt (p-first+k) (show 0 < maxlen-first by omega)
  unfold ringPos
  omega

lemma le_ringPos : first≤ringPos first maxlen p k := by
  unfold ringPos
  omega

lemma ringPos_zero (h1 : first≤p) (h2 : p < maxlen) : ringPos first maxlen p 0=p := by
  unfold ringPos
  rw [Nat.add_zero,Nat.mod_eq_of_lt (by omega)]
  omega

lemma ringPos_ringPos : ringPos first maxlen (ringPos first maxlen p k) m =
    ringPos first maxlen p (k+m) := by
  unfold ringPos
  rw [Nat.add_sub_cancel_left,Nat.mod_add_mod,Nat.add_assoc]

lemma ringPos_inj (h : k < maxlen-first) (h' : m < maxlen-first)
    (he : ringPos first maxlen p k=ringPos first maxlen p m) : k=m := by
  unfold ringPos at he
  have hmod : (p-first+k) ≡ (p-first+m) [MOD (maxlen-first)] := by
    unfold Nat.ModEq
    omega
  have := Nat.ModEq.add_left_cancel' _ hmod
  unfold Nat.ModEq at this
  rwa [Nat.mod_eq_of_lt h,Nat.mod_eq_of_lt h'] at this

lemma nextBlock_ringPos (h : first < maxlen) :
    ext4Jbd2NextBlock (ringPos first maxlen p k) first maxlen=ringPos first maxlen p (k+1) := by
  have hlt := ringPos_lt (p := p) (k := k) h
  have hle : first≤ringPos first maxlen p k := le_ringPos
  rw [ext4Jbd2NextBlock,if_neg (by omega),← ringPos_ringPos]
  generalize ringPos first maxlen p k=q at *
  unfold ringPos
  split_ifs with hq
  · rw [show q-first+1=maxlen-first by omega,Nat.mod_self,Nat.add_zero]
  · rw [Nat.mod_eq_of_lt (by omega)]
    omega

end RingPos

/-- The engine's ring is the one of the journal file. -/
structure Jbd2State.OnRing (G : Geometry) (j : Jbd2State) : Prop where
  inode : j.journalMeta=G.inode
  maxlen : j.maxlen=G.maxlen
  firstPos : 0<j.first
  first : j.first<j.maxlen

def Jbd2State.pos (j : Jbd2State) (p k : ℕ) : ℕ := ringPos j.first j.maxlen p k

namespace World

lemma Engine.onRing {G : Geometry} {w : World} (h : w.Engine G) : w.jbd2.OnRing G :=
  ⟨h.inode,h.maxlen,h.firstPos,h.first⟩

/-- The block of the volume `k` log blocks after `p`. -/
def logBlock (G : Geometry) (j : Jbd2State) (p k : ℕ) : ℕ := G.jmap (j.pos p k)

/-- The `n` log blocks from `p` on. -/
def LogRun (G : Geometry) (j : Jbd2State) (p n : ℕ) (b : ℕ) : Prop := ∃ k<n, b=logBlock G j p k

/-- The log holds the given blocks from `p` on. -/
def LogAt (G : Geometry) (j : Jbd2State) (w : World) (p : ℕ) (L : List Buf) : Prop :=
  ∀ k blk, L[k]?=some blk → ∀ x, x/w.ext4.blockSize=logBlock G j p k →
    w.rawView x=blk (x%w.ext4.blockSize)

/-- The given blocks were written into the log from `p` on. -/
structure Emitted (G : Geometry) (j : Jbd2State) (p : ℕ) (L : List Buf) (w w' : World) : Prop where
  put : BlocksPut (LogRun G j p L.length) w w'
  log : LogAt G j w' p L

end World
open Jbd2State

namespace Jbd2State.OnRing
variable {G : Geometry} {j : Jbd2State} {w w' w'' : World} {p q : ℕ} {L L' : List Buf}

lemma pos_lt (h : j.OnRing G) (p k : ℕ) : j.pos p k<G.maxlen := by
  rw [← h.maxlen]
  exact ringPos_lt h.first

lemma pos_pos (h : j.OnRing G) (p k : ℕ) : j.pos p k≠0 := by
  have : j.first≤j.pos p k := le_ringPos
  have := h.firstPos
  omega

lemma pos_zero (_ : j.OnRing G) (hp : j.inRing p=true) : j.pos p 0=p := by
  simp only [inRing,Bool.and_eq_true,decide_eq_true_eq] at hp
  exact ringPos_zero hp.1 hp.2

lemma pos_pos' (_ : j.OnRing G) (p k m : ℕ) : j.pos (j.pos p k) m=j.pos p (k+m) := ringPos_ringPos

section
variable (h : j.OnRing G)
include h

lemma next (p k : ℕ) :
    ext4Jbd2NextBlock (j.pos p k) j.first j.maxlen=j.pos p (k+1) := nextBlock_ringPos h.first

lemma inRing_pos (p k : ℕ) : j.inRing (j.pos p k)=true := by
  simp only [inRing,Bool.and_eq_true,decide_eq_true_eq]
  exact ⟨le_ringPos,ringPos_lt h.first⟩

lemma logBlock_inj {bc : ℕ} (hl : G.Layout bc) {k m : ℕ} (hk : k<j.ring)
    (hm : m<j.ring) (he : logBlock G j p k=logBlock G j p m) : k=m :=
  ringPos_inj hk hm (hl.inj _ (h.pos_lt p k) _ (h.pos_lt p m) he)

lemma logBlock_pos (p k m : ℕ) : logBlock G j (j.pos p k) m=logBlock G j p (k+m) := by
  unfold logBlock
  rw [h.pos_pos']

lemma isLog {n b : ℕ} (hb : LogRun G j p n b) : G.IsLog b := by
  obtain ⟨k,-,rfl⟩ := hb
  exact ⟨j.pos p k,h.pos_lt p k,rfl⟩

lemma not_tree {bc : ℕ} (hl : G.Layout bc) {n b : ℕ} (hb : LogRun G j p n b) :
    ¬ G.tree b := fun ht => hl.apart b ht (h.isLog hb)

lemma logBlock_ne_super {bc : ℕ} (hl : G.Layout bc) (p k : ℕ) : logBlock G j p k≠G.jmap 0 := by
  intro he
  have hpos : 0<G.maxlen := by have := h.first; rw [h.maxlen] at this; omega
  exact h.pos_pos p k (hl.inj _ (h.pos_lt p k) 0 hpos he)

end

lemma emitted_nil (hp : w.Online) : Emitted G j p [] w w :=
  ⟨(Quiet.refl hp).blocksPut _,fun k blk hk => by simp at hk⟩

lemma emitted_append (h : j.OnRing G) (hp : w.Placed G) (h1 : Emitted G j p L w w')
    (h2 : Emitted G j (j.pos p L.length) L' w' w'') (hlen : L.length+L'.length≤j.ring) :
    Emitted G j p (L++L') w w'' := by
  have hdisj : ∀ b, LogRun G j p L.length b → ¬ LogRun G j (j.pos p L.length) L'.length b := by
    rintro b ⟨k,hk,rfl⟩ ⟨m,hm,he⟩
    rw [h.logBlock_pos] at he
    have := h.logBlock_inj hp.layout (by omega) (by omega) he
    omega
  refine ⟨(h1.put.trans hp h2.put hdisj).weaken ?_,?_⟩
  · rintro b (⟨k,hk,rfl⟩ | ⟨m,hm,rfl⟩)
    · exact ⟨k,by rw [List.length_append]; omega,rfl⟩
    · exact ⟨L.length+m,by rw [List.length_append]; omega,h.logBlock_pos _ _ _⟩
  · intro k blk hk x hx
    have hext : w''.ext4=w'.ext4 := h2.put.ext4
    by_cases hkl : k<L.length
    · rw [List.getElem?_append_left hkl] at hk
      rw [hext] at hx ⊢
      rw [h2.put.other (x := x) ?_]
      · exact h1.log k blk hk x hx
      · rw [hx]
        exact hdisj _ ⟨k,hkl,rfl⟩
    · rw [List.getElem?_append_right (by omega)] at hk
      refine h2.log (k-L.length) blk hk x ?_
      rw [hx,h.logBlock_pos]
      congr 1
      omega

lemma emitted_cons (h : j.OnRing G) (hp : w.Placed G) {blk : Buf}
    (h1 : Emitted G j (j.pos p 1) L w w') (h2 : PutBlock (logBlock G j p 0) blk w' w'')
    (hlen : L.length+1≤j.ring) : Emitted G j p (blk::L) w w'' := by
  have hdisj : ∀ b, LogRun G j (j.pos p 1) L.length b → ¬ b=logBlock G j p 0 := by
    rintro b ⟨k,hk,rfl⟩ he
    rw [h.logBlock_pos] at he
    have := h.logBlock_inj hp.layout (by omega) (by omega) he
    omega
  have hext : w''.ext4=w'.ext4 := h2.put.ext4
  refine ⟨(h1.put.trans hp h2.put hdisj).weaken ?_,?_⟩
  · rintro b (⟨k,hk,rfl⟩ | rfl)
    · exact ⟨1+k,by rw [List.length_cons]; omega,h.logBlock_pos _ _ _⟩
    · exact ⟨0,by simp,rfl⟩
  · intro k d hk x hx
    rw [hext] at hx ⊢
    cases k with
    | zero =>
      obtain rfl : blk=d := by simpa using hk
      exact h2.inside (by rw [h1.put.ext4]; exact hp.block_pos) hx
    | succ k =>
      have hk' : L[k]?=some d := by simpa using hk
      have hkl : k<L.length := by
        rcases List.getElem?_eq_some_iff.1 hk' with ⟨hlt,-⟩
        exact hlt
      have hx' : x/w'.ext4.blockSize=logBlock G j (j.pos p 1) k := by
        rw [hx,h.logBlock_pos,Nat.add_comm]
      rw [h2.put.other (x := x) (by rw [hx']; exact hdisj _ ⟨k,hkl,rfl⟩)]
      exact h1.log k d hk' x hx'

lemma emitted_single (h : j.OnRing G) (hp : w.Placed G) {blk : Buf}
    (h2 : PutBlock (logBlock G j p 0) blk w w') : Emitted G j p [blk] w w' := by
  refine h.emitted_cons hp (emitted_nil hp.online) h2 ?_
  have := h.first
  simp only [List.length_nil,ring]
  omega

end Jbd2State.OnRing

end FuriOS
