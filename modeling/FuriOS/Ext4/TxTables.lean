import FuriOS.Ext4.LatestWrite

/-! The tables of an open transaction: which blocks it logs, which it revokes, and the images that
it keeps, for any calls that were made in it. -/
namespace FuriOS
open World Jbd2State

inductive TxCall
  | write (off : ℕ) (src : Buf) (len : ℕ)
  | revoke (b : ℕ)

namespace TxCall

def exec : TxCall → Ext4M Unit
  | write off src len => ext4Jbd2TxWriteBytes off src len
  | revoke b => ext4Jbd2NoteRevoke b

def Touches (bs b : ℕ) : TxCall → Prop
  | write off _ len => InBlocks bs off len b
  | revoke b' => b=b'

def isWrite : TxCall → Bool
  | write _ _ _ => true
  | revoke _ => false

/-- The last call that touches the block is a write, or a revoke. The latest call comes first. -/
def Last (bs b : ℕ) (write : Bool) : List TxCall → Prop
  | [] => False
  | c::cs => c.Touches bs b ∧ c.isWrite=write ∨ ¬ c.Touches bs b ∧ Last bs b write cs

/-- The volume as `before`, changed by the writes since the last revoke of each block. -/
def content (bs : ℕ) (before : Buf) : List TxCall → Buf
  | [] => before
  | write off src len::cs => (content bs before cs).copy off src 0 len
  | revoke b::cs => fun x => if x/bs=b then before x else content bs before cs x

/-- Calls that all succeed, on blocks of the volume and within the limit for revokes. -/
inductive Run (w0 : World) : List TxCall → World → Prop
  | nil : Run w0 [] w0
  | call {cs : List TxCall} {c : TxCall} {w w' : World} (h : Run w0 cs w)
      (hb : ∀ b, c=revoke b → b<w.ext4.blocksCount) (hr : c.exec.run w=(some (),w'))
      (ho : w'.jbd2.txRevokeOverflow=false) : Run w0 (c::cs) w'

end TxCall

open TxCall

/-- The tables are those that the calls ask for. -/
structure World.TablesOf (w0 : World) (cs : List TxCall) (w : World) : Prop where
  frame : TxFrame w0 w
  inTx : w.InTx
  view : w.view=content w0.jbd2.blockSize w0.view cs
  dirty : ∀ b, b∈blocksOf w.jbd2.txDirty ↔ Last w0.jbd2.blockSize b true cs
  revoked : ∀ b, b∈w.jbd2.txRevokes ↔ Last w0.jbd2.blockSize b false cs

section Tables
variable {w0 w w' : World} {cs : List TxCall} {c : TxCall}

lemma imageOf_of_mem {ds : List Jbd2Dirty} {d : Jbd2Dirty} (hn : (blocksOf ds).Nodup) (h : d∈ds) :
    imageOf ds d.fsBlock=some d.data := by
  induction ds with
  | nil => simp at h
  | cons e ds ih =>
    simp only [blocksOf,List.map_cons,List.nodup_cons] at hn
    rw [imageOf_cons]
    obtain rfl | h := List.mem_cons.1 h
    · exact if_pos rfl
    · rw [if_neg fun he : e.fsBlock=d.fsBlock => hn.1 (he ▸ List.mem_map_of_mem h),ih hn.2 h]

lemma World.TablesOf.write {off len : ℕ} {src : Buf} (h : TablesOf w0 cs w)
    (hw : TxWrote off src 0 len w w') : TablesOf w0 (write off src len::cs) w' := by
  refine ⟨h.frame.trans hw.frame,hw.inTx,?_,fun b => ?_,fun b => ?_⟩
  · rw [hw.view,h.view]
    rfl
  · rw [hw.dirty,h.dirty,h.frame.blockSize]
    simp only [Last,TxCall.Touches,isWrite]
    tauto
  · rw [hw.revoked,h.revoked,h.frame.blockSize]
    simp only [Last,TxCall.Touches,isWrite]
    tauto

lemma World.TablesOf.revoke {b : ℕ} (h0 : w0.view=w0.baseView) (h : TablesOf w0 cs w)
    (hw : TxRevoked b w w') (ho : w'.jbd2.txRevokeOverflow=false) :
    TablesOf w0 (revoke b::cs) w' := by
  have hadd : b∈w'.jbd2.txRevokes := hw.added.resolve_right (by simp [ho])
  refine ⟨h.frame.trans hw.frame,hw.inTx,?_,fun b' => ?_,fun b' => ?_⟩
  · funext x
    rw [hw.view,h.view,h.frame.baseView,h.frame.blockSize,← h0]
    rfl
  · rw [hw.dirty,h.dirty]
    simp only [Last,TxCall.Touches,isWrite]
    tauto
  · have hkept := hw.kept b'
    have hnew := hw.revoked b'
    rw [h.revoked] at hkept hnew
    simp only [Last,TxCall.Touches,isWrite]
    by_cases hb : b'=b
    · simpa [hb] using hadd
    · tauto

lemma TxCall.Run.tables (h0 : w0.InTx) (hd : w0.jbd2.txDirty=[]) (hr : w0.jbd2.txRevokes=[])
    (h : Run w0 cs w) : TablesOf w0 cs w := by
  have hview : w0.view=w0.baseView := by
    rw [h0.view,hd]
    rfl
  induction h with
  | nil =>
    refine ⟨(Quiet.refl h0.online).txFrame,h0,rfl,fun b => ?_,fun b => ?_⟩
    · simp [hd,blocksOf,Last]
    · simp [hr,Last]
  | @call cs c w w' h hb hrun ho ih =>
    cases c with
    | write off src len =>
      have hwp : (TxCall.write off src len).exec.wp (fun _ w' => TxWrote off src 0 len w w')
          (fun _ => True) w := by
        simp only [TxCall.exec,ext4Jbd2TxWriteBytes,Prog.wp_bind,Prog.wp_gets,ih.inTx.active,
          Prog.wp_require_true]
        exact Prog.wp_mono (wp_txWriteLoop src len ih.inTx off 0 len le_rfl) (fun _ _ h => h)
          fun _ _ => trivial
      have hw := Prog.wp_some hwp hrun
      exact ih.write hw
    | revoke b =>
      have hwp := Prog.wp_some (wp_ext4Jbd2NoteRevoke ih.inTx b) hrun
      rw [if_pos (hb b rfl)] at hwp
      exact ih.revoke hview hwp ho

/-- After any calls that succeed in a transaction, no block is logged twice, revoked twice or both; a
block is logged if the last call touching it was a write and revoked if it was a revoke; and its image
is what it held before with the writes since its last revoke. -/
theorem transaction_tables (h0 : w0.InTx) (hd : w0.jbd2.txDirty=[]) (hr : w0.jbd2.txRevokes=[])
    (h : Run w0 cs w) :
    (blocksOf w.jbd2.txDirty).Nodup ∧ w.jbd2.txRevokes.Nodup ∧
      (∀ b∈w.jbd2.txRevokes, b∉blocksOf w.jbd2.txDirty) ∧
      (∀ b, b∈blocksOf w.jbd2.txDirty ↔ Last w0.jbd2.blockSize b true cs) ∧
      (∀ b, b∈w.jbd2.txRevokes ↔ Last w0.jbd2.blockSize b false cs) ∧
      ∀ d∈w.jbd2.txDirty, ∀ k<w0.jbd2.blockSize,
        d.data k=content w0.jbd2.blockSize w0.view cs (d.fsBlock*w0.jbd2.blockSize+k) := by
  have ht := h.tables h0 hd hr
  refine ⟨ht.inTx.tx.nodup,ht.inTx.tx.revNodup,ht.inTx.tx.disjoint,ht.dirty,ht.revoked,?_⟩
  intro d hdm k hk
  have himage := imageOf_of_mem ht.inTx.tx.nodup hdm
  have hdiv : (d.fsBlock*w0.jbd2.blockSize+k)/w0.jbd2.blockSize=d.fsBlock := by
    rw [Nat.mul_comm,Nat.mul_add_div h0.block,Nat.div_eq_of_lt hk,Nat.add_zero]
  rw [← ht.view,ht.inTx.view,ht.frame.blockSize,
    imaged_of_some h0.block ht.inTx.tx.nodup (by rw [hdiv]; exact himage),
    Nat.mul_add_mod_of_lt hk]

/-- Block 40 is written, revoked and written again, block 41 is revoked: the image of block 40 has
the second write and not the first. -/
theorem transaction_tables_rewritten : ∃ w,
    Run ((fresh (fun _ _ => 0) 1 1).setJbd2 opened) [.write (40*1024+1) (fun _ => 9) 1,.revoke 41,
      .revoke 40,.write (40*1024) (fun _ => 7) 1] w ∧
      40∈blocksOf w.jbd2.txDirty ∧ 41∈w.jbd2.txRevokes ∧ 40∉w.jbd2.txRevokes ∧
      ∀ d∈w.jbd2.txDirty, d.fsBlock=40 → d.data 0=0 ∧ d.data 1=9 := by
  have h0 : Running freshGeometry ((fresh (fun _ _ => 0) 1 1).setJbd2 opened) :=
    (fresh_running _ 1 1).noTx ⟨rfl,rfl,rfl,rfl,rfl⟩ rfl rfl rfl rfl
  have hrun : Run ((fresh (fun _ _ => 0) 1 1).setJbd2 opened) [] _ := .nil
  have hrun := hrun.call (c := .write (40*1024) (fun _ => 7) 1) (fun _ h => by cases h)
    (Prod.ext (by decide +kernel) rfl) (by decide +kernel)
  have hrun := hrun.call (c := .revoke 40) (fun _ h => by cases h; decide +kernel)
    (Prod.ext (by decide +kernel) rfl) (by decide +kernel)
  have hrun := hrun.call (c := .revoke 41) (fun _ h => by cases h; decide +kernel)
    (Prod.ext (by decide +kernel) rfl) (by decide +kernel)
  have hrun := hrun.call (c := .write (40*1024+1) (fun _ => 9) 1) (fun _ h => by cases h)
    (Prod.ext (by decide +kernel) rfl) (by decide +kernel)
  obtain ⟨-,-,hdisjoint,hdirty,hrevoked,himage⟩ := transaction_tables (h0.inTx rfl) rfl rfl hrun
  have h40 := (hdirty 40).2 (.inl ⟨⟨40*1024+1,le_rfl,by omega,by rfl⟩,rfl⟩)
  refine ⟨_,hrun,h40,(hrevoked 41).2 (.inr ⟨?_,.inl ⟨rfl,rfl⟩⟩),fun h => hdisjoint 40 h h40,fun d hd hb => ?_⟩
  · rintro ⟨x,h1,h2,h3⟩
    obtain rfl : x=40*1024+1 := by omega
    cases h3
  · rw [himage d hd 0 (by decide),himage d hd 1 (by decide),hb]
    decide +kernel

end Tables

end FuriOS
