import FuriOS.BlockCacheRuns

/-! Runs of the cache over devices that fail. Beside the run stands what each sector may hold:
the data of the latest acknowledged write or of a failed write after it. -/
namespace FuriOS
open Prog Function
namespace BlockCache
variable {σ : Type}

namespace CacheCall

/-- The sector that the call hands over for a device position. -/
def sectorAt (c : BlockCache σ) (k : DevKind) (p : ℕ) : CacheCall σ → Option σ
  | .write lba buf => if k=c.activeDevKind ∧ c.deviceLba lba≤p then buf[p-c.deviceLba lba]? else none
  | _ => none

/-- What the sectors may hold after the call. A write that returns success fixes its sectors, one
that fails adds its data to what they may hold. -/
def mayHold (c : BlockCache σ) (op : CacheCall σ) (r : Option (List σ))
    (A : DevKind → ℕ → σ → Prop) : DevKind → ℕ → σ → Prop := fun k p s =>
  match op.sectorAt c k p with
  | none => A k p s
  | some d => s=d ∨ (r=none ∧ A k p s)

end CacheCall

section Runs
variable [Inhabited σ] [BEq σ]

/-- A run of calls that each meet `P`, beside what each sector of the devices may hold. -/
inductive AckRun (P : BlockCache σ → CacheCall σ → Prop) (c0 : BlockCache σ) :
    BlockCache σ → (DevKind → ℕ → σ → Prop) → Prop
  | init : AckRun P c0 c0.blockCacheInit fun k p s => s=c0.dev.store k p
  | call {c c' : BlockCache σ} {A : DevKind → ℕ → σ → Prop} {r : Option (List σ)}
      (op : CacheCall σ) (h : AckRun P c0 c A) (hop : P c op) (hrun : op.exec.run c=(r,c')) :
      AckRun P c0 c' (op.mayHold c r A)

end Runs

/-- The sector holds something allowed: on its device, or in a line still to be written back. -/
def Kept (c : BlockCache σ) (A : DevKind → ℕ → σ → Prop) (k : DevKind) (p : ℕ) : Prop :=
  A k p (c.dev.store k p) ∨ ∃ i, (c.lines i).valid=true ∧ (c.lines i).dirty=true ∧
    c.InPartition k p ∧ p=c.deviceLba (c.lines i).lba ∧ A k p (c.lines i).data

lemma Serving.kept {c : BlockCache σ} {A : DevKind → ℕ → σ → Prop} (hc : c.Serving) {k : DevKind}
    {p : ℕ} (hA : A k p (c.contents k p)) : c.Kept A k p := by
  rw [contents] at hA
  split at hA
  · next hp =>
    obtain ⟨hready,rfl,hb,-⟩ := id hp
    have ha := hc.attached hready
    have hpos : c.deviceLba (p-c.activeLbaBase)=p := Nat.add_sub_cancel' hb
    by_cases hd : c.DirtyAt (p-c.activeLbaBase)
    · obtain ⟨i,hv,hdirty,hl⟩ := hd
      rw [← hl,ha.flat_line hv] at hA
      exact .inr ⟨i,hv,hdirty,hp,by rw [hl,hpos],hA⟩
    · rw [ha.flat_of_not_dirty hd,disk,hpos] at hA
      exact .inl hA
  · exact .inl hA

lemma CacheCall.effect_part (c : BlockCache σ) (op : CacheCall σ) (n : ℕ)
    (arr : DevKind → ℕ → σ) (k : DevKind) (p : ℕ) :
    (op.part n).effect c arr k p=arr k p ∨
      op.sectorAt c k p=some ((op.part n).effect c arr k p) := by
  cases op with
  | write lba buf =>
    simp only [part,effect,put,sectorAt]
    by_cases hk : k=c.activeDevKind
    · subst hk
      rw [update_self,writeSeq_apply]
      by_cases hp : c.deviceLba lba≤p
      · simp only [if_pos hp,true_and]
        rcases hget : (buf.take n)[p-c.deviceLba lba]? with _ | d
        · exact .inl rfl
        · right
          rw [List.getElem?_take] at hget
          split at hget
          · exact hget
          · simp at hget
      · exact .inl (if_neg hp)
    · exact .inl (by rw [update_of_ne hk])
  | attach inode => exact .inl rfl
  | read lba count => exact .inl rfl
  | flush => exact .inl rfl

lemma CacheCall.effect_apply (c : BlockCache σ) (op : CacheCall σ) (arr : DevKind → ℕ → σ)
    (k : DevKind) (p : ℕ) : op.effect c arr k p=(op.sectorAt c k p).getD (arr k p) := by
  cases op with
  | write lba buf =>
    simp only [effect,put,sectorAt]
    by_cases hk : k=c.activeDevKind
    · subst hk
      rw [update_self,writeSeq_apply]
      simp only [true_and]
      split <;> rfl
    · rw [update_of_ne hk,if_neg fun h => hk h.1]
      rfl
  | attach inode => rfl
  | read lba count => rfl
  | flush => rfl

lemma CacheCall.Done.mayHold {op : CacheCall σ} {c c' : BlockCache σ} {r : Option (List σ)}
    {A : DevKind → ℕ → σ → Prop} (h : op.Done c r c') (hA : ∀ k p, A k p (c.contents k p)) (k : DevKind) (p : ℕ) :
    op.mayHold c r A k p (c'.contents k p) := by
  unfold CacheCall.mayHold
  cases r with
  | some ss =>
    rw [h.success rfl,CacheCall.effect_apply]
    cases op.sectorAt c k p with
    | none => exact hA k p
    | some d => exact .inl rfl
  | none =>
    obtain ⟨n,hn,-⟩ := h.failure rfl
    rw [hn]
    have hpart := CacheCall.effect_part c op n c.contents k p
    cases hs : op.sectorAt c k p with
    | none =>
      rcases hpart with he | he
      · rw [he]; exact hA k p
      · exact absurd (hs.symm.trans he) (by simp)
    | some d =>
      rcases hpart with he | he
      · rw [he]; exact .inr ⟨rfl,hA k p⟩
      · rw [hs] at he
        exact .inl (Option.some.inj he).symm

section Runs
variable [Inhabited σ] [BEq σ] {c0 c : BlockCache σ} {A : DevKind → ℕ → σ → Prop}

lemma AckRun.next {P : BlockCache σ → CacheCall σ → Prop} (h : AckRun P c0 c A) (op : CacheCall σ)
    (hop : P c op) : AckRun P c0 (op.exec.run c).2 (op.mayHold c (op.exec.run c).1 A) :=
  .call op h hop rfl

lemma AckRun.serving (h : AckRun (fun c op => op.Safe c) c0 c A) :
    c.Serving ∧ ∀ k p, A k p (c.contents k p) := by
  induction h with
  | init => exact ⟨blockCacheInit_serving c0,fun k p => by rw [blockCacheInit_contents]⟩
  | call op h hop hrun ih =>
    obtain ⟨hc,hA⟩ := ih
    have hdone := CacheCall.done_of_run hc hop hrun
    exact ⟨hdone.serving,hdone.mayHold hA⟩

/-- With failing devices, in every run whose calls are all safe: a read that returns success
returns for each sector the data of the latest acknowledged write, or of a failed write after it,
or the first contents of the device, and such data is on the device or in a dirty line. -/
theorem blockCache_acknowledged_safe (h : AckRun (fun c op => op.Safe c) c0 c A) :
    (∀ lba n ss c', (CacheCall.read lba n).Safe c → (blockCacheRead lba n).run c=(some ss,c') →
      ∀ i s, ss[i]?=some s → A c.activeDevKind (c.deviceLba (lba+i)) s) ∧
    ∀ k p, c.Kept A k p := by
  obtain ⟨hc,hA⟩ := h.serving
  refine ⟨?_,fun k p => hc.kept (hA k p)⟩
  intro lba n ss c' hs hrun i s hi
  obtain ⟨-,rfl⟩ := wp_some (CacheCall.wp_exec_read hc lba n hs) hrun
  simp only [List.getElem?_map,Option.map_eq_some_iff] at hi
  obtain ⟨j,hj,rfl⟩ := hi
  obtain ⟨hlt,rfl⟩ := List.getElem?_eq_some_iff.1 hj
  rw [List.getElem_range]
  exact hA _ _

end Runs

/-- A device that refuses request 2, a write-back. -/
def faultyWrite : BlockCache ℕ := bareCache (fun _ => .ok) fun n => n != 2

theorem blockCache_acknowledged_safe_refused : ∃ (c : BlockCache ℕ) (A : DevKind → ℕ → ℕ → Prop),
      AckRun (fun c op => op.Safe c) faultyWrite c A ∧ c.dev.store .vda 3=0 ∧ ¬ A .vda 3 0 ∧
      c.Kept A .vda 3 := by
  have h : AckRun (fun c op => op.Safe c) faultyWrite faultyWrite.blockCacheInit _ := .init
  have h1 := h.next (.attach (partition 0 8)) fun hready => absurd hready (by decide)
  have h2 := h1.next (.write 3 [7]) (h1.serving.1.safe_write (fun _ => rfl) 3 [7])
  -- the flush fails, and the line stays dirty
  have h3 := h2.next .flush trivial
  refine ⟨_,_,h3,by decide +kernel,?_,(blockCache_acknowledged_safe h3).2 _ _⟩
  rintro (hA | ⟨hr,-⟩)
  · exact absurd hA (by decide)
  · exact absurd hr (by decide +kernel)

/-- A device whose request 128 is a read that fails. -/
def faultyRead : BlockCache ℕ :=
  bareCache (fun n => if n=128 then .fail 7 else .ok) fun _ => true

lemma faultyWrite_lost : ∃ (c : BlockCache ℕ) (A : DevKind → ℕ → ℕ → Prop),
      AckRun (fun _ _ => True) faultyWrite c A ∧ ¬ c.Kept A .vda 3 := by
  have h : AckRun (fun _ _ => True) faultyWrite faultyWrite.blockCacheInit _ := .init
  have h3 := ((h.next (.attach (partition 0 8)) trivial).next (.write 3 [7]) trivial).next
    (.attach (partition 8 8)) trivial
  refine ⟨_,_,h3,?_⟩
  rintro (hA | ⟨i,hv,-⟩)
  · -- the write returned success, so the sector may only hold 7; the device has 0
    rcases hA with h0 | ⟨hr,-⟩
    · exact absurd h0 (by decide +kernel)
    · exact absurd hr (by decide +kernel)
  · exact absurd hv (by revert i; decide +kernel)

/-- Two runs that break it. In the first a failed read leaves its junk in a line in use, and the
next read of that line's sector returns the junk. In the second a write-back fails while another
partition is attached, and the dirty line with the acknowledged write is cleared all the same. -/
theorem blockCache_not_acknowledged :
    (∃ (c : BlockCache ℕ) (A : DevKind → ℕ → ℕ → Prop), AckRun (fun _ _ => True) faultyRead c A ∧
      ((blockCacheRead 0 1).run c).1=some [7] ∧ ¬ A c.activeDevKind (c.deviceLba 0) 7) ∧
    ∃ (c : BlockCache ℕ) (A : DevKind → ℕ → ℕ → Prop),
      AckRun (fun _ _ => True) faultyWrite c A ∧ ¬ c.Kept A .vda 3 := by
  refine ⟨?_,faultyWrite_lost⟩
  have h : AckRun (fun _ _ => True) faultyRead faultyRead.blockCacheInit _ := .init
  -- with the other sectors read, all lines are in use when the read fails
  have h3 := ((h.next (.attach (partition 0 200)) trivial).next (.read 1 127) trivial).next
    (.read 128 1) trivial
  -- nothing was written, so the sector may only hold 0
  exact ⟨_,_,h3,by decide +kernel,fun hA => absurd (show 7=0 from hA) (by decide)⟩

end BlockCache
end FuriOS
