import FuriOS.Ext4.LogParse
import FuriOS.Lib.Crc

/-! What the checksums of the log detect: a block that was changed within four bytes, or only in its
checksum field, is not accepted any more. -/
namespace FuriOS
open Jbd2State

def crcPoly : ℕ := 0x82F63B78

lemma toNat_crcShift (c : UInt32) :
    (if c &&& 1 != 0 then (c >>> 1) ^^^ 0x82F63B78 else c >>> 1).toNat=Crc.shift crcPoly c.toNat := by
  have hbit : (c &&& 1 != 0)=decide (c.toNat%2=1) := by
    rw [bne,Bool.eq_iff_iff]
    simp only [← UInt32.toNat_inj,Bool.not_eq_true',beq_eq_false_iff_ne,ne_eq,UInt32.toNat_and,
      decide_eq_true_eq]
    change ¬ c.toNat &&& 1=0 ↔ _
    rw [Nat.and_one_is_mod]
    omega
  have hhalf : (c >>> 1).toNat=c.toNat/2 := (UInt32.toNat_shiftRight _ _).trans (Nat.shiftRight_one _)
  simp only [hbit,Crc.shift,decide_eq_true_eq]
  split_ifs
  · rw [UInt32.toNat_xor,hhalf]
    rfl
  · exact hhalf

lemma toNat_crcByte (c : UInt32) (b : UInt8) :
    (crcByte c b).toNat=(Crc.shift crcPoly)^[8] (c.toNat ^^^ b.toNat) := by
  have hin : c.toNat ^^^ b.toNat=(c ^^^ b.toUInt32).toNat := by rw [UInt32.toNat_xor,UInt8.toNat_toUInt32]
  rw [hin]
  simp only [Function.iterate_succ_apply,Function.iterate_zero_apply,← toNat_crcShift]
  rfl

lemma crcByte_inj {c c' : UInt32} {b : UInt8} (h : crcByte c b=crcByte c' b) : c=c' := by
  have hn := congrArg UInt32.toNat h
  have hb : b.toNat<2^32 := by have := b.toNat_lt; omega
  rw [toNat_crcByte,toNat_crcByte] at hn
  have heq := Crc.shift_iterate_inj (w := 31) (by decide) (by decide) 8
    (Nat.xor_lt_two_pow c.toNat_lt hb) (Nat.xor_lt_two_pow c'.toNat_lt hb) hn
  exact UInt32.toNat_inj.1 (Nat.xor_left_injective heq)

lemma crcLoop_inj {p : Buf} {n off : ℕ} {c c' : UInt32} (h : crcLoop p n off c=crcLoop p n off c') :
    c=c' := by
  induction n generalizing off c c' with
  | zero => exact h
  | succ n ih => exact crcByte_inj (ih h)

/-- Registers that are equal after up to four bytes differed by no more than these bytes can say, and
if they were equal before, so are the bytes. -/
lemma crcLoop_window {p q : Buf} {n off : ℕ} {c c' : UInt32} (hn : n≤4)
    (h : crcLoop p n off c=crcLoop q n off c') :
    c.toNat ^^^ c'.toNat<2^(8*n) ∧ (c=c' → Buf.Agree p q off n) := by
  induction n generalizing off c c' with
  | zero =>
    obtain rfl : c=c' := h
    exact ⟨by simp,fun _ i h1 h2 => absurd h2 (by omega)⟩
  | succ n ih =>
    obtain ⟨hlt,hrest⟩ := ih (by omega) h
    have hp := (p off).toNat_lt
    have hq := (q off).toNat_lt
    -- the difference after the byte comes from one that only moved down
    generalize hy : (crcByte c (p off)).toNat ^^^ (crcByte c' (q off)).toNat=y at hlt
    have hpow : 2^(8*(n+1))=2^(8*n)*2^8 := by rw [Nat.mul_succ,pow_add]
    have hle : 2^(8*n)≤2^24 := Nat.pow_le_pow_right two_pos (by omega)
    have hpoly : crcPoly<2^32 := by decide
    have hin : (c.toNat ^^^ (p off).toNat) ^^^ (c'.toNat ^^^ (q off).toNat)=2^8*y := by
      refine Crc.shift_iterate_inj (w := 31) hpoly (by decide) 8
        (Nat.xor_lt_two_pow (Nat.xor_lt_two_pow c.toNat_lt (by omega))
          (Nat.xor_lt_two_pow c'.toNat_lt (by omega))) (by omega) ?_
      rw [Crc.shift_iterate_mul,Crc.shift_iterate_xor,← toNat_crcByte,← toNat_crcByte,hy]
    have hdiff : c.toNat ^^^ c'.toNat=2^8*y ^^^ ((p off).toNat ^^^ (q off).toNat) := by
      have hswap : (c.toNat ^^^ (p off).toNat) ^^^ (c'.toNat ^^^ (q off).toNat) =
          (c.toNat ^^^ c'.toNat) ^^^ ((p off).toNat ^^^ (q off).toNat) := by ac_rfl
      rw [← hin,hswap,Nat.xor_xor_cancel_right]
    have hbytes : (p off).toNat ^^^ (q off).toNat<2^8 := Nat.xor_lt_two_pow hp hq
    refine ⟨?_,?_⟩
    · rw [hdiff]
      exact Nat.xor_lt_two_pow (by omega) (by omega)
    · rintro rfl
      rw [Nat.xor_self,eq_comm,Nat.xor_eq_zero_iff] at hdiff
      have hpq : p off=q off := UInt8.toNat_inj.1 (Nat.xor_eq_zero_iff.1 (by omega))
      have hagree := hrest (by rw [hpq])
      intro i h1 h2
      obtain rfl | hi := h1.eq_or_lt
      · exact hpq
      · exact hagree i hi (by omega)

lemma crcLoop_add (p : Buf) (n m off : ℕ) (c : UInt32) :
    crcLoop p (n+m) off c=crcLoop p m (off+n) (crcLoop p n off c) := by
  induction n generalizing off c with
  | zero => simp [crcLoop]
  | succ n ih => rw [Nat.succ_add,crcLoop,ih,crcLoop,Nat.add_right_comm off 1 n,Nat.add_assoc off n 1]

section Changed
variable {p q : Buf} {bs off i n : ℕ}

/-- `q` is `p` with some bits changed, all within the four bytes from `i` on. -/
def ChangedAt (bs i : ℕ) (p q : Buf) : Prop :=
  (∀ k<bs, k < i ∨ i+4≤k → q k=p k) ∧ ¬ Buf.Agree q p i 4

/-- Four bytes of the block are changed, either its checksum field or bytes outside of it. -/
def Damaged (bs off : ℕ) (p q : Buf) : Prop :=
  ∃ i, i+4≤bs ∧ (i=off ∨ i+4≤off ∨ off+4 ≤ i) ∧ ChangedAt bs i p q

lemma crcLoop_changed (h : ChangedAt bs i p q) (h1 : off ≤ i) (h2 : i+4≤off+n) (h3 : off+n≤bs)
    (c : UInt32) : crcLoop q n off c≠crcLoop p n off c := by
  intro heq
  obtain ⟨m,rfl⟩ : ∃ m, n=i-off+(4+m) := ⟨n-(i-off)-4,by omega⟩
  simp only [crcLoop_add,Nat.add_sub_cancel' h1] at heq
  have hbefore : Buf.Agree q p off (i-off) := fun k _ hk => h.1 k (by omega) (by omega)
  have hafter : Buf.Agree q p (i+4) m := fun k hk hk' => h.1 k (by omega) (by omega)
  rw [crcLoop_congr hbefore,crcLoop_congr hafter] at heq
  exact h.2 ((crcLoop_window le_rfl (crcLoop_inj heq)).2 rfl)

lemma crc32cUpdate_changed (h : ChangedAt bs i p q) (h1 : off ≤ i) (h2 : i+4≤off+n) (h3 : off+n≤bs)
    (crc : ℕ) : crc32cUpdate crc q off n≠crc32cUpdate crc p off n := fun heq =>
  crcLoop_changed h h1 h2 h3 _ (UInt32.not_inj.1 (UInt32.toNat_inj.1 heq))

lemma crc32cUpdate_inj {crc crc' : ℕ} (hlt : crc<2^32) (hlt' : crc'<2^32)
    (h : crc32cUpdate crc p off n=crc32cUpdate crc' p off n) : crc=crc' := by
  have hcrc := crcLoop_inj (UInt32.not_inj.1 (UInt32.toNat_inj.1 h))
  have hn := congrArg UInt32.toNat (UInt32.not_inj.1 hcrc)
  rwa [UInt32.toNat_ofNat_of_lt' hlt,UInt32.toNat_ofNat_of_lt' hlt'] at hn

lemma checksumWithHole_changed (hoff : off+4≤bs) (h : ChangedAt bs i p q) (hi : i+4≤bs)
    (hpos : i+4≤off ∨ off+4 ≤ i) (seed : ℕ) :
    ext4Jbd2ChecksumWithHole seed q bs off≠ext4Jbd2ChecksumWithHole seed p bs off := by
  simp only [ext4Jbd2ChecksumWithHole]
  rcases hpos with hpos | hpos
  · have hafter : Buf.Agree q p (off+4) (bs-off-4) := fun k hk hk' => h.1 k (by omega) (by omega)
    rw [crc32cUpdate_congr hafter]
    intro heq
    exact crc32cUpdate_changed h (Nat.zero_le _) (by omega) (by omega) _
      (crc32cUpdate_inj (crc32cUpdate_lt _ _ _ _) (crc32cUpdate_lt _ _ _ _)
        (crc32cUpdate_inj (crc32cUpdate_lt _ _ _ _) (crc32cUpdate_lt _ _ _ _) heq))
  · have hbefore : Buf.Agree q p 0 off := fun k _ hk => h.1 k (by omega) (by omega)
    rw [crc32cUpdate_congr hbefore]
    exact crc32cUpdate_changed h hpos (by omega) (by omega) _

lemma agree_of_rdBe32 (h : q.rdBe32 off=p.rdBe32 off) : Buf.Agree q p off 4 := by
  intro k h1 h2
  have := (p off).toNat_lt
  have := (p (off+1)).toNat_lt
  have := (p (off+2)).toNat_lt
  have := (p (off+3)).toNat_lt
  have := (q off).toNat_lt
  have := (q (off+1)).toNat_lt
  have := (q (off+2)).toNat_lt
  have := (q (off+3)).toNat_lt
  simp only [Buf.rdBe32] at h
  apply UInt8.toNat_inj.1
  obtain rfl | rfl | rfl | rfl : k=off ∨ k=off+1 ∨ k=off+2 ∨ k=off+3 := by omega
  all_goals omega

/-- The field and the checksum agree for `p`; after a change they do not. -/
lemma rdBe32_damaged {seed : ℕ} (hoff : off+4≤bs) (hp : p.rdBe32 off=ext4Jbd2ChecksumWithHole seed p bs off)
    (h : Damaged bs off p q) : q.rdBe32 off≠ext4Jbd2ChecksumWithHole seed q bs off := by
  obtain ⟨i,hi,hpos,h⟩ := h
  intro hq
  rcases hpos with rfl | hpos
  · rw [checksumWithHole_congr hoff h.1,← hp] at hq
    exact h.2 (agree_of_rdBe32 hq)
  · have hfield : Buf.Agree q p off 4 := fun k hk hk' => h.1 k (by omega) (by omega)
    rw [Buf.rdBe32_congr hfield,hp] at hq
    exact checksumWithHole_changed hoff h hi hpos seed hq.symm

/-- A block that was sealed is accepted, and not any more after it was damaged. -/
theorem sealed_blocks_guarded {j : Jbd2State} (hcsum : j.hasCsum=true) (hsize : 1024≤j.blockSize)
    (p : Buf) :
    (j.ext4Jbd2VerifyTailChecksum (j.ext4Jbd2SetTailChecksum p)=true ∧
        ∀ q, Damaged j.blockSize (j.blockSize-4) (j.ext4Jbd2SetTailChecksum p) q →
          j.ext4Jbd2VerifyTailChecksum q=false) ∧
      j.ext4Jbd2VerifyCommitChecksum (j.ext4Jbd2SetCommitChecksum p)=true ∧
        ∀ q, Damaged j.blockSize jbd2CommitCsumOff (j.ext4Jbd2SetCommitChecksum p) q →
          j.ext4Jbd2VerifyCommitChecksum q=false := by
  have htail := verifyTail_set (j := j) (p := p) (by omega) fun _ _ _ => rfl
  have hcommit := verifyCommit_set (j := j) (p := p) (by simp only [jbd2CommitCsumOff]; omega)
    fun _ _ _ => rfl
  refine ⟨⟨htail,fun q h => ?_⟩,hcommit,fun q h => ?_⟩
  · simp [ext4Jbd2VerifyTailChecksum,hcsum] at htail ⊢
    exact fun _ => rdBe32_damaged (by omega) htail.2 h
  · simp [ext4Jbd2VerifyCommitChecksum,hcsum] at hcommit ⊢
    exact fun _ _ _ => rdBe32_damaged hcommit.1 hcommit.2.2 h

def sumJournal : Jbd2State := {Jbd2State.zero with csumV3 := true, blockSize := 1024}

lemma damaged_update {k : ℕ} {v : UInt8} (hk : k<4) (hi : i+4≤bs) (hpos : i=off ∨ i+4≤off ∨ off+4 ≤ i)
    (hv : v≠p (i+k)) : Damaged bs off p (Function.update p (i+k) v) := by
  refine ⟨i,hi,hpos,fun j _ hj => Function.update_of_ne (by omega) _ _,fun h => hv ?_⟩
  rw [← h (i+k) (by omega) (by omega),Function.update_self]

/-- A block of sevens with one byte changed behind the seal, of the data or of the checksum. -/
theorem sealed_blocks_guarded_byte :
    let tail := sumJournal.ext4Jbd2SetTailChecksum fun _ => 7
    let commit := sumJournal.ext4Jbd2SetCommitChecksum fun _ => 7
    sumJournal.ext4Jbd2VerifyTailChecksum tail=true ∧
      sumJournal.ext4Jbd2VerifyTailChecksum (Function.update tail (100+2) 9)=false ∧
      sumJournal.ext4Jbd2VerifyCommitChecksum commit=true ∧
      sumJournal.ext4Jbd2VerifyCommitChecksum (Function.update commit (16+3) (commit (16+3)+1))=false :=
  have h := sealed_blocks_guarded (j := sumJournal) rfl (by decide) fun _ => 7
  ⟨h.1.1,h.1.2 _ (damaged_update (by decide) (by decide) (by decide) (by decide +kernel)),h.2.1,
    h.2.2 _ (damaged_update (by decide) (by decide) (.inl rfl) (by grind))⟩

end Changed

end FuriOS
