import Mathlib.Data.Nat.Bitwise
import Mathlib.Tactic

/-! Cyclic redundancy codes as a shift register: a shift is linear in exclusive or and, if the top
bit of the polynomial is set, injective. -/
namespace FuriOS.Crc

/-- One shift of the register. -/
def shift (poly c : ℕ) : ℕ := if c%2=1 then c/2 ^^^ poly else c/2

variable {poly w : ℕ}

lemma shift_xor (a b : ℕ) : shift poly (a ^^^ b)=shift poly a ^^^ shift poly b := by
  have hp := Nat.xor_mod_two_eq (m := a) (n := b)
  unfold shift
  rw [Nat.xor_div_two]
  split_ifs <;> try omega
  · exact Nat.xor_right_comm _ _ _
  · exact Nat.xor_assoc _ _ _
  · rw [Nat.xor_right_comm,← Nat.xor_assoc,Nat.xor_xor_cancel_right,Nat.xor_comm]

lemma shift_iterate_xor (n a b : ℕ) :
    (shift poly)^[n] (a ^^^ b)=(shift poly)^[n] a ^^^ (shift poly)^[n] b := by
  induction n generalizing a b with
  | zero => rfl
  | succ n ih => exact (congrArg _ (shift_xor a b)).trans (ih _ _)

/-- A register whose low bits are zero only moves down. -/
lemma shift_iterate_mul (n c : ℕ) : (shift poly)^[n] (2^n*c)=c := by
  induction n with
  | zero => simp
  | succ n ih =>
    have hstep : shift poly (2^(n+1)*c)=2^n*c := by
      have heven : 2^(n+1)*c=2*(2^n*c) := by ring
      rw [heven,shift,if_neg (by omega),Nat.mul_div_cancel_left _ two_pos]
    rw [Function.iterate_succ_apply,hstep,ih]

section Width
variable (hlt : poly<2^(w+1)) (htop : 2^w≤poly)

include hlt in
lemma shift_lt {c : ℕ} (hc : c<2^(w+1)) : shift poly c<2^(w+1) := by
  unfold shift
  split_ifs
  · exact Nat.xor_lt_two_pow (by omega) hlt
  · omega

include hlt htop

/-- The top bit of the polynomial comes in with every one that goes out. -/
lemma shift_iterate_eq_zero (n : ℕ) {c : ℕ} (hc : c<2^(w+1)) (h : (shift poly)^[n] c=0) : c=0 := by
  induction n generalizing c with
  | zero => exact h
  | succ n ih =>
    have hz : shift poly c=0 := ih (shift_lt hlt hc) h
    unfold shift at hz
    split_ifs at hz
    · rw [Nat.xor_eq_zero_iff] at hz
      rw [pow_succ] at hc
      omega
    · omega

lemma shift_iterate_inj (n : ℕ) {a b : ℕ} (ha : a<2^(w+1)) (hb : b<2^(w+1))
    (h : (shift poly)^[n] a=(shift poly)^[n] b) : a=b := by
  rw [← Nat.xor_eq_zero_iff,← shift_iterate_xor] at h
  exact Nat.xor_eq_zero_iff.1 (shift_iterate_eq_zero hlt htop n (Nat.xor_lt_two_pow ha hb) h)

end Width

end FuriOS.Crc
