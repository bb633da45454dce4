import Mathlib.Tactic

/-! One's-complement sums of byte strings, as the checksums of internet packets use them. -/
namespace FuriOS.OnesComplement

/-- The sum of the 16-bit words of a byte string, high bytes first. A last single byte is a high
byte. -/
def wordSum : List UInt8 → ℕ
  | [] => 0
  | [a] => 256*a.toNat
  | a::b::l => 256*a.toNat+b.toNat+wordSum l

lemma wordSum_append {l : List UInt8} (r : List UInt8) (h : l.length%2=0) :
    wordSum (l++r)=wordSum l+wordSum r := by
  fun_induction wordSum l with
  | case1 => simp
  | case2 a => simp at h
  | case3 a b l ih =>
    simp only [List.length_cons] at h
    have hl := ih (by omega)
    simp only [List.cons_append,wordSum]
    omega

lemma wordSum_le (l : List UInt8) : wordSum l≤65535*((l.length+1)/2) := by
  fun_induction wordSum l with
  | case1 => simp
  | case2 a =>
    have := a.toNat_lt
    simp
    omega
  | case3 a b l ih =>
    have ha := a.toNat_lt
    have hb := b.toNat_lt
    simp only [List.length_cons]
    omega

/-- The carries are added until 16 bits are left. -/
def fold16 (n : ℕ) : ℕ := if n<65536 then n else fold16 (n%65536+n/65536)
termination_by n
decreasing_by omega

lemma fold16_lt (n : ℕ) : fold16 n<65536 := by
  fun_induction fold16 n with
  | case1 n h => exact h
  | case2 n h ih => exact ih

lemma fold16_mod (n : ℕ) : fold16 n%65535=n%65535 := by
  fun_induction fold16 n with
  | case1 n h => rfl
  | case2 n h ih => omega

lemma fold16_pos {n : ℕ} (h : 0<n) : 0<fold16 n := by
  fun_induction fold16 n with
  | case1 n hn => exact h
  | case2 n hn ih => exact ih (by omega)

lemma fold16_eq_ones {n : ℕ} (h : 0<n) : fold16 n=65535 ↔ n%65535=0 := by
  have hlt := fold16_lt n
  have hmod := fold16_mod n
  have hpos := fold16_pos h
  omega

lemma add_complement_mod (n : ℕ) : (n+(65535-fold16 n))%65535=0 := by
  have hlt := fold16_lt n
  have hmod := fold16_mod n
  omega

end FuriOS.OnesComplement
