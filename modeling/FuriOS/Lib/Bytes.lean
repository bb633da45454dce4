import Mathlib.Tactic

/-! Byte buffers with the fixed-width big- and little-endian fields of on-disk formats.
A buffer is the function from byte offsets to bytes; the code that uses it keeps to its length. -/
namespace FuriOS

/-- A byte buffer. -/
abbrev Buf := ℕ → UInt8

abbrev Bytes := List UInt8

namespace Buf

/-- `n` bytes of `src`, taken from `from_` on, copied to `dst`. -/
def copy (p : Buf) (dst : ℕ) (src : Buf) (from_ n : ℕ) : Buf := fun i =>
  if dst ≤ i ∧ i<dst+n then src (from_+(i-dst)) else p i

/-- `n` bytes set to one value. -/
def fill (p : Buf) (dst : ℕ) (b : UInt8) (n : ℕ) : Buf := fun i =>
  if dst ≤ i ∧ i<dst+n then b else p i

def zero : Buf := fun _ => 0

/-- `n` bytes from `off` on, as a buffer of their own. -/
def slice (p : Buf) (off n : ℕ) : Buf := fun i => if i<n then p (off+i) else 0

def rdBe16 (p : Buf) (off : ℕ) : ℕ := (p off).toNat*2^8 + (p (off+1)).toNat

def rdBe32 (p : Buf) (off : ℕ) : ℕ :=
  (p off).toNat*2^24 + (p (off+1)).toNat*2^16 + (p (off+2)).toNat*2^8 + (p (off+3)).toNat

def rdLe16 (p : Buf) (off : ℕ) : ℕ := (p off).toNat + (p (off+1)).toNat*2^8

def rdLe32 (p : Buf) (off : ℕ) : ℕ :=
  (p off).toNat + (p (off+1)).toNat*2^8 + (p (off+2)).toNat*2^16 + (p (off+3)).toNat*2^24

def rdLe64 (p : Buf) (off : ℕ) : ℕ := rdLe32 p off + rdLe32 p (off+4)*2^32

def wrBe16 (p : Buf) (off v : ℕ) : Buf := fun i =>
  if i=off then UInt8.ofNat (v/2^8) else if i=off+1 then UInt8.ofNat v else p i

def wrBe32 (p : Buf) (off v : ℕ) : Buf := fun i =>
  if i=off then UInt8.ofNat (v/2^24) else if i=off+1 then UInt8.ofNat (v/2^16)
  else if i=off+2 then UInt8.ofNat (v/2^8) else if i=off+3 then UInt8.ofNat v else p i

def wrLe16 (p : Buf) (off v : ℕ) : Buf := fun i =>
  if i=off then UInt8.ofNat v else if i=off+1 then UInt8.ofNat (v/2^8) else p i

def wrLe32 (p : Buf) (off v : ℕ) : Buf := fun i =>
  if i=off then UInt8.ofNat v else if i=off+1 then UInt8.ofNat (v/2^8)
  else if i=off+2 then UInt8.ofNat (v/2^16) else if i=off+3 then UInt8.ofNat (v/2^24) else p i

def wrLe64 (p : Buf) (off v : ℕ) : Buf := wrLe32 (wrLe32 p off v) (off+4) (v/2^32)

variable {p q : Buf} {off off' i v n : ℕ}

/-- Two buffers agree on the `n` bytes from `off` on. -/
def Agree (p q : Buf) (off n : ℕ) : Prop := ∀ i, off ≤ i → i<off+n → p i=q i

lemma rdBe16_congr (h : Agree p q off 2) : rdBe16 p off=rdBe16 q off := by
  simp only [rdBe16, h off (by omega) (by omega), h (off+1) (by omega) (by omega)]

lemma rdBe32_congr (h : Agree p q off 4) : rdBe32 p off=rdBe32 q off := by
  simp only [rdBe32, h off (by omega) (by omega), h (off+1) (by omega) (by omega),
    h (off+2) (by omega) (by omega), h (off+3) (by omega) (by omega)]

lemma rdLe32_congr (h : Agree p q off 4) : rdLe32 p off=rdLe32 q off := by
  simp only [rdLe32, h off (by omega) (by omega), h (off+1) (by omega) (by omega),
    h (off+2) (by omega) (by omega), h (off+3) (by omega) (by omega)]

lemma rdLe32_lt (p : Buf) (off : ℕ) : rdLe32 p off<2^32 := by
  have := (p off).toNat_lt
  have := (p (off+1)).toNat_lt
  have := (p (off+2)).toNat_lt
  have := (p (off+3)).toNat_lt
  simp only [rdLe32]
  omega

@[simp] lemma rdBe16_wrBe16 (p : Buf) (off v : ℕ) : rdBe16 (wrBe16 p off v) off=v%2^16 := by
  simp [rdBe16, wrBe16]
  omega

@[simp] lemma rdBe32_wrBe32 (p : Buf) (off v : ℕ) : rdBe32 (wrBe32 p off v) off=v%2^32 := by
  simp [rdBe32, wrBe32]
  omega

@[simp] lemma rdLe32_wrLe32 (p : Buf) (off v : ℕ) : rdLe32 (wrLe32 p off v) off=v%2^32 := by
  simp [rdLe32, wrLe32]
  omega

lemma wrBe16_of_outside (h : i<off ∨ off+2 ≤ i) : wrBe16 p off v i=p i := by
  simp only [wrBe16]
  rw [if_neg (by omega), if_neg (by omega)]

lemma wrBe32_of_outside (h : i<off ∨ off+4 ≤ i) : wrBe32 p off v i=p i := by
  simp only [wrBe32]
  rw [if_neg (by omega), if_neg (by omega), if_neg (by omega), if_neg (by omega)]

lemma wrLe32_of_outside (h : i<off ∨ off+4 ≤ i) : wrLe32 p off v i=p i := by
  simp only [wrLe32]
  rw [if_neg (by omega), if_neg (by omega), if_neg (by omega), if_neg (by omega)]

lemma rdLe64_congr (h : Agree p q off 8) : rdLe64 p off=rdLe64 q off := by
  rw [rdLe64,rdLe64,rdLe32_congr (fun i h1 h2 => h i h1 (by omega)),
    rdLe32_congr (p := p) (q := q) (fun i h1 h2 => h i (by omega) (by omega))]

lemma rdLe64_lt (p : Buf) (off : ℕ) : rdLe64 p off<2^64 := by
  have := rdLe32_lt p off
  have := rdLe32_lt p (off+4)
  rw [rdLe64]
  omega

lemma wrLe64_of_outside (h : i<off ∨ off+8 ≤ i) : wrLe64 p off v i=p i := by
  rw [wrLe64,wrLe32_of_outside (by omega),wrLe32_of_outside (by omega)]

@[simp] lemma rdLe64_wrLe64 (p : Buf) (off v : ℕ) : rdLe64 (wrLe64 p off v) off=v%2^64 := by
  have hlow : rdLe32 (wrLe64 p off v) off=v%2^32 := by
    rw [← rdLe32_wrLe32 p off v]
    exact rdLe32_congr fun i _ _ => wrLe32_of_outside (by omega)
  have hhigh : rdLe32 (wrLe64 p off v) (off+4)=v/2^32%2^32 := rdLe32_wrLe32 _ _ _
  rw [rdLe64,hlow,hhigh]
  omega

lemma copy_zero (p : Buf) (dst : ℕ) (src : Buf) (a : ℕ) : p.copy dst src a 0=p := by
  funext i
  simp only [copy]
  rw [if_neg (by omega)]

lemma copy_copy (p : Buf) (dst : ℕ) (src : Buf) (a n m : ℕ) :
    (p.copy dst src a n).copy (dst+n) src (a+n) m=p.copy dst src a (n+m) := by
  funext i
  simp only [copy]
  by_cases h : dst+n ≤ i ∧ i<dst+n+m
  · rw [if_pos h,if_pos (by omega)]
    congr 1
    omega
  · rw [if_neg h]
    by_cases h' : dst ≤ i ∧ i<dst+n
    · rw [if_pos h',if_pos (by omega)]
    · rw [if_neg h',if_neg (by omega)]

lemma copy_of_inside (h : off ≤ i ∧ i<off+n) {src : Buf} {a : ℕ} :
    p.copy off src a n i=src (a+(i-off)) := if_pos h

lemma copy_of_outside (h : i<off ∨ off+n ≤ i) {src : Buf} {a : ℕ} :
    p.copy off src a n i=p i := if_neg (by omega)

end Buf
end FuriOS
