import Mathlib.Tactic

/-! Ring buffers: a fixed array with two positions and a count. Writing takes what fits, reading
takes what is there, and both act on the sequence of bytes between the positions. -/
namespace FuriOS

/-- A ring of `n` cells; `len` cells from `head` on are in use and `tail` is the next free one. -/
structure Ring (α : Type) (n : ℕ) where
  buf : ℕ → α
  head : ℕ
  tail : ℕ
  len : ℕ
  head_lt : head<n
  len_le : len≤n
  tail_eq : tail=(head+len)%n

namespace Ring
variable {α : Type} {n : ℕ}

/-- The ring whose memory is `buf`, with both positions at the start. -/
def reset (hn : 0<n) (buf : ℕ → α) : Ring α n where
  buf := buf
  head := 0
  tail := 0
  len := 0
  head_lt := hn
  len_le := Nat.zero_le n
  tail_eq := (Nat.zero_mod n).symm

def contents (r : Ring α n) : List α := (List.range r.len).map fun i => r.buf ((r.head+i)%n)

def push (r : Ring α n) (a : α) : Ring α n :=
  if h : r.len<n then
    { buf := Function.update r.buf r.tail a
      head := r.head
      tail := (r.tail+1)%n
      len := r.len+1
      head_lt := r.head_lt
      len_le := h
      tail_eq := by rw [r.tail_eq,Nat.mod_add_mod,Nat.add_assoc]}
  else r

def pop (r : Ring α n) : Ring α n :=
  if h : 0<r.len then
    { buf := r.buf
      head := (r.head+1)%n
      tail := r.tail
      len := r.len-1
      head_lt := Nat.mod_lt _ (r.head.zero_le.trans_lt r.head_lt)
      len_le := (Nat.sub_le _ _).trans r.len_le
      tail_eq := by
        rw [r.tail_eq,Nat.mod_add_mod]
        congr 1
        omega}
  else r

/-- Write what fits; the result tells how much that was. -/
def write (r : Ring α n) (bs : List α) : ℕ × Ring α n :=
  (min bs.length (n-r.len),(bs.take (n-r.len)).foldl push r)

/-- Read up to `m` bytes. -/
def read : ℕ → Ring α n → List α × Ring α n
  | 0, r => ([],r)
  | m+1, r => if r.len=0 then ([],r) else (r.buf r.head::(read m r.pop).1,(read m r.pop).2)

@[simp] lemma length_contents (r : Ring α n) : r.contents.length=r.len := by simp [contents]

lemma len_push {r : Ring α n} (h : r.len<n) (a : α) : (r.push a).len=r.len+1 := by
  rw [push,dif_pos h]

lemma cell_ne_tail {r : Ring α n} (h : r.len<n) {i : ℕ} (hi : i<r.len) : (r.head+i)%n≠r.tail := by
  rw [r.tail_eq]
  have hh := r.head_lt
  intro heq
  have hlo := Nat.mod_eq_of_lt hh
  rcases Nat.lt_or_ge (r.head+i) n with h1 | h1 <;> rcases Nat.lt_or_ge (r.head+r.len) n with h2 | h2
  · rw [Nat.mod_eq_of_lt h1,Nat.mod_eq_of_lt h2] at heq
    omega
  · rw [Nat.mod_eq_of_lt h1,Nat.mod_eq_sub_mod h2,Nat.mod_eq_of_lt (by omega)] at heq
    omega
  · omega
  · rw [Nat.mod_eq_sub_mod h1,Nat.mod_eq_sub_mod h2,Nat.mod_eq_of_lt (by omega),
      Nat.mod_eq_of_lt (by omega)] at heq
    omega

lemma contents_push {r : Ring α n} (h : r.len<n) (a : α) : (r.push a).contents=r.contents++[a] := by
  rw [push,dif_pos h]
  simp only [contents,List.range_succ,List.map_append,List.map_cons,List.map_nil]
  congr 1
  · refine List.map_congr_left fun i hi => ?_
    rw [Function.update_of_ne (cell_ne_tail h (List.mem_range.1 hi))]
  · rw [← r.tail_eq,Function.update_self]

lemma contents_pop {r : Ring α n} (h : 0<r.len) : r.contents=r.buf r.head::r.pop.contents := by
  rw [pop,dif_pos h]
  obtain ⟨k,hk⟩ : ∃ k, r.len=k+1 := ⟨r.len-1,by omega⟩
  simp only [contents,hk,List.range_succ_eq_map,List.map_cons,List.map_map,Nat.add_zero,
    Nat.mod_eq_of_lt r.head_lt,Nat.add_sub_cancel]
  congr 1
  refine List.map_congr_left fun i _ => ?_
  simp only [Function.comp]
  rw [Nat.mod_add_mod]
  congr 2
  omega

lemma foldl_push {bs : List α} {r : Ring α n} (h : r.len+bs.length≤n) :
    (bs.foldl push r).contents=r.contents++bs := by
  induction bs generalizing r with
  | nil => simp
  | cons b bs ih =>
    rw [List.length_cons] at h
    have hlt : r.len<n := by omega
    rw [List.foldl_cons,ih (by rw [len_push hlt]; omega),contents_push hlt]
    simp

lemma contents_write (r : Ring α n) (bs : List α) :
    (r.write bs).2.contents=r.contents++bs.take (r.write bs).1 := by
  have hle := r.len_le
  have hfits : r.len+(bs.take (n-r.len)).length≤n := by
    rw [List.length_take]
    omega
  rw [write,foldl_push hfits,Nat.min_comm,← List.take_eq_take_min]

lemma write_le (r : Ring α n) (bs : List α) : (r.write bs).1≤bs.length := Nat.min_le_left _ _

lemma read_eq (m : ℕ) (r : Ring α n) :
    (read m r).1=r.contents.take m ∧ (read m r).2.contents=r.contents.drop m := by
  induction m generalizing r with
  | zero => simp [read]
  | succ m ih =>
    rw [read]
    split_ifs with h
    · have hnil : r.contents=[] := List.length_eq_zero_iff.1 (by simpa using h)
      simp [hnil]
    · rw [contents_pop (Nat.pos_of_ne_zero h)]
      simp [ih r.pop]

end Ring
end FuriOS
