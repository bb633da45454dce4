import FuriOS.Lib.Prog
import FuriOS.Lib.Bytes

/-! Code that only reads: a tree whose inner nodes ask for a range of bytes and go on with what
they get. The same code is run by a program that does the reads, and evaluated on an array. -/
namespace FuriOS

/-- A computation over byte ranges that are read one after another; `stop` is a failure. -/
inductive Scan (α : Type)
  | done (a : α)
  | stop
  | read (off len : ℕ) (next : Buf → Scan α)

namespace Scan
variable {W α β : Type}

def bind : Scan α → (α → Scan β) → Scan β
  | done a,f => f a
  | stop,_ => stop
  | read off len next,f => read off len fun b => (next b).bind f

instance : Monad Scan where
  pure := done
  bind := bind

def require (c : Bool) : Scan Unit := if c then done () else stop

/-- The result of a pure step that may refuse. -/
def ofOption : Option α → Scan α
  | some a => done a
  | none => stop

def eval (v : Buf) : Scan α → Option α
  | done a => some a
  | stop => none
  | read off len next => eval v (next (v.slice off len))

/-- The ranges that are read on a given array. -/
def reads (v : Buf) : Scan α → List (ℕ × ℕ)
  | done _ => []
  | stop => []
  | read off len next => (off,len)::reads v (next (v.slice off len))

/-- The code with `rd` doing the reads. -/
def exec (rd : ℕ → ℕ → Prog W Buf) : Scan α → Prog W α
  | done a => pure a
  | stop => .fail
  | read off len next => do
    let b ← rd off len
    exec rd (next b)

@[simp] lemma eval_pure (v : Buf) (a : α) : eval v (pure a : Scan α)=some a := rfl

@[simp] lemma eval_done (v : Buf) (a : α) : eval v (done a)=some a := rfl

@[simp] lemma eval_stop (v : Buf) : eval v (stop : Scan α)=none := rfl

@[simp] lemma eval_bind (v : Buf) (s : Scan α) (f : α → Scan β) :
    eval v (s >>= f)=(eval v s).bind fun a => eval v (f a) := by
  change eval v (s.bind f)=_
  induction s with
  | done a => rfl
  | stop => rfl
  | read off len next ih => exact ih _

@[simp] lemma eval_require (v : Buf) (c : Bool) :
    eval v (require c)=if c then some () else none := by
  cases c <;> rfl

@[simp] lemma eval_ofOption (v : Buf) (o : Option α) : eval v (ofOption o)=o := by
  cases o <;> rfl

lemma slice_congr {v v' : Buf} {off len : ℕ} (h : Buf.Agree v v' off len) :
    v'.slice off len=v.slice off len := by
  funext i
  simp only [Buf.slice]
  split_ifs with hi
  · exact (h (off+i) (by omega) (by omega)).symm
  · rfl

lemma eval_congr {v v' : Buf} (s : Scan α) (h : ∀ r∈s.reads v, Buf.Agree v v' r.1 r.2) :
    s.eval v'=s.eval v ∧ s.reads v'=s.reads v := by
  induction s with
  | done a => exact ⟨rfl,rfl⟩
  | stop => exact ⟨rfl,rfl⟩
  | read off len next ih =>
    simp only [reads,List.mem_cons,forall_eq_or_imp] at h
    obtain ⟨h1,h2⟩ := ih _ h.2
    simp only [eval,reads,slice_congr h.1]
    exact ⟨h1,by rw [h2]⟩

/-- All the ranges that are read are of the kind `R`, and the result satisfies `Q`. -/
structure Ensures (R : ℕ × ℕ → Prop) (v : Buf) (s : Scan α) (Q : α → Prop) : Prop where
  reads : ∀ r∈s.reads v, R r
  result : ∀ a, s.eval v=some a → Q a

section Ensures
variable {R : ℕ × ℕ → Prop} {v : Buf} {s : Scan α} {f : α → Scan β} {P Q : α → Prop} {S : β → Prop}

lemma ensures_pure {a : α} (h : Q a) : (pure a : Scan α).Ensures R v Q :=
  ⟨fun _ h => (List.not_mem_nil h).elim,fun b hb => by rwa [← Option.some.inj hb]⟩

lemma ensures_stop : (stop : Scan α).Ensures R v Q :=
  ⟨fun _ h => (List.not_mem_nil h).elim,fun _ h => by cases h⟩

lemma ensures_require (c : Bool) : (require c).Ensures R v fun _ => c=true := by
  cases c with
  | true => exact ensures_pure rfl
  | false => exact ensures_stop

lemma ensures_ofOption (o : Option α) : (ofOption o).Ensures R v fun a => o=some a := by
  cases o with
  | some a => exact ensures_pure rfl
  | none => exact ensures_stop

lemma Ensures.mono (h : s.Ensures R v P) (hPQ : ∀ a, P a → Q a) : s.Ensures R v Q :=
  ⟨h.reads,fun a ha => hPQ a (h.result a ha)⟩

lemma Ensures.bind (h : s.Ensures R v P) (hf : ∀ a, P a → (f a).Ensures R v S) :
    (s >>= f).Ensures R v S := by
  change (s.bind f).Ensures R v S
  induction s with
  | done a => exact hf a (h.result a rfl)
  | stop => exact ensures_stop
  | read off len next ih =>
    have hnext := ih (v.slice off len) ⟨fun r hr => h.reads r (List.mem_cons_of_mem _ hr),h.result⟩
    refine ⟨?_,hnext.result⟩
    intro r hr
    rcases List.mem_cons.1 hr with rfl | hr
    · exact h.reads _ List.mem_cons_self
    · exact hnext.reads r hr

end Ensures

/-- A run gives the result on the array that the reads return. `P` is what the reads keep, `B`
why one may fail. -/
lemma wp_exec {rd : ℕ → ℕ → Prog W Buf} {v : Buf} {P : W → Prop} {B : Prop} (s : Scan α)
    (hrd : ∀ w, P w → ∀ r∈s.reads v, (rd r.1 r.2).wp
      (fun b w' => P w' ∧ b=v.slice r.1 r.2) (fun w' => P w' ∧ B) w) {w : W} (hw : P w) :
    (s.exec rd).wp (fun a w' => P w' ∧ s.eval v=some a)
      (fun w' => P w' ∧ (s.eval v=none ∨ B)) w := by
  induction s generalizing w with
  | done a => exact ⟨hw,rfl⟩
  | stop => exact ⟨hw,.inl rfl⟩
  | read off len next ih =>
    simp only [exec,Prog.wp_bind]
    refine Prog.wp_mono (hrd w hw (off,len) (by simp [reads])) ?_ ?_
    · rintro b w' ⟨hw',rfl⟩
      refine ih _ (fun w1 h1 r hr => hrd w1 h1 r ?_) hw'
      simp only [reads,List.mem_cons]
      exact .inr hr
    · rintro w' ⟨hw',hB⟩
      exact ⟨hw',.inr hB⟩

end Scan
end FuriOS
