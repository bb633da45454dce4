import Mathlib.Tactic

/-! Stateful code that may give up. A run ends with a value or without one, and in both
cases keeps the state it has reached: a failed call does not undo what it did before. -/
namespace FuriOS

/-- Code over the state `W`; `none` is the failure return of the source function. -/
structure Prog (W α : Type) where
  run : W → Option α × W

namespace Prog
variable {W S α β γ : Type} {c : Bool} {a : α} {ι : Type}

instance : Monad (Prog W) where
  pure a := ⟨fun w => (some a,w)⟩
  bind p f := ⟨fun w => match p.run w with
    | (some a,w') => (f a).run w'
    | (none,w') => (none,w')⟩

/-- Return with failure in the present state. -/
def fail : Prog W α := ⟨fun w => (none,w)⟩

def gets (f : W → α) : Prog W α := ⟨fun w => (some (f w),w)⟩

def modify (f : W → W) : Prog W Unit := ⟨fun w => (some (),f w)⟩

def require (c : Bool) : Prog W Unit := ⟨fun w => if c then (some (),w) else (none,w)⟩

/-- A call whose failure is looked at, not passed on. -/
def attempt (p : Prog W α) : Prog W (Option α) := ⟨fun w => (some (p.run w).1,(p.run w).2)⟩

def ignore (p : Prog W α) : Prog W Unit := ⟨fun w => (some (),(p.run w).2)⟩

/-- A failing call followed by a clean-up before the failure is passed on. -/
def onFail (p : Prog W α) (f : W → W) : Prog W α := ⟨fun w => match p.run w with
  | (some a,w') => (some a,w')
  | (none,w') => (none,f w')⟩

def zoom (get : W → S) (put : S → W → W) (p : Prog S α) : Prog W α := ⟨fun w =>
  ((p.run (get w)).1,put (p.run (get w)).2 w)⟩

/-- An `if` without `else`. -/
def when (c : Bool) (p : Prog W Unit) : Prog W Unit := if c then p else pure ()

/-- A loop over a list; the first failing round ends it. -/
def forEach {ι : Type} (body : ι → Prog W Unit) : List ι → Prog W Unit
  | [] => pure ()
  | i::l => do
    body i
    forEach body l

@[simp] lemma run_pure (a : α) (w : W) : (pure a : Prog W α).run w=(some a,w) := rfl

@[simp] lemma run_bind (p : Prog W α) (f : α → Prog W β) (w : W) :
    (p >>= f).run w=match p.run w with
      | (some a,w') => (f a).run w'
      | (none,w') => (none,w') := rfl

@[simp] lemma run_fail (w : W) : (fail : Prog W α).run w=(none,w) := rfl

@[simp] lemma run_gets (f : W → α) (w : W) : (gets f).run w=(some (f w),w) := rfl

@[simp] lemma run_modify (f : W → W) (w : W) : (modify f).run w=(some (),f w) := rfl

@[simp] lemma run_require_true (w : W) : (require true).run w=(some (),w) := rfl

@[simp] lemma run_require_false (w : W) : (require false).run w=(none,w) := rfl

/-- What the code guarantees: `Q` of a value and the state it is returned in, `E` of the
state of a failure. With `E` false this is total correctness. -/
def wp (p : Prog W α) (Q : α → W → Prop) (E : W → Prop) (w : W) : Prop :=
  match p.run w with
  | (some a,w') => Q a w'
  | (none,w') => E w'

variable {p : Prog W α} {f : α → Prog W β} {Q Q' : α → W → Prop} {R : β → W → Prop}
variable {E E' : W → Prop} {w w' : W}

@[simp] lemma wp_pure (a : α) : wp (pure a) Q E w ↔ Q a w := Iff.rfl

@[simp] lemma wp_fail : wp (fail : Prog W α) Q E w ↔ E w := Iff.rfl

@[simp] lemma wp_gets (g : W → α) : wp (gets g) Q E w ↔ Q (g w) w := Iff.rfl

@[simp] lemma wp_modify (g : W → W) {Q : Unit → W → Prop} :
    wp (modify g) Q E w ↔ Q () (g w) := Iff.rfl

@[simp] lemma wp_bind : wp (p >>= f) R E w ↔ wp p (fun a w' => wp (f a) R E w') E w := by
  unfold wp
  rw [run_bind]
  rcases p.run w with ⟨_ | a,w'⟩ <;> rfl

lemma wp_gets_bind (g : W → α) : wp (gets g >>= f) R E w ↔ wp (f (g w)) R E w := Iff.rfl

lemma wp_modify_bind (g : W → W) {f : Unit → Prog W β} :
    wp (modify g >>= f) R E w ↔ wp (f ()) R E (g w) := Iff.rfl

lemma wp_require {Q : Unit → W → Prop} : wp (require c) Q E w ↔ if c then Q () w else E w := by
  cases c <;> rfl

@[simp] lemma wp_require_true {Q : Unit → W → Prop} : wp (require true) Q E w ↔ Q () w := Iff.rfl

@[simp] lemma wp_require_false {Q : Unit → W → Prop} : wp (require false) Q E w ↔ E w := Iff.rfl

lemma wp_require_bind {f : Unit → Prog W β} (ht : c=true → wp (f ()) R E w)
    (hf : c=false → E w) : wp (require c >>= f) R E w := by
  rw [wp_bind,wp_require]
  cases c with
  | true => exact ht rfl
  | false => exact hf rfl

lemma wp_require_of {f : Unit → Prog W β} (hE : E w) (ht : c=true → wp (f ()) R E w) :
    wp (require c >>= f) R E w := wp_require_bind ht fun _ => hE

lemma wp_when {p : Prog W Unit} {Q : Unit → W → Prop} (ht : c=true → wp p Q E w)
    (hf : c=false → Q () w) : wp (when c p) Q E w := by
  cases c with
  | true => exact ht rfl
  | false => exact hf rfl

@[simp] lemma wp_attempt {Q : Option α → W → Prop} :
    wp (attempt p) Q E w ↔ wp p (fun a w' => Q (some a) w') (fun w' => Q none w') w := by
  simp only [wp,attempt]
  rcases p.run w with ⟨_ | a,w'⟩ <;> rfl

@[simp] lemma wp_ignore {Q : Unit → W → Prop} : wp (ignore p) Q E w ↔ Q () (p.run w).2 := Iff.rfl

@[simp] lemma wp_onFail {g : W → W} : wp (onFail p g) Q E w ↔ wp p Q (fun w' => E (g w')) w := by
  simp only [wp,onFail]
  rcases p.run w with ⟨_ | a,w'⟩ <;> rfl

@[simp] lemma wp_zoom {get : W → S} {put : S → W → W} {q : Prog S α} : wp (zoom get put q) Q E w ↔
      wp q (fun a s => Q a (put s w)) (fun s => E (put s w)) (get w) := by
  simp only [wp,zoom]
  rcases q.run (get w) with ⟨_ | a,s⟩ <;> rfl

lemma wp_mono (h : wp p Q E w) (hQ : ∀ a w', Q a w' → Q' a w') (hE : ∀ w', E w' → E' w') :
    wp p Q' E' w := by
  unfold wp at h ⊢
  rcases hp : p.run w with ⟨_ | a,w'⟩ <;> rw [hp] at h
  · exact hE _ h
  · exact hQ _ _ h

lemma wp_trivial : wp p (fun _ _ => True) (fun _ => True) w := by
  unfold wp
  split <;> trivial

lemma wp_imp (h : wp p Q E w) (hQ : ∀ a w', Q a w' → Q' a w') : wp p Q' E w :=
  wp_mono h hQ fun _ hE => hE

lemma wp_and (h : wp p Q E w) (h' : wp p Q' E' w) :
    wp p (fun a w' => Q a w' ∧ Q' a w') (fun w' => E w' ∧ E' w') w := by
  unfold wp at h h' ⊢
  rcases hp : p.run w with ⟨_ | a,w'⟩ <;> rw [hp] at h h' <;> exact ⟨h,h'⟩

lemma wp_some (h : wp p Q E w) (hr : p.run w=(some a,w')) : Q a w' := by
  unfold wp at h
  rwa [hr] at h

lemma wp_none (h : wp p Q E w) (hr : p.run w=(none,w')) : E w' := by
  unfold wp at h
  rwa [hr] at h

lemma wp_total (h : wp p Q (fun _ => False) w) : ∃ a w', p.run w=(some a,w') ∧ Q a w' := by
  unfold wp at h
  rcases hp : p.run w with ⟨_ | a,w'⟩
  · rw [hp] at h; exact h.elim
  · rw [hp] at h; exact ⟨a,w',rfl,h⟩

lemma run_bind_eq_some {b : β} : (p >>= f).run w=(some b,w') ↔
    ∃ a w1, p.run w=(some a,w1) ∧ (f a).run w1=(some b,w') := by
  rw [run_bind]
  rcases p.run w with ⟨_ | a,w1⟩
  · simp
  · constructor
    · exact fun h => ⟨a,w1,rfl,h⟩
    · rintro ⟨a',w1',hp,h⟩
      obtain ⟨ha,rfl⟩ := Prod.mk.inj hp
      rwa [Option.some.inj ha]

lemma run_require_eq_some {u : Unit} : (require c).run w=(some u,w') ↔ c=true ∧ w=w' := by
  cases c <;> simp [require]

lemma run_of_fst (h : (p.run w).1=some a) : p.run w=(some a,(p.run w).2) :=
  Prod.ext h rfl

lemma wp_of_run (hr : p.run w=(some a,w')) (hQ : Q a w') : wp p Q E w := by
  unfold wp
  rwa [hr]

lemma wp_forEach {body : ι → Prog W Unit} (I : List ι → W → Prop)
    (step : ∀ i l w, I (i::l) w → wp (body i) (fun _ => I l) E w) :
    ∀ l w, I l w → wp (forEach body l) (fun _ => I []) E w
  | [], _, h => h
  | i::l, w, h => by
    rw [forEach,wp_bind]
    exact wp_imp (step i l w h) fun _ w' h' => wp_forEach I step l w' h'

lemma wp_forEach_foldl {body : ι → Prog W Unit} {g : W → γ} {f : γ → ι → γ}
    (h : ∀ i w, wp (body i) (fun _ w' => g w'=f (g w) i) E w) (l : List ι) :
    wp (forEach body l) (fun _ w' => g w'=l.foldl f (g w)) E w := by
  refine wp_imp (wp_forEach (fun l' w' => l'.foldl f (g w')=l.foldl f (g w)) ?_ l w rfl) fun _ _ h' => h'
  intro i l' w' hw
  refine wp_imp (h i w') fun _ w'' hi => ?_
  rw [hi]
  exact hw

/-- The state in which the code ends, with a value or without one, satisfies `J`. -/
def Ends (J : W → Prop) (p : Prog W α) (w : W) : Prop := J (p.run w).2

namespace Ends
variable {J I : W → Prop} {h : W → W}

lemma of_wp (h : p.wp (fun _ => J) J w) : Ends J p w := by
  unfold wp at h
  unfold Ends
  rcases hr : p.run w with ⟨_ | a,w'⟩ <;> rw [hr] at h <;> exact h

lemma wp (h : Ends J p w) : p.wp (fun _ => J) J w := by
  unfold Ends at h
  unfold Prog.wp
  rcases hr : p.run w with ⟨_ | a,w'⟩ <;> rw [hr] at h <;> exact h

lemma of_pure (hw : J w) : Ends J (pure a : Prog W α) w := hw

lemma of_modify (hw : J (h w)) : Ends J (Prog.modify h) w := hw

lemma bind (hp : Ends I p w) (hJ : ∀ w', I w' → J w') (hf : ∀ a w', I w' → Ends J (f a) w') :
    Ends J (p >>= f) w := by
  unfold Ends at hp ⊢
  rw [run_bind]
  rcases hr : p.run w with ⟨_ | a,w'⟩ <;> rw [hr] at hp
  · exact hJ w' hp
  · exact hf a w' hp

lemma onFail {g : W → W} (hp : Ends J p w) (hg : ∀ w, J w → J (g w)) : Ends J (p.onFail g) w := by
  unfold Ends at hp ⊢
  rw [Prog.onFail]
  rcases hr : p.run w with ⟨_ | a,w'⟩ <;> rw [hr] at hp <;> simp only [hr]
  · exact hg w' hp
  · exact hp

lemma modify_bind {f : Unit → Prog W β} (hf : Ends J (f ()) (h w)) :
    Ends J (Prog.modify h >>= f) w := hf

lemma gets_bind {g : W → α} (hf : Ends J (f (g w)) w) : Ends J (gets g >>= f) w := hf

lemma when {p : Prog W Unit} (ht : c=true → Ends J p w) (hf : c=false → J w) :
    Ends J (Prog.when c p) w := by
  cases c with
  | true => exact ht rfl
  | false => exact hf rfl

end Ends

/-- Code that leaves a part of the state as it is, whether it fails or not. -/
def Keeps (g : W → γ) (p : Prog W α) : Prop := ∀ w, g (p.run w).2=g w

namespace Keeps
variable {g : W → γ} {h : W → W}

lemma ends (h : Keeps g p) (w : W) : Ends (fun w' => g w'=g w) p w := h w

lemma of_pure (a : α) : Keeps g (pure a : Prog W α) := fun _ => rfl

lemma of_fail : Keeps g (fail : Prog W α) := fun _ => rfl

lemma of_gets (h : W → α) : Keeps g (gets h) := fun _ => rfl

lemma of_require (c : Bool) : Keeps g (require c) := by
  intro w
  cases c <;> rfl

lemma of_modify (hg : ∀ w, g (h w)=g w) : Keeps g (modify h) := hg

lemma bind (hp : Keeps g p) (hf : ∀ a, Keeps g (f a)) : Keeps g (p >>= f) := fun w =>
  (hp.ends w).bind (fun _ h => h) fun a w' h => (hf a w').trans h

lemma onFail (hp : Keeps g p) (hg : ∀ w, g (h w)=g w) : Keeps g (p.onFail h) := fun w =>
  (hp.ends w).onFail fun w' hw => (hg w').trans hw

lemma of_zoom {get : W → S} {put : S → W → W} (q : Prog S α) (hg : ∀ s w, g (put s w)=g w) :
    Keeps g (zoom get put q) := fun w => hg _ w

lemma ite {c : Prop} [Decidable c] {q : Prog W α} (hp : Keeps g p) (hq : Keeps g q) :
    Keeps g (if c then p else q) := by
  by_cases h : c
  · rwa [if_pos h]
  · rwa [if_neg h]

lemma forEach {body : ι → Prog W Unit} (h : ∀ i, Keeps g (body i)) : ∀ l, Keeps g (forEach body l)
  | [] => of_pure ()
  | i::l => (h i).bind fun _ => forEach h l

lemma wp (h : Keeps g p) : p.wp (fun _ w' => g w'=g w) (fun w' => g w'=g w) w := (h.ends w).wp

lemma gets {k : W → α} (hf : ∀ a, Keeps g (f a)) : Keeps g (gets k >>= f) := bind (of_gets k) hf

lemma require {f : Unit → Prog W β} (hf : ∀ u, Keeps g (f u)) : Keeps g (require c >>= f) :=
  bind (of_require c) hf

end Keeps

/-- Code that keeps a property of the state, whether it fails or not. -/
def Preserves (I : W → Prop) (p : Prog W α) : Prop := ∀ w, I w → I (p.run w).2

namespace Preserves
variable {I : W → Prop} {g : W → W} {body : ι → Prog W Unit}

lemma of_ends (h : ∀ w, I w → Ends I p w) : Preserves I p := h

lemma of_wp (h : ∀ w, I w → p.wp (fun _ => I) I w) : Preserves I p := fun w hw => Ends.of_wp (h w hw)

lemma wp (h : Preserves I p) (hw : I w) : p.wp (fun _ => I) I w := Ends.wp (h w hw)

lemma of_keeps {g : W → γ} {P : γ → Prop} (h : Keeps g p) :
    Preserves (fun w => P (g w)) p := by
  intro w hw
  rw [h w]
  exact hw

lemma of_pure (a : α) : Preserves I (pure a : Prog W α) := fun _ h => h

lemma of_fail : Preserves I (fail : Prog W α) := fun _ h => h

lemma of_gets (g : W → α) : Preserves I (gets g) := fun _ h => h

lemma of_require (c : Bool) : Preserves I (require c) := by
  intro w h
  cases c <;> exact h

lemma of_modify (h : ∀ w, I w → I (g w)) : Preserves I (modify g) := h

lemma bind (hp : Preserves I p) (hf : ∀ a, Preserves I (f a)) : Preserves I (p >>= f) := fun w hw =>
  Ends.bind (hp w hw) (fun _ h => h) hf

lemma gets_bind {g : W → α} (h : ∀ w, I w → I ((f (g w)).run w).2) : Preserves I (gets g >>= f) := h

lemma attempt (hp : Preserves I p) : Preserves I p.attempt := hp

lemma ignore (hp : Preserves I p) : Preserves I p.ignore := hp

lemma onFail (hp : Preserves I p) (hg : ∀ w, I w → I (g w)) : Preserves I (p.onFail g) := fun w hw =>
  Ends.onFail (hp w hw) hg

lemma when {p : Prog W Unit} (h : c=true → Preserves I p) : Preserves I (Prog.when c p) := by
  cases c with
  | true => exact h rfl
  | false => exact of_pure ()

lemma ite {c : Prop} [Decidable c] {q : Prog W α} (hp : c → Preserves I p)
    (hq : ¬c → Preserves I q) : Preserves I (if c then p else q) := by
  by_cases h : c
  · rw [if_pos h]
    exact hp h
  · rw [if_neg h]
    exact hq h

lemma forEach_mem : ∀ l : List ι, (∀ i∈l, Preserves I (body i)) → Preserves I (Prog.forEach body l)
  | [], _ => of_pure ()
  | i::l, h => (h i List.mem_cons_self).bind fun _ =>
      forEach_mem l fun j hj => h j (List.mem_cons_of_mem i hj)

lemma forEach (h : ∀ i, Preserves I (body i)) (l : List ι) :
    Preserves I (Prog.forEach body l) := forEach_mem l fun i _ => h i

lemma of_zoom {get : W → S} {put : S → W → W} (q : Prog S α) (h : ∀ s w, I w → I (put s w)) :
    Preserves I (zoom get put q) := fun w => h _ w

lemma of_some (h : Preserves I p) (hr : p.run w=(some a,w')) (hw : I w) : I w' := by
  have := h w hw
  rwa [hr] at this

lemma require {f : Unit → Prog W β} (h : c=true → Preserves I (f ())) : Preserves I (require c >>= f) :=
  of_wp fun _ hw => wp_require_bind (fun hc => (h hc).wp hw) fun _ => hw

lemma gets {g : W → α} (h : ∀ a, Preserves I (f a)) : Preserves I (gets g >>= f) := bind (of_gets g) h

end Preserves

lemma Ends.of_preserves {I : W → Prop} (h : Preserves I p) (hw : I w) : Ends I p w := h w hw

lemma Keeps.of_preserves {g : W → γ} (h : ∀ v, Preserves (fun w => g w=v) p) : Keeps g p :=
  fun w => h _ w rfl

def Total (p : Prog W α) : Prop := ∀ w, ∃ a, (p.run w).1=some a

namespace Total

lemma of_pure (a : α) : Total (pure a : Prog W α) := fun _ => ⟨a,rfl⟩

lemma of_gets (g : W → α) : Total (gets g) := fun w => ⟨g w,rfl⟩

lemma of_modify (g : W → W) : Total (modify g) := fun _ => ⟨(),rfl⟩

lemma of_ignore (p : Prog W α) : Total p.ignore := fun _ => ⟨(),rfl⟩

lemma bind (hp : Total p) (hf : ∀ a, Total (f a)) : Total (p >>= f) := by
  intro w
  obtain ⟨a,ha⟩ := hp w
  rw [run_bind]
  rcases hr : p.run w with ⟨r,w'⟩
  rw [hr] at ha
  simp only at ha
  subst ha
  exact hf a w'

lemma when {p : Prog W Unit} (h : Total p) : Total (Prog.when c p) := by
  cases c with
  | true => exact h
  | false => exact of_pure ()

lemma ite {c : Prop} [Decidable c] {q : Prog W α} (hp : Total p) (hq : Total q) :
    Total (if c then p else q) := by
  by_cases h : c
  · rwa [if_pos h]
  · rwa [if_neg h]

lemma forEach {body : ι → Prog W Unit} (h : ∀ i, Total (body i)) : ∀ l, Total (forEach body l)
  | [] => of_pure ()
  | i::l => (h i).bind fun _ => forEach h l

lemma wp_ends {J : W → Prop} (h : Total p) (hJ : Ends J p w) : p.wp (fun _ => J) E w := by
  obtain ⟨a,ha⟩ := h w
  unfold Ends at hJ
  unfold Prog.wp
  rcases hr : p.run w with ⟨_ | b,w'⟩ <;> rw [hr] at ha hJ
  · cases ha
  · exact hJ

lemma wp_keeps {g : W → γ} (h : Total p) (hg : Keeps g p) :
    p.wp (fun _ w' => g w'=g w) E w := h.wp_ends (hg.ends w)

lemma wp {I : W → Prop} (h : Total p) (hI : Preserves I p) (hw : I w) :
    p.wp (fun _ => I) E w := h.wp_ends (hI w hw)

lemma gets {g : W → α} (h : ∀ a, Total (f a)) : Total (gets g >>= f) := bind (of_gets g) h

end Total

-- A loop over a long list is never unfolded, only used through its rules.
attribute [irreducible] forEach

end Prog
end FuriOS
