import Mathlib.Tactic

/-! Programs that call out and may be re-entered. A program changes its state in atomic steps and
calls out to an environment; while such a call lasts, the environment may run other handlers of the
same state, which may call out in turn. A program is proved against a contract: an invariant at
every call, a relation that the handlers run during a call keep, and a relation that every atomic
step satisfies. -/
namespace FuriOS.Reentrant

/-- A program over the states `W` with the calls `E`: it ends with a result, takes an atomic step
and goes on from the new state, or calls out and goes on with the answer. -/
inductive Act (W E α : Type) where
  | ret (a : α)
  | step (f : W → W) (k : W → Act W E α)
  | call (e : E) (k : Bool → Act W E α)

namespace Act
variable {W S E D α β : Type}

def bind : Act W E α → (α → Act W E β) → Act W E β
  | ret a, f => f a
  | step g k, f => step g fun w => (k w).bind f
  | call e k, f => call e fun b => (k b).bind f

instance : Monad (Act W E) where
  pure := ret
  bind := bind

def modify (f : W → W) : Act W E Unit := step f fun _ => ret ()

def gets (g : W → α) : Act W E α := step id fun w => ret (g w)

def callOut (e : E) : Act W E Bool := call e ret

/-- An `if` without `else`. -/
def when (c : Bool) (p : Act W E Unit) : Act W E Unit := if c then p else pure ()

/-- A program over a part of the state, with its calls renamed. -/
def zoom (get : W → S) (put : S → W → W) (tag : D → E) : Act S D α → Act W E α
  | ret a => ret a
  | step f k => step (fun w => put (f (get w)) w) fun w => (k (get w)).zoom get put tag
  | call d k => call (tag d) fun b => (k b).zoom get put tag

/-- The calls of a program that gets the answers of `answer`, and its result; `during` is what
happens to the state while a call lasts. -/
def trace (answer : E → Bool) (during : E → W → W) : Act W E α → W → List E × α
  | ret a, _ => ([],a)
  | step f k, w => (k (f w)).trace answer during (f w)
  | call e k, w =>
    let r := (k (answer e)).trace answer during (during e w)
    (e::r.1,r.2)

section Trace
variable {answer : E → Bool} {during : E → W → W} {w : W}

lemma bind_assoc {γ : Type} (p : Act W E α) (f : α → Act W E β) (g : β → Act W E γ) :
    (p >>= f) >>= g=p >>= fun a => f a >>= g := by
  induction p with
  | ret a => rfl
  | step h k ih => exact congrArg (step h) (funext ih)
  | call e k ih => exact congrArg (call e) (funext ih)

@[simp] lemma trace_pure (a : α) : (pure a : Act W E α).trace answer during w=([],a) := rfl

@[simp] lemma pure_bind (a : α) (f : α → Act W E β) : (pure a >>= f)=f a := rfl

@[simp] lemma trace_gets {f : β → Act W E α} (g : W → β) :
    (gets g >>= f).trace answer during w=(f (g w)).trace answer during w := rfl

@[simp] lemma trace_modify {f : Unit → Act W E α} (g : W → W) :
    (modify g >>= f).trace answer during w=(f ()).trace answer during (g w) := rfl

@[simp] lemma trace_callOut {f : Bool → Act W E α} (e : E) :
    (callOut e >>= f).trace answer during w=
      (e::((f (answer e)).trace answer during (during e w)).1,
        ((f (answer e)).trace answer during (during e w)).2) := rfl

end Trace

end Act

/-- The environment: what a call does with its answer, the handlers, and which handlers may start
while the given calls are under way, the latest first. -/
structure World (W E V : Type) where
  emit : E → Bool → W → W
  handler : V → Act W E Unit
  enabled : List (E × Bool) → W → V → Prop

/-- A call that has not returned, and the rest of its program. -/
structure Frame (W E : Type) where
  call : E × Bool
  rest : Act W E Unit

/-- A state of the system: the running program, if any, and the calls under way. -/
structure Config (W E : Type) where
  state : W
  running : Option (Act W E Unit)
  frames : List (Frame W E)

section Runs
variable {W E V : Type}

/-- The atomic steps of the system. -/
inductive Step (M : World W E V) : Config W E → Config W E → Prop
  | step {w : W} {f : W → W} {k : W → Act W E Unit} {fs : List (Frame W E)} :
      Step M ⟨w,some (.step f k),fs⟩ ⟨f w,some (k (f w)),fs⟩
  | call {w : W} {e : E} {k : Bool → Act W E Unit} {fs : List (Frame W E)} (b : Bool) :
      Step M ⟨w,some (.call e k),fs⟩ ⟨M.emit e b w,none,⟨(e,b),k b⟩::fs⟩
  | ret {w : W} {fs : List (Frame W E)} : Step M ⟨w,some (.ret ()),fs⟩ ⟨w,none,fs⟩
  | start {w : W} {fs : List (Frame W E)} (v : V) (h : M.enabled (fs.map Frame.call) w v) :
      Step M ⟨w,none,fs⟩ ⟨w,some (M.handler v),fs⟩
  | resume {w : W} {fr : Frame W E} {fs : List (Frame W E)} :
      Step M ⟨w,none,fr::fs⟩ ⟨w,some fr.rest,fs⟩

def Reaches (M : World W E V) (w : W) (c : Config W E) : Prop :=
  Relation.ReflTransGen (Step M) ⟨w,none,[]⟩ c

end Runs

/-- The contract: `inv` holds whenever no handler runs, with the given calls under way, `rely`
relates the states before and after what runs during the given calls, and `guar` holds of every
atomic step. -/
structure Spec (W E : Type) where
  inv : List (E × Bool) → W → Prop
  rely : List (E × Bool) → W → W → Prop
  guar : W → W → Prop

/-- What handlers do one after the other is what one could do. -/
structure Spec.Lawful {W E : Type} (S : Spec W E) : Prop where
  refl : ∀ σ w, S.rely σ w w
  trans : ∀ {σ w w' w''}, S.rely σ w w' → S.rely σ w' w'' → S.rely σ w w''

section Wp
variable {W E V α β : Type} {S : Spec W E} {M : World W E V} {σ : List (E × Bool)} {w w' : W}

/-- From `w`, with the calls `σ` under way, the program keeps the contract and ends in `Q`. -/
def wp (M : World W E V) (S : Spec W E) (σ : List (E × Bool)) : Act W E α → (α → W → Prop) → W → Prop
  | .ret a, Q, w => Q a w
  | .step f k, Q, w => S.guar w (f w) ∧ wp M S σ (k (f w)) Q (f w)
  | .call e k, Q, w => ∀ b, S.inv ((e,b)::σ) (M.emit e b w) ∧
      ∀ w', S.inv ((e,b)::σ) w' → S.rely ((e,b)::σ) (M.emit e b w) w' → wp M S σ (k b) Q w'

variable {Q Q' : α → W → Prop} {R : β → W → Prop} {p : Act W E α} {f : α → Act W E β}

@[simp] lemma wp_pure {a : α} : wp M S σ (pure a) Q w ↔ Q a w := Iff.rfl

@[simp] lemma wp_ret {a : α} : wp M S σ (.ret a) Q w ↔ Q a w := Iff.rfl

@[simp] lemma wp_modify {g : W → W} {Q : Unit → W → Prop} :
    wp M S σ (Act.modify g) Q w ↔ S.guar w (g w) ∧ Q () (g w) := Iff.rfl

@[simp] lemma wp_gets {g : W → α} : wp M S σ (Act.gets g) Q w ↔ S.guar w w ∧ Q (g w) w := Iff.rfl

@[simp] lemma wp_bind : wp M S σ (p >>= f) R w ↔ wp M S σ p (fun a w' => wp M S σ (f a) R w') w := by
  change wp M S σ (p.bind f) R w ↔ _
  induction p generalizing w with
  | ret a => rfl
  | step g k ih => exact and_congr_right fun _ => ih (g w)
  | call e k ih => exact forall_congr' fun b => and_congr_right fun _ =>
      forall_congr' fun w' => imp_congr_right fun _ => imp_congr_right fun _ => ih b

lemma wp_mono (h : wp M S σ p Q w) (hQ : ∀ a w', Q a w' → Q' a w') : wp M S σ p Q' w := by
  induction p generalizing w with
  | ret a => exact hQ a w h
  | step g k ih => exact ⟨h.1,ih _ h.2⟩
  | call e k ih => exact fun b => ⟨(h b).1,fun w' hi hr => ih b ((h b).2 w' hi hr)⟩

lemma wp_when {c : Bool} {p : Act W E Unit} {Q : Unit → W → Prop} (ht : c=true → wp M S σ p Q w)
    (hf : c=false → Q () w) : wp M S σ (Act.when c p) Q w := by
  cases c with
  | true => exact ht rfl
  | false => exact hf rfl

lemma wp_ite {c : Prop} [Decidable c] {q : Act W E α} (ht : c → wp M S σ p Q w)
    (hf : ¬c → wp M S σ q Q w) : wp M S σ (if c then p else q) Q w := by
  split
  next h => exact ht h
  next h => exact hf h

end Wp

/-- A contract at the calls under way, with a relation that a part of a program keeps. -/
structure Contract (W E V : Type) where
  world : World W E V
  spec : Spec W E
  calls : List (E × Bool)
  rel : W → W → Prop

/-- Programs can be walked through step by step: the relation is one of states in a run, and calls
keep it. -/
class Walk {W E V : Type} (c : Contract W E V) : Prop where
  refl : ∀ w, c.rel w w
  trans : ∀ {w w' w''}, c.rel w w' → c.rel w' w'' → c.rel w w''
  still : ∀ w, c.spec.inv c.calls w → c.spec.guar w w
  call : ∀ e b w, c.spec.inv c.calls w → c.spec.inv ((e,b)::c.calls) (c.world.emit e b w) ∧
    ∀ w', c.spec.inv ((e,b)::c.calls) w' → c.spec.rely ((e,b)::c.calls) (c.world.emit e b w) w' →
      c.spec.inv c.calls w' ∧ c.rel w w'

namespace Contract
variable {W E V α β : Type} {c : Contract W E V} {w : W} {p q : Act W E α} {k : α → Act W E β}

/-- What the contract says of the end of a program that began in `w`. -/
structure Ends (c : Contract W E V) (w w' : W) : Prop where
  inv : c.spec.inv c.calls w'
  rel : c.rel w w'

/-- From `w` the program keeps the contract. -/
def Leads (c : Contract W E V) (p : Act W E α) (w : W) : Prop :=
  c.spec.inv c.calls w → wp c.world c.spec c.calls p (fun _ w' => c.Ends w w') w

namespace Leads

lemma given (h : c.spec.inv c.calls w → c.Leads p w) : c.Leads p w := fun hw => h hw hw

lemma ite {b : Prop} [Decidable b] (ht : b → c.Leads p w) (hf : ¬b → c.Leads q w) :
    c.Leads (if b then p else q) w := fun hw => wp_ite (fun h => ht h hw) fun h => hf h hw

variable [hc : Walk c]
include hc

lemma ret (a : α) : c.Leads (pure a) w := fun hw => ⟨hw,hc.refl w⟩

lemma when {b : Bool} {p : Act W E Unit} (h : b=true → c.Leads p w) : c.Leads (Act.when b p) w :=
  fun hw => wp_when (fun hb => h hb hw) fun _ => ⟨hw,hc.refl w⟩

/-- Of a part of the program more may be known than the contract says. -/
lemma bind_wp {P : α → W → Prop} (h : wp c.world c.spec c.calls p (fun a w' => c.Ends w w' ∧ P a w') w)
    (hk : ∀ a w', c.rel w w' → P a w' → c.Leads (k a) w') : c.Leads (p >>= k) w := fun _ =>
  wp_bind.2 (wp_mono h fun a w' h' => wp_mono (hk a w' h'.1.2 h'.2 h'.1.1) fun _ _ h'' =>
    ⟨h''.1,hc.trans h'.1.2 h''.2⟩)

lemma bind (h : c.Leads p w) (hk : ∀ a w', c.rel w w' → c.Leads (k a) w') : c.Leads (p >>= k) w :=
  .given fun hw => .bind_wp (P := fun _ _ => True) (wp_mono (h hw) fun _ _ h' => ⟨h',trivial⟩)
    fun a w' hr _ => hk a w' hr

lemma drop (h : c.Leads p w) (b : β) : c.Leads (p >>= fun _ => pure b) w := h.bind fun _ _ _ => .ret b

lemma gets {g : W → α} (h : c.Leads (k (g w)) w) : c.Leads (Act.gets g >>= k) w := fun hw =>
  wp_bind.2 ⟨hc.still w hw,h hw⟩

lemma step {f : W → W} {k : Unit → Act W E β} (h : c.Leads (Act.modify f) w)
    (hk : c.Leads (k ()) (f w)) : c.Leads (Act.modify f >>= k) w :=
  .given fun hw => .bind_wp (P := fun _ w' => w'=f w) ⟨(h hw).1,(h hw).2,rfl⟩ fun _ _ _ he => he ▸ hk

lemma call (e : E) : c.Leads (Act.callOut e) w := fun hw b =>
  ⟨(hc.call e b w hw).1,fun w' hi hr => ⟨((hc.call e b w hw).2 w' hi hr).1,((hc.call e b w hw).2 w' hi hr).2⟩⟩

end Leads
end Contract

section Zoom
variable {W U E D V X α : Type} {M : World W E V} {N : World U D X} {S : Spec W E} {T : Spec U D}
variable {get : W → U} {put : U → W → W} {tag : D → E} {σ : List (E × Bool)} {τ : List (D × Bool)}
variable {J : W → Prop} {R : W → W → Prop}

/-- The contract `T` of a part supports the contract `S` of the whole: while code of the part runs,
`J` holds of the whole, and the whole changes by `R`. -/
structure Lifts (M : World W E V) (S : Spec W E) (σ : List (E × Bool)) (N : World U D X) (T : Spec U D)
    (τ : List (D × Bool)) (get : W → U) (put : U → W → W) (tag : D → E) (J : W → Prop)
    (R : W → W → Prop) : Prop where
  get_put : ∀ u w, get (put u w)=u
  silent : ∀ d b w, M.emit (tag d) b w=w
  silent_part : ∀ d b u, N.emit d b u=u
  refl : ∀ w, R w w
  trans : ∀ {w w' w''}, R w w' → R w' w'' → R w w''
  step : ∀ w u, J w → T.guar (get w) u → S.guar w (put u w) ∧ J (put u w) ∧ R w (put u w)
  call : ∀ d b w, J w → T.inv ((d,b)::τ) (get w) → S.inv ((tag d,b)::σ) w
  back : ∀ d b w w', J w → S.inv ((tag d,b)::σ) w' → S.rely ((tag d,b)::σ) w w' →
    T.inv ((d,b)::τ) (get w') ∧ T.rely ((d,b)::τ) (get w) (get w') ∧ J w' ∧ R w w'

lemma wp_zoom (hL : Lifts M S σ N T τ get put tag J R) {p : Act U D α} {Q : α → U → Prop} {w : W}
    (h : wp N T τ p Q (get w)) (hw : J w) :
    wp M S σ (p.zoom get put tag) (fun a w' => Q a (get w') ∧ J w' ∧ R w w') w := by
  suffices hgen : ∀ w', wp N T τ p Q (get w') → J w' → R w w' →
      wp M S σ (p.zoom get put tag) (fun a w' => Q a (get w') ∧ J w' ∧ R w w') w' from
    hgen w h hw (hL.refl w)
  clear h hw
  induction p with
  | ret a => exact fun w' h hw hr => ⟨h,hw,hr⟩
  | step f k ih =>
    intro w' h hw hr
    obtain ⟨hg,hj,hrel⟩ := hL.step w' _ hw h.1
    refine ⟨hg,ih _ _ ?_ hj (hL.trans hr hrel)⟩
    rw [hL.get_put]
    exact h.2
  | call d k ih =>
    intro w' h hw hr b
    obtain ⟨hinv,hk⟩ := h b
    rw [hL.silent_part] at hinv hk
    rw [hL.silent]
    refine ⟨hL.call d b w' hw hinv,fun w'' hi hrel => ?_⟩
    obtain ⟨hinv',hrel',hj,hrest⟩ := hL.back d b w' w'' hw hi hrel
    exact ih b w'' (hk _ hinv' hrel') hj (hL.trans hr hrest)

end Zoom

section Part
variable {W U E D V α β : Type} {M : World W E V} {S : Spec W E} {σ : List (E × Bool)} {w : W}
variable {get : W → U} {put : U → W → W} {tag : D → E}

@[simp] lemma wp_zoom_pure {a : α} {Q : α → W → Prop} :
    wp M S σ ((pure a : Act U D α).zoom get put tag) Q w ↔ Q a w := Iff.rfl

@[simp] lemma wp_zoom_bind {p : Act U D α} {f : α → Act U D β} {R : β → W → Prop} :
    wp M S σ ((p >>= f).zoom get put tag) R w ↔
      wp M S σ (p.zoom get put tag) (fun a w' => wp M S σ ((f a).zoom get put tag) R w') w := by
  change wp M S σ ((p.bind f).zoom get put tag) R w ↔ _
  induction p generalizing w with
  | ret a => rfl
  | step g k ih => exact and_congr_right fun _ => ih _
  | call e k ih => exact forall_congr' fun b => and_congr_right fun _ =>
      forall_congr' fun w' => imp_congr_right fun _ => imp_congr_right fun _ => ih b

lemma wp_zoom_gets {g : U → α} {Q : α → W → Prop} (h : put (get w) w=w) :
    wp M S σ ((Act.gets g : Act U D α).zoom get put tag) Q w ↔ S.guar w w ∧ Q (g (get w)) w := by
  change S.guar w (put (get w) w) ∧ Q (g (get (put (get w) w))) (put (get w) w) ↔ _
  rw [h]

lemma wp_zoom_when {c : Bool} {p : Act U D Unit} {Q : Unit → W → Prop}
    (ht : c=true → wp M S σ (p.zoom get put tag) Q w) (hf : c=false → Q () w) :
    wp M S σ ((Act.when c p).zoom get put tag) Q w := by
  cases c with
  | true => exact ht rfl
  | false => exact hf rfl

lemma wp_zoom_ite {c : Prop} [Decidable c] {p q : Act U D α} {Q : α → W → Prop}
    (ht : c → wp M S σ (p.zoom get put tag) Q w) (hf : ¬c → wp M S σ (q.zoom get put tag) Q w) :
    wp M S σ ((if c then p else q).zoom get put tag) Q w := by
  split
  next h => exact ht h
  next h => exact hf h

end Part

section Sound
variable {W E V : Type} {M : World W E V} {S : Spec W E}

/-- Every handler that may start keeps the contract. -/
def Handles (M : World W E V) (S : Spec W E) : Prop := ∀ σ w v, S.inv σ w → M.enabled σ w v →
  wp M S σ (M.handler v) (fun _ w' => S.inv σ w' ∧ S.rely σ w w') w

lemma handles_of_leads (h : ∀ σ w v, S.inv σ w → M.enabled σ w v →
    (Contract.mk M S σ (S.rely σ)).Leads (M.handler v) w) : Handles M S := fun σ w v hw hv =>
  wp_mono (h σ w v hw hv hw) fun _ _ h' => ⟨h'.inv,h'.rel⟩

/-- The calls under way keep the contract once they return, given the state `w` of now. -/
def Pending (M : World W E V) (S : Spec W E) : List (Frame W E) → W → Prop
  | [], _ => True
  | fr::fs, w => ∃ u u0, S.rely (fr.call::fs.map Frame.call) u w ∧ Pending M S fs u0 ∧
      ∀ w', S.inv (fr.call::fs.map Frame.call) w' → S.rely (fr.call::fs.map Frame.call) u w' →
        wp M S (fs.map Frame.call) fr.rest
          (fun _ w'' => S.inv (fs.map Frame.call) w'' ∧ S.rely (fs.map Frame.call) u0 w'') w'

lemma Pending.mono (hS : S.Lawful) {fs : List (Frame W E)} {w w' : W} (h : Pending M S fs w)
    (hr : S.rely (fs.map Frame.call) w w') : Pending M S fs w' := by
  cases fs with
  | nil => trivial
  | cons fr fs =>
    obtain ⟨u,u0,hu,hrest⟩ := h
    exact ⟨u,u0,hS.trans hu hr,hrest⟩

/-- The contract holds of a state of the system. -/
def Good (M : World W E V) (S : Spec W E) : Config W E → Prop
  | ⟨w,none,fs⟩ => S.inv (fs.map Frame.call) w ∧ Pending M S fs w
  | ⟨w,some p,fs⟩ => ∃ u, Pending M S fs u ∧ wp M S (fs.map Frame.call) p
      (fun _ w' => S.inv (fs.map Frame.call) w' ∧ S.rely (fs.map Frame.call) u w') w

lemma Good.step (hS : S.Lawful) (hM : Handles M S) {c c' : Config W E} (h : Good M S c)
    (hstep : Step M c c') : Good M S c' := by
  cases hstep with
  | step =>
    obtain ⟨u,hp,hwp⟩ := h
    exact ⟨u,hp,hwp.2⟩
  | call b =>
    obtain ⟨u,hp,hwp⟩ := h
    exact ⟨(hwp b).1,_,u,hS.refl _ _,hp,(hwp b).2⟩
  | ret =>
    obtain ⟨u,hp,hwp⟩ := h
    exact ⟨hwp.1,hp.mono hS hwp.2⟩
  | @start w fs v hv => exact ⟨w,h.2,hM _ w v h.1 hv⟩
  | resume =>
    obtain ⟨hi,u,u0,hu,hp,hrest⟩ := h
    exact ⟨u0,hp,hrest _ hi hu⟩

/-- The contract holds along every run. -/
theorem Good.run (hS : S.Lawful) (hM : Handles M S) {w : W} {c : Config W E} (hi : S.inv [] w)
    (hr : Reaches M w c) : Good M S c := by
  induction hr with
  | refl => exact ⟨hi,trivial⟩
  | tail _ hstep ih => exact ih.step hS hM hstep

/-- Every atomic step of a run satisfies the guarantee. -/
theorem Good.guar {w : W} {f : W → W} {k : W → Act W E Unit} {fs : List (Frame W E)}
    (h : Good M S ⟨w,some (.step f k),fs⟩) : S.guar w (f w) := by
  obtain ⟨u,hp,hwp⟩ := h
  exact hwp.1

/-- What every atomic step keeps and no call disturbs holds along every run. -/
theorem Good.always (hS : S.Lawful) (hM : Handles M S) {P : W → Prop} {w : W} {c : Config W E}
    (hi : S.inv [] w) (hw : P w) (hguar : ∀ w w', P w → S.guar w w' → P w')
    (hemit : ∀ e b w, P w → P (M.emit e b w)) (hr : Reaches M w c) : P c.state := by
  induction hr with
  | refl => exact hw
  | @tail c c' hc hstep ih =>
    have hgood : Good M S c := .run hS hM hi hc
    cases hstep with
    | step => exact hguar _ _ ih hgood.guar
    | call b => exact hemit _ _ _ ih
    | ret => exact ih
    | start v hv => exact ih
    | resume => exact ih

end Sound

section Quiet
variable {W E V : Type} {M : World W E V}

/-- The run of a program whose calls all succeed and are not used to run anything else. -/
def quiet (M : World W E V) : Act W E Unit → W → W
  | .ret _, w => w
  | .step f k, w => quiet M (k (f w)) (f w)
  | .call e k, w => quiet M (k true) (M.emit e true w)

lemma quiet_steps (p : Act W E Unit) (w : W) (fs : List (Frame W E)) :
    Relation.ReflTransGen (Step M) ⟨w,some p,fs⟩ ⟨quiet M p w,none,fs⟩ := by
  induction p generalizing w with
  | ret a => exact .single .ret
  | step f k ih => exact .head .step (ih _ _)
  | call e k ih => exact .head (.call true) (.head .resume (ih _ _))

lemma Reaches.quiet {w w' : W} (h : Reaches M w ⟨w',none,[]⟩) {v : V} (hv : M.enabled [] w' v) :
    Reaches M w ⟨Reentrant.quiet M (M.handler v) w',none,[]⟩ :=
  (h.tail (.start v hv)).trans (quiet_steps _ _ _)

def quietRun (M : World W E V) : List V → W → W
  | [], w => w
  | v::vs, w => quietRun M vs (quiet M (M.handler v) w)

/-- Each of the handlers may start when its turn comes, with the given calls under way. -/
def QuietRun (M : World W E V) (σ : List (E × Bool)) : List V → W → Prop
  | [], _ => True
  | v::vs, w => M.enabled σ w v ∧ QuietRun M σ vs (quiet M (M.handler v) w)

lemma quietRun_steps (vs : List V) (w : W) (fs : List (Frame W E))
    (h : QuietRun M (fs.map Frame.call) vs w) :
    Relation.ReflTransGen (Step M) ⟨w,none,fs⟩ ⟨quietRun M vs w,none,fs⟩ := by
  induction vs generalizing w with
  | nil => exact .refl
  | cons v vs ih => exact .head (.start v h.1) ((quiet_steps _ _ _).trans (ih _ h.2))

lemma Reaches.quietRun {w w' : W} (h : Reaches M w ⟨w',none,[]⟩) (vs : List V)
    (hvs : QuietRun M [] vs w') : Reaches M w ⟨Reentrant.quietRun M vs w',none,[]⟩ :=
  h.trans (quietRun_steps vs w' [] hvs)

/-- The run of a program whose calls get the given answers, after the given handlers have run. -/
def scripted (M : World W E V) : Act W E Unit → List (Bool × List V) → W → W
  | .ret _, _, w => w
  | .step f k, l, w => scripted M (k (f w)) l (f w)
  | .call e k, [], w => scripted M (k true) [] (M.emit e true w)
  | .call e k, (b,vs)::l, w => scripted M (k b) l (quietRun M vs (M.emit e b w))

def Scripted (M : World W E V) (σ : List (E × Bool)) : Act W E Unit → List (Bool × List V) → W → Prop
  | .ret _, _, _ => True
  | .step f k, l, w => Scripted M σ (k (f w)) l (f w)
  | .call e k, [], w => Scripted M σ (k true) [] (M.emit e true w)
  | .call e k, (b,vs)::l, w => QuietRun M ((e,b)::σ) vs (M.emit e b w) ∧
      Scripted M σ (k b) l (quietRun M vs (M.emit e b w))

lemma scripted_steps (p : Act W E Unit) (l : List (Bool × List V)) (w : W) (fs : List (Frame W E))
    (h : Scripted M (fs.map Frame.call) p l w) :
    Relation.ReflTransGen (Step M) ⟨w,some p,fs⟩ ⟨scripted M p l w,none,fs⟩ := by
  induction p generalizing l w with
  | ret a => exact .single .ret
  | step f k ih => exact .head .step (ih _ _ _ h)
  | call e k ih =>
    cases l with
    | nil => exact .head (.call true) (.head .resume (ih _ _ _ h))
    | cons c l =>
      obtain ⟨b,vs⟩ := c
      exact .head (.call b) ((quietRun_steps vs _ (⟨(e,b),k b⟩::fs) h.1).trans
        (.head .resume (ih _ _ _ h.2)))

lemma Reaches.scripted {w w' : W} (h : Reaches M w ⟨w',none,[]⟩) {v : V} (hv : M.enabled [] w' v)
    (l : List (Bool × List V)) (hl : Scripted M [] (M.handler v) l w') :
    Reaches M w ⟨Reentrant.scripted M (M.handler v) l w',none,[]⟩ :=
  (h.tail (.start v hv)).trans (scripted_steps _ _ _ [] hl)

end Quiet
end FuriOS.Reentrant
