import FuriOS.Lib.DepthFirst

/-! The dynamic loader: from the `DT_NEEDED` graph of the loaded objects to the order in which
their initialisers and finalisers run (`dso_build_init_order` and the end of `main`). -/
namespace FuriOS.Ld
open Relation DepthFirst

/-- `MAX_DSO` -/
def maxDso : ℕ := 32

/-- A loaded object, as far as start-up and termination read it. Function addresses are zero
where there is no function. -/
structure Dso where
  path : String
  needed : List String
  depIndex : List ℕ
  init : ℕ
  initArray : List ℕ
  finiArray : List ℕ
  fini : ℕ
  deriving DecidableEq

/-- The object array after `dso_resolve_dependencies`; object 0 is the program. -/
structure Objects where
  objs : List Dso
  pos : 0<objs.length
  le : objs.length ≤ maxDso
  inRange : ∀ obj∈objs, ∀ dep∈obj.depIndex, dep<objs.length

def dsoFindByPath (objs : List Dso) (path : String) : Option ℕ :=
  objs.findIdx? fun obj => obj.path == path

/-- One object of `dso_resolve_dependencies`. The search for a library file is a parameter. -/
def resolveNeeded (resolveNeededPath : Dso → String → Option String) (objs : List Dso)
    (obj : Dso) : Option Dso := do
  let deps ← obj.needed.mapM fun name =>
    if name = "" then none else (resolveNeededPath obj name).bind (dsoFindByPath objs)
  some {obj with depIndex := deps}

def dsoResolveDependencies (resolveNeededPath : Dso → String → Option String)
    (objs : List Dso) : Option (List Dso) :=
  objs.mapM (resolveNeeded resolveNeededPath objs)

namespace Objects
variable (o : Objects)

def count : ℕ := o.objs.length

def deps (idx : ℕ) : List ℕ := ((o.objs[idx]?).map Dso.depIndex).getD []

/-- Object `i` needs object `d`. -/
def Needs (i d : ℕ) : Prop := d∈o.deps i

def Cyclic : Prop := ∃ i<o.count, TransGen o.Needs i i

end Objects

variable {α β : Type} {objs : List Dso} {i idx : ℕ} {F : Prop} {s t : Search} {o : Objects}

/-- The values 0, 1 and 2 of `init_state`. -/
inductive Mark
  | untouched | visiting | visited
  deriving DecidableEq

/-- `init_state` and `init_order` with its `init_count`. -/
structure Search where
  state : ℕ → Mark
  order : List ℕ

def Search.start : Search := ⟨fun _ => .untouched,[]⟩

def Search.mark (s : Search) (idx : ℕ) (m : Mark) : Search :=
  {s with state := Function.update s.state idx m}

/-- Why a search ends early: it returned -1, or it is nested deeper than the bound of the
model, which no search is (`dsoBuildInitOrder_spec`). -/
inductive Stop
  | failed | deep
  deriving DecidableEq

def dsoBuildInitOrder (o : Objects) : ℕ → ℕ → Search → Except Stop Search
  | 0,_,_ => .error .deep
  | depth+1,idx,s =>
    if o.count ≤ idx then .error .failed
    else match s.state idx with
      | .visited => .ok s
      | .visiting => .error .failed
      | .untouched => do
        let s ← (o.deps idx).foldlM (fun s dep =>
          if o.count≤dep then .error .failed else dsoBuildInitOrder o depth dep s)
          (s.mark idx .visiting)
        let s := s.mark idx .visited
        if idx=0 then .ok s
        else if maxDso ≤ s.order.length then .error .failed
        else .ok {s with order := s.order++[idx]}

/-- The part of `main` that fills `init_order`: the program first, then what it does not
reach. -/
def initOrder (o : Objects) : Except Stop (List ℕ) := do
  let s ← dsoBuildInitOrder o (o.count+1) 0 .start
  let s ← (List.range o.count).foldlM (fun s i =>
    if s.state i=.untouched then dsoBuildInitOrder o (o.count+1) i s else .ok s) s
  .ok s.order

/-- A function the loader calls for an object, or the program's entry point. -/
inductive Call
  | init (idx fn : ℕ)
  | entry
  | fini (idx fn : ℕ)
  deriving DecidableEq

/-- The nonzero functions `run_init_for_dso` calls, in the order of the calls. -/
def runInitForDso (obj : Dso) : List ℕ := (obj.init::obj.initArray).filter (· ≠ 0)

/-- The nonzero functions `run_fini_for_dso` calls: the array from its end, then `fini`. -/
def runFiniForDso (obj : Dso) : List ℕ :=
  ((List.range obj.finiArray.length).map fun i =>
    obj.finiArray.getD (obj.finiArray.length-1-i) 0).filter (· ≠ 0)++[obj.fini].filter (· ≠ 0)

def Objects.initCalls (o : Objects) (idx : ℕ) : List Call :=
  ((o.objs[idx]?).map runInitForDso).getD [] |>.map (.init idx)

def Objects.finiCalls (o : Objects) (idx : ℕ) : List Call :=
  ((o.objs[idx]?).map runFiniForDso).getD [] |>.map (.fini idx)

/-- The loops `for (i = 0; i < init_count; i++)` and `for (i = init_count - 1; i >= 0; i--)` of
`main` around the call of the program's entry point. -/
def startAndStop (o : Objects) (order : List ℕ) : List Call :=
  ((List.range order.length).flatMap fun i => o.initCalls (order.getD i 0))++.entry ::
    (List.range order.length).flatMap fun i => o.finiCalls (order.getD (order.length-1-i) 0)

/-- `main` from the resolved dependencies on: every call it makes, or `loader_fail`. -/
def main (o : Objects) : Except Stop (List Call) := do
  let order ← initOrder o
  .ok (startAndStop o order)

/-! ### The dependencies stay in range -/

lemma forall₂_of_mapM {f : α → Option β} {l : List α} {l' : List β}
    (h : l.mapM f=some l') : List.Forall₂ (fun a b => f a=some b) l l' := by
  induction l generalizing l' with
  | nil =>
    cases h
    exact .nil
  | cons a l ih =>
    rw [List.mapM_cons] at h
    obtain ⟨b,hb,h⟩ := Option.bind_eq_some_iff.1 h
    obtain ⟨bs,hbs,h⟩ := Option.bind_eq_some_iff.1 h
    cases h
    exact .cons hb (ih hbs)

lemma exists_of_mem_mapM {f : α → Option β} {l : List α} {l' : List β}
    (h : l.mapM f=some l') {b : β} (hb : b∈l') : ∃ a, f a=some b := by
  obtain ⟨i,hi,rfl⟩ := List.mem_iff_getElem.1 hb
  have hall := forall₂_of_mapM h
  exact ⟨_,hall.get (hall.length_eq ▸ hi) hi⟩

lemma dsoFindByPath_lt {path : String} (h : dsoFindByPath objs path=some i) : i<objs.length := by
  obtain ⟨hi,_⟩ := List.findIdx?_eq_some_iff_getElem.1 h
  exact hi

lemma resolveNeeded_inRange {resolve : Dso → String → Option String}
    {obj obj' : Dso} (h : resolveNeeded resolve objs obj=some obj') :
    ∀ dep∈obj'.depIndex, dep<objs.length := by
  obtain ⟨deps,hdeps,hobj⟩ := Option.bind_eq_some_iff.1 h
  cases hobj
  intro dep hdep
  obtain ⟨name,hname⟩ := exists_of_mem_mapM hdeps hdep
  rw [ite_eq_iff] at hname
  rcases hname with ⟨_,hname⟩ | ⟨_,hname⟩
  · cases hname
  · obtain ⟨path,_,hpath⟩ := Option.bind_eq_some_iff.1 hname
    exact dsoFindByPath_lt hpath

/-- What `dso_resolve_dependencies` leaves is an object array: `main` gives up otherwise. -/
def Objects.ofLoaded (resolveNeededPath : Dso → String → Option String) (loaded objs : List Dso)
    (hpos : 0<loaded.length) (hle : loaded.length ≤ maxDso)
    (h : dsoResolveDependencies resolveNeededPath loaded=some objs) : Objects where
  objs := objs
  pos := (forall₂_of_mapM h).length_eq ▸ hpos
  le := (forall₂_of_mapM h).length_eq ▸ hle
  inRange obj hobj := by
    obtain ⟨obj',hobj'⟩ := exists_of_mem_mapM h hobj
    rw [← (forall₂_of_mapM h).length_eq]
    exact resolveNeeded_inRange hobj'

lemma Objects.deps_lt (o : Objects) {dep : ℕ} (h : dep∈o.deps idx) : dep<o.count := by
  unfold Objects.deps at h
  cases hobj : o.objs[idx]? with
  | none => simp [hobj] at h
  | some obj =>
    rw [hobj] at h
    exact o.inRange obj (List.mem_of_getElem? hobj) dep h

/-! ### The search -/

/-- How a search ends: with `Q` of the state reached, or by returning -1 with `F`; never for
the depth. -/
def Ends {α : Type} (r : Except Stop α) (Q : α → Prop) (F : Prop) : Prop :=
  match r with
  | .ok a => Q a
  | .error .failed => F
  | .error .deep => False

lemma Ends.bind {r : Except Stop α} {f : α → Except Stop β} {Q : α → Prop}
    {R : β → Prop} (h : Ends r Q F) (hf : ∀ a, Q a → Ends (f a) R F) :
    Ends (r >>= f) R F := by
  cases r with
  | ok a => exact hf a h
  | error e =>
    cases e with
    | failed => exact h
    | deep => exact h

lemma Ends.imp {r : Except Stop α} {Q R : α → Prop} (h : Ends r Q F)
    (hQ : ∀ a, Q a → R a) : Ends r R F := by
  cases r with
  | ok a => exact hQ a h
  | error e =>
    cases e with
    | failed => exact h
    | deep => exact h

lemma Ends.foldlM {ι : Type} {body : α → ι → Except Stop α} {I : List ι → α → Prop} {l : List ι} {a : α} (hstart : I [] a)
    (hbody : ∀ seen i rest a, l=seen++i::rest → I seen a →
      Ends (body a i) (I (seen++[i])) F) : Ends (l.foldlM body a) (I l) F := by
  suffices h : ∀ rest seen a, l=seen++rest → I seen a →
      Ends (rest.foldlM body a) (I l) F from h l [] a rfl hstart
  intro rest
  induction rest with
  | nil =>
    intro seen a hl ha
    rw [List.append_nil] at hl
    exact hl ▸ ha
  | cons i rest ih =>
    intro seen a hl ha
    rw [List.foldlM_cons]
    apply (hbody seen i rest a hl ha).bind
    intro a' ha'
    exact ih (seen++[i]) a' (by rw [hl,List.append_assoc,List.singleton_append]) ha'

/-- What holds of the marks and the order between two calls. -/
structure Search.Valid (o : Objects) (s : Search) : Prop where
  finished : Finished o.Needs {i | s.state i=.visited}
  mem_order : ∀ i, i∈s.order ↔ s.state i=.visited ∧ i≠0
  nodup : s.order.Nodup
  inRange : ∀ i, s.state i≠.untouched → i<o.count
  needsFirst : NeedsFirst (fun i d => o.Needs i d ∧ d≠0) s.order

/-- What a call does to the marks of other calls. -/
structure Search.Advances (s s' : Search) : Prop where
  visiting : ∀ i, s'.state i=.visiting ↔ s.state i=.visiting
  visited : ∀ i, s.state i=.visited → s'.state i=.visited

lemma Search.Advances.refl (s : Search) : s.Advances s := ⟨fun _ => Iff.rfl,fun _ h => h⟩

lemma Search.Advances.trans {u : Search} (h : s.Advances t) (h' : t.Advances u) :
    s.Advances u :=
  ⟨fun i => (h'.visiting i).trans (h.visiting i),fun i hi => h'.visited i (h.visited i hi)⟩

/-- The objects no call has entered yet; their number bounds the nesting of the calls. -/
def Search.fresh (o : Objects) (s : Search) : ℕ :=
  ((Finset.range o.count).filter fun i => s.state i=.untouched).card

lemma Search.Advances.fresh_le {s' : Search} (h : s.Advances s') : s'.fresh o ≤ s.fresh o := by
  apply Finset.card_le_card
  apply Finset.monotone_filter_right
  intro i _ hi
  cases hs : s.state i with
  | untouched => rfl
  | visiting =>
    rw [(h.visiting i).2 hs] at hi
    cases hi
  | visited =>
    rw [h.visited i hs] at hi
    cases hi

lemma Search.fresh_le_count (o : Objects) (s : Search) : s.fresh o≤o.count :=
  (Finset.card_filter_le _ _).trans_eq (Finset.card_range _)

@[simp] lemma Search.state_mark_self (s : Search) (idx : ℕ) (m : Mark) :
    (s.mark idx m).state idx=m := Function.update_self ..

lemma Search.state_mark_of_ne (s : Search) (m : Mark) (h : i≠idx) :
    (s.mark idx m).state i=s.state i := Function.update_of_ne h ..

lemma Search.fresh_mark_lt (hidx : idx<o.count)
    (h : s.state idx=.untouched) : (s.mark idx .visiting).fresh o<s.fresh o := by
  apply Finset.card_lt_card
  refine ⟨?_,fun hsub => ?_⟩
  · apply Finset.monotone_filter_right
    intro i _ hi
    by_cases hii : i=idx
    · rw [hii,h]
    · rwa [Search.state_mark_of_ne s _ hii] at hi
  · have := hsub (Finset.mem_filter.2 ⟨Finset.mem_range.2 hidx,h⟩)
    rw [Finset.mem_filter,Search.state_mark_self] at this
    cases this.2

lemma Search.Valid.visiting (h : s.Valid o) (hidx : idx<o.count) (hs : s.state idx=.untouched) :
    (s.mark idx .visiting).Valid o := by
  have hvisited : ∀ i, (s.mark idx .visiting).state i=.visited ↔ s.state i=.visited := by
    intro i
    by_cases hi : i=idx
    · subst hi
      simp [hs]
    · rw [s.state_mark_of_ne _ hi]
  constructor
  · simpa only [hvisited] using h.finished
  · intro i
    rw [hvisited]
    exact h.mem_order i
  · exact h.nodup
  · intro i hi
    by_cases hii : i=idx
    · exact hii ▸ hidx
    · rw [s.state_mark_of_ne _ hii] at hi
      exact h.inRange i hi
  · exact h.needsFirst

lemma Search.Valid.order_length_lt (h : s.Valid o) : s.order.length<o.count := by
  have hsub : s.order.toFinset ⊆ (Finset.range o.count).erase 0 := by
    intro i hi
    obtain ⟨hi,h0⟩ := (h.mem_order i).1 (List.mem_toFinset.1 hi)
    have hlt : i<o.count := h.inRange i (by rw [hi]; exact Mark.noConfusion)
    exact Finset.mem_erase.2 ⟨h0,Finset.mem_range.2 hlt⟩
  have hcard := Finset.card_le_card hsub
  have hpos : 0<o.count := o.pos
  rw [List.toFinset_card_of_nodup h.nodup,
    Finset.card_erase_of_mem (Finset.mem_range.2 hpos),Finset.card_range] at hcard
  omega

lemma Search.Valid.visited (h : s.Valid o)
    (hs : s.state idx=.visiting) (hdeps : ∀ d, o.Needs idx d → s.state d=.visited) :
    ({s.mark idx .visited with
      order := if idx=0 then s.order else s.order++[idx]} : Search).Valid o := by
  have hvisited : ∀ i, (s.mark idx .visited).state i=.visited ↔ i=idx ∨ s.state i=.visited := by
    intro i
    by_cases hi : i=idx
    · subst hi
      simp
    · simp [s.state_mark_of_ne _ hi,hi]
  have hnew : idx∉s.order := by
    intro hmem
    have := ((h.mem_order idx).1 hmem).1
    rw [hs] at this
    cases this
  constructor
  · have := h.finished.insert (i := idx) (by simp [hs]) hdeps
    simpa only [hvisited,Set.insert_def,Set.mem_ofPred_eq] using this
  · intro i
    rw [hvisited]
    split
    case isTrue h0 =>
      rw [h.mem_order]
      constructor
      · exact fun hi => ⟨.inr hi.1,hi.2⟩
      · rintro ⟨rfl | hi,hi0⟩
        · exact absurd h0 hi0
        · exact ⟨hi,hi0⟩
    case isFalse h0 =>
      rw [List.mem_append,List.mem_singleton,h.mem_order]
      constructor
      · rintro (hi | rfl)
        · exact ⟨.inr hi.1,hi.2⟩
        · exact ⟨.inl rfl,h0⟩
      · rintro ⟨rfl | hi,hi0⟩
        · exact .inr rfl
        · exact .inl ⟨hi,hi0⟩
  · split
    · exact h.nodup
    · exact List.nodup_append.2 ⟨h.nodup,List.nodup_singleton idx,by
        intro a ha b hb
        rw [List.mem_singleton] at hb
        intro hab
        exact hnew (hb ▸ hab ▸ ha)⟩
  · intro i hi
    by_cases hii : i=idx
    · exact h.inRange i (by rw [hii,hs]; exact Mark.noConfusion)
    · exact h.inRange i (by rwa [← s.state_mark_of_ne .visited hii])
  · split
    · exact h.needsFirst
    · apply h.needsFirst.concat
      intro d hd
      exact (h.mem_order d).2 ⟨hdeps d hd.1,hd.2⟩

lemma Search.Advances.visited_mark {l : List ℕ}
    (hs : s.state idx=.untouched) (h : (s.mark idx .visiting).Advances t) :
    s.Advances {t.mark idx .visited with order := l} := by
  constructor
  · intro i
    by_cases hi : i=idx
    · subst hi
      simp [hs]
    · have := h.visiting i
      rw [s.state_mark_of_ne _ hi] at this
      simpa only [t.state_mark_of_ne _ hi] using this
  · intro i hvisited
    by_cases hi : i=idx
    · subst hi
      simp
    · have := h.visited i
      rw [s.state_mark_of_ne _ hi] at this
      simpa only [t.state_mark_of_ne _ hi] using this hvisited

/-- A call from a state whose open calls all need `idx`, directly or not: it finishes `idx`,
or it has found a cycle. -/
lemma dsoBuildInitOrder_spec (o : Objects) (depth idx : ℕ) (s : Search) (hs : s.Valid o)
    (hidx : idx<o.count) (hdepth : s.fresh o<depth)
    (hopen : ∀ i, s.state i=.visiting → TransGen o.Needs i idx) :
    Ends (dsoBuildInitOrder o depth idx s)
      (fun s' => s'.Valid o ∧ s.Advances s' ∧ s'.state idx=.visited) o.Cyclic := by
  induction depth generalizing idx s with
  | zero => exact absurd hdepth (Nat.not_lt_zero _)
  | succ depth ih =>
    rw [dsoBuildInitOrder,if_neg (Nat.not_le.2 hidx)]
    cases hmark : s.state idx with
    | visited => exact ⟨hs,.refl s,hmark⟩
    | visiting => exact ⟨idx,hidx,hopen idx hmark⟩
    | untouched =>
      -- between two rounds `idx` is the innermost open call and the needs so far are finished
      refine Ends.bind (Ends.foldlM (I := fun seen t => t.Valid o ∧
        (s.mark idx .visiting).Advances t ∧ ∀ d∈seen, t.state d=.visited)
        ⟨hs.visiting hidx hmark,.refl _,by simp⟩ ?_) ?_
      · rintro seen dep rest t hdeps ⟨ht,hadv,hseen⟩
        have hneeds : o.Needs idx dep := by
          rw [Objects.Needs,hdeps]
          simp
        rw [if_neg (Nat.not_le.2 (o.deps_lt hneeds))]
        have hfresh := (hadv.fresh_le (o := o)).trans_lt (Search.fresh_mark_lt hidx hmark)
        have hcall := ih dep t ht (o.deps_lt hneeds) (by omega) (by
          intro i hi
          rw [hadv.visiting] at hi
          by_cases hii : i=idx
          · exact hii ▸ .single hneeds
          · rw [s.state_mark_of_ne _ hii] at hi
            exact (hopen i hi).tail hneeds)
        apply hcall.imp
        rintro u ⟨hu,htu,hdep⟩
        refine ⟨hu,hadv.trans htu,fun d hd => ?_⟩
        rcases List.mem_append.1 hd with hd | hd
        · exact htu.visited d (hseen d hd)
        · exact List.mem_singleton.1 hd ▸ hdep
      · rintro t ⟨ht,hadv,hseen⟩
        have hvisiting : t.state idx=.visiting := (hadv.visiting idx).2 (by simp)
        have hvalid := ht.visited hvisiting hseen
        have hlen : (t.mark idx .visited).order.length < maxDso := ht.order_length_lt.trans_le o.le
        have hend := hadv.visited_mark hmark (l := if idx=0 then t.order else t.order++[idx])
        by_cases h0 : idx=0
        · rw [if_pos h0]
          rw [if_pos h0] at hvalid hend
          exact ⟨hvalid,hend,t.state_mark_self idx _⟩
        · rw [if_neg h0,if_neg (Nat.not_le.2 hlen)]
          rw [if_neg h0] at hvalid hend
          exact ⟨hvalid,hend,t.state_mark_self idx _⟩

/-! ### The order -/

lemma Search.valid_start (o : Objects) : Search.start.Valid o where
  finished := by simpa [Search.start] using finished_empty
  mem_order := by simp [Search.start]
  nodup := List.nodup_nil
  inRange := by simp [Search.start]
  needsFirst := needsFirst_nil

lemma dsoBuildInitOrder_outer (o : Objects) (hs : s.Valid o)
    (hidx : idx<o.count) (hclosed : ∀ i, s.state i≠.visiting) :
    Ends (dsoBuildInitOrder o (o.count+1) idx s) (fun s' => s'.Valid o ∧
      (∀ i, s'.state i≠.visiting) ∧ s.Advances s' ∧ s'.state idx=.visited) o.Cyclic := by
  apply (dsoBuildInitOrder_spec o (o.count+1) idx s hs hidx
    (Nat.lt_succ_of_le (s.fresh_le_count o)) (fun i hi => absurd hi (hclosed i))).imp
  rintro t ⟨ht,hadv,hvisited⟩
  exact ⟨ht,fun i hi => hclosed i ((hadv.visiting i).1 hi),hadv,hvisited⟩

lemma initOrder_ends (o : Objects) :
    Ends (initOrder o) (fun order => ∃ s : Search, s.Valid o ∧ s.order=order ∧
      ∀ i<o.count, s.state i=.visited) o.Cyclic := by
  rw [initOrder]
  refine Ends.bind (dsoBuildInitOrder_outer o (Search.valid_start o) o.pos
    (by simp [Search.start])) ?_
  rintro s ⟨hs,hclosed,_,_⟩
  refine Ends.bind (Ends.foldlM (I := fun seen t => t.Valid o ∧ (∀ i, t.state i≠.visiting) ∧
    ∀ d∈seen, t.state d=.visited) ⟨hs,hclosed,by simp⟩ ?_) ?_
  · rintro seen i rest t hrange ⟨ht,hclosed,hseen⟩
    have hi : i<o.count := by
      rw [← List.mem_range,hrange]
      simp
    by_cases hmark : t.state i=.untouched
    · rw [if_pos hmark]
      apply (dsoBuildInitOrder_outer o ht hi hclosed).imp
      rintro u ⟨hu,huclosed,hadv,hvisited⟩
      refine ⟨hu,huclosed,fun d hd => ?_⟩
      rcases List.mem_append.1 hd with hd | hd
      · exact hadv.visited d (hseen d hd)
      · exact List.mem_singleton.1 hd ▸ hvisited
    · rw [if_neg hmark]
      refine ⟨ht,hclosed,fun d hd => ?_⟩
      rcases List.mem_append.1 hd with hd | hd
      · exact hseen d hd
      · rw [List.mem_singleton.1 hd]
        cases hstate : t.state i with
        | untouched => exact absurd hstate hmark
        | visiting => exact absurd hstate (hclosed i)
        | visited => rfl
  · rintro t ⟨ht,_,hseen⟩
    exact ⟨t,ht,rfl,fun i hi => hseen i (List.mem_range.2 hi)⟩

lemma map_range_getD (l : List ℕ) : (List.range l.length).map (fun i => l.getD i 0)=l := by
  apply List.ext_getElem
  · simp
  · intro i _ hi
    simp [List.getElem?_eq_getElem hi]

lemma map_range_getD_reverse (l : List ℕ) :
    (List.range l.length).map (fun i => l.getD (l.length-1-i) 0)=l.reverse := by
  apply List.ext_getElem
  · simp
  · intro i hi _
    rw [List.length_map,List.length_range] at hi
    have : l.length-1-i<l.length := by omega
    simp [List.getElem?_eq_getElem this]

lemma startAndStop_eq (o : Objects) (order : List ℕ) : startAndStop o order =
      order.flatMap o.initCalls++.entry::order.reverse.flatMap o.finiCalls := by
  have hinit : (List.range order.length).flatMap (fun i => o.initCalls (order.getD i 0)) =
      order.flatMap o.initCalls := by
    rw [← List.flatMap_map (fun i => order.getD i 0) o.initCalls,map_range_getD]
  have hfini : (List.range order.length).flatMap
      (fun i => o.finiCalls (order.getD (order.length-1-i) 0)) =
        order.reverse.flatMap o.finiCalls := by
    rw [← List.flatMap_map (fun i => order.getD (order.length-1-i) 0) o.finiCalls,
      map_range_getD_reverse]
  rw [startAndStop,hinit,hfini]

/-- The loader fails exactly on a cyclic dependency graph. Otherwise it initialises every
object but the program once, each after the objects it needs, and when the program has
returned it finalises them in the reverse order. -/
theorem main_initialises_in_dependency_order (o : Objects) : (main o=.error .failed ↔ o.Cyclic) ∧
    (main o=.error .failed ∨ ∃ order, initOrder o=.ok order ∧ order.Nodup ∧
      (∀ i, i∈order ↔ i≠0 ∧ i<o.count) ∧
      NeedsFirst (fun i d => o.Needs i d ∧ d≠0) order ∧
      main o=.ok (order.flatMap o.initCalls++.entry::order.reverse.flatMap o.finiCalls)) := by
  have hends := initOrder_ends o
  cases h : initOrder o with
  | error e =>
    rw [h] at hends
    cases e with
    | deep => exact hends.elim
    | failed =>
      have hmain : main o=.error .failed := by
        rw [main,h]
        rfl
      exact ⟨iff_of_true hmain hends,.inl hmain⟩
  | ok order =>
    rw [h] at hends
    obtain ⟨s,hs,rfl,hall⟩ := hends
    have hmain : main o=.ok (s.order.flatMap o.initCalls ++
        .entry::s.order.reverse.flatMap o.finiCalls) := by
      rw [main,h,← startAndStop_eq]
      rfl
    have hacyclic : ¬ o.Cyclic := by
      rintro ⟨i,hi,hcycle⟩
      exact hs.finished.acyclic i (hall i hi) hcycle
    refine ⟨iff_of_false (by simp [hmain]) hacyclic,
      .inr ⟨s.order,rfl,hs.nodup,fun i => ?_,hs.needsFirst,hmain⟩⟩
    rw [hs.mem_order i]
    constructor
    · rintro ⟨hi,h0⟩
      exact ⟨h0,hs.inRange i (by rw [hi]; exact Mark.noConfusion)⟩
    · rintro ⟨h0,hi⟩
      exact ⟨hall i hi,h0⟩

end FuriOS.Ld
