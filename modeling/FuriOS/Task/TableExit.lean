import FuriOS.Task.Table

/-! What the end of a task does to the rows of the table. The task itself is left as a zombie or
freed, its children get a new parent, zombies among them may be freed, and waits may end; nothing
else changes. -/
namespace FuriOS

namespace ProcTable
variable {T T' : ProcTable} {t i j : TaskIx}

lemma wakeFor_woken (c r : Row) : r.Woken (c.wakeFor r) := by
  unfold Row.wakeFor
  split
  · rename_i filter hf
    split
    · exact .inr ⟨⟨filter,hf⟩,rfl⟩
    · exact .refl r
  · exact .refl r

lemma wakeWaiters_woken (pid : ℤ) (j : TaskIx) : (T.rows j).Woken ((T.wakeWaiters pid).rows j) := by
  unfold wakeWaiters
  split
  · exact .refl _
  · exact wakeFor_woken _ _

@[simp] lemma wakeWaiters_initPid (pid : ℤ) : (T.wakeWaiters pid).initPid=T.initPid := by
  unfold wakeWaiters
  split <;> rfl

/-- Process numbers as `task_alloc` gives them out: positive and distinct, no task is its own
parent, and init has none. -/
structure Numbered (T : ProcTable) : Prop where
  pid : ∀ t, (T.rows t).phase≠.unused → 0<(T.rows t).pid
  free : ∀ t, (T.rows t).phase=.unused → (T.rows t).pid=0
  unique : ∀ t t', (T.rows t).phase≠.unused → (T.rows t').phase≠.unused →
    (T.rows t).pid=(T.rows t').pid → t=t'
  ppid : ∀ t, (T.rows t).phase≠.unused → (T.rows t).ppid≠(T.rows t).pid
  init : ∀ t, (T.rows t).phase≠.unused → (T.rows t).pid=T.initPid → (T.rows t).ppid≤0

lemma find_eq_some {p : Row → Bool} (h : T.find p=some i) : p (T.rows i)=true := by
  have := List.find?_some h
  simpa using this

lemma find_of_unique {p : Row → Bool} (ht : p (T.rows t)=true)
    (hu : ∀ i, p (T.rows i)=true → i=t) : T.find p=some t := by
  cases hf : T.find p with
  | none => exact absurd ht (List.find?_eq_none.1 hf t (List.mem_finRange t))
  | some i => rw [hu i (find_eq_some hf)]

/-- What a row of another task looks like after a task with the number `old` has ended: `new` is
the number of the new parent of the children, and `auto` tells that it frees them. -/
def Adopted (old new : ℤ) (auto : Bool) (r r' : Row) : Prop :=
  if r.phase≠.unused ∧ r.ppid=old then
    if r.phase=.zombie ∧ 0<new ∧ auto=true then r'=.zero else Row.Woken {r with ppid := new} r'
  else Row.Woken r r'

section Adoption
variable {old new : ℤ} {auto : Bool} {r r' r'' : Row} {init : Option TaskIx}

lemma Adopted.woken (h : Adopted old new auto r r') (h' : r'.Woken r'') : Adopted old new auto r r'' := by
  unfold Adopted at h ⊢
  split_ifs at h ⊢
  · subst h
    rcases h' with rfl | ⟨⟨_,hf⟩,-⟩
    · rfl
    · cases hf
  · exact h.trans h'
  · exact h.trans h'

lemma Adopted.of_woken (h : r.Woken r') (h' : Adopted old new auto r' r'') :
    Adopted old new auto r r'' := by
  have hchange : Row.Woken {r with ppid := new} {r' with ppid := new} := by
    rcases h with rfl | ⟨hw,rfl⟩
    · exact .refl _
    · exact .inr ⟨hw,rfl⟩
  unfold Adopted at h' ⊢
  simp only [h.ppid,h.zombie,ne_eq,h.unused] at h' ⊢
  split_ifs at h' ⊢
  · exact h'
  · exact hchange.trans h'
  · exact h.trans h'

lemma Adopted.kept (h : Adopted old new auto r r') : r.Kept r' := by
  unfold Adopted at h
  split_ifs at h with hc hz
  · subst h
    exact ⟨by simp [Row.alive,hz.1,Row.zero],fun hu => absurd rfl hu⟩
  · exact ⟨h.alive,fun _ => ⟨hc.1,h.pid,h.pgid,h.reaps⟩⟩
  · exact h.kept

lemma Adopted.freed_iff (h : Adopted old new auto r r') (hu : r.phase≠.unused) :
    r'.phase=.unused ↔ r.ppid=old ∧ r.phase=.zombie ∧ 0<new ∧ auto=true := by
  unfold Adopted at h
  split_ifs at h with hc hz
  · subst h
    exact ⟨fun _ => ⟨hc.2,hz⟩,fun _ => rfl⟩
  · exact ⟨fun hu' => absurd (h.unused.1 hu') hu,fun hf => absurd hf.2 hz⟩
  · exact ⟨fun hu' => absurd (h.unused.1 hu') hu,fun hf => absurd ⟨hu,hf.1⟩ hc⟩

/-- What the reparenting loop knows: numbers are distinct, and `init` is the live init task, if
there is one. -/
structure Adopter (T : ProcTable) (init : Option TaskIx) (auto : Bool) : Prop where
  unique : ∀ t t', (T.rows t).phase≠.unused → (T.rows t').phase≠.unused →
    (T.rows t).pid=(T.rows t').pid → t=t'
  live : ∀ p, init=some p → (T.rows p).alive=true ∧ (T.rows p).pid=T.initPid
  auto : T.autoReaps init=auto

lemma Adopter.step (h : T.Adopter init auto) (hi : T'.initPid=T.initPid)
    (hr : ∀ j, (T.rows j).Kept (T'.rows j)) : T'.Adopter init auto where
  unique t t' ht ht' he := by
    obtain ⟨hu,hp,-⟩ := (hr t).used ht
    obtain ⟨hu',hp',-⟩ := (hr t').used ht'
    exact h.unique t t' hu hu' (hp.symm.trans (he.trans hp'))
  live p hp := by
    obtain ⟨ha,hn⟩ := h.live p hp
    have ha' := (hr p).alive.trans ha
    exact ⟨ha',((hr p).used (Row.alive_iff.1 ha').1).2.1.trans (hn.trans hi.symm)⟩
  auto := by
    rw [← h.auto]
    cases init with
    | none => rfl
    | some p =>
      have ha := (h.live p rfl).1
      have ha' := (hr p).alive.trans ha
      rw [autoReaps,autoReaps,Option.any_some,Option.any_some,ha,ha',
        ((hr p).used (Row.alive_iff.1 ha').1).2.2.2]

lemma reparentChild_rows (h : T.Adopter init auto) (i : TaskIx) :
    (T.reparentChild old init new i).initPid=T.initPid ∧
    Adopted old new auto (T.rows i) ((T.reparentChild old init new i).rows i) ∧
    ∀ j, j≠i → (T.rows j).Woken ((T.reparentChild old init new i).rows j) := by
  have hset {j : TaskIx} (hj : j≠i) : (T.set i {T.rows i with ppid := new}).rows j=T.rows j :=
    set_of_ne hj
  have hauto : (T.set i {T.rows i with ppid := new}).autoReaps init=auto := by
    rw [← h.auto]
    cases init with
    | none => rfl
    | some p =>
      by_cases hp : p=i
      · subst hp
        simp [autoReaps,Row.alive]
      · simp [autoReaps,hset hp]
  -- waking on the way is all that happens to the other rows
  have hwake (hn : ¬((T.rows i).phase=.zombie ∧ 0<new ∧ auto=true))
      (hc : (T.rows i).phase≠.unused ∧ (T.rows i).ppid=old) :
      let T' := (T.set i {T.rows i with ppid := new}).wakeWaiters (T.rows i).pid
      T'.initPid=T.initPid ∧ Adopted old new auto (T.rows i) (T'.rows i) ∧
        ∀ j, j≠i → (T.rows j).Woken (T'.rows j) := by
    refine ⟨wakeWaiters_initPid _,?_,fun j hj => hset hj ▸ wakeWaiters_woken _ j⟩
    rw [Adopted,if_pos hc,if_neg hn]
    have := wakeWaiters_woken (T := T.set i {T.rows i with ppid := new}) (T.rows i).pid i
    rwa [set_self] at this
  have hsame (hn : ¬((T.rows i).phase=.zombie ∧ 0<new ∧ auto=true))
      (hc : (T.rows i).phase≠.unused ∧ (T.rows i).ppid=old) :
      let T' := T.set i {T.rows i with ppid := new}
      T'.initPid=T.initPid ∧ Adopted old new auto (T.rows i) (T'.rows i) ∧
        ∀ j, j≠i → (T.rows j).Woken (T'.rows j) := by
    refine ⟨rfl,?_,fun j hj => .inl (hset hj)⟩
    rw [Adopted,if_pos hc,if_neg hn,set_self]
    exact .refl _
  unfold reparentChild
  by_cases hc : (T.rows i).phase≠.unused ∧ (T.rows i).ppid=old
  · rw [if_pos (by simp [hc])]
    dsimp only
    split_ifs with hnew hz ha hr
    · exact hsame (fun h => absurd h.2.1 (by omega)) hc
    · have hauto' : auto=true := hauto.symm.trans ha
      refine ⟨?_,?_,fun j hj => .inl ?_⟩
      · -- a zombie is not the live init task
        rw [reap,set_self]
        refine if_neg fun hp => ?_
        cases init with
        | none => exact absurd (h.auto.trans hauto') (by simp [autoReaps])
        | some p =>
          obtain ⟨halive,hpid⟩ := h.live p rfl
          have hp' : (T.rows i).pid=(T.rows p).pid := hp.trans hpid.symm
          obtain rfl := h.unique i p hc.1 (Row.alive_iff.1 halive).1 hp'
          exact (Row.alive_iff.1 halive).2 hz
      · rw [Adopted,if_pos hc,if_pos ⟨hz,by omega,hauto'⟩]
        exact set_self ..
      · exact (set_of_ne hj).trans (hset hj)
    · exact hwake (fun h => ha (by rw [hauto,h.2.2])) hc
    · exact hwake (fun h => hz h.1) hc
    · exact hsame (fun h => hz h.1) hc
  · rw [if_neg (by simpa using hc)]
    refine ⟨rfl,?_,fun j _ => .refl _⟩
    rw [Adopted,if_neg hc]
    exact .refl _

lemma foldl_reparentChild (old new : ℤ) (l : List TaskIx) (hl : l.Nodup) :
    ∀ T : ProcTable, T.Adopter init auto →
    (l.foldl (reparentChild old init new) T).initPid=T.initPid ∧
    ∀ j, if j∈l then
        Adopted old new auto (T.rows j) ((l.foldl (reparentChild old init new) T).rows j)
      else (T.rows j).Woken ((l.foldl (reparentChild old init new) T).rows j) := by
  induction l with
  | nil => exact fun T _ => ⟨rfl,fun j => .refl _⟩
  | cons i l ih =>
    intro T h
    obtain ⟨hi,hl⟩ := List.nodup_cons.1 hl
    obtain ⟨hinit,hrow,hothers⟩ : _ ∧ Adopted old new auto _ _ ∧ _ := reparentChild_rows h i
    have hnext : (T.reparentChild old init new i).Adopter init auto := h.step hinit fun j => by
      by_cases hj : j=i
      · exact hj ▸ hrow.kept
      · exact (hothers j hj).kept
    obtain ⟨hinit',hrows⟩ := ih hl _ hnext
    refine ⟨hinit'.trans hinit,fun j => ?_⟩
    have hj' := hrows j
    rw [List.foldl_cons]
    by_cases hj : j=i
    · subst hj
      rw [if_neg hi] at hj'
      rw [if_pos List.mem_cons_self]
      exact hrow.woken hj'
    · simp only [List.mem_cons,hj,false_or]
      split_ifs at hj' ⊢
      · exact .of_woken (hothers j hj) hj'
      · exact (hothers j hj).trans hj'

end Adoption

/-- The new parent of the children of a task that ends. -/
def heir (T : ProcTable) (t : TaskIx) : Option TaskIx :=
  if (T.rows t).pid=T.initPid then none else T.liveInit

lemma liveInit_eq_some {p : TaskIx} (h : T.liveInit=some p) :
    0<T.initPid ∧ (T.rows p).alive=true ∧ (T.rows p).pid=T.initPid := by
  unfold liveInit at h
  split_ifs at h with hi
  rw [Option.filter_eq_some_iff] at h
  have := find_eq_some h.1
  exact ⟨by omega,h.2,by simpa using this⟩

lemma liveInit_ended (hT : T.Numbered) : (T.set t (T.rows t).ended).liveInit=T.heir t := by
  have hpid (i : TaskIx) : ((T.set t (T.rows t).ended).rows i).pid=(T.rows i).pid := by
    by_cases hi : i=t
    · subst hi
      rw [set_self]
      rfl
    · rw [set_of_ne hi]
  have hfind : ((T.set t (T.rows t).ended).find fun r => r.pid=T.initPid)
      = T.find fun r => r.pid=T.initPid := by
    simp only [find,hpid]
  have halive {i : TaskIx} (hi : i≠t) :
      ((T.set t (T.rows t).ended).rows i).alive=(T.rows i).alive := by rw [set_of_ne hi]
  change (if T.initPid≤0 then none else Option.filter _ (ProcTable.find _ fun r => r.pid=T.initPid))=_
  rw [hfind,heir,liveInit]
  by_cases h0 : T.initPid≤0
  · simp [h0]
  rw [if_neg h0,if_neg h0]
  cases hf : T.find fun r => r.pid=T.initPid with
  | none => simp
  | some i =>
    have hi : (T.rows i).pid=T.initPid := by simpa using find_eq_some hf
    have hused {i : TaskIx} (hi : (T.rows i).pid=T.initPid) : (T.rows i).phase≠.unused :=
      fun hu => by have := hT.free i hu; omega
    by_cases he : (T.rows t).pid=T.initPid
    · obtain rfl := hT.unique i t (hused hi) (hused he) (hi.trans he.symm)
      simp [he,Option.filter,Row.alive,Row.ended]
    · have hne : i≠t := by
        rintro rfl
        exact he hi
      simp [he,Option.filter,halive hne]

/-- The table after the end of the task `t`. -/
structure Exited (T : ProcTable) (t : TaskIx) (T' : ProcTable) : Prop where
  initPid : T'.initPid=T.initPid
  self : T'.rows t=if T.autoReaps (T.parentOf (T.rows t)) then .zero else (T.rows t).ended
  others : ∀ j, j≠t → Adopted (T.rows t).pid ((T.heir t).elim (-1) fun i => (T.rows i).pid)
    (T.autoReaps (T.heir t)) (T.rows j) (T'.rows j)

lemma heir_ne {p : TaskIx} (h : T.heir t=some p) : p≠t := by
  unfold heir at h
  split_ifs at h with he
  rintro rfl
  exact he (liveInit_eq_some h).2.2

section
variable (hT : T.Numbered)
include hT

lemma Numbered.adopter (ht : (T.rows t).phase≠.unused) :
    (T.set t (T.rows t).ended).Adopter (T.heir t) (T.autoReaps (T.heir t)) where
  unique i j hi hj he := by
    have hused {i : TaskIx} (h : ((T.set t (T.rows t).ended).rows i).phase≠.unused) :
        (T.rows i).phase≠.unused ∧ ((T.set t (T.rows t).ended).rows i).pid=(T.rows i).pid := by
      by_cases hit : i=t
      · subst hit
        rw [set_self]
        exact ⟨ht,rfl⟩
      · rw [set_of_ne hit] at h ⊢
        exact ⟨h,rfl⟩
    rw [(hused hi).2,(hused hj).2] at he
    exact hT.unique i j (hused hi).1 (hused hj).1 he
  live p hp := by
    rw [set_of_ne (heir_ne hp)]
    unfold heir at hp
    split_ifs at hp
    exact (liveInit_eq_some hp).2
  auto := by
    cases hp : T.heir t with
    | none => rfl
    | some p => simp only [autoReaps,Option.any_some,set_of_ne (heir_ne hp)]

lemma Numbered.init_kept (ht : (T.rows t).phase≠.unused)
    (hp : (T.rows t).pid=T.initPid) : T.autoReaps (T.parentOf (T.rows t))=false := by
  rw [parentOf,if_pos (hT.init t ht hp)]
  rfl

lemma reparent_ended (hu : (T.rows t).phase≠.unused) :
    (T.set t (T.rows t).ended).reparent (T.rows t).pid=(List.finRange maxTasks).foldl
      (reparentChild (T.rows t).pid (T.heir t) ((T.heir t).elim (-1) fun i => (T.rows i).pid))
      (T.set t (T.rows t).ended) := by
  have hpos := hT.pid t hu
  have hnew : ((T.heir t).elim (-1) fun i => ((T.set t (T.rows t).ended).rows i).pid)
      = (T.heir t).elim (-1) fun i => (T.rows i).pid := by
    cases hp : T.heir t with
    | none => rfl
    | some p => simp only [Option.elim_some,set_of_ne (heir_ne hp)]
  rw [reparent,if_neg (by omega),liveInit_ended hT,hnew]

lemma reparent_rows (hu : (T.rows t).phase≠.unused) :
    ((T.set t (T.rows t).ended).reparent (T.rows t).pid).initPid=T.initPid ∧
    ∀ j, Adopted (T.rows t).pid ((T.heir t).elim (-1) fun i => (T.rows i).pid) (T.autoReaps (T.heir t))
      ((T.set t (T.rows t).ended).rows j) (((T.set t (T.rows t).ended).reparent (T.rows t).pid).rows j) := by
  obtain ⟨hinit,hrows⟩ := foldl_reparentChild (T.rows t).pid
    ((T.heir t).elim (-1) fun i => (T.rows i).pid) _ (List.nodup_finRange maxTasks) _ (hT.adopter hu)
  rw [reparent_ended hT hu]
  refine ⟨hinit,fun j => ?_⟩
  have hj := hrows j
  rwa [if_pos (List.mem_finRange j)] at hj

/-- The end of a task that is alive. -/
theorem exit_exited (ht : (T.rows t).alive=true) : T.Exited t (T.exit t) := by
  have hu := (Row.alive_iff.1 ht).1
  -- the table after the children have got their new parent and the waits have ended
  obtain ⟨T3,hT3⟩ : ∃ T3, T3=((T.set t (T.rows t).ended).reparent (T.rows t).pid).wakeWaiters
    (T.rows t).pid := ⟨_,rfl⟩
  obtain ⟨hinit,hrows⟩ := reparent_rows hT hu
  have hrow3 (j : TaskIx) : Adopted (T.rows t).pid ((T.heir t).elim (-1) fun i => (T.rows i).pid)
      (T.autoReaps (T.heir t)) ((T.set t (T.rows t).ended).rows j) (T3.rows j) := by
    exact hT3 ▸ (hrows j).woken (wakeWaiters_woken _ j)
  have hinit3 : T3.initPid=T.initPid := by
    rw [hT3,wakeWaiters_initPid,hinit]
  have hself3 : T3.rows t=(T.rows t).ended := by
    have h := hrow3 t
    rw [set_self,Adopted,if_neg fun h => hT.ppid t hu h.2] at h
    rcases h with h | ⟨⟨_,hf⟩,-⟩
    · exact h
    · cases hf
  have hexit : T.exit t=if T.autoReaps (T.parentOf (T.rows t)) then T3.reap t else T3 := by
    rw [hT3]
    rfl
  rw [hexit]
  cases hr : T.autoReaps (T.parentOf (T.rows t)) with
  | true =>
    refine ⟨?_,?_,fun j hj => ?_⟩
    · have hne : (T3.rows t).pid≠T3.initPid := by
        rw [hself3,hinit3]
        intro he
        have := hT.init_kept hu he
        simp [hr] at this
      exact (if_neg hne).trans hinit3
    · rw [hr]
      exact set_self ..
    · have := hrow3 j
      rw [set_of_ne hj] at this
      change Adopted _ _ _ _ ((T3.set t .zero).rows j)
      rwa [set_of_ne hj]
  | false =>
    refine ⟨hinit3,?_,fun j hj => ?_⟩
    · rw [hr]
      exact hself3
    · have := hrow3 j
      rwa [set_of_ne hj] at this

end

namespace Exited

section
variable (h : T.Exited t T')
include h

lemma kept (hj : j≠t) : (T.rows j).Kept (T'.rows j) := (h.others j hj).kept

lemma used (ht : (T.rows t).phase≠.unused) (hu : (T'.rows j).phase≠.unused) :
    (T.rows j).phase≠.unused ∧ (T'.rows j).pid=(T.rows j).pid ∧
      (T'.rows j).pgid=(T.rows j).pgid ∧ (T'.rows j).reaps=(T.rows j).reaps := by
  by_cases hj : j=t
  · subst hj
    rw [h.self] at hu ⊢
    split_ifs at hu ⊢
    · exact absurd rfl hu
    · exact ⟨ht,rfl,rfl,rfl⟩
  · exact (h.kept hj).used hu

lemma ppid (hj : j≠t) (hu : (T'.rows j).phase≠.unused) : (T'.rows j).ppid
    = if (T.rows j).ppid=(T.rows t).pid then (T.heir t).elim (-1) fun i => (T.rows i).pid
      else (T.rows j).ppid := by
  have hu0 := ((h.kept hj).used hu).1
  have ha := h.others j hj
  unfold Adopted at ha
  split_ifs at ha with hc hz
  · rw [ha] at hu
    exact absurd rfl hu
  · rw [if_pos hc.2,ha.ppid]
  · rw [if_neg fun hp => hc ⟨hu0,hp⟩,ha.ppid]

lemma numbered (hT : T.Numbered) (ht : (T.rows t).phase≠.unused) :
    T'.Numbered where
  pid j hu := by
    obtain ⟨hu0,hp,-⟩ := h.used ht hu
    rw [hp]
    exact hT.pid j hu0
  free j hu := by
    by_cases hj : j=t
    · subst hj
      rw [h.self] at hu ⊢
      split_ifs at hu ⊢
      · rfl
      · cases hu
    · have ha := h.others j hj
      unfold Adopted at ha
      split_ifs at ha with hc hz
      · rw [ha]
        rfl
      · exact absurd (ha.unused.1 hu) hc.1
      · rw [ha.pid]
        exact hT.free j (ha.unused.1 hu)
  unique i j hi hj he := by
    obtain ⟨hi0,hpi,-⟩ := h.used ht hi
    obtain ⟨hj0,hpj,-⟩ := h.used ht hj
    exact hT.unique i j hi0 hj0 (hpi.symm.trans (he.trans hpj))
  ppid j hu := by
    obtain ⟨hu0,hp,-⟩ := h.used ht hu
    rw [hp]
    by_cases hj : j=t
    · subst hj
      rw [h.self] at hu ⊢
      split_ifs at hu ⊢
      · exact absurd rfl hu
      · exact hT.ppid j hu0
    · rw [h.ppid hj hu]
      split_ifs with hc
      · -- the new parent is init, which is no one's child
        have hpos := hT.pid j hu0
        have hpt := hT.pid t ht
        cases hheir : T.heir t with
        | none =>
          simp only [Option.elim_none]
          omega
        | some p =>
          unfold heir at hheir
          split_ifs at hheir
          obtain ⟨-,halive,hpid⟩ := liveInit_eq_some hheir
          intro he
          obtain rfl := hT.unique p j (Row.alive_iff.1 halive).1 hu0 he
          have := hT.init p hu0 hpid
          omega
      · exact hT.ppid j hu0
  init j hu hi := by
    obtain ⟨hu0,hp,-⟩ := h.used ht hu
    rw [hp,h.initPid] at hi
    have hle := hT.init j hu0 hi
    by_cases hj : j=t
    · subst hj
      rw [h.self] at hu ⊢
      split_ifs at hu ⊢
      · exact absurd rfl hu
      · exact hle
    · have hpt := hT.pid t ht
      rw [h.ppid hj hu,if_neg (by omega)]
      exact hle

end

end Exited

/-- The number belongs to a live task that frees its children at once. -/
def Reaper (T : ProcTable) (n : ℤ) : Prop :=
  0<n ∧ ∃ p, (T.rows p).alive=true ∧ (T.rows p).pid=n ∧ (T.rows p).reaps=true

lemma byPid_eq_some (hT : T.Numbered) {n : ℤ} : T.byPid n=some i ↔
    (T.rows i).phase≠.unused ∧ (T.rows i).pid=n := by
  constructor
  · intro h
    have := find_eq_some h
    simpa using this
  · intro h
    refine find_of_unique (by simp [h]) fun j hj => ?_
    have hj : (T.rows j).phase≠.unused ∧ (T.rows j).pid=n := by simpa using hj
    exact hT.unique j i hj.1 h.1 (hj.2.trans h.2.symm)

lemma autoReaps_parentOf (hT : T.Numbered) (r : Row) :
    T.autoReaps (T.parentOf r)=true ↔ T.Reaper r.ppid := by
  unfold parentOf Reaper
  split_ifs with h
  · simp only [autoReaps,Option.any_none,Bool.false_eq_true,false_iff,not_and]
    intro h'
    omega
  · rw [autoReaps,Option.any_eq_true]
    constructor
    · rintro ⟨p,hp,hr⟩
      rw [Bool.and_eq_true] at hr
      exact ⟨by omega,p,hr.1,((byPid_eq_some hT).1 hp).2,hr.2⟩
    · rintro ⟨-,p,ha,hp,hr⟩
      exact ⟨p,(byPid_eq_some hT).2 ⟨(Row.alive_iff.1 ha).1,hp⟩,by rw [ha,hr]; rfl⟩

lemma liveInit_eq_some_iff (hT : T.Numbered) : T.liveInit=some i ↔
    0<T.initPid ∧ (T.rows i).alive=true ∧ (T.rows i).pid=T.initPid := by
  constructor
  · exact liveInit_eq_some
  · rintro ⟨hpos,ha,hp⟩
    rw [liveInit,if_neg (by omega)]
    have hfind : (T.find fun r => r.pid=T.initPid)=some i := by
      refine find_of_unique (by simp [hp]) fun j hj => ?_
      have hj : (T.rows j).pid=T.initPid := by simpa using hj
      have hu : (T.rows j).phase≠.unused := fun hu => by
        have := hT.free j hu
        omega
      exact hT.unique j i hu (Row.alive_iff.1 ha).1 (hj.trans hp.symm)
    rw [hfind,Option.filter_some,if_pos ha]

lemma autoReaps_liveInit (hT : T.Numbered) : T.autoReaps T.liveInit=true ↔ T.Reaper T.initPid := by
  rw [autoReaps,Option.any_eq_true]
  constructor
  · rintro ⟨p,hp,hr⟩
    obtain ⟨hpos,ha,hpid⟩ := liveInit_eq_some hp
    rw [Bool.and_eq_true] at hr
    exact ⟨hpos,p,ha,hpid,hr.2⟩
  · rintro ⟨hpos,p,ha,hp,hr⟩
    exact ⟨p,(liveInit_eq_some_iff hT).2 ⟨hpos,ha,hp⟩,by rw [ha,hr]; rfl⟩

end ProcTable

end FuriOS
