import FuriOS.Task.IsolationSpec
import FuriOS.Task.ExitSpec

/-! Exit and reaping of tasks with private mappings: everything a slot owns is given back, and
the other tasks read what they read before. -/
namespace FuriOS
open Prog Owners MemView

lemma pmmFreePage_zero (m : Phys) : pmmFreePage 0 m=m := by
  rw [pmmFreePage,if_pos (by simp [pageIndexed])]

lemma freeAll_nonNull (l : List ℕ) (m : Phys) :
    (l.filterMap nonNull).foldl (fun m p => pmmFreePage p m) m
      = l.foldl (fun m p => pmmFreePage p m) m := by
  induction l generalizing m with
  | nil => rfl
  | cons p l ih =>
    by_cases hp : p=0
    · subst hp
      rw [List.filterMap_cons_none (by simp [nonNull]),ih,List.foldl_cons,pmmFreePage_zero]
    · rw [List.filterMap_cons_some (b := p) (by simp [nonNull,hp]),List.foldl_cons,ih]
      rfl

lemma pageRange_kstack (base : ℕ) : pageRange base (base+taskKstackSize)
    = (List.finRange 16).map fun k : Fin 16 => base+k.val*pageSize := by
  have hlen : (base+taskKstackSize-base+(pageSize-1))/pageSize=16 := by
    rw [Nat.add_sub_cancel_left]
    rfl
  rw [pageRange,hlen]
  rfl

/-- The owners in the slot of a task apart from its user pages. -/
def slotOwners (t : TaskIx) : List Owner :=
  (List.finRange 4).map (Owner.table t)++(List.finRange 16).map (Owner.stack t)

lemma nodup_slotOwners (t : TaskIx) : (slotOwners t).Nodup := by
  refine List.Nodup.append ?_ ?_ ?_
  · exact (List.nodup_finRange 4).map fun _ _ h => (Owner.table.inj h).2
  · exact (List.nodup_finRange 16).map fun _ _ h => (Owner.stack.inj h).2
  · intro o ho ho'
    obtain ⟨k,-,rfl⟩ := List.mem_map.1 ho
    obtain ⟨k',-,hk'⟩ := List.mem_map.1 ho'
    cases hk'

lemma freeTaskPages_eq (s : System) (t : TaskIx) (m : Phys) : freeTaskPages (s.tasks t) m
    = ((slotOwners t).filterMap s.memView.own).foldl (fun m p => pmmFreePage p m) m := by
  have htab : ((List.finRange 4).map (Owner.table t)).filterMap s.memView.own
      = [(s.mm t).l1,(s.mm t).l2Low,(s.mm t).l3UserA,(s.mm t).l3UserB].filterMap nonNull := rfl
  have hstack : ((List.finRange 16).map (Owner.stack t)).filterMap s.memView.own
      = if (s.tasks t).kstackBase=0 then []
        else pageRange (s.tasks t).kstackBase ((s.tasks t).kstackBase+taskKstackSize) := by
    rw [List.filterMap_map]
    split_ifs with hz
    · refine List.filterMap_eq_nil_iff.2 fun k _ => ?_
      simp [own,System.memView,nonNull,hz]
    · rw [pageRange_kstack,← List.filterMap_eq_map]
      refine List.filterMap_congr fun k _ => ?_
      simp [own,System.memView,nonNull,hz]
  rw [slotOwners,List.filterMap_append,List.foldl_append,htab,hstack,freeAll_nonNull,freeTaskPages]
  split_ifs <;> rfl

lemma memView_tasks {s : System} {f : TaskIx → Task} (hm : ∀ t, (f t).mm=(s.tasks t).mm)
    (hk : ∀ t, (f t).kstackBase=(s.tasks t).kstackBase) : {s with tasks := f}.memView=s.memView := by
  simp only [System.memView,MemView.mk.injEq,true_and]
  exact ⟨funext hm,funext hk⟩

lemma memView_wakePipe (p : ℕ) (s : System) : (taskWakePipe p s).memView=s.memView :=
  memView_tasks (fun t => by dsimp only; split <;> rfl) fun t => by dsimp only; split <;> rfl

lemma memView_wakeWaiters (pid : ℤ) (s : System) : (taskWakeWaiters pid s).memView=s.memView := by
  unfold taskWakeWaiters
  split
  · rfl
  · exact memView_tasks (fun t => by dsimp only; split <;> rfl) fun t => by dsimp only; split <;> rfl

lemma memView_notifySigchld (t : TaskIx) (ev : ChildEvent) (s : System) :
    (taskNotifySigchld t ev s).memView=s.memView := by
  unfold taskNotifySigchld
  split
  · rfl
  dsimp only
  split_ifs
  · rfl
  · rfl
  · exact memView_setTask_of_eq rfl rfl

namespace MemView.Cow
variable {A : TaskIx → Prop} {r : Readings} {held : List ℕ}
variable {s : System} {t : TaskIx} {v : MemView}

lemma freeAll (ps : List ℕ) (h : Cow A r (ps++held) v) :
    Cow A r held (v.setPhys (ps.foldl (fun m p => pmmFreePage p m) v.phys)) := by
  induction ps generalizing v with
  | nil => exact h
  | cons p ps ih => exact ih (v := v.setPhys (pmmFreePage p v.phys)) h.free

lemma memView_fdDrop (f : Fd) (s : System) : (taskFdDrop f s).memView=s.memView := by
  unfold taskFdDrop
  split <;> rfl

lemma closeAllFds (t : TaskIx) : Preserves (CowOf A r held) (closeAllFds t) := by
  refine .forEach (fun fd => .gets fun o => ?_) _
  split
  · exact .of_pure _
  rename_i f
  have hflush : Preserves (CowOf A r held) (fdFlush f) := by
    refine .gets fun s => ?_
    split
    · exact memInv.flushMatch _ _
    · exact .of_pure _
  refine Preserves.ignore (.bind hflush.attempt fun ok => .bind (.of_modify fun s hs => ?_) fun _ =>
    .bind (.of_modify fun s hs => ?_) fun _ => .of_pure _)
  · rw [CowOf,clearFd,memView_setTask_of_eq rfl rfl,memView_fdDrop]
    exact hs
  · unfold wakeFd
    split_ifs
    · cases f.pipe with
      | none => exact hs
      | some p => exact (congrArg (Cow A r held) (memView_wakePipe p s)).mpr hs
    · exact hs

lemma forget (h : Cow A r held v) (ht : ¬A t) :
    Cow A r ((List.finRange maxUserPages).filterMap (fun i => v.own (.page t i))++held)
      (v.setMm t (v.mm t).forgetPages) :=
  h.setMm h.ok.forgetPages (h.sound t).forgetPages fun hA => absurd hA ht

lemma unmapUser (ht : ¬A t) : Preserves (CowOf A r held) (taskUnmapUser t) := by
  refine .of_wp fun s hs => ?_
  rw [taskUnmapUser,wp_bind]
  -- the invariant speaks of the state in which the slots are empty already
  refine wp_imp (wp_forEach (fun rest s' => s'.mm t=s.mm t ∧
      Cow A r (rest.filterMap (fun i => s.memView.own (.page t i))++held)
        (s'.memView.setMm t (s.mm t).forgetPages)) ?_ _ s ⟨rfl,hs.forget ht⟩) fun _ s' hs' => ?_
  · rintro i rest s' ⟨hmm,hcow⟩
    rw [wp_gets_bind,hmm]
    cases hi : (s.mm t).pages i with
    | none =>
      rw [List.filterMap_cons_none (by simp [own,hi])] at hcow
      exact ⟨hmm,hcow⟩
    | some up =>
      rw [List.filterMap_cons_some (b := up.pa) (by simp [own,hi])] at hcow
      dsimp only
      rw [wp_bind,wp_ignore,writebackAt_run (by rw [hmm]; exact (hs.sound t).unshared),modifyPhys,wp_modify]
      exact ⟨hmm,hcow.free⟩
  · rw [modifyMm,wp_modify,CowOf,memView_setMm,hs'.1]
    exact hs'.2

lemma dropSlot (h : Cow A r held v) (ht : ¬A t) : Cow A r ((slotOwners t).filterMap v.own++held)
      ((v.setMm t (v.mm t).dropTables).setKstack t 0) := by
  have hown : ((v.setMm t (v.mm t).dropTables).setKstack t 0).own
      = fun o => if o∈slotOwners t then none else v.own o := by
    funext o
    cases o with
    | page t' i =>
      by_cases he : t'=t
      · subst he
        simp [slotOwners,own,AddressSpace.dropTables]
      · simp [slotOwners,own,mm_setMm_of_ne he]
    | table t' k =>
      by_cases he : t'=t
      · subst he
        have hz : (v.mm t').dropTables.table k=0 := by
          fin_cases k <;> rfl
        simp [slotOwners,own,hz,nonNull]
      · simp [slotOwners,own,mm_setMm_of_ne he,Ne.symm he]
    | stack t' k =>
      by_cases he : t'=t
      · subst he
        simp [slotOwners,own,setKstack,nonNull]
      · simp [slotOwners,own,setKstack,he,Ne.symm he]
    | cache i => simp [slotOwners,own,setKstack]
  have hcounted := h.ok.counted.dropAll (nodup_slotOwners t)
  refine ⟨⟨h.ok.phys,by rw [hown]; exact hcounted⟩,h.setMm_sound (h.sound t).dropTables,fun t' ht' va => ?_⟩
  rw [h.userRead_congr (u := (v.setMm t (v.mm t).dropTables).setKstack t 0)
    (mm_setMm_of_ne fun he => ht (he ▸ ht')) fun _ _ _ _ _ _ => rfl]
  exact h.reads t' ht' va

lemma reset (h : Cow A r held v) (ht : ¬A t) : Cow A r held ((v.setMm t .zero).setKstack t 0) := by
  refine ⟨⟨h.ok.phys,h.ok.counted.mono fun o => ?_⟩,h.setMm_sound .zero,fun t' ht' va => ?_⟩
  · cases o with
    | page t' i =>
      by_cases he : t'=t
      · subst he
        exact .inr (by simp [own,AddressSpace.zero])
      · exact .inl (by simp [own,mm_setMm_of_ne he])
    | table t' k =>
      by_cases he : t'=t
      · subst he
        have hz : AddressSpace.zero.table k=0 := by
          fin_cases k <;> rfl
        exact .inr (by simp [own,hz,nonNull])
      · exact .inl (by simp [own,mm_setMm_of_ne he])
    | stack t' k =>
      by_cases he : t'=t
      · subst he
        exact .inr (by simp [own,setKstack,nonNull])
      · exact .inl (by simp [own,setKstack,he])
    | cache i => exact .inl rfl
  · rw [h.userRead_congr (u := (v.setMm t .zero).setKstack t 0)
      (mm_setMm_of_ne fun he => ht (he ▸ ht')) fun _ _ _ _ _ _ => rfl]
    exact h.reads t' ht' va

lemma release (ht : ¬A t) : Preserves (CowOf A r held) (taskRelease t) := by
  unfold taskRelease
  refine .bind (closeAllFds t) fun _ => .bind (unmapUser ht) fun _ => .bind (.of_modify fun s hs => ?_)
    fun _ => .of_wp fun s hs => ?_
  · rw [CowOf,memView_setMm]
    exact hs.setFields rfl rfl rfl Vmas.all_empty
  · have hdrop := (hs.dropSlot ht).freeAll
    rw [wp_gets_bind,modifyPhys,wp_modify_bind,modifyTask,wp_modify,CowOf,memView_setTask,freeTaskPages_eq]
    exact hdrop

lemma reapSlot (ht : ¬A t) : Preserves (CowOf A r held) (taskReapSlot t) := by
  refine .bind (.of_modify fun s hs => ?_) fun _ => .bind (.of_modify fun s hs => ?_) fun _ =>
    .bind (release ht) fun _ => .of_modify fun s hs => ?_
  · split_ifs <;> exact hs
  · split_ifs <;> exact hs
  · rw [CowOf,memView_setTask]
    exact hs.reset ht

end MemView.Cow

/-- None of the tasks in `A` has ended. -/
def System.Awake (A : TaskIx → Prop) (s : System) : Prop :=
  ∀ t, A t → (s.tasks t).state≠.zombie

section Awake
variable {A : TaskIx → Prop} {s : System}

lemma System.Awake.of_state {s' : System} (h : s.Awake A)
    (hs : ∀ t, (s'.tasks t).state=.zombie → (s.tasks t).state=.zombie) : s'.Awake A :=
  fun t ht hz => h t ht (hs t hz)

lemma System.Awake.setTask {t : TaskIx} {f : Task → Task} (h : s.Awake A)
    (hf : (f (s.tasks t)).state=.zombie → A t → (s.tasks t).state=.zombie) :
    (s.setTask t f).Awake A := by
  intro t' ht'
  by_cases he : t'=t
  · subst he
    rw [System.setTask_self]
    exact fun hz => h t' ht' (hf hz ht')
  · rw [System.setTask_of_ne he]
    exact h t' ht'

lemma System.Awake.wakeWaiters (h : s.Awake A) (pid : ℤ) : (taskWakeWaiters pid s).Awake A := by
  unfold taskWakeWaiters
  split
  · exact h
  · refine h.of_state fun t => ?_
    dsimp only
    split_ifs
    · exact fun hz => nomatch hz
    · exact fun hz => hz

lemma System.Awake.notifySigchld (h : s.Awake A) (t : TaskIx) (ev : ChildEvent) :
    (taskNotifySigchld t ev s).Awake A := by
  unfold taskNotifySigchld
  split
  · exact h
  dsimp only
  split_ifs
  · exact h
  · exact h
  · exact h.setTask fun hz _ => hz

lemma awake_reapInv (A : TaskIx → Prop) (i : TaskIx) : ReapInv (System.Awake A) i where
  toProcInv := by
    refine .of_parts (.of_view fun s s' hv h => h.of_state fun t hz => ?_) (fun s p h => h.of_state fun _ hz => hz)
      (fun s t fd h => h.setTask fun hz _ => hz) fun s p h => h.of_state fun t => ?_
    · have hst : (s'.tasks t).state=(s.tasks t).state :=
        congrArg (fun v : ProcView => (v.tasks t).state) hv
      rwa [← hst]
    · unfold taskWakePipe
      dsimp only
      split_ifs
      · exact fun hz => nomatch hz
      · exact fun hz => hz
  initGone s h _ := h
  reaped s h _ := h
  release s h := h.setTask fun hz _ => hz
  zero s h := h.setTask fun hz _ => nomatch hz

end Awake

namespace MemView.Cow
variable {A : TaskIx → Prop} {r : Readings} {held : List ℕ}
variable {s : System} {t : TaskIx}

/-- The watched tasks have not ended and read what `r` allows. -/
def Guarded (A : TaskIx → Prop) (r : Readings) (held : List ℕ)
    (s : System) : Prop := CowOf A r held s ∧ s.Awake A

lemma guarded_notify (h : Guarded A r held s) (i : TaskIx) (ev : ChildEvent) (pid : ℤ) :
    Guarded A r held (taskWakeWaiters pid (taskNotifySigchld i ev s)) := by
  refine ⟨?_,(h.2.notifySigchld i ev).wakeWaiters pid⟩
  rw [CowOf,memView_wakeWaiters,memView_notifySigchld]
  exact h.1

lemma guarded_reapSlot (ht : ¬A t) : Preserves (Guarded A r held) (taskReapSlot t) :=
  fun s hs => ⟨reapSlot ht s hs.1,(awake_reapInv A t).reapSlot s hs.2⟩

lemma reparentChild (oldPpid : ℤ) (init : Option TaskIx) (newPpid : ℤ) (i : TaskIx) :
    Preserves (Guarded A r held) (reparentChild oldPpid init newPpid i) := by
  refine Preserves.of_ends fun s hs => Ends.gets_bind ?_
  have hz (hz : (s.tasks i).state=.zombie) : ¬A i := fun ha => hs.2 i ha hz
  refine .of_preserves (.when fun _ => .bind (.of_modify fun s hs => ?_) fun _ => .when fun _ => ?_) hs
  · refine ⟨?_,hs.2.setTask fun hz _ => hz⟩
    rw [CowOf,memView_setTask_of_eq rfl rfl]
    exact hs.1
  · refine .ite (fun hzombie => .gets fun s' => .ite (fun _ => guarded_reapSlot (hz hzombie))
      fun _ => .of_modify fun s hs => guarded_notify hs i _ _) fun _ => ?_
    exact .ite (fun _ => .of_modify fun s hs => guarded_notify hs i _ _) fun _ =>
      .when fun _ => .of_modify fun s hs => guarded_notify hs i _ _

lemma forceExit (code : ℤ) (ht : ¬A t) : Preserves (Guarded A r held) (taskForceExit t code) := by
  refine .gets fun s0 => .when fun _ => .bind ?_ fun _ => .bind (.of_modify fun s hs => ?_)
    fun _ => .bind (.of_modify fun s hs => ?_) fun _ => .bind ?_ fun _ => .bind (.of_modify fun s hs => ?_)
    fun _ => .when fun _ => guarded_reapSlot ht
  · exact fun s hs => ⟨closeAllFds t s hs.1,(awake_reapInv A t).closeAllFds t s hs.2⟩
  · refine ⟨?_,hs.2.setTask fun _ ha => absurd ha ht⟩
    rw [CowOf,memView_setTask_of_eq rfl rfl]
    exact hs.1
  · refine ⟨?_,hs.2.notifySigchld _ _⟩
    rw [CowOf,memView_notifySigchld]
    exact hs.1
  · exact .gets fun _ => .when fun _ => .forEach (fun i => reparentChild _ _ _ i) _
  · refine ⟨?_,hs.2.wakeWaiters _⟩
    rw [CowOf,memView_wakeWaiters]
    exact hs.1

end MemView.Cow
end FuriOS
