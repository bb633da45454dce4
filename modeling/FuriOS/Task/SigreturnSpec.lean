import FuriOS.Task.SignalQueue
import FuriOS.Task.KernelSteps
import Mathlib.Data.UInt

/-! Signal delivery saves the interrupted frame and `sigreturn` brings it back through the system
call return path. -/
namespace FuriOS
open Prog

variable {t i u : TaskIx} {c : Option TaskIx} {s s1 s2 : System} {g : SignalState} {f frame : TrapFrame}

/-- The task waits with this frame and signal state for the scheduler's choice. -/
structure Ready (t : TaskIx) (c : Option TaskIx) (f : TrapFrame) (g : SignalState)
    (s : System) : Prop where
  current : s.current=c
  tf : (s.tasks t).tf=f
  sig : (s.tasks t).sig=g
  state : (s.tasks t).state=.runnable

lemma Ready.of_task (h : Ready t c f g s) (hc : s1.current=s.current)
    (ht : s1.tasks t=s.tasks t) : Ready t c f g s1 :=
  ⟨hc.trans h.current,ht ▸ h.tf,ht ▸ h.sig,ht ▸ h.state⟩

lemma task_of_procView (h : s1.procView=s.procView) (t : TaskIx) :
    {s1.tasks t with mm := AddressSpace.zero}={s.tasks t with mm := AddressSpace.zero} :=
  congrFun (congrArg ProcView.tasks h) t

lemma procInv_ready : ProcInv (Ready t c f g) := by
  refine .of_parts (.of_view fun s s' hv h => ?_) (fun s p h => h.of_task rfl rfl) (fun s u fd h => ?_)
    fun s p h => h.of_task rfl (by simp [taskWakePipe,h.state])
  · have hk := task_of_procView hv t
    simp only [Task.mk.injEq] at hk
    refine ⟨(congrArg ProcView.current hv).trans h.current,?_,?_,?_⟩
    · exact hk.2.2.2.2.2.2.2.2.2.2.2.2.2.trans h.tf
    · exact hk.2.2.2.2.2.2.2.2.2.2.1.trans h.sig
    · exact hk.2.2.2.1.trans h.state
  · by_cases hu : t=u
    · subst hu
      exact ⟨h.current,by simpa using h.tf,by simpa using h.sig,by simpa using h.state⟩
    · exact h.of_task rfl (System.setTask_of_ne hu)

lemma reapInv_ready (hne : i≠t) : ReapInv (Ready t c f g) i where
  toProcInv := procInv_ready
  initGone _ h _ := h.of_task rfl rfl
  reaped _ h _ := h.of_task rfl rfl
  release _ h := h.of_task rfl (System.setTask_of_ne hne.symm)
  zero _ h := h.of_task rfl (System.setTask_of_ne hne.symm)

lemma preserves_ready_reapOrphans : Preserves (Ready t c f g) (taskReapOrphanZombies (some t)) := by
  refine (Preserves.of_gets _).bind fun _ => .when fun _ => .forEach (fun i => ?_) _
  refine (Preserves.of_gets _).bind fun s => .when fun hc => (reapInv_ready ?_).reapSlot
  rintro rfl
  simp at hc

namespace SignalState
variable {sig : ℕ}

/-- The signals that delivery may pick. -/
def deliverable (g : SignalState) : List ℕ :=
  ((List.range 31).map (· + 1)).filter fun sig => g.isPending sig && !g.blocked sig

/-- Delivery passes over the signal: it is ignored, or it would continue a stopped task. -/
def passes (g : SignalState) (sig : ℕ) : Bool :=
  g.handler sig=sigIgn || g.handler sig=sigDfl &&
    (taskSignalDefaultAction sig=.ignore || taskSignalDefaultAction sig=.cont)

/-- No signal waits that has a handler, stops the task or ends it. -/
def Quiet (g : SignalState) : Prop := ∀ sig∈g.deliverable, g.passes sig=true

lemma mem_deliverable : sig∈g.deliverable ↔
    signalNumber sig=true ∧ g.isPending sig=true ∧ g.blocked sig=false := by
  rw [deliverable,List.mem_filter,List.mem_map,signalNumber_iff,Bool.and_eq_true,Bool.not_eq_true']
  refine and_congr_left fun _ => ⟨?_,fun h => ⟨sig-1,List.mem_range.2 (by omega),by omega⟩⟩
  rintro ⟨n,hn,rfl⟩
  have := List.mem_range.1 hn
  omega

lemma deliverable_remove (hs : sig∈g.deliverable) (q : List ℕ) :
    deliverable {g with signalQueue := q, pendingSignals := g.pendingSignals &&& ~~~sigbit sig}
      = g.deliverable.filter fun n => n≠sig := by
  rw [deliverable,deliverable,List.filter_filter]
  refine List.filter_congr fun n hn => ?_
  obtain ⟨k,hk,rfl⟩ := List.mem_map.1 hn
  have := List.mem_range.1 hk
  rw [isPending_remove (by omega) (signalNumber_iff.1 (mem_deliverable.1 hs).1).2]
  change (g.isPending (k+1) && _ && !g.blocked (k+1))=_
  rw [Bool.and_comm (g.isPending (k+1)),Bool.and_assoc]

lemma pickFromQueue_mem {q : List ℕ} (h : (g.pickFromQueue q).1=some sig) : sig∈g.deliverable := by
  induction q with
  | nil => cases h
  | cons a q ih =>
    rw [pickFromQueue] at h
    split_ifs at h with h1 h2
    · exact ih h
    · exact ih h
    · obtain rfl := Option.some.inj h
      simp only [Bool.or_eq_true,Bool.not_eq_true',not_or,Bool.not_eq_false] at h1
      exact mem_deliverable.2 ⟨h1.1,h1.2,by simpa using h2⟩

/-- A pick takes one of the signals out of the pending set, if there is one. -/
lemma pickPending_cases (g : SignalState) : ∃ q,
    g.deliverable=[] ∧ g.pickPending=(none,{g with signalQueue := q}) ∨
    ∃ sig∈g.deliverable, g.pickPending=(some sig,
      {g with signalQueue := q, pendingSignals := g.pendingSignals &&& ~~~sigbit sig}) := by
  unfold pickPending
  rcases hr : g.pickFromQueue g.signalQueue with ⟨_ | sig,q⟩
  · refine ⟨q,?_⟩
    cases hset : g.pickFromSet with
    | none => exact .inl ⟨List.filter_eq_nil_iff.2 (List.find?_eq_none.1 hset),rfl⟩
    | some sig =>
      have hp := List.find?_some hset
      exact .inr ⟨sig,List.mem_filter.2 ⟨List.mem_of_find?_eq_some hset,hp⟩,rfl⟩
  · exact ⟨q,.inr ⟨sig,pickFromQueue_mem (by rw [hr]),rfl⟩⟩

end SignalState

def Task.Gone (k : Task) : Prop := k.state=.stopped ∨ k.state=.zombie ∨ k.state=.unused

/-- The task is stopped or has ended. -/
def Gone (t : TaskIx) (s : System) : Prop := (s.tasks t).Gone

namespace Gone

section
variable (h : Gone t s)
include h

lemma setTask {f : Task → Task} (hf : u=t → (s.tasks t).Gone → (f (s.tasks t)).Gone) :
    Gone t (s.setTask u f) := by
  unfold Gone
  by_cases hu : t=u
  · subst hu
    rw [System.setTask_self]
    exact hf rfl h
  · rwa [System.setTask_of_ne hu]

lemma same {f : Task → Task} (hf : (f (s.tasks t)).state=(s.tasks t).state) :
    Gone t (s.setTask u f) := h.setTask fun _ hk => by rwa [Task.Gone,hf]

lemma not_runnable (hi : (s.tasks i).state=.runnable) : i≠t := by
  rintro rfl
  rcases h with h | h | h <;> cases hi.symm.trans h

lemma not_waiting : (s.tasks t).state≠.waiting := by
  rcases h with h | h | h <;> rw [h] <;> decide

lemma notify (u : TaskIx) (ev : ChildEvent) : Gone t (taskNotifySigchld u ev s) := by
  unfold taskNotifySigchld
  split
  · exact h
  dsimp only
  split_ifs
  · exact h
  · exact h
  · exact h.same rfl

lemma wakeWaiters (pid : ℤ) : Gone t (taskWakeWaiters pid s) := by
  unfold taskWakeWaiters
  split
  · exact h
  · unfold Gone
    dsimp only
    rwa [if_neg (by simp [h.not_waiting])]

end

lemma procInv : ProcInv (Gone t) := by
  refine .of_parts (.of_view fun s s' hv h => ?_) (fun _ _ h => h) (fun _ _ _ h => h.same rfl) fun s p h => ?_
  · have hst : (s'.tasks t).state=(s.tasks t).state := congrArg (fun v : ProcView => (v.tasks t).state) hv
    rwa [Gone,Task.Gone,hst]
  · unfold Gone taskWakePipe
    dsimp only
    rwa [if_neg (by simp [h.not_waiting])]

lemma exitInv : ExitInv (Gone t) where
  toProcInv := procInv
  reap _ := ReapInv.reapSlot ⟨procInv,fun _ h _ => h,fun _ h _ => h,fun _ h => h.same rfl,
    fun _ h => h.setTask fun _ _ => .inr (.inr rfl)⟩
  exited _ _ _ h := h.setTask fun _ _ => .inr (.inl rfl)
  ppid _ _ _ h := h.same rfl
  notify _ u ev h := h.notify u ev
  wake _ pid h := h.wakeWaiters pid

lemma wp_forceExit (code : ℤ) {E : System → Prop} : wp (taskForceExit t code) (fun _ => Gone t) E s := by
  have hends : Ends (Gone t) (taskForceExit t code) s := by
    refine Ends.of_wp ?_
    rw [taskForceExit,wp_gets_bind]
    refine wp_when (fun _ => ?_) fun hc => ?_
    · rw [wp_bind]
      refine wp_imp ((total_closeAllFds t).wp (I := fun _ => True) (fun _ _ => trivial) trivial) fun _ s1 _ => ?_
      rw [wp_bind,modifyTask,wp_modify]
      have hex : Gone t (s1.setTask t fun k => k.exited code) := by
        rw [Gone,System.setTask_self]
        exact .inr (.inl rfl)
      exact (Preserves.bind (.of_modify fun _ h => h.notify t .exit) fun _ => .bind (exitInv.reparentChildren _)
        fun _ => .bind (.of_modify fun _ h => h.wakeWaiters _) fun _ => .when fun _ => exitInv.reap t).wp hex
    · simp only [id,Bool.and_eq_false_iff,decide_eq_false_iff_not,not_not] at hc
      exact .inr hc.symm
  obtain ⟨a,ha⟩ := total_taskForceExit t code s
  exact wp_of_run (run_of_fst ha) hends

lemma wp_deliverLoop (hu : u≠t) (fuel : ℕ) : Preserves (Gone t) (deliverLoop u fuel) := by
  have hset {s : System} (f : Task → Task) (h : Gone t s) : Gone t (s.setTask u f) :=
    h.setTask fun he => absurd he hu
  induction fuel with
  | zero => exact .of_pure _
  | succ fuel ih =>
    rw [deliverLoop]
    refine .gets fun k => .bind (.of_modify fun _ h => hset _ h) fun _ => ?_
    split
    · exact .of_pure _
    · refine .ite (fun _ => ih) fun _ => .ite (fun _ => ?_) fun _ => .ite (fun _ => ?_) fun _ => .ite (fun _ => ?_)
        fun _ => ?_
      · split
        · refine .bind (.of_modify fun _ h => ?_) fun _ => ih
          split_ifs
          · exact ((hset _ h).notify _ _).wakeWaiters _
          · exact h
        · refine .bind (.of_modify fun _ h => ?_) fun _ => .of_pure _
          split_ifs
          · exact ((hset _ h).notify _ _).wakeWaiters _
          · exact h
        · exact (exitInv.forceExit u _).bind fun _ => .of_pure _
      · exact .bind (.of_modify fun _ h => hset _ h) fun _ => .of_pure _
      · exact (exitInv.forceExit u _).bind fun _ => .of_pure _
      · exact .bind (.of_modify fun _ h => hset _ h) fun _ => .of_pure _

/-- The rest of the scheduler does not choose the task. -/
lemma wp_runnableLoop (fuel : ℕ) : ∀ r s, Gone t s → r≠some t →
    wp (runnableLoop fuel r) (fun r' s' => Gone t s' ∧ r'≠some t) (fun _ => True) s := by
  induction fuel with
  | zero => exact fun _ _ _ _ => trivial
  | succ fuel ih =>
    intro r s h hr
    cases r with
    | none => exact ⟨h,nofun⟩
    | some next =>
      have hne : next≠t := fun he => hr (congrArg some he)
      have hdeliver : Preserves (Gone t) (taskDeliverPendingSignal next) :=
        .gets fun _ => .ite (fun _ => .of_pure _) fun _ => wp_deliverLoop hne 32
      rw [runnableLoop,wp_bind]
      refine wp_mono (hdeliver.wp h) (fun ok s' h' => ?_) fun _ _ => trivial
      rw [wp_gets_bind]
      split_ifs
      · exact ⟨h',hr⟩
      · exact ih _ _ h' fun hn => h'.not_runnable (runnable_next hn) rfl

lemma wp_orIdle (late : ℕ) {r : Option TaskIx} (h : Gone t s) (hr : r≠some t) :
    wp (orIdle late r) (fun i _ => i≠t) (fun _ => True) s := by
  cases r with
  | some next => exact fun he => hr (congrArg some he)
  | none =>
    rw [orIdle,idleLoop,wp_gets_bind]
    split
    · trivial
    · rw [wp_modify_bind,wp_modify_bind,wp_gets_bind]
      generalize hs1 : taskWakeSleepers _ _=s1
      have h1 : Gone t s1 := by
        rw [← hs1,Gone,taskWakeSleepers]
        dsimp only
        rwa [if_neg (by simp [h.not_waiting])]
      cases hn : (taskNextRunnable s1 s1.current).or (currentRunnable s1) with
      | none => trivial
      | some next => exact h1.not_runnable (runnable_next hn)

end Gone

/-- What delivery leaves of a runnable task that is not in a handler. -/
inductive Delivered (t : TaskIx) (c : Option TaskIx) (f : TrapFrame) (g : SignalState) :
    Bool → System → Prop
  | passed {s : System} {g' : SignalState} (hq : g.Quiet) (hr : Ready t c f g' s) (ha : g'.active=false) :
      Delivered t c f g true s
  | entered {s : System} {f' : TrapFrame} {g' : SignalState} (hq : ¬g.Quiet) (hr : Ready t c f' g' s)
      (ha : g'.active=true) (hf : g'.savedTf=savedFrame f (g.flags g'.activeNum)) : Delivered t c f g true s
  | gone {s : System} (hq : ¬g.Quiet) (h : Gone t s) : Delivered t c f g false s

lemma Ready.pick (h : Ready t c f g s) :
    Ready t c f g.pickPending.2 (s.setTask t fun k => k.setSig k.sig.pickPending.2) := by
  refine ⟨h.current,?_,?_,?_⟩ <;> rw [System.setTask_self]
  · exact h.tf
  · rw [Task.setSig,h.sig]
  · exact h.state

lemma wp_deliverLoop_ready (n : ℕ) : ∀ g s, Ready t c f g s → g.active=false → g.deliverable.length≤n →
    wp (deliverLoop t n) (Delivered t c f g) (fun _ => False) s := by
  have hnone {g : SignalState} (h : g.deliverable=[]) : g.Quiet := by
    rw [SignalState.Quiet,h]
    exact List.forall_mem_nil _
  induction n with
  | zero => exact fun g s hr ha hn => .passed (hnone (List.length_eq_zero_iff.1 (Nat.le_zero.1 hn))) hr ha
  | succ n ih =>
    intro g s hr ha hn
    have hr1 := hr.pick
    rw [deliverLoop,wp_gets_bind,wp_bind,modifyTask,wp_modify,hr.sig]
    generalize (s.setTask t fun k => k.setSig k.sig.pickPending.2)=s1 at hr1 ⊢
    obtain ⟨q,⟨hnil,hpick⟩ | ⟨sig,hsig,hpick⟩⟩ := g.pickPending_cases <;> rw [hpick] at hr1 ⊢
    · exact .passed (hnone hnil) hr1 ha
    -- a signal that is passed over decides nothing, and one is less in the set
    have hskip (hp : g.passes sig=true) : wp (deliverLoop t n) (Delivered t c f g) (fun _ => False) s1 := by
      have hrest := SignalState.deliverable_remove hsig q
      have hq : SignalState.Quiet {g with
          signalQueue := q, pendingSignals := g.pendingSignals &&& ~~~sigbit sig} ↔ g.Quiet := by
        rw [SignalState.Quiet,hrest]
        refine ⟨fun h k hk => ?_,fun h k hk => h k (List.mem_filter.1 hk).1⟩
        by_cases he : k=sig
        · exact he ▸ hp
        · exact h k (by simp [hk,he])
      have hlen := List.length_filter_lt_length_iff_exists (p := fun n => n≠sig).2 ⟨sig,hsig,by simp⟩
      refine wp_imp (ih _ s1 hr1 ha (by rw [hrest]; omega)) fun ok s' h' => ?_
      cases h' with
      | passed hq' hr' ha' => exact .passed (hq.1 hq') hr' ha'
      | entered hq' hr' ha' hf => exact .entered (mt hq.2 hq') hr' ha' hf
      | gone hq' h => exact .gone (mt hq.2 hq') h
    have hloud (hp : g.passes sig=false) : ¬g.Quiet := fun h => by
      rw [h sig hsig] at hp
      cases hp
    have hend (code : ℤ) (hp : g.passes sig=false) : wp (do
        taskForceExit t code
        pure false) (Delivered t c f g) (fun _ => False) s1 := by
      rw [wp_bind]
      exact wp_imp (Gone.wp_forceExit code) fun _ s' h' => .gone (hloud hp) h'
    dsimp only
    split
    · rename_i hign
      refine hskip ?_
      simp only [Bool.or_eq_true,Bool.and_eq_true,decide_eq_true_eq] at hign
      rcases hign with hi | ⟨hd,hi⟩
      · simp [SignalState.passes,hi]
      · simp [SignalState.passes,hd,hi]
    rename_i hign
    simp only [Bool.or_eq_true,Bool.and_eq_true,decide_eq_true_eq,not_or,not_and] at hign
    split
    · rename_i hdfl
      split
      · rename_i hc
        rw [wp_modify_bind,if_neg (by simp [hr1.state])]
        exact hskip (by simp [SignalState.passes,hdfl,hc])
      · rename_i hc
        rw [wp_modify_bind,wp_pure,if_pos (by simp [hr1.state])]
        refine .gone (hloud (by simp [SignalState.passes,hign.1,hc])) (Gone.wakeWaiters (Gone.notify ?_ _ _) _)
        rw [Gone,System.setTask_self]
        exact .inl rfl
      · rename_i hc _
        have hcont : taskSignalDefaultAction sig≠.cont := hc
        exact hend _ (by simp [SignalState.passes,hign.1,hign.2 hdfl,hcont])
    rename_i hdfl
    have hp : g.passes sig=false := by simp [SignalState.passes,hign.1,hdfl]
    rw [ha,if_neg (by simp)]
    split
    · exact hend _ hp
    · rw [wp_bind,modifyTask,wp_modify,wp_pure]
      refine .entered (hloud hp) ⟨hr1.current,rfl,rfl,?_⟩ ?_ ?_ <;> rw [System.setTask_self]
      · exact hr1.state
      · rfl
      · simp only [Task.enterHandler,SignalState.enterHandler,hr1.tf,hr1.sig]

/-- The scheduler goes on with the current task, outside a handler, exactly if no signal waits that
has an effect on it. -/
lemma wp_schedule_ready {late : ℕ × ℕ} (hcur : s.current=some t) (hrun : (s.tasks t).state=.running)
    (hact : (s.tasks t).sig.active=false) :
    wp (taskScheduleFromTrap frame false late) (fun g s' =>
      ((s.tasks t).sig.Quiet → g=frame ∧ s'.current=some t ∧ (s'.tasks t).sig.active=false) ∧
      (¬(s.tasks t).sig.Quiet → s'.current≠some t ∨ (s'.tasks t).sig.active=true))
      (fun _ => ¬(s.tasks t).sig.Quiet) s := by
  rw [taskScheduleFromTrap,wp_modify_bind,wp_gets_bind]
  have hready : Ready t (some t) frame (s.tasks t).sig (saveTrap frame s) := by
    simp only [saveTrap,hcur]
    exact ⟨hcur,by simp,by simp,by simp [hrun]⟩
  rw [show (saveTrap frame s).current=some t from hready.current,wp_bind]
  refine wp_imp ((total_taskReapOrphanZombies _).wp preserves_ready_reapOrphans hready) fun _ s1 h1 => ?_
  have hcr : currentRunnable s1=some t := by simp [currentRunnable,h1.current,h1.state]
  rw [wp_gets_bind,firstChoice,hcr]
  simp only [Bool.not_false,Option.isSome_some,Bool.and_self,if_true,orIdle]
  rw [wp_bind,wp_pure,wp_bind,show 2*maxTasks=127+1 from rfl,runnableLoop,wp_bind,taskDeliverPendingSignal,
    wp_gets_bind,if_neg (by simp [h1.state])]
  have hlen : (s.tasks t).sig.deliverable.length≤32 := (List.length_filter_le _ _).trans (by simp)
  refine wp_mono (wp_deliverLoop_ready 32 _ s1 h1 hact hlen) (fun ok s2 h2 => ?_) fun _ h => h.elim
  have hgo {f' : TrapFrame} {g' : SignalState} (hr : Ready t (some t) f' g' s2) :
      ((switchTo t s2).tasks t).tf=f' ∧ ((switchTo t s2).tasks t).sig=g' := by
    simp only [switchTo]
    rw [System.setTask_self]
    exact ⟨hr.tf,hr.sig⟩
  rw [wp_gets_bind]
  cases h2 with
  | passed hq hr ha =>
    rw [if_pos (by simp [hr.state]),wp_pure,wp_bind,wp_pure,wp_modify_bind,wp_gets]
    exact ⟨fun _ => ⟨(hgo hr).1,rfl,by rw [(hgo hr).2]; exact ha⟩,fun h => absurd hq h⟩
  | entered hq hr ha _ =>
    rw [if_pos (by simp [hr.state]),wp_pure,wp_bind,wp_pure,wp_modify_bind,wp_gets]
    exact ⟨fun h => absurd h hq,fun _ => .inr (by rw [(hgo hr).2]; exact ha)⟩
  | gone hq hgone =>
    rw [if_neg (by simp)]
    refine wp_mono (hgone.wp_runnableLoop _ _ s2 fun hn => hgone.not_runnable (runnable_next hn) rfl)
      (fun r s3 h3 => ?_) fun _ _ => hq
    rw [wp_bind]
    refine wp_mono (h3.1.wp_orIdle late.2 h3.2) (fun next s4 h4 => ?_) fun _ _ => hq
    rw [wp_modify_bind,wp_gets]
    exact ⟨fun h => absurd h hq,fun _ => .inl fun he => h4 (Option.some.inj he)⟩

/-- The values that survive the way through a 32-bit signed result. -/
def FitsInt (v : UInt64) : Prop := v.toNat<2^31 ∨ 2^64-2^31≤v.toNat

instance (v : UInt64) : Decidable (FitsInt v) := inferInstanceAs (Decidable (_ ∨ _))

lemma intResult_eq_iff (v : UInt64) : intResult v=v ↔ FitsInt v := by
  rw [← UInt64.toBitVec_inj,← BitVec.toNat_inj,intResult,BitVec.toNat_signExtend,FitsInt,
    ← UInt64.toNat_toBitVec]
  have hlt := v.toBitVec.isLt
  simp only [BitVec.toNat_setWidth,BitVec.msb_eq_decide]
  split_ifs with hmsb
  · rw [decide_eq_true_eq] at hmsb
    omega
  · rw [decide_eq_true_eq] at hmsb
    omega

@[simp] lemma setX0_setX0 (f : TrapFrame) (v w : UInt64) : (f.setX0 v).setX0 w=f.setX0 w := by
  simp [TrapFrame.setX0]

@[simp] lemma setX0_x (f : TrapFrame) (v : UInt64) : (f.setX0 v).x 0=v := by
  simp [TrapFrame.setX0]

lemma setX0_eq_iff (f : TrapFrame) (v : UInt64) : f.setX0 v=f ↔ v=f.x 0 := by
  constructor
  · intro h
    rw [← setX0_x f v,h]
  · rintro rfl
    simp [TrapFrame.setX0]

/-- A handler of the task `t`: it is entered from `s` by the delivery (which the scheduler makes to
runnable tasks) that ends in `s₁`, and in `s₂` it makes its `sigreturn` call with the saved state untouched. -/
structure HandlerRun (t : TaskIx) (s s1 s2 : System) : Prop where
  delivered : (taskDeliverPendingSignal t).run s=(some true,s1)
  runnable : (s.tasks t).state=.runnable
  idle : (s.tasks t).sig.active=false
  entered : (s1.tasks t).sig.active=true
  current : s2.current=some t
  running : (s2.tasks t).state=.running
  active : (s2.tasks t).sig.active=true
  savedTf : (s2.tasks t).sig.savedTf=(s1.tasks t).sig.savedTf
  savedMask : (s2.tasks t).sig.savedMask=(s1.tasks t).sig.savedMask

/-- The signal state that `sigreturn` leaves. -/
def SignalState.returned (g : SignalState) : SignalState :=
  {g with signalMask := g.savedMask, active := false, activeNum := 0, savedMask := 0}

lemma HandlerRun.saved (h : HandlerRun t s s1 s2) : (s2.tasks t).sig.savedTf =
    savedFrame (s.tasks t).tf ((s.tasks t).sig.flags (s1.tasks t).sig.activeNum) := by
  have hrun := h.delivered
  rw [taskDeliverPendingSignal,run_bind,run_gets] at hrun
  dsimp only at hrun
  rw [if_neg (by simp [h.runnable])] at hrun
  have hlen : (s.tasks t).sig.deliverable.length≤32 := (List.length_filter_le _ _).trans (by simp)
  have hact := h.entered
  rw [h.savedTf]
  cases wp_some (wp_deliverLoop_ready 32 _ s ⟨rfl,rfl,rfl,h.runnable⟩ h.idle hlen) hrun with
  | passed _ hr ha =>
    rw [hr.sig,ha] at hact
    cases hact
  | entered _ hr _ hf => rw [hr.sig,hf]

/-- The `sigreturn` call goes back to the saved frame, with its first register as an `int`, exactly if
no signal waits that has an effect. -/
lemma trapSigreturn_run (hcur : s.current=some t) (hrun : (s.tasks t).state=.running)
    (hact : (s.tasks t).sig.active=true) (late : ℕ × ℕ) (P : TrapFrame → Prop) :
    (∃ g s', (trapSigreturn f late).run s=(some g,s') ∧ s'.current=some t ∧
      (s'.tasks t).sig.active=false ∧ P g) ↔ (s.tasks t).sig.returned.Quiet ∧
      P ((s.tasks t).sig.savedTf.setX0 (intResult ((s.tasks t).sig.savedTf.x 0))) := by
  obtain ⟨back,hback⟩ : ∃ back, back=(s.tasks t).sig.savedTf.setX0 (intResult ((s.tasks t).sig.savedTf.x 0)) :=
    ⟨_,rfl⟩
  have hwp : wp (trapSigreturn f late) (fun g s' => ((s.tasks t).sig.returned.Quiet →
      g=back ∧ s'.current=some t ∧ (s'.tasks t).sig.active=false) ∧
      (¬(s.tasks t).sig.returned.Quiet → s'.current≠some t ∨ (s'.tasks t).sig.active=true))
      (fun _ => ¬(s.tasks t).sig.returned.Quiet) s := by
    rw [trapSigreturn,wp_bind,taskSigreturn,wp_gets_bind,hcur]
    rw [wp_gets_bind,hact]
    simp only [Bool.not_true,Bool.false_eq_true,if_false]
    rw [wp_bind,modifyTask,wp_modify,wp_pure,wp_gets_bind,← hback]
    generalize hs' : (s.setTask t _)=s'
    have hcur' : s'.current=some t := by rw [← hs']; exact hcur
    have hrun' : (s'.tasks t).state=.running := by rw [← hs',System.setTask_self]; exact hrun
    have hsig' : (s'.tasks t).sig=(s.tasks t).sig.returned := by
      rw [← hs',System.setTask_self]
      rfl
    rw [show currentZombie (id s')=false by simp [currentZombie,hcur',hrun'],← hsig']
    exact wp_schedule_ready hcur' hrun' (by rw [hsig']; rfl)
  rw [← hback]
  constructor
  · rintro ⟨g,s',hr,hc,ha,hP⟩
    have h := wp_some hwp hr
    by_cases hq : (s.tasks t).sig.returned.Quiet
    · exact ⟨hq,(h.1 hq).1 ▸ hP⟩
    · rcases h.2 hq with hn | hn
      · exact absurd hc hn
      · rw [ha] at hn
        cases hn
  · rintro ⟨hq,hP⟩
    obtain ⟨g,s',hr,h⟩ := wp_total (wp_mono hwp (fun _ _ h => h) fun _ h => h hq)
    obtain ⟨rfl,hc,ha⟩ := h.1 hq
    exact ⟨_,s',hr,hc,ha,hP⟩

/-- After a handler has run, `sigreturn` goes back to the interrupted program with its frame
unchanged, or with the interrupted-call error for a blocked call, exactly when no signal waits that
has a handler, stops the task or ends it, and the first register fits into an `int` and, unless the
frame is that of a blocked call or the call is restarted, is not -2. -/
theorem trapSigreturn_restores_iff (h : HandlerRun t s s1 s2) {blockedCall : Bool}
    (hblocked : blockedCall=true → (s.tasks t).tf.x 0=retBlocked) (f : TrapFrame) (late : ℕ × ℕ) :
    (∃ g s3, (trapSigreturn f late).run s2=(some g,s3) ∧ s3.current=some t ∧
      (s3.tasks t).sig.active=false ∧
      (g=(s.tasks t).tf ∨ blockedCall=true ∧ g=(s.tasks t).tf.setX0 retInterrupted)) ↔
    (s2.tasks t).sig.returned.Quiet ∧ FitsInt ((s.tasks t).tf.x 0) ∧
      ((s.tasks t).tf.x 0=retBlocked → blockedCall=true ∨
        (s.tasks t).sig.flags (s1.tasks t).sig.activeNum &&& saRestart≠0) := by
  rw [trapSigreturn_run h.current h.running h.active,h.saved]
  refine and_congr_right fun _ => ?_
  generalize (s.tasks t).tf=F at hblocked ⊢
  generalize (s.tasks t).sig.flags (s1.tasks t).sig.activeNum=fl
  have hfits2 : FitsInt retBlocked := by decide
  have hfits4 : intResult retInterrupted=retInterrupted := (intResult_eq_iff _).2 (by decide)
  have hne : retInterrupted≠retBlocked := by decide
  by_cases hc : F.x 0=retBlocked ∧ fl &&& saRestart=0
  · -- the saved frame already holds the error
    have hsaved : savedFrame F fl=F.setX0 retInterrupted := by
      rw [savedFrame,if_pos]
      rw [Bool.and_eq_true,decide_eq_true_eq,beq_iff_eq]
      exact hc
    rw [hsaved,setX0_x,setX0_setX0,hfits4,setX0_eq_iff,hc.1]
    constructor
    · rintro (he | ⟨hb,-⟩)
      · exact absurd he hne
      · exact ⟨hfits2,fun _ => .inl hb⟩
    · rintro ⟨-,himp⟩
      exact .inr ⟨(himp rfl).resolve_right fun hfl => hfl hc.2,rfl⟩
  · have hsaved : savedFrame F fl=F := by
      rw [savedFrame,if_neg]
      rw [Bool.and_eq_true,decide_eq_true_eq,beq_iff_eq]
      exact hc
    rw [hsaved,setX0_eq_iff,intResult_eq_iff]
    constructor
    · rintro (hf | ⟨hb,-⟩)
      · exact ⟨hf,fun hx => .inr fun hfl => hc ⟨hx,hfl⟩⟩
      · exact ⟨hblocked hb ▸ hfits2,fun _ => .inl hb⟩
    · exact fun hf => .inl hf.1

/-- A task interrupted with `x0` in its first register while `SIGTERM` with a user handler and a
`SIGCHLD` without one are pending. -/
def interruptedWith (x0 : UInt64) : System :=
  (System.single .zero).setTask 0 fun k => {k with
    state := .runnable
    tf := TrapFrame.zero.setX0 x0
    sig := {SignalState.zero with
      pendingSignals := sigbit sigterm ||| sigbit sigchld
      signalQueue := [sigterm,sigchld]
      handler := fun sig => if sig=sigterm then 0x400000 else sigDfl
      restorer := fun _ => 0x400100
      flags := fun _ => saRestorer}}

def inHandler (x0 : UInt64) : System := switchTo 0 ((taskDeliverPendingSignal 0).run (interruptedWith x0)).2

/-- An interrupted value of 2^32 comes back as zero. -/
theorem trapSigreturn_truncates :
    ((taskDeliverPendingSignal 0).run (interruptedWith (2^32))).1=some true ∧
    ((interruptedWith (2^32)).tasks 0).tf.x 0=2^32 ∧
    ((trapSigreturn .zero 0).run (inHandler (2^32))).1.map (fun g => g.x 0)=some 0 := by
  decide +kernel

lemma handlerRun_seven : HandlerRun 0 (interruptedWith 7)
    ((taskDeliverPendingSignal 0).run (interruptedWith 7)).2 (inHandler 7) where
  delivered := run_of_fst (by decide +kernel)
  runnable := by decide +kernel
  idle := by decide +kernel
  entered := by decide +kernel
  current := by decide +kernel
  running := by decide +kernel
  active := by decide +kernel
  savedTf := rfl
  savedMask := rfl

theorem trapSigreturn_restores_iff_seven :
    ∃ g s3, (trapSigreturn .zero 0).run (inHandler 7)=(some g,s3) ∧ s3.current=some 0 ∧
      ((inHandler 7).tasks 0).sig.deliverable=[sigchld] ∧ g=((interruptedWith 7).tasks 0).tf := by
  have hx : ((interruptedWith 7).tasks 0).tf.x 0=7 := by decide +kernel
  obtain ⟨g,s3,hr,hc,-,hg⟩ := (trapSigreturn_restores_iff handlerRun_seven (fun h : false=true => by cases h)
    .zero 0).2 ⟨by unfold SignalState.Quiet; decide +kernel,by rw [hx]; decide,by rw [hx]; decide⟩
  exact ⟨g,s3,hr,hc,by decide +kernel,hg.resolve_right fun h => by cases h.1⟩

end FuriOS
