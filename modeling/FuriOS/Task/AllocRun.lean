import FuriOS.PmmRun
import FuriOS.Task.KernelSteps

/-! When `task_alloc` succeeds along a run of `fork`, `exec`, `exit` and `wait`. The pages it counts
as available are those of the bump region and of the free list together, but a kernel stack can
only come from the bump region, and what is freed never goes back there. -/
namespace FuriOS
open Prog Relation

/-- The bump region has room for a kernel stack. -/
def Phys.StackRoom (m : Phys) : Prop := alignUpTo m.cur pageSize+taskKstackSize ≤ m.limit

instance (m : Phys) : Decidable m.StackRoom := inferInstanceAs (Decidable (_ ≤ _))

/-- The bump region lies in the RAM. -/
structure Phys.InRam (m : Phys) : Prop where
  low : physRamBase ≤ m.cur
  room : m.cur ≤ m.limit
  high : m.limit≤physRamBase+physRamSize

namespace Phys.InRam
variable {m m' : Phys}

lemma alignUpTo_spec (h : m.InRam) : alignUpTo m.cur pageSize%pageSize=0 ∧
    m.cur≤alignUpTo m.cur pageSize ∧ alignUpTo m.cur pageSize < m.cur+pageSize := by
  have hroom := h.room
  have hhigh := h.high
  refine FuriOS.alignUpTo_spec ?_
  simp only [pageSize,physRamBase,physRamSize] at *
  omega

lemma wp_pmmAlloc (h : m.InRam) (bytes : ℕ) : wp (pmmAlloc bytes pageSize)
    (fun _ m' => alignUpTo m.cur pageSize+bytes ≤ m.limit ∧ m'.limit=m.limit ∧ m.cur+bytes ≤ m'.cur ∧ m'.InRam)
    (fun m' => ¬alignUpTo m.cur pageSize+bytes ≤ m.limit ∧ m'=m) m := by
  obtain ⟨-,hle,-⟩ := h.alignUpTo_spec
  have hlow := h.low
  have hhigh := h.high
  refine wp_pmmAlloc_bump ?_ (fun hreq => ?_) fun hreq => ⟨?_,rfl⟩
  · simp only [physRamBase] at hlow
    omega
  · have hlimit : (m.markRangeOwned (alignUpTo m.cur pageSize) bytes).limit=m.limit := by
      rw [Phys.markRangeOwned,foldl_markPageOwned (nodup_pageRange _ _)]
    refine ⟨hreq.1,hlimit,by dsimp only; omega,by dsimp only; omega,?_,?_⟩ <;> dsimp only <;> rw [hlimit]
    · exact hreq.1
    · exact hhigh
  · simp only [physRamBase,physRamSize] at *
    omega

lemma ends_pmmAllocPage (h : m.InRam) :
    Ends (fun m' => m'.limit=m.limit ∧ m.cur ≤ m'.cur ∧ m'.InRam) pmmAllocPage m := by
  refine Ends.of_wp ?_
  rw [pmmAllocPage,wp_gets_bind]
  split
  · rw [wp_modify_bind,wp_modify_bind,wp_modify_bind,wp_pure]
    split_ifs <;> exact ⟨rfl,le_rfl,h.low,h.room,h.high⟩
  · refine wp_mono (h.wp_pmmAlloc 4096) (fun _ m' h' => ⟨h'.2.1,?_,h'.2.2.2⟩) fun m' h' => ?_
    · exact (Nat.le_add_right _ _).trans h'.2.2.1
    · rw [h'.2]
      exact ⟨rfl,le_rfl,h⟩

/-- Room that is lost does not come back. -/
lemma stackRoom_of_le (h : m.InRam) (h' : m'.InRam) (hle : m.cur ≤ m'.cur) (hlimit : m'.limit=m.limit)
    (hroom : m'.StackRoom) : m.StackRoom := by
  have hspec := h.alignUpTo_spec
  have hspec' := h'.alignUpTo_spec
  simp only [Phys.StackRoom,pageSize] at *
  omega

end Phys.InRam

lemma isSome_iff_of_wp {W α : Type} {p : Prog W α} {w : W} {P : Prop}
    (h : wp p (fun _ _ => P) (fun _ => ¬P) w) : (p.run w).1.isSome=true ↔ P := by
  rw [wp] at h
  split at h
  · rename_i hrun
    simp [hrun,h]
  · rename_i hrun
    simp [hrun,h]

lemma taskAlloc_isSome {s : System} {t : TaskIx} (h : s.phys.InRam) (ht : (s.tasks t).state=.unused)
    (havail : taskKstackSize/pageSize+pmmOomReservePages<pmmAvailablePages s.phys) :
    (taskAlloc.run s).1.isSome=true ↔ s.phys.StackRoom := by
  refine isSome_iff_of_wp ?_
  rw [taskAlloc,wp_gets_bind]
  refine wp_require_bind (fun _ => ?_) fun hc => absurd havail (of_decide_eq_false hc)
  split
  · rename_i hnone
    exact absurd (List.find?_eq_none.1 hnone t (List.mem_finRange t)) (by simp [ht])
  · rw [modifyTask,wp_modify_bind,wp_bind,onPhys,wp_zoom]
    exact wp_mono (h.wp_pmmAlloc taskKstackSize) (fun _ _ h' => h'.1) fun _ h' => h'.1

/-- Every task that was created after `s0` has used up the room of a kernel stack for good. -/
structure Spent (s0 s : System) : Prop where
  limit : s.phys.limit=s0.phys.limit
  numbers : s0.nextPid≤ s.nextPid
  drift : s0.phys.cur+taskKstackSize*(s.nextPid-s0.nextPid)≤ s.phys.cur
  inRam : s.phys.InRam

namespace Spent
variable {s0 s s' : System}

lemma bump {m : Phys} (h : Spent s0 s) (hl : m.limit=s.phys.limit) (hc : s.phys.cur ≤ m.cur) (hm : m.InRam) :
    Spent s0 (s.setPhys m) := by
  refine ⟨hl.trans h.limit,h.numbers,h.drift.trans ?_,hm⟩
  exact_mod_cast hc

lemma countInv : CountInv (Spent s0) where
  rest s s' hp hn h := by
    refine ⟨hp ▸ h.limit,hn ▸ h.numbers,?_,hp ▸ h.inRam⟩
    rw [hp,hn]
    exact h.drift
  phys s m hc hl h := by
    refine h.bump hl hc.ge ⟨?_,?_,?_⟩
    · exact hc ▸ h.inRam.low
    · rw [hc,hl]
      exact h.inRam.room
    · exact hl ▸ h.inRam.high
  alloc s h := by
    obtain ⟨hl,hc,hm⟩ := h.inRam.ends_pmmAllocPage
    exact h.bump hl hc hm

lemma same (h : Spent s0 s) (hp : s'.phys=s.phys) (hn : s'.nextPid=s.nextPid) : Spent s0 s' :=
  countInv.rest s s' hp hn h

lemma modifyTask (t : TaskIx) (f : Task → Task) : Preserves (Spent s0) (modifyTask t f) :=
  .of_modify fun _ h => h.same rfl rfl

lemma currentTask : Preserves (Spent s0) currentTask := by
  refine .gets fun o => ?_
  split
  · exact .of_pure _
  · exact .of_fail

lemma taskAlloc : Preserves (Spent s0) taskAlloc := by
  refine .of_wp fun s h => ?_
  rw [FuriOS.taskAlloc,wp_gets_bind]
  refine wp_require_of h fun _ => ?_
  split
  · exact h
  rw [FuriOS.modifyTask,wp_modify_bind,wp_bind,onPhys,wp_zoom]
  refine wp_mono (h.inRam.wp_pmmAlloc taskKstackSize) (fun kstack m hm => ?_) fun m hm => ?_
  · rw [FuriOS.modifyTask,wp_modify_bind,wp_modify_bind,wp_pure]
    obtain ⟨-,hl,hc,hm⟩ := hm
    refine ⟨hl.trans h.limit,h.numbers.trans (Int.le_add_one le_rfl),?_,hm⟩
    have hdrift := h.drift
    change _+_*(s.nextPid+1-_)≤(m.cur : ℤ)
    push_cast [taskKstackSize] at *
    omega
  · rw [hm.2]
    exact h.same rfl rfl

lemma taskFork (f : TrapFrame) : Preserves (Spent s0) (taskFork f) := by
  unfold FuriOS.taskFork
  refine .bind currentTask fun parent => .gets fun _ => .require fun _ => .bind taskAlloc fun child =>
    .gets fun p => .bind (modifyTask _ _) fun _ =>
    .bind (countInv.asideMm.forkPages parent child).attempt fun r => ?_
  split
  · exact .bind (countInv.exitInv.reap child) fun _ => .of_fail
  · refine .gets fun p => .bind (modifyTask _ _) fun _ => .bind (.of_modify fun s h => ?_) fun _ => .of_pure _
    rw [refFds_eq]
    exact h.same rfl rfl

lemma execCurrent (elf : Buf) (elfSize : ℕ) (argv : List Bytes) (random : Buf) :
    Preserves (Spent s0) (execCurrent elf elfSize argv random) := by
  unfold FuriOS.execCurrent
  exact .bind currentTask fun t =>
    .bind (countInv.asideMm.loadElf (fun _ _ h => h.same rfl rfl) _ _ _ _) fun _ => modifyTask _ _

lemma taskMarkExit (code : ℤ) : Preserves (Spent s0) (taskMarkExit code) := by
  unfold FuriOS.taskMarkExit
  refine .gets fun o => ?_
  split
  · exact .of_pure _
  · exact countInv.exitInv.forceExit _ _

lemma taskWait (pid : ℤ) (options : ℕ) : Preserves (Spent s0) (taskWait pid options) := by
  have hsettle (self : TaskIx) : Preserves (Spent s0) (.modify (settleSigchld self)) :=
    .of_modify fun s h => by
      unfold settleSigchld
      split_ifs
      · exact h
      · exact h.same rfl rfl
  unfold FuriOS.taskWait
  refine .gets fun o => ?_
  split
  · exact .of_pure _
  refine .ite (fun _ => .of_pure _) fun _ => .gets fun s => ?_
  dsimp only
  split
  · exact .gets fun _ => .ite
      (fun _ => .bind (countInv.exitInv.reap _) fun _ => .bind (hsettle _) fun _ => .of_pure _)
      fun _ => .ite (fun _ => .bind (modifyTask _ _) fun _ => .bind (hsettle _) fun _ => .of_pure _)
        fun _ => .bind (modifyTask _ _) fun _ => .bind (hsettle _) fun _ => .of_pure _
  · exact .ite (fun _ => .bind (modifyTask _ _) fun _ => .of_pure _) fun _ => .ite (fun _ => .of_pure _)
      fun _ => .bind (modifyTask _ _) fun _ => .of_pure _

lemma deliverLoop (t : TaskIx) (fuel : ℕ) : Preserves (Spent s0) (deliverLoop t fuel) := by
  have htell (ev : ChildEvent) (f : Task → Task) (s : System) (h : Spent s0 s) (pid : ℤ) :
      Spent s0 (taskWakeWaiters pid (taskNotifySigchld t ev (s.setTask t f))) :=
    countInv.wake _ _ (countInv.notify _ _ _ (h.same rfl rfl))
  have hexit (code : ℤ) : Preserves (Spent s0) (do
      taskForceExit t code
      pure false) := .bind (countInv.exitInv.forceExit t code) fun _ => .of_pure _
  induction fuel with
  | zero => exact .of_pure _
  | succ fuel ih =>
    unfold FuriOS.deliverLoop
    refine .gets fun k => .bind (modifyTask _ _) fun _ => ?_
    split
    · exact .of_pure _
    refine .ite (fun _ => ih) fun _ => .ite (fun _ => ?_) fun _ => .ite (fun _ => .bind (modifyTask _ _) fun _ => .of_pure _)
      fun _ => .ite (fun _ => hexit _) fun _ => .bind (modifyTask _ _) fun _ => .of_pure _
    split
    · refine .bind (.of_modify fun s h => ?_) fun _ => ih
      split_ifs
      · exact htell .cont _ s h _
      · exact h
    · refine .bind (.of_modify fun s h => ?_) fun _ => .of_pure _
      split_ifs
      · exact htell .stop _ s h _
      · exact h
    · exact hexit _

lemma runnableLoop (fuel : ℕ) (r : Option TaskIx) : Preserves (Spent s0) (runnableLoop fuel r) := by
  induction fuel generalizing r with
  | zero => exact .of_fail
  | succ fuel ih =>
    cases r with
    | none => exact .of_pure _
    | some next =>
      exact .bind (.gets fun _ => .ite (fun _ => .of_pure _) fun _ => deliverLoop next 32) fun _ =>
        .gets fun _ => .ite (fun _ => .of_pure _) fun _ => ih _

lemma orIdle (late : ℕ) (r : Option TaskIx) : Preserves (Spent s0) (orIdle late r) := by
  cases r with
  | some next => exact .of_pure _
  | none =>
    refine .gets fun o => ?_
    split
    · exact .of_fail
    · refine .bind (.of_modify fun _ h => h.same rfl rfl) fun _ => .bind (.of_modify fun _ h => h.same rfl rfl)
        fun _ => .gets fun o => ?_
      split
      · exact .of_fail
      · exact .of_pure _

lemma taskScheduleFromTrap (f : TrapFrame) (force : Bool) (late : ℕ × ℕ) :
    Preserves (Spent s0) (taskScheduleFromTrap f force late) := by
  have horphans (e : Option TaskIx) : Preserves (Spent s0) (taskReapOrphanZombies e) :=
    .gets fun _ => .when fun _ => .forEach (fun i => .gets fun _ =>
      .when fun _ => countInv.exitInv.reap i) _
  refine .bind (.of_modify fun s h => ?_) fun _ => .gets fun _ => .bind (horphans _) fun _ =>
    .gets fun _ => .bind (orIdle _ _) fun _ => .bind (runnableLoop _ _) fun _ =>
    .bind (orIdle _ _) fun _ => .bind (.of_modify fun _ h => h.same rfl rfl) fun _ => .of_gets _
  unfold saveTrap
  split <;> exact h.same rfl rfl

end Spent

/-- Calls of the current task that create, replace, end and collect tasks, and the scheduler. -/
inductive FamilyStep (s : System) : System → Prop
  | fork (f : TrapFrame) : FamilyStep s ((taskFork f).run s).2
  | exec (elf : Buf) (elfSize : ℕ) (argv : List Bytes) (random : Buf) :
      FamilyStep s ((execCurrent elf elfSize argv random).run s).2
  | exit (code : ℤ) : FamilyStep s ((taskMarkExit code).run s).2
  | wait (pid : ℤ) (options : ℕ) : FamilyStep s ((taskWait pid options).run s).2
  | schedule (f : TrapFrame) (forceResched : Bool) (late : ℕ × ℕ) :
      FamilyStep s ((taskScheduleFromTrap f forceResched late).run s).2

lemma FamilyStep.spent {s0 s s' : System} (h : Spent s0 s) (hstep : FamilyStep s s') : Spent s0 s' := by
  cases hstep with
  | fork f => exact Spent.taskFork f s h
  | exec elf elfSize argv random => exact Spent.execCurrent elf elfSize argv random s h
  | exit code => exact Spent.taskMarkExit code s h
  | wait pid options => exact Spent.taskWait pid options s h
  | schedule f force late => exact Spent.taskScheduleFromTrap f force late s h

lemma FamilyStep.run_spent {s0 s : System} (h0 : s0.phys.InRam) (hrun : ReflTransGen FamilyStep s0 s) :
    Spent s0 s := by
  induction hrun with
  | refl => exact ⟨rfl,le_rfl,by simp,h0⟩
  | tail _ hstep ih => exact hstep.spent ih

/-- Along every run each new task uses up the room of a kernel stack in the bump region. With a free
slot and the pages it asks for, `task_alloc` succeeds exactly when the bump region still has this
room; once it is gone, it is gone for the rest of the run. -/
theorem taskAlloc_succeeds_iff {s0 s : System} (h0 : s0.phys.InRam) (hrun : ReflTransGen FamilyStep s0 s) :
    s.phys.limit=s0.phys.limit ∧ s.phys.cur≤ s.phys.limit ∧
    s0.phys.cur+taskKstackSize*(s.nextPid-s0.nextPid)≤ s.phys.cur ∧
    (∀ t, (s.tasks t).state=.unused →
      taskKstackSize/pageSize+pmmOomReservePages<pmmAvailablePages s.phys →
      ((taskAlloc.run s).1.isSome=true ↔ s.phys.StackRoom)) ∧
    (¬s.phys.StackRoom → ∀ s', ReflTransGen FamilyStep s s' → ¬s'.phys.StackRoom) := by
  have h := FamilyStep.run_spent h0 hrun
  refine ⟨h.limit,h.inRam.room,h.drift,fun t ht => taskAlloc_isSome h.inRam ht,fun hno s' hrun' hroom => hno ?_⟩
  have h' := FamilyStep.run_spent h.inRam hrun'
  have hdrift := h'.drift
  have hnumbers := h'.numbers
  push_cast [taskKstackSize] at hdrift
  exact h.inRam.stackRoom_of_le h'.inRam (by omega) h'.limit hroom

/-- One child is forked, runs, exits and is collected. -/
def oneChild (s : System) : System :=
  let s := ((taskFork .zero).run s).2
  let s := ((taskScheduleFromTrap .zero true 0).run s).2
  let s := ((taskMarkExit 0).run s).2
  let s := ((taskScheduleFromTrap .zero true 0).run s).2
  ((taskWait (-1) 0).run s).2

lemma oneChild_run (s : System) : ReflTransGen FamilyStep s (oneChild s) :=
  ((((ReflTransGen.single (.fork _)).tail (.schedule _ _ _)).tail (.exit _)).tail
    (.schedule _ _ _)).tail (.wait _ _)

/-- Init alone on a machine with 101 free pages. -/
def smallMachine : System :=
  {System.single .zero with phys := pmmInit Buf.zero 0x40400000 (0x40400000+101*pageSize)}

lemma inRam_smallMachine : smallMachine.phys.InRam := ⟨by decide,by decide,by decide⟩

/-- After one child has come and gone, a kernel stack less fits into the bump region, and the next
task can still be created. -/
theorem taskAlloc_succeeds_collected : ∃ s, ReflTransGen FamilyStep smallMachine s ∧ s.nextPid=3 ∧
    smallMachine.phys.cur+taskKstackSize≤ s.phys.cur ∧ (taskAlloc.run s).1.isSome=true := by
  have hend : ∃ s, ReflTransGen FamilyStep smallMachine s ∧ s.nextPid=3 ∧ (s.tasks 1).state=.unused ∧
      taskKstackSize/pageSize+pmmOomReservePages<pmmAvailablePages s.phys ∧ s.phys.StackRoom :=
    ⟨_,oneChild_run smallMachine,by decide +kernel⟩
  obtain ⟨s,hrun,hn,ht,havail,hroom⟩ := hend
  obtain ⟨-,-,hdrift,hiff,-⟩ := taskAlloc_succeeds_iff inRam_smallMachine hrun
  refine ⟨s,hrun,hn,?_,(hiff 1 ht havail).2 hroom⟩
  rw [hn,show smallMachine.nextPid=2 from rfl,show (3 : ℤ)-2=1 from rfl,mul_one] at hdrift
  exact_mod_cast hdrift

/-- After six children in turn, with all pages available again, no task can be created. -/
theorem taskAlloc_exhausted : ∃ s0 s, Booted s0 ∧ ReflTransGen FamilyStep s0 s ∧
    pmmAvailablePages s.phys=pmmAvailablePages s0.phys ∧
    taskKstackSize/pageSize+pmmOomReservePages<pmmAvailablePages s.phys ∧
    (s.tasks 1).state=.unused ∧ (taskAlloc.run s).1=none := by
  have hrun (n : ℕ) (s : System) : ReflTransGen FamilyStep s (oneChild^[n] s) := by
    induction n generalizing s with
    | zero => exact .refl
    | succ n ih => exact (oneChild_run s).trans (ih (oneChild s))
  refine ⟨smallMachine,oneChild^[6] smallMachine,?_,hrun 6 _,?_⟩
  · exact {booted_single .zero with}
  · decide +kernel

end FuriOS
