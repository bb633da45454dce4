import FuriOS.Task.ChangesRun
import FuriOS.Task.TableChange

/-! Runs of the system: calls of the current task, passes through the scheduler, and what the rest
of the kernel and the programs do in between. Every step of a run is a sequence of changes, of
which only `SIGCONT` and `setpgid` have a licence for what they do. -/
namespace FuriOS
open Prog Relation

/-- The rest of the kernel and the programs work on memory, files and descriptors, and wake tasks
that do not wait for a child. -/
structure Elsewhere (s s' : System) : Prop where
  tasks : ∀ i, (s.tasks i).Quiet (s'.tasks i)
  current : s'.current=s.current
  nextPid : s'.nextPid=s.nextPid
  initPid : s'.initPid=s.initPid
  currentReaped : s'.currentReaped=s.currentReaped

/-- A step of the system; of the calls only those that `ok` allows are made. -/
inductive ProcStep (ok : System → ProcCall → Prop) : System → System → Prop
  | call (s : System) (c : TaskIx) (hc : Runs c s) (call : ProcCall) (h : ok s call) :
      ProcStep ok s (call.perform.run s).2
  | schedule (s : System) (f : TrapFrame) (forceResched : Bool) (late : ℕ × ℕ) :
      ProcStep ok s ((taskScheduleFromTrap f forceResched late).run s).2
  | beside {s s' : System} (h : Elsewhere s s') : ProcStep ok s s'

def anyCall (_ : System) (_ : ProcCall) : Prop := True

/-- The process that a `setpgid` of the task `c` is about. -/
def setpgidTarget (s : System) (c : TaskIx) (pid : ℤ) : Option TaskIx :=
  taskByPid s (if pid=0 then (s.tasks c).pid else pid)

/-- The group that a `setpgid` puts the task into. -/
def newGroup (k : Task) (pgid : ℤ) : ℤ := if pgid=0 then k.pid else pgid

/-- What a call of the task `c` may do that other steps may not. -/
def ProcCall.licence (s : System) (c : TaskIx) : ProcCall → Licence
  | .kill pid sig => {Licence.none with cont := fun v => sig=sigcont ∧ killTargets s c pid v}
  | .setpgid pid pgid => {Licence.none with
      regroup := fun T t g =>
        T=s.procTable ∧ setpgidTarget s c pid=some t ∧ g=newGroup (s.tasks t) pgid}
  | .sigaction _ _ | .fork _ => {Licence.none with acts := True}
  | _ => .none

/-- The licence of a pass through the scheduler. -/
def Licence.schedule : Licence := {Licence.none with switches := True}

/-- What a licence has to allow for a call of the task `c`. -/
def ProcCall.Needs (L : Licence) (s : System) (c : TaskIx) : ProcCall → Prop
  | .exit _ => ¬L.acts
  | .kill pid sig => ¬L.acts ∧ (sig=sigcont → ∀ v, killTargets s c pid v → L.cont v)
  | .setpgid pid pgid => ∀ t, setpgidTarget s c pid=some t →
      L.regroup s.procTable t (newGroup (s.tasks t) pgid)
  | .sigaction _ _ | .fork _ => L.acts
  | .wait _ _ | .blockOnPipeRead _ | .blockOnPipeWrite _ | .blockOnSleep _ => L.running ∨ L.acts
  | _ => True

section Steps
variable {ok : System → ProcCall → Prop} {L : Licence} {s s' s0 : System} {c : TaskIx}

lemma Elsewhere.reach (h : Elsewhere s s') : Reach L s s' := by
  have htasks : Reach L s {s with tasks := s'.tasks} := .single (.quiet s _ h.tasks)
  have hpipes := htasks.step (.pipes _ s'.pipes)
  have hticks := hpipes.step (.ticks _ s'.ticks)
  refine hticks.step (.aside ?_)
  rw [System.procView,h.current,h.nextPid,h.initPid,h.currentReaped]
  rfl

lemma Caller.of_inOrder (ho : s.procTable.InOrder s.nextPid) (hc : MayCall L c s)
    (hh : ∀ i, L.holds i → i=c) : Caller L c s :=
  ⟨hc,ho.ppid c hc.phase,ho.next,ho.initPid,hh⟩

/-- A call is a sequence of changes. -/
theorem ProcCall.perform_reach (hc : Caller L c s) (call : ProcCall) (hn : call.Needs L s c) :
    Reach L s (call.perform.run s).2 := by
  have hr : Reach L s s := .refl
  have hcur {self : TaskIx} (h : s.current=some self) : self=c :=
    Option.some.inj (h.symm.trans hc.current)
  cases call with
  | exit code => exact ends_taskMarkExit hr hn code
  | kill pid sig =>
    have hkill : Ends (Reach L s) (taskKill pid sig) s :=
      ends_taskKill hr hn.1 fun he self v hs hv => hn.2 he v (hcur hs ▸ hv)
    exact hkill
  | wait pid options => exact ends_taskWait hr hc hn pid options
  | setpgid pid pgid =>
    have hset : Ends (Reach L s) (taskSetpgid pid pgid) s :=
      ends_taskSetpgid hr pid pgid fun self t hs ht => hn t (hcur hs ▸ ht)
    exact hset
  | sigaction sig act => exact ends_taskSigaction hr hc hn sig act
  | sigprocmask how set => exact ends_taskSigprocmask hr how set
  | sigreturn f => exact ends_taskSigreturn hr f
  | fork f => exact ends_taskFork hr hc hn f
  | exec elf elfSize argv random => exact preserves_execCurrent elf elfSize argv random s hr
  | blockOnPipeRead pipe => exact ends_taskBlockOn hr hc hn (by decide) _ _
  | blockOnPipeWrite pipe => exact ends_taskBlockOn hr hc hn (by decide) _ _
  | blockOnSleep wakeTick => exact ends_taskBlockOn hr hc hn (by decide) _ _

lemma ProcCall.needs_licence (call : ProcCall) : call.Needs (call.licence s c) s c := by
  cases call with
  | exit code => exact not_false
  | kill pid sig => exact ⟨not_false,fun he v hv => ⟨he,hv⟩⟩
  | setpgid pid pgid => exact fun t ht => ⟨rfl,ht,rfl⟩
  | wait pid options => exact .inl trivial
  | blockOnPipeRead pipe => exact .inl trivial
  | blockOnPipeWrite pipe => exact .inl trivial
  | blockOnSleep wakeTick => exact .inl trivial
  | _ => exact trivial

/-- Who has a licence in a step: the call that is made, if it is one. -/
def Licensed (ok : System → ProcCall → Prop) (s : System) (L : Licence) : Prop :=
  L=.schedule ∨ ∃ c call, Runs c s ∧ ok s call ∧ L=call.licence s c

lemma Licensed.running (h : Licensed ok s L) : L.running ∧ ∀ i, ¬L.holds i := by
  obtain rfl | ⟨c,call,-,-,rfl⟩ := h
  · exact ⟨trivial,fun _ => not_false⟩
  · cases call <;> exact ⟨trivial,fun _ => not_false⟩

theorem ProcStep.reach (h : ProcStep ok s s') (ho : s.procTable.InOrder s.nextPid) :
    ∃ L, Licensed ok s L ∧ Reach L s s' := by
  cases h with
  | call c hc call hok =>
    have hl : Licensed ok s (call.licence s c) := .inr ⟨c,call,hc,hok,rfl⟩
    have hcall : Caller (call.licence s c) c s :=
      .of_inOrder ho ⟨hc.1,by simp [hc.2],fun _ => hc.2⟩ fun i hi => absurd hi (hl.running.2 i)
    exact ⟨_,hl,call.perform_reach hcall call.needs_licence⟩
  | schedule f force late =>
    refine ⟨.schedule,.inl rfl,Ends.of_wp (wp_imp (wp_taskScheduleFromTrap_reach .refl not_false
      (fun _ => False.elim) f force late) fun _ s' h => ?_)⟩
    obtain ⟨s1,next,hr,hst,rfl⟩ := h
    exact hr.step (.switch s1 next hst trivial)
  | beside h => exact ⟨.schedule,.inl rfl,h.reach⟩

lemma Reach.inOrder (h : Reach L s s') (ho : s.procTable.InOrder s.nextPid) :
    s'.procTable.InOrder s'.nextPid := by
  induction h with
  | refl => exact ho
  | tail _ hc ih => exact hc.table.inOrder ih

lemma ProcStep.run_inOrder (h : ReflTransGen (ProcStep ok) s s') (ho : s.procTable.InOrder s.nextPid) :
    s'.procTable.InOrder s'.nextPid := by
  induction h with
  | refl => exact ho
  | tail _ hstep ih =>
    obtain ⟨L,-,hr⟩ := hstep.reach ih
    exact hr.inOrder ih

/-- What every change with the licence of its step keeps holds along a run. -/
theorem ProcStep.run_preserves {I : System → Prop} (hI : ∀ s0 L, Licensed ok s0 L → I s0 →
      ∀ s s', Reach L s0 s → s.procTable.InOrder s.nextPid → I s → Change L s s' → I s')
    (h : ReflTransGen (ProcStep ok) s s') (ho : s.procTable.InOrder s.nextPid) (hs : I s) : I s' := by
  induction h with
  | refl => exact hs
  | tail hrun hstep ih =>
    have hord := run_inOrder hrun ho
    obtain ⟨L,hl,hr⟩ := hstep.reach hord
    clear hstep
    induction hr with
    | refl => exact ih
    | tail hr hc ih' => exact hI _ L hl ih _ _ hr (Reach.inOrder hr hord) ih' hc

lemma Booted.inOrder (h : Booted s) : s.procTable.InOrder s.nextPid := by
  obtain ⟨c,-,hst,hp,hpp,hothers⟩ := h.started
  have hone {t : TaskIx} (ht : (s.procTable.rows t).phase≠.unused) : t=c := by
    by_contra hne
    exact ht (phase_unused.2 (hothers t hne).1)
  have hpid : (s.procTable.rows c).pid=1 := hp
  have hppid : (s.procTable.rows c).ppid=0 := hpp
  have hnext : s.nextPid=2 := h.nextPid
  have hinit : s.procTable.initPid=1 := h.initPid
  refine ⟨⟨fun t ht => ?_,fun t ht => ?_,fun t t' ht ht' _ => ?_,fun t ht => ?_,fun t ht _ => ?_⟩,
    fun t ht => ?_,?_,?_⟩
  · obtain rfl := hone ht
    omega
  · have hne : t≠c := by
      rintro rfl
      have := phase_unused.1 ht
      rw [hst] at this
      cases this
    exact (hothers t hne).2
  · rw [hone ht,hone ht']
  all_goals first | omega | (obtain rfl := hone ht; omega)

/-- In every run a task is found by its number, which no other task has, and it is not its own
parent. -/
theorem pids_identify {t : TaskIx} (hb : Booted s0) (h : ReflTransGen (ProcStep ok) s0 s)
    (hu : (s.tasks t).state≠.unused) :
    taskByPid s (s.tasks t).pid=some t ∧ 0<(s.tasks t).pid ∧ (s.tasks t).pid<s.nextPid ∧
      (s.tasks t).ppid≠(s.tasks t).pid := by
  have ho := ProcStep.run_inOrder h hb.inOrder
  have hp := mt phase_unused.1 hu
  rw [taskByPid_eq,ProcTable.byPid_eq_some ho.toNumbered]
  exact ⟨⟨hp,rfl⟩,ho.pid t hp,ho.bound t hp,ho.ppid t hp⟩

end Steps

lemma runs_single (m : AddressSpace) : Runs 0 (System.single m) := ⟨rfl,rfl⟩

/-- Init has a child and a grandchild, the child exits, and init adopts the grandchild. -/
theorem pids_identify_adopted : ∃ s, ReflTransGen (ProcStep anyCall) (System.single .zero) s ∧
    (s.tasks 1).state=.zombie ∧ (s.tasks 2).ppid=1 ∧ taskByPid s 2=some 1 ∧ taskByPid s 3=some 2 := by
  have hrun : ∃ s, ReflTransGen (ProcStep anyCall) (System.single .zero) s ∧ (s.tasks 1).state=.zombie ∧
      (s.tasks 1).pid=2 ∧ (s.tasks 2).state=.runnable ∧ (s.tasks 2).pid=3 ∧ (s.tasks 2).ppid=1 := by
    refine ⟨_,(((ReflTransGen.single (.call _ 0 (runs_single .zero) (.fork .zero) trivial)).tail
      (.schedule _ .zero true 0)).tail (.call _ 1 (by decide +kernel) (.fork .zero) trivial)).tail
      (.call _ 1 (by decide +kernel) (.exit 0) trivial),?_⟩
    decide +kernel
  obtain ⟨s,hrun,hz,hp1,hr,hp2,hpp⟩ := hrun
  have h1 := pids_identify (t := 1) (booted_single .zero) hrun (by rw [hz]; decide)
  have h2 := pids_identify (t := 2) (booted_single .zero) hrun (by rw [hr]; decide)
  rw [hp1] at h1
  rw [hp2] at h2
  exact ⟨s,hrun,hz,hpp,h1.1,h2.1⟩

end FuriOS
