import FuriOS.Task.ProcRun

/-! Whose slot is freed. A call never frees the slot of the caller, and an exit or a kill frees it
only if the parent of the caller or init frees its children at once. -/
namespace FuriOS
open Prog Relation

section Rows
variable {L : Licence} {T T' : ProcTable} {n n' : ℤ} {c t i : TaskIx}

/-- A task that lives afterwards and frees its children at once did so before. -/
def Row.Tame (r r' : Row) : Prop :=
  r'.alive=true → r'.reaps=true → r.alive=true ∧ r.pid=r'.pid ∧ r.reaps=true

lemma Row.Tame.of_alive {r r' : Row} (ha : r'.alive=r.alive) (hp : r'.pid=r.pid)
    (hr : r'.reaps=true → r.reaps=true) : r.Tame r' :=
  fun h hr' => ⟨ha.symm.trans h,hp.symm,hr hr'⟩

lemma Row.Woken.tame {r r' : Row} (h : r.Woken r') : r.Tame r' :=
  .of_alive h.alive h.pid fun hr => h.reaps ▸ hr

/-- The slot is in use. As long as tasks may end, neither the parent of the task nor init frees its
children at once. -/
structure Held (L : Licence) (c : TaskIx) (T : ProcTable) : Prop where
  used : (T.rows c).phase≠.unused
  parent : ¬L.acts → ¬T.Reaper (T.rows c).ppid
  init : ¬L.acts → ¬T.Reaper T.initPid

namespace Held

section
variable (h : Held L c T)
include h

lemma step (hu : (T'.rows c).phase≠.unused)
    (hrow : ¬L.acts → ∀ p, (T.rows p).Tame (T'.rows p))
    (hp : ¬L.acts → (T'.rows c).ppid=(T.rows c).ppid ∨ (T'.rows c).ppid=T.initPid ∨ (T'.rows c).ppid≤0)
    (hi : T'.initPid=T.initPid ∨ T'.initPid≤0) : Held L c T' := by
  have hback (ha : ¬L.acts) {m : ℤ} (hr : T'.Reaper m) : T.Reaper m := by
    obtain ⟨hpos,p,halive,hpid,hreaps⟩ := hr
    obtain ⟨halive,hpid',hreaps⟩ := hrow ha p halive hreaps
    exact ⟨hpos,p,halive,hpid'.trans hpid,hreaps⟩
  refine ⟨hu,fun ha hr => ?_,fun ha hr => ?_⟩
  · rcases hp ha with hp | hp | hp
    · exact h.parent ha (hback ha (hp ▸ hr))
    · exact h.init ha (hback ha (hp ▸ hr))
    · exact absurd hr.1 (by omega)
  · rcases hi with hi | hi
    · exact h.init ha (hback ha (hi ▸ hr))
    · exact absurd hr.1 (by omega)

lemma set {r : Row} (hu : t=c → r.phase≠.unused)
    (hr : ¬L.acts → (T.rows t).Tame r ∧ (t=c → r.ppid=(T.rows t).ppid)) : Held L c (T.set t r) := by
  refine h.step ?_ (fun ha p => ?_) (fun ha => .inl ?_) (.inl rfl)
  · by_cases hc : c=t
    · subst hc
      rw [ProcTable.set_self]
      exact hu rfl
    · rw [ProcTable.set_of_ne hc]
      exact h.used
  · by_cases hp : p=t
    · subst hp
      rw [ProcTable.set_self]
      exact (hr ha).1
    · rw [ProcTable.set_of_ne hp]
      exact (Row.Woken.refl _).tame
  · by_cases hc : c=t
    · subst hc
      rw [ProcTable.set_self]
      exact (hr ha).2 rfl
    · rw [ProcTable.set_of_ne hc]

lemma wakeWaiters (pid : ℤ) : Held L c (T.wakeWaiters pid) := by
  have hw := ProcTable.wakeWaiters_woken (T := T) pid
  exact h.step (mt (hw c).unused.1 h.used) (fun _ p => (hw p).tame) (fun _ => .inl (hw c).ppid)
    (.inl (ProcTable.wakeWaiters_initPid pid))

lemma reap (hi : i≠c) : Held L c (T.reap i) := by
  have hset : Held L c (T.set i .zero) :=
    h.set (fun he => absurd he hi) fun _ => ⟨by simp [Row.Tame,Row.alive,Row.zero],fun he => absurd he hi⟩
  refine hset.step hset.used (fun _ p => (Row.Woken.refl _).tame) (fun _ => .inl rfl) ?_
  change ite _ _ _=_ ∨ ite _ _ _≤_
  split_ifs
  · exact .inr (by decide)
  · exact .inl rfl

lemma exit (hT : T.Numbered) (ht : (T.rows t).alive=true) (hl : ¬L.acts) :
    Held L c (T.exit t) := by
  have hex := ProcTable.exit_exited hT ht
  have hheir : T.autoReaps (T.heir t)=false := by
    unfold ProcTable.heir
    split_ifs
    · rfl
    · exact eq_false_of_ne_true (mt (ProcTable.autoReaps_liveInit hT).1 (h.init hl))
  have hrow (p : TaskIx) : (T.rows p).Tame ((T.exit t).rows p) := by
    by_cases hp : p=t
    · subst hp
      rw [hex.self]
      split_ifs <;> simp [Row.Tame,Row.alive,Row.zero,Row.ended]
    · have hk := hex.kept hp
      intro ha hr
      obtain ⟨-,hpid,-,hreaps⟩ := hk.used (Row.alive_iff.1 ha).1
      exact ⟨hk.alive.symm.trans ha,hpid.symm,hreaps.symm.trans hr⟩
  by_cases hc : c=t
  · subst hc
    have hself := hex.self
    have hkeep : T.autoReaps (T.parentOf (T.rows c))=false :=
      eq_false_of_ne_true (mt (ProcTable.autoReaps_parentOf hT _).1 (h.parent hl))
    rw [hkeep] at hself
    refine h.step ?_ (fun _ => hrow) (fun _ => .inl ?_) (.inl hex.initPid) <;> rw [hself]
    · simp [Row.ended]
    · rfl
  · have hu : ((T.exit t).rows c).phase≠.unused := fun hf => by
      have := ((hex.others c hc).freed_iff h.used).1 hf
      simp [hheir] at this
    refine h.step hu (fun _ => hrow) (fun _ => ?_) (.inl hex.initPid)
    rw [hex.ppid hc hu]
    split_ifs
    · right
      cases hf : T.heir t with
      | none => exact .inr (by simp)
      | some p =>
        unfold ProcTable.heir at hf
        split_ifs at hf
        exact .inl (ProcTable.liveInit_eq_some hf).2.2
    · exact .inl rfl

end

end Held

lemma TableChange.held (hc : TableChange L T n T' n') (ho : T.InOrder n) (hl : L.holds c) (h : Held L c T) :
    Held L c T' := by
  have hne {i : TaskIx} (hi : (T.rows i).phase=.unused) (he : i=c) : False := h.used (he ▸ hi)
  have hphase (t : TaskIx) (p : Phase) (stop cont : Bool) (ht : (T.rows t).alive=true)
      (hp : p≠.unused) :
      Held L c (T.set t {T.rows t with phase := p, stopReport := stop, contReport := cont}) :=
    h.set (fun _ => hp) fun _ => ⟨fun _ hr => ⟨ht,rfl,hr⟩,fun _ => rfl⟩
  cases hc with
  | soft hi hr hreaps =>
    refine h.step (mt (hr c).unused.1 h.used) (fun ha p => ?_) (fun _ => .inl (hr c).ppid) (.inl hi)
    exact .of_alive (by simp [Row.alive,(hr p).unused,(hr p).zombie]) (hr p).pid (hreaps ha p)
  | stop t ht => exact (hphase t .stopped true false ht (by decide)).wakeWaiters _
  | cont t ht _ => exact (hphase t .active false true (by simp [Row.alive,ht]) (by decide)).wakeWaiters _
  | exit t ht hact => exact h.exit ho.toNumbered ht hact
  | reapChild i _ _ _ _ hi => exact h.reap fun he => hi (he ▸ hl)
  | reapOrphan i _ _ hi => exact h.reap fun he => hi (he ▸ hl)
  | wait t filter ht _ _ => exact hphase t (.waiting filter) _ _ (by simp [Row.alive,ht]) (by simp)
  | rouse t p _ ha _ hp => exact h.set (fun _ => hp) fun hn => absurd ha hn
  | regroup t pgid ht _ => exact h.set (fun _ => (Row.alive_iff.1 ht).1) fun _ => ⟨fun _ hr => ⟨ht,rfl,hr⟩,fun _ => rfl⟩
  | clear i hi =>
    exact h.set (fun he => (hne hi he).elim) fun _ =>
      ⟨by simp [Row.Tame,Row.alive,Row.zero],fun he => (hne hi he).elim⟩
  | spawn i hi =>
    exact h.set (fun he => (hne hi he).elim) fun _ => ⟨by simp [Row.Tame,Row.fresh],fun he => (hne hi he).elim⟩
  | adopt i _ ha _ _ hst _ _ => exact h.set (fun _ => by simp [hst]) fun hn => absurd ha hn

end Rows

section Current
variable {L : Licence} {s s' : System} {c t i : TaskIx}

/-- The task `c` is the current one, and its slot is marked as freed only if it is. -/
structure AtWork (c : TaskIx) (s : System) : Prop where
  current : s.current=some c
  freed : s.currentReaped=true → (s.tasks c).pid=0

lemma AtWork.of_pid (h : AtWork c s) (hc : s'.current=s.current) (hr : s'.currentReaped=s.currentReaped)
    (hp : (s'.tasks c).pid=(s.tasks c).pid) : AtWork c s' :=
  ⟨hc.trans h.current,fun hf => hp.trans (h.freed (hr.symm.trans hf))⟩

lemma AtWork.setTask {f : Task → Task} (h : AtWork c s)
    (hf : t=c → (f (s.tasks t)).pid=(s.tasks t).pid ∨ (f (s.tasks t)).pid=0) : AtWork c (s.setTask t f) := by
  refine ⟨h.current,fun hr => ?_⟩
  by_cases ht : c=t
  · subst ht
    rw [System.setTask_self]
    rcases hf rfl with hp | hp
    · exact hp.trans (h.freed hr)
    · exact hp
  · rw [System.setTask_of_ne ht]
    exact h.freed hr

lemma AtWork.same {f : Task → Task} (h : AtWork c s) (hf : (f (s.tasks t)).pid=(s.tasks t).pid) :
    AtWork c (s.setTask t f) := h.setTask fun _ => .inl hf

lemma AtWork.of_procView (hv : s'.procView=s.procView) (h : AtWork c s) : AtWork c s' :=
  h.of_pid (congrArg ProcView.current hv) (congrArg ProcView.currentReaped hv)
    (congrArg (fun v : ProcView => (v.tasks c).pid) hv)

lemma atWork_procInv : ProcInv (AtWork c) := by
  refine .of_parts (.of_view fun _ _ => AtWork.of_procView) (fun _ _ h => h.of_pid rfl rfl rfl)
    (fun _ _ _ h => h.same rfl) fun s p h => h.of_pid rfl rfl ?_
  unfold taskWakePipe
  dsimp only
  split_ifs <;> rfl

lemma atWork_reapSlot (i : TaskIx) : Preserves (AtWork c) (taskReapSlot i) := by
  intro s h
  by_cases hi : i=c
  · subst hi
    have hkeep : ReapInv (fun s => s.current=some i) i :=
      ⟨.of_parts (.of_view fun _ _ hv hs => (congrArg ProcView.current hv).trans hs) (fun _ _ hs => hs)
        (fun _ _ _ hs => hs) fun _ _ hs => hs,fun _ hs _ => hs,fun _ hs _ => hs,fun _ hs => hs,fun _ hs => hs⟩
    refine ⟨hkeep.reapSlot s h.current,fun _ => ?_⟩
    have hrow : (((taskReapSlot i).run s).2.procTable.rows i)=.zero := by
      rw [reap_table.1]
      exact ProcTable.set_self ..
    exact congrArg Row.pid hrow
  · have hinv : ReapInv (AtWork c) i :=
      ⟨atWork_procInv,fun _ hs _ => hs.of_pid rfl rfl rfl,
        fun s hs hc => absurd (Option.some.inj (hc.symm.trans hs.current)) hi,
        fun _ hs => hs.same rfl,fun _ hs => hs.setTask fun _ => .inr rfl⟩
    exact hinv.reapSlot s h

lemma atWork_exitInv : ExitInv (AtWork c) where
  toProcInv := atWork_procInv
  reap := atWork_reapSlot
  exited _ _ _ h := h.same rfl
  ppid _ _ _ h := h.same rfl
  notify s t ev h := by
    unfold taskNotifySigchld
    split
    · exact h
    dsimp only
    split_ifs
    · exact h
    · exact h
    · exact h.same rfl
  wake s pid h := by
    unfold taskWakeWaiters
    split
    · exact h
    · refine h.of_pid rfl rfl ?_
      dsimp only
      split_ifs <;> rfl

lemma Change.atWork (hc : Change L s s') (hl : ¬L.switches) (hu : (s.tasks c).state≠.unused)
    (h : AtWork c s) : AtWork c s' := by
  have hexit : ExitInv (AtWork c) := atWork_exitInv
  cases hc with
  | aside hv => exact h.of_procView hv
  | pipes p => exact h.of_pid rfl rfl rfl
  | ticks n => exact h.of_pid rfl rfl rfl
  | quiet f hq => exact h.of_pid rfl rfl (congrArg Row.pid (hq c).row)
  | edit t f _ => exact h.same rfl
  | enter t sig => exact h.same rfl
  | wake t restart => exact h.same (row_signalWakeWaiter _ restart).pid
  | stop t sig _ => exact hexit.wake _ _ (hexit.notify _ _ _ (h.same rfl))
  | cont t _ _ => exact hexit.wake _ _ (hexit.notify _ _ _ (h.same rfl))
  | exit t code _ _ => exact hexit.forceExit t code s h
  | reapChild i _ _ _ _ _ _ => exact hexit.reap i s h
  | reapOrphan i _ _ _ => exact hexit.reap i s h
  | block t _ _ kind _ obj tick => exact h.same rfl
  | wait t _ _ filter _ _ => exact h.same rfl
  | switch next _ hs => exact absurd hs hl
  | regroup t pgid _ _ => exact h.same rfl
  | clear i _ => exact h.setTask fun _ => .inr rfl
  | spawn i kstack hi =>
    have hset : AtWork c (s.setTask i fun _ => Task.fresh s.nextPid kstack) :=
      h.setTask fun he => absurd hi (he ▸ hu)
    exact hset.of_pid rfl rfl rfl
  | adopt i _ _ _ _ _ _ _ => exact h.same rfl
  | inherit i _ tf _ _ => exact h.same rfl

end Current

section Steps
variable {L : Licence} {s s' s0 : System} {c : TaskIx}

/-- The numbers are in order, and the current task has its slot. -/
structure Sane (s : System) : Prop where
  order : s.procTable.InOrder s.nextPid
  current : ∃ c, s.current=some c ∧ (s.tasks c).state≠.unused
  notReaped : s.currentReaped=false

/-- The licence of a step in which the task `c` keeps its slot. -/
def Licence.keeping (c : TaskIx) (acts : Prop) : Licence :=
  ⟨False,fun _ => True,fun _ _ _ => True,acts,False,(· = c)⟩

lemma ProcCall.needs_keeping (call : ProcCall) (s : System) (c : TaskIx) :
    ∃ acts, call.Needs (.keeping c acts) s c := by
  cases call with
  | exit code => exact ⟨False,not_false⟩
  | kill pid sig => exact ⟨False,not_false,fun _ _ _ => trivial⟩
  | setpgid pid pgid => exact ⟨True,fun _ _ => trivial⟩
  | wait pid options => exact ⟨True,.inr trivial⟩
  | blockOnPipeRead pipe => exact ⟨True,.inr trivial⟩
  | blockOnPipeWrite pipe => exact ⟨True,.inr trivial⟩
  | blockOnSleep wakeTick => exact ⟨True,.inr trivial⟩
  | _ => exact ⟨True,trivial⟩

lemma Reach.held (h : Reach L s s') (hl : L.holds c) (hsw : ¬L.switches)
    (ho : s.procTable.InOrder s.nextPid) (hh : Held L c s.procTable) (hw : AtWork c s) :
    s'.procTable.InOrder s'.nextPid ∧ Held L c s'.procTable ∧ AtWork c s' := by
  induction h with
  | refl => exact ⟨ho,hh,hw⟩
  | tail _ hc ih =>
    obtain ⟨ho,hh,hw⟩ := ih
    exact ⟨hc.table.inOrder ho,hc.table.held ho hl hh,hc.atWork hsw (mt phase_unused.2 hh.used) hw⟩

lemma Sane.reach {acts : Prop} (h : Sane s) (hc : s.current=some c) (hp : ParentsWait s)
    (hr : Reach (.keeping c acts) s s') : Sane s' ∧ s'.current=some c := by
  have hT := h.order.toNumbered
  have hheld : Held (.keeping c acts) c s.procTable := by
    obtain ⟨d,hd,hu⟩ := h.current
    obtain rfl := Option.some.inj (hd.symm.trans hc)
    obtain ⟨hparent,hinit⟩ := hp
    rw [hc,Option.bind_some,parentAutoReaps_eq,taskParentOf_eq] at hparent
    rw [parentAutoReaps_eq,taskFindLiveInit_eq] at hinit
    refine ⟨mt phase_unused.1 hu,fun _ hr => ?_,fun _ hr => ?_⟩
    · exact absurd ((ProcTable.autoReaps_parentOf hT (s.tasks d).row).2 hr) (by simp [hparent])
    · exact absurd ((ProcTable.autoReaps_liveInit hT).2 hr) (by simp [hinit])
  have hwork : AtWork c s := ⟨hc,by simp [h.notReaped]⟩
  obtain ⟨ho,hheld,hwork⟩ := hr.held rfl not_false h.order hheld hwork
  refine ⟨⟨ho,⟨c,hwork.current,mt phase_unused.2 hheld.used⟩,eq_false_of_ne_true fun hf => ?_⟩,hwork.current⟩
  have hpos := ho.pid c hheld.used
  exact absurd (hwork.freed hf) (ne_of_gt hpos)

lemma KernelStep.sane (h : Sane s) (hp : ParentsWait s) (hstep : KernelStep s s') : Sane s' := by
  obtain ⟨c,hc,hu⟩ := h.current
  cases hstep with
  | call call =>
    obtain ⟨acts,hn⟩ := call.needs_keeping s c
    exact (h.reach hc hp (call.perform_reach (.of_inOrder h.order ⟨hc,hu,False.elim⟩ fun _ => id) hn)).1
  | schedule f force late =>
    refine Ends.of_wp (wp_mono (wp_taskScheduleFromTrap_reach (L := .keeping c False) .refl not_false
      (fun i hi => hi ▸ hc) f force late) (fun _ s' hs => ?_) fun s' hr => (h.reach hc hp hr).1)
    obtain ⟨s1,next,hr,hst,rfl⟩ := hs
    have h1 := (h.reach hc hp hr).1
    have hswitch : Change .schedule s1 (switchTo next s1) := .switch s1 next hst trivial
    refine ⟨hswitch.table.inOrder h1.order,⟨next,rfl,?_⟩,h1.notReaped⟩
    simp [switchTo]
  | other _ hcore =>
    have htask (i : TaskIx) : (s'.tasks i).core=(s.tasks i).core := congrFun (congrArg Core.tasks hcore) i
    have hused (i : TaskIx) : (s'.tasks i).state=.unused ↔ (s.tasks i).state=.unused := by
      have := congrArg TaskCore.used (htask i)
      simpa [Task.core] using this
    have hnext : s'.nextPid=s.nextPid := congrArg Core.nextPid hcore
    refine ⟨hnext ▸ h.order.of_rows (congrArg Core.initPid hcore) fun i => ?_,
      ⟨c,(congrArg Core.current hcore).trans hc,mt (hused c).1 hu⟩,(congrArg Core.currentReaped hcore).trans h.notReaped⟩
    exact ⟨congrArg TaskCore.pid (htask i),congrArg TaskCore.ppid (htask i),
      phase_unused.trans ((hused i).trans phase_unused.symm)⟩

lemma Booted.sane (h : Booted s) : Sane s := by
  obtain ⟨c,hc,hst,-⟩ := h.started
  exact ⟨h.inOrder,⟨c,hc,by simp [hst]⟩,h.notReaped⟩

/-- From the start on, as long as neither the parent of the current task nor init frees its
children at once, the slot of the current task is never freed. -/
theorem currentTask_not_reaped (hb : Booted s0)
    (hr : ReflTransGen (fun s s' => ParentsWait s ∧ KernelStep s s') s0 s) :
    s.currentReaped=false ∧ ∃ c, s.current=some c ∧ (s.tasks c).state≠.unused := by
  have hsane : Sane s := by
    induction hr with
    | refl => exact hb.sane
    | tail _ hstep ih => exact hstep.2.sane ih hstep.1
  exact ⟨hsane.notReaped,hsane.current⟩

end Steps

/-- Init forks and waits, and the child exits: it keeps its slot as a zombie. -/
theorem currentTask_not_reaped_child : ∃ s0 s, Booted s0 ∧
    ReflTransGen (fun s s' => ParentsWait s ∧ KernelStep s s') s0 s ∧ s.current=some 1 ∧
    (s.tasks 1).state=.zombie ∧ (s.tasks 0).state=.runnable ∧ s.currentReaped=false := by
  have hrun : ∃ s, ReflTransGen (fun s s' => ParentsWait s ∧ KernelStep s s') (System.single .zero) s ∧
      s.current=some 1 ∧ (s.tasks 1).state=.zombie ∧ (s.tasks 0).state=.runnable :=
    ⟨_,(((ReflTransGen.single ⟨by decide +kernel,.call _ (.fork .zero)⟩).tail
      ⟨by decide +kernel,.call _ (.wait (-1) 0)⟩).tail ⟨by decide +kernel,.schedule _ .zero true 0⟩).tail
      ⟨by decide +kernel,.call _ (.exit 0)⟩,by decide +kernel⟩
  obtain ⟨s,hrun,hend⟩ := hrun
  exact ⟨_,s,booted_single .zero,hrun,hend.1,hend.2.1,hend.2.2,(currentTask_not_reaped (booted_single .zero) hrun).1⟩

/-- Init ignores `SIGCHLD` and forks, the child is scheduled and exits: that frees the slot of
the current task. -/
theorem currentTask_reaped : ∃ s0 s, Booted s0 ∧ ReflTransGen KernelStep s0 s ∧
    s.currentReaped=true := by
  refine ⟨_,_,booted_single .zero,(((ReflTransGen.single
    (.call _ (.sigaction sigchld (some ⟨sigIgn,0,0,0⟩)))).tail (.call _ (.fork .zero))).tail
    (.schedule _ .zero true 0)).tail (.call _ (.exit 0)),?_⟩
  decide +kernel

end FuriOS
