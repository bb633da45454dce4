import FuriOS.Task.SignalSpec
import FuriOS.Task.Table
import FuriOS.Task.KernelSteps

/-! What the kernel can do to the process side of the system, one change at a time. Every call of
the current task and every pass through the scheduler is a sequence of such changes, so an
invariant has to be shown for these changes only. -/
namespace FuriOS

/-- The edits of a signal state that the calls and the delivery make. Dispositions are set only if
`acts` holds. -/
inductive SignalEdit (acts : Prop) : SignalState → SignalState → Prop
  | enqueue (g : SignalState) (sig : ℕ) : SignalEdit acts g (g.enqueue sig)
  | clear (g : SignalState) (sig : ℕ) : SignalEdit acts g (g.clearPending sig)
  | pick (g : SignalState) : SignalEdit acts g g.pickPending.2
  | action (g : SignalState) (sig : ℕ) (a : SigAct) (h : acts) : SignalEdit acts g (g.setAction sig a)
  | mask (g : SignalState) (how : ℤ) (set : BitVec 32) :
      SignalEdit acts g {g with signalMask := newMask how set g.signalMask}
  | sigreturn (g : SignalState) : SignalEdit acts g
      {g with signalMask := g.savedMask, active := false, activeNum := 0, savedMask := 0}
  | exec (g : SignalState) : SignalEdit acts g g.resetForExec
  | report (g : SignalState) (stop cont : Bool) (sig : ℕ) : SignalEdit acts g
      {g with stopReportPending := stop, contReportPending := cont, stopSignal := sig}
  | enter (g : SignalState) (sig : ℕ) (f : TrapFrame) : SignalEdit acts g (g.enterHandler sig f)
  | exit (k : Task) (code : ℤ) : SignalEdit acts k.sig (k.exited code).sig

/-- A change of a task that neither its row nor its signal state shows; at most it becomes
runnable. -/
structure Task.Quiet (k k' : Task) : Prop where
  row : k'.row=k.row
  sig : k'.sig=k.sig
  state : k'.state=k.state ∨ k'.state=.runnable ∧ (k.state=.waiting ∨ k.state=.running)

lemma Task.Quiet.refl (k : Task) : k.Quiet k := ⟨rfl,rfl,.inl rfl⟩

/-- What the changes of one step may do. -/
structure Licence where
  /-- only a running task makes calls -/
  running : Prop
  /-- tasks that may be continued -/
  cont : TaskIx → Prop
  /-- in which state of the table which task may be put into which group -/
  regroup : ProcTable → TaskIx → ℤ → Prop
  /-- dispositions may be set and inherited; then no task is ended -/
  acts : Prop
  /-- the processor may be given to another task -/
  switches : Prop
  /-- slots that are not freed, unless a task ends -/
  holds : TaskIx → Prop

def Licence.none : Licence :=
  ⟨True,fun _ => False,fun _ _ _ => False,False,False,fun _ => False⟩

/-- The current task is `c`, and it runs. -/
def Runs (c : TaskIx) (s : System) : Prop := s.current=some c ∧ (s.tasks c).state=.running

instance (c : TaskIx) (s : System) : Decidable (Runs c s) := inferInstanceAs (Decidable (_ ∧ _))

/-- The current task is `c`, and it may make calls. -/
structure MayCall (L : Licence) (c : TaskIx) (s : System) : Prop where
  current : s.current=some c
  used : (s.tasks c).state≠.unused
  running : L.running → (s.tasks c).state=.running

/-- A child that a wait of `c` with this filter is about. -/
def waitsFor (s : System) (c : TaskIx) (filter : ℤ) (j : TaskIx) : Prop :=
  (s.tasks j).state≠.unused ∧ taskWaitMatchesFilter (s.tasks c) (s.tasks j) filter=true

inductive Change (L : Licence) : System → System → Prop
  | aside {s s' : System} (h : s'.procView=s.procView) : Change L s s'
  | pipes (s : System) (p : ℕ → Pipe) : Change L s {s with pipes := p}
  | ticks (s : System) (n : ℕ) : Change L s {s with ticks := n}
  | quiet (s : System) (f : TaskIx → Task) (h : ∀ i, (s.tasks i).Quiet (f i)) :
      Change L s {s with tasks := f}
  | edit (s : System) (t : TaskIx) (f : SignalState → SignalState)
      (h : SignalEdit L.acts (s.tasks t).sig (f (s.tasks t).sig)) :
      Change L s (s.setTask t fun k => k.setSig (f k.sig))
  | enter (s : System) (t : TaskIx) (sig : ℕ) : Change L s (s.setTask t fun k => k.enterHandler sig)
  | wake (s : System) (t : TaskIx) (restart : Bool) :
      Change L s (s.setTask t fun k => taskSignalWakeWaiter k restart)
  | stop (s : System) (t : TaskIx) (sig : ℕ) (h : (s.tasks t).alive) : Change L s (stopTask t sig s)
  | cont (s : System) (t : TaskIx) (h : (s.tasks t).state=.stopped) (hl : L.cont t) :
      Change L s (continueTask t s)
  | exit (s : System) (t : TaskIx) (code : ℤ) (h : (s.tasks t).alive) (hl : ¬L.acts) :
      Change L s ((taskForceExit t code).run s).2
  | reapChild (s : System) (i c : TaskIx) (hc : MayCall L c s) (hi : i≠c)
      (hp : (s.tasks i).ppid=(s.tasks c).pid)
      (hst : (s.tasks i).state=.zombie ∨ (s.tasks i).state=.runnable) (hl : ¬L.holds i) :
      Change L s ((taskReapSlot i).run s).2
  | reapOrphan (s : System) (i : TaskIx) (hz : (s.tasks i).state=.zombie)
      (hp : taskParentAlive s (s.tasks i)=false) (hl : ¬L.holds i) :
      Change L s ((taskReapSlot i).run s).2
  | block (s : System) (c : TaskIx) (hc : MayCall L c s) (hl : L.running ∨ L.acts)
      (kind : WaitKind) (hk : kind≠.child) (obj : Option ℕ) (tick : ℕ) : Change L s (s.setTask c fun k =>
        {k with state := .waiting, waitKind := kind, waitObj := obj, wakeTick := tick})
  | wait (s : System) (c : TaskIx) (hc : MayCall L c s) (hl : L.running ∨ L.acts) (filter : ℤ)
      (hnone : ∀ j, waitsFor s c filter j → (s.tasks j).state≠.zombie) (hsome : ∃ j, waitsFor s c filter j) :
      Change L s (s.setTask c fun k => {k with
        state := .waiting, waitPid := filter, waitKind := .child, waitObj := none, wakeTick := 0})
  | switch (s : System) (next : TaskIx) (h : (s.tasks next).state=.runnable) (hl : L.switches) :
      Change L s (switchTo next s)
  | regroup (s : System) (t : TaskIx) (pgid : ℤ) (h : (s.tasks t).alive)
      (hl : L.regroup s.procTable t pgid) :
      Change L s (s.setTask t fun k => {k with pgid := pgid})
  | clear (s : System) (i : TaskIx) (h : (s.tasks i).state=.unused) :
      Change L s (s.setTask i fun _ => Task.zero)
  | spawn (s : System) (i : TaskIx) (kstack : ℕ) (h : (s.tasks i).state=.unused) :
      Change L s {s.setTask i fun _ => Task.fresh s.nextPid kstack with nextPid := s.nextPid+1}
  | adopt (s : System) (i c : TaskIx) (hl : L.acts) (hc : MayCall L c s) (hi : i≠c)
      (hst : (s.tasks i).state=.runnable) (hp : (s.tasks i).ppid=0)
      (hinit : (s.tasks i).pid≠s.initPid) : Change L s (s.setTask i fun k => {k with
        ppid := (s.tasks c).pid, pgid := (s.tasks c).pgid})
  | inherit (s : System) (i c : TaskIx) (tf : TrapFrame) (hl : L.acts)
      (hst : (s.tasks i).state=.runnable) : Change L s (s.setTask i fun k => k.inherit (s.tasks c) tf)

def Reach (L : Licence) (s0 s : System) : Prop := Relation.ReflTransGen (Change L) s0 s

section Basics
variable {L : Licence} {s s' s0 : System} {t i : TaskIx}

lemma Reach.step (h : Reach L s0 s) (hc : Change L s s') : Reach L s0 s' :=
  Relation.ReflTransGen.tail h hc

lemma Reach.edit (h : Reach L s0 s) (t : TaskIx) (f : SignalState → SignalState)
    (hf : SignalEdit L.acts (s.tasks t).sig (f (s.tasks t).sig)) :
    Reach L s0 (s.setTask t fun k => k.setSig (f k.sig)) := h.step (.edit s t f hf)

lemma Reach.quiet (h : Reach L s0 s) {f : Task → Task} (hf : (s.tasks t).Quiet (f (s.tasks t))) :
    Reach L s0 (s.setTask t f) := by
  refine h.step (.quiet s _ fun i => ?_)
  by_cases hi : i=t
  · subst hi
    simpa using hf
  · rw [Function.update_of_ne hi]
    exact .refl _

lemma quiet_wakeSleepers (now : ℕ) (i : TaskIx) :
    (s.tasks i).Quiet ((taskWakeSleepers now s).tasks i) := by
  unfold taskWakeSleepers
  dsimp only
  split_ifs with h
  · simp only [Bool.and_eq_true,decide_eq_true_eq] at h
    exact ⟨by simp [Task.row,Task.phase,h.1.1,h.1.2],rfl,.inr ⟨rfl,.inl h.1.1⟩⟩
  · exact .refl _

end Basics

end FuriOS
