import FuriOS.Task.ProcRun

/-! The signal states of all tasks along a run. What every edit of a signal state keeps, every run
keeps for every task; so the pending sets and the queues stay in step, and the mask never holds a
signal that cannot be blocked. -/
namespace FuriOS
open Relation

/-- A property of the signal states of the slots that every edit keeps. A child starts with a
signal state made from its own and that of its parent. -/
structure SignalInv (P : TaskIx → SignalState → Prop) : Prop where
  zero : ∀ t g, P t g → P t .zero
  edit : ∀ t acts g g', SignalEdit acts g g' → P t g → P t g'
  inherit : ∀ t u g g', P t g → P u g' → P t (g.inheritForFork g')

def AllSignals (P : TaskIx → SignalState → Prop) (s : System) : Prop := ∀ t, P t (s.tasks t).sig

section Preservation
variable {P : TaskIx → SignalState → Prop} {L : Licence} {s s' : System} {t : TaskIx}

lemma AllSignals.of_sig (h : AllSignals P s) (hs : ∀ t, (s'.tasks t).sig=(s.tasks t).sig) :
    AllSignals P s' := fun t => by
  rw [hs t]
  exact h t

lemma AllSignals.setTask {f : Task → Task} (h : AllSignals P s) (hf : P t (f (s.tasks t)).sig) :
    AllSignals P (s.setTask t f) := by
  intro u
  by_cases hu : u=t
  · subst hu
    rw [System.setTask_self]
    exact hf
  · rw [System.setTask_of_ne hu]
    exact h u

lemma AllSignals.setTask_same {f : Task → Task} (h : AllSignals P s)
    (hf : (f (s.tasks t)).sig=(s.tasks t).sig) : AllSignals P (s.setTask t f) :=
  h.setTask (by rw [hf]; exact h t)

lemma sig_taskWakeWaiters (pid : ℤ) (i : TaskIx) :
    ((taskWakeWaiters pid s).tasks i).sig=(s.tasks i).sig := by
  unfold taskWakeWaiters
  split
  · rfl
  · dsimp only
    split_ifs <;> rfl

lemma sig_taskWakePipe (p : ℕ) (i : TaskIx) : ((taskWakePipe p s).tasks i).sig=(s.tasks i).sig := by
  unfold taskWakePipe
  dsimp only
  split_ifs <;> rfl

lemma sig_signalWakeWaiter (k : Task) (restart : Bool) : (taskSignalWakeWaiter k restart).sig=k.sig := by
  unfold taskSignalWakeWaiter
  split
  · rfl
  · dsimp only
    split_ifs <;> rfl

lemma allSignals_procInv : ProcInv (AllSignals P) :=
  .of_parts (.of_view fun _ _ hv hs => hs.of_sig fun t => congrArg (fun v : ProcView => (v.tasks t).sig) hv)
    (fun _ _ hs => hs) (fun _ _ _ hs => hs.setTask_same rfl) fun _ p hs => hs.of_sig fun i => sig_taskWakePipe p i

namespace SignalInv
variable (h : SignalInv P)
include h

lemma exitInv : ExitInv (AllSignals P) where
  toProcInv := allSignals_procInv
  reap i := ReapInv.reapSlot ⟨allSignals_procInv,fun _ hs _ => hs,fun _ hs _ => hs,
    fun _ hs => hs.setTask_same rfl,fun _ hs => hs.setTask (h.zero i _ (hs i))⟩
  exited s t code hs := hs.setTask (h.edit t True _ _ (.exit _ code) (hs t))
  ppid _ _ _ hs := hs.setTask_same rfl
  notify s t ev hs := by
    unfold taskNotifySigchld
    split
    · exact hs
    · rename_i p _
      dsimp only
      split_ifs
      · exact hs
      · exact hs
      · exact hs.setTask (h.edit p True _ _ (.enqueue _ sigchld) (hs p))
  wake s pid hs := hs.of_sig fun i => sig_taskWakeWaiters pid i

lemma change (hs : AllSignals P s) (hc : Change L s s') : AllSignals P s' := by
  have hexit := h.exitInv
  cases hc with
  | aside hv => exact hs.of_sig fun t => congrArg (fun v : ProcView => (v.tasks t).sig) hv
  | pipes p => exact hs
  | ticks n => exact hs
  | quiet f hq => exact hs.of_sig fun i => (hq i).sig
  | edit t f hf => exact hs.setTask (h.edit t _ _ _ hf (hs t))
  | enter t sig => exact hs.setTask (h.edit t True _ _ (.enter _ sig _) (hs t))
  | wake t restart => exact hs.setTask_same (sig_signalWakeWaiter _ restart)
  | stop t sig _ =>
    exact hexit.wake _ _ (hexit.notify _ _ _ (hs.setTask (h.edit t True _ _ (.report _ true false sig) (hs t))))
  | cont t _ _ =>
    exact hexit.wake _ _ (hexit.notify _ _ _ (hs.setTask (h.edit t True _ _ (.report _ false true 0) (hs t))))
  | exit t code _ _ => exact hexit.forceExit t code s hs
  | reapChild i c _ _ _ _ _ => exact hexit.reap i s hs
  | reapOrphan i _ _ _ => exact hexit.reap i s hs
  | block c _ _ kind _ obj tick => exact hs.setTask_same rfl
  | wait c _ _ filter _ _ => exact hs.setTask_same rfl
  | switch next _ _ =>
    have hset : AllSignals P (s.setTask next fun k => {k with state := .running}) := hs.setTask_same rfl
    exact hset
  | regroup t pgid _ _ => exact hs.setTask_same rfl
  | clear i _ => exact hs.setTask (h.zero i _ (hs i))
  | spawn i kstack _ =>
    have hset : AllSignals P (s.setTask i fun _ => Task.fresh s.nextPid kstack) :=
      hs.setTask (h.zero i _ (hs i))
    exact hset
  | adopt i c _ _ _ _ _ _ => exact hs.setTask_same rfl
  | inherit i c tf _ _ => exact hs.setTask (h.inherit i c _ _ (hs i) (hs c))

lemma reach (hs : AllSignals P s) (hr : Reach L s s') : AllSignals P s' := by
  induction hr with
  | refl => exact hs
  | tail _ hc ih => exact h.change ih hc

end SignalInv

end Preservation

/-! ### Pending sets and queues -/

lemma SignalEdit.event {acts : Prop} {w : Stamped} {g g' : SignalState} (h : SignalEdit acts g g') (hw : w.sig=g) :
    ∃ w', SignalEvent w w' ∧ w'.sig=g' := by
  have hother (hp : g'.pendingSignals=g.pendingSignals) (hq : g'.signalQueue=g.signalQueue) :
      ∃ w', SignalEvent w w' ∧ w'.sig=g' :=
    ⟨_,.other w g' (hp.trans (by rw [hw])) (hq.trans (by rw [hw])),rfl⟩
  have hreset (hp : g'.pendingSignals=0) (hq : g'.signalQueue=[]) :
      ∃ w', SignalEvent w w' ∧ w'.sig=g' := ⟨_,.reset w g' hp hq,rfl⟩
  cases h with
  | enqueue _ sig =>
    cases hs : signalNumber sig with
    | true => exact ⟨_,.enqueue w sig hs,by rw [hw]⟩
    | false =>
      have hsame : g.enqueue sig=g := by simp [SignalState.enqueue,hs]
      exact hother (by rw [hsame]) (by rw [hsame])
  | clear _ sig => exact ⟨_,.clear w sig,by rw [hw]⟩
  | pick => exact ⟨_,.pick w,by rw [hw]⟩
  | action _ sig a _ => exact hother rfl rfl
  | mask _ how set => exact hother rfl rfl
  | sigreturn => exact hother rfl rfl
  | exec => exact hreset rfl rfl
  | report _ stop cont sig => exact hother rfl rfl
  | enter _ sig f => exact hother rfl rfl
  | exit k code => exact hreset rfl rfl

/-- The signal state of a slot has come about from the stamped one by the operations. -/
def CameFrom (w : TaskIx → Stamped) (t : TaskIx) (g : SignalState) : Prop :=
  ∃ w', ReflTransGen SignalEvent (w t) w' ∧ w'.sig=g

lemma signalInv_cameFrom (w : TaskIx → Stamped) : SignalInv (CameFrom w) where
  zero t g h := by
    obtain ⟨w',hw,-⟩ := h
    exact ⟨_,hw.tail (.reset w' .zero rfl rfl),rfl⟩
  edit t _ g g' he h := by
    obtain ⟨w',hw,rfl⟩ := h
    obtain ⟨w'',hstep,rfl⟩ := he.event rfl
    exact ⟨w'',hw.tail hstep,rfl⟩
  inherit t u g g' h _ := by
    obtain ⟨w',hw,rfl⟩ := h
    exact ⟨_,hw.tail (.reset w' (w'.sig.inheritForFork g') rfl rfl),rfl⟩

def unblockable : BitVec 32 := sigbit sigkill ||| sigbit sigstop

def MaskOk (g : SignalState) : Prop := g.signalMask &&& unblockable=0 ∧ g.savedMask &&& unblockable=0

lemma and_unblockable (m : BitVec 32) : m &&& ~~~unblockable &&& unblockable=0 := by
  rw [BitVec.and_assoc,BitVec.and_comm (~~~unblockable),BitVec.and_not_self]
  exact BitVec.and_zero

lemma zero_unblockable : (0 : BitVec 32) &&& unblockable=0 := BitVec.zero_and

lemma MaskOk.of_actions {g g' : SignalState} (h : MaskOk g) (ha : g'.actions=g.actions) : MaskOk g' := by
  obtain ⟨-,hm,hs⟩ := SignalState.eq_of_actions ha
  rw [MaskOk,hm,hs]
  exact h

lemma signalInv_maskOk : SignalInv fun _ => MaskOk where
  zero _ _ _ := ⟨zero_unblockable,zero_unblockable⟩
  edit _ _ g g' he h := by
    cases he with
    | enqueue sig => exact h.of_actions SignalState.actions_enqueue
    | clear sig => exact h.of_actions SignalState.actions_clearPending
    | pick => exact h.of_actions SignalState.actions_pickPending
    | action sig a _ => exact h
    | mask how set => exact ⟨and_unblockable _,h.2⟩
    | sigreturn => exact ⟨h.2,zero_unblockable⟩
    | exec => exact ⟨and_unblockable _,zero_unblockable⟩
    | report stop cont sig => exact h
    | enter sig f => exact ⟨and_unblockable _,h.1⟩
    | exit k code => exact ⟨zero_unblockable,zero_unblockable⟩
  inherit _ _ _ _ _ _ := ⟨and_unblockable _,zero_unblockable⟩

/-- A run with the times at which signals were queued: between two states the signal state of
every slot goes through operations on pending set and queue. -/
inductive Timed (s0 : System) : System → (TaskIx → Stamped) → Prop
  | boot : Timed s0 s0 fun _ => ⟨.zero,0,fun _ => 0⟩
  | step {s s' : System} {w w' : TaskIx → Stamped} (h : Timed s0 s w) (hs : ProcStep anyCall s s')
      (hw : ∀ t, ReflTransGen SignalEvent (w t) (w' t)) (hsig : ∀ t, (w' t).sig=(s'.tasks t).sig) :
      Timed s0 s' w'

section Timing
variable {s0 s : System} {w : TaskIx → Stamped} {t : TaskIx}

lemma Timed.sig (h : Timed s0 s w) (hz : ∀ t, (s0.tasks t).sig=.zero) : (w t).sig=(s.tasks t).sig := by
  cases h with
  | boot => exact (hz t).symm
  | step _ _ _ hsig => exact hsig t

lemma Timed.history (h : Timed s0 s w) : (w t).History := by
  induction h with
  | boot => exact .refl
  | step _ _ hw _ ih => exact ih.trans (hw t)

lemma exists_timed (hb : Booted s0) (hz : ∀ t, (s0.tasks t).sig=.zero)
    (h : ReflTransGen (ProcStep anyCall) s0 s) : ∃ w, Timed s0 s w := by
  induction h with
  | refl => exact ⟨_,.boot⟩
  | tail hrun hstep ih =>
    obtain ⟨w,hw⟩ := ih
    obtain ⟨L,-,hr⟩ := hstep.reach (ProcStep.run_inOrder hrun hb.inOrder)
    have hfrom := (signalInv_cameFrom w).reach (fun t => ⟨w t,.refl,hw.sig hz⟩) hr
    choose w' hevents hsig using hfrom
    exact ⟨w',hw.step hstep hevents hsig⟩

/-- The pending set of a task and its queue, its mask, and the order of delivery. -/
structure SignalsOk (g : SignalState) : Prop where
  once : ∀ sig, signalNumber sig=true → (g.isPending sig=true ↔ g.signalQueue.count sig=1)
  room : g.signalQueue.length<taskSignalQueueLen
  apart : ¬(g.isPending sigstop=true ∧ g.isPending sigcont=true)
  mask : g.signalMask &&& unblockable=0

/-- In every run the pending set of every task agrees with its queue, which never overflows, and
the signal that is taken is the unblocked one that was queued first. -/
theorem signals_agree (hb : Booted s0) (hz : ∀ t, (s0.tasks t).sig=.zero)
    (h : ReflTransGen (ProcStep anyCall) s0 s) : (∃ w, Timed s0 s w) ∧
      ∀ w, Timed s0 s w → ∀ t, SignalsOk (s.tasks t).sig ∧ (w t).sig=(s.tasks t).sig ∧ (w t).PicksEarliest := by
  refine ⟨exists_timed hb hz h,fun w hw t => ?_⟩
  have hord : (w t).Ordered := hw.history.ordered
  have hsig : (w t).sig=(s.tasks t).sig := hw.sig hz
  have hmask : AllSignals (fun _ => MaskOk) s := by
    refine ProcStep.run_preserves (fun _ _ _ _ s s' _ _ hs hc => signalInv_maskOk.change hs hc) h
      hb.inOrder fun t => ?_
    rw [hz t]
    exact ⟨zero_unblockable,zero_unblockable⟩
  refine ⟨⟨?_,?_,?_,(hmask t).1⟩,hsig,hord.picksEarliest⟩
  · rw [← hsig]
    exact fun sig hs => hord.count_eq_one hs
  · rw [← hsig]
    exact hord.length_lt
  · rw [← hsig]
    exact hord.apart

end Timing

lemma sig_single (m : AddressSpace) (t : TaskIx) : ((System.single m).tasks t).sig=.zero := by
  by_cases ht : t=0
  · subst ht
    rfl
  · simp only [System.single,Function.update_of_ne ht]
    rfl

/-- Init after it has sent itself a signal that it blocks. -/
def afterBlockedTerm : System :=
  ((ProcCall.kill 1 15).perform.run ((ProcCall.sigprocmask sigBlock (sigbit 15)).perform.run
    (System.single .zero)).2).2

theorem signals_agree_blocked : (afterBlockedTerm.tasks 0).sig.isPending 15=true ∧
    (afterBlockedTerm.tasks 0).sig.blocked 15=true ∧
    (∃ w, Timed (System.single .zero) afterBlockedTerm w) ∧
    ∀ w, Timed (System.single .zero) afterBlockedTerm w → ∀ t, SignalsOk (afterBlockedTerm.tasks t).sig ∧
      (w t).sig=(afterBlockedTerm.tasks t).sig ∧ (w t).PicksEarliest := by
  refine ⟨by decide +kernel,by decide +kernel,signals_agree (booted_single .zero) (sig_single .zero) ?_⟩
  refine (ReflTransGen.single (.call _ 0 (runs_single .zero) (.sigprocmask sigBlock (sigbit 15)) trivial)).tail
    (.call _ 0 ⟨?_,?_⟩ (.kill 1 15) trivial)
  · decide +kernel
  · decide +kernel

end FuriOS
