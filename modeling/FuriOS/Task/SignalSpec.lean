import FuriOS.Task.ExitSpec
import FuriOS.Task.SignalQueue

/-! The cases of `task_signal_one`: who is signalled, and what the signal does there. -/
namespace FuriOS
open Prog

def Task.alive (k : Task) : Prop := k.state≠.unused ∧ k.state≠.zombie

def shielded (s : System) (self v : TaskIx) : Prop :=
  (s.tasks v).pid=s.initPid ∧ (s.tasks self).pid≠s.initPid

/-- `SIGCONT` for a task that does not block it. -/
def signalCont (v : TaskIx) (s : System) : System :=
  let s := s.setTask v fun k => k.setSig (k.sig.clearPending sigstop)
  let s := if (s.tasks v).state=.stopped then continueTask v s else s
  s.setTask v fun k => taskSignalWakeWaiter k true

/-- `SIGSTOP` for a task. -/
def signalStop (v : TaskIx) (s : System) : System :=
  let s := s.setTask v fun k => k.setSig (k.sig.clearPending sigcont)
  if (s.tasks v).state≠.stopped then stopTask v sigstop s else s

def signalQueued (v : TaskIx) (sig : ℕ) (s : System) : System :=
  s.setTask v fun k => k.setSig (k.sig.enqueue sig)

/-- The outcomes of `task_signal_one`. -/
inductive Signalled (self v : TaskIx) (sig : ℕ) (s : System) : Bool → System → Prop
  | refused (h : (s.tasks v).state=.unused ∨ shielded s self v) : Signalled self v sig s false s
  | ignored (hu : (s.tasks v).state≠.unused) (hs : ¬shielded s self v) (h : sig=0 ∨
      (s.tasks v).state=.zombie ∨ sig≠sigkill ∧ (s.tasks v).sig.handler sig=sigIgn ∧ sig≠sigstop) :
      Signalled self v sig s true s
  | killed (hv : (s.tasks v).alive) (hs : ¬shielded s self v) (h : sig=sigkill) :
      Signalled self v sig s true ((taskForceExit v (waitStatusSig sig)).run s).2
  | queued (hv : (s.tasks v).alive) (hs : ¬shielded s self v) (hb : (s.tasks v).sig.blocked sig=true) :
      Signalled self v sig s true (signalQueued v sig s)
  | continued (hv : (s.tasks v).alive) (hs : ¬shielded s self v) (h : sig=sigcont)
      (hh : (s.tasks v).sig.handler sig≠sigIgn) (hb : (s.tasks v).sig.blocked sig=false) :
      Signalled self v sig s true (signalCont v (signalQueued v sig s))
  | stopped (hv : (s.tasks v).alive) (hs : ¬shielded s self v) (h : sig=sigstop) :
      Signalled self v sig s true (signalStop v (signalQueued v sig s))
  | woken (hv : (s.tasks v).alive) (hs : ¬shielded s self v)
      (h : sig≠sigkill ∧ sig≠sigcont ∧ sig≠sigstop) (restart : Bool) :
      Signalled self v sig s true
        ((signalQueued v sig s).setTask v fun k => taskSignalWakeWaiter k restart)

lemma taskSignalOne_signalled (self v : TaskIx) (sig : ℕ) (s : System) :
    wp (taskSignalOne self v sig) (Signalled self v sig s) (fun _ => False) s := by
  rw [taskSignalOne,wp_gets_bind]
  dsimp only [id]
  split
  · rename_i h
    simp only [Bool.or_eq_true,Bool.and_eq_true,decide_eq_true_eq] at h
    exact .refused h
  rename_i hunused
  simp only [Bool.or_eq_true,Bool.and_eq_true,decide_eq_true_eq,not_or] at hunused
  obtain ⟨hu,hs⟩ := hunused
  split
  · rename_i h
    simp only [Bool.or_eq_true,decide_eq_true_eq] at h
    refine .ignored hu hs ?_
    tauto
  rename_i hzombie
  simp only [Bool.or_eq_true,decide_eq_true_eq,not_or] at hzombie
  have hv : (s.tasks v).alive := ⟨hu,hzombie.2⟩
  split
  · rename_i h
    obtain ⟨a,ha⟩ := total_taskForceExit v (waitStatusSig sig) s
    rw [wp_bind]
    exact wp_of_run (run_of_fst ha) (.killed hv hs h)
  rename_i hkill
  split
  · rename_i h
    simp only [Bool.and_eq_true,decide_eq_true_eq] at h
    exact .ignored hu hs (.inr (.inr ⟨hkill,h⟩))
  rename_i hign
  simp only [Bool.and_eq_true,decide_eq_true_eq,not_and,not_not] at hign
  rw [wp_bind,modifyTask,wp_modify,wp_bind]
  refine wp_when (fun hb => ?_) fun hb => ?_
  · have hb : (s.tasks v).sig.blocked sig=false := by simpa using hb
    split
    · rename_i h
      refine .continued hv hs h (fun he => ?_) hb
      exact absurd (h.symm.trans (hign he)) (by decide)
    split
    · rename_i h
      subst h
      exact .stopped hv hs rfl
    · rename_i hc ht
      exact .woken hv hs ⟨hkill,hc,ht⟩ _
  · exact .queued hv hs (by simpa using hb)

end FuriOS
