import FuriOS.Task.Changes
import FuriOS.Task.TableExit

/-! The changes as the process table shows them, with the next process number. Most of them touch
nothing of the table; what is left are the few ways in which rows are made, moved and freed. The
numbers stay in order under all of them. -/
namespace FuriOS
open Prog

/-- A row that keeps its numbers; at most a wait for a child ends. -/
structure Row.Soft (r r' : Row) : Prop where
  pid : r'.pid=r.pid
  ppid : r'.ppid=r.ppid
  pgid : r'.pgid=r.pgid
  phase : r'.phase=r.phase ∨ (∃ filter, r.phase=.waiting filter) ∧ r'.phase=.active

namespace Row.Soft
variable {r r' : Row}

lemma refl (r : Row) : Soft r r := ⟨rfl,rfl,rfl,.inl rfl⟩

lemma of_woken (h : r.Woken r') : Soft r r' := by
  refine ⟨h.pid,h.ppid,h.pgid,?_⟩
  rcases h with rfl | ⟨hw,rfl⟩
  · exact .inl rfl
  · exact .inr ⟨hw,rfl⟩

section
variable (h : Soft r r')
include h

lemma phase_iff {p : Phase} (hp : p≠.active) (hw : ∀ filter, p≠.waiting filter) :
    r'.phase=p ↔ r.phase=p := by
  rcases h.phase with he | ⟨⟨filter,hf⟩,he⟩
  · rw [he]
  · rw [he,hf]
    exact ⟨fun h => absurd h.symm hp,fun h => absurd h.symm (hw filter)⟩

lemma unused : r'.phase=.unused ↔ r.phase=.unused :=
  h.phase_iff (by decide) fun _ => by simp

lemma zombie : r'.phase=.zombie ↔ r.phase=.zombie :=
  h.phase_iff (by decide) fun _ => by simp

lemma stopped : r'.phase=.stopped ↔ r.phase=.stopped :=
  h.phase_iff (by decide) fun _ => by simp

lemma waiting {filter : ℤ} (hw : r'.phase=.waiting filter) :
    r.phase=.waiting filter := by
  rcases h.phase with he | ⟨-,he⟩
  · rw [← he,hw]
  · rw [he] at hw
    cases hw

end

end Row.Soft

def Row.fresh (pid : ℤ) : Row := ⟨pid,0,pid,.active,false,false,false⟩

/-- What the changes do to the table and the next process number. -/
inductive TableChange (L : Licence) : ProcTable → ℤ → ProcTable → ℤ → Prop
  | soft {T T' : ProcTable} {n : ℤ} (hi : T'.initPid=T.initPid)
      (h : ∀ i, (T.rows i).Soft (T'.rows i))
      (hr : ¬L.acts → ∀ i, (T'.rows i).reaps=true → (T.rows i).reaps=true) : TableChange L T n T' n
  | stop {T : ProcTable} {n : ℤ} (t : TaskIx) (h : (T.rows t).alive=true) :
      TableChange L T n (T.stop t) n
  | cont {T : ProcTable} {n : ℤ} (t : TaskIx) (h : (T.rows t).phase=.stopped) (hl : L.cont t) :
      TableChange L T n (T.cont t) n
  | exit {T : ProcTable} {n : ℤ} (t : TaskIx) (h : (T.rows t).alive=true) (hl : ¬L.acts) :
      TableChange L T n (T.exit t) n
  | reapChild {T : ProcTable} {n : ℤ} (i c : TaskIx) (hc : (T.rows c).phase≠.unused)
      (ha : L.running → (T.rows c).phase=.active) (hp : (T.rows i).ppid=(T.rows c).pid)
      (hl : ¬L.holds i) : TableChange L T n (T.reap i) n
  | reapOrphan {T : ProcTable} {n : ℤ} (i : TaskIx) (hz : (T.rows i).phase=.zombie)
      (hp : ∀ p, (T.rows p).alive=true → 0<(T.rows i).ppid → (T.rows p).pid≠(T.rows i).ppid)
      (hl : ¬L.holds i) : TableChange L T n (T.reap i) n
  | wait {T : ProcTable} {n : ℤ} (c : TaskIx) (filter : ℤ) (hc : (T.rows c).phase=.active)
      (hnone : ∀ j, (T.rows c).matches (T.rows j) filter=true → (T.rows j).phase≠.zombie)
      (hsome : ∃ j, (T.rows j).phase≠.unused ∧ (T.rows c).matches (T.rows j) filter=true) :
      TableChange L T n (T.set c {T.rows c with phase := .waiting filter}) n
  | rouse {T : ProcTable} {n : ℤ} (c : TaskIx) (p : Phase) (hl : ¬L.running) (ha : L.acts)
      (hc : (T.rows c).phase≠.unused) (hp : p≠.unused) :
      TableChange L T n (T.set c {T.rows c with phase := p}) n
  | regroup {T : ProcTable} {n : ℤ} (t : TaskIx) (pgid : ℤ)
      (h : (T.rows t).alive=true) (hl : L.regroup T t pgid) :
      TableChange L T n (T.set t {T.rows t with pgid := pgid}) n
  | clear {T : ProcTable} {n : ℤ} (i : TaskIx) (h : (T.rows i).phase=.unused) :
      TableChange L T n (T.set i .zero) n
  | spawn {T : ProcTable} {n : ℤ} (i : TaskIx) (h : (T.rows i).phase=.unused) :
      TableChange L T n (T.set i (.fresh n)) (n+1)
  | adopt {T : ProcTable} {n : ℤ} (i c : TaskIx) (hl : L.acts) (hc : (T.rows c).phase≠.unused) (hi : i≠c)
      (hst : (T.rows i).phase=.active) (hp : (T.rows i).ppid=0) (hinit : (T.rows i).pid≠T.initPid) :
      TableChange L T n (T.set i {T.rows i with ppid := (T.rows c).pid, pgid := (T.rows c).pgid}) n

section Refinement
variable {L : Licence} {s s' : System} {t i c : TaskIx}

lemma countInv_nextPid (n : ℤ) : CountInv fun s => s.nextPid=n :=
  ⟨fun _ _ _ hn h => hn.trans h,fun _ _ _ _ h => h,fun _ h => h⟩

lemma MayCall.phase (h : MayCall L c s) : (s.procTable.rows c).phase≠.unused := mt phase_unused.1 h.used

lemma MayCall.active (h : MayCall L c s) (hl : L.running) : (s.procTable.rows c).phase=.active := by
  simp [System.procTable,Task.row,Task.phase,h.running hl]

lemma phase_active_of_runnable (h : (s.tasks i).state=.runnable) :
    (s.procTable.rows i).phase=.active := by
  simp [System.procTable,Task.row,Task.phase,h]

lemma TableChange.of_setTask {f : Task → Task} {n : ℤ} (h : (s.tasks t).row.Soft (f (s.tasks t)).row)
    (hr : ¬L.acts → (f (s.tasks t)).sig.reaps=true → (s.tasks t).sig.reaps=true) :
    TableChange L s.procTable n (s.setTask t f).procTable n := by
  have hrow (i : TaskIx) : (s.procTable.rows i).Soft ((s.setTask t f).procTable.rows i) ∧
      (¬L.acts → ((s.setTask t f).procTable.rows i).reaps=true → (s.procTable.rows i).reaps=true) := by
    rw [procTable_setTask]
    by_cases hi : i=t
    · subst hi
      rw [ProcTable.set_self]
      exact ⟨h,hr⟩
    · rw [ProcTable.set_of_ne hi]
      exact ⟨.refl _,fun _ => id⟩
  exact .soft rfl (fun i => (hrow i).1) fun ha i => (hrow i).2 ha

lemma TableChange.of_eq {n : ℤ} (h : s'.procTable=s.procTable) :
    TableChange L s.procTable n s'.procTable n :=
  .soft (congrArg ProcTable.initPid h) (fun _ => h ▸ .refl _) fun _ _ => h ▸ id

lemma exit_table (code : ℤ) (h : (s.tasks t).alive) :
    ((taskForceExit t code).run s).2.procTable=s.procTable.exit t ∧
      ((taskForceExit t code).run s).2.nextPid=s.nextPid := by
  have halive : (s.procTable.rows t).alive=true := alive_row.2 h
  exact ⟨Ends.of_wp ((wp_taskForceExit (E := fun s' => s'.procTable=s.procTable.exit t) code halive)),
    (countInv_nextPid s.nextPid).exitInv.forceExit t code s rfl⟩

lemma reap_table : ((taskReapSlot i).run s).2.procTable=s.procTable.reap i ∧
    ((taskReapSlot i).run s).2.nextPid=s.nextPid :=
  ⟨Ends.of_wp (wp_taskReapSlot (E := fun s' => s'.procTable=s.procTable.reap i)),
    (countInv_nextPid s.nextPid).exitInv.reap i s rfl⟩

lemma SignalEdit.reaps {acts : Prop} {g g' : SignalState} (h : SignalEdit acts g g') (ha : ¬acts)
    (hr : g'.reaps=true) : g.reaps=true := by
  have hsame (he : g'.actions=g.actions) : g.reaps=true := by
    have hh := congrArg SignalState.handler he
    have hf := congrArg SignalState.flags he
    simp only [SignalState.actions] at hh hf
    rwa [SignalState.reaps,hh,hf] at hr
  cases h with
  | enqueue sig => exact hsame SignalState.actions_enqueue
  | clear sig => exact hsame SignalState.actions_clearPending
  | pick => exact hsame SignalState.actions_pickPending
  | action _ sig a h => exact absurd h ha
  | mask how set => exact hr
  | sigreturn => exact hr
  | exec =>
    have hi : g.handler sigchld=sigIgn := by
      by_contra hn
      simp [SignalState.reaps,SignalState.resetForExec,signalNumber,sigchld] at hr hn
      simp [hn,sigIgn,sigDfl] at hr
    simp [SignalState.reaps,hi]
  | report stop cont sig => exact hr
  | enter _ sig f =>
    simp only [SignalState.reaps,SignalState.enterHandler] at hr ⊢
    split at hr
    · by_cases hc : sigchld=sig
      · simp [hc,sigDfl,sigIgn] at hr
      · simpa [hc] using hr
    · exact hr
  | exit k code => exact hr

lemma row_fresh (pid : ℤ) (kstack : ℕ) : (Task.fresh pid kstack).row=.fresh pid := by
  have hreaps : SignalState.zero.reaps=false := by decide
  change Row.mk pid 0 pid .active SignalState.zero.reaps false false=_
  rw [hreaps]
  rfl

lemma alive_reapOrphan (h : taskParentAlive s (s.tasks i)=false) (p : TaskIx)
    (hp : (s.procTable.rows p).alive=true) (h0 : 0<(s.tasks i).ppid) :
    (s.tasks p).pid≠(s.tasks i).ppid := by
  intro he
  have hfind : (s.findTask fun p => p.pid=(s.tasks i).ppid && p.state≠.unused && p.state≠.zombie)
      = none := by
    simpa [taskParentAlive,h0] using h
  have := List.find?_eq_none.1 hfind p (List.mem_finRange p)
  have halive := alive_row.1 hp
  simp [he,halive] at this

/-- Every change is one of the table. -/
theorem Change.table (h : Change L s s') :
    TableChange L s.procTable s.nextPid s'.procTable s'.nextPid := by
  cases h with
  | aside h =>
    rw [show s'.nextPid=s.nextPid from congrArg ProcView.nextPid h]
    exact .of_eq (procTable_of_procView h)
  | pipes p => exact .of_eq rfl
  | ticks n => exact .of_eq rfl
  | quiet f h => exact .of_eq (procTable_congr fun i => (h i).row)
  | edit t f h => exact .of_setTask ⟨rfl,rfl,rfl,.inl rfl⟩ h.reaps
  | enter t sig => exact .of_setTask ⟨rfl,rfl,rfl,.inl rfl⟩ (SignalEdit.enter _ sig _).reaps
  | wake t restart =>
    have hw := row_signalWakeWaiter (s.tasks t) restart
    exact .of_setTask (.of_woken hw) fun _ hr => hw.reaps.symm.trans hr
  | stop t sig h =>
    rw [procTable_stopTask]
    have hn : (stopTask t sig s).nextPid=s.nextPid :=
      (countInv_nextPid s.nextPid).exitInv.wake _ _ ((countInv_nextPid s.nextPid).exitInv.notify _ _ _ rfl)
    rw [hn]
    exact .stop t (alive_row.2 h)
  | cont t h hl =>
    rw [procTable_continueTask]
    have hn : (continueTask t s).nextPid=s.nextPid :=
      (countInv_nextPid s.nextPid).exitInv.wake _ _ ((countInv_nextPid s.nextPid).exitInv.notify _ _ _ rfl)
    rw [hn]
    exact .cont t (phase_stopped.2 h) hl
  | exit t code h hl =>
    rw [(exit_table code h).1,(exit_table code h).2]
    exact .exit t (alive_row.2 h) hl
  | reapChild i c hc hi hp hst hl =>
    rw [reap_table.1,reap_table.2]
    exact .reapChild i c hc.phase hc.active hp hl
  | reapOrphan i hz hp hl =>
    rw [reap_table.1,reap_table.2]
    exact .reapOrphan i (phase_zombie.2 hz) (alive_reapOrphan hp) hl
  | block c hc hl kind hk obj tick =>
    by_cases hr : L.running
    · refine .of_setTask ⟨rfl,rfl,rfl,.inl ?_⟩ fun _ => id
      simp [Task.row,Task.phase,hk,hc.running hr]
    · rw [procTable_setTask]
      have hrow : Task.row {(s.tasks c) with state := .waiting, waitKind := kind, waitObj := obj, wakeTick := tick}
          = {(s.procTable.rows c) with phase := .active} := by
        simp [System.procTable,Task.row,Task.phase,hk]
      rw [hrow]
      exact .rouse c .active hr (hl.resolve_left hr) hc.phase (by decide)
  | wait c hc hl filter hnone hsome =>
    rw [procTable_setTask]
    by_cases hr : ¬L.running
    · exact .rouse c (.waiting filter) hr (hl.resolve_left hr) hc.phase (by simp)
    refine .wait c filter (hc.active (not_not.1 hr)) (fun j hj hz => ?_) ?_
    · refine hnone j ⟨?_,hj⟩ (phase_zombie.1 hz)
      rw [phase_zombie.1 hz]
      decide
    · obtain ⟨j,hu,hj⟩ := hsome
      exact ⟨j,mt phase_unused.1 hu,hj⟩
  | switch next h _ =>
    change TableChange L s.procTable s.nextPid
      (s.setTask next fun k => {k with state := .running}).procTable s.nextPid
    refine .of_setTask ⟨rfl,rfl,rfl,.inl ?_⟩ fun _ => id
    simp [Task.row,Task.phase,h]
  | regroup t pgid h hl =>
    rw [procTable_setTask]
    exact .regroup t pgid (alive_row.2 h) hl
  | clear i h =>
    rw [procTable_setTask]
    exact .clear i (phase_unused.2 h)
  | spawn i kstack h =>
    change TableChange L s.procTable s.nextPid
      (s.setTask i fun _ => Task.fresh s.nextPid kstack).procTable (s.nextPid+1)
    rw [procTable_setTask,row_fresh]
    exact .spawn i (phase_unused.2 h)
  | adopt i c hl hc hi hst hp hinit =>
    rw [procTable_setTask]
    exact .adopt i c hl hc.phase hi (phase_active_of_runnable hst) hp hinit
  | inherit i c tf hl hst =>
    refine .of_setTask ⟨rfl,rfl,rfl,.inl ?_⟩ fun ha => absurd hl ha
    simp [Task.row,Task.phase,Task.inherit,hst]

end Refinement

namespace ProcTable
variable {T T' : ProcTable} {n n' : ℤ} {t i : TaskIx}

/-- The numbers are in order, and the next one is new. -/
structure InOrder (T : ProcTable) (n : ℤ) : Prop extends Numbered T where
  bound : ∀ t, (T.rows t).phase≠.unused → (T.rows t).pid<n
  next : 0<n
  initPid : T.initPid<n

section
variable (h : T.InOrder n)
include h

lemma InOrder.of_rows (hi : T'.initPid=T.initPid)
    (hrow : ∀ i, (T'.rows i).pid=(T.rows i).pid ∧ (T'.rows i).ppid=(T.rows i).ppid ∧
      ((T'.rows i).phase=.unused ↔ (T.rows i).phase=.unused)) : T'.InOrder n := by
  constructor
  · constructor <;> simp only [hrow,hi,ne_eq]
    · exact h.pid
    · exact h.free
    · exact h.unique
    · exact h.ppid
    · exact h.init
  · simp only [hrow,ne_eq]
    exact h.bound
  · exact h.next
  · exact hi ▸ h.initPid

lemma InOrder.soft (hi : T'.initPid=T.initPid)
    (hr : ∀ i, (T.rows i).Soft (T'.rows i)) : T'.InOrder n :=
  h.of_rows hi fun i => ⟨(hr i).pid,(hr i).ppid,(hr i).unused⟩

lemma InOrder.setRow {r : Row} (hu : (T.rows t).phase≠.unused)
    (hr : r.phase≠.unused) (hpid : r.pid=(T.rows t).pid) (hppid : r.ppid=(T.rows t).ppid) :
    (T.set t r).InOrder n := by
  refine h.of_rows rfl fun i => ?_
  by_cases hi : i=t
  · subst hi
    rw [set_self]
    exact ⟨hpid,hppid,by simp [hr,hu]⟩
  · rw [set_of_ne hi]
    simp

lemma InOrder.clear {p : ℤ} (hp : p=T.initPid ∨ p = -1) :
    InOrder {T.set i .zero with initPid := p} n := by
  have hrow {j : TaskIx} (hj : ((T.set i .zero).rows j).phase≠.unused) :
      (T.set i .zero).rows j=T.rows j ∧ (T.rows j).phase≠.unused := by
    by_cases hji : j=i
    · subst hji
      rw [set_self] at hj
      exact absurd rfl hj
    · rw [set_of_ne hji] at hj ⊢
      exact ⟨rfl,hj⟩
  have hn := h.next
  have hi := h.initPid
  constructor
  · constructor <;> dsimp only
    · intro t hu
      rw [(hrow hu).1]
      exact h.pid t (hrow hu).2
    · intro t hu
      by_cases ht : t=i
      · subst ht
        rw [set_self]
        rfl
      · rw [set_of_ne ht] at hu ⊢
        exact h.free t hu
    · intro t t' hu hu' he
      rw [(hrow hu).1,(hrow hu').1] at he
      exact h.unique t t' (hrow hu).2 (hrow hu').2 he
    · intro t hu
      rw [(hrow hu).1]
      exact h.ppid t (hrow hu).2
    · intro t hu he
      rw [(hrow hu).1] at he ⊢
      have hpos := h.pid t (hrow hu).2
      exact h.init t (hrow hu).2 (by omega)
  · intro t hu
    dsimp only at hu ⊢
    rw [(hrow hu).1]
    exact h.bound t (hrow hu).2
  · exact h.next
  · dsimp only
    omega

lemma InOrder.reap (i : TaskIx) : (T.reap i).InOrder n := by
  refine h.clear ?_
  split_ifs
  · exact .inr rfl
  · exact .inl rfl

lemma InOrder.exit (ht : (T.rows t).alive=true) : (T.exit t).InOrder n := by
  have he := exit_exited h.toNumbered ht
  have hu := (Row.alive_iff.1 ht).1
  refine ⟨he.numbered h.toNumbered hu,fun j hj => ?_,h.next,?_⟩
  · obtain ⟨hj0,hp,-⟩ := he.used hu hj
    rw [hp]
    exact h.bound j hj0
  · rw [he.initPid]
    exact h.initPid

lemma InOrder.wakeWaiters (pid : ℤ) : (T.wakeWaiters pid).InOrder n :=
  h.soft (wakeWaiters_initPid pid) fun i => .of_woken (wakeWaiters_woken pid i)

end

lemma set_used {r : Row} {j : TaskIx} (hj : j≠i) (hu : ((T.set i r).rows j).phase≠.unused) :
    (T.set i r).rows j=T.rows j ∧ (T.rows j).phase≠.unused := by
  rw [set_of_ne hj] at hu ⊢
  exact ⟨rfl,hu⟩

lemma InOrder.spawn (h : T.InOrder n) (i : TaskIx) : (T.set i (.fresh n)).InOrder (n+1) := by
  have hn := h.next
  have hin := h.initPid
  have hpid {j : TaskIx} (hu : ((T.set i (.fresh n)).rows j).phase≠.unused) :
      0<((T.set i (.fresh n)).rows j).pid ∧ ((T.set i (.fresh n)).rows j).pid≤n ∧
        (((T.set i (.fresh n)).rows j).pid=n → j=i) := by
    by_cases hj : j=i
    · subst hj
      rw [set_self]
      exact ⟨hn,le_refl n,fun _ => rfl⟩
    · obtain ⟨he,hu'⟩ := set_used hj hu
      rw [he]
      have hb := h.bound j hu'
      exact ⟨h.pid j hu',by omega,fun he => absurd hb (by omega)⟩
  have hself : (T.set i (.fresh n)).rows i=.fresh n := set_self ..
  constructor
  · constructor
    · exact fun t hu => (hpid hu).1
    · intro t hu
      by_cases ht : t=i
      · subst ht
        rw [hself] at hu
        cases hu
      · rw [set_of_ne ht] at hu ⊢
        exact h.free t hu
    · intro t t' hu hu' he
      by_cases ht : t=i
      · subst ht
        rw [hself] at he
        exact ((hpid hu').2.2 he.symm).symm
      · by_cases ht' : t'=i
        · subst ht'
          rw [hself] at he
          exact (hpid hu).2.2 he
        · rw [(set_used ht hu).1,(set_used ht' hu').1] at he
          exact h.unique t t' (set_used ht hu).2 (set_used ht' hu').2 he
    · intro t hu
      by_cases ht : t=i
      · subst ht
        rw [hself]
        exact ne_of_lt hn
      · rw [(set_used ht hu).1]
        exact h.ppid t (set_used ht hu).2
    · intro t hu he
      by_cases ht : t=i
      · subst ht
        rw [hself] at he ⊢
        exact le_refl 0
      · rw [(set_used ht hu).1] at he ⊢
        exact h.init t (set_used ht hu).2 he
  · intro t hu
    have := (hpid hu).2.1
    omega
  · omega
  · change T.initPid<n+1
    omega

lemma InOrder.adopt (h : T.InOrder n) {c : TaskIx} (huc : (T.rows c).phase≠.unused) (hi : i≠c)
    (hst : (T.rows i).phase=.active) (hinit : (T.rows i).pid≠T.initPid) :
    (T.set i {T.rows i with ppid := (T.rows c).pid, pgid := (T.rows c).pgid}).InOrder n := by
  have hui : (T.rows i).phase≠.unused := by simp [hst]
  have hrow (j : TaskIx) :
      ((T.set i {T.rows i with ppid := (T.rows c).pid, pgid := (T.rows c).pgid}).rows j).pid=(T.rows j).pid ∧
      ((T.set i {T.rows i with ppid := (T.rows c).pid, pgid := (T.rows c).pgid}).rows j).phase
        = (T.rows j).phase := by
    by_cases hj : j=i
    · subst hj
      rw [set_self]
      exact ⟨rfl,rfl⟩
    · rw [set_of_ne hj]
      exact ⟨rfl,rfl⟩
  constructor
  · constructor <;> simp only [hrow,ne_eq]
    · exact h.pid
    · exact h.free
    · exact h.unique
    · intro t hu
      by_cases ht : t=i
      · subst ht
        rw [set_self]
        exact fun he => hi (h.unique c t huc hui he).symm
      · rw [set_of_ne ht]
        exact h.ppid t hu
    · intro t hu he
      have ht : t≠i := by
        rintro rfl
        exact hinit he
      rw [set_of_ne ht]
      exact h.init t hu he
  · simp only [hrow,ne_eq]
    exact h.bound
  · exact h.next
  · exact h.initPid

end ProcTable

lemma TableChange.inOrder {L : Licence} {T T' : ProcTable} {n n' : ℤ} (hc : TableChange L T n T' n')
    (h : T.InOrder n) : T'.InOrder n' := by
  cases hc with
  | soft hi hr _ => exact h.soft hi hr
  | stop t ht =>
    refine ProcTable.InOrder.wakeWaiters ?_ _
    exact h.setRow (Row.alive_iff.1 ht).1 (by simp) rfl rfl
  | cont t ht hl =>
    refine ProcTable.InOrder.wakeWaiters ?_ _
    exact h.setRow (by simp [ht]) (by simp) rfl rfl
  | exit t ht _ => exact h.exit ht
  | reapChild i c _ _ _ _ => exact h.reap i
  | reapOrphan i _ _ _ => exact h.reap i
  | wait c filter hc _ _ => exact h.setRow (by simp [hc]) (by simp) rfl rfl
  | rouse c p _ _ hc hp => exact h.setRow hc hp rfl rfl
  | regroup t pgid ht hl =>
    have hu := (Row.alive_iff.1 ht).1
    exact h.setRow hu hu rfl rfl
  | clear i hu => exact h.clear (.inl rfl)
  | spawn i hu => exact h.spawn i
  | adopt i c _ hc hi hst _ hinit => exact h.adopt hc hi hst hinit

end FuriOS
