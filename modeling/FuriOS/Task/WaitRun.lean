import FuriOS.Task.ProcRun

/-! Waiting for children. While a task is blocked in a wait, no child that it waits for has ended
and some child is left that it waits for. Waits end with the events of the children; what can go
wrong is that a process group changes in between. -/
namespace FuriOS
open Relation

/-- The same numbers. -/
structure Row.Numbers (r r' : Row) : Prop where
  pid : r'.pid=r.pid
  ppid : r'.ppid=r.ppid
  pgid : r'.pgid=r.pgid

lemma Row.Numbers.refl (r : Row) : r.Numbers r := ⟨rfl,rfl,rfl⟩

lemma Row.Numbers.trans {r r' r'' : Row} (h : r.Numbers r') (h' : r'.Numbers r'') : r.Numbers r'' :=
  ⟨h'.pid.trans h.pid,h'.ppid.trans h.ppid,h'.pgid.trans h.pgid⟩

lemma Row.Soft.numbers {r r' : Row} (h : r.Soft r') : r.Numbers r' := ⟨h.pid,h.ppid,h.pgid⟩

lemma Row.matches_congr {r r' q q' : Row} (hpid : r'.pid=r.pid) (hpgid : r'.pgid=r.pgid)
    (hq : q.Numbers q') (filter : ℤ) : r'.matches q' filter=r.matches q filter := by
  rw [Row.matches,Row.matches,hpid,hpgid,hq.pid,hq.ppid,hq.pgid]

lemma Row.ppid_of_matches {r q : Row} {filter : ℤ} (h : r.matches q filter=true) : q.ppid=r.pid := by
  simp only [Row.matches,Bool.and_eq_true,decide_eq_true_eq] at h
  exact h.1

namespace ProcTable
variable {T T' S S' : ProcTable} {n n' : ℤ} {t i j : TaskIx}

/-- No wait is for something that has come about already, or for something that cannot come. -/
def WaitsOk (T : ProcTable) : Prop := ∀ w filter, (T.rows w).phase=.waiting filter →
  (∀ j, (T.rows w).matches (T.rows j) filter=true → (T.rows j).phase≠.zombie) ∧
  ∃ j, (T.rows j).phase≠.unused ∧ (T.rows w).matches (T.rows j) filter=true

/-- The waits of the new table were there before, by the same tasks. -/
def OldWaits (T T' : ProcTable) : Prop := ∀ w filter, (T'.rows w).phase=.waiting filter →
  (T.rows w).phase=.waiting filter ∧ (T'.rows w).pid=(T.rows w).pid ∧ (T'.rows w).pgid=(T.rows w).pgid

/-- What is to be shown for a change that starts no wait: a child that somebody waits for is kept,
and a zombie that somebody waits for was there before. -/
lemma WaitsOk.of_oldWaits (h : T.WaitsOk) (hw : T.OldWaits T')
    (hkept : ∀ w filter j, (T'.rows w).phase=.waiting filter → (T.rows j).phase≠.unused →
      (T.rows w).matches (T.rows j) filter=true → (T'.rows j).phase≠.unused ∧ (T.rows j).Numbers (T'.rows j))
    (hzombie : ∀ w filter j, (T'.rows w).phase=.waiting filter → (T'.rows j).phase=.zombie →
      (T'.rows w).matches (T'.rows j) filter=true → (T.rows j).phase=.zombie ∧ (T.rows j).Numbers (T'.rows j)) :
    T'.WaitsOk := by
  intro w filter hwait
  obtain ⟨hold,hpid,hpgid⟩ := hw w filter hwait
  obtain ⟨hnone,j,hu,hm⟩ := h w filter hold
  refine ⟨fun i hi hz => ?_,j,?_⟩
  · obtain ⟨hz',hn⟩ := hzombie w filter i hwait hz hi
    exact hnone i ((Row.matches_congr hpid hpgid hn filter).symm.trans hi) hz'
  · obtain ⟨hu',hn⟩ := hkept w filter j hwait hu hm
    exact ⟨hu',(Row.matches_congr hpid hpgid hn filter).trans hm⟩

lemma WaitsOk.of_numbers (h : T.WaitsOk) (hw : T.OldWaits T') (hn : ∀ j, (T.rows j).Numbers (T'.rows j))
    (hu : ∀ j, (T'.rows j).phase=.unused → (T.rows j).phase=.unused)
    (hz : ∀ j, (T'.rows j).phase=.zombie → (T.rows j).phase=.zombie) : T'.WaitsOk :=
  h.of_oldWaits hw (fun _ _ j _ hj _ => ⟨mt (hu j) hj,hn j⟩) fun _ _ j _ hj _ => ⟨hz j hj,hn j⟩

lemma oldWaits_soft (hr : ∀ i, (T.rows i).Soft (T'.rows i)) : T.OldWaits T' :=
  fun w _ hw => ⟨(hr w).waiting hw,(hr w).pid,(hr w).pgid⟩

lemma WaitsOk.soft (h : T.WaitsOk) (hr : ∀ i, (T.rows i).Soft (T'.rows i)) : T'.WaitsOk :=
  h.of_numbers (oldWaits_soft hr) (fun j => (hr j).numbers) (fun j => (hr j).unused.1) fun j => (hr j).zombie.1

lemma WaitsOk.setRow (h : T.WaitsOk) {r : Row} (hn : (T.rows t).Numbers r) (hu : r.phase≠.unused)
    (hz : r.phase≠.zombie) (hw : ∀ filter, r.phase≠.waiting filter) : (T.set t r).WaitsOk := by
  have hrow {j : TaskIx} : j=t ∧ (T.set t r).rows j=r ∨ (T.set t r).rows j=T.rows j := by
    by_cases hj : j=t
    · subst hj
      exact .inl ⟨rfl,set_self ..⟩
    · exact .inr (set_of_ne hj)
  refine h.of_numbers (fun w filter hwait => ?_) (fun j => ?_) (fun j hj => ?_) fun j hj => ?_
  · rcases hrow (j := w) with ⟨-,he⟩ | he <;> rw [he] at hwait ⊢
    · exact absurd hwait (hw filter)
    · exact ⟨hwait,rfl,rfl⟩
  · rcases hrow (j := j) with ⟨rfl,he⟩ | he <;> rw [he]
    · exact hn
    · exact .refl _
  · rcases hrow (j := j) with ⟨-,he⟩ | he <;> rw [he] at hj
    · exact absurd hj hu
    · exact hj
  · rcases hrow (j := j) with ⟨-,he⟩ | he <;> rw [he] at hj
    · exact absurd hj hz
    · exact hj

lemma WaitsOk.wakeWaiters (h : T.WaitsOk) (pid : ℤ) : (T.wakeWaiters pid).WaitsOk :=
  h.soft fun i => .of_woken (wakeWaiters_woken pid i)

lemma WaitsOk.setSlot (h : T.WaitsOk) {r : Row} {p : ℤ} (hw : ∀ filter, r.phase≠.waiting filter)
    (hz : r.phase≠.zombie) (hfree : ∀ w filter, (T.rows w).phase=.waiting filter →
      (T.rows i).phase≠.unused → (T.rows w).matches (T.rows i) filter=false) :
    WaitsOk {T.set i r with initPid := p} := by
  have hold : T.OldWaits {T.set i r with initPid := p} := by
    intro w filter hwait
    dsimp only at hwait ⊢
    by_cases hwi : w=i
    · subst hwi
      rw [set_self] at hwait
      exact absurd hwait (hw filter)
    · rw [set_of_ne hwi] at hwait ⊢
      exact ⟨hwait,rfl,rfl⟩
  refine h.of_oldWaits hold (fun w filter j hwait hu hm => ?_) fun w filter j _ hj _ => ?_
  · have hji : j≠i := by
      rintro rfl
      rw [hfree w filter (hold w filter hwait).1 hu] at hm
      cases hm
    dsimp only
    rw [set_of_ne hji]
    exact ⟨hu,.refl _⟩
  · dsimp only at hj ⊢
    by_cases hji : j=i
    · subst hji
      rw [set_self] at hj
      exact absurd hj hz
    · rw [set_of_ne hji] at hj ⊢
      exact ⟨hj,.refl _⟩

/-! ### The end of a task -/

def Unawaited (T : ProcTable) (j : TaskIx) : Prop := ∀ w filter,
  (T.rows w).phase=.waiting filter → (T.rows w).matches (T.rows j) filter=false

lemma Unawaited.later (h : T.Unawaited j) (hw : T.OldWaits T') (hj : (T.rows j).Numbers (T'.rows j)) :
    T'.Unawaited j := by
  intro w filter hwait
  obtain ⟨hold,hpid,hpgid⟩ := hw w filter hwait
  exact (Row.matches_congr hpid hpgid hj filter).trans (h w filter hold)

lemma byPid_of_unique (hu : (T.rows j).phase≠.unused)
    (hunique : ∀ i, (T.rows i).phase≠.unused → (T.rows i).pid=(T.rows j).pid → i=j) :
    T.byPid (T.rows j).pid=some j := by
  refine find_of_unique (by simp [hu]) fun i hi => ?_
  simp only [Bool.and_eq_true,decide_eq_true_eq] at hi
  exact hunique i hi.1 hi.2

lemma unawaited_wakeWaiters (hj : T.byPid (T.rows j).pid=some j) :
    (T.wakeWaiters (T.rows j).pid).Unawaited j := by
  intro w filter hwait
  have hrow (i : TaskIx) : (T.wakeWaiters (T.rows j).pid).rows i=(T.rows j).wakeFor (T.rows i) := by
    rw [ProcTable.wakeWaiters,hj]
  have hwoken := wakeFor_woken (T.rows j) (T.rows w)
  rw [hrow] at hwait
  have hsame := hwoken.waiting hwait
  have hnum := (Row.Soft.of_woken (wakeFor_woken (T.rows j) (T.rows j))).numbers
  rw [hrow,hrow,hsame,Row.matches_congr rfl rfl hnum filter]
  rw [hsame] at hwait
  -- a wait that matched would have ended
  by_contra hm
  rw [Bool.not_eq_false] at hm
  have hactive : ((T.rows j).wakeFor (T.rows w)).phase=.active := by
    rw [Row.wakeFor,hwait]
    dsimp only
    rw [if_pos hm]
  rw [hsame,hwait] at hactive
  cases hactive

lemma Adopted.oldWait {old new : ℤ} {auto : Bool} {r r' : Row} (h : Adopted old new auto r r') {filter : ℤ}
    (hw : r'.phase=.waiting filter) :
    r.phase=.waiting filter ∧ r'.pid=r.pid ∧ r'.pgid=r.pgid := by
  unfold Adopted at h
  split_ifs at h
  · rw [h] at hw
    cases hw
  · have hsame := h.waiting hw
    subst hsame
    exact ⟨hw,rfl,rfl⟩
  · have hsame := h.waiting hw
    subst hsame
    exact ⟨hw,rfl,rfl⟩

section Adoption
variable {old new : ℤ} {auto : Bool} {init : Option TaskIx}

lemma oldWaits_reparentChild (h : T.Adopter init auto) (i : TaskIx) :
    T.OldWaits (T.reparentChild old init new i) := by
  intro w filter hwait
  obtain ⟨-,hrow,hothers⟩ : _ ∧ Adopted old new auto _ _ ∧ _ := reparentChild_rows h i
  by_cases hw : w=i
  · subst hw
    exact hrow.oldWait hwait
  · have hsoft := Row.Soft.of_woken (hothers w hw)
    exact ⟨hsoft.waiting hwait,hsoft.pid,hsoft.pgid⟩

lemma Adopter.reparentChild (h : T.Adopter init auto) (i : TaskIx) :
    (T.reparentChild old init new i).Adopter init auto := by
  obtain ⟨hinit,hrow,hothers⟩ : _ ∧ Adopted old new auto _ _ ∧ _ := reparentChild_rows h i
  refine h.step hinit fun j => ?_
  by_cases hj : j=i
  · exact hj ▸ hrow.kept
  · exact (hothers j hj).kept

lemma unawaited_reparentChild (h : T.Adopter init auto) (hz : (T.rows j).phase=.zombie)
    (hp : (T.rows j).ppid=old) (hnew : 0<new) (hauto : auto=false) :
    (T.reparentChild old init new j).Unawaited j := by
  have hset : (T.set j {T.rows j with ppid := new}).rows j={T.rows j with ppid := new} := set_self ..
  have hauto' : (T.set j {T.rows j with ppid := new}).autoReaps init=false := by
    rw [← hauto,← h.auto]
    cases init with
    | none => rfl
    | some p =>
      have hpj : p≠j := by
        rintro rfl
        exact (Row.alive_iff.1 (h.live p rfl).1).2 hz
      simp only [autoReaps,Option.any_some,set_of_ne hpj]
  have hstep : T.reparentChild old init new j
      = (T.set j {T.rows j with ppid := new}).wakeWaiters (T.rows j).pid := by
    rw [ProcTable.reparentChild,if_pos (by simp [hz,hp])]
    dsimp only
    rw [if_neg (by omega),if_pos hz,if_neg (by simp [hauto'])]
  have hby : (T.set j {T.rows j with ppid := new}).byPid ((T.set j {T.rows j with ppid := new}).rows j).pid
      = some j := by
    refine byPid_of_unique (by rw [hset]; simp [hz]) fun i hi he => ?_
    by_contra hij
    rw [set_of_ne hij] at hi he
    rw [hset] at he
    exact hij (h.unique i j hi (by simp [hz]) he)
  have := unawaited_wakeWaiters hby
  rw [hset] at this
  rw [hstep]
  exact this

lemma Unawaited.foldl (l : List TaskIx) (hj : j∉l) : ∀ T : ProcTable, T.Adopter init auto →
    T.Unawaited j → (l.foldl (reparentChild old init new) T).Unawaited j := by
  induction l with
  | nil => exact fun T _ h => h
  | cons i l ih =>
    intro T h hun
    rw [List.mem_cons,not_or] at hj
    obtain ⟨-,-,hothers⟩ : _ ∧ Adopted old new auto _ _ ∧ _ := reparentChild_rows h i
    refine ih hj.2 _ (h.reparentChild i) (hun.later (oldWaits_reparentChild h i) ?_)
    exact (Row.Soft.of_woken (hothers j hj.1)).numbers

lemma unawaited_foldl (hnew : 0<new) (hauto : auto=false) (l : List TaskIx) (hl : l.Nodup)
    (hj : j∈l) : ∀ T : ProcTable, T.Adopter init auto → (T.rows j).phase=.zombie →
    (T.rows j).ppid=old → (l.foldl (ProcTable.reparentChild old init new) T).Unawaited j := by
  induction l with
  | nil => cases hj
  | cons i l ih =>
    intro T h hz hp
    obtain ⟨hi,hl⟩ := List.nodup_cons.1 hl
    rw [List.foldl_cons]
    by_cases hji : j=i
    · subst hji
      exact (unawaited_reparentChild h hz hp hnew hauto).foldl l hi _ (h.reparentChild j)
    · obtain ⟨-,-,hothers⟩ : _ ∧ Adopted old new auto _ _ ∧ _ := reparentChild_rows h i
      have hsame : (T.reparentChild old init new i).rows j=T.rows j := by
        rcases hothers j hji with he | ⟨⟨filter,hw⟩,-⟩
        · exact he
        · rw [hz] at hw
          cases hw
      refine ih hl ((List.mem_cons.1 hj).resolve_left hji) _ (h.reparentChild i) ?_ ?_
      · rw [hsame]
        exact hz
      · rw [hsame]
        exact hp

end Adoption

/-- The table in which the children have been handed on and the waits for `t` have ended. -/
def handedOn (T : ProcTable) (t : TaskIx) : ProcTable :=
  ((T.set t (T.rows t).ended).reparent (T.rows t).pid).wakeWaiters (T.rows t).pid

lemma exit_rows (hi : i≠t) : (T.exit t).rows i=(T.handedOn t).rows i := by
  change (if T.autoReaps (T.parentOf (T.rows t)) then (T.handedOn t).reap t else T.handedOn t).rows i=_
  split_ifs
  · exact set_of_ne hi
  · rfl

lemma handedOn_self (hT : T.Numbered) (hu : (T.rows t).phase≠.unused) :
    (T.rows t).Numbers ((T.handedOn t).rows t) := by
  have h := (reparent_rows hT hu).2 t
  rw [set_self,Adopted,if_neg fun h => hT.ppid t hu h.2] at h
  have hended : (T.rows t).Numbers (T.rows t).ended := ⟨rfl,rfl,rfl⟩
  exact (hended.trans (Row.Soft.of_woken h).numbers).trans (Row.Soft.of_woken (wakeWaiters_woken _ t)).numbers

lemma unawaited_ended (hT : T.Numbered) (hu : (T.rows t).phase≠.unused) : (T.handedOn t).Unawaited t := by
  obtain ⟨T2,hT2⟩ : ∃ T2, T2=(T.set t (T.rows t).ended).reparent (T.rows t).pid := ⟨_,rfl⟩
  have hrows := (reparent_rows hT hu).2
  rw [← hT2] at hrows
  have hself : T2.rows t=(T.rows t).ended := by
    have h := hrows t
    rw [set_self,Adopted,if_neg fun h => hT.ppid t hu h.2] at h
    rcases h with h | ⟨⟨_,hf⟩,-⟩
    · exact h
    · cases hf
  have hby : T2.byPid (T2.rows t).pid=some t := by
    refine byPid_of_unique (by rw [hself]; simp [Row.ended]) fun i hi he => ?_
    by_contra hit
    have hkept := (hrows i).kept.used hi
    rw [set_of_ne hit] at hkept
    rw [hself,hkept.2.1] at he
    exact hit (hT.unique i t hkept.1 hu he)
  have hun := unawaited_wakeWaiters hby
  rw [hself] at hun
  rw [handedOn,← hT2]
  exact hun

lemma unawaited_handedOn (hT : T.Numbered) (hu : (T.rows t).phase≠.unused) (hj : j≠t)
    (hz : (T.rows j).phase=.zombie) (hp : (T.rows j).ppid=(T.rows t).pid)
    (hnew : 0<(T.heir t).elim (-1) fun i => (T.rows i).pid) (hauto : T.autoReaps (T.heir t)=false) :
    (T.handedOn t).Unawaited j := by
  have hrow : (T.set t (T.rows t).ended).rows j=T.rows j := set_of_ne hj
  have hun := unawaited_foldl hnew hauto _ (List.nodup_finRange maxTasks) (List.mem_finRange j) _
    (hT.adopter hu) (by rw [hrow]; exact hz) (hrow ▸ hp)
  rw [← reparent_ended hT hu] at hun
  have hwoken (i : TaskIx) := Row.Soft.of_woken
    (wakeWaiters_woken (T := (T.set t (T.rows t).ended).reparent (T.rows t).pid) (T.rows t).pid i)
  exact hun.later (oldWaits_soft hwoken) (hwoken j).numbers

lemma WaitsOk.exit (h : T.WaitsOk) (hT : T.Numbered) (ht : (T.rows t).alive=true) :
    (T.exit t).WaitsOk := by
  have hu := (Row.alive_iff.1 ht).1
  have he := exit_exited hT ht
  have hne {w : TaskIx} {filter : ℤ} (hw : ((T.exit t).rows w).phase=.waiting filter) : w≠t := by
    rintro rfl
    rw [he.self] at hw
    split_ifs at hw <;> cases hw
  have hold : T.OldWaits (T.exit t) := fun w filter hw => (he.others w (hne hw)).oldWait hw
  -- who waits after the end of `t` does not wait for `t`
  have hself {w : TaskIx} {filter : ℤ} (hw : ((T.exit t).rows w).phase=.waiting filter) :
      (T.rows w).matches (T.rows t) filter=false := by
    obtain ⟨-,hpid,hpgid⟩ := hold w filter hw
    have hrow : (T.exit t).rows w=(T.handedOn t).rows w := exit_rows (hne hw)
    rw [hrow] at hw hpid hpgid
    rw [← Row.matches_congr hpid hpgid (handedOn_self hT hu) filter]
    exact unawaited_ended hT hu w filter hw
  refine h.of_oldWaits hold (fun w filter j hw hj hm => ?_) fun w filter j hw hz hm => ?_
  · have hjt : j≠t := by
      rintro rfl
      rw [hself hw] at hm
      cases hm
    have hchild : ¬((T.rows j).phase≠.unused ∧ (T.rows j).ppid=(T.rows t).pid) := by
      intro hc
      have hwt := (Row.ppid_of_matches hm).symm.trans hc.2
      refine hne hw (hT.unique w t ?_ hu hwt)
      rw [(hold w filter hw).1]
      simp
    have ha := he.others j hjt
    rw [Adopted,if_neg hchild] at ha
    exact ⟨mt ha.unused.1 hj,(Row.Soft.of_woken ha).numbers⟩
  · by_cases hjt : j=t
    · subst hjt
      obtain ⟨-,hpid,hpgid⟩ := hold w filter hw
      rw [he.self] at hz hm
      split_ifs at hz hm
      · cases hz
      · have hended : (T.rows j).Numbers (T.rows j).ended := ⟨rfl,rfl,rfl⟩
        rw [Row.matches_congr hpid hpgid hended,hself hw] at hm
        cases hm
    · have ha := he.others j hjt
      by_cases hchild : (T.rows j).phase≠.unused ∧ (T.rows j).ppid=(T.rows t).pid
      · -- a zombie that was handed on is awaited by nobody
        exfalso
        rw [Adopted,if_pos hchild] at ha
        split_ifs at ha with hfreed
        · rw [ha] at hz
          cases hz
        have hzj : (T.rows j).phase=.zombie := ha.zombie.1 hz
        have hnew : 0<(T.heir t).elim (-1) fun i => (T.rows i).pid := by
          have hp := Row.ppid_of_matches hm
          rw [ha.ppid,(hold w filter hw).2.1] at hp
          have hpos := hT.pid w (by rw [(hold w filter hw).1]; simp)
          dsimp only at hp
          omega
        have hauto : T.autoReaps (T.heir t)=false := by
          by_contra hauto
          exact hfreed ⟨hzj,hnew,by simpa using hauto⟩
        have hun := unawaited_handedOn hT hu hjt hzj hchild.2 hnew hauto w filter
        rw [← exit_rows (hne hw),← exit_rows hjt,hm] at hun
        cases hun hw
      · rw [Adopted,if_neg hchild] at ha
        exact ⟨ha.zombie.1 hz,(Row.Soft.of_woken ha).numbers⟩

/-! ### The other changes -/

def groupFilter (filter : ℤ) : Prop := filter=0 ∨ filter < -1

/-- The task may change its group without touching a wait. -/
def FreeToMove (T : ProcTable) (t : TaskIx) : Prop := ∀ w filter,
  (T.rows w).phase=.waiting filter → groupFilter filter → t≠w ∧ (T.rows t).ppid≠(T.rows w).pid

lemma matches_of_not_groupFilter {r r' q q' : Row} {filter : ℤ} (hf : ¬groupFilter filter)
    (hpid : r'.pid=r.pid) (hq : q'.pid=q.pid) (hqp : q'.ppid=q.ppid) :
    r'.matches q' filter=r.matches q filter := by
  unfold groupFilter at hf
  rw [Row.matches,Row.matches,hpid,hq,hqp]
  by_cases h0 : 0<filter
  · simp only [if_pos h0]
  · rw [if_neg h0,if_neg h0,if_pos (by omega),if_pos (by omega)]

lemma WaitsOk.regroup (h : T.WaitsOk) (pgid : ℤ) (hfree : (T.rows t).pgid=pgid ∨ T.FreeToMove t) :
    (T.set t {T.rows t with pgid := pgid}).WaitsOk := by
  obtain ⟨T',hT'⟩ : ∃ T', T'=T.set t {T.rows t with pgid := pgid} := ⟨_,rfl⟩
  rw [← hT']
  have hother {j : TaskIx} (hj : j≠t) : T'.rows j=T.rows j := hT' ▸ set_of_ne hj
  have hself : T'.rows t={T.rows t with pgid := pgid} := hT' ▸ set_self ..
  have hrow (j : TaskIx) : (T'.rows j).phase=(T.rows j).phase ∧ (T'.rows j).pid=(T.rows j).pid ∧
      (T'.rows j).ppid=(T.rows j).ppid := by
    by_cases hj : j=t
    · subst hj
      rw [hself]
      exact ⟨rfl,rfl,rfl⟩
    · rw [hother hj]
      exact ⟨rfl,rfl,rfl⟩
  -- for a waiter the same children match
  have hmatches (w : TaskIx) (filter : ℤ) (hw : (T.rows w).phase=.waiting filter) (j : TaskIx) :
      (T'.rows w).matches (T'.rows j) filter=(T.rows w).matches (T.rows j) filter := by
    rcases hfree with hsame | hfree
    · have hall (j : TaskIx) : T'.rows j=T.rows j := by
        by_cases hj : j=t
        · subst hj
          rw [hself,← hsame]
        · exact hother hj
      rw [hall,hall]
    by_cases hf : groupFilter filter
    · obtain ⟨hwt,hp⟩ := hfree w filter hw hf
      rw [hother hwt.symm]
      by_cases hj : j=t
      · subst hj
        have hno {q : Row} (hq : q.ppid=(T.rows j).ppid) : (T.rows w).matches q filter=false := by
          simp [Row.matches,hq,hp]
        rw [hno (hrow j).2.2,hno rfl]
      · rw [hother hj]
    · exact matches_of_not_groupFilter hf (hrow w).2.1 (hrow j).2.1 (hrow j).2.2
  intro w filter hwait
  rw [(hrow w).1] at hwait
  obtain ⟨hnone,j,hu,hm⟩ := h w filter hwait
  refine ⟨fun i hi => ?_,j,?_,?_⟩
  · rw [(hrow i).1]
    exact hnone i ((hmatches w filter hwait i).symm.trans hi)
  · rw [(hrow j).1]
    exact hu
  · rw [hmatches w filter hwait j]
    exact hm

lemma WaitsOk.wait (h : T.WaitsOk) {c : TaskIx} {filter : ℤ}
    (hnone : ∀ j, (T.rows c).matches (T.rows j) filter=true → (T.rows j).phase≠.zombie)
    (hsome : ∃ j, (T.rows j).phase≠.unused ∧ (T.rows c).matches (T.rows j) filter=true) :
    (T.set c {T.rows c with phase := .waiting filter}).WaitsOk := by
  obtain ⟨T',hT'⟩ : ∃ T', T'=T.set c {T.rows c with phase := .waiting filter} := ⟨_,rfl⟩
  rw [← hT']
  have hother {j : TaskIx} (hj : j≠c) : T'.rows j=T.rows j := hT' ▸ set_of_ne hj
  have hself : T'.rows c={T.rows c with phase := .waiting filter} := hT' ▸ set_self ..
  have hrow (j : TaskIx) : (T.rows j).Numbers (T'.rows j) ∧
      ((T'.rows j).phase=.zombie → (T.rows j).phase=.zombie) ∧
      ((T'.rows j).phase=.unused → (T.rows j).phase=.unused) := by
    by_cases hj : j=c
    · subst hj
      rw [hself]
      exact ⟨⟨rfl,rfl,rfl⟩,by simp,by simp⟩
    · rw [hother hj]
      exact ⟨.refl _,id,id⟩
  have hnow (w : TaskIx) (f : ℤ) (hw : (T'.rows w).phase=.waiting f) :
      (∀ j, (T.rows w).matches (T.rows j) f=true → (T.rows j).phase≠.zombie) ∧
      ∃ j, (T.rows j).phase≠.unused ∧ (T.rows w).matches (T.rows j) f=true := by
    by_cases hwc : w=c
    · subst hwc
      rw [hself] at hw
      obtain rfl : filter=f := by simpa using hw
      exact ⟨hnone,hsome⟩
    · rw [hother hwc] at hw
      exact h w f hw
  intro w f hw
  have hmatches (j : TaskIx) : (T'.rows w).matches (T'.rows j) f=(T.rows w).matches (T.rows j) f :=
    Row.matches_congr (hrow w).1.pid (hrow w).1.pgid (hrow j).1 f
  obtain ⟨hno,j,hu,hm⟩ := hnow w f hw
  refine ⟨fun i hi hz => ?_,j,mt (hrow j).2.2 hu,?_⟩
  · rw [hmatches] at hi
    exact hno i hi ((hrow i).2.1 hz)
  · rw [hmatches]
    exact hm

lemma WaitsOk.reap (h : T.WaitsOk) (hfree : ∀ w filter, (T.rows w).phase=.waiting filter →
    (T.rows w).matches (T.rows i) filter=false) : (T.reap i).WaitsOk :=
  h.setSlot (by simp [Row.zero]) (by simp [Row.zero]) fun w filter hw _ => hfree w filter hw

end ProcTable

section Run
variable {L : Licence} {T T' : ProcTable} {n n' : ℤ} {s s0 : System}

lemma TableChange.waitsOk (hc : TableChange L T n T' n') (hl : L.running) (ho : T.InOrder n) (h : T.WaitsOk)
    (hL : ∀ t g, L.regroup T t g → (T.rows t).pgid=g ∨ T.FreeToMove t) : T'.WaitsOk := by
  have hpos {w : TaskIx} {filter : ℤ} (hw : (T.rows w).phase=.waiting filter) :
      (T.rows w).phase≠.unused ∧ 0<(T.rows w).pid := by
    have hu : (T.rows w).phase≠.unused := by simp [hw]
    exact ⟨hu,ho.pid w hu⟩
  cases hc with
  | soft _ hr _ => exact h.soft hr
  | stop t ht =>
    refine ProcTable.WaitsOk.wakeWaiters ?_ _
    exact h.setRow ⟨rfl,rfl,rfl⟩ (by simp) (by simp) (by simp)
  | cont t ht hl =>
    refine ProcTable.WaitsOk.wakeWaiters ?_ _
    exact h.setRow ⟨rfl,rfl,rfl⟩ (by simp) (by simp) (by simp)
  | exit t ht _ => exact h.exit ho.toNumbered ht
  | reapChild i c hc ha hp _ =>
    -- the parent runs, so it is not the one who waits
    refine h.reap fun w filter hw => ?_
    by_contra hm
    have hwc := (Row.ppid_of_matches (by simpa using hm)).symm.trans hp
    obtain rfl := ho.unique w c (hpos hw).1 hc hwc
    have hact := ha hl
    rw [hw] at hact
    cases hact
  | reapOrphan i hz hp _ =>
    refine h.reap fun w filter hw => ?_
    by_contra hm
    exact (h w filter hw).1 i (by simpa using hm) hz
  | wait c filter hc hnone hsome => exact h.wait hnone hsome
  | rouse c p hr _ _ _ => exact absurd hl hr
  | regroup t pgid ht hl => exact h.regroup pgid (hL t pgid hl)
  | clear i hu => exact h.setSlot (by simp [Row.zero]) (by simp [Row.zero]) fun _ _ _ hi => absurd hu hi
  | spawn i hu => exact h.setSlot (by simp [Row.fresh]) (by simp [Row.fresh]) fun _ _ _ hi => absurd hu hi
  | adopt i c _ hc hi hst hp hinit =>
    refine h.setSlot (by simp [hst]) (by simp [hst]) fun w filter hw _ => ?_
    by_contra hm
    have hw0 := (Row.ppid_of_matches (by simpa using hm)).symm.trans hp
    have := (hpos hw).2
    omega

/-- A `setpgid` moves neither a task that waits for a group nor a child of one; or it changes
nothing. -/
def leavesWaits (s : System) : ProcCall → Prop
  | .setpgid pid pgid => ∀ c t, s.current=some c → setpgidTarget s c pid=some t →
      (s.tasks t).pgid=newGroup (s.tasks t) pgid ∨
      ∀ w, (s.tasks w).state=.waiting → (s.tasks w).waitKind=.child →
        (s.tasks w).waitPid=0 ∨ (s.tasks w).waitPid < -1 → t≠w ∧ (s.tasks t).ppid≠(s.tasks w).pid
  | _ => True

lemma Licensed.free (h : Licensed leavesWaits s L) (t : TaskIx) (g : ℤ) {T : ProcTable}
    (hl : L.regroup T t g) : (T.rows t).pgid=g ∨ T.FreeToMove t := by
  rcases h with rfl | ⟨c,call,hc,hok,rfl⟩
  · cases hl
  · cases call with
    | setpgid pid pgid =>
      obtain ⟨rfl,ht,rfl⟩ := hl
      refine (hok c t hc.1 ht).imp id fun hfree w filter hw hf => ?_
      obtain ⟨hst,hk,rfl⟩ := phase_waiting.1 hw
      exact hfree w hst hk hf
    | _ => cases hl

lemma waitsFor_iff {w j : TaskIx} {filter : ℤ} : waitsFor s w filter j ↔
    (s.procTable.rows j).phase≠.unused ∧ (s.procTable.rows w).matches (s.procTable.rows j) filter=true :=
  and_congr_left fun _ => not_congr phase_unused.symm

/-- In every run in which `setpgid` leaves the waits alone, a task that is blocked in a wait has no
zombie that it waits for, and has a child that it waits for. -/
theorem waits_not_lost (hb : Booted s0) (hrun : ReflTransGen (ProcStep leavesWaits) s0 s) (w : TaskIx)
    (hst : (s.tasks w).state=.waiting) (hk : (s.tasks w).waitKind=.child) :
    (∀ j, waitsFor s w (s.tasks w).waitPid j → (s.tasks j).state≠.zombie) ∧
      ∃ j, waitsFor s w (s.tasks w).waitPid j := by
  have hstart : s0.procTable.WaitsOk := by
    intro w filter hw
    obtain ⟨c,-,hcst,-,-,hothers⟩ := hb.started
    have hwst := (phase_waiting.1 hw).1
    by_cases hwc : w=c
    · subst hwc
      rw [hcst] at hwst
      cases hwst
    · rw [(hothers w hwc).1] at hwst
      cases hwst
  have hok : s.procTable.WaitsOk :=
    ProcStep.run_preserves (I := fun s => s.procTable.WaitsOk)
      (fun _ L hL _ s s' _ ho hs hc => hc.table.waitsOk hL.running.1 ho hs fun t g hl => hL.free t g hl)
      hrun hb.inOrder hstart
  obtain ⟨hnone,j,hj⟩ := hok w _ (phase_waiting.2 ⟨hst,hk,rfl⟩)
  refine ⟨fun i hi hz => ?_,j,waitsFor_iff.2 hj⟩
  exact hnone i (waitsFor_iff.1 hi).2 (phase_zombie.2 hz)

end Run

/-- Init makes a group of its own, forks, and waits with the filter; the child is running. -/
def childRuns (filter : ℤ) : System :=
  ((taskScheduleFromTrap .zero true 0).run ((ProcCall.wait filter 0).perform.run
    ((ProcCall.fork .zero).perform.run ((ProcCall.setpgid 0 0).perform.run (System.single .zero)).2).2).2).2

def childMoved (filter : ℤ) : System := ((ProcCall.setpgid 0 0).perform.run (childRuns filter)).2

/-- A wait for any child is not touched by that. -/
theorem waits_not_lost_any : ((childMoved (-1)).tasks 0).state=.waiting ∧
    (∀ j, waitsFor (childMoved (-1)) 0 ((childMoved (-1)).tasks 0).waitPid j →
      ((childMoved (-1)).tasks j).state≠.zombie) ∧
    ∃ j, waitsFor (childMoved (-1)) 0 ((childMoved (-1)).tasks 0).waitPid j := by
  have hst : ((childMoved (-1)).tasks 0).state=.waiting := by decide +kernel
  have hfree (s : System) (hs : ∀ w, (s.tasks w).state=.waiting → (s.tasks w).waitPid = -1) :
      leavesWaits s (.setpgid 0 0) := by
    refine fun c t _ _ => .inr fun w hw _ hf => ?_
    have := hs w hw
    omega
  have hrun : ReflTransGen (ProcStep leavesWaits) (System.single .zero) (childMoved (-1)) :=
    ((((ReflTransGen.single (.call _ 0 (runs_single .zero) (.setpgid 0 0) (hfree _ (by decide +kernel)))).tail
      (.call _ 0 (by decide +kernel) (.fork .zero) trivial)).tail
      (.call _ 0 (by decide +kernel) (.wait (-1) 0) trivial)).tail
      (.schedule _ .zero true 0)).tail
      (.call _ 1 (by decide +kernel) (.setpgid 0 0) (hfree _ (by decide +kernel)))
  exact ⟨hst,waits_not_lost (booted_single .zero) hrun 0 hst (by decide +kernel)⟩

/-- A wait for the own group is: init waits for its group, the child leaves it, and there is no
child left that the wait is for. -/
theorem waits_lost_setpgid : ∃ s0 s, Booted s0 ∧ ReflTransGen (ProcStep anyCall) s0 s ∧
    (s.tasks 0).state=.waiting ∧ (s.tasks 0).waitKind=.child ∧ (s.tasks 1).ppid=(s.tasks 0).pid ∧
    ¬∃ j, waitsFor s 0 (s.tasks 0).waitPid j := by
  refine ⟨_,childMoved 0,booted_single .zero,
    ((((ReflTransGen.single (.call _ 0 (runs_single .zero) (.setpgid 0 0) trivial)).tail
      (.call _ 0 (by decide +kernel) (.fork .zero) trivial)).tail
      (.call _ 0 (by decide +kernel) (.wait 0 0) trivial)).tail
      (.schedule _ .zero true 0)).tail
      (.call _ 1 (by decide +kernel) (.setpgid 0 0) trivial),?_⟩
  unfold waitsFor
  decide +kernel

end FuriOS
