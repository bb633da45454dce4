import FuriOS.BlockCache

/-! The attached partition as a flat array of sectors. Cache operations keep the array except
where they write it, and every sector write they issue is the write-back of a dirty sector. -/
namespace FuriOS
open Prog Function
namespace BlockCache
variable {σ : Type} {c c' c'' : BlockCache σ} {S new new' : ℕ → σ → Prop} {l : ℕ} {i : LineIx}

/-- Contents of the attached partition on the device. -/
def disk (c : BlockCache σ) (lba : ℕ) : σ := c.dev.store c.activeDevKind (c.deviceLba lba)

/-- Contents of the attached partition as the cache presents them. -/
def flat (c : BlockCache σ) (lba : ℕ) : σ :=
  match c.lineOf lba with
  | some i => (c.lines i).data
  | none => c.disk lba

/-- A cache attached to a partition, with one line at most for a sector and clean lines equal
to the device. -/
structure Attached (c : BlockCache σ) : Prop where
  ready : c.blockCacheReady=true
  unique : ∀ i j, (c.lines i).valid=true → (c.lines j).valid=true →
    (c.lines i).lba=(c.lines j).lba → i=j
  bound : ∀ i, (c.lines i).valid=true → (c.lines i).lba<c.activeLbaCount
  clean : ∀ i, (c.lines i).valid=true → (c.lines i).dirty=false →
    (c.lines i).data=c.disk (c.lines i).lba

def ReadsOk (c : BlockCache σ) : Prop := ∀ n, c.dev.readOutcome n=.ok

/-- From now on the device accepts every write and flush. -/
def WritesOk (c : BlockCache σ) : Prop :=
  ∀ n, c.dev.requests≤n → c.dev.writeOk n=true ∧ c.dev.flushOk n=true

/-- From now on the device accepts every sector write. -/
def SectorsOk (c : BlockCache σ) : Prop := ∀ n, c.dev.requests≤n → c.dev.writeOk n=true

lemma WritesOk.sectorsOk (h : c.WritesOk) : c.SectorsOk := fun n hn => (h n hn).1

/-- The sector has contents that are not on the device yet. -/
def DirtyAt (c : BlockCache σ) (lba : ℕ) : Prop :=
  ∃ i, (c.lines i).valid=true ∧ (c.lines i).dirty=true ∧ (c.lines i).lba=lba

/-- `S` allows the write-back of every dirty sector. -/
def Covered (S : ℕ → σ → Prop) (c : BlockCache σ) : Prop := ∀ l, c.DirtyAt l → S l (c.flat l)

def applyWrites (store : DevKind → ℕ → σ) (ws : List (SectorWrite σ)) : DevKind → ℕ → σ :=
  ws.foldl (fun s x => update s x.kind (update (s x.kind) x.lba x.data)) store

/-- A sector write to the attached partition that `S` allows. -/
def Allowed (S : ℕ → σ → Prop) (c : BlockCache σ) (x : SectorWrite σ) : Prop :=
  x.kind=c.activeDevKind ∧ ∃ l, l<c.activeLbaCount ∧ x.lba=c.deviceLba l ∧ S l x.data

/-- From `c` to `c'` only sector writes allowed by `S` were issued. -/
def Issues (S : ℕ → σ → Prop) (c c' : BlockCache σ) : Prop :=
  ∃ ws, c'.dev.log=c.dev.log++ws ∧ c'.dev.store=applyWrites c.dev.store ws ∧ ∀ x∈ws, Allowed S c x

/-- From `c` to `c'` only sectors of the attached partition were asked for. -/
def ReadsIn (c c' : BlockCache σ) : Prop :=
  ∃ rs, c'.dev.reads=c.dev.reads++rs ∧
    ∀ x∈rs, x.1=c.activeDevKind ∧ ∃ l, l<c.activeLbaCount ∧ x.2=c.deviceLba l

lemma ReadsIn.of_eq (h : c'.dev.reads=c.dev.reads) : ReadsIn c c' :=
  ⟨[],by simp [h],by simp⟩

/-- What no cache operation on an attached partition changes. -/
structure SameSetup (c c' : BlockCache σ) : Prop where
  kind : c'.activeDevKind=c.activeDevKind
  base : c'.activeLbaBase=c.activeLbaBase
  count : c'.activeLbaCount=c.activeLbaCount
  readyFlag : c'.readyFlag=c.readyFlag
  present : c'.dev.present=c.dev.present
  reads : c'.dev.readOutcome=c.dev.readOutcome
  writes : c'.dev.writeOk=c.dev.writeOk
  flushes : c'.dev.flushOk=c.dev.flushOk
  requests : c.dev.requests≤c'.dev.requests
  readsIn : ReadsIn c c'

/-- One or more cache operations from `c` to `c'` that write the sectors `new`: the partition
stays attached, and any `S` that allows what was dirty and what is new allows every sector write
that was issued and every sector that is dirty now. -/
structure Moves (new : ℕ → σ → Prop) (c c' : BlockCache σ) : Prop where
  attached : c'.Attached
  setup : SameSetup c c'
  covers : ∀ S : ℕ → σ → Prop, Covered S c → (∀ l s, new l s → S l s) → Covered S c' ∧ Issues S c c'

lemma SameSetup.refl (c : BlockCache σ) : SameSetup c c := by
  constructor <;> first | rfl | exact .of_eq rfl

section
variable (h : SameSetup c c')
include h

lemma SameSetup.trans (h' : SameSetup c' c'') : SameSetup c c'' where
  kind := h'.kind.trans h.kind
  base := h'.base.trans h.base
  count := h'.count.trans h.count
  readyFlag := h'.readyFlag.trans h.readyFlag
  present := h'.present.trans h.present
  reads := h'.reads.trans h.reads
  writes := h'.writes.trans h.writes
  flushes := h'.flushes.trans h.flushes
  requests := h.requests.trans h'.requests
  readsIn := by
    obtain ⟨rs,hrs,hin⟩ := h.readsIn
    obtain ⟨rs',hrs',hin'⟩ := h'.readsIn
    refine ⟨rs++rs',by rw [hrs',hrs,List.append_assoc],?_⟩
    intro x hx
    rcases List.mem_append.1 hx with hx | hx
    · exact hin x hx
    · have := hin' x hx
      simpa only [h.kind,h.count,BlockCache.deviceLba,h.base] using this

lemma SameSetup.readsOk (hr : c.ReadsOk) : c'.ReadsOk := fun n => by rw [h.reads]; exact hr n

lemma SameSetup.writesOk (hw : c.WritesOk) : c'.WritesOk := by
  intro n hn
  rw [h.writes,h.flushes]
  exact hw n (h.requests.trans hn)

lemma SameSetup.sectorsOk (hw : c.SectorsOk) : c'.SectorsOk := by
  intro n hn
  rw [h.writes]
  exact hw n (h.requests.trans hn)

lemma SameSetup.deviceLba (l : ℕ) :
    c'.deviceLba l=c.deviceLba l := by unfold BlockCache.deviceLba; rw [h.base]

lemma SameSetup.blockCacheReady : c'.blockCacheReady=c.blockCacheReady := by
  unfold BlockCache.blockCacheReady backendReady
  rw [h.readyFlag, h.kind, h.present, h.count]

end

lemma applyWrites_append (store : DevKind → ℕ → σ) (ws ws' : List (SectorWrite σ)) :
    applyWrites store (ws++ws')=applyWrites (applyWrites store ws) ws' :=
  List.foldl_append

lemma SameSetup.allowed (h : SameSetup c c')
    {x : SectorWrite σ} : Allowed S c' x ↔ Allowed S c x := by
  unfold Allowed
  simp only [h.kind, h.count, h.deviceLba]

lemma Issues.trans (hs : SameSetup c c')
    (h : Issues S c c') (h' : Issues S c' c'') : Issues S c c'' := by
  obtain ⟨ws,hl,hst,hw⟩ := h
  obtain ⟨ws',hl',hst',hw'⟩ := h'
  refine ⟨ws++ws',?_,?_,?_⟩
  · rw [hl',hl,List.append_assoc]
  · rw [hst',hst,applyWrites_append]
  · intro x hx
    rcases List.mem_append.1 hx with hx | hx
    · exact hw x hx
    · exact hs.allowed.1 (hw' x hx)

lemma Moves.trans (h : Moves new c c') (h' : Moves new' c' c'') :
    Moves (fun l s => new l s ∨ new' l s) c c'' where
  attached := h'.attached
  setup := h.setup.trans h'.setup
  covers := by
    intro S hc hn
    obtain ⟨hc',hi⟩ := h.covers S hc fun l s hl => hn l s (.inl hl)
    obtain ⟨hc'',hi'⟩ := h'.covers S hc' fun l s hl => hn l s (.inr hl)
    exact ⟨hc'',hi.trans h.setup hi'⟩

lemma Moves.weaken (h : Moves new c c') (hn : ∀ l s, new l s → new' l s) : Moves new' c c' :=
  ⟨h.attached,h.setup,fun S hc hn' => h.covers S hc fun l s hl => hn' l s (hn l s hl)⟩

lemma holds_iff : c.holds l i=true ↔ (c.lines i).valid=true ∧ (c.lines i).lba=l := by
  simp [holds]

lemma lineOf_some (h : c.lineOf l=some i) : (c.lines i).valid=true ∧ (c.lines i).lba=l :=
  holds_iff.1 (List.find?_some h)

lemma lineOf_none (h : c.lineOf l=none) (i : LineIx)
    (hv : (c.lines i).valid=true) : (c.lines i).lba≠l := fun hl =>
  List.find?_eq_none.1 h i (List.mem_finRange i) (holds_iff.2 ⟨hv,hl⟩)

lemma lineOf_congr (h : ∀ i, (c'.lines i).valid=(c.lines i).valid ∧ (c'.lines i).lba=(c.lines i).lba)
    (l : ℕ) : c'.lineOf l=c.lineOf l := by
  have hh : c'.holds l=c.holds l := by
    funext i
    rw [holds,holds,(h i).1,(h i).2]
  rw [lineOf,lineOf,hh]

/-- The lines still stand for the same sectors. -/
lemma Attached.relabel (ha : c.Attached) (hs : SameSetup c c')
    (h : ∀ i, (c'.lines i).valid=(c.lines i).valid ∧ (c'.lines i).lba=(c.lines i).lba)
    (hclean : ∀ i, (c'.lines i).valid=true → (c'.lines i).dirty=false →
      (c'.lines i).data=c'.disk (c'.lines i).lba) : c'.Attached where
  ready := by rw [hs.blockCacheReady]; exact ha.ready
  unique := by
    intro i j
    rw [(h i).1,(h j).1,(h i).2,(h j).2]
    exact ha.unique i j
  bound := by
    intro i
    rw [(h i).1,(h i).2,hs.count]
    exact ha.bound i
  clean := hclean

lemma Attached.lineOf_eq (h : c.Attached)
    (hv : (c.lines i).valid=true) : c.lineOf (c.lines i).lba=some i := by
  cases hl : c.lineOf (c.lines i).lba with
  | none => exact absurd rfl (lineOf_none hl i hv)
  | some j =>
    obtain ⟨hj,he⟩ := lineOf_some hl
    rw [h.unique j i hj hv he]

lemma Attached.flat_line (h : c.Attached)
    (hv : (c.lines i).valid=true) : c.flat (c.lines i).lba=(c.lines i).data := by
  rw [flat,h.lineOf_eq hv]

lemma flat_of_none (h : c.lineOf l=none) : c.flat l=c.disk l := by
  rw [flat,h]

lemma Attached.flat_of_not_dirty (h : c.Attached) (hd : ¬ c.DirtyAt l) : c.flat l=c.disk l := by
  cases hl : c.lineOf l with
  | none => exact flat_of_none hl
  | some i =>
    obtain ⟨hv,rfl⟩ := lineOf_some hl
    rw [h.flat_line hv]
    apply h.clean i hv
    cases hdi : (c.lines i).dirty with
    | false => rfl
    | true => exact absurd ⟨i,hv,hdi,rfl⟩ hd

/-- Two states that differ only in use marks, in the requests made and in unused lines. -/
structure SameView (c c' : BlockCache σ) : Prop where
  setup : SameSetup c c'
  valid : ∀ i, (c'.lines i).valid=(c.lines i).valid
  dirty : ∀ i, (c'.lines i).dirty=(c.lines i).dirty
  lba : ∀ i, (c'.lines i).lba=(c.lines i).lba
  data : ∀ i, (c.lines i).valid=true → (c'.lines i).data=(c.lines i).data
  store : c'.dev.store=c.dev.store
  log : c'.dev.log=c.dev.log

namespace SameView
variable {c c' : BlockCache σ}

section
variable (h : SameView c c')
include h

lemma disk : c'.disk=c.disk := by
  funext l
  rw [BlockCache.disk,BlockCache.disk,h.store,h.setup.kind,h.setup.deviceLba]

lemma lineOf (l : ℕ) : c'.lineOf l=c.lineOf l :=
  lineOf_congr (fun i => ⟨h.valid i,h.lba i⟩) l

lemma flat : c'.flat=c.flat := by
  funext l
  rw [BlockCache.flat,BlockCache.flat,h.lineOf]
  cases hl : c.lineOf l with
  | none => exact congrFun h.disk l
  | some i => exact h.data i (lineOf_some hl).1

lemma dirtyAt (l : ℕ) : c'.DirtyAt l ↔ c.DirtyAt l := by
  unfold DirtyAt
  simp only [h.valid,h.dirty,h.lba]

lemma attached (ha : c.Attached) : c'.Attached := by
  refine ha.relabel h.setup (fun i => ⟨h.valid i,h.lba i⟩) fun i hv hd => ?_
  rw [h.valid] at hv
  rw [h.dirty] at hd
  rw [h.data i hv,h.lba,h.disk]
  exact ha.clean i hv hd

lemma moves (ha : c.Attached) (new : ℕ → σ → Prop) : Moves new c c' where
  attached := h.attached ha
  setup := h.setup
  covers := by
    intro S hc _
    refine ⟨?_,[],by simp [h.log],h.store,by simp⟩
    intro l hl
    rw [h.flat]
    exact hc l ((h.dirtyAt l).1 hl)

end

end SameView

variable {lba : ℕ}

lemma SameView.refl (c : BlockCache σ) : SameView c c :=
  ⟨SameSetup.refl c,fun _ => rfl,fun _ => rfl,fun _ => rfl,fun _ _ => rfl,rfl,rfl⟩

lemma sameView_touched (c : BlockCache σ) (i : LineIx) : SameView c (c.touched i) := by
  refine ⟨by constructor <;> first | rfl | exact .of_eq rfl,?_,?_,?_,fun j _ => ?_,rfl,rfl⟩ <;>
  · try intro j
    by_cases hj : j=i
    · subst hj; simp [touched,setLine]
    · simp [touched,setLine,hj]

def requested (c : BlockCache σ) : BlockCache σ :=
  {c with dev := {c.dev with requests := c.dev.requests+1}}

lemma sameView_requested (c : BlockCache σ) : SameView c c.requested :=
  ⟨by constructor <;> first | rfl | exact Nat.le_succ _ | exact .of_eq rfl,
    fun _ => rfl,fun _ => rfl,fun _ => rfl,fun _ _ => rfl,rfl,rfl⟩

/-- A sector of the partition has been asked for. -/
def asked (c : BlockCache σ) (lba : ℕ) : BlockCache σ :=
  {c with dev := {c.dev with
    requests := c.dev.requests+1, reads := c.dev.reads++[(c.activeDevKind,c.deviceLba lba)]}}

lemma asked_setup (hl : lba<c.activeLbaCount) : SameSetup c (c.asked lba) := by
  constructor
  case requests => exact Nat.le_succ _
  case readsIn => exact ⟨[_],rfl,fun x hx => by rw [List.mem_singleton.1 hx]; exact ⟨rfl,lba,hl,rfl⟩⟩
  all_goals rfl

/-- A failed read has left something else in an unused line. -/
def spoiled (c : BlockCache σ) (v : LineIx) (lba : ℕ) (junk : σ) : BlockCache σ :=
  (c.asked lba).setLine v {c.lines v with data := junk}

lemma sameView_spoiled {v : LineIx} {x : σ}
    (hl : lba<c.activeLbaCount) (hv : (c.lines v).valid=false) :
    SameView c (c.spoiled v lba x) := by
  have hs := asked_setup hl
  refine ⟨⟨hs.kind,hs.base,hs.count,hs.readyFlag,hs.present,hs.reads,hs.writes,
    hs.flushes,hs.requests,hs.readsIn⟩,?_,?_,?_,?_,rfl,rfl⟩
  all_goals
    intro j
    by_cases hj : j=v
    · subst hj; simp [spoiled,setLine,hv]
    · simp [spoiled,setLine,asked,hj]

/-- The write of a dirty line that the device accepted. -/
def backWrite (c : BlockCache σ) (i : LineIx) : SectorWrite σ :=
  ⟨c.activeDevKind,c.deviceLba (c.lines i).lba,(c.lines i).data⟩

/-- The state after the device accepted the line. -/
def wroteBack (c : BlockCache σ) (i : LineIx) : BlockCache σ :=
  {c with
    lines := update c.lines i {c.lines i with dirty := false}
    dev := {c.dev with
      requests := c.dev.requests+1, log := c.dev.log++[c.backWrite i]
      store := applyWrites c.dev.store [c.backWrite i]}}

lemma Attached.isBlock (h : c.Attached) : c.activeDevKind.isBlock=true := by
  have hr := h.ready
  simp only [blockCacheReady,backendReady,Bool.and_eq_true] at hr
  exact hr.1.2.1

lemma cacheWritebackLine_clean (h : (!(c.lines i).valid || !(c.lines i).dirty)=true) :
    (cacheWritebackLine i).run c=(some (),c) := by
  simp only [cacheWritebackLine,run_bind,run_gets,id]
  rw [if_pos h]
  rfl

lemma cacheWritebackLine_dirty (ha : c.Attached)
    (hv : (c.lines i).valid=true) (hd : (c.lines i).dirty=true) :
    (cacheWritebackLine i).run c =
      if c.dev.writeOk c.dev.requests then (some (),c.wroteBack i) else (none,c.requested) := by
  simp only [cacheWritebackLine,run_bind,run_gets,id,hv,hd,Bool.not_true,Bool.or_self,
    Bool.false_eq_true,if_false,backendRw,ha.isBlock,if_true]
  split_ifs <;> rfl

lemma applyWrites_one (store : DevKind → ℕ → σ) (x : SectorWrite σ) (k : DevKind) (l : ℕ) :
    applyWrites store [x] k l=if k=x.kind ∧ l=x.lba then x.data else store k l := by
  simp only [applyWrites,List.foldl_cons,List.foldl_nil,update_apply]
  by_cases hk : k=x.kind
  · subst hk; simp [update_apply]
  · simp [hk]

section WroteBack
variable {c : BlockCache σ} {i : LineIx}

lemma wroteBack_setup : SameSetup c (c.wroteBack i) := by
  constructor <;> first | rfl | exact Nat.le_succ _ | exact .of_eq rfl

@[simp] lemma wroteBack_valid (j : LineIx) : ((c.wroteBack i).lines j).valid=(c.lines j).valid := by
  by_cases hj : j=i
  · subst hj; simp [wroteBack]
  · simp [wroteBack,hj]

@[simp] lemma wroteBack_lba (j : LineIx) : ((c.wroteBack i).lines j).lba=(c.lines j).lba := by
  by_cases hj : j=i
  · subst hj; simp [wroteBack]
  · simp [wroteBack,hj]

@[simp] lemma wroteBack_data (j : LineIx) : ((c.wroteBack i).lines j).data=(c.lines j).data := by
  by_cases hj : j=i
  · subst hj; simp [wroteBack]
  · simp [wroteBack,hj]

lemma wroteBack_dirty (j : LineIx) :
    ((c.wroteBack i).lines j).dirty=if j=i then false else (c.lines j).dirty := by
  by_cases hj : j=i
  · subst hj; simp [wroteBack]
  · simp [wroteBack,hj]

lemma wroteBack_disk (l : ℕ) :
    (c.wroteBack i).disk l=if l=(c.lines i).lba then (c.lines i).data else c.disk l := by
  change applyWrites c.dev.store [c.backWrite i] c.activeDevKind (c.activeLbaBase+l)=_
  rw [applyWrites_one]
  simp [backWrite,deviceLba,disk]

lemma wroteBack_lineOf (l : ℕ) : (c.wroteBack i).lineOf l=c.lineOf l :=
  lineOf_congr (fun j => ⟨wroteBack_valid j,wroteBack_lba j⟩) l

lemma wroteBack_dirtyAt {l : ℕ} (h : (c.wroteBack i).DirtyAt l) : c.DirtyAt l := by
  obtain ⟨j,hv,hd,hl⟩ := h
  rw [wroteBack_dirty] at hd
  rw [wroteBack_valid] at hv
  rw [wroteBack_lba] at hl
  by_cases hj : j=i
  · simp [hj] at hd
  · exact ⟨j,hv,by simpa [hj] using hd,hl⟩

lemma wroteBack_flat (hv : (c.lines i).valid=true) : (c.wroteBack i).flat=c.flat := by
  funext l
  rw [flat,flat,wroteBack_lineOf]
  cases hl : c.lineOf l with
  | some j => exact wroteBack_data j
  | none =>
    change (c.wroteBack i).disk l=c.disk l
    rw [wroteBack_disk,if_neg (lineOf_none hl i hv).symm]

lemma wroteBack_attached (ha : c.Attached) (hv : (c.lines i).valid=true) :
    (c.wroteBack i).Attached := by
  refine ha.relabel wroteBack_setup (fun j => ⟨wroteBack_valid j,wroteBack_lba j⟩) fun j hj hd => ?_
  rw [wroteBack_valid] at hj
  rw [wroteBack_data,wroteBack_lba,wroteBack_disk]
  rw [wroteBack_dirty] at hd
  split_ifs with hl
  · by_cases hji : j=i
    · rw [hji]
    · exact absurd (ha.unique j i hj hv hl) hji
  · have hji : j≠i := fun h => hl (by rw [h])
    rw [if_neg hji] at hd
    exact ha.clean j hj hd

lemma wroteBack_moves (ha : c.Attached) (hv : (c.lines i).valid=true)
    (hd : (c.lines i).dirty=true) (new : ℕ → σ → Prop) : Moves new c (c.wroteBack i) where
  attached := wroteBack_attached ha hv
  setup := wroteBack_setup
  covers := by
    intro S hc _
    refine ⟨?_,[c.backWrite i],rfl,rfl,?_⟩
    · intro l hl
      rw [wroteBack_flat hv]
      exact hc l (wroteBack_dirtyAt hl)
    · intro x hx
      rw [List.mem_singleton.1 hx]
      refine ⟨rfl,_,ha.bound i hv,rfl,?_⟩
      have h := hc _ ⟨i,hv,hd,rfl⟩
      rwa [ha.flat_line hv] at h

end WroteBack

def NoWrite : ℕ → σ → Prop := fun _ _ => False

/-- The write of the sectors that a caller hands over. -/
def OneWrite (l : ℕ) (s : σ) : ℕ → σ → Prop := fun l' s' => l'=l ∧ s'=s

/-- Cache operations that leave the contents of the partition alone. -/
def Calm (c c' : BlockCache σ) : Prop := Moves NoWrite c c' ∧ c'.flat=c.flat

lemma SameView.calm (h : SameView c c') (ha : c.Attached) : Calm c c' := ⟨h.moves ha _,h.flat⟩

lemma Calm.trans (h : Calm c c') (h' : Calm c' c'') : Calm c c'' :=
  ⟨(h.1.trans h'.1).weaken fun _ _ hl => hl.elim id id,h'.2.trans h.2⟩

lemma Calm.attached (h : Calm c c') : c'.Attached :=
  h.1.attached

lemma Calm.setup (h : Calm c c') : SameSetup c c' :=
  h.1.setup

lemma wp_cacheWritebackLine (ha : c.Attached) (i : LineIx) : (cacheWritebackLine i).wp
      (fun _ c' => Calm c c' ∧
        (∀ j, (c'.lines j).valid=(c.lines j).valid ∧ (c'.lines j).lba=(c.lines j).lba) ∧
        ((c'.lines i).valid=true → (c'.lines i).dirty=false) ∧
        if (c.lines i).valid && (c.lines i).dirty then
          c.dev.writeOk c.dev.requests=true ∧ c'.dev.requests=c.dev.requests+1
        else c'.dev.requests=c.dev.requests)
      (fun c' => Calm c c' ∧ ¬ c.SectorsOk) c := by
  by_cases hq : (!(c.lines i).valid || !(c.lines i).dirty)=true
  · refine wp_of_run (cacheWritebackLine_clean hq) ⟨?_,fun _ => ⟨rfl,rfl⟩,?_,?_⟩
    · exact (SameView.refl c).calm ha
    · intro hv
      simpa [hv] using hq
    · have hn : ((c.lines i).valid && (c.lines i).dirty)=false := by
        rwa [← Bool.not_and,Bool.not_eq_true'] at hq
      simp [hn]
  · simp only [Bool.or_eq_true,Bool.not_eq_true',not_or,Bool.not_eq_false] at hq
    obtain ⟨hv,hd⟩ := hq
    unfold Prog.wp
    rw [cacheWritebackLine_dirty ha hv hd]
    by_cases hw : c.dev.writeOk c.dev.requests=true
    · rw [if_pos hw]
      refine ⟨⟨wroteBack_moves ha hv hd _,wroteBack_flat hv⟩,by simp,?_,?_⟩
      · intro _
        simp [wroteBack_dirty]
      · simp [hv,hd,hw,wroteBack]
    · rw [if_neg hw]
      exact ⟨(sameView_requested c).calm ha,fun h => hw (h _ le_rfl)⟩

/-- The state after a sector has been read into line `v`. -/
def loaded (c : BlockCache σ) (v : LineIx) (lba : ℕ) : BlockCache σ :=
  {c.asked lba with
    lines := update c.lines v ⟨true,false,lba,nextClock c.useClock,c.disk lba⟩
    useClock := nextClock c.useClock}

section Loaded
variable {c : BlockCache σ} {v : LineIx} {lba : ℕ}

lemma loaded_setup (hl : lba<c.activeLbaCount) : SameSetup c (c.loaded v lba) := by
  have hs := asked_setup hl
  exact ⟨hs.kind,hs.base,hs.count,hs.readyFlag,hs.present,hs.reads,hs.writes,
    hs.flushes,hs.requests,hs.readsIn⟩

@[simp] lemma loaded_self : (c.loaded v lba).lines v =
    ⟨true,false,lba,nextClock c.useClock,c.disk lba⟩ := by simp [loaded]

@[simp] lemma loaded_of_ne {j : LineIx} (h : j≠v) :
    (c.loaded v lba).lines j=c.lines j := by simp [loaded,h]

@[simp] lemma loaded_disk : (c.loaded v lba).disk=c.disk := rfl

lemma loaded_attached (ha : c.Attached) (hn : c.lineOf lba=none)
    (hl : lba<c.activeLbaCount) : (c.loaded v lba).Attached where
  ready := by rw [(loaded_setup hl).blockCacheReady]; exact ha.ready
  unique := by
    intro i j hi hj he
    by_cases hiv : i=v <;> by_cases hjv : j=v
    · rw [hiv,hjv]
    · subst hiv
      rw [loaded_of_ne hjv] at hj he
      exact absurd he.symm (by simpa using lineOf_none hn j hj)
    · subst hjv
      rw [loaded_of_ne hiv] at hi he
      exact absurd he (by simpa using lineOf_none hn i hi)
    · rw [loaded_of_ne hiv] at hi he
      rw [loaded_of_ne hjv] at hj he
      exact ha.unique i j hi hj he
  bound := by
    intro i hi
    by_cases hiv : i=v
    · subst hiv; rw [loaded_self]; exact hl
    · rw [loaded_of_ne hiv] at hi ⊢
      exact ha.bound i hi
  clean := by
    intro i hi hd
    by_cases hiv : i=v
    · subst hiv; simp
    · rw [loaded_of_ne hiv] at hi hd ⊢
      exact ha.clean i hi hd

lemma loaded_flat (ha : c.Attached) (hn : c.lineOf lba=none) (hl : lba<c.activeLbaCount)
    (hv : (c.lines v).valid=true → (c.lines v).dirty=false) :
    (c.loaded v lba).flat=c.flat := by
  have ha' := loaded_attached (v := v) ha hn hl
  funext l
  cases hc : c.lineOf l with
  | none =>
    rw [flat_of_none hc]
    cases hc' : (c.loaded v lba).lineOf l with
    | none => rw [flat_of_none hc',loaded_disk]
    | some i =>
      obtain ⟨hi,rfl⟩ := lineOf_some hc'
      by_cases hiv : i=v
      · subst hiv
        rw [ha'.flat_line hi]
        simp
      · rw [loaded_of_ne hiv] at hi hc
        exact absurd rfl (lineOf_none hc i hi)
  | some i =>
    obtain ⟨hi,rfl⟩ := lineOf_some hc
    rw [ha.flat_line hi]
    by_cases hiv : i=v
    · subst hiv
      rw [ha.clean i hi (hv hi)]
      -- the sector lost its line, and its contents are those of the device
      cases hc' : (c.loaded i lba).lineOf (c.lines i).lba with
      | none => rw [flat_of_none hc',loaded_disk]
      | some j =>
        obtain ⟨hj,he⟩ := lineOf_some hc'
        by_cases hji : j=i
        · subst hji
          rw [loaded_self] at he
          exact absurd he.symm (lineOf_none hn j hi)
        · rw [loaded_of_ne hji] at hj he
          exact absurd (ha.unique j i hj hi he) hji
    · have hi' : ((c.loaded v lba).lines i).valid=true := by rw [loaded_of_ne hiv]; exact hi
      have hf := ha'.flat_line hi'
      rwa [loaded_of_ne hiv] at hf

lemma loaded_dirtyAt {l : ℕ} (h : (c.loaded v lba).DirtyAt l) : c.DirtyAt l := by
  obtain ⟨i,hi,hd,hl⟩ := h
  by_cases hiv : i=v
  · subst hiv; simp at hd
  · rw [loaded_of_ne hiv] at hi hd hl
    exact ⟨i,hi,hd,hl⟩

lemma loaded_calm (ha : c.Attached) (hn : c.lineOf lba=none) (hl : lba<c.activeLbaCount)
    (hv : (c.lines v).valid=true → (c.lines v).dirty=false) :
    Calm c (c.loaded v lba) := by
  refine ⟨⟨loaded_attached ha hn hl,loaded_setup hl,?_⟩,loaded_flat ha hn hl hv⟩
  intro S hc _
  refine ⟨?_,[],by simp [loaded,asked],rfl,by simp⟩
  intro l hd
  rw [loaded_flat ha hn hl hv]
  exact hc l (loaded_dirtyAt hd)

end Loaded

variable {n : ℕ}

lemma selectVictimLoop_isSome (c : BlockCache σ) (is : List LineIx)
    (best : Option LineIx) (h : is≠[] ∨ best.isSome) :
    (selectVictimLoop c is best).isSome := by
  induction is generalizing best with
  | nil => simpa [selectVictimLoop] using h
  | cons i is ih =>
    simp only [selectVictimLoop]
    split
    · rfl
    · split
      · exact ih _ (.inr rfl)
      · split
        · exact ih _ (.inr rfl)
        · exact ih _ (.inr rfl)

lemma cacheSelectVictim_isSome (c : BlockCache σ) : c.cacheSelectVictim.isSome :=
  selectVictimLoop_isSome c _ _ (.inl (by simp [List.finRange_eq_nil_iff]))

/-- Loading the sector does not fail into a line in use: the sector has a line, or the victim is
unused, or the request that reads the sector is answered. -/
def SafeLoad (c : BlockCache σ) (lba : ℕ) : Prop :=
  c.lineOf lba=none → ∀ v, c.cacheSelectVictim=some v → (c.lines v).valid=true →
    if (c.lines v).dirty then
      c.dev.writeOk c.dev.requests=true → c.dev.readOutcome (c.dev.requests+1)=.ok
    else c.dev.readOutcome c.dev.requests=.ok

lemma ReadsOk.safeLoad (h : c.ReadsOk) (lba : ℕ) : c.SafeLoad lba := by
  intro _ v _ _
  split
  · exact fun _ => h _
  · exact h _

lemma wp_cacheGetLoad (ha : c.Attached) (hs : c.SafeLoad lba) (hl : lba<c.activeLbaCount) :
    (cacheGetLoad lba).wp (fun i c' => Calm c c' ∧ (c'.lines i).valid=true ∧ (c'.lines i).lba=lba)
      (fun c' => Calm c c' ∧ (c.ReadsOk → ¬ c.SectorsOk)) c := by
  simp only [cacheGetLoad,cacheFind,wp_bind,wp_gets]
  cases hc : c.lineOf lba with
  | some i =>
    simp only [wp_bind,wp_pure,cacheTouch,wp_modify]
    obtain ⟨hv,he⟩ := lineOf_some hc
    have ht := sameView_touched c i
    exact ⟨ht.calm ha,by rw [ht.valid]; exact hv,by rw [ht.lba]; exact he⟩
  | none =>
    simp only [wp_pure,wp_bind,wp_gets]
    obtain ⟨v,hv⟩ := Option.isSome_iff_exists.1 c.cacheSelectVictim_isSome
    rw [hv]
    simp only [wp_bind]
    refine wp_mono (wp_cacheWritebackLine ha v) ?_ fun _ h => ⟨h.1,fun _ => h.2⟩
    rintro _ c1 ⟨h1,hsame,hclean,hreq⟩
    have hn : c1.lineOf lba=none := by rw [lineOf_congr hsame]; exact hc
    have hl1 : lba<c1.activeLbaCount := by rw [h1.setup.count]; exact hl
    rw [wp_gets,id]
    cases ho : c1.dev.readOutcome c1.dev.requests with
    | ok =>
      have hres := loaded_calm (v := v) h1.attached hn hl1 hclean
      have hrun : (backendRw c1.activeDevKind (c1.deviceLba lba) (c1.lines v).data false).run c1 =
          (some (true,c1.disk lba),c1.asked lba) := by
        simp only [backendRw,h1.attached.isBlock,Bool.not_true,Bool.false_eq_true,if_false,ho]
        rfl
      refine wp_of_run hrun ?_
      simp only [wp_modify,wp_require_true,cacheTouch,wp_pure]
      have he : touched (((c1.asked lba).setLine v
          { (c1.asked lba).lines v with data := c1.disk lba}).setLine v
          { ((c1.asked lba).setLine v { (c1.asked lba).lines v with data := c1.disk lba}).lines v with
            valid := true, dirty := false, lba := lba}) v=c1.loaded v lba := by
        simp [touched,setLine,loaded,asked]
      rw [he]
      exact ⟨h1.trans hres,by simp,by simp⟩
    | fail junk =>
      have hrun : (backendRw c1.activeDevKind (c1.deviceLba lba) (c1.lines v).data false).run c1 =
          (some (false,junk),c1.asked lba) := by
        simp only [backendRw,h1.attached.isBlock,Bool.not_true,Bool.false_eq_true,if_false,ho]
        rfl
      refine wp_of_run hrun ?_
      simp only [wp_modify,wp_require_false]
      rw [h1.setup.reads] at ho
      -- the read has failed, so the victim was an unused line
      have hunused : (c1.lines v).valid=false := by
        rw [(hsame v).1]
        cases hval : (c.lines v).valid with
        | false => rfl
        | true =>
          have hsafe := hs hc v hv hval
          rw [hval,Bool.true_and] at hreq
          split at hreq
          · next hd =>
            rw [if_pos hd] at hsafe
            rw [hreq.2,hsafe hreq.1] at ho
            exact absurd ho (by simp)
          · next hd =>
            rw [if_neg hd] at hsafe
            rw [hreq,hsafe] at ho
            exact absurd ho (by simp)
      have hspoiled := sameView_spoiled (x := junk) hl1 hunused
      refine ⟨h1.trans (hspoiled.calm h1.attached),fun hr => ?_⟩
      rw [hr] at ho
      exact absurd ho (by simp)

/-- No sector that the loop reads fails into a line in use. -/
def SafeReads (lba : ℕ) : ℕ → BlockCache σ → Prop
  | 0,_ => True
  | n+1,c => c.SafeLoad lba ∧ (cacheGetLoad lba).wp (fun _ c' => SafeReads (lba+1) n c')
      (fun _ => True) c

lemma ReadsOk.safeReads (ha : c.Attached) (hr : c.ReadsOk) (n : ℕ)
    (hl : lba+n≤c.activeLbaCount) : SafeReads lba n c := by
  induction n generalizing c lba with
  | zero => trivial
  | succ n ih =>
    refine ⟨hr.safeLoad lba,?_⟩
    refine wp_mono (wp_cacheGetLoad ha (hr.safeLoad lba) (by omega)) ?_ fun _ _ => trivial
    rintro i c1 ⟨h1,-,-⟩
    exact ih h1.attached (h1.setup.readsOk hr) (by rw [h1.setup.count]; omega)

lemma wp_readLoop (ha : c.Attached) (n : ℕ) (hs : SafeReads lba n c) (hl : lba+n≤c.activeLbaCount) :
    (readLoop lba n).wp (fun ss c' => Calm c c' ∧ ss=(List.range n).map fun i => c.flat (lba+i))
      (fun c' => Calm c c' ∧ (c.ReadsOk → ¬ c.SectorsOk)) c := by
  induction n generalizing c lba with
  | zero =>
    exact ⟨(SameView.refl c).calm ha,rfl⟩
  | succ n ih =>
    simp only [readLoop,wp_bind,wp_gets,wp_pure]
    refine wp_mono (wp_and (wp_cacheGetLoad ha hs.1 (by omega)) hs.2) ?_ fun _ h => h.1
    rintro i c1 ⟨⟨h1,hv,he⟩,hs1⟩
    refine wp_mono (ih h1.attached hs1 (by rw [h1.setup.count]; omega)) ?_ ?_
    · rintro ss c2 ⟨h2,rfl⟩
      refine ⟨h1.trans h2,?_⟩
      have hd : (c1.lines i).data=c.flat lba := by rw [← h1.attached.flat_line hv,he,h1.2]
      simp [List.range_succ_eq_map,hd,h1.2,Function.comp_def,Nat.add_assoc,Nat.add_comm 1]
    · rintro c2 ⟨h2,hw⟩
      exact ⟨h1.trans h2,fun hr h => hw (h1.setup.readsOk hr) (h1.setup.sectorsOk h)⟩

lemma Attached.inRange (h : c.Attached) (hn : 0<n)
    (hl : lba+n≤c.activeLbaCount) : c.inRange lba n=true := by
  simp only [BlockCache.inRange,h.ready,Bool.true_and,Bool.not_eq_true',Bool.or_eq_false_iff,
    beq_eq_false_iff_ne,decide_eq_false_iff_not]
  omega

lemma wp_blockCacheRead (ha : c.Attached) (hs : SafeReads lba n c)
    (hn : 0<n) (hl : lba+n≤c.activeLbaCount) :
    (blockCacheRead lba n).wp
      (fun ss c' => Calm c c' ∧ ss=(List.range n).map fun i => c.flat (lba+i))
      (fun c' => Calm c c' ∧ (c.ReadsOk → ¬ c.SectorsOk)) c := by
  simp only [blockCacheRead,wp_bind,wp_gets,ha.inRange hn hl,wp_require_true]
  exact wp_readLoop ha n hs hl

/-- The state after new contents were put into line `i`. -/
def stored (c : BlockCache σ) (i : LineIx) (s : σ) : BlockCache σ :=
  c.setLine i {c.lines i with data := s, dirty := true}

section Stored
variable {c : BlockCache σ} {i : LineIx} {s : σ}

lemma stored_setup : SameSetup c (c.stored i s) := by
  constructor <;> first | rfl | exact .of_eq rfl

@[simp] lemma stored_self : (c.stored i s).lines i={c.lines i with data := s, dirty := true} := by
  simp [stored,setLine]

@[simp] lemma stored_of_ne {j : LineIx} (h : j≠i) :
    (c.stored i s).lines j=c.lines j := by simp [stored,setLine,h]

lemma stored_label (j : LineIx) : ((c.stored i s).lines j).valid=(c.lines j).valid ∧
    ((c.stored i s).lines j).lba=(c.lines j).lba := by
  by_cases hj : j=i
  · subst hj; simp
  · simp [hj]

lemma stored_attached (ha : c.Attached) : (c.stored i s).Attached := by
  refine ha.relabel stored_setup stored_label fun j hj hd => ?_
  by_cases hji : j=i
  · subst hji; simp at hd
  · rw [stored_of_ne hji] at hj hd ⊢
    exact ha.clean j hj hd

lemma stored_flat (ha : c.Attached) (hv : (c.lines i).valid=true) :
    (c.stored i s).flat=update c.flat (c.lines i).lba s := by
  have hline : ∀ l, (c.stored i s).lineOf l=c.lineOf l := lineOf_congr stored_label
  funext l
  by_cases hl : l=(c.lines i).lba
  · subst hl
    rw [flat,hline,ha.lineOf_eq hv,update_self]
    simp
  · rw [update_of_ne hl,flat,flat,hline]
    cases hc : c.lineOf l with
    | none => rfl
    | some j =>
      obtain ⟨-,he⟩ := lineOf_some hc
      have hji : j≠i := fun h => hl (by rw [← he,h])
      simp [hji]

lemma stored_moves (ha : c.Attached) (hv : (c.lines i).valid=true) :
    Moves (OneWrite (c.lines i).lba s) c (c.stored i s) where
  attached := stored_attached ha
  setup := stored_setup
  covers := by
    intro S hc hn
    refine ⟨?_,[],by simp [stored,setLine],rfl,by simp⟩
    rintro l ⟨j,hj,hd,hl⟩
    rw [stored_flat ha hv]
    by_cases hli : l=(c.lines i).lba
    · subst hli
      rw [update_self]
      exact hn _ _ ⟨rfl,rfl⟩
    · rw [update_of_ne hli]
      have hji : j≠i := by
        rintro rfl
        rw [stored_self] at hl
        exact hli hl.symm
      rw [stored_of_ne hji] at hj hd hl
      exact hc l ⟨j,hj,hd,hl⟩

end Stored

variable {j : LineIx}

/-- The flat array after a run of sectors has been written from `lba` on. -/
def writeSeq (f : ℕ → σ) (lba : ℕ) : List σ → ℕ → σ
  | [] => f
  | s::rest => writeSeq (update f lba s) (lba+1) rest

def SeqWrite (lba : ℕ) (buf : List σ) : ℕ → σ → Prop := fun l s => ∃ j, l=lba+j ∧ buf[j]?=some s

/-- The state after new contents were put into line `i` and the line was marked as used. -/
def written (c : BlockCache σ) (i : LineIx) (s : σ) : BlockCache σ :=
  (c.stored i s).touched i

/-- No sector that the loop loads before it writes it fails into a line in use. -/
def SafeWrites (lba : ℕ) : List σ → BlockCache σ → Prop
  | [],_ => True
  | s::rest,c => c.SafeLoad lba ∧
      (cacheGetLoad lba).wp (fun i c' => SafeWrites (lba+1) rest (c'.written i s)) (fun _ => True) c

lemma written_moves {s : σ}
    (ha : c.Attached) (hv : (c.lines i).valid=true) (he : (c.lines i).lba=lba) :
    Moves (OneWrite lba s) c (c.written i s) ∧ (c.written i s).flat=update c.flat lba s := by
  subst he
  have hs := stored_moves (s := s) ha hv
  have ht := sameView_touched (c.stored i s) i
  refine ⟨(hs.trans (ht.moves hs.attached NoWrite)).weaken fun _ _ hl => hl.elim id False.elim,?_⟩
  rw [written,ht.flat,stored_flat ha hv]

lemma ReadsOk.safeWrites (ha : c.Attached) (hr : c.ReadsOk) (buf : List σ) (hl : lba+buf.length≤c.activeLbaCount) : SafeWrites lba buf c := by
  induction buf generalizing c lba with
  | nil => trivial
  | cons s rest ih =>
    simp only [List.length_cons] at hl
    refine ⟨hr.safeLoad lba,?_⟩
    refine wp_mono (wp_cacheGetLoad ha (hr.safeLoad lba) (by omega)) ?_ fun _ _ => trivial
    rintro i c1 ⟨h1,hv,he⟩
    have h2 := h1.1.trans (written_moves (s := s) h1.attached hv he).1
    exact ih h2.attached (h2.setup.readsOk hr) (by rw [h2.setup.count]; omega)

lemma wp_writeLoop (ha : c.Attached) (buf : List σ)
    (hs : SafeWrites lba buf c) (hl : lba+buf.length≤c.activeLbaCount) :
    (writeLoop lba buf).wp
      (fun _ c' => Moves (SeqWrite lba buf) c c' ∧ c'.flat=writeSeq c.flat lba buf)
      (fun c' => (c.ReadsOk → ¬ c.SectorsOk) ∧ ∃ k<buf.length,
        Moves (SeqWrite lba (buf.take k)) c c' ∧ c'.flat=writeSeq c.flat lba (buf.take k)) c := by
  induction buf generalizing c lba with
  | nil =>
    exact ⟨(SameView.refl c).moves ha _,rfl⟩
  | cons s rest ih =>
    simp only [List.length_cons] at hl
    simp only [writeLoop,wp_bind,wp_modify,cacheTouch]
    refine wp_mono (wp_and (wp_cacheGetLoad ha hs.1 (by omega)) hs.2) ?_ ?_
    · rintro i c1 ⟨⟨h1,hv,he⟩,hs1⟩
      obtain ⟨hm,hf⟩ := written_moves (s := s) h1.attached hv he
      have h2 : Moves (OneWrite lba s) c (c1.written i s) :=
        (h1.1.trans hm).weaken fun _ _ hl => hl.elim False.elim id
      rw [h1.2] at hf
      have hsub : ∀ rest : List σ, ∀ l d, OneWrite lba s l d ∨ SeqWrite (lba+1) rest l d →
          SeqWrite lba (s::rest) l d := by
        rintro rest l d (⟨rfl,rfl⟩ | ⟨j,rfl,hj⟩)
        · exact ⟨0,rfl,rfl⟩
        · exact ⟨j+1,by omega,by simpa using hj⟩
      refine wp_mono (ih (c := c1.written i s) h2.attached hs1 (by rw [h2.setup.count]; omega)) ?_ ?_
      · rintro _ c3 ⟨h3,hf3⟩
        exact ⟨(h2.trans h3).weaken (hsub rest),by rw [hf3,hf]; rfl⟩
      · rintro c3 ⟨hw,k,hk,h3,hf3⟩
        refine ⟨fun hr h => hw (h2.setup.readsOk hr) (h2.setup.sectorsOk h),k+1,by simpa using hk,
          (h2.trans h3).weaken (hsub _),?_⟩
        rw [hf3,hf]
        rfl
    · rintro c1 ⟨⟨h1,hw⟩,-⟩
      exact ⟨hw,0,by simp,h1.1.weaken fun _ _ h => h.elim,by simpa [writeSeq] using h1.2⟩

lemma wp_blockCacheWrite (ha : c.Attached) {buf : List σ}
    (hs : SafeWrites lba buf c) (hn : 0<buf.length) (hl : lba+buf.length≤c.activeLbaCount) :
    (blockCacheWrite lba buf).wp
      (fun _ c' => Moves (SeqWrite lba buf) c c' ∧ c'.flat=writeSeq c.flat lba buf)
      (fun c' => (c.ReadsOk → ¬ c.SectorsOk) ∧ ∃ k<buf.length,
        Moves (SeqWrite lba (buf.take k)) c c' ∧ c'.flat=writeSeq c.flat lba (buf.take k)) c := by
  simp only [blockCacheWrite,wp_bind,wp_gets,ha.inRange hn hl,wp_require_true]
  exact wp_writeLoop ha buf hs hl

def isDirty (c : BlockCache σ) (i : LineIx) : Bool := (c.lines i).valid && (c.lines i).dirty

lemma wroteBack_isDirty : (c.wroteBack i).isDirty j=if j=i then false else c.isDirty j := by
  rw [isDirty,isDirty,wroteBack_valid,wroteBack_dirty]
  split_ifs <;> simp

/-- The sector writes of a flush of the listed lines are accepted. -/
def Lands (c : BlockCache σ) (is : List LineIx) : Prop :=
  ∀ n<(is.filter c.isDirty).length, c.dev.writeOk (c.dev.requests+n)=true

lemma SectorsOk.lands (h : c.SectorsOk) (is : List LineIx) :
    c.Lands is := fun _ _ => h _ (Nat.le_add_right _ _)

lemma wp_flushLoop (ha : c.Attached) (is : List LineIx) (hd : is.Nodup) : (flushLoop is).wp
      (fun _ c' => Calm c c' ∧ (∀ j, c'.isDirty j=(c.isDirty j && decide (j∉is))) ∧
        c'.dev.reads=c.dev.reads)
      (fun c' => Calm c c' ∧ ¬ c.Lands is ∧ c'.dev.reads=c.dev.reads) c := by
  induction is generalizing c with
  | nil => exact ⟨(SameView.refl c).calm ha,by simp,rfl⟩
  | cons i is ih =>
    obtain ⟨hi,hd⟩ := List.nodup_cons.1 hd
    simp only [flushLoop,wp_bind]
    by_cases hq : c.isDirty i=true
    · obtain ⟨hv,hdi⟩ : (c.lines i).valid=true ∧ (c.lines i).dirty=true := by
        simpa [isDirty] using hq
      have hfilter : is.filter (c.wroteBack i).isDirty=is.filter c.isDirty := by
        apply List.filter_congr
        intro j hj
        have hne : j≠i := fun h => hi (h ▸ hj)
        rw [wroteBack_isDirty,if_neg hne]
      unfold Prog.wp
      rw [cacheWritebackLine_dirty ha hv hdi]
      by_cases hw : c.dev.writeOk c.dev.requests=true
      · rw [if_pos hw]
        have h1 : Calm c (c.wroteBack i) := ⟨wroteBack_moves ha hv hdi _,wroteBack_flat hv⟩
        refine wp_mono (ih h1.attached hd) ?_ ?_
        · rintro _ c2 ⟨h2,hdirty,hreads⟩
          refine ⟨h1.trans h2,fun j => ?_,hreads⟩
          rw [hdirty,wroteBack_isDirty]
          by_cases hj : j=i
          · simp [hj]
          · simp [hj]
        · rintro c2 ⟨h2,hn,hreads⟩
          refine ⟨h1.trans h2,fun h => hn ?_,hreads⟩
          intro n hlt
          rw [hfilter] at hlt
          have := h (n+1) (by rw [List.filter_cons_of_pos hq,List.length_cons]; omega)
          rwa [← Nat.add_assoc,Nat.add_right_comm] at this
      · rw [if_neg hw]
        refine ⟨(sameView_requested c).calm ha,fun h => hw ?_,rfl⟩
        exact h 0 (by rw [List.filter_cons_of_pos hq]; exact Nat.succ_pos _)
    · have hq' : c.isDirty i=false := by simpa using hq
      refine wp_of_run (cacheWritebackLine_clean (by
        simp only [isDirty,Bool.and_eq_false_iff] at hq'
        rcases hq' with h | h <;> simp [h])) ?_
      refine wp_mono (ih ha hd) ?_ ?_
      · rintro _ c2 ⟨h2,hdirty,hreads⟩
        refine ⟨h2,fun j => ?_,hreads⟩
        rw [hdirty]
        by_cases hj : j=i
        · simp [hj,hq']
        · simp [hj]
      · rintro c2 ⟨h2,hn,hreads⟩
        refine ⟨h2,?_,hreads⟩
        rwa [Lands,List.filter_cons_of_neg hq]

/-- A flush leaves nothing dirty: the device then holds the flat array. One that fails still does
so if its sector writes were accepted. -/
lemma wp_blockCacheFlush (ha : c.Attached) : blockCacheFlush.wp
      (fun _ c' => Calm c c' ∧ (∀ l, ¬ c'.DirtyAt l) ∧ c'.dev.reads=c.dev.reads)
      (fun c' => Calm c c' ∧ ¬ c.WritesOk ∧
        (c.Lands (List.finRange blockCacheLines) → ∀ l, ¬ c'.DirtyAt l) ∧ c'.dev.reads=c.dev.reads) c := by
  simp only [blockCacheFlush,wp_bind,wp_gets,ha.ready,wp_require_true]
  refine wp_mono (wp_flushLoop ha _ (List.nodup_finRange _)) ?_ ?_
  · rintro _ c1 ⟨h1,hdirty,hreads⟩
    have hreq := sameView_requested c1
    have hclean : ∀ l, ¬ c1.requested.DirtyAt l := by
      rintro l ⟨j,hv,hd,-⟩
      have hj : c1.isDirty j=false := by rw [hdirty]; simp
      rw [isDirty,Bool.and_eq_false_iff] at hj
      rcases hj with h | h
      · exact absurd (hv.symm.trans h) (by simp)
      · exact absurd (hd.symm.trans h) (by simp)
    unfold Prog.wp
    simp only [backendFlush,h1.attached.isBlock,Bool.not_true,Bool.false_eq_true,if_false]
    by_cases hf : c1.dev.flushOk c1.dev.requests=true
    · rw [if_pos hf]
      exact ⟨h1.trans (hreq.calm h1.attached),hclean,hreads⟩
    · rw [if_neg hf]
      refine ⟨h1.trans (hreq.calm h1.attached),fun h => hf ?_,fun _ => hclean,hreads⟩
      exact (h1.setup.writesOk h _ le_rfl).2
  · rintro c1 ⟨h1,hn,hreads⟩
    exact ⟨h1,fun h => hn (h.sectorsOk.lands _),fun h => absurd h hn,hreads⟩

end BlockCache
end FuriOS
