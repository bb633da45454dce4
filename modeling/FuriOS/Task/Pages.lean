import FuriOS.Task.State

/-! The page side of an address space in `kernel/task.c`: page descriptors, the table of tracked
pages, and the check that the two agree. Flushes of the translation buffer have no effect on the
page tables and are left out. -/
namespace FuriOS

/-- What the code reads off a page descriptor. -/
structure HwBits where
  writable : Bool
  executable : Bool
  cow : Bool
  deriving DecidableEq, Repr

def taskStackFloor (m : AddressSpace) : ℕ :=
  if m.stackBase≠0 then m.stackBase else userStackTop-userStackPages*pageSize

def taskRecomputeHeapLimit (m : AddressSpace) : AddressSpace :=
  {m with heapLimit := (List.finRange maxVmas).foldl (fun limit i => match m.vmas i with
    | some v => if m.heapEnd≤v.start ∧ v.start<limit then v.start else limit
    | none => limit) (taskStackFloor m)}

def taskClearVmas (m : AddressSpace) : AddressSpace :=
  taskRecomputeHeapLimit (m.setVmas .empty)

def taskL3ForVa (m : AddressSpace) (va : ℕ) : ℕ :=
  if va/2^21=userVaBase/2^21 then m.l3UserA
  else if va/2^21=(userVaLimit-1)/2^21 then m.l3UserB
  else 0

def taskUserAttrsProt (prot : ℕ) (cowTag : Bool) : PteAttrs :=
  { ap := if hasBits prot protWrite then .el0Rw
      else if hasBits prot (protRead ||| protExec) then .el0Ro
      else .el1Rw
    uxn := !hasBits prot protExec
    cow := cowTag}

def taskUserAttrs (pteWritable executable cowTag : Bool) : PteAttrs :=
  taskUserAttrsProt (protRead ||| (if pteWritable then protWrite else 0)
    ||| (if executable then protExec else 0)) cowTag

/-- The address check and the table of `task_set_user_pte` and `task_get_user_pte`. -/
def userPteOk (m : AddressSpace) (va : ℕ) : Bool :=
  userVaBase≤va ∧ va<userVaLimit ∧ va%pageSize=0 ∧ taskL3ForVa m va≠0

section
variable {m m' : AddressSpace} {va va' : ℕ}

lemma userPteOk_iff : userPteOk m va=true ↔
    userVaBase≤va ∧ va<userVaLimit ∧ va%pageSize=0 ∧ taskL3ForVa m va≠0 := by
  simp [userPteOk]

lemma taskL3ForVa_congr (ha : m'.l3UserA=m.l3UserA) (hb : m'.l3UserB=m.l3UserB) :
    taskL3ForVa m' va=taskL3ForVa m va := by
  simp [taskL3ForVa,ha,hb]

lemma userPteOk_congr (ha : m'.l3UserA=m.l3UserA) (hb : m'.l3UserB=m.l3UserB) :
    userPteOk m' va=userPteOk m va := by
  simp [userPteOk,taskL3ForVa_congr ha hb]

@[simp] lemma taskL3ForVa_setPte {e : Pte} : taskL3ForVa (m.setPte va' e) va=taskL3ForVa m va :=
  taskL3ForVa_congr rfl rfl

@[simp] lemma userPteOk_setPte {e : Pte} : userPteOk (m.setPte va' e) va=userPteOk m va :=
  userPteOk_congr rfl rfl

@[simp] lemma userPteOk_setPages {ps : Slots maxUserPages UserPage} :
    userPteOk (m.setPages ps) va=userPteOk m va := userPteOk_congr rfl rfl

@[simp] lemma userPteOk_setVmas {vs : Vmas} : userPteOk (m.setVmas vs) va=userPteOk m va :=
  userPteOk_congr rfl rfl

end

-- The comparisons with the fixed bounds are only ever used through the lemmas above.
attribute [irreducible] userPteOk taskL3ForVa

def taskSetUserPte (va pa : ℕ) (attrs : PteAttrs) : Prog AddressSpace Unit := do
  .require (userPteOk (← .gets id) va)
  .modify fun m => m.setPte va (mmuMakePage pa attrs)

def taskGetUserPte (m : AddressSpace) (va : ℕ) : Option Pte :=
  if userPteOk m va then some (m.ptes va) else none

section
variable {m m' : AddressSpace} {va va' : ℕ}

lemma taskGetUserPte_congr (ha : m'.l3UserA=m.l3UserA) (hb : m'.l3UserB=m.l3UserB)
    (hp : m'.ptes va=m.ptes va) : taskGetUserPte m' va=taskGetUserPte m va := by
  simp only [taskGetUserPte,userPteOk_congr ha hb,hp]

@[simp] lemma taskGetUserPte_setPages {ps : Slots maxUserPages UserPage} :
    taskGetUserPte (m.setPages ps) va=taskGetUserPte m va := taskGetUserPte_congr rfl rfl rfl

@[simp] lemma taskGetUserPte_setVmas {vs : Vmas} :
    taskGetUserPte (m.setVmas vs) va=taskGetUserPte m va := taskGetUserPte_congr rfl rfl rfl

lemma taskGetUserPte_setPte_of_ne {e : Pte} (h : va≠va') :
    taskGetUserPte (m.setPte va' e) va=taskGetUserPte m va :=
  taskGetUserPte_congr rfl rfl (AddressSpace.ptes_setPte_of_ne h)

lemma taskGetUserPte_setPte_self {e e' : Pte} (h : taskGetUserPte (m.setPte va e) va=some e') :
    e=e' := by
  simp only [taskGetUserPte,userPteOk_setPte,AddressSpace.ptes_setPte_self,
    Option.ite_none_right_eq_some,Option.some.injEq] at h
  exact h.2

end

def taskPteIsUserPage (e : Pte) : Bool := e.valid

def taskPteIsUserWritable (e : Pte) : Bool := e.attrs.ap=.el0Rw

def taskPteIsUserExecutable (e : Pte) : Bool := !e.attrs.uxn

def taskPteIsCow (e : Pte) : Bool := e.attrs.cow

/-- A tracked page agrees with its descriptor. -/
def taskPageValidateHw (m : AddressSpace) (up : UserPage) : Option HwBits :=
  match taskGetUserPte m up.va with
  | none => none
  | some e =>
    if taskPteIsUserPage e && e.pa=up.pa
      && !(!up.writableIntent && (taskPteIsUserWritable e || taskPteIsCow e))
      && !(taskPteIsCow e && taskPteIsUserWritable e)
      && !(taskPteIsCow e && !up.writableIntent)
    then some ⟨taskPteIsUserWritable e,taskPteIsUserExecutable e,taskPteIsCow e⟩
    else none

def taskTrackPage (va pa : ℕ) (writableIntent : Bool) : Prog AddressSpace Unit := do
  match Slots.free? (← .gets AddressSpace.pages) with
  | some i => .modify fun m => m.setPages (m.pages.put i ⟨va,pa,writableIntent⟩)
  | none => .fail

def taskFindPage (m : AddressSpace) (vaPage : ℕ) : Option (Fin maxUserPages × UserPage) :=
  m.pages.find? fun up => up.va=vaPage

/-- `task_map_user_page`: a descriptor set for a page that cannot be tracked is taken back. -/
def taskMapUserPage (va pa : ℕ) (pteWritable executable pteCow writableIntent : Bool) :
    Prog AddressSpace Unit := do
  .require (taskFindPage (← .gets id) va).isNone
  taskSetUserPte va pa (taskUserAttrs pteWritable executable pteCow)
  (taskTrackPage va pa writableIntent).onFail fun m =>
    if taskL3ForVa m va≠0 then m.setPte va .zero else m

/-- `pmm_alloc_page` above the reserve that is kept back from user pages. -/
def allocAboveReserve : TaskM ℕ := do
  .require (pmmOomReservePages<pmmAvailablePages (← .gets System.phys))
  onPhys pmmAllocPage

def taskMapUserAnonFaultPage (t : TaskIx) (va : ℕ) (writable executable : Bool) : TaskM Unit := do
  let page ← allocAboveReserve
  (onMm t (taskMapUserPage va page writable executable false writable)).onFail fun s =>
    s.setPhys (pmmFreePage page s.phys)

end FuriOS
