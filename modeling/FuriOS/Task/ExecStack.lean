import FuriOS.Task.ExecLoad

/-! The initial stack of a program. The strings, the random bytes and the words are stored one
below the other, so that what was stored stays; the stack pointer is a multiple of 16 exactly when
the number of arguments is odd. -/
namespace FuriOS
open Prog Function

/-- The byte in the page that the task tracks at `va`. -/
def System.userByte (s : System) (t : TaskIx) (va : ℕ) : Option UInt8 :=
  (taskTranslate (s.mm t) va).map s.phys.mem

/-- The bytes of `src` lie at `dst`, and all others are as before. -/
structure InUser (t : TaskIx) (s s' : System) (dst : ℕ) (src : Buf) (len : ℕ) : Prop where
  loaded : Loaded t s'
  inside : ∀ i, i<len → s'.userByte t (dst+i)=some (src i)
  outside : ∀ va, va<dst ∨ dst+len≤va → s'.userByte t va=s.userByte t va

namespace Loaded
variable {t : TaskIx} {s : System} {va va' pa : ℕ}

lemma translate_eq_some (h : taskTranslate (s.mm t) va=some pa) :
    ∃ i up, (s.mm t).pages i=some up ∧ up.va=alignDown va ∧ pa=up.pa+va%pageSize := by
  obtain ⟨⟨i,up⟩,hf,rfl⟩ := Option.map_eq_some_iff.1 h
  obtain ⟨hi,hva⟩ := Slots.find?_eq_some hf
  have hmod : va-alignDown va=va%pageSize := by
    simp only [alignDown,pageSize]
    omega
  exact ⟨i,up,hi,of_decide_eq_true hva,by rw [hmod]⟩

lemma translate_inj (h : Loaded t s) (hva : taskTranslate (s.mm t) va=some pa)
    (hva' : taskTranslate (s.mm t) va'=some pa) : va=va' := by
  obtain ⟨i,up,hi,hup,hpa⟩ := translate_eq_some hva
  obtain ⟨j,up',hj,hup',hpa'⟩ := translate_eq_some hva'
  have hal := h.aligned hi
  have hal' := h.aligned hj
  simp only [pageSize] at hal hal' hpa hpa'
  have hframe : up.pa=up'.pa := by omega
  obtain rfl := h.apart i j up up' hi hj hframe
  obtain rfl := Option.some.inj (hi.symm.trans hj)
  have hdown : alignDown va=alignDown va' := hup.symm.trans hup'
  simp only [alignDown,pageSize] at hdown
  omega

lemma userRead (h : Loaded t s) {b : UInt8} (hb : s.userByte t va=some b) :
    s.memView.userRead t va=some b := by
  obtain ⟨pa,hpa,rfl⟩ := Option.map_eq_some_iff.1 hb
  obtain ⟨i,up,hi,hup,rfl⟩ := translate_eq_some hpa
  obtain ⟨e,he,hr,hp⟩ := h.mapped i up hi
  rw [MemView.userRead,memView_mm,← hup,he,Option.bind_some,if_pos hr,hp]
  rfl

lemma stored_zero (h : Loaded t s) (dst : ℕ) (src : Buf) : InUser t s s dst src 0 :=
  ⟨h,fun _ hi => absurd hi (Nat.not_lt_zero _),fun _ _ => rfl⟩

end Loaded

namespace InUser
variable {t : TaskIx} {s s' : System} {dst k : ℕ} {src : Buf}

lemma storeUserByte (h : InUser t s s' dst src k) (hdst : dst+k<2^64) :
    wp (storeUserByte t ((dst+k)%2^64) (src k)) (fun _ s'' => InUser t s s'' dst src (k+1))
      (fun _ => True) s' := by
  rw [Nat.mod_eq_of_lt hdst,FuriOS.storeUserByte,wp_gets_bind]
  split
  · trivial
  rename_i pa hpa
  rw [modifyPhys,wp_modify]
  have hself : (s'.setPhys {s'.phys with mem := update s'.phys.mem pa (src k)}).userByte t
      (dst+k)=some (src k) := by
    rw [System.userByte,System.mm_setPhys,hpa]
    simp
  have hother (va : ℕ) (hva : va≠dst+k) :
      (s'.setPhys {s'.phys with mem := update s'.phys.mem pa (src k)}).userByte t va
        = s'.userByte t va := by
    rw [System.userByte,System.userByte,System.mm_setPhys]
    cases hq : taskTranslate (s'.mm t) va with
    | none => rfl
    | some q =>
      have hne : q≠pa := by
        rintro rfl
        exact hva (h.loaded.translate_inj hq hpa)
      simp [update_of_ne hne]
  refine ⟨h.loaded.setMem _,fun i hi => ?_,fun va hva => ?_⟩
  · obtain rfl | hlt := Nat.lt_succ_iff_lt_or_eq.1 hi |>.symm
    · exact hself
    · rw [hother _ (by omega)]
      exact h.inside i hlt
  · rw [hother va (by omega)]
    exact h.outside va (by omega)

end InUser

lemma Loaded.stored {t : TaskIx} {s : System} (h : Loaded t s) (dst len : ℕ) (src : Buf)
    (hdst : dst+len≤2^64) : wp (taskCopyToUserVa t dst src len)
      (fun _ s' => InUser t s s' dst src len) (fun _ => True) s := by
  rw [taskCopyToUserVa,List.range_eq_range']
  refine wp_imp (wp_forEach (fun rest s' => ∃ k, k≤len ∧ rest=List.range' k (len-k) ∧
    InUser t s s' dst src k) ?_ _ s ⟨0,Nat.zero_le _,rfl,h.stored_zero dst src⟩) ?_
  · rintro i rest s' ⟨k,hk,hrest,hs'⟩
    cases hn : len-k with
    | zero =>
      rw [hn] at hrest
      cases hrest
    | succ n =>
      rw [hn,List.range'_succ] at hrest
      obtain ⟨rfl,rfl⟩ := List.cons.inj hrest
      refine wp_imp (hs'.storeUserByte (by omega)) fun _ s'' hs'' => ⟨i+1,by omega,?_,hs''⟩
      rw [show len-(i+1)=n by omega]
  · rintro - s' ⟨k,hk,hrest,hs'⟩
    have hzero : len-k=0 := by
      have := congrArg List.length hrest
      simpa using this.symm
    rwa [show k=len by omega] at hs'

/-- The room that strings with their final zeros take. -/
def stringsSize (args : List Bytes) : ℕ := (args.map fun a => a.length+1).sum

/-- The string lies at `p`, with its final zero, between `sp` and `top`. -/
def PushedAt (s : System) (t : TaskIx) (sp top : ℕ) (a : Bytes) (p : ℕ) : Prop :=
  sp≤p ∧ p+a.length<top ∧ ∀ i, i≤a.length → s.userByte t (p+i)=some (cString a i)

section Stack
variable {t : TaskIx} {s s' : System} {sp sp' top : ℕ}
variable {args : List Bytes} {eh : Ehdr} {phdrAddr : ℕ}

lemma PushedAt.frame {a : Bytes} {p : ℕ} (h : PushedAt s t sp top a p) (hsp : sp' ≤ sp)
    (hout : ∀ va, sp≤va → va<top → s'.userByte t va=s.userByte t va) :
    PushedAt s' t sp' top a p := by
  obtain ⟨hlo,hhi,hbytes⟩ := h
  refine ⟨hsp.trans hlo,hhi,fun i hi => ?_⟩
  rw [hout _ (by omega) (by omega)]
  exact hbytes i hi

lemma Loaded.pushArgs (h : Loaded t s) (htop : top≤2^64)
    (hsize : stringsSize args≤top) : wp (pushArgs t args top)
      (fun r s' => Loaded t s' ∧ r.2=top-stringsSize args ∧
        List.Forall₂ (PushedAt s' t r.2 top) args r.1) (fun _ => True) s := by
  induction args with
  | nil => exact ⟨h,rfl,.nil⟩
  | cons a rest ih =>
    have hsum : stringsSize (a::rest)=a.length+1+stringsSize rest := rfl
    rw [FuriOS.pushArgs,wp_bind]
    refine wp_imp (ih (by omega)) fun r s1 hs1 => ?_
    obtain ⟨ptrs,top'⟩ := r
    obtain ⟨h1,htop',hpushed⟩ := hs1
    dsimp only at htop' hpushed ⊢
    rw [wp_bind]
    refine wp_imp (h1.stored (top'-(a.length+1)) (a.length+1) (cString a) (by omega))
      fun _ s2 h2 => ?_
    rw [wp_pure]
    refine ⟨h2.loaded,by omega,.cons ⟨le_rfl,by omega,fun i hi => ?_⟩ ?_⟩
    · exact h2.inside i (by omega)
    · exact hpushed.imp fun b p hp => hp.frame (by omega) fun va hlo _ => h2.outside va (by omega)

/-- The program reads the word `w`, in memory order, at the address `a`. -/
def WordAt (s : System) (t : TaskIx) (a w : ℕ) : Prop :=
  ∀ k, k<8 → s.memView.userRead t (a+k)=some (UInt8.ofNat (w/2^(8*k)))

/-- The program reads a string with its final zero. -/
def StringAt (s : System) (t : TaskIx) (a : Bytes) (p : ℕ) : Prop :=
  p<2^64 ∧ ∀ i, i≤a.length → s.memView.userRead t (p+i)=some (cString a i)

/-- The stack of a new program from `sp` up: the number of arguments, the pointers to them, the
null pointers after them and after the empty environment, and the auxiliary vector. -/
def StackAt (s : System) (t : TaskIx) (eh : Ehdr) (phdrAddr : ℕ) (args : List Bytes)
    (sp : ℕ) : Prop :=
  ∃ ptrs random, List.Forall₂ (StringAt s t) args ptrs ∧
    ∀ i w, (args.length::ptrs++[0,0]++auxv eh phdrAddr random ptrs)[i]?=some w →
      WordAt s t (sp+8*i) w

lemma wordBytes_at {ws : List ℕ} {i w : ℕ} (hi : ws[i]?=some w) {k : ℕ} (hk : k<8) :
    wordBytes ws (8*i+k)=UInt8.ofNat (w/2^(8*k)) := by
  have hdiv : (8*i+k)/8=i := by omega
  have hmod : (8*i+k)%8=k := by omega
  rw [wordBytes,hdiv,hmod,List.getD_eq_getElem?_getD,hi,Option.getD_some]

lemma length_auxv {random : ℕ} {ptrs : List ℕ} : (auxv eh phdrAddr random ptrs).length=34 := rfl

lemma Loaded.buildStack (h : Loaded t s) (eh : Ehdr) (phdrAddr : ℕ)
    (random : Buf) (hlen : args.length ≤ maxArgv) (hsize : stringsSize args ≤ maxArgv*maxArgLen) :
    wp (buildStack t eh phdrAddr args random)
      (fun sp s' => s'.memView.Ok [] ∧ sp<2^64 ∧ (sp%16=0 ↔ args.length%2=1) ∧
        StackAt s' t eh phdrAddr args sp)
      (fun _ => True) s := by
  simp only [maxArgv,maxArgLen] at hlen hsize
  have htop : userStackTop=0x7FF000 := rfl
  rw [FuriOS.buildStack,wp_bind]
  refine wp_imp (h.pushArgs (by rw [htop]; norm_num) (by rw [htop]; omega)) fun r s1 hs1 => ?_
  obtain ⟨ptrs,top⟩ := r
  obtain ⟨h1,hr,hpushed⟩ := hs1
  dsimp only at hr hpushed ⊢
  rw [htop] at hr
  have hptrs := hpushed.length_eq
  rw [wp_bind]
  refine wp_imp (h1.stored (top-16) 16 random (by omega)) fun _ s2 h2 => ?_
  have hwords : (args.length::ptrs++[0,0]++auxv eh phdrAddr (top-16) ptrs).length
      = args.length+37 := by
    simp only [List.length_append,List.length_cons,List.length_nil,length_auxv,← hptrs]
  rw [hwords,wp_bind]
  refine wp_imp (h2.loaded.stored ((top-16)/16*16-(args.length+37)*8) ((args.length+37)*8)
    (wordBytes _) (by omega)) fun _ s3 h3 => ?_
  rw [wp_pure]
  refine ⟨h3.loaded.ok,by omega,by omega,ptrs,top-16,?_,fun i w hi k hk => ?_⟩
  · refine hpushed.imp fun a p hp => ?_
    have hkept : PushedAt s3 t top userStackTop a p := hp.frame le_rfl fun va hlo _ => by
      rw [h3.outside va (by omega),h2.outside va (by omega)]
    refine ⟨?_,fun i hi => h3.loaded.userRead (hkept.2.2 i hi)⟩
    have := hkept.2.1
    omega
  · have hilt : i<args.length+37 := hwords ▸ (List.getElem?_eq_some_iff.1 hi).1
    refine h3.loaded.userRead ?_
    rw [Nat.add_assoc,h3.inside _ (by omega),wordBytes_at hi hk]

lemma stringsSize_le {n : ℕ} (h : ∀ a∈args, a.length+1≤n) : stringsSize args≤args.length*n := by
  induction args with
  | nil => exact Nat.zero_le _
  | cons a rest ih =>
    have ha := h a List.mem_cons_self
    have hrest := ih fun b hb => h b (List.mem_cons_of_mem a hb)
    have hsum : stringsSize (a::rest)=a.length+1+stringsSize rest := rfl
    rw [hsum,List.length_cons,Nat.succ_mul]
    omega

lemma length_kernelArgv_le (argv : List Bytes) : (kernelArgv argv).length ≤ maxArgv := by
  rw [kernelArgv,List.length_map,List.length_take]
  exact min_le_left _ _

lemma stringsSize_kernelArgv_le (argv : List Bytes) :
    stringsSize (kernelArgv argv) ≤ maxArgv*maxArgLen := by
  refine (stringsSize_le (n := maxArgLen) fun a ha => ?_).trans
    (Nat.mul_le_mul_right _ (length_kernelArgv_le argv))
  obtain ⟨b,-,rfl⟩ := List.mem_map.1 ha
  rw [List.length_take]
  simp only [maxArgLen]
  omega

lemma userRead_congr {u v : MemView} (hm : u.mm t=v.mm t) (hp : u.phys.mem=v.phys.mem) :
    u.userRead t=v.userRead t := by
  funext va
  rw [MemView.userRead,MemView.userRead,hm,hp]

lemma StackAt.congr
    (h : StackAt s t eh phdrAddr args sp) (hr : s'.memView.userRead t=s.memView.userRead t) :
    StackAt s' t eh phdrAddr args sp := by
  unfold StackAt StringAt WordAt at *
  rwa [hr]

/-- A successful `task_exec` keeps the references counted and leaves the program its stack. -/
lemma taskExec_stack {elf : Buf} {elfSize : ℕ} {argv : List Bytes} {random : Buf}
    (h : s.memView.Ok []) : wp (taskExec t elf elfSize argv random)
      (fun _ s' => s'.memView.Ok [] ∧ ∃ sp, sp<2^64 ∧ (s'.tasks t).tf.spEl0=UInt64.ofNat sp ∧
        (sp%16=0 ↔ (kernelArgv argv).length%2=1) ∧
        StackAt s' t (Ehdr.read elf) (taskElfPhdrUserAddr (Ehdr.read elf)
          (programHeaders elf (Ehdr.read elf)) elfSize) (kernelArgv argv) sp)
      (fun _ => True) s := by
  rw [taskExec,wp_bind,taskLoadElf]
  refine wp_require_of trivial fun _ => ?_
  split
  · trivial
  rw [wp_gets_bind]
  refine wp_require_of trivial fun _ => ?_
  refine Loaded.beforeStack h elf _ fun s1 h1 => ?_
  rw [wp_bind]
  refine wp_imp (h1.buildStack _ _ random (length_kernelArgv_le argv)
    (stringsSize_kernelArgv_le argv)) fun sp s2 h2 => ?_
  obtain ⟨hok,hsp,halign,hstack⟩ := h2
  rw [modifyTask,wp_modify,modifyTask,wp_modify,memView_setTask_of_eq rfl rfl,memView_setTask_of_eq rfl rfl]
  refine ⟨hok,sp,hsp,by simp [entryFrame,Task.setSig],halign,hstack.congr ?_⟩
  rw [memView_setTask_of_eq rfl rfl,memView_setTask_of_eq rfl rfl]

end Stack
end FuriOS
