import FuriOS.Task.ExecStack

/-! The arguments of the exec system call. What the program finds on its stack are the strings
that the caller gave, cut to 16 strings of 255 bytes, after the two of an interpreter. -/
namespace FuriOS
open Prog Owners

section Image
variable {s : System} {held : List ℕ}

lemma ok_pagecacheReadLoop (n fuel cur rem : ℕ) (h : s.memView.Ok held) :
    wp (pagecacheReadLoop n fuel cur rem) (fun _ s' => s'.memView.Ok held) (fun _ => True) s := by
  induction fuel generalizing cur rem s with
  | zero => exact h
  | succ fuel ih =>
    rw [pagecacheReadLoop]
    split_ifs
    · exact h
    rw [wp_bind,wp_attempt]
    refine wp_mono (memInv_ok.getOrCreate n _ h) (fun p s1 hs1 => ?_) fun s1 hs1 => hs1
    rw [wp_gets_bind,modifyPhys,wp_modify_bind,wp_bind]
    exact wp_imp (ih _ _ hs1.1.free) fun _ s2 hs2 => hs2

lemma ok_fsRead (n off len : ℕ) (h : s.memView.Ok held) :
    wp (fsRead n off len) (fun _ s' => s'.memView.Ok held) (fun _ => True) s := by
  rw [fsRead,wp_gets_bind]
  refine wp_require_of trivial fun _ => ?_
  split_ifs
  · exact h
  rw [pagecacheRead,wp_gets_bind]
  refine wp_require_of trivial fun _ => ?_
  by_cases hnone : len=0 ∨ (s.inodes n).size≤off
  · rw [if_pos hnone]
    exact h
  rw [if_neg hnone,wp_bind]
  refine wp_imp (ok_pagecacheReadLoop n _ off _ h) fun _ s1 h1 => ?_
  exact wp_require_bind (fun _ => h1) fun _ => trivial

lemma ok_loadExecLoop (n size fuel off : ℕ) (h : s.memView.Ok held) :
    wp (loadExecLoop n size fuel off) (fun _ s' => s'.memView.Ok held) (fun _ => True) s := by
  induction fuel generalizing off s with
  | zero => exact h
  | succ fuel ih =>
    rw [loadExecLoop]
    split_ifs
    · exact h
    rw [wp_bind]
    refine wp_imp (ok_fsRead n off _ h) fun _ s1 h1 => ?_
    refine wp_require_of trivial fun _ => ?_
    rw [wp_bind]
    exact wp_imp (ih _ h1) fun _ s2 h2 => h2

lemma ok_loadExecImage (n : ℕ) (h : s.memView.Ok held) :
    wp (loadExecImage n) (fun _ s' => s'.memView.Ok held) (fun _ => True) s := by
  rw [loadExecImage,wp_gets_bind]
  refine wp_require_of trivial fun _ => ?_
  split_ifs
  · exact h
  refine wp_require_of trivial fun _ => ?_
  rw [wp_bind,onPhys,wp_zoom]
  obtain ⟨k,hk⟩ : ∃ k, alignUp (s.inodes n).size=k*pageSize := ⟨_,rfl⟩
  rw [hk]
  refine wp_mono (wp_pmmAlloc_run h.phys k) (fun base ph hp => ?_) fun _ _ => trivial
  have h1 : (s.setPhys ph).memView.Ok held := by
    refine ⟨hp.ok,fun p => (h.counted p).trans ?_⟩
    change s.memView.phys.pageRefs p≤ph.pageRefs p
    rw [hp.refs p]
    split_ifs with hmem
    · rw [hp.fresh p hmem]
      exact Nat.zero_le _
    · exact le_rfl
  rw [wp_bind,wp_onFail]
  exact wp_mono (ok_loadExecLoop n _ _ 0 h1) (fun _ s2 h2 => h2) fun _ _ => trivial

end Image

/-- The bytes of the string at `p`, which a zero ends. -/
def IsCString (user : Buf) : ℕ → Bytes → Prop
  | p,[] => user p=0
  | p,b::bs => b≠0 ∧ user p=b ∧ IsCString user (p+1) bs

/-- The strings of the pointers from `ptr` on, which a null pointer ends. -/
def IsArgv (user : Buf) : ℕ → List Bytes → Prop
  | ptr,[] => ptr+8≤2^64 ∧ user.rdLe64 ptr=0
  | ptr,a::as => ptr+8≤2^64 ∧ user.rdLe64 ptr≠0 ∧ IsCString user (user.rdLe64 ptr) a ∧
      IsArgv user (ptr+8) as

/-- The strings that the caller gives; without a vector there are none. -/
def GivenArgv (user : Buf) (argvPtr : ℕ) (strs : List Bytes) : Prop :=
  if argvPtr=0 then strs=[] else IsArgv user argvPtr strs

instance decidableIsCString (user : Buf) : ∀ p a, Decidable (IsCString user p a)
  | p,[] => inferInstanceAs (Decidable (user p=0))
  | p,b::bs =>
    have := decidableIsCString user (p+1) bs
    inferInstanceAs (Decidable (b≠0 ∧ user p=b ∧ IsCString user (p+1) bs))

instance decidableIsArgv (user : Buf) : ∀ ptr as, Decidable (IsArgv user ptr as)
  | ptr,[] => inferInstanceAs (Decidable (ptr+8≤2^64 ∧ user.rdLe64 ptr=0))
  | ptr,a::as =>
    have := decidableIsArgv user (ptr+8) as
    inferInstanceAs (Decidable (ptr+8≤2^64 ∧ user.rdLe64 ptr≠0 ∧
      IsCString user (user.rdLe64 ptr) a ∧ IsArgv user (ptr+8) as))

instance decidableGivenArgv (user : Buf) (argvPtr : ℕ) (strs : List Bytes) :
    Decidable (GivenArgv user argvPtr strs) :=
  inferInstanceAs (Decidable (if argvPtr=0 then strs=[] else IsArgv user argvPtr strs))

section Strings
variable {user : Buf} {p fuel ptr : ℕ} {a l : Bytes} {strs : List Bytes}

lemma IsCString.ne_zero (h : IsCString user p a) : 0∉a := by
  induction a generalizing p with
  | nil => exact List.not_mem_nil
  | cons b bs ih =>
    rw [List.mem_cons,not_or]
    exact ⟨h.1.symm,ih h.2.2⟩

lemma userStrLoop_eq (h : IsCString user p a)
    (hl : userStrLoop user fuel p=some l) : l=a.take fuel := by
  induction fuel generalizing p a l with
  | zero =>
    rw [List.take_zero]
    exact (Option.some.inj hl).symm
  | succ fuel ih =>
    rw [userStrLoop,Option.ite_none_left_eq_some] at hl
    cases a with
    | nil =>
      have hz : user p=0 := h
      rw [if_pos hz] at hl
      exact (Option.some.inj hl.2).symm
    | cons b bs =>
      obtain ⟨hb,hp,hrest⟩ := h
      rw [hp,if_neg hb] at hl
      obtain ⟨r,hr,rfl⟩ := Option.map_eq_some_iff.1 hl.2
      rw [ih hrest hr,List.take_succ_cons]

lemma copyUserStr_eq {maxlen : ℕ} (h : IsCString user p a)
    (hl : copyUserStr user p maxlen=some l) : l=a.take (maxlen-1) := by
  rw [copyUserStr,Option.ite_none_right_eq_some] at hl
  obtain ⟨r,hr,rfl⟩ := Option.map_eq_some_iff.1 hl.2
  rw [userStrLoop_eq h hr,List.take_take,min_eq_left (Nat.sub_le _ _)]

lemma copyArgv_eq {l : List Bytes} (h : IsArgv user ptr strs)
    (hl : copyArgv user fuel ptr=some l) : l=(strs.take fuel).map (·.take (maxArgLen-1)) := by
  induction fuel generalizing ptr strs l with
  | zero => exact (Option.some.inj hl).symm
  | succ fuel ih =>
    rw [copyArgv,Option.ite_none_left_eq_some] at hl
    obtain ⟨hvalid,hl⟩ := hl
    cases strs with
    | nil =>
      rw [if_pos h.2] at hl
      exact (Option.some.inj hl).symm
    | cons a as =>
      obtain ⟨-,hptr,ha,has⟩ := h
      rw [if_neg hptr] at hl
      obtain ⟨b,hb,hl⟩ := Option.bind_eq_some_iff.1 hl
      obtain ⟨r,hr,rfl⟩ := Option.map_eq_some_iff.1 hl
      have hlt : ptr+8<2^64 := by
        have hlimit : userVaLimit<2^64 := by decide
        simp [userPtrValid] at hvalid
        omega
      rw [Nat.mod_eq_of_lt hlt] at hr
      rw [copyUserStr_eq ha hb,ih has hr,List.take_succ_cons,List.map_cons]

lemma IsArgv.length_lt (h : IsArgv user ptr strs) : ptr+8*strs.length<2^64 := by
  induction strs generalizing ptr with
  | nil =>
    have := h.1
    rw [List.length_nil]
    omega
  | cons a as ih =>
    have := ih h.2.2.2
    rw [List.length_cons]
    omega

lemma IsArgv.ne_zero (h : IsArgv user ptr strs) : ∀ a∈strs, (0 : UInt8)∉a := by
  induction strs generalizing ptr with
  | nil => simp
  | cons a as ih =>
    refine List.forall_mem_cons.2 ⟨h.2.2.1.ne_zero,ih h.2.2.2⟩

end Strings

section Paths

variable {out path : Bytes}

lemma length_joinPath {comps : List Bytes} (hout : out.length < maxPath)
    (h : joinPath comps out=some path) : path.length < maxPath := by
  induction comps generalizing out with
  | nil => exact Option.some.inj h ▸ hout
  | cons c rest ih =>
    rw [joinPath,Option.ite_none_left_eq_some] at h
    refine ih ?_ h.2
    split_ifs <;> simp only [List.length_append,List.length_cons] <;> omega

lemma length_normalizeAbsPath (h : normalizeAbsPath path=some out) : out.length < maxPath := by
  rw [normalizeAbsPath,Option.ite_none_right_eq_some] at h
  obtain ⟨comps,-,hjoin⟩ := Option.bind_eq_some_iff.1 h.2
  exact length_joinPath (by decide) hjoin

lemma length_resolvePath {cwd : Bytes} (h : resolvePath cwd path=some out) :
    out.length < maxPath := by
  rw [resolvePath] at h
  split_ifs at h
  · exact length_normalizeAbsPath h
  · exact length_normalizeAbsPath h
  · rw [Option.ite_none_left_eq_some] at h
    exact length_normalizeAbsPath h.2

lemma length_interp_used {image : Buf} {size : ℕ} {kpath interp : Bytes}
    (h : (elfInterpPath image size).used kpath=some interp) : interp.length < maxPath := by
  unfold elfInterpPath at h
  dsimp only at h
  split at h
  · split at h
    · cases h
    · rename_i ph _
      split at h
      · rename_i hph
        rw [InterpState.used,Option.ite_none_right_eq_some] at h
        rw [← Option.some.inj h.2]
        refine (List.takeWhile_sublist _).length_le.trans_lt ?_
        rw [List.length_map,List.length_range]
        exact hph.2.1
      · cases h
  · cases h

end Paths

section Cut

variable {l : List Bytes}

lemma map_take_eq_self {n : ℕ} (h : ∀ a∈l, a.length≤n) : l.map (·.take n)=l := by
  refine (List.map_congr_left fun a ha => List.take_of_length_le (h a ha)).trans (List.map_id _)

lemma kernelArgv_eq_self (hlen : l.length ≤ maxArgv)
    (h : ∀ a∈l, a.length ≤ maxArgLen-1) : kernelArgv l=l := by
  rw [kernelArgv,List.take_of_length_le hlen,map_take_eq_self h]

lemma kernelArgv_kernelArgv (l : List Bytes) : kernelArgv (kernelArgv l)=kernelArgv l := by
  refine kernelArgv_eq_self (length_kernelArgv_le l) fun a ha => ?_
  obtain ⟨b,-,rfl⟩ := List.mem_map.1 ha
  exact List.length_take_le _ _

lemma kernelArgv_append (own : List Bytes) {strs : List Bytes} (hown : own.length ≤ maxArgv)
    (hpaths : ∀ a∈own, a.length ≤ maxArgLen-1) : kernelArgv (own++kernelArgv strs)
      = own++(strs.take (maxArgv-own.length)).map (·.take (maxArgLen-1)) := by
  rw [kernelArgv,List.take_append,List.take_of_length_le hown,List.map_append,map_take_eq_self hpaths,
    kernelArgv,← List.map_take,List.take_take,min_eq_left (Nat.sub_le _ _),List.map_map]
  congr 2
  funext a
  simp [List.take_take]

end Cut

section Stack
variable {s s' : System} {t : TaskIx} {v w a n : ℕ}

lemma ofNat_div_inj (hv : v<2^64) (hw : w<2^64)
    (h : ∀ k, k<8 → UInt8.ofNat (v/2^(8*k))=UInt8.ofNat (w/2^(8*k))) : v=w := by
  have hbyte (k : ℕ) (hk : k<8) : v/2^(8*k)%256=w/2^(8*k)%256 := by
    have := congrArg UInt8.toNat (h k hk)
    simpa using this
  have h0 := hbyte 0 (by omega)
  have h1 := hbyte 1 (by omega)
  have h2 := hbyte 2 (by omega)
  have h3 := hbyte 3 (by omega)
  have h4 := hbyte 4 (by omega)
  have h5 := hbyte 5 (by omega)
  have h6 := hbyte 6 (by omega)
  have h7 := hbyte 7 (by omega)
  norm_num at h0 h1 h2 h3 h4 h5 h6 h7
  omega

lemma WordAt.unique (hv : WordAt s t a v) (hw : WordAt s t a w) (hv' : v<2^64)
    (hw' : w<2^64) : v=w :=
  ofNat_div_inj hv' hw' fun k hk => Option.some.inj ((hv k hk).symm.trans (hw k hk))

lemma ofNat_inj {b : ℕ} (ha : a<2^64) (hb : b<2^64) (h : UInt64.ofNat a=UInt64.ofNat b) : a=b := by
  have := congrArg UInt64.toNat h
  rwa [UInt64.toNat_ofNat_of_lt' ha,UInt64.toNat_ofNat_of_lt' hb] at this

lemma StackAt.unique {eh : Ehdr} {phdrAddr sp : ℕ} {as bs : List Bytes}
    (ha : StackAt s t eh phdrAddr as sp) (hb : StackAt s t eh phdrAddr bs sp)
    (has : as.length<2^64) (hbs : bs.length<2^64) :
    List.Forall₂ (fun a b => ∃ p, StringAt s t a p ∧ StringAt s t b p) as bs := by
  obtain ⟨ps,r,hps,hwords⟩ := ha
  obtain ⟨qs,r',hqs,hwords'⟩ := hb
  have hlen : as.length=bs.length := (hwords 0 _ rfl).unique (hwords' 0 _ rfl) has hbs
  have hpq : ps=qs := by
    refine List.ext_getElem (hps.length_eq.symm.trans (hlen.trans hqs.length_eq)) fun i hi hi' => ?_
    have hp := hwords (i+1) ps[i] (by simp [List.getElem?_append_left,hi])
    have hq := hwords' (i+1) qs[i] (by simp [List.getElem?_append_left,hi'])
    exact hp.unique hq (hps.get (by rwa [hps.length_eq]) hi).1 (hqs.get (by rwa [hqs.length_eq]) hi').1
  subst hpq
  clear hwords hwords' has hbs hlen
  induction hps generalizing bs with
  | nil =>
    cases hqs
    exact .nil
  | cons hp _ ih =>
    cases hqs with
    | cons hq hqs => exact .cons ⟨_,hp,hq⟩ (ih hqs)

lemma StringAt.length_le {a : Bytes} {p : ℕ} (hcut : StringAt s t (a.take n) p)
    (ha : StringAt s t a p) (hz : 0∉a) : a.length≤n := by
  by_contra hlt
  rw [not_le] at hlt
  have hlen : (a.take n).length=n := by rw [List.length_take,min_eq_left hlt.le]
  have hend := (hcut.2 n hlen.ge).symm.trans (ha.2 n hlt.le)
  rw [Option.some.injEq,cString,cString,List.getD_eq_getElem?_getD,List.getElem?_eq_none hlen.le,
    Option.getD_none,List.getD_eq_getElem?_getD,List.getElem?_eq_getElem hlt,Option.getD_some] at hend
  exact hz (hend ▸ List.getElem_mem hlt)

lemma uncut_of_forall2 {strs : List Bytes} {m : ℕ} (hz : ∀ a∈strs, (0 : UInt8)∉a)
    (h : List.Forall₂ (fun a b => ∃ p, StringAt s t a p ∧ StringAt s t b p)
      ((strs.take m).map (·.take n)) strs) : strs.length ≤ m ∧ ∀ a∈strs, a.length≤n := by
  have hlen := h.length_eq
  rw [List.length_map,List.length_take] at hlen
  have hm : strs.length ≤ m := by omega
  refine ⟨hm,?_⟩
  rw [List.take_of_length_le hm] at h
  clear hlen hm
  induction strs with
  | nil => simp
  | cons a as ih =>
    cases h with
    | cons ha has =>
      obtain ⟨p,hp,hp'⟩ := ha
      rw [List.forall_mem_cons] at hz ⊢
      exact ⟨hp.length_le hp' hz.1,ih hz.2 has⟩

end Stack

/-- What the new program finds: its stack pointer is a multiple of 16 and points to the number of
arguments, with the arguments and the auxiliary vector after it. -/
def InitialStack (s : System) (t : TaskIx) (image : ExecImage) (args : List Bytes) : Prop :=
  ∃ sp, sp<2^64 ∧ (s.tasks t).tf.spEl0=UInt64.ofNat sp ∧ sp%16=0 ∧
    StackAt s t (Ehdr.read image.image) (taskElfPhdrUserAddr (Ehdr.read image.image)
      (programHeaders image.image (Ehdr.read image.image)) image.size) args sp

section Call
variable {env : ExecEnv} {kpath : Bytes} {argvPtr pathPtr : ℕ} {strs : List Bytes}
variable {s s' : System} {t : TaskIx} {random : Buf}

/-- The arguments for `task_exec`: those of an interpreter, and as many of the given ones as there
is room for, or another one in place of none. -/
structure Handover (strs : List Bytes) (prog : ExecProgram) : Prop where
  own : prog.own.length=0 ∨ prog.own.length=2
  argv : ∃ rest, kernelArgv prog.argv=prog.own++rest ∧
    (rest=(strs.take (maxArgv-prog.own.length)).map (·.take (maxArgLen-1)) ∨ strs=[] ∧ rest≠[])

lemma GivenArgv.copied {argv : List Bytes} (h : GivenArgv env.user argvPtr strs)
    (hargv : (if argvPtr=0 then some [] else copyArgv env.user maxArgv argvPtr)=some argv) :
    argv=kernelArgv strs := by
  rw [GivenArgv] at h
  split_ifs at h hargv with hz
  · subst h
    exact (Option.some.inj hargv).symm
  · exact copyArgv_eq h hargv

lemma ok_lookupExecutable (path : Bytes) : Keeps id (lookupExecutable env path) := by
  unfold lookupExecutable
  split
  · exact .of_fail
  · exact .gets fun _ => .require fun _ => .of_pure _

lemma wp_openProgram (h : s.memView.Ok []) (hargv : GivenArgv env.user argvPtr strs)
    (hpath : kpath.length < maxPath) : wp (openProgram env kpath argvPtr)
      (fun prog s' => s'.memView.Ok [] ∧ Handover strs prog) (fun _ => True) s := by
  rw [openProgram,wp_bind]
  refine wp_mono (ok_lookupExecutable kpath).wp (fun n s1 hs1 => ?_) fun _ _ => trivial
  obtain rfl : s1=s := hs1
  split
  · trivial
  rename_i argv hcopy
  obtain rfl := hargv.copied hcopy
  rw [wp_bind]
  refine wp_imp (ok_loadExecImage n h) fun program s2 h2 => ?_
  split
  · exact ⟨h2,.inl rfl,_,kernelArgv_kernelArgv strs,.inl rfl⟩
  · rename_i interp hinterp
    have hlen := length_interp_used hinterp
    rw [wp_bind,wp_onFail,wp_bind]
    refine wp_mono (ok_lookupExecutable interp).wp (fun m s3 hs3 => ?_) fun _ _ => trivial
    obtain rfl : s3=s2 := hs3
    refine wp_mono (ok_loadExecImage m h2) (fun image s4 h4 => ?_) fun _ _ => trivial
    have hpaths : ∀ a∈[interp,kpath], a.length ≤ maxArgLen-1 := by
      simp only [List.forall_mem_cons,maxPath,maxArgLen] at hlen hpath ⊢
      exact ⟨by omega,by omega,by simp⟩
    refine ⟨h4,.inr rfl,?_⟩
    by_cases hstrs : strs=[]
    · subst hstrs
      refine ⟨[kpath],?_,.inr ⟨rfl,by simp⟩⟩
      have hsame : kernelArgv [interp,kpath,kpath]=[interp,kpath,kpath] :=
        kernelArgv_eq_self (by simp [maxArgv]) (by simpa using hpaths)
      exact (congrArg kernelArgv hsame).trans hsame
    · refine ⟨_,?_,.inl rfl⟩
      have hne : kernelArgv strs≠[] := by simpa [kernelArgv] using hstrs
      change kernelArgv (kernelArgv (interp::kpath::if kernelArgv strs=[] then [kpath] else _))=_
      rw [if_neg hne,kernelArgv_kernelArgv]
      exact kernelArgv_append [interp,kpath] (by simp [maxArgv]) hpaths

lemma GivenArgv.length_lt (h : GivenArgv env.user argvPtr strs) : strs.length<2^61 := by
  rw [GivenArgv] at h
  split_ifs at h
  · simp [h]
  · have := h.length_lt
    omega

lemma GivenArgv.ne_zero (h : GivenArgv env.user argvPtr strs) : ∀ a∈strs, (0 : UInt8)∉a := by
  rw [GivenArgv] at h
  split_ifs at h
  · simp [h]
  · exact h.ne_zero

lemma mem_foldl_pmmFreePage (l : List ℕ) (m : Phys) :
    (l.foldl (fun m p => pmmFreePage p m) m).mem=m.mem := by
  induction l generalizing m with
  | nil => rfl
  | cons p l ih => rw [List.foldl_cons,ih,mem_pmmFreePage]

lemma userRead_freeExecImagePages (pages : List ℕ) :
    (freeExecImagePages pages s).memView.userRead t=s.memView.userRead t :=
  userRead_congr rfl (mem_foldl_pmmFreePage pages s.phys)

lemma sysExecImpl_stack {prog : ExecProgram} {s1 : System} (hcur : s.current=some t)
    (hpath : (copyUserStr env.user pathPtr maxPath).bind (resolvePath env.cwd)=some kpath)
    (hprog : (openProgram env kpath argvPtr).run s=(some prog,s1)) (hok1 : s1.memView.Ok [])
    (hrun : (sysExecImpl env pathPtr argvPtr random).run s=(some (),s')) :
    ∃ sp, sp<2^64 ∧ (s'.tasks t).tf.spEl0=UInt64.ofNat sp ∧
      (sp%16=0 ↔ (kernelArgv prog.argv).length%2=1) ∧
      StackAt s' t (Ehdr.read prog.image.image) (taskElfPhdrUserAddr (Ehdr.read prog.image.image)
        (programHeaders prog.image.image (Ehdr.read prog.image.image)) prog.image.size)
        (kernelArgv prog.argv) sp := by
  have hwp : wp (sysExecImpl env pathPtr argvPtr random) (fun _ s' => ∃ sp, sp<2^64 ∧
      (s'.tasks t).tf.spEl0=UInt64.ofNat sp ∧
      (sp%16=0 ↔ (kernelArgv prog.argv).length%2=1) ∧
      StackAt s' t (Ehdr.read prog.image.image) (taskElfPhdrUserAddr (Ehdr.read prog.image.image)
        (programHeaders prog.image.image (Ehdr.read prog.image.image)) prog.image.size)
        (kernelArgv prog.argv) sp) (fun _ => True) s := by
    rw [sysExecImpl,wp_bind,currentTask,wp_gets_bind,hcur]
    dsimp only
    rw [wp_pure,hpath]
    dsimp only
    rw [wp_bind]
    refine wp_of_run hprog ?_
    rw [wp_bind,wp_attempt]
    refine wp_mono (taskExec_stack hok1) (fun _ s2 h2 => ?_) fun s2 _ => ?_
    · obtain ⟨-,sp,hsp,htf,halign,hstack⟩ := h2
      refine ⟨sp,hsp,htf,halign,hstack.congr ?_⟩
      rw [userRead_freeExecImagePages,userRead_freeExecImagePages]
    · trivial
  exact wp_some hwp hrun

/-- The program finds exactly the strings that were given, on an aligned stack, if their number is
odd and there is room for all of them. -/
theorem sysExecImpl_initialStack_iff {prog : ExecProgram} {s1 : System} (hok : s.memView.Ok [])
    (hcur : s.current=some t)
    (hpath : (copyUserStr env.user pathPtr maxPath).bind (resolvePath env.cwd)=some kpath)
    (hprog : (openProgram env kpath argvPtr).run s=(some prog,s1))
    (hargv : GivenArgv env.user argvPtr strs)
    (hrun : (sysExecImpl env pathPtr argvPtr random).run s=(some (),s')) :
    InitialStack s' t prog.image (prog.own++strs) ↔
      strs.length%2=1 ∧ strs.length ≤ maxArgv-prog.own.length ∧
        ∀ a∈strs, a.length ≤ maxArgLen-1 := by
  have hlen : kpath.length < maxPath := by
    obtain ⟨path,-,hresolve⟩ := Option.bind_eq_some_iff.1 hpath
    exact length_resolvePath hresolve
  obtain ⟨hok1,hown,rest,hrest,hcut⟩ := wp_some (wp_openProgram hok hargv hlen) hprog
  obtain ⟨sp,hsp,htf,halign,hstack⟩ := sysExecImpl_stack hcur hpath hprog hok1 hrun
  rw [hrest] at halign hstack
  rw [List.length_append] at halign
  constructor
  · rintro ⟨sp',hsp',htf',halign',hstack'⟩
    obtain rfl := ofNat_inj hsp' hsp (htf'.symm.trans htf)
    have hshort := hargv.length_lt
    have hrest' := hrest ▸ length_kernelArgv_le prog.argv
    have hsame := hstack.unique hstack' (by simp only [maxArgv] at hrest'; omega)
      (by rw [List.length_append]; omega)
    have hstrs : List.Forall₂ (fun a b => ∃ p, StringAt s' t a p ∧ StringAt s' t b p) rest strs := by
      have hdrop := List.forall₂_drop prog.own.length hsame
      rwa [List.drop_left,List.drop_left] at hdrop
    obtain rfl | ⟨rfl,hne⟩ := hcut
    · have huncut := uncut_of_forall2 hargv.ne_zero hstrs
      have hcount := hstrs.length_eq
      refine ⟨?_,huncut⟩
      have := halign.1 halign'
      omega
    · cases hstrs
      exact absurd rfl hne
  · rintro ⟨hodd,hroom,hshort⟩
    obtain rfl | ⟨rfl,-⟩ := hcut
    · rw [List.take_of_length_le hroom,map_take_eq_self hshort] at halign hstack
      exact ⟨sp,hsp,htf,halign.2 (by omega),hstack⟩
    · simp at hodd

end Call

/-- The page tables of `bareSpace` as pages in use. -/
def execPhys : Phys :=
  {Phys.init 0x40400000 with
    pageRefs := fun p => if p∈[0x40100000,0x40101000,0x40102000,0x40103000] then 1 else 0}

/-- One task and an executable file in memory. -/
def execMachine : System :=
  {System.single bareSpace with
    phys := execPhys
    inodes := fun _ => {Inode.zero with hasData := true, size := 120, capacity := 4096}
    backing := fun _ => onePageElf}

/-- The caller has the path `/p` and a vector of two pointers to the string `p`. -/
def execEnv : ExecEnv where
  user a := wordBytes [0x702f,0x400001,0x400001,0] (a-0x400000)
  cwd := [47]
  lookup path := if path=[47,112] then some 0 else none
  mode _ := 0o755

lemma own_execMachine {o : Owner} {p : ℕ} (ho : execMachine.memView.own o=some p) :
    ∃ k : Fin 4, o=.table 0 k ∧ p=0x40100000+k*pageSize := by
  have hmm (t : TaskIx) (ht : t≠0) : execMachine.memView.mm t=.zero := by
    simp [execMachine,System.memView,System.mm,System.single,ht,Task.zero]
  cases o with
  | page t i =>
    by_cases ht : t=0
    · subst ht
      cases ho
    · rw [MemView.own,hmm t ht] at ho
      cases ho
  | table t k =>
    by_cases ht : t=0
    · subst ht
      refine ⟨k,rfl,?_⟩
      fin_cases k <;> exact (Option.some.inj ho).symm
    · rw [MemView.own,hmm t ht] at ho
      fin_cases k <;> cases ho
  | stack t k =>
    by_cases ht : t=0
    · subst ht
      cases ho
    · simp [MemView.own,execMachine,System.memView,System.single,ht,Task.zero,nonNull] at ho
  | cache i => cases ho

lemma ok_execMachine : execMachine.memView.Ok [] := by
  constructor
  · refine ⟨List.nodup_nil,fun p hp => absurd hp List.not_mem_nil,fun p hp => ?_,by decide,by decide,
      by decide⟩
    have hmem : p∈[0x40100000,0x40101000,0x40102000,0x40103000] := by
      by_contra hnot
      exact hp (if_neg hnot)
    fin_cases hmem <;> exact ⟨by decide,by decide⟩
  · intro p
    rw [List.count_nil,Nat.add_zero]
    by_cases hp : ∃ k : Fin 4, p=0x40100000+k*pageSize
    · obtain ⟨k,rfl⟩ := hp
      have hone : execMachine.memView.phys.pageRefs (0x40100000+k*pageSize)=1 := by
        fin_cases k <;> rfl
      rw [hone]
      refine count_le_one fun o o' ho ho' => ?_
      obtain ⟨i,rfl,hi⟩ := own_execMachine ho
      obtain ⟨j,rfl,hj⟩ := own_execMachine ho'
      have hij : i=j := by
        simp only [pageSize] at hi hj
        omega
      rw [hij]
    · have hzero : count execMachine.memView.own p=0 := by
        refine Finset.sum_eq_zero fun o _ => if_neg fun ho => ?_
        obtain ⟨k,-,hk⟩ := own_execMachine ho
        exact hp ⟨k,hk⟩
      rw [hzero]
      exact Nat.zero_le _

lemma execEnv_path : (copyUserStr execEnv.user 0x400000 maxPath).bind (resolvePath execEnv.cwd)
    = some [47,112] := by decide +kernel

theorem sysExecImpl_initialStack_oneArg : ∃ prog s',
    (openProgram execEnv [47,112] 0x400010).run execMachine=(some prog,execMachine) ∧
    (sysExecImpl execEnv 0x400000 0x400010 Buf.zero).run execMachine=(some (),s') ∧
    InitialStack s' 0 prog.image (prog.own++[[112]]) := by
  have hopen : ((openProgram execEnv [47,112] 0x400010).run execMachine).1.map
      (fun prog => prog.own)=some [] := by decide +kernel
  have hrun : ((sysExecImpl execEnv 0x400000 0x400010 Buf.zero).run execMachine).1=some () := by
    decide +kernel
  obtain ⟨prog,hprog,hown⟩ := Option.map_eq_some_iff.1 hopen
  have hsame : (openProgram execEnv [47,112] 0x400010).run execMachine=(some prog,execMachine) :=
    run_of_fst hprog
  refine ⟨prog,_,hsame,run_of_fst hrun,?_⟩
  refine (sysExecImpl_initialStack_iff ok_execMachine rfl execEnv_path hsame (by decide +kernel)
    (run_of_fst hrun)).2 ?_
  rw [hown]
  decide

/-- With two arguments the stack pointer is no multiple of 16. -/
theorem sysExecImpl_twoArgs_misaligned : ∃ prog s', GivenArgv execEnv.user 0x400008 [[112],[112]] ∧
    (openProgram execEnv [47,112] 0x400008).run execMachine=(some prog,execMachine) ∧
    (sysExecImpl execEnv 0x400000 0x400008 Buf.zero).run execMachine=(some (),s') ∧
    (s'.tasks 0).tf.spEl0.toNat%16≠0 ∧ ¬InitialStack s' 0 prog.image (prog.own++[[112],[112]]) := by
  have hopen : ((openProgram execEnv [47,112] 0x400008).run execMachine).1.map
      (fun prog => (kernelArgv prog.argv).length)=some 2 := by decide +kernel
  have hrun : ((sysExecImpl execEnv 0x400000 0x400008 Buf.zero).run execMachine).1=some () := by
    decide +kernel
  obtain ⟨prog,hprog,hlen⟩ := Option.map_eq_some_iff.1 hopen
  have hsame : (openProgram execEnv [47,112] 0x400008).run execMachine=(some prog,execMachine) :=
    run_of_fst hprog
  obtain ⟨sp,hsp,htf,halign,-⟩ := sysExecImpl_stack (t := 0) rfl execEnv_path hsame ok_execMachine
    (run_of_fst hrun)
  have hmis : sp%16≠0 := fun h => by
    rw [halign,hlen] at h
    cases h
  refine ⟨prog,_,by decide +kernel,hsame,run_of_fst hrun,?_,?_⟩
  · rwa [htf,UInt64.toNat_ofNat_of_lt' hsp]
  · rintro ⟨sp',hsp',htf',halign',-⟩
    exact hmis (ofNat_inj hsp' hsp (htf'.symm.trans htf) ▸ halign')

end FuriOS
