import FuriOS.Task.ExecArgs

/-! The names of a path. `resolve_path` joins a path to the working directory in a buffer of 128
bytes and takes at most 31 bytes of every name; its result is the normal form of the joined path
only as long as these cuts leave the names alone. -/
namespace FuriOS

/-- A name is added to the names of a normal path. -/
def stepName (names : List Bytes) (name : Bytes) : List Bytes :=
  if name=[] ∨ name=[46] then names
  else if name=[46,46] then names.dropLast
  else names++[name]

/-- The names of the normal form: no empty names, no `.` and no `..`, which at the root stays
there. -/
def normalNames (path : Bytes) : List Bytes :=
  (path.splitOnP (· = 47)).foldl stepName []

def renderNames (names : List Bytes) : Bytes :=
  if names=[] then [47] else names.flatMap (47 :: ·)

def normalForm (path : Bytes) : Bytes := renderNames (normalNames path)

/-- The path that is meant: seen from the working directory unless it is absolute. -/
def joinedPath (cwd path : Bytes) : Bytes :=
  if path.head?=some 47 then path else if cwd=[47] then 47::path else cwd++47::path

def NormalName (name : Bytes) : Prop :=
  name≠[] ∧ name≠[46] ∧ name≠[46,46] ∧ 47∉name

section Names
variable {names : List Bytes} {path : Bytes} {name : Bytes}

lemma not_mem_splitOnP {l : Bytes} (h : l∈path.splitOnP (· = 47)) : 47∉l := by
  induction path generalizing l with
  | nil =>
    rw [List.splitOnP_nil,List.mem_singleton] at h
    simp [h]
  | cons b bs ih =>
    rw [List.splitOnP_cons_eq_if_modifyHead] at h
    split_ifs at h with hb
    · rcases List.mem_cons.1 h with rfl | h
      · exact List.not_mem_nil
      · exact ih h
    · cases hs : bs.splitOnP (· = 47) with
      | nil => exact absurd hs (List.splitOnP_ne_nil _ _)
      | cons first rest =>
        rw [hs,List.modifyHead_cons,List.mem_cons] at h
        rcases h with rfl | h
        · have hne : ¬47=b := fun he => hb (decide_eq_true he.symm)
          rw [List.mem_cons,not_or]
          exact ⟨hne,ih (hs ▸ List.mem_cons_self)⟩
        · exact ih (hs ▸ List.mem_cons_of_mem first h)

lemma stepName_normal (h : ∀ n∈names, NormalName n) (hname : 47∉name) :
    ∀ n∈stepName names name, NormalName n := by
  unfold stepName
  split_ifs with hdot hdots
  · exact h
  · exact fun n hn => h n (List.mem_of_mem_dropLast hn)
  · intro n hn
    rcases List.mem_append.1 hn with hn | hn
    · exact h n hn
    · rw [List.mem_singleton] at hn
      rw [not_or] at hdot
      exact hn ▸ ⟨hdot.1,hdot.2,hdots,hname⟩

lemma normalNames_normal (path : Bytes) : ∀ n∈normalNames path, NormalName n := by
  have hfold (l : List Bytes) (hl : ∀ n∈l, 47∉n) (names : List Bytes)
      (h : ∀ n∈names, NormalName n) : ∀ n∈l.foldl stepName names, NormalName n := by
    induction l generalizing names with
    | nil => exact h
    | cons n l ih =>
      rw [List.forall_mem_cons] at hl
      exact ih hl.2 _ (stepName_normal h hl.1)
  exact hfold _ (fun n hn => not_mem_splitOnP hn) [] (by simp)

lemma splitOnP_append (h : 47∉name) (path : Bytes) :
    (name++path).splitOnP (· = 47)=(path.splitOnP (· = 47)).modifyHead (name ++ ·) := by
  induction name with
  | nil =>
    cases hs : path.splitOnP (· = 47) with
    | nil => exact absurd hs (List.splitOnP_ne_nil _ _)
    | cons first rest => simp [hs]
  | cons b bs ih =>
    rw [List.mem_cons,not_or] at h
    rw [List.cons_append,List.splitOnP_cons_eq_if_modifyHead,if_neg (by simpa using Ne.symm h.1),
      ih h.2,List.modifyHead_modifyHead]
    rfl

lemma splitOnP_flatMap (h : ∀ n∈names, 47∉n) :
    (names.flatMap (47 :: ·)).splitOnP (· = 47)=[]::names := by
  induction names with
  | nil => rfl
  | cons n rest ih =>
    rw [List.forall_mem_cons] at h
    rw [List.flatMap_cons,List.cons_append,List.splitOnP_cons_eq_if_modifyHead,if_pos (by simp),
      splitOnP_append h.1,ih h.2,List.modifyHead_cons,List.append_nil]

lemma renderNames_inj {names' : List Bytes} (h : ∀ n∈names, NormalName n)
    (h' : ∀ n∈names', NormalName n) (heq : renderNames names=renderNames names') :
    names=names' := by
  have hlen (l : List Bytes) (hl : ∀ n∈l, NormalName n) (he : l≠[]) : l.flatMap (47 :: ·)≠[47] := by
    cases l with
    | nil => exact absurd rfl he
    | cons n rest =>
      have hn := (List.forall_mem_cons.1 hl).1.1
      simp [List.flatMap_cons,hn]
  unfold renderNames at heq
  split_ifs at heq with hn hn' hn'
  · exact hn.trans hn'.symm
  · exact absurd heq.symm (hlen names' h' hn')
  · exact absurd heq (hlen names h hn)
  · have hsplit := congrArg (List.splitOnP (· = 47)) heq
    rw [splitOnP_flatMap fun n hn => (h n hn).2.2.2,splitOnP_flatMap fun n hn => (h' n hn).2.2.2] at hsplit
    exact (List.cons.inj hsplit).2

end Names

section Resolve
variable {comps : List Bytes} {path out : Bytes} {l comps' : List Bytes}

lemma joinPath_eq (hout : 1<out.length) (h : joinPath l out=some path) :
    path=out++l.flatMap (47 :: ·) := by
  induction l generalizing out with
  | nil =>
    rw [List.flatMap_nil,List.append_nil]
    exact (Option.some.inj h).symm
  | cons c rest ih =>
    rw [joinPath,Option.ite_none_left_eq_some,if_pos hout] at h
    rw [ih (by rw [List.length_append]; omega) h.2,List.flatMap_cons,List.append_assoc]

lemma joinPath_root (hcomps : ∀ n∈comps, n≠[]) (h : joinPath comps [47]=some path) :
    path=renderNames comps := by
  cases comps with
  | nil => exact (Option.some.inj h).symm
  | cons c rest =>
    have hc : 0<c.length := List.length_pos_of_ne_nil (hcomps c List.mem_cons_self)
    rw [joinPath,Option.ite_none_left_eq_some,if_neg (by simp)] at h
    rw [joinPath_eq (by rw [List.length_append,List.length_singleton]; omega) h.2,renderNames,
      if_neg (List.cons_ne_nil _ _)]
    rfl

lemma pushComponent_eq {name : Bytes}
    (h : pushComponent comps name=some comps') : comps'=stepName comps (name.take inodeNameMax) := by
  unfold pushComponent stepName at *
  dsimp only at h
  split_ifs at h ⊢ <;> simp_all

lemma foldlM_pushComponent (h : l.foldlM pushComponent comps=some comps') :
    comps'=(l.map (·.take inodeNameMax)).foldl stepName comps := by
  induction l generalizing comps with
  | nil => exact (Option.some.inj h).symm
  | cons n l ih =>
    rw [List.foldlM_cons] at h
    obtain ⟨next,hnext,h⟩ := Option.bind_eq_some_iff.1 h
    rw [ih h,pushComponent_eq hnext]
    rfl

lemma take_eq_iff {n l : Bytes} {k : ℕ} (hl : l.length<k) : n.take k=l ↔ n=l := by
  constructor
  · rintro rfl
    rw [List.length_take] at hl
    rw [List.take_of_length_le (by omega)]
  · rintro rfl
    exact List.take_of_length_le hl.le

lemma foldl_stepName_take (l names : List Bytes) :
    (l.map (·.take inodeNameMax)).foldl stepName (names.map (·.take inodeNameMax))
      = (l.foldl stepName names).map (·.take inodeNameMax) := by
  induction l generalizing names with
  | nil => rfl
  | cons n l ih =>
    have hstep : stepName (names.map (·.take inodeNameMax)) (n.take inodeNameMax)
        = (stepName names n).map (·.take inodeNameMax) := by
      simp only [stepName,take_eq_iff (n := n) (l := []) (k := inodeNameMax) (by decide),
        take_eq_iff (n := n) (l := [46]) (k := inodeNameMax) (by decide),
        take_eq_iff (n := n) (l := [46,46]) (k := inodeNameMax) (by decide)]
      split_ifs
      · rfl
      · exact List.map_dropLast.symm
      · rw [List.map_append,List.map_singleton]
    rw [List.map_cons,List.foldl_cons,List.foldl_cons,hstep,ih]

lemma normalizeAbsPath_eq (h : normalizeAbsPath path=some out) :
    out=renderNames ((normalNames path).map (·.take inodeNameMax)) := by
  rw [normalizeAbsPath,Option.ite_none_right_eq_some] at h
  obtain ⟨comps,hfold,hjoin⟩ := Option.bind_eq_some_iff.1 h.2
  have hcomps : comps=(normalNames path).map (·.take inodeNameMax) := by
    rw [foldlM_pushComponent hfold,normalNames,← foldl_stepName_take,List.map_nil]
  rw [hcomps] at hjoin
  refine joinPath_root (fun n hn => ?_) hjoin
  obtain ⟨m,hm,rfl⟩ := List.mem_map.1 hn
  have hne := (normalNames_normal path m hm).1
  rwa [Ne,take_eq_iff (by decide)]

lemma resolvePath_eq {cwd : Bytes} (h : resolvePath cwd (path.take (maxPath-1))=some out) :
    normalizeAbsPath ((joinedPath cwd path).take (maxPath-1))=some out := by
  have hhead : (path.take (maxPath-1)).head?=path.head? := by
    cases path <;> rfl
  rw [resolvePath,hhead] at h
  rw [joinedPath]
  split_ifs at h ⊢
  · exact h
  · rw [List.take_take] at h
    exact h
  · rw [Option.ite_none_left_eq_some] at h
    obtain ⟨hroom,h⟩ := h
    rw [List.length_take] at hroom h
    have hcwd : cwd.length < maxPath-1 := by omega
    rw [List.take_of_length_le hcwd.le,min_eq_right hcwd.le,List.take_take] at h
    rw [List.take_append,List.take_of_length_le hcwd.le]
    obtain ⟨k,hk⟩ : ∃ k, maxPath-1-cwd.length=k+1 := ⟨maxPath-1-cwd.length-1,by omega⟩
    rw [hk,List.take_succ_cons]
    rwa [min_eq_left (by omega),show maxPath-2-cwd.length=k by omega] at h

end Resolve

/-- A path is resolved to its normal form exactly if cutting the joined path to 127 bytes and the
names to 31 bytes leaves the names of the normal form. -/
theorem resolvePath_normalForm_iff {user : Buf} {ptr : ℕ} {cwd path out : Bytes}
    (hpath : IsCString user ptr path)
    (hout : (copyUserStr user ptr maxPath).bind (resolvePath cwd)=some out) :
    out=normalForm (joinedPath cwd path) ↔
      (normalNames ((joinedPath cwd path).take (maxPath-1))).map (·.take inodeNameMax)
        = normalNames (joinedPath cwd path) := by
  obtain ⟨str,hstr,hresolve⟩ := Option.bind_eq_some_iff.1 hout
  rw [copyUserStr_eq hpath hstr] at hresolve
  rw [normalizeAbsPath_eq (resolvePath_eq hresolve)]
  constructor
  · intro heq
    refine renderNames_inj (fun n hn => ?_) (normalNames_normal _) heq
    obtain ⟨m,hm,rfl⟩ := List.mem_map.1 hn
    obtain ⟨hne,hdot,hdots,hslash⟩ := normalNames_normal _ m hm
    refine ⟨?_,?_,?_,fun h47 => hslash (List.mem_of_mem_take h47)⟩
    · rwa [Ne,take_eq_iff (by decide)]
    · rwa [Ne,take_eq_iff (by decide)]
    · rwa [Ne,take_eq_iff (by decide)]
  · intro heq
    rw [heq,normalForm]

def userString (str : Bytes) : Buf := fun a => str.getD (a-userVaBase) 0

theorem resolvePath_normalForm_dots :
    (copyUserStr (userString [97,47,46,46,47,98]) userVaBase maxPath).bind (resolvePath [47,100])
      = some (normalForm (joinedPath [47,100] [97,47,46,46,47,98])) := by
  have hout : (copyUserStr (userString [97,47,46,46,47,98]) userVaBase maxPath).bind
      (resolvePath [47,100])=some [47,100,47,98] := by decide +kernel
  have hpath : IsCString (userString [97,47,46,46,47,98]) userVaBase [97,47,46,46,47,98] := by
    decide +kernel
  rw [hout,(resolvePath_normalForm_iff hpath hout).2 (by decide +kernel)]

/-- A name of 32 bytes loses its last byte, so that two files have one path. -/
theorem resolvePath_cuts_name : let long := 47::List.replicate 32 97
    let short := 47::List.replicate 31 97
    normalForm long=long ∧ normalForm short=short ∧ long≠short ∧
    (copyUserStr (userString long) userVaBase maxPath).bind (resolvePath [47])=some short ∧
    (copyUserStr (userString short) userVaBase maxPath).bind (resolvePath [47])=some short := by
  decide +kernel

end FuriOS
