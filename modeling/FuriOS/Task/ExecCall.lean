import FuriOS.FileIO
import FuriOS.Task.Exec

/-! The exec system call of `kernel/syscall.c`: it takes path and arguments from the caller,
finds the program and its interpreter and starts one of them with `task_exec`. -/
namespace FuriOS

abbrev maxPath : ℕ := 128
abbrev inodeNameMax : ℕ := 31
abbrev ptInterp : ℕ := 3

def userPtrValid (ptr len : ℕ) : Bool := len=0 || userVaBase≤ptr && ptr+len≤userVaLimit

/-- The loop of `copy_user_str`: the bytes before a zero, at most `fuel` of them. -/
def userStrLoop (user : Buf) : ℕ → ℕ → Option Bytes
  | 0,_ => some []
  | fuel+1,p =>
    if userVaLimit≤p then none
    else if user p=0 then some []
    else (userStrLoop user fuel (p+1)).map (user p :: ·)

/-- `copy_user_str`: the last byte of the destination is overwritten by a zero if none was found. -/
def copyUserStr (user : Buf) (src maxlen : ℕ) : Option Bytes :=
  if userPtrValid src 1 then (userStrLoop user maxlen src).map (·.take (maxlen-1)) else none

/-- The loop of `sys_exec_impl` over the argument pointers. -/
def copyArgv (user : Buf) : ℕ → ℕ → Option (List Bytes)
  | 0,_ => some []
  | fuel+1,ptr =>
    if !userPtrValid ptr 8 then none
    else if user.rdLe64 ptr=0 then some []
    else (copyUserStr user (user.rdLe64 ptr) maxArgLen).bind fun a =>
      (copyArgv user fuel ((ptr+8)%2^64)).map (a :: ·)

/-- One component of a path in `normalize_abs_path`; a long one is cut. -/
def pushComponent (comps : List Bytes) (name : Bytes) : Option (List Bytes) :=
  let comp := name.take inodeNameMax
  if comp=[] ∨ comp=[46] then some comps
  else if comp=[46,46] then some comps.dropLast
  else if 16≤comps.length then none
  else some (comps++[comp])

def joinPath : List Bytes → Bytes → Option Bytes
  | [],out => some out
  | c::rest,out =>
    if maxPath≤out.length+c.length+1 then none
    else joinPath rest (out++if 1<out.length then 47::c else c)

def normalizeAbsPath (path : Bytes) : Option Bytes :=
  if path.head?=some 47 then
    ((path.splitOnP (· = 47)).foldlM pushComponent []).bind fun comps => joinPath comps [47]
  else none

def resolvePath (cwd path : Bytes) : Option Bytes :=
  if path.head?=some 47 then normalizeAbsPath path
  else if cwd=[47] then normalizeAbsPath (47::path.take (maxPath-2))
  else
    let joined := cwd.take (maxPath-1)
    if maxPath≤joined.length+1 then none
    else normalizeAbsPath (joined++47::path.take (maxPath-2-joined.length))

/-- The results of `elf_interp_path`: -1, 0, or 1 with a path. -/
inductive InterpState
  | malformed
  | absent
  | present (path : Bytes)

def elfInterpPath (image : Buf) (size : ℕ) : InterpState :=
  let eh := Ehdr.read image
  if 64 ≤ size ∧ image 0=0x7f ∧ image 1=69 ∧ image 2=76 ∧ image 3=70 ∧ image 4=2
      ∧ eh.eMachine=183 ∧ eh.ePhentsize=56
      ∧ eh.ePhoff ≤ size ∧ eh.ePhnum*eh.ePhentsize ≤ size-eh.ePhoff then
    match (programHeaders image eh).find? (·.pType=ptInterp) with
    | none => .absent
    | some ph =>
      if ph.pFilesz≠0 ∧ ph.pFilesz < maxPath ∧ ph.pOffset ≤ size ∧ ph.pFilesz ≤ size-ph.pOffset
          ∧ image ph.pOffset=47 then
        .present (((List.range ph.pFilesz).map fun i => image (ph.pOffset+i)).takeWhile (· ≠ 0))
      else .malformed
  else .malformed

/-- The interpreter that is used for the program with the path `kpath`. -/
def InterpState.used (kpath : Bytes) : InterpState → Option Bytes
  | .present path => if kpath≠path then some path else none
  | _ => none

/-- The arguments of an interpreter: its own path, that of the program and the arguments of the
program, or once more its path if there are none. -/
def interpArgv (interp kpath : Bytes) (argv : List Bytes) : List Bytes :=
  ((interp::kpath::if argv=[] then [kpath] else argv).take maxArgv).map (·.take (maxArgLen-1))

/-- What the call reads beside the state of the kernel: the memory of the caller, its working
directory and the tree of names with the modes of the inodes. -/
structure ExecEnv where
  user : Buf
  cwd : Bytes
  lookup : Bytes → Option ℕ
  mode : ℕ → ℕ

def lookupExecutable (env : ExecEnv) (path : Bytes) : TaskM ℕ := do
  match env.lookup path with
  | none => .fail
  | some n =>
    let ino ← .gets fun s => s.inodes n
    .require (ino.type=.file && hasBits (env.mode n) 0o111)
    pure n

/-- What `sys_exec_impl` hands to `task_exec`: an image and its arguments, the first of which
belong to the interpreter. The pages of the program are freed after those of the image. -/
structure ExecProgram where
  image : ExecImage
  argv : List Bytes
  own : List Bytes
  programPages : List ℕ

/-- The part of `sys_exec_impl` after the path is known. -/
def openProgram (env : ExecEnv) (kpath : Bytes) (argvPtr : ℕ) : TaskM ExecProgram := do
  let n ← lookupExecutable env kpath
  match (if argvPtr=0 then some [] else copyArgv env.user maxArgv argvPtr) with
  | none => .fail
  | some argv =>
    let program ← loadExecImage n
    match (elfInterpPath program.image program.size).used kpath with
    | none => pure ⟨program,argv,[],[]⟩
    | some interp =>
      let image ← (lookupExecutable env interp >>= loadExecImage).onFail
        (freeExecImagePages program.owned)
      pure ⟨image,interpArgv interp kpath argv,[interp,kpath],program.owned⟩

def sysExecImpl (env : ExecEnv) (pathPtr argvPtr : ℕ) (random : Buf) : TaskM Unit := do
  let t ← currentTask
  match (copyUserStr env.user pathPtr maxPath).bind (resolvePath env.cwd) with
  | none => .fail
  | some kpath =>
    let prog ← openProgram env kpath argvPtr
    let rc ← (taskExec t prog.image.image prog.image.size prog.argv random).attempt
    .modify (freeExecImagePages prog.image.owned)
    .modify (freeExecImagePages prog.programPages)
    .require rc.isSome

end FuriOS
