import Mathlib.Tactic

/-! The command lines of the shell (`user/sh.c`): `lex_line` cuts a line into words and removes the
quotes, `parse_line` makes commands of the words. -/
namespace FuriOS.User

abbrev Word : Type := List UInt8

abbrev shMaxTokens : ℕ := 64
abbrev shMaxCmds : ℕ := 8
abbrev shMaxArgs : ℕ := 16
abbrev shMaxWords : ℕ := 2048
abbrev shMaxLine : ℕ := 512

def isSpace (c : UInt8) : Bool := c=32 || c=9

/-- `|`, `<` and `>` -/
def isOpChar (c : UInt8) : Bool := c=124 || c=60 || c=62

structure ShellCmd where
  argv : List Word
  inPath : Option Word
  outPath : Option Word
  outAppend : Bool
  deriving DecidableEq

def ShellCmd.reset : ShellCmd := ⟨[],none,none,false⟩

/-- Where `lex_line` is: outside of quotes, in quotes, behind a backslash, or behind the first
character of `>>`. -/
inductive LexMode
  | plain
  | escape
  | append
  | single
  | double
  | doubleEscape

/-- `lex_line` on the rest of a line (without its NUL): `room` is what is left of the buffer for the
words, `tokens` are the words so far and `cur` is the word that was begun. -/
def lexLine (room : ℕ) (tokens : List Word) (cur : Option Word) : LexMode → List UInt8 → Option (List Word)
  | .plain,[] => some (tokens++cur.toList)
  | .plain,c::p =>
    let closed := tokens++cur.toList
    let left := room-cur.toList.length
    if isSpace c then lexLine left closed none .plain p
    else if isOpChar c then
      if shMaxTokens-1≤closed.length then none
      else if c=62 ∧ p.head?=some 62 then
        if left<3 then none else lexLine (left-3) (closed++[[62,62]]) none .append p
      else if left<2 then none
      else lexLine (left-2) (closed++[[c]]) none .plain p
    else if cur=none ∧ shMaxTokens-1≤tokens.length then none
    else if room<2 then none
    else
      let w := cur.getD []
      if c=92 ∧ p≠[] then lexLine room tokens (some w) .escape p
      else if c=39 then lexLine room tokens (some w) .single p
      else if c=34 then lexLine room tokens (some w) .double p
      else lexLine (room-1) tokens (some (w++[c])) .plain p
  | .escape,c::p => lexLine (room-1) tokens (cur.map (·++[c])) .plain p
  | .append,_::p => lexLine room tokens none .plain p
  | .single,c::p =>
    if c=39 then lexLine room tokens cur .plain p
    else if room<2 then none
    else lexLine (room-1) tokens (cur.map (·++[c])) .single p
  | .double,c::p =>
    if c=34 then lexLine room tokens cur .plain p
    else if c=92 ∧ p≠[] then lexLine room tokens cur .doubleEscape p
    else if room<2 then none
    else lexLine (room-1) tokens (cur.map (·++[c])) .double p
  | .doubleEscape,c::p =>
    if room<2 then none else lexLine (room-1) tokens (cur.map (·++[c])) .double p
  -- the quotes are not closed
  | _,[] => none

/-- The words that `parse_line` takes for operators. -/
def operators : List Word := [[124],[60],[62],[62,62]]

def ShellCmd.redirect (cmd : ShellCmd) (op path : Word) : ShellCmd :=
  if op=[60] then {cmd with inPath := some path}
  else {cmd with outPath := some path, outAppend := op=[62,62]}

/-- The loop of `parse_line` behind the commands `done`, in the command `cmd`; `redir` is the
operator that a path must follow. -/
def parseTokens (done : List ShellCmd) (cmd : ShellCmd) : Option Word → List Word → Option (List ShellCmd)
  | none,[] => if cmd.argv=[] then none else some (done++[cmd])
  | some _,[] => none
  | some op,path::ts => if path∈operators then none else parseTokens done (cmd.redirect op path) none ts
  | none,t::ts =>
    if t=[124] then
      if cmd.argv=[] ∨ shMaxCmds≤done.length+1 then none else parseTokens (done++[cmd]) .reset none ts
    else if t∈operators then parseTokens done cmd (some t) ts
    else if shMaxArgs-1≤cmd.argv.length then none
    else parseTokens done {cmd with argv := cmd.argv++[t]} none ts

def parseLine (line : List UInt8) : Option (List ShellCmd) :=
  (lexLine shMaxWords [] none .plain line).bind fun tokens =>
    if tokens=[] then some [] else parseTokens [] .reset none tokens

/-- The words, each in single quotes, with spaces between them. -/
def quoted : List Word → List UInt8
  | [] => []
  | [w] => 39::w++[39]
  | w::v::ws => 39::w++39::32::quoted (v::ws)

section Quoted
variable {room : ℕ} {tokens ws : List Word} {w cur : Word} {rest : List UInt8} {done cmds : List ShellCmd}
variable {cmd : ShellCmd} {redir : Option Word}

lemma lexLine_single (hw : (39 : UInt8)∉w) (hroom : w.length<room) :
    lexLine room tokens (some cur) .single (w++39::rest) =
      lexLine (room-w.length) tokens (some (cur++w)) .plain rest := by
  induction w generalizing room cur with
  | nil => simp [lexLine]
  | cons c w ih =>
    simp only [List.mem_cons,not_or,List.length_cons] at hw hroom
    rw [List.cons_append,lexLine,if_neg (Ne.symm hw.1),if_neg (by omega),Option.map_some,
      ih hw.2 (by omega),List.append_assoc]
    congr 1
    simp only [List.length_cons]
    omega

lemma lexLine_word (hw : (39 : UInt8)∉w) (hroom : w.length+1<room) (htok : tokens.length<63) :
    lexLine room tokens none .plain (39::w++39::rest) =
      lexLine (room-w.length) tokens (some w) .plain rest := by
  have hs : isSpace 39=false := by decide
  have ho : isOpChar 39=false := by decide
  rw [List.cons_append,lexLine]
  simp only [hs,ho,Bool.false_eq_true,if_false,true_and]
  rw [if_neg (by simpa using htok),if_neg (by omega)]
  exact lexLine_single hw (by omega)

lemma lexLine_quoted (hws : ∀ w∈ws, (39 : UInt8)∉w) (hne : ws≠[])
    (hroom : (quoted ws).length<room) (htok : tokens.length+ws.length≤63) :
    lexLine room tokens none .plain (quoted ws)=some (tokens++ws) := by
  induction ws generalizing room tokens with
  | nil => exact absurd rfl hne
  | cons w ws ih =>
    have hw := hws w List.mem_cons_self
    simp only [List.length_cons] at htok
    cases ws with
    | nil =>
      simp only [quoted,List.length_cons,List.length_append] at hroom
      rw [quoted,lexLine_word hw (by omega) (by omega)]
      rfl
    | cons v ws =>
      simp only [quoted,List.length_cons,List.length_append] at hroom
      rw [quoted,lexLine_word hw (by omega) (by omega),lexLine,if_pos (by decide)]
      simp only [Option.toList_some,List.length_singleton]
      rw [ih (fun x hx => hws x (List.mem_cons_of_mem _ hx)) (List.cons_ne_nil _ _) (by omega)
        (by simp only [List.length_append,List.length_cons,List.length_nil] at htok ⊢; omega)]
      simp

lemma parseTokens_words (hws : ∀ w∈ws, w∉operators) (hlen : cmd.argv.length+ws.length≤15)
    (hne : cmd.argv++ws≠[]) :
    parseTokens done cmd none ws=some (done++[{cmd with argv := cmd.argv++ws}]) := by
  induction ws generalizing cmd with
  | nil =>
    rw [List.append_nil] at hne
    simp [parseTokens,hne]
  | cons t ts ih =>
    have ht := hws t List.mem_cons_self
    have hpipe : t≠[124] := fun h => ht (by simp [h,operators])
    simp only [List.length_cons] at hlen
    rw [parseTokens,if_neg hpipe,if_neg ht,if_neg (by simp only [shMaxArgs]; omega),
      ih (fun w hw => hws w (List.mem_cons_of_mem _ hw)) (by simp; omega) (by simp)]
    simp

/-- No operator gets into an argument vector. -/
lemma parseTokens_argv (h : parseTokens done cmd redir ws=some cmds)
    (hdone : ∀ c∈done, ∀ w∈c.argv, w∉operators) (hcmd : ∀ w∈cmd.argv, w∉operators) :
    ∀ c∈cmds, ∀ w∈c.argv, w∉operators := by
  induction ws generalizing done cmd redir with
  | nil =>
    cases redir with
    | some op => cases h
    | none =>
      rw [parseTokens] at h
      split_ifs at h
      cases h
      simpa [or_imp,forall_and] using And.intro hdone hcmd
  | cons t ts ih =>
    cases redir with
    | some op =>
      rw [parseTokens] at h
      split_ifs at h
      refine ih h hdone ?_
      rw [ShellCmd.redirect]
      split_ifs <;> exact hcmd
    | none =>
      rw [parseTokens] at h
      split_ifs at h with hpipe hc hop hfull
      · refine ih h ?_ (by simp [ShellCmd.reset])
        simpa [or_imp,forall_and] using And.intro hdone hcmd
      · exact ih h hdone hcmd
      · refine ih h hdone ?_
        simpa [or_imp,forall_and] using And.intro hcmd hop

theorem parseLine_quoted_iff (hlen : 1≤ws.length ∧ ws.length≤15)
    (hws : ∀ w∈ws, (39 : UInt8)∉w ∧ (0 : UInt8)∉w) (hline : (quoted ws).length<shMaxLine) :
    parseLine (quoted ws)=some [⟨ws,none,none,false⟩] ↔ ∀ w∈ws, w∉operators := by
  have hne : ws≠[] := List.length_pos_iff.1 hlen.1
  have hroom : (quoted ws).length<shMaxWords := hline.trans (by decide)
  rw [parseLine,lexLine_quoted (fun w hw => (hws w hw).1) hne hroom (by simp; omega),
    Option.bind_some,List.nil_append,if_neg hne]
  constructor
  · intro h
    exact parseTokens_argv h (by simp) (by simp [ShellCmd.reset]) _ (List.mem_singleton_self _)
  · intro h
    rw [parseTokens_words h (by simpa [ShellCmd.reset] using hlen.2) (by simpa [ShellCmd.reset] using hne)]
    rfl

end Quoted

/-- The line `'echo' '|' 'ls'` is taken for a pipeline of two commands. -/
theorem parseLine_quoted_pipe : parseLine (quoted [[101,99,104,111],[124],[108,115]]) =
      some [⟨[[101,99,104,111]],none,none,false⟩,⟨[[108,115]],none,none,false⟩] := by
  decide +kernel

theorem parseLine_quoted_space :
    parseLine (quoted [[101,99,104,111],[97,32,124]])=some [⟨[[101,99,104,111],[97,32,124]],none,none,false⟩] :=
  (parseLine_quoted_iff (by decide) (by decide) (by decide)).2 (by decide)

end FuriOS.User
