import Mathlib.Tactic

/-! The resolver of `user/lib/netdb.c`: the query it sends, the responses it reads, and which
datagrams decide its answer. -/
namespace FuriOS.User.Netdb

def dnsMaxPacket : ℕ := 512
def dnsMaxPolls : ℕ := 20
def netdbEinval : ℕ := 22
def netdbEnoent : ℕ := 2
def netdbEtimedout : ℕ := 110

abbrev Bytes : Type := List UInt8

def be16 (pkt : Bytes) (off : ℕ) : ℕ := (pkt.getD off 0).toNat*2^8+(pkt.getD (off+1) 0).toNat

/-- The labels of the name, each after its length; `fuel` bounds the rounds. -/
def encodeLoop : ℕ → Bytes → Bytes → Option Bytes
  | 0,_,_ => none
  | fuel+1,cur,buf =>
    if cur=[] then some buf else
      let label := cur.takeWhile (· ≠ 46)
      if label=[] ∨ 63<label.length ∨ dnsMaxPacket≤buf.length+1+label.length then none
      else match cur.dropWhile (· ≠ 46) with
        | [] => some (buf++UInt8.ofNat label.length::label)
        | _::rest => encodeLoop fuel rest (buf++UInt8.ofNat label.length::label)

def dnsEncodeName (name buf : Bytes) : Option Bytes := do
  if name=[] then none else
    let buf ← encodeLoop (name.length+1) name buf
    if dnsMaxPacket≤buf.length then none else some (buf++[0])

/-- The header of a query with one question. -/
def queryHeader (id : ℕ) : Bytes := [UInt8.ofNat (id/2^8),UInt8.ofNat id,1,0,0,1,0,0,0,0,0,0]

def queryPacket (id : ℕ) (name : Bytes) : Option Bytes := do
  let pkt ← dnsEncodeName name (queryHeader id)
  if dnsMaxPacket<pkt.length+4 then none else some (pkt++[0,1,0,1])

/-- `loops` counts the labels that may still follow. -/
def dnsSkipName (pkt : Bytes) (loops pos : ℕ) : Option ℕ :=
  match pkt[pos]? with
  | none => none
  | some len =>
    if len=0 then some (pos+1)
    else if len &&& 0xC0=0xC0 then (if pkt.length≤pos+1 then none else some (pos+2))
    else if len &&& 0xC0≠0 ∨ pkt.length<pos+1+len.toNat then none
    else match loops with
      | 0 => none
      | loops+1 => dnsSkipName pkt loops (pos+1+len.toNat)

def skipQuestions (pkt : Bytes) : ℕ → ℕ → Option ℕ
  | 0,off => some off
  | n+1,off => do
    let off ← dnsSkipName pkt 128 off
    if pkt.length<off+4 then none else skipQuestions pkt n (off+4)

/-- The first address record among the answers. -/
def findA (pkt : Bytes) : ℕ → ℕ → Option ℕ
  | 0,_ => none
  | n+1,off => do
    let off ← dnsSkipName pkt 128 off
    if pkt.length<off+10 then none
    else if pkt.length<off+10+be16 pkt (off+8) then none
    else if be16 pkt off=1 ∧ be16 pkt (off+2)=1 ∧ be16 pkt (off+8)=4 then
      some (be16 pkt (off+10)*2^16+be16 pkt (off+12))
    else findA pkt n (off+10+be16 pkt (off+8))

def dnsExtractA (pkt : Bytes) (expectId : ℕ) : Option ℕ :=
  if pkt.length<12 ∨ be16 pkt 0≠expectId ∨ be16 pkt 2 &&& 0x8000=0 ∨ be16 pkt 2 &&& 0xF≠0 then none
  else do
    let off ← skipQuestions pkt (be16 pkt 4) 12
    findA pkt (be16 pkt 6) off

structure Datagram where
  addr : ℕ
  port : ℕ
  bytes : Bytes

/-- What one round of polling brings: `poll` fails, nothing is there, a datagram, `recvfrom` fails, or
the socket is in error. -/
inductive Poll
  | failed
  | nothing
  | data (d : Datagram)
  | recvFailed
  | error

/-- An address, an error number, or the failure of a system call with its own error. -/
inductive Answer
  | ok (addr : ℕ)
  | err (errno : ℕ)
  | sys
  deriving DecidableEq

def Datagram.answer (id : ℕ) (d : Datagram) : Answer :=
  match dnsExtractA (d.bytes.take dnsMaxPacket) id with
  | some a => .ok a
  | none => .err netdbEnoent

/-- The address of the sender is stored and not looked at. -/
def pollLoop (id : ℕ) : List Poll → Answer
  | [] => .err netdbEtimedout
  | .failed::_ => .sys
  | .nothing::ps => pollLoop id ps
  | .data d::_ => d.answer id
  | .recvFailed::_ => .sys
  | .error::_ => .err netdbEtimedout

/-- The counter of the ids is given; `opened` and `sent` say whether the socket could be opened and
the query be sent. -/
def dnsQueryA (nextId : ℕ) (name : Bytes) (opened sent : Bool) (polls : List Poll) : Answer :=
  match queryPacket ((nextId+1)%2^16) name with
  | none => .err netdbEinval
  | some _ => if opened && sent then pollLoop ((nextId+1)%2^16) (polls.take dnsMaxPolls) else .sys

/-- A response of the server to the query: its id, and the question as its only one. -/
def Datagram.Genuine (server port id : ℕ) (question : Bytes) (d : Datagram) : Prop :=
  d.addr=server ∧ d.port=port ∧ be16 d.bytes 0=id ∧ be16 d.bytes 2 &&& 0x8000≠0 ∧ be16 d.bytes 4=1 ∧
    question <+: d.bytes.drop 12

instance (server port id : ℕ) (question : Bytes) (d : Datagram) :
    Decidable (d.Genuine server port id question) := inferInstanceAs (Decidable (_ ∧ _))

/-- As if the datagrams that are no such response had not come. -/
def Poll.hide (server port id : ℕ) (question : Bytes) : Poll → Poll
  | .data d => if d.Genuine server port id question then .data d else .nothing
  | p => p

/-- The first datagram that the loop gets to, and what comes after it. -/
def firstData : List Poll → Option (Datagram × List Poll)
  | .nothing::ps => firstData ps
  | .data d::ps => some (d,ps)
  | _ => none

section Answers
variable {server port id : ℕ} {question : Bytes} {d g : Datagram} {ps ps' polls : List Poll}

lemma firstData_some (h : firstData polls=some (d,ps)) :
    ∃ n, polls=List.replicate n .nothing++.data d::ps := by
  induction polls with
  | nil => cases h
  | cons p polls ih =>
    cases p with
    | nothing =>
      obtain ⟨n,rfl⟩ := ih h
      exact ⟨n+1,rfl⟩
    | data d' =>
      cases h
      exact ⟨0,rfl⟩
    | failed => cases h
    | recvFailed => cases h
    | error => cases h

lemma pollLoop_nothing (n : ℕ) : pollLoop id (List.replicate n .nothing++ps)=pollLoop id ps := by
  induction n with
  | zero => rfl
  | succ n ih => exact ih

lemma pollLoop_of_some (h : firstData polls=some (d,ps)) : pollLoop id polls=d.answer id := by
  obtain ⟨n,rfl⟩ := firstData_some h
  exact pollLoop_nothing n

lemma pollLoop_hide (h : firstData polls=some (d,ps)) :
    pollLoop id (polls.map (Poll.hide server port id question)) =
      if d.Genuine server port id question then d.answer id
      else pollLoop id (ps.map (Poll.hide server port id question)) := by
  obtain ⟨n,rfl⟩ := firstData_some h
  rw [List.map_append,List.map_replicate,List.map_cons]
  refine (pollLoop_nothing n).trans ?_
  rw [Poll.hide]
  split_ifs <;> rfl

/-- Without a datagram there is no answer, and nothing to hide. -/
lemma pollLoop_of_none (server port id : ℕ) (question : Bytes) (h : firstData polls=none) :
    (pollLoop id polls=.sys ∨ pollLoop id polls=.err netdbEtimedout) ∧
      pollLoop id (polls.map (Poll.hide server port id question))=pollLoop id polls := by
  induction polls with
  | nil => exact ⟨.inr rfl,rfl⟩
  | cons p polls ih =>
    cases p with
    | nothing => exact ih h
    | data d' => cases h
    | failed => exact ⟨.inl rfl,rfl⟩
    | recvFailed => exact ⟨.inl rfl,rfl⟩
    | error => exact ⟨.inr rfl,rfl⟩

lemma answer_ne (d : Datagram) : d.answer id≠.sys ∧ d.answer id≠.err netdbEtimedout := by
  unfold Datagram.answer
  split <;> simp [netdbEtimedout,netdbEnoent]

lemma genuine_of_hidden (h : .data g∈ps.map (Poll.hide server port id question)) :
    .data g∈ps ∧ g.Genuine server port id question := by
  obtain ⟨p,hp,heq⟩ := List.mem_map.1 h
  cases p with
  | data d =>
    rw [Poll.hide] at heq
    split_ifs at heq with hd
    cases heq
    exact ⟨hp,hd⟩
  | nothing => cases heq
  | failed => cases heq
  | recvFailed => cases heq
  | error => cases heq

/-- Only responses of the server decide the answer if the first datagram of all is one, or a later one
says the same. -/
theorem dnsQueryA_authentic_iff {nextId : ℕ} {name pkt : Bytes} (hid : id=(nextId+1)%2^16)
    (hq : queryPacket id name=some pkt) :
    ((∀ a, dnsQueryA nextId name true true polls=.ok a → ∃ d, .data d∈polls ∧
        d.Genuine server port id (pkt.drop 12) ∧ d.answer id=.ok a) ∧
      dnsQueryA nextId name true true (polls.map (Poll.hide server port id (pkt.drop 12))) =
        dnsQueryA nextId name true true polls) ↔
      ∀ d ps, firstData (polls.take dnsMaxPolls)=some (d,ps) →
        d.Genuine server port id (pkt.drop 12) ∨
          ∃ g ps', firstData (ps.map (Poll.hide server port id (pkt.drop 12)))=some (g,ps') ∧
            g.answer id=d.answer id := by
  have hrun : ∀ polls, dnsQueryA nextId name true true polls=pollLoop id (polls.take dnsMaxPolls) := by
    intro polls
    unfold dnsQueryA
    rw [← hid,hq]
    rfl
  have hseen : ∀ p∈polls.take dnsMaxPolls, p∈polls := fun _ => List.mem_of_mem_take
  simp only [hrun,← List.map_take]
  generalize polls.take dnsMaxPolls=seen at hseen ⊢
  cases hf : firstData seen with
  | none =>
    obtain ⟨hnone,hsame⟩ := pollLoop_of_none server port id (pkt.drop 12) hf
    refine ⟨fun _ _ _ h => (Option.some_ne_none _ h.symm).elim,fun _ => ⟨fun a ha => ?_,hsame⟩⟩
    simp [ha] at hnone
  | some x =>
    obtain ⟨d,ps⟩ := x
    rw [pollLoop_of_some hf,pollLoop_hide hf]
    obtain ⟨n,rfl⟩ := firstData_some hf
    have hps : ∀ p∈ps, p∈polls := fun p hp => hseen p (by simp [hp])
    constructor
    · rintro ⟨-,hsame⟩ _ _ ⟨⟩
      refine or_iff_not_imp_left.2 fun hd => ?_
      rw [if_neg hd] at hsame
      cases hg : firstData (ps.map (Poll.hide server port id (pkt.drop 12))) with
      | none =>
        have hnone := (pollLoop_of_none server port id (pkt.drop 12) hg).1
        rw [hsame] at hnone
        exact absurd hnone (not_or.2 (answer_ne d))
      | some y => exact ⟨y.1,y.2,rfl,(pollLoop_of_some hg).symm.trans hsame⟩
    · intro h
      by_cases hd : d.Genuine server port id (pkt.drop 12)
      · rw [if_pos hd]
        exact ⟨fun a ha => ⟨d,hseen _ (by simp),hd,ha⟩,rfl⟩
      · obtain ⟨g,ps',hg,hsame⟩ := (h d ps rfl).resolve_left hd
        obtain ⟨m,hm⟩ := firstData_some hg
        obtain ⟨hmem,hgen⟩ := genuine_of_hidden (hm ▸ (by simp) :
          .data g∈ps.map (Poll.hide server port id (pkt.drop 12)))
        rw [if_neg hd,pollLoop_of_some hg]
        exact ⟨fun a ha => ⟨g,hps _ hmem,hgen,hsame.trans ha⟩,hsame⟩

/-- A response to the query of id 1 for the name `a`, with the address 1.2.3.4. -/
def sampleBytes : Bytes :=
  [0,1,0x80,0,0,1,0,1,0,0,0,0,1,97,0,0,1,0,1,1,97,0,0,1,0,1,0,0,0,0,0,4,1,2,3,4]

/-- The answer is taken from a sender that was not asked. -/
theorem dnsQueryA_forged : ∃ pkt, queryPacket 1 [97]=some pkt ∧
    ¬ (⟨9,53,sampleBytes⟩ : Datagram).Genuine 8 53 1 (pkt.drop 12) ∧
    dnsQueryA 0 [97] true true [.data ⟨9,53,sampleBytes⟩]=.ok 0x01020304 :=
  ⟨_,rfl,by decide,by decide⟩

theorem dnsQueryA_authentic_asked : ∃ pkt, queryPacket 1 [97]=some pkt ∧ dnsQueryA 0 [97] true true
        ([.data ⟨8,53,sampleBytes⟩].map (Poll.hide 8 53 1 (pkt.drop 12))) =
      dnsQueryA 0 [97] true true [.data ⟨8,53,sampleBytes⟩] := by
  refine ⟨_,rfl,((@dnsQueryA_authentic_iff 8 53 1 [.data ⟨8,53,sampleBytes⟩] 0 [97] _ rfl rfl).2 ?_).2⟩
  rintro _ _ ⟨⟩
  left
  decide

end Answers

end FuriOS.User.Netdb
