import Litterae.Smtp.Wire
import Litterae.Foundations.Journal

/-! # SMTP sessions and their transcripts

Both servers run a command loop over an envelope. A session here also keeps the transcript of what
was said: each command line with the reply to it, each message handed on, each reply to the end of a
DATA block.
-/

namespace Litterae.Smtp
open Foundations List Nat

inductive Entry where
  /-- A command and the reply to it (354 for an accepted DATA). -/
  | command (verb : Verb) (rest : Text) (reply : Reply)
  /-- A reply to no command: the greeting, an interim reply, a line too long. -/
  | note (reply : Reply)
  /-- A message is handed to delivery or to the queue. -/
  | handed (sender : Text) (recipients : List Text)
  /-- The reply to the end of a DATA block. -/
  | dataEnd (reply : Reply)
  deriving DecidableEq

def accepted (verb : Verb) (pfx : Text) : Entry → Option Text
  | .command v rest r => if v = verb ∧ r.code = 250 then (parseAddrParam rest pfx).join else none
  | _ => none

/-- RSET, an accepted EHLO or HELO, an accepted STARTTLS, and the end of a DATA block. -/
def endsTransaction : Entry → Bool
  | .command .rset _ _ => true
  | .command .ehlo _ r => r.code == 250
  | .command .helo _ r => r.code == 250
  | .command .starttls _ r => r.code == 220
  | .dataEnd _ => true
  | _ => false

/-- Transactions as a transcript shows them: opened by an accepted MAIL, extended by each accepted
RCPT. -/
def book : Book Entry Text Text where
  opens := accepted .mail fromParam
  adds := accepted .rcpt toParam
  closes := endsTransaction

/-- The envelopes that were handed on, the latest first. -/
def handedOn (log : List Entry) : List (Text × List Text) :=
  log.filterMap fun
    | .handed sender rcpts => some (sender, rcpts)
    | _ => none

/-! ## Sessions -/

inductive Status where
  | greeting
  | reading
  | upgrading
  | closed
  /-- The task panicked. -/
  | aborted
  deriving DecidableEq

/-- A session of one connection: `E` is the envelope, `W` what it shares with the other tasks. -/
structure Session (E W : Type) where
  reader : Reader
  envelope : E
  isTls : Bool
  status : Status
  world : W
  log : List Entry

/-- The command on the next line, and what is left to read after it. -/
def nextCommand (decode : Bytes → Text) (maxLine : ℕ) (r : Reader) : Option (Verb × Text × Reader) :=
  match readLineBounded maxLine r with
  | (.line l, r) => some ((parseCommand decode l).1, (parseCommand decode l).2, r)
  | _ => none

theorem nextCommand_of_line {decode : Bytes → Text} {maxLine : ℕ} {r r' : Reader} {l : Bytes}
    {verb : Verb} {rest : Text} (h : readLineBounded maxLine r = (.line l, r'))
    (hcommand : parseCommand decode l = (verb, rest)) :
    nextCommand decode maxLine r = some (verb, rest, r') := by
  rw [nextCommand, h]
  simp only [hcommand]

/-- The commands whose reply the loops wait for: if it cannot be written they end. -/
def Verb.waits : Verb → Bool
  | .ehlo | .helo | .starttls | .auth | .data => true
  | _ => false

namespace Session
variable {E W : Type}

def answer (verb : Verb) (rest : Text) (r : Reply) (s : Session E W) : Session E W :=
  { s with log := .command verb rest r :: s.log }

def note (r : Reply) (s : Session E W) : Session E W := { s with log := .note r :: s.log }

def close (s : Session E W) : Session E W := { s with status := .closed }

def abort (s : Session E W) : Session E W := { s with status := .aborted }

def closeUnless (ok : Bool) (s : Session E W) : Session E W :=
  { s with status := if ok then s.status else .closed }

def connect (envelope : E) (isTls : Bool) (r : Reader) (world : W) : Session E W :=
  { reader := r, envelope, isTls, status := .greeting, world, log := [] }

/-- EHLO and HELO: the envelope they leave if the name is valid, and the reply. -/
def helo (valid : Bool) (hello : Reply) (named : E) (writeOk : Bool) (verb : Verb) (rest : Text)
    (s : Session E W) : Session E W :=
  if valid then { s.answer verb rest hello with envelope := named }.closeUnless writeOk
  else s.answer verb rest (reply 501 "Syntax error in parameters")

/-- STARTTLS where TLS can be started. -/
def startTls (writeOk : Bool) (rest : Text) (s : Session E W) : Session E W :=
  if !rest.isEmpty then s.answer .starttls rest (reply 501 "Syntax error")
  else
    let s := s.answer .starttls rest (reply 220 "Go ahead")
    if writeOk then { s with status := .upgrading } else s.close

/-- The DATA block is read, and what is made of it is the server's own. -/
def receive (readData : Reader → Except DataError Bytes × Reader)
    (accept : Bytes → Session E W → Session E W) (s : Session E W) : Session E W :=
  match readData s.reader with
  | (.ok raw, r) => accept raw { s with reader := r }
  | (.error .tooLarge, r) =>
    { s with
      reader := r
      log := .dataEnd (reply 552 "Message size exceeds fixed limit") :: s.log }.close
  | (.error .io, r) => { s with reader := r }.close

def startInput : Reply := reply 354 "Start mail input; end with <CRLF>.<CRLF>"

def data (unready writeOk : Bool) (receive : Session E W → Session E W) (rest : Text)
    (s : Session E W) : Session E W :=
  if unready then s.answer .data rest (reply 503 "Bad sequence of commands")
  else if writeOk then receive (s.answer .data rest startInput)
  else (s.answer .data rest startInput).close

end Session

/-! ## The loop -/

/-- What a turn of either loop takes from its surroundings. -/
structure TurnIo (W : Type) where
  /-- The outcome of the `k`-th reply the turn waits for. -/
  writeOk : ℕ → Bool
  /-- What other tasks did since the last turn. -/
  others : W → W
  /-- Bytes were buffered past the STARTTLS command. -/
  pipelined : Bool
  /-- The decrypted stream, if the handshake succeeded. -/
  tlsStream : Option Reader

/-- A server, by what its loop is given. -/
structure Server (E W Io : Type) where
  decode : Bytes → Text
  maxLine : ℕ
  greeting : Reply
  turn : Io → TurnIo W
  offersTls : Bool
  fresh : E
  command : Io → Verb → Text → Session E W → Session E W

namespace Server
variable {E W Io : Type} (V : Server E W Io)

/-- One turn: the greeting is sent, or a line is read and its command handled, or the stream is
upgraded to TLS between two loops. -/
def step (io : Io) (s : Session E W) : Session E W :=
  match s.status with
  | .greeting =>
    ({ s with status := .reading }.note V.greeting).closeUnless ((V.turn io).writeOk 0)
  | .reading =>
    match readLineBounded V.maxLine s.reader with
    | (.eof, r) => { s with reader := r }.close
    | (.failed, r) => ({ s with reader := r }.note (reply 500 "Line too long")).close
    | (.line l, r) =>
      let (verb, rest) := parseCommand V.decode l
      V.command io verb rest { s with reader := r, world := (V.turn io).others s.world }
  | .upgrading =>
    if (V.turn io).pipelined || !V.offersTls then s.close
    else
      match (V.turn io).tlsStream with
      | some r => { s with reader := r, isTls := true, envelope := V.fresh, status := .reading }
      | none => s.close
  | .closed | .aborted => s

def run (ios : List Io) (s : Session E W) : Session E W := ios.foldl (fun s io => V.step io s) s

/-- What a turn does, by what it finds. -/
inductive Takes (io : Io) (s : Session E W) : Session E W → Prop
  | greets {ok : Bool} (hs : s.status = .greeting) :
    Takes io s (({ s with status := .reading }.note V.greeting).closeUnless ok)
  | command {l : Bytes} {r : Reader} {verb : Verb} {rest : Text} (hs : s.status = .reading)
      (hread : readLineBounded V.maxLine s.reader = (.line l, r))
      (hcommand : parseCommand V.decode l = (verb, rest)) :
    Takes io s (V.command io verb rest { s with reader := r, world := (V.turn io).others s.world })
  | overlong {r : Reader} (hs : s.status = .reading)
      (hread : readLineBounded V.maxLine s.reader = (.failed, r)) :
    Takes io s ({ s with reader := r }.note (reply 500 "Line too long")).close
  | ends {r : Reader}
      (hs : s.status = .reading ∧ readLineBounded V.maxLine s.reader = (.eof, r) ∨
        s.status = .upgrading) : Takes io s { s with reader := r }.close
  | upgrades {r : Reader} (hs : s.status = .upgrading) (hpipelined : (V.turn io).pipelined = false)
      (hstream : (V.turn io).tlsStream = some r) :
    Takes io s { s with reader := r, isTls := true, envelope := V.fresh, status := .reading }
  | stays (hs : s.status = .closed ∨ s.status = .aborted) : Takes io s s

variable {V} {io : Io} {s : Session E W}

theorem step_takes : V.Takes io s (V.step io s) := by
  unfold step
  split
  · next hs => exact .greets hs
  · next hs =>
    split
    · next hread => exact .ends (.inl ⟨hs, hread⟩)
    · next hread => exact .overlong hs hread
    · next hread => exact .command hs hread rfl
  · next hs =>
    split
    · exact .ends (.inr hs)
    next hopen =>
    split
    · next hstream => exact .upgrades hs (by simp at hopen; exact hopen.1) hstream
    · exact .ends (.inr hs)
  · next hs => exact .stays (.inl hs)
  · next hs => exact .stays (.inr hs)

theorem run_invariant {I : Session E W → Prop} (hstep : ∀ io s, I s → I (V.step io s))
    (ios : List Io) (h : I s) : I (V.run ios s) := by
  induction ios generalizing s with
  | nil => exact h
  | cons io _ ih => exact ih (hstep io s h)

end Server

/-! ## Envelopes that agree with the transcript -/

/-- What the loop keeps: the sender and the recipients of its envelope are those of the
transaction the transcript shows open, with at most `limit` recipients. -/
structure Isolated (limit : ℕ) (log : List Entry) (status : Status) (sender : Option Text)
    (rcpts : List Text) : Prop where
  agrees : status = .reading → book.replay log = sender.map (·, rcpts)
  upgrade : status = .upgrading → book.replay log = none
  within : rcpts.length ≤ limit
  idle : status = .greeting → log = [] ∧ sender = none
  dataEnd : status = .reading → ∀ reply before, log = .dataEnd reply :: before →
    sender = none ∧ rcpts = []

variable {log : List Entry} {rcpts : List Text} {r : Reply} {rest : Text} {verb : Verb}
  {status : Status}

section
variable {limit : ℕ} {sender : Option Text}

/-- A neutral entry: no transaction is opened, extended or ended by it. -/
def Neutral (e : Entry) : Prop :=
  book.opens e = none ∧ book.adds e = none ∧ book.closes e = false

theorem neutral_note (r : Reply) : Neutral (.note r) := ⟨rfl, rfl, rfl⟩

theorem neutral_refused (h250 : r.code ≠ 250) (h220 : r.code ≠ 220) (hrset : verb ≠ .rset) :
    Neutral (.command verb rest r) := by
  refine ⟨by simp [book, accepted, h250], by simp [book, accepted, h250], ?_⟩
  cases verb <;> simp_all [book, endsTransaction]

namespace Isolated

variable {e : Entry} {a : Text}

theorem start : Isolated limit [] .greeting none [] where
  agrees := by simp
  upgrade := by simp
  within := zero_le _
  idle := fun _ => ⟨rfl, rfl⟩
  dataEnd := by simp

theorem reading (agrees : book.replay log = sender.map (·, rcpts))
    (within : rcpts.length ≤ limit)
    (dataEnd : ∀ r before, log = .dataEnd r :: before → sender = none ∧ rcpts = [] := by simp) :
    Isolated limit log .reading sender rcpts :=
  ⟨fun _ => agrees, by simp, within, by simp, fun _ => dataEnd⟩

theorem reset (hopens : book.opens e = none) (hends : book.closes e) :
    Isolated limit (e :: log) .reading none [] :=
  .reading (Book.replay_closes hopens hends) (zero_le _) fun _ _ _ => ⟨rfl, rfl⟩

theorem leave {status' : Status} (h : Isolated limit log status sender rcpts)
    (hclosed : status' = .closed ∨ status' = .aborted) : Isolated limit log status' sender rcpts := by
  rcases hclosed with rfl | rfl
  · exact ⟨by simp, by simp, h.within, by simp, by simp⟩
  · exact ⟨by simp, by simp, h.within, by simp, by simp⟩

theorem leaveWith (h : Isolated limit log status sender rcpts) :
    Isolated limit (e :: log) .closed sender rcpts :=
  ⟨by simp, by simp, h.within, by simp, by simp⟩

section
variable (h : Isolated limit log .reading sender rcpts)
include h

theorem neutral (he : Neutral e) (hd : ∀ r, e ≠ .dataEnd r) :
    Isolated limit (e :: log) .reading sender rcpts :=
  .reading ((Book.replay_neutral he.1 he.2.2 he.2.1).trans (h.agrees rfl)) h.within
    fun reply _ heq => absurd (List.cons.inj heq).1 (hd reply)

theorem hand {a : Text} {rs : List Text} :
    Isolated limit (.handed a rs :: log) .reading sender rcpts :=
  h.neutral ⟨rfl, rfl, rfl⟩ (by simp)

theorem refused (h250 : r.code ≠ 250) (h220 : r.code ≠ 220) (hrset : verb ≠ .rset) :
    Isolated limit (.command verb rest r :: log) .reading sender rcpts :=
  h.neutral (neutral_refused h250 h220 hrset) (by simp)

theorem rcpt (hcode : r.code = 250) (haddr : parseAddrParam rest toParam = some (some a))
    (hroom : rcpts.length < limit) :
    Isolated limit (.command .rcpt rest r :: log) .reading sender (rcpts ++ [a]) := by
  refine .reading ?_ ?_
  · have hadds : book.adds (.command .rcpt rest r) = some a := by
      simp [book, accepted, hcode, haddr]
    rw [Book.replay_adds (by simp [book, accepted]) rfl hadds, h.agrees rfl]
    cases sender <;> rfl
  · simp only [length_append, length_singleton]
    omega

theorem starttls (hcode : r.code = 220) :
    Isolated limit (.command .starttls rest r :: log) .upgrading sender rcpts where
  agrees := by simp
  upgrade := fun _ => Book.replay_closes (by simp [book, accepted]) (by simp [book, endsTransaction, hcode])
  within := h.within
  idle := by simp
  dataEnd := by simp

end

theorem mail (hcode : r.code = 250) (haddr : parseAddrParam rest fromParam = some (some a)) :
    Isolated limit (.command .mail rest r :: log) .reading (some a) [] :=
  .reading (Book.replay_opens (by simp [book, accepted, hcode, haddr])) (zero_le _)

theorem upgraded (h : Isolated limit log .upgrading sender rcpts) :
    Isolated limit log .reading none [] :=
  .reading (h.upgrade rfl) (zero_le _) fun _ _ _ => ⟨rfl, rfl⟩

theorem note (h : Isolated limit log .reading sender rcpts) :
    Isolated limit (.note r :: log) .reading sender rcpts :=
  h.neutral (neutral_note r) (by simp)

theorem enter (h : Isolated limit log .greeting sender rcpts) :
    Isolated limit log .reading sender rcpts := by
  obtain ⟨rfl, rfl⟩ := h.idle rfl
  exact .reading rfl h.within

theorem closeUnless (ok : Bool) (h : Isolated limit log status sender rcpts) :
    Isolated limit log (if ok then status else .closed) sender rcpts := by
  cases ok with
  | true => exact h
  | false => exact h.leave (.inl rfl)

end Isolated
end

/-! ## What a command can do -/

def Reply.Completes (r : Reply) : Prop := r.code / 100 = 2 ∨ r.code / 100 = 4 ∨ r.code / 100 = 5

instance (r : Reply) : Decidable r.Completes := inferInstanceAs (Decidable (_ ∨ _))

def Reply.Refuses (r : Reply) : Prop := r.code / 100 = 4 ∨ r.code / 100 = 5

instance (r : Reply) : Decidable r.Refuses := inferInstanceAs (Decidable (_ ∨ _))

def Status.Ended (status : Status) : Prop := status = .closed ∨ status = .aborted

/-- The session ends under a command: its connection is cut off, or its task panics, which `G` is to
exclude. -/
def Gone (G cut : Prop) (status : Status) : Prop := status = .closed ∧ cut ∨ status = .aborted ∧ ¬ G

/-- What becomes of the sender and the recipients of the envelope. -/
inductive Change where
  | kept
  | reset
  | mail (addr : Text)
  | rcpt (addr : Text)

def Change.view : Change → Option Text × List Text → Option Text × List Text
  | .kept, v => v
  | .reset, _ => (none, [])
  | .mail addr, _ => (some addr, [])
  | .rcpt addr, v => (v.1, v.2 ++ [addr])

section
variable (G plain cut : Prop) (limit : ℕ) (v : Option Text × List Text) {change : Change} {es : List Entry}

theorem Gone.ended {G cut : Prop} (h : Gone G cut status) : status.Ended := h.imp And.left And.left

/-- The entries after a 354, the latest first. -/
inductive Block : List Entry → Status → Change → Prop
  | gone {status : Status} (hs : Gone G cut status) : Block [] status .kept
  | ended {r : Reply} {status : Status} (hr : r.Completes) (hs : status = .reading) :
    Block [.dataEnd r] status .reset
  | tooLarge {r : Reply} (hr : r.Completes) : Block [.dataEnd r] .closed .kept
  | panicked (hG : ¬ G) : Block [.handed (v.1.getD []) v.2] .aborted .kept
  | answered {r : Reply} {status : Status} (hr : r.Completes) (hs : status = .reading) :
    Block [.dataEnd r, .handed (v.1.getD []) v.2] status .reset
  | lost {r : Reply} (hr : r.Completes) (hcut : cut) :
    Block [.dataEnd r, .handed (v.1.getD []) v.2] .closed .kept

/-- The entries a command adds to the transcript, the latest first, and what becomes of the session.
Where `G` holds nothing panics; where `plain` does, an interim reply to AUTH is a 334. Unless it is
`cut` off, the session closes only after QUIT and after a message that is too large. -/
inductive Script : Verb → Text → List Entry → Status → Change → Prop
  | answered {verb : Verb} {rest : Text} {r : Reply} {status : Status} (hr : r.Completes)
      (h250 : r.code ≠ 250) (h220 : r.code ≠ 220) (hrset : verb ≠ .rset)
      (hs : status = .reading ∨ status = .closed ∧ verb = .quit) :
    Script verb rest [.command verb rest r] status .kept
  | noop {rest : Text} {r : Reply} {status : Status} (hr : r.code = 250) (hs : status = .reading) :
    Script .noop rest [.command .noop rest r] status .kept
  | silent {verb : Verb} {rest : Text} {status : Status} (hs : Gone G cut status) :
    Script verb rest [] status .kept
  | cleared {verb : Verb} {rest : Text} {r : Reply} {status : Status} (hr : r.Completes)
      (hends : endsTransaction (.command verb rest r) = true) (hmail : verb ≠ .mail)
      (hs : status = .reading ∨ status = .closed ∧ cut) :
    Script verb rest [.command verb rest r] status .reset
  | starttls {rest : Text} {r : Reply} {status : Status} (hr : r.code = 220)
      (hs : status = .upgrading ∨ status = .closed ∧ cut) :
    Script .starttls rest [.command .starttls rest r] status .kept
  | mail {rest addr : Text} {r : Reply} {status : Status} (hr : r.code = 250)
      (haddr : parseAddrParam rest fromParam = some (some addr)) (hs : status = .reading) :
    Script .mail rest [.command .mail rest r] status (.mail addr)
  | rcpt {rest addr : Text} {r : Reply} {status : Status} (hr : r.code = 250)
      (haddr : parseAddrParam rest toParam = some (some addr)) (hroom : v.2.length < limit)
      (hs : status = .reading) : Script .rcpt rest [.command .rcpt rest r] status (.rcpt addr)
  | data {rest : Text} {i : Reply} {es : List Entry} {status : Status} {change : Change}
      (hi : i.code = 354) (hmail : v.1 ≠ none) (hrcpt : v.2 ≠ []) (h : Block G cut v es status change) :
    Script .data rest (es ++ [.command .data rest i]) status change
  | auth {rest : Text} {i r : Reply} {status : Status} (hi : plain → i.code = 334) (hr : r.Completes)
      (h250 : r.code ≠ 250) (h220 : r.code ≠ 220) (hs : status = .reading) :
    Script .auth rest [.command .auth rest r, .note i] status .kept
  | authCut {rest : Text} {i : Reply} {status : Status} (hi : plain → i.code = 334)
      (hs : status = .closed) (hcut : cut) : Script .auth rest [.note i] status .kept

variable {G plain cut limit v}

theorem Block.isolated (h : Block G cut v es status change)
    (hv : Isolated limit log .reading v.1 v.2) :
    Isolated limit (es ++ log) status (change.view v).1 (change.view v).2 := by
  cases h with
  | gone hs => exact hv.leave hs.ended
  | ended _ hs => exact hs ▸ .reset rfl rfl
  | tooLarge => exact hv.leaveWith
  | panicked => exact hv.hand.leave (.inr rfl)
  | answered _ hs => exact hs ▸ .reset rfl rfl
  | lost => exact hv.hand.leaveWith

theorem Script.isolated {es : List Entry} (h : Script G plain cut limit v verb rest es status change)
    (hv : Isolated limit log .reading v.1 v.2) :
    Isolated limit (es ++ log) status (change.view v).1 (change.view v).2 := by
  cases h with
  | answered _ h250 h220 hrset hs =>
    rcases hs with rfl | ⟨rfl, -⟩
    · exact hv.refused h250 h220 hrset
    · exact (hv.refused h250 h220 hrset).leave (.inl rfl)
  | noop _ hs =>
    exact hs ▸ hv.neutral ⟨by simp [book, accepted], by simp [book, accepted], rfl⟩ (by simp)
  | silent hs => exact hv.leave hs.ended
  | cleared _ hends hmail hs =>
    have hreset := @Isolated.reset log limit _ (by simp [book, accepted, hmail]) hends
    rcases hs with rfl | ⟨rfl, -⟩
    · exact hreset
    · exact hreset.leave (.inl rfl)
  | starttls hr hs =>
    rcases hs with rfl | ⟨rfl, -⟩
    · exact hv.starttls hr
    · exact (hv.starttls hr).leave (.inl rfl)
  | mail hr haddr hs => exact hs ▸ .mail hr haddr
  | rcpt hr haddr hroom hs => exact hs ▸ hv.rcpt hr haddr hroom
  | data hi _ _ hblock =>
    rw [append_assoc]
    exact hblock.isolated (hv.refused (by rw [hi]; decide) (by rw [hi]; decide) (by decide))
  | auth _ _ h250 h220 hs => exact hs ▸ hv.note.refused h250 h220 (by decide)
  | authCut _ hs => exact hs ▸ hv.note.leave (.inl rfl)

theorem Script.handedOn_nil (h : Script G plain cut limit v verb rest es status change)
    (hverb : verb ≠ .data) : handedOn es = [] := by
  cases h with
  | data => exact absurd rfl hverb
  | _ => rfl

theorem Script.handed {sender : Text} (h : Script G plain cut limit v verb rest es status change)
    (hmem : Entry.handed sender rcpts ∈ es) :
    sender = v.1.getD [] ∧ rcpts = v.2 := by
  cases h with
  | data _ _ _ hblock => cases hblock <;> simp_all
  | _ => simp at hmem

end

/-! ## Sessions that agree with their transcript -/

section
variable {E W : Type} {G plain cut : Prop} {limit : ℕ} {view : E → Option Text × List Text}
  {R : E → E → Prop}
  {s t : Session E W}

def Agrees (limit : ℕ) (view : E → Option Text × List Text) (s : Session E W) : Prop :=
  Isolated limit s.log s.status (view s.envelope).1 (view s.envelope).2

/-- From `s` to `t` the command has been served; `R` is what it may do to the envelope. -/
structure Reacts (G plain cut : Prop) (limit : ℕ) (view : E → Option Text × List Text) (R : E → E → Prop)
    (verb : Verb) (rest : Text) (s t : Session E W) : Prop where
  script : ∃ es change, t.log = es ++ s.log ∧
    Script G plain cut limit (view s.envelope) verb rest es t.status change ∧
    view t.envelope = change.view (view s.envelope)
  envelope : R s.envelope t.envelope
  isTls : t.isTls = s.isTls

theorem Reacts.refused (hs : s.status = .reading) (hr : r.Refuses) (hrset : verb ≠ .rset)
    (hR : R s.envelope s.envelope) : Reacts G plain cut limit view R verb rest s (s.answer verb rest r) := by
  have hcode : r.Completes ∧ r.code ≠ 250 ∧ r.code ≠ 220 := by
    unfold Reply.Completes
    unfold Reply.Refuses at hr
    omega
  exact ⟨⟨[_], .kept, rfl, .answered hcode.1 hcode.2.1 hcode.2.2 hrset (.inl hs), rfl⟩, hR, rfl⟩

theorem Reacts.abort (hR : R s.envelope s.envelope) (hG : ¬ G) :
    Reacts G plain cut limit view R verb rest s s.abort :=
  ⟨⟨[], .kept, rfl, .silent (.inr ⟨rfl, hG⟩), rfl⟩, hR, rfl⟩

theorem Reacts.agrees (h : Reacts G plain cut limit view R verb rest s t) (hs : Agrees limit view s)
    (hreading : s.status = .reading) : Agrees limit view t := by
  obtain ⟨es, change, hlog, hscript, hview⟩ := h.script
  unfold Agrees at hs ⊢
  rw [hreading] at hs
  rw [hlog, hview]
  exact hscript.isolated hs

theorem Reacts.handedOn (h : Reacts G plain cut limit view R verb rest s t) (hverb : verb ≠ .data) :
    handedOn t.log = handedOn s.log := by
  obtain ⟨es, change, hlog, hscript, -⟩ := h.script
  have hnone := hscript.handedOn_nil hverb
  unfold Smtp.handedOn at hnone ⊢
  rw [hlog, filterMap_append, hnone, nil_append]

/-- From `s` to `t` rows for `senders` and `recipients` were stored: none if no message was handed on;
else for the transaction that the transcript of `s` shows open, and for all its recipients if nothing
fails. -/
def HandsOn (limit : ℕ) (nothingFails : Prop) (senders recipients : List Text) (s t : Session E W) :
    Prop :=
  handedOn t.log = handedOn s.log ∧ senders = [] ∧ recipients = [] ∨
    ∃ sender rcpts, handedOn t.log = (sender, rcpts) :: handedOn s.log ∧
      book.Since s.log sender rcpts ∧ rcpts ≠ [] ∧ rcpts.length ≤ limit ∧
      (∀ a ∈ senders, a = sender) ∧ recipients <+ rcpts ∧ (nothingFails → recipients = rcpts)

theorem Agrees.handsOn {nothingFails : Prop} {senders recipients rcpts : List Text} {sender : Text}
    (h : Agrees limit view s) (hs : s.status = .reading)
    (hview : view s.envelope = (some sender, rcpts)) (hne : rcpts ≠ [])
    (hlog : Smtp.handedOn t.log = (sender, rcpts) :: Smtp.handedOn s.log)
    (hsenders : ∀ a ∈ senders, a = sender) (hrcpts : recipients <+ rcpts)
    (hwhole : nothingFails → recipients = rcpts) :
    HandsOn limit nothingFails senders recipients s t := by
  have hwithin := h.within
  have hreplay := h.agrees hs
  rw [hview] at hreplay hwithin
  exact .inr ⟨sender, rcpts, hlog, Book.since_of_replay hreplay, hne, hwithin, hsenders, hrcpts, hwhole⟩

/-- What a message read in a DATA block does to the session. -/
def Accepts (G cut : Prop) (view : E → Option Text × List Text) (R : E → E → Prop)
    (s t : Session E W) : Prop :=
  ∃ es change, t.log = es ++ s.log ∧ Block G cut (view s.envelope) es t.status change ∧
    view t.envelope = change.view (view s.envelope) ∧ R s.envelope t.envelope ∧ t.isTls = s.isTls

section
variable (hs : s.status = .reading) (hkept : R s.envelope s.envelope)
include hs hkept

theorem Reacts.helo {valid writeOk : Bool} {hello : Reply} {named : E}
    (hverb : verb = .ehlo ∨ verb = .helo) (hcode : hello.code = 250) (hview : view named = (none, []))
    (hnamed : valid = true → R s.envelope named) (hcut : writeOk = false → cut) :
    Reacts G plain cut limit view R verb rest s (s.helo valid hello named writeOk verb rest) := by
  unfold Session.helo
  split
  · next hvalid =>
    refine ⟨⟨[_], .reset, rfl, .cleared (.inl (by rw [hcode])) ?_ ?_ ?_, hview⟩, hnamed hvalid, rfl⟩
    · rcases hverb with rfl | rfl <;> exact beq_iff_eq.mpr hcode
    · rcases hverb with rfl | rfl <;> decide
    · cases hwrite : writeOk with
      | false => exact .inr ⟨by simp [Session.closeUnless], hcut hwrite⟩
      | true => exact .inl (by simpa [Session.closeUnless, Session.answer] using hs)
  · exact .refused hs (by decide) (by rcases hverb with rfl | rfl <;> decide) hkept

theorem Reacts.startTls {writeOk : Bool} (hcut : writeOk = false → cut) :
    Reacts G plain cut limit view R .starttls rest s (s.startTls writeOk rest) := by
  unfold Session.startTls
  split
  · exact .refused hs (by decide) (by decide) hkept
  split
  · exact ⟨⟨[_], .kept, rfl, .starttls rfl (.inl rfl), rfl⟩, hkept, rfl⟩
  · next hwrite =>
    exact ⟨⟨[_], .kept, rfl, .starttls rfl (.inr ⟨rfl, hcut (by simpa using hwrite)⟩), rfl⟩, hkept, rfl⟩

theorem Reacts.noop :
    Reacts G plain cut limit view R .noop rest s (s.answer .noop rest (reply 250 "OK")) :=
  ⟨⟨[_], .kept, rfl, .noop rfl hs, rfl⟩, hkept, rfl⟩

omit hs in
theorem Reacts.quit :
    Reacts G plain cut limit view R .quit rest s (s.answer .quit rest (reply 221 "Bye")).close :=
  ⟨⟨[_], .kept, rfl, .answered (by decide) (by decide) (by decide) (by decide) (.inr ⟨rfl, rfl⟩), rfl⟩,
    hkept, rfl⟩

theorem Reacts.data {unready writeOk : Bool} {readData : Reader → Except DataError Bytes × Reader}
    {accept : Bytes → Session E W → Session E W}
    (hready : unready = false → (view s.envelope).1 ≠ none ∧ (view s.envelope).2 ≠ [])
    (hwrite : writeOk = false → cut) (hio : (readData s.reader).1 = .error .io → cut)
    (haccept : ∀ raw r, unready = false → (readData s.reader).1 = .ok raw →
      Accepts G cut view R { s.answer .data rest Session.startInput with reader := r }
        (accept raw { s.answer .data rest Session.startInput with reader := r })) :
    Reacts G plain cut limit view R .data rest s
      (s.data unready writeOk (Session.receive readData accept) rest) := by
  unfold Session.data
  split
  · exact .refused hs (by decide) (by decide) hkept
  next hopen =>
  have hopen := Bool.eq_false_iff.mpr hopen
  obtain ⟨hmail, hrcpt⟩ := hready hopen
  split
  · unfold Session.receive
    split
    · next raw r hread =>
      obtain ⟨es, change, hlog, hblock, hview, henvelope, htls⟩ :=
        haccept raw r hopen (congrArg Prod.fst hread)
      exact ⟨⟨_, change, by rw [hlog, append_assoc]; rfl, .data rfl hmail hrcpt hblock, hview⟩,
        henvelope, htls⟩
    · exact ⟨⟨[_, _], .kept, rfl, .data rfl hmail hrcpt (.tooLarge (by decide)), rfl⟩, hkept, rfl⟩
    · next hread =>
      exact ⟨⟨[_], .kept, rfl,
        .data rfl hmail hrcpt (.gone (.inl ⟨rfl, hio (congrArg Prod.fst hread)⟩)), rfl⟩, hkept, rfl⟩
  · next hfailed =>
    exact ⟨⟨[_], .kept, rfl,
      .data rfl hmail hrcpt (.gone (.inl ⟨rfl, hwrite (Bool.eq_false_iff.mpr hfailed)⟩)), rfl⟩, hkept,
      rfl⟩

end

theorem Agrees.closeUnless (ok : Bool) (h : Agrees limit view s) : Agrees limit view (s.closeUnless ok) :=
  Isolated.closeUnless ok h

theorem Agrees.upgraded {r : Reader} {env : E} (h : Agrees limit view s) (hs : s.status = .upgrading)
    (hview : view env = (none, [])) :
    Agrees limit view { s with reader := r, isTls := true, envelope := env, status := .reading } := by
  unfold Agrees at h ⊢
  rw [hs] at h
  simp only [hview]
  exact h.upgraded

theorem Agrees.greeted (r : Reply) (h : Agrees limit view s) (hs : s.status = .greeting) :
    Agrees limit view ({ s with status := .reading }.note r) := by
  unfold Agrees at h
  rw [hs] at h
  exact h.enter.note

theorem Server.step_agrees {Io : Type} {V : Server E W Io} (hfresh : view V.fresh = (none, []))
    (hcommand : ∀ io verb rest (s : Session E W), s.status = .reading → Agrees limit view s →
      Agrees limit view (V.command io verb rest s)) (io : Io) (s : Session E W)
    (h : Agrees limit view s) : Agrees limit view (V.step io s) := by
  have htakes := @Server.step_takes _ _ _ V io s
  generalize V.step io s = t at htakes ⊢
  cases htakes with
  | greets hs => exact (h.greeted _ hs).closeUnless _
  | command hs => exact hcommand _ _ _ _ hs h
  | overlong => exact Isolated.leaveWith h
  | ends => exact Isolated.leave h (.inl rfl)
  | upgrades hs => exact h.upgraded hs hfresh
  | stays => exact h

end
end Litterae.Smtp
