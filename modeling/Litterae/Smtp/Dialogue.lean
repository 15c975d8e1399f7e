import Litterae.Smtp.Acceptance
import Litterae.Smtp.Discipline
import Litterae.Smtp.Sender

/-! # One reply to each command

The transcript of a session is read as a dialogue: the greeting, then for each command line that was
read the replies to it. A command is answered once, after a 354 if a DATA block comes first and
after a 334 if an AUTH line does; only the last one may go without, when the connection is cut off
under it: a write fails, the client ends the stream, or the task that checks a password is lost.
-/

namespace Litterae.Smtp
open Foundations List Option

def Entry.sent : Entry → Option Reply
  | .command _ _ r => some r
  | .note r => some r
  | .handed _ _ => none
  | .dataEnd r => some r

def replies (log : List Entry) : List Reply := (log.filterMap Entry.sent).reverse

inductive Exchange : Verb → List Reply → Prop
  | completed (v : Verb) {r : Reply} (h : r.Completes) : Exchange v [r]
  | data {i r : Reply} (hi : i.code = 354) (h : r.Completes) : Exchange .data [i, r]
  | auth {i r : Reply} (hi : i.code = 334) (h : r.Completes) : Exchange .auth [i, r]

inductive Interrupted : Verb → List Reply → Prop
  | silent (v : Verb) : Interrupted v []
  | data {i : Reply} (hi : i.code = 354) : Interrupted .data [i]
  | auth {i : Reply} (hi : i.code = 334) : Interrupted .auth [i]

/-- The replies `rs` to the commands `vs`; all of them are answered if the last argument is true, all
but the last one if it is false. -/
inductive Dialogue : List Verb → List Reply → Bool → Prop
  | nil : Dialogue [] [] true
  | answered {vs : List Verb} {rs xs : List Reply} {v : Verb} (h : Dialogue vs rs true)
      (hx : Exchange v xs) : Dialogue (vs ++ [v]) (rs ++ xs) true
  | interrupted {vs : List Verb} {rs xs : List Reply} {v : Verb} (h : Dialogue vs rs true)
      (hx : Interrupted v xs) : Dialogue (vs ++ [v]) (rs ++ xs) false

theorem Reply.interim_not_completes {r : Reply} (h : r.code = 354 ∨ r.code = 334) :
    ¬ r.Completes := by
  unfold Reply.Completes
  omega

variable {xs : List Reply}

theorem Exchange.completions {v : Verb} (h : Exchange v xs) :
    (xs.filter fun r => decide r.Completes).length = 1 := by
  cases h with
  | completed v h => simp [h]
  | data hi h => simp [h, Reply.interim_not_completes (.inl hi)]
  | auth hi h => simp [h, Reply.interim_not_completes (.inr hi)]

theorem Interrupted.completions {v : Verb} (h : Interrupted v xs) :
    xs.filter (fun r => decide r.Completes) = [] := by
  cases h with
  | silent => rfl
  | data hi => simp [Reply.interim_not_completes (.inl hi)]
  | auth hi => simp [Reply.interim_not_completes (.inr hi)]

theorem replies_cons {e : Entry} {log : List Entry} :
    replies (e :: log) = replies log ++ e.sent.toList := by
  cases h : e.sent with
  | none => rw [replies, filterMap_cons_none h, replies, toList_none, append_nil]
  | some => rw [replies, filterMap_cons_some h, reverse_cons, replies, toList_some]

section
variable {E W : Type} {s t : Session E W}

/-- From `s` to `t` the server has served one command, or was cut off under it. -/
structure Serves (v : Verb) (cut : Prop) (s t : Session E W) : Prop where
  spoken : ∃ xs, replies t.log = replies s.log ++ xs ∧
    (Exchange v xs ∨ Interrupted v xs ∧ t.status = .closed ∧ cut)
  greeted : t.status ≠ .greeting

theorem Serves.mono {v : Verb} {cut cut' : Prop} (hcut : cut → cut') (h : Serves v cut s t) :
    Serves v cut' s t := by
  obtain ⟨xs, hxs, hspoken⟩ := h.spoken
  exact ⟨⟨xs, hxs, hspoken.imp_right fun hlost => hlost.imp_right (.imp_right hcut)⟩, h.greeted⟩

variable {G plain cut : Prop} {change : Change} {status : Status} {v : Option Text × List Text}

theorem Gone.closed (h : Gone G cut status) (hG : G) : status = .closed ∧ cut :=
  h.resolve_right fun hpanic => hpanic.2 hG

theorem Block.spoken {es log : List Entry} {i : Reply} (hi : i.code = 354)
    (h : Block G cut v es status change) (hG : G) :
    ∃ xs, replies (es ++ log) = replies log ++ xs ∧
      (Exchange .data (i :: xs) ∨ Interrupted .data (i :: xs) ∧ status = .closed ∧ cut) := by
  cases h with
  | gone hs => exact ⟨[], (append_nil _).symm, .inr ⟨.data hi, hs.closed hG⟩⟩
  | ended hr | tooLarge hr => exact ⟨_, replies_cons, .inl (.data hi hr)⟩
  | panicked hpanic => exact absurd hG hpanic
  | @answered r _ hr | @lost r hr =>
    exact ⟨[r], by simp [replies_cons, Entry.sent], .inl (.data hi hr)⟩

variable {limit : ℕ} {rest : Text} {verb : Verb}

theorem Script.spoken {es log : List Entry}
    (h : Script G plain cut limit v verb rest es status change) (hG : G) (hplain : plain) :
    (∃ xs, replies (es ++ log) = replies log ++ xs ∧
      (Exchange verb xs ∨ Interrupted verb xs ∧ status = .closed ∧ cut)) ∧ status ≠ .greeting := by
  have hcode : ∀ {r : Reply}, r.code = 250 ∨ r.code = 220 → r.Completes := by
    intro r hr
    unfold Reply.Completes
    omega
  have hopen : ∀ {status : Status}, status = .reading ∨ status = .upgrading ∨ status.Ended →
      status ≠ .greeting := by
    rintro _ (rfl | rfl | rfl | rfl) <;> decide
  cases h with
  | answered hr _ _ _ hs | cleared hr _ _ hs =>
    exact ⟨⟨_, replies_cons, .inl (.completed _ hr)⟩, by rcases hs with rfl | ⟨rfl, -⟩ <;> decide⟩
  | noop hr hs => exact ⟨⟨_, replies_cons, .inl (.completed _ (hcode (.inl hr)))⟩, hopen (.inl hs)⟩
  | silent hs =>
    exact ⟨⟨[], (append_nil _).symm, .inr ⟨.silent _, hs.closed hG⟩⟩, hopen (.inr (.inr hs.ended))⟩
  | starttls hr hs =>
    exact ⟨⟨_, replies_cons, .inl (.completed _ (hcode (.inr hr)))⟩,
      by rcases hs with rfl | ⟨rfl, -⟩ <;> decide⟩
  | mail hr _ hs | rcpt hr _ _ hs =>
    exact ⟨⟨_, replies_cons, .inl (.completed _ (hcode (.inl hr)))⟩, hopen (.inl hs)⟩
  | @data _ i es _ _ hi _ _ hblock =>
    obtain ⟨xs, hxs, hexchange⟩ :=
      @Block.spoken _ _ _ _ _ _ (.command .data rest i :: log) _ hi hblock hG
    refine ⟨⟨i :: xs, ?_, hexchange⟩, ?_⟩
    · rw [append_assoc, singleton_append, hxs, replies_cons, append_assoc]
      rfl
    · cases hblock with
      | gone hs => exact hopen (.inr (.inr hs.ended))
      | ended _ hs | answered _ hs => exact hopen (.inl hs)
      | _ => decide
  | @auth _ i r _ hi hr _ _ hs =>
    exact ⟨⟨[i, r], by simp [replies_cons, Entry.sent], .inl (.auth (hi hplain) hr)⟩,
      hopen (.inl hs)⟩
  | @authCut _ i _ hi hs hcut =>
    exact ⟨⟨[i], replies_cons, .inr ⟨.auth (hi hplain), hs, hcut⟩⟩, hopen (.inr (.inr (.inl hs)))⟩

theorem Reacts.serves {view : E → Option Text × List Text} {R : E → E → Prop}
    (h : Reacts G plain cut limit view R verb rest s t) (hG : G) (hplain : plain) :
    Serves verb cut s t := by
  obtain ⟨es, change, hlog, hscript, -⟩ := h.script
  obtain ⟨hspoken, hgreeted⟩ := @Script.spoken _ _ _ _ _ _ _ _ _ _ s.log hscript hG hplain
  exact ⟨by rw [hlog]; exact hspoken, hgreeted⟩

/-- So far the greeting and the replies to the commands `vs` were sent; if the last one went without
its reply, the session is closed and was `cut` off. -/
inductive Spoken (greeting : Reply) (vs : List Verb) (cut : Prop) (s : Session E W) : Prop
  | unsaid (hs : s.status = .greeting) (hlog : replies s.log = []) (hvs : vs = [])
  | said {rs : List Reply} {whole : Bool} (hs : s.status ≠ .greeting)
      (hlog : replies s.log = greeting :: rs) (h : Dialogue vs rs whole)
      (hended : whole = false → s.status = .closed ∧ cut)

theorem Spoken.mono {greeting : Reply} {vs : List Verb} {cut cut' : Prop} (hcut : cut → cut')
    (h : Spoken greeting vs cut s) : Spoken greeting vs cut' s := by
  cases h with
  | unsaid hs hlog hvs => exact .unsaid hs hlog hvs
  | said hs hlog h hended => exact .said hs hlog h fun hwhole => (hended hwhole).imp_right hcut

variable {vs : List Verb}

theorem Dialogue.completions {rs : List Reply} {whole : Bool} (h : Dialogue vs rs whole) :
    (rs.filter fun r => decide r.Completes).length + (if whole then 0 else 1) = vs.length := by
  induction h with
  | nil => rfl
  | answered _ hx ih =>
    rw [filter_append, length_append, hx.completions, length_append, ← ih]
    rfl
  | interrupted _ hx ih =>
    rw [filter_append, hx.completions, append_nil, length_append, ← ih]
    rfl

namespace Server
variable {Io : Type} (V : Server E W Io) (cut : Io → Session E W → Prop)

/-- The command line the next turn reads; one that cannot be read to its end counts as one. -/
def reads (s : Session E W) : Option Verb :=
  match s.status with
  | .reading =>
    match readLineBounded V.maxLine s.reader with
    | (.line l, _) => some (parseCommand V.decode l).1
    | (.failed, _) => some .other
    | (.eof, _) => none
  | _ => none

def commands : List Io → Session E W → List Verb
  | [], _ => []
  | io :: ios, s => (V.reads s).toList ++ commands ios (V.step io s)

/-- Some turn of the run is cut off. -/
def CutOff : List Io → Session E W → Prop
  | [], _ => False
  | io :: ios, s => cut io s ∨ CutOff ios (V.step io s)

/-- Where `G` holds, each command that is read is served. -/
def Orderly (G : Session E W → Prop) : Prop :=
  ∀ io s l r verb rest, G s → s.status = .reading →
    readLineBounded V.maxLine s.reader = (.line l, r) → parseCommand V.decode l = (verb, rest) →
    Serves verb (cut io s) s
      (V.command io verb rest { s with reader := r, world := (V.turn io).others s.world })

variable {V cut} {G : Session E W → Prop}

theorem Orderly.step (hV : V.Orderly cut G) (io : Io) (hG : G s) {lost : Prop}
    (h : Spoken V.greeting vs lost s) :
    Spoken V.greeting (vs ++ (V.reads s).toList) (lost ∨ cut io s) (V.step io s) := by
  have htakes := @Server.step_takes _ _ _ V io s
  generalize V.step io s = t at htakes ⊢
  cases h with
  | unsaid hs hlog hvs =>
    have hreads : V.reads s = none := by rw [reads, hs]
    rw [hreads, hvs]
    cases htakes with
    | greets =>
      refine .said ?_ (by rw [Session.closeUnless, Session.note, replies_cons, hlog]; rfl) .nil
        fun hwhole => nomatch hwhole
      simp only [Session.closeUnless, Session.note]
      split <;> decide
    | command hs' | overlong hs' | upgrades hs' => cases hs.symm.trans hs'
    | ends hs' | stays hs' => simp [hs] at hs'
  | @said rs whole hs hlog hdialogue hended =>
    -- a session that was cut off reads nothing
    have hwhole : s.status = .reading → whole := by
      intro hreading
      by_contra hcut
      cases hreading.symm.trans (hended (Bool.eq_false_iff.mpr hcut)).1
    have hserved : ∀ {v : Verb}, Serves v (cut io s) s t → V.reads s = some v →
        s.status = .reading → Spoken V.greeting (vs ++ (V.reads s).toList) (lost ∨ cut io s) t := by
      intro v hserves hreads hreading
      obtain rfl := hwhole hreading
      rw [hreads]
      obtain ⟨xs, hxs, hexchange | ⟨hcut, hend⟩⟩ := hserves.spoken
      · exact .said hserves.greeted (by rw [hxs, hlog]; rfl) (hdialogue.answered hexchange)
          fun hwhole => nomatch hwhole
      · exact .said hserves.greeted (by rw [hxs, hlog]; rfl) (hdialogue.interrupted hcut)
          fun _ => hend.imp_right .inr
    have hquiet : V.reads s = none → t.log = s.log → t.status ≠ .greeting →
        (s.status = .closed → t.status = .closed) →
        Spoken V.greeting (vs ++ (V.reads s).toList) (lost ∨ cut io s) t := by
      intro hreads hsame hstatus hclosed
      rw [hreads, toList_none, append_nil]
      exact .said hstatus (by rw [hsame, hlog]) hdialogue fun hwhole =>
        (hended hwhole).imp hclosed .inl
    cases htakes with
    | greets hs' => exact absurd hs' hs
    | command hreading hread hcommand =>
      refine hserved (hV io s _ _ _ _ hG hreading hread hcommand) ?_ hreading
      simp only [reads, hreading, hread, hcommand]
    | overlong hreading hread =>
      refine hserved ⟨⟨_, replies_cons, .inl (.completed .other (by decide))⟩, ?_⟩ ?_ hreading
      · simp [Session.close]
      · simp only [reads, hreading, hread]
    | ends hs' =>
      refine hquiet ?_ rfl (by simp [Session.close]) fun _ => rfl
      rcases hs' with ⟨hreading, hread⟩ | hupgrading
      · simp only [reads, hreading, hread]
      · simp only [reads, hupgrading]
    | upgrades hs' =>
      refine hquiet (by simp only [reads, hs']) rfl (by simp) fun hclosed => ?_
      cases hs'.symm.trans hclosed
    | stays hs' =>
      refine hquiet ?_ rfl hs fun hclosed => hclosed
      rcases hs' with hs' | hs' <;> simp only [reads, hs']

theorem Orderly.run (hV : V.Orderly cut G) (ios : List Io)
    (hG : ∀ n < ios.length, G (V.run (ios.take n) s)) {lost : Prop}
    (h : Spoken V.greeting vs lost s) :
    Spoken V.greeting (vs ++ V.commands ios s) (lost ∨ V.CutOff cut ios s) (V.run ios s) := by
  induction ios generalizing s vs lost with
  | nil =>
    rw [commands, append_nil]
    exact h.mono .inl
  | cons io _ ih =>
    have hfirst := hV.step io (hG 0 (Nat.succ_pos _)) h
    have hrest := ih (fun n hn => hG (n + 1) (Nat.succ_lt_succ hn)) hfirst
    rw [commands, ← append_assoc]
    exact hrest.mono or_assoc.mp

end Server
end
end Litterae.Smtp

/-! ## The inbound server -/

namespace Litterae.Smtp.Inbound
open Foundations

/-- The connection is cut off under the command of the turn. -/
def CutTurn (P : Primitives) (deps : Deps) (io : Io) (s : Session) : Prop :=
  ∃ c ∈ nextCommand P.fromUtf8Lossy maxCommandLine s.reader, CutOff deps io c.1 { s with reader := c.2.2 }

/-- The next command makes nothing panic. -/
def SteadyTurn (P : Primitives) (deps : Deps) (s : Session) : Prop :=
  ∀ c ∈ nextCommand P.fromUtf8Lossy maxCommandLine s.reader,
    Steady P deps c.1 c.2.1 { s with reader := c.2.2 }

theorem server_orderly (P : Primitives) (deps : Deps) (remoteIp : Text) :
    (server P deps remoteIp).Orderly (CutTurn P deps) (SteadyTurn P deps) := by
  intro io s l r verb rest hG hs hread hcommand
  have hnext : nextCommand P.fromUtf8Lossy maxCommandLine s.reader = some (verb, rest, r) :=
    nextCommand_of_line hread hcommand
  have hcommand := (@command_reacts P deps remoteIp io
    { s with reader := r, world := io.others s.world } verb rest hs).serves (hG _ hnext) trivial
  have hserves : Serves _ (CutTurn P deps io s) _ _ := hcommand.mono fun hcut => ⟨_, hnext, hcut⟩
  exact ⟨hserves.spoken, hserves.greeted⟩

end Litterae.Smtp.Inbound

/-! ## The submission server -/

namespace Litterae.Smtp.Submission
open Foundations

/-- The connection is cut off under the command of the turn. -/
def CutTurn (P : Primitives) (deps : Deps) (io : Io) (s : Session) : Prop :=
  ∃ c ∈ nextCommand P.fromUtf8Lossy maxCommandLine s.reader,
    CutOff deps io c.1 c.2.1 { s with reader := c.2.2 }

/-- The next command has an argument that is sliced at a boundary. If it is an AUTH that reaches
`handle_auth`, it names the mechanism PLAIN, and the line it asks for is not too long. -/
def SteadyTurn (P : Primitives) (s : Session) : Prop :=
  ∀ c ∈ nextCommand P.fromUtf8Lossy maxCommandLine s.reader,
    SafeArgument c.1 c.2.1 ∧ NamesPlain c.1 c.2.1 s ∧
      (c.1 = .auth → (splitCommand c.2.1).2 = [] → ¬ Overlong maxCommandLine c.2.2)

instance (P : Primitives) (s : Session) : Decidable (SteadyTurn P s) :=
  inferInstanceAs (Decidable (∀ c ∈ nextCommand P.fromUtf8Lossy maxCommandLine s.reader, _))

theorem server_orderly (P : Primitives) (deps : Deps) :
    (server P deps).Orderly (CutTurn P deps) fun s =>
      SteadyTurn P s ∧ Disciplined s.isTls s.envelope := by
  intro io s l r verb rest hG hs hread hcommand
  have hnext : nextCommand P.fromUtf8Lossy maxCommandLine s.reader = some (verb, rest, r) :=
    nextCommand_of_line hread hcommand
  obtain ⟨hsafe, hplain, -⟩ := hG.1 _ hnext
  have hcommand := (@command_reacts P deps io { s with reader := r, world := io.others s.world }
    verb rest hs).serves ⟨hsafe, hG.2.account⟩ hplain
  have hserves : Serves _ (CutTurn P deps io s) _ _ := hcommand.mono fun hcut => ⟨_, hnext, hcut⟩
  exact ⟨hserves.spoken, hserves.greeted⟩

end Litterae.Smtp.Submission

/-! ## Both servers -/

namespace Litterae.Smtp
open Foundations

def sampleClient (stream : String) : Submission.Session :=
  Submission.connect true ⟨utf8 stream.toList, .eof⟩
    { stores := { Stores.empty with accounts := Submission.sampleAccounts ["alice"] }
      throttle := { entries := fun _ => none, baseDelay := 1, maxDelay := 60 } }

end Litterae.Smtp
