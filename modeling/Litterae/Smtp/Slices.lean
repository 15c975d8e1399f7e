import Litterae.Smtp.Dialogue

/-! # Slices of a command line

`parse_addr_param` compares the start of an argument with a keyword by slicing at the keyword's
length in bytes. A character across that offset ends the task instead of the command.
-/

namespace Litterae.Smtp
open Foundations Option

section
variable {E W : Type} {s t : Session E W} {verb : Verb} {rest : Text}

/-- The status after a command that has not made the session panic: it reads on, unless it was cut
off, or the command was QUIT or a DATA with a message that is too large. -/
def Runs (verb : Verb) (cut : Prop) (status : Status) : Prop :=
  status = .reading ∨ status = .upgrading ∧ verb = .starttls ∨
    status = .closed ∧ (cut ∨ verb = .quit ∨ verb = .data)

/-- The session has answered the command with a reply, unless it was cut off, and runs. -/
structure Survives (verb : Verb) (cut : Prop) (s t : Session E W) : Prop where
  replied : cut ∨ ∃ r, replies s.log ++ [r] <+: replies t.log
  runs : Runs verb cut t.status

variable {G plain cut : Prop} {limit : ℕ} {v : Option Text × List Text} {es log : List Entry}
  {status : Status} {change : Change}

theorem replies_append : replies (es ++ log) = replies log ++ replies es := by
  simp [replies]

theorem Script.survives (h : Script G plain cut limit v verb rest es status change) (hG : G) :
    (cut ∨ replies es ≠ []) ∧ Runs verb cut status := by
  have hsome : ∀ e es r, Entry.sent e = some r → replies (es ++ [e]) ≠ [] := by
    intro e es r hr
    simp [replies, hr]
  cases h with
  | answered _ _ _ _ hs =>
    refine ⟨.inr (hsome _ [] _ rfl), ?_⟩
    rcases hs with rfl | ⟨rfl, rfl⟩
    · exact .inl rfl
    · exact .inr (.inr ⟨rfl, .inr (.inl rfl)⟩)
  | silent hs =>
    obtain ⟨rfl, hcut⟩ := hs.closed hG
    exact ⟨.inl hcut, .inr (.inr ⟨rfl, .inl hcut⟩)⟩
  | cleared _ _ _ hs =>
    refine ⟨.inr (hsome _ [] _ rfl), hs.imp_right fun hs => .inr (hs.imp_right .inl)⟩
  | starttls _ hs =>
    refine ⟨.inr (hsome _ [] _ rfl), .inr (hs.imp (⟨·, rfl⟩) (.imp_right .inl))⟩
  | noop _ hs | mail _ _ hs | rcpt _ _ _ hs => exact ⟨.inr (hsome _ [] _ rfl), .inl hs⟩
  | data _ _ _ hblock =>
    refine ⟨.inr (hsome _ _ _ rfl), ?_⟩
    cases hblock with
    | gone hs => exact .inr (.inr ⟨(hs.closed hG).1, .inr (.inr rfl)⟩)
    | ended _ hs | answered _ hs => exact .inl hs
    | panicked hpanic => exact absurd hG hpanic
    | tooLarge | lost => exact .inr (.inr ⟨rfl, .inr (.inr rfl)⟩)
  | auth _ _ _ _ hs => exact ⟨.inr (hsome _ [_] _ rfl), .inl hs⟩
  | authCut _ hs hcut => exact ⟨.inl hcut, .inr (.inr ⟨hs, .inl hcut⟩)⟩

theorem Reacts.survives {view : E → Option Text × List Text} {R : E → E → Prop}
    (h : Reacts G plain cut limit view R verb rest s t) (hG : G) : Survives verb cut s t := by
  obtain ⟨es, change, hlog, hscript, -⟩ := h.script
  obtain ⟨hreplied, hruns⟩ := hscript.survives hG
  refine ⟨hreplied.imp_right fun hes => ?_, hruns⟩
  obtain ⟨r, rs, hrs⟩ := List.exists_cons_of_ne_nil hes
  exact ⟨r, rs, by rw [hlog, replies_append, hrs, List.append_assoc, List.singleton_append]⟩

end

/-- A MAIL or RCPT line is sliced at a boundary, and every session that reads the line survives it:
on port 25 if the subject of the message after a DATA can be normalised, on the submission ports in
every state that a session can reach. -/
def SafeLine (P : Primitives) (line : Bytes) : Prop :=
  ∀ verb rest, parseCommand P.fromUtf8Lossy line = (verb, rest) →
    (∀ pfx, verb.keyword = some pfx → (parseAddrParam rest pfx).isSome = true) ∧
    (∀ deps remoteIp io (s : Inbound.Session) r, s.status = .reading →
      readLineBounded Inbound.maxCommandLine s.reader = (.line line, r) →
      (∀ raw, verb = .data → (Inbound.readData deps.maxMessageSize r).1 = .ok raw →
        Inbound.SafeMessage P raw) →
      Survives verb (Inbound.CutOff deps io verb { s with reader := r }) s
        (Inbound.step P deps remoteIp io s)) ∧
    ∀ deps io (s : Submission.Session) r, s.status = .reading →
      readLineBounded Submission.maxCommandLine s.reader = (.line line, r) →
      Submission.Disciplined s.isTls s.envelope →
      Survives verb (Submission.CutOff deps io verb rest { s with reader := r }) s
        (Submission.step P deps io s)

/-- A command line is answered by every session that reads it and leaves it running, exactly if it is
no MAIL or RCPT, or its argument is shorter than the keyword or has a character boundary where the
keyword ends. -/
theorem safeLine_iff (P : Primitives) (line : Bytes) :
    SafeLine P line ↔ ∀ verb rest, parseCommand P.fromUtf8Lossy line = (verb, rest) →
      SafeArgument verb rest := by
  refine ⟨fun h verb rest hcommand pfx hpfx =>
    parseAddrParam_isSome_iff.mp ((h verb rest hcommand).1 pfx hpfx), fun h verb rest hcommand => ?_⟩
  have hsafe := h verb rest hcommand
  refine ⟨fun pfx hpfx => isSome_iff_ne_none.mpr (hsafe.ne_none hpfx), ?_, ?_⟩
  · intro deps remoteIp io s r hs hread hraw
    have hreacts := @Inbound.command_reacts P deps remoteIp io
      { s with reader := r, status := .reading, world := io.others s.world } verb rest rfl
    obtain ⟨hreplied, hruns⟩ := hreacts.survives ⟨hsafe, hraw⟩
    simp only [Inbound.step, Server.step, Inbound.server, hs, hread, hcommand]
    exact ⟨hreplied, hruns⟩
  · intro deps io s r hs hread hdisciplined
    have hreacts := @Submission.command_reacts P deps io
      { s with reader := r, status := .reading, world := io.others s.world } verb rest rfl
    obtain ⟨hreplied, hruns⟩ := hreacts.survives ⟨hsafe, hdisciplined.account⟩
    simp only [Submission.step, Server.step, Submission.server, hs, hread, hcommand]
    exact ⟨hreplied, hruns⟩

/-- Every byte that is not ASCII becomes U+FFFD, as `from_utf8_lossy` does with stray ones. -/
def strayPrimitives : Primitives :=
  { Primitives.sample fun _ => none with
    fromUtf8Lossy := List.map fun b => if b < 128 then Char.ofNat b.toNat else Char.ofNat 0xFFFD }

/-- A stray byte where the keyword ends, and the session is gone without a reply, on both servers. -/
theorem stray_byte_aborts :
    let P := strayPrimitives
    let line : Bytes := utf8 "MAIL FROM" ++ [0xFF, 13, 10]
    let inbound := Inbound.run P
      { hostname := "mx", maxMessageSize := 1000, tlsAcceptor := false } "192.0.2.1"
      (List.replicate 3 Inbound.sampleIo)
      (Inbound.connect ⟨utf8 "EHLO x.org\r\n" ++ line, .eof⟩ Inbound.sampleStores)
    let submission := Submission.run P { hostname := "mx", maxMessageSize := 1000 }
      (List.replicate 3 Submission.sampleTurn) { sampleClient "" with
        reader := ⟨utf8 "AUTH PLAIN \x00alice@example.com\x00secret\r\n" ++ line, .eof⟩ }
    ¬ SafeLine P line ∧ ¬ SafeLine P (utf8 "RCPT TO" ++ [0xFF, 13, 10]) ∧
      inbound.status = .aborted ∧ (replies inbound.log).map Reply.code = [220, 250] ∧
      submission.status = .aborted ∧ (replies submission.log).map Reply.code = [220, 235] := by
  intro P line inbound submission
  refine ⟨fun h => ?_, fun h => ?_, by decide +kernel, by decide +kernel, by decide +kernel,
    by decide +kernel⟩
  · exact absurd ((h .mail ("FROM" ++ [Char.ofNat 0xFFFD]) (by decide +kernel)).1 _ rfl)
      (by decide +kernel)
  · exact absurd ((h .rcpt ("TO" ++ [Char.ofNat 0xFFFD]) (by decide +kernel)).1 _ rfl)
      (by decide +kernel)

end Litterae.Smtp
