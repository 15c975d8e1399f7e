import Litterae.Smtp.Acceptance

/-! # What an envelope can put into a header (`smtp-in/src/session.rs`, `scan/src/rspamd.rs`)

The HELO name and the recipients are checked before they enter the envelope, the sender is whatever
stands between `<` and `>`.
-/

namespace Litterae.Smtp.Inbound
open Foundations Input List

/-! ## The request to the scanner -/

structure ScanRequest where
  remoteIp : Text
  helo : Text
  mailFrom : Text
  rcptTo : List Text
  rawMessage : Bytes

def scanRequest (remoteIp : Text) (e : Envelope) (raw : Bytes) : ScanRequest where
  remoteIp := remoteIp
  helo := e.heloDomain.getD []
  mailFrom := e.mailFrom.getD []
  rcptTo := e.rcptTo.map ResolvedRecipient.address
  rawMessage := raw

def crlf : Text := "\r\n"

def requestHead (req : ScanRequest) : Text :=
  "POST /checkv2 HTTP/1.0".toList ++ crlf ++
    "Content-Length: ".toList ++ (toString req.rawMessage.length).toList ++ crlf ++
    "IP: " ++ req.remoteIp ++ crlf ++ "Helo: " ++ req.helo ++ crlf ++
    "From: ".toList ++ req.mailFrom ++ crlf ++
    (req.rcptTo.flatMap fun rcpt => "Rcpt: ".toList ++ rcpt ++ crlf) ++ crlf

def headFields (req : ScanRequest) : List Text :=
  ["POST /checkv2 HTTP/1.0".toList, "Content-Length: ".toList ++ (toString req.rawMessage.length).toList,
    "IP: ".toList ++ req.remoteIp, "Helo: ".toList ++ req.helo, "From: ".toList ++ req.mailFrom] ++
    req.rcptTo.map ("Rcpt: ".toList ++ ·)

/-! ## Safe envelopes -/

structure HeaderSafe (e : Envelope) : Prop where
  helo : ∀ name ∈ e.heloDomain, validHeaderValue name = true
  sender : ∀ addr ∈ e.mailFrom, validHeaderValue addr = true
  rcpts : ∀ r ∈ e.rcptTo, validHeaderValue r.address = true

def PlainLiterals (P : Primitives) : Prop :=
  ∀ t, P.isIpv4 t = true ∨ P.isIpv6 t = true → validHeaderValue t = true

/-- If the line the session reads next is a MAIL that it accepts, the address has no control
character. -/
def plainSender (P : Primitives) (s : Session) : Bool :=
  match s.status, readLineBounded maxCommandLine s.reader with
  | .reading, (.line l, _) =>
    match parseCommand P.fromUtf8Lossy l with
    | (.mail, rest) =>
      s.envelope.heloDomain.isNone || ((parseAddrParam rest fromParam).join).all validHeaderValue
    | _ => true
  | _, _ => true

structure Safe (s : Session) : Prop where
  envelope : HeaderSafe s.envelope
  handed : ∀ sender rcpts, Entry.handed sender rcpts ∈ s.log →
    validHeaderValue sender = true ∧ ∀ addr ∈ rcpts, validHeaderValue addr = true

variable {P : Primitives} {remoteIp : Text}

section
variable {e : Envelope}

theorem headerSafe_default : HeaderSafe .default where
  helo _ h := nomatch h
  sender _ h := nomatch h
  rcpts _ h := absurd h not_mem_nil

theorem HeaderSafe.reset (h : HeaderSafe e) : HeaderSafe e.reset where
  helo := h.helo
  sender _ h := nomatch h
  rcpts _ h := absurd h not_mem_nil

theorem validHeloDomain_headerSafe (hliterals : PlainLiterals P) {value : Text}
    (h : validHeloDomain P.isIpv4 P.isIpv6 value) :
    validHeaderValue value := by
  have hbrackets : ∀ rest : Text, rest.getLast? = some ']' →
      validHeaderValue rest.dropLast → validHeaderValue ('[' :: rest) := by
    intro rest hlast hinner
    obtain ⟨inner, rfl⟩ := List.getLast?_eq_some_iff.mp hlast
    rw [dropLast_concat] at hinner
    have hopen : validHeaderValue ['['] := by decide
    have hclose : validHeaderValue [']'] := by decide
    have hvalue := validHeaderValue_append hopen (validHeaderValue_append hinner hclose)
    exact hvalue
  unfold validHeloDomain at h
  split at h
  · next hname =>
    simp only [validDomainName, Bool.and_eq_true] at hname
    exact hname.1.1.2
  split at h
  · split at h
    · next rest _ hlast =>
      refine hbrackets rest hlast ?_
      split at h
      · next v6 hstrip =>
        rw [stripStart_eq_some hstrip]
        exact validHeaderValue_append (by decide) (hliterals v6 (.inr h))
      · exact hliterals _ (.inl h)
    · cases h
  · cases h

theorem head_lines (post len ip helo sender rcpt eol n addr name mailFrom : Text) (rcptTo : List Text) :
    post ++ eol ++ len ++ n ++ eol ++ ip ++ addr ++ eol ++ helo ++ name ++ eol ++ sender ++ mailFrom ++
        eol ++ (rcptTo.flatMap fun r => rcpt ++ r ++ eol) ++ eol =
      (([post, len ++ n, ip ++ addr, helo ++ name, sender ++ mailFrom] ++ rcptTo.map (rcpt ++ ·)).flatMap
        fun field => field ++ eol) ++ eol := by
  simp only [flatMap_append, flatMap_cons, flatMap_nil, flatMap_map,
    append_assoc, append_nil]

theorem requestHead_lines (h : HeaderSafe e) (hip : validHeaderValue remoteIp) (raw : Bytes) :
    requestHead (scanRequest remoteIp e raw) =
        ((headFields (scanRequest remoteIp e raw)).flatMap fun field => field ++ crlf) ++ crlf ∧
      ∀ field ∈ headFields (scanRequest remoteIp e raw), validHeaderValue field := by
  have hpart : ∀ o : Option Text, (∀ v ∈ o, validHeaderValue v) →
      validHeaderValue (o.getD []) := by
    intro o ho
    cases o with
    | none => rfl
    | some v => exact ho v rfl
  refine ⟨?_, fun field hfield => ?_⟩
  · exact head_lines ..
  rcases mem_append.mp hfield with hfixed | hrcpt
  · simp only [mem_cons, not_mem_nil, or_false] at hfixed
    rcases hfixed with rfl | rfl | rfl | rfl | rfl
    · decide
    · exact validHeaderValue_append (by decide) (validHeaderValue_digits _)
    · exact validHeaderValue_append (by decide) hip
    · exact validHeaderValue_append (by decide) (hpart _ h.helo)
    · exact validHeaderValue_append (by decide) (hpart _ h.sender)
  · obtain ⟨addr, haddr, rfl⟩ := mem_map.mp hrcpt
    obtain ⟨r, hr, rfl⟩ := mem_map.mp haddr
    exact validHeaderValue_append (by decide) (h.rcpts r hr)

end

/-! ## Sessions -/

section
variable {deps : Deps} {io : Io} {s : Session}

theorem Safe.keeps (h : Safe s) {t : Session} (henvelope : HeaderSafe t.envelope)
    (hlog : ∀ sender rcpts, Entry.handed sender rcpts ∈ t.log → Entry.handed sender rcpts ∈ s.log) :
    Safe t := ⟨henvelope, fun sender rcpts hmem => h.handed sender rcpts (hlog sender rcpts hmem)⟩

theorem HeaderSafe.becomes (hliterals : PlainLiterals P) {verb : Verb} {rest : Text} {e e' : Envelope}
    (h : HeaderSafe e) (hplain : verb = .mail → (e.heloDomain.isNone ||
      ((parseAddrParam rest fromParam).join).all validHeaderValue))
    (hbecomes : Becomes P verb rest e e') : HeaderSafe e' := by
  cases hbecomes with
  | kept => exact h
  | reset => exact h.reset
  | helo hvalid =>
    have hname : HeaderSafe { e with heloDomain := some _ } :=
      ⟨fun name hname => Option.mem_some.mp hname ▸ validHeloDomain_headerSafe hliterals hvalid, h.sender,
        h.rcpts⟩
    exact hname.reset
  | mail hverb hhelo hparse =>
    refine ⟨h.helo, ?_, fun _ hr => absurd hr not_mem_nil⟩
    rintro _ ⟨⟩
    simpa [hhelo, hparse] using hplain hverb
  | rcpt hvalid =>
    refine ⟨h.helo, h.sender, fun r hr => ?_⟩
    rcases mem_append.mp hr with hold | hnew
    · exact h.rcpts r hold
    · rw [mem_singleton.mp hnew]
      exact validEmailAddress_headerSafe hvalid

theorem command_safe (hliterals : PlainLiterals P) (h : Safe s) (verb : Verb) (rest : Text)
    (hs : s.status = .reading)
    (hplain : verb = .mail → (s.envelope.heloDomain.isNone ||
      ((parseAddrParam rest fromParam).join).all validHeaderValue)) :
    Safe (command P deps remoteIp io verb rest s) := by
  have hreacts := @command_reacts P deps remoteIp io s verb rest hs
  refine ⟨h.envelope.becomes hliterals hplain hreacts.envelope, fun sender rcpts hmem => ?_⟩
  obtain ⟨es, change, hlog, hscript, -⟩ := hreacts.script
  rw [hlog] at hmem
  rcases mem_append.mp hmem with hnew | hold
  · -- what is handed on is the envelope
    obtain ⟨rfl, rfl⟩ := hscript.handed hnew
    refine ⟨?_, fun addr haddr => ?_⟩
    · cases hsender : s.envelope.mailFrom with
      | none =>
        rw [view, hsender]
        rfl
      | some addr => simpa [view, hsender] using h.envelope.sender addr hsender
    · obtain ⟨r, hr, rfl⟩ := mem_map.mp haddr
      exact h.envelope.rcpts r hr
  · exact h.handed sender rcpts hold

theorem step_safe (hliterals : PlainLiterals P) (h : Safe s) (hplain : plainSender P s) :
    Safe (step P deps remoteIp io s) := by
  have htakes : (server P deps remoteIp).Takes io s (step P deps remoteIp io s) := Server.step_takes
  generalize step P deps remoteIp io s = t at htakes ⊢
  cases htakes with
  | @command l r verb rest hs hread hcommand =>
    have hturn : Safe { s with reader := r, world := io.others s.world } :=
      h.keeps h.envelope fun _ _ => id
    refine command_safe hliterals hturn _ _ hs fun hverb => ?_
    subst hverb
    simp only [server] at hread hcommand
    simpa only [plainSender, hs, hread, hcommand] using hplain
  | upgrades => exact h.keeps headerSafe_default fun _ _ => id
  | greets | overlong =>
    exact h.keeps h.envelope (by simp [Session.note, Session.close, Session.closeUnless])
  | ends => exact h.keeps h.envelope fun _ _ => id
  | stays => exact h

theorem connect_safe (r : Reader) (world : Stores) : Safe (connect r world) :=
  ⟨headerSafe_default, fun _ _ hmem => absurd hmem not_mem_nil⟩

theorem run_safe (hliterals : PlainLiterals P) (ios : List Io) (h : Safe s)
    (hplain : ∀ n < ios.length, plainSender P (run P deps remoteIp (ios.take n) s)) :
    Safe (run P deps remoteIp ios s) := by
  induction ios generalizing s with
  | nil => exact h
  | cons _ _ ih =>
    refine ih (step_safe hliterals h (hplain 0 (Nat.succ_pos _))) fun n hn => ?_
    exact hplain (n + 1) (Nat.succ_lt_succ hn)

end

/-- Whatever a client sends, if no MAIL it gets accepted has a control character in its address, then
the HELO name, the sender and the recipients have none in any envelope and in anything handed on. -/
theorem envelopes_headerSafe {P : Primitives} (hliterals : PlainLiterals P) {deps : Deps}
    {remoteIp : Text} {r : Reader} {world : Stores} {ios : List Io}
    (hplain : ∀ n < ios.length,
      plainSender P (run P deps remoteIp (ios.take n) (connect r world))) :
    Safe (run P deps remoteIp ios (connect r world)) :=
  run_safe hliterals ios (connect_safe r world) hplain

/-! ## A sender with a carriage return -/

def sampleMailer : Primitives := Primitives.sample fun _ => some sampleParsed

/-- The session after some turns of a client that sends a message as `sender`. -/
def sampleFrom (sender : String) (turns : ℕ) : Session :=
  run sampleMailer { hostname := "mx", maxMessageSize := 1000, tlsAcceptor := false }
    "192.0.2.1" (List.replicate turns sampleIo)
    (connect ⟨utf8 ("EHLO mx.example.net\r\nMAIL FROM:<" ++ sender.toList ++
      ">\r\nRCPT TO:<alice@example.com>\r\nDATA\r\n\r\nhi\r\n.\r\n"), .eof⟩ sampleStores)

def forgedSender : String := "eve\rIP: 127.0.0.1"

/-- The message is delivered, and what follows the carriage return stood in the request to the
scanner. -/
theorem sender_breaks_head :
    (sampleFrom forgedSender 4).envelope.mailFrom = some forgedSender.toList ∧
      (sampleFrom forgedSender 5).log.take 2 = [.dataEnd (reply 250 "OK: message accepted"),
        .handed forgedSender.toList ["alice@example.com"]] ∧
      validHeaderValue forgedSender.toList = false ∧ ¬ Safe (sampleFrom forgedSender 5) := by
  have hlog : (sampleFrom forgedSender 5).log.take 2 = [.dataEnd (reply 250 "OK: message accepted"),
      .handed forgedSender.toList ["alice@example.com"]] := by
    decide +kernel
  have hinvalid : validHeaderValue forgedSender.toList = false := by decide +kernel
  refine ⟨by decide +kernel, hlog, hinvalid, fun hsafe => ?_⟩
  have hmem : Entry.handed forgedSender.toList ["alice@example.com"] ∈
      (sampleFrom forgedSender 5).log := by
    have htake : Entry.handed forgedSender.toList ["alice@example.com"] ∈
        (sampleFrom forgedSender 5).log.take 2 := by
      rw [hlog]
      exact mem_cons_of_mem _ mem_cons_self
    exact mem_of_mem_take htake
  have hvalid := (hsafe.handed _ _ hmem).1
  cases hvalid

theorem envelopes_headerSafe_eve :
    (sampleFrom "eve@example.net" 5).log.head? = some (.dataEnd (reply 250 "OK: message accepted")) ∧
      Safe (sampleFrom "eve@example.net" 5) := by
  have hliterals : PlainLiterals sampleMailer := by
    rintro t (h | h)
    · cases h
    · cases h
  refine ⟨by decide +kernel, ?_⟩
  exact envelopes_headerSafe hliterals (by decide +kernel)

end Litterae.Smtp.Inbound
