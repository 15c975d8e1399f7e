import Litterae.Crypto.Seal
import Litterae.Foundations.Lines

/-! # The SMTP wire (`smtp-in/src/session.rs`, `submission/src/session.rs`)

Both servers hold their own copies of these functions; the copies are the same. Lines are cut at
every LF, a bare one included, and the dot that ends DATA may stand on a line ended by a bare LF.
-/

namespace Litterae.Smtp
open Foundations List

def lf : UInt8 := 10
def cr : UInt8 := 13
def dot : UInt8 := 46

/-! ## Reading -/

inductive Ending where
  | eof
  | error
  deriving DecidableEq

structure Reader where
  bytes : Bytes
  ending : Ending
  deriving DecidableEq

/-- The results of `read_line_bounded`: `Ok(true)` with the line, `Ok(false)`, `Err`. -/
inductive LineRead where
  | line (bytes : Bytes)
  | eof
  | failed
  deriving DecidableEq

/-- The loop of `read_line_bounded`, with the bytes pushed so far. -/
def readLineFrom (maxLen : ℕ) (ending : Ending) : Bytes → Bytes → LineRead × Bytes
  | _, [] => (match ending with | .eof => .eof | .error => .failed, [])
  | out, b :: rest =>
    if b = lf then (.line (out ++ [b]), rest)
    else if (out ++ [b]).length > maxLen then (.failed, rest)
    else readLineFrom maxLen ending (out ++ [b]) rest

def readLineBounded (maxLen : ℕ) (r : Reader) : LineRead × Reader :=
  ((readLineFrom maxLen r.ending [] r.bytes).1,
    { r with bytes := (readLineFrom maxLen r.ending [] r.bytes).2 })

/-- The stream goes on past the limit without a line feed. -/
def Overlong (maxLen : ℕ) (r : Reader) : Prop :=
  maxLen < r.bytes.length ∧ lf ∉ r.bytes.take (maxLen + 1)

instance (maxLen : ℕ) (r : Reader) : Decidable (Overlong maxLen r) := inferInstanceAs (Decidable (_ ∧ _))

variable {maxLen : ℕ} {ending : Ending}

theorem readLineFrom_shorter {out bytes l rest : Bytes}
    (h : readLineFrom maxLen ending out bytes = (.line l, rest)) : rest.length < bytes.length := by
  induction bytes generalizing out with
  | nil => cases ending <;> simp [readLineFrom] at h
  | cons _ _ ih =>
    rw [readLineFrom] at h
    split at h
    · obtain ⟨-, rfl⟩ := h
      exact Nat.lt_succ_self _
    · split at h
      · simp at h
      · exact Nat.lt_succ_of_lt (ih h)

theorem readLineFrom_line {out body rest : Bytes} (hbody : lf ∉ body)
    (hlen : (out ++ body).length ≤ maxLen) :
    readLineFrom maxLen ending out (body ++ lf :: rest) = (.line (out ++ body ++ [lf]), rest) := by
  induction body generalizing out with
  | nil => simp [readLineFrom]
  | cons b tail ih =>
    have hb : b ≠ lf := (ne_of_not_mem_cons hbody).symm
    have htail : lf ∉ tail := not_mem_of_not_mem_cons hbody
    have hshort : ¬ (out ++ [b]).length > maxLen := by
      simp only [length_append, length_cons] at hlen ⊢
      simp only [length_nil]
      omega
    have hrec := @ih (out ++ [b]) htail (by simpa using hlen)
    rw [cons_append, readLineFrom, if_neg hb, if_neg hshort, hrec]
    simp

inductive DataError where
  | tooLarge
  | io
  deriving DecidableEq

def isTerminator (line : Bytes) : Bool := line == [dot, cr, lf] || line == [dot, lf]

def unstuff (line : Bytes) : Bytes := if line.head? = some dot then line.tail else line

/-- The loop of `read_data`, with the lines read so far. -/
def readDataFrom (maxLine maxSize : ℕ) (ending : Ending) (out bytes : Bytes) :
    Except DataError Bytes × Bytes :=
  match _h : readLineFrom maxLine ending [] bytes with
  | (.failed, rest) => (.error .tooLarge, rest)
  | (.eof, rest) => (.error .io, rest)
  | (.line l, rest) =>
    if isTerminator l then (.ok out, rest)
    else if out.length + (unstuff l).length > maxSize then (.error .tooLarge, rest)
    else readDataFrom maxLine maxSize ending (out ++ unstuff l) rest
termination_by bytes.length
decreasing_by exact readLineFrom_shorter _h

def readData (maxLine maxSize : ℕ) (r : Reader) : Except DataError Bytes × Reader :=
  ((readDataFrom maxLine maxSize r.ending [] r.bytes).1,
    { r with bytes := (readDataFrom maxLine maxSize r.ending [] r.bytes).2 })

theorem readDataFrom_line {maxLine maxSize : ℕ} {out bytes l rest : Bytes}
    (h : readLineFrom maxLine ending [] bytes = (.line l, rest)) :
    readDataFrom maxLine maxSize ending out bytes =
      if isTerminator l then (.ok out, rest)
      else if out.length + (unstuff l).length > maxSize then (.error .tooLarge, rest)
      else readDataFrom maxLine maxSize ending (out ++ unstuff l) rest := by
  rw [readDataFrom]
  split
  · next h' => rw [h] at h'; simp at h'
  · next h' => rw [h] at h'; simp at h'
  · next h' =>
    rw [h] at h'
    obtain ⟨rfl, rfl⟩ := h'
    rfl

/-! ## Replies -/

/-- A reply: its code and its lines of text, one for `write_reply`. -/
structure Reply where
  code : ℕ
  lines : List Text
  deriving DecidableEq

def reply (code : ℕ) (text : String) : Reply := { code, lines := [text.toList] }

/-! ## Commands -/

def trimLineEnd (s : Text) : Text := s.rdropWhile fun c => c == '\r' || c == '\n'

def asciiUppercase (s : Text) : Text := s.map Char.toUpper

def splitCommand (line : Text) : Text × Text :=
  match splitOnce ' ' line with
  | some (verb, rest) => (verb, trim rest)
  | none => (line, [])

/-- `parse_addr_param`. The outer `none` is a panic: the slice at the length of the keyword ends
inside a character. -/
def parseAddrParam (rest pfx : Text) : Option (Option Text) :=
  let rest := trim rest
  if byteLen rest < byteLen pfx then some none
  else
    match splitAtByte (byteLen pfx) rest with
    | none => none
    | some (before, after) =>
      if eqIgnoreAsciiCase before pfx then
        match trimStart after with
        | '<' :: inner => some ((splitOnce '>' inner).map Prod.fst)
        | _ => some none
      else some none

def fromParam : Text := "FROM:"
def toParam : Text := "TO:"

theorem parseAddrParam_brackets {pfx addr params : Text}
    (hpfx : pfx.head?.all (fun c => !isWhitespace c) = true) (haddr : '>' ∉ addr) :
    parseAddrParam (pfx ++ '<' :: (addr ++ '>' :: params)) pfx = some (some addr) := by
  have hstart : trimStart (pfx ++ '<' :: (addr ++ '>' :: params)) =
      pfx ++ '<' :: (addr ++ '>' :: params) := by
    refine trimStart_eq_self_iff.mpr fun c hc => ?_
    cases pfx with
    | nil =>
      obtain rfl : '<' = c := by simpa using hc
      decide
    | cons d =>
      obtain rfl : d = c := by simpa using hc
      simpa using hpfx
  have hend : ∀ s : Text, trimEnd (s ++ '>' :: params) = s ++ '>' :: trimEnd params :=
    fun s => rdropWhile_append_cons (by decide) s params
  have htrim : trim (pfx ++ '<' :: (addr ++ '>' :: params)) =
      pfx ++ '<' :: (addr ++ '>' :: trimEnd params) := by
    rw [trim, hstart, ← cons_append, ← append_assoc, hend, append_assoc, cons_append]
  have hopen : trimStart ('<' :: (addr ++ '>' :: trimEnd params)) =
      '<' :: (addr ++ '>' :: trimEnd params) := trimStart_eq_self_iff.mpr (by simp; decide)
  have hinner : splitOnce '>' (addr ++ '>' :: trimEnd params) = some (addr, trimEnd params) :=
    splitOnce_eq_some_iff.mpr ⟨rfl, haddr⟩
  unfold parseAddrParam
  simp only [htrim]
  rw [if_neg (by simp), splitAtByte_append]
  simp only
  rw [if_pos (by simp [eqIgnoreAsciiCase]), hopen]
  simp [hinner]

inductive Verb where
  | ehlo
  | helo
  | starttls
  | auth
  | mail
  | rcpt
  | data
  | rset
  | noop
  | quit
  | other
  deriving DecidableEq

def Verb.ofText (s : Text) : Verb :=
  let v := asciiUppercase s
  if v = "EHLO" then .ehlo
  else if v = "HELO" then .helo
  else if v = "STARTTLS" then .starttls
  else if v = "AUTH" then .auth
  else if v = "MAIL" then .mail
  else if v = "RCPT" then .rcpt
  else if v = "DATA" then .data
  else if v = "RSET" then .rset
  else if v = "NOOP" then .noop
  else if v = "QUIT" then .quit
  else .other

def parseCommand (fromUtf8Lossy : Bytes → Text) (line : Bytes) : Verb × Text :=
  let (verb, rest) := splitCommand (trimLineEnd (fromUtf8Lossy line))
  (Verb.ofText verb, rest)

/-! ## Slices of an argument -/

/-- The keyword that the argument of a command starts with. -/
def Verb.keyword : Verb → Option Text
  | .mail => some fromParam
  | .rcpt => some toParam
  | _ => none

/-- The argument is shorter than the keyword of its command, or has a character boundary where that
keyword ends. -/
def SafeArgument (verb : Verb) (rest : Text) : Prop :=
  ∀ pfx ∈ verb.keyword,
    byteLen (trim rest) < byteLen pfx ∨ IsBoundary (byteLen pfx) (trim rest)

instance (verb : Verb) (rest : Text) : Decidable (SafeArgument verb rest) :=
  inferInstanceAs (Decidable (∀ pfx ∈ verb.keyword, _))

theorem parseAddrParam_isSome_iff {rest pfx : Text} :
    (parseAddrParam rest pfx).isSome ↔
      byteLen (trim rest) < byteLen pfx ∨ IsBoundary (byteLen pfx) (trim rest) := by
  unfold parseAddrParam
  simp only
  split
  · next hshort => exact iff_of_true rfl (.inl hshort)
  next hlong =>
  rw [or_iff_right hlong, ← splitAtByte_isSome_iff]
  cases splitAtByte (byteLen pfx) (trim rest) with
  | none => rfl
  | some =>
    refine iff_of_true ?_ rfl
    simp only
    split
    · split <;> rfl
    · rfl

theorem SafeArgument.ne_none {verb : Verb} {rest pfx : Text} (h : SafeArgument verb rest)
    (hpfx : verb.keyword = some pfx) : parseAddrParam rest pfx ≠ none :=
  Option.isSome_iff_ne_none.mp (parseAddrParam_isSome_iff.mpr (h pfx hpfx))

end Litterae.Smtp
