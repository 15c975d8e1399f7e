import Litterae.Accounts
import Litterae.Login

/-! # Who a sender is

MAIL compares the address with the account's up to ASCII case, `find_by_address` compares local parts
as they are written. So an accepted sender is another account's address exactly if there is an account
whose address is the authenticated one's in another case.
-/

namespace Litterae.Smtp.Submission
open Foundations List

/-- The command is accepted: the reply is 250 and the envelope has the address as its sender. -/
def Accepts (s : Session) (rest addr : Text) : Prop :=
  mail rest s = { s.answer .mail rest (reply 250 "OK") with
    envelope := { s.envelope with mailFrom := some addr, rcptTo := [] } }

def SameUpToCase (a b : Account) : Prop :=
  b.domain = a.domain ∧ eqIgnoreAsciiCase b.localPart a.localPart = true

section
variable {P : Primitives} {accounts : List Account} {X : Account} {s : Session}

theorem accepts_iff (hs : s.envelope.authenticated = some X) {rest addr : Text} :
    Accepts s rest addr ↔ parseAddrParam rest fromParam = some (some addr) ∧
      eqIgnoreAsciiCase addr (address X) := by
  have hlog : ∀ r : Reply, (s.answer .mail rest r).log = .command .mail rest r :: s.log := fun _ => rfl
  constructor
  · intro h
    have hsame := congrArg Smtp.Session.log h
    have hsender := congrArg (fun t => (Smtp.Session.envelope t).mailFrom) h
    simp only [mail, hs] at h hsame hsender
    split at hsame
    · simp [Smtp.Session.abort, hlog] at hsame
    · next addr' hparse =>
      split at hsame
      · next heq =>
        simp only [hparse, if_pos heq] at hsender
        obtain rfl : addr' = addr := Option.some.inj hsender
        exact ⟨hparse, heq⟩
      · simp [hlog, reply] at hsame
    · simp [hlog, reply] at hsame
  · rintro ⟨hparse, heq⟩
    simp only [Accepts, mail, hs, hparse, heq, if_true]

theorem parts_of_fold (h : AccountTable accounts) (hX : X ∈ accounts) {addr localPart domain : Text}
    (haddr : eqIgnoreAsciiCase addr (address X))
    (hsplit : splitOnce '@' addr = some (localPart, domain)) :
    eqIgnoreAsciiCase localPart X.localPart ∧ domain.map Char.toLower = X.domain := by
  obtain ⟨rfl, hlocal⟩ := splitOnce_eq_some_iff.mp hsplit
  have hfold : ∀ l : Text, '@' ∉ l → '@' ∉ l.map Char.toLower := by
    intro l hl hmem
    obtain ⟨c, hc, hat⟩ := mem_map.mp hmem
    exact hl (eq_of_toLower_eq (by decide) hat ▸ hc)
  have heq : localPart.map Char.toLower ++ '@' :: domain.map Char.toLower =
      X.localPart.map Char.toLower ++ '@' :: X.domain.map Char.toLower := by
    have hboth := beq_iff_eq.mp haddr
    rw [address, map_append, map_cons, map_append, map_cons] at hboth
    exact hboth
  have hleft : splitOnce '@' (localPart.map Char.toLower ++ '@' :: domain.map Char.toLower) =
      some (localPart.map Char.toLower, domain.map Char.toLower) :=
    splitOnce_eq_some_iff.mpr ⟨rfl, hfold _ hlocal⟩
  have hright := splitOnce_eq_some_iff.mpr ⟨heq, hfold _ (h.at_not_mem hX)⟩
  have hparts := hleft.symm.trans hright
  simp only [Option.some.injEq, Prod.mk.injEq] at hparts
  exact ⟨by simp [eqIgnoreAsciiCase, hparts.1], hparts.2.trans (h.lower hX)⟩

theorem bracket_not_mem_address (h : AccountTable accounts) (hX : X ∈ accounts) : '>' ∉ address X := by
  obtain ⟨d, hd, hlower⟩ := h.domain X hX
  rw [address, hlower]
  exact Input.bracket_not_mem_join (h.localPart X hX) (Input.validDomainName_lower hd)

/-- In a session of the account `X`, no accepted sender is the address of another account, exactly if no
other account's address is that of `X` up to ASCII case. -/
theorem sender_own_iff (hP : Provisioned P accounts) (hX : X ∈ accounts)
    (hs : s.envelope.authenticated = some X) :
    (∀ rest addr, Accepts s rest addr →
      ∀ localPart domain, splitOnce '@' addr = some (localPart, domain) →
        ∀ Y, findByAddress accounts localPart domain = some Y → Y.id = X.id) ↔
    ∀ Y ∈ accounts, SameUpToCase X Y → Y.id = X.id := by
  have htable := hP.table
  constructor
  · intro hown Y hY ⟨hdomain, hlocal⟩
    have haccepts : Accepts s (fromParam ++ '<' :: (address Y ++ ['>'])) (address Y) := by
      refine (accepts_iff hs).mpr
        ⟨parseAddrParam_brackets (by decide) (bracket_not_mem_address htable hY), ?_⟩
      simp only [eqIgnoreAsciiCase, beq_iff_eq] at hlocal ⊢
      rw [address, address, map_append, map_append, hlocal, hdomain]
    exact hown _ _ haccepts Y.localPart Y.domain
      (splitOnce_eq_some_iff.mpr ⟨rfl, htable.at_not_mem hY⟩) Y (htable.findByAddress hY)
  · intro hcase rest addr haccepts localPart domain hsplit Y hY
    obtain ⟨hlocal, hdomain⟩ := Login.findByAddress_some hY
    obtain ⟨hfold, hlower⟩ := parts_of_fold htable hX ((accepts_iff hs).mp haccepts).2 hsplit
    exact hcase Y (mem_of_find?_eq_some hY) ⟨hdomain.trans hlower, hlocal ▸ hfold⟩

end

/-! ## A sender in another case -/

def sampleProvision (localPart : String) : AccountAct :=
  .provision
    { localPart := localPart.toList, domain := "example.com", password := [1], now := 1600000000
      salt := .padded [], accountPub := .padded [], faults := .none }

def sampleAccounts (localParts : List String) : List Account :=
  (Foundations.run (accountStep (Primitives.sample fun _ => none)) []
    (localParts.map sampleProvision)).getD []

theorem sampleAccounts_provisioned (localParts : List String) :
    Provisioned (Primitives.sample fun _ => none) (sampleAccounts localParts) := by
  have htotal : ∀ (acts : List AccountAct) (accounts : List Account), ∃ t,
      Foundations.run (accountStep (Primitives.sample fun _ => none)) accounts acts = some t := by
    intro acts
    induction acts with
    | nil => exact fun accounts => ⟨accounts, rfl⟩
    | cons act _ ih =>
      intro accounts
      cases act with
      | provision | delete => exact ih _
  obtain ⟨t, ht⟩ := htotal (localParts.map sampleProvision) []
  exact ⟨localParts.map sampleProvision, by rw [sampleAccounts, ht]; rfl⟩

def sampleTurn : Io where
  writeOk := fun _ => true
  faults := .none
  instant := 0
  unlockAny := fun _ password => some (password == "secret")
  auditOk := true
  now := 1700000000
  generated := .ok ([1], [2])
  sign := fun _ _ => .ok []
  others := id
  pipelined := false
  tlsStream := none

def sampleSubmission (localParts : List String) (sender : String) : Session :=
  run (Primitives.sample fun _ => none) { hostname := "mx", maxMessageSize := 1000 }
    (List.replicate 3 sampleTurn)
    (connect true
      ⟨utf8 ("AUTH PLAIN \x00alice@example.com\x00secret\r\nMAIL FROM:<" ++ sender.toList ++
        ">\r\n"), .eof⟩
      { stores := { Stores.empty with accounts := sampleAccounts localParts }
        throttle := { entries := fun _ => none, baseDelay := 1, maxDelay := 60 } })

/-- `alice` has logged in and sends as `Alice`, who is somebody else. -/
theorem mail_accepts_other_case :
    let s := sampleSubmission ["alice", "Alice"] "Alice@example.com"
    s.envelope.authenticated.map Account.id = some 1 ∧
      s.envelope.mailFrom = some "Alice@example.com" ∧
      s.log.head? = some (.command .mail "FROM:<Alice@example.com>" (reply 250 "OK")) ∧
      (findByAddress (sampleAccounts ["alice", "Alice"]) "Alice" "example.com").map
        Account.id = some 2 := by
  decide +kernel

/-- With `bob` as the other account, the same spelling is nobody else's. -/
theorem sender_own_alice :
    let s := sampleSubmission ["alice", "bob"] "ALICE@example.com"
    s.envelope.mailFrom = some "ALICE@example.com" ∧
      ∃ X ∈ sampleAccounts ["alice", "bob"], s.envelope.authenticated = some X ∧
        ∀ rest addr, Accepts s rest addr →
          ∀ localPart domain, splitOnce '@' addr = some (localPart, domain) →
            ∀ Y, findByAddress (sampleAccounts ["alice", "bob"]) localPart domain = some Y →
              Y.id = X.id := by
  have hhead : ∃ X ∈ sampleAccounts ["alice", "bob"],
      (sampleSubmission ["alice", "bob"] "ALICE@example.com").envelope.authenticated = some X := by
    decide +kernel
  obtain ⟨X, hX, hlogin⟩ := hhead
  refine ⟨by decide +kernel, X, hX, hlogin, ?_⟩
  refine (sender_own_iff (sampleAccounts_provisioned _) hX hlogin).mpr ?_
  have hcase : ∀ X ∈ sampleAccounts ["alice", "bob"], ∀ Y ∈ sampleAccounts ["alice", "bob"],
      Y.domain = X.domain ∧ eqIgnoreAsciiCase Y.localPart X.localPart → Y.id = X.id := by
    decide +kernel
  exact fun Y hY hsame => hcase X hX Y hY hsame

end Litterae.Smtp.Submission
