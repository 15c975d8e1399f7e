import Litterae.Accounts
import Litterae.Jmap.Compose
import Litterae.Queue.Enqueue
import Litterae.Smtp.Inbound

/-! # What a provisioned address is good for

`provision` checks the local part in front of a fixed stand-in domain and the domain by itself. Every
rule of `valid_email_address` looks at one side of the `@`, except the one on the length of the whole:
`provisioned_usable_iff` says that it is the only one that can be missed. Every reader of a valid
address takes it apart in the same way.
-/

namespace Litterae
open Foundations Exec Input List
open Admin (address)

structure Composable (input : Jmap.BuildInput) : Prop where
  subject : Jmap.validName input.subject = true
  inReplyTo : Jmap.validName input.inReplyToHeader = true
  references : Jmap.validName input.referencesHeader = true
  addresses : ∀ a ∈ input.toAddrs ++ input.ccAddrs, Jmap.validAddress a = true
  parts : ∀ p ∈ input.attachments ++ input.inlineImages,
    validHeaderValue p.name = true ∧ validHeaderValue p.contentType = true

structure Addressed (new : Queue.NewOutbound) : Prop where
  some : new.recipients ≠ []
  within : new.recipients.length ≤ 100
  valid : ∀ rcpt ∈ new.recipients, validEmailAddress rcpt = true

structure AwaitsRcpt (accounts : List Account) (io : Smtp.Inbound.Io) (s : Smtp.Inbound.Session) :
    Prop where
  accounts : s.world.accounts = accounts
  sender : s.envelope.mailFrom.isNone = false
  room : s.envelope.rcptTo.length < Smtp.Inbound.maxRecipients
  answers : io.faults (.accountByAddress 0) = none

def rcptArgument (account : Account) : Text := Smtp.toParam ++ '<' :: (address account ++ ['>'])

def recipientOf (account : Account) : Smtp.Inbound.ResolvedRecipient where
  address := address account
  accountId := account.id
  accountPub := account.accountPub
  accountKeyId := account.keyId

/-- The address works wherever one is asked for. -/
structure Usable (accounts : List Account) (account : Account) : Prop where
  valid : validEmailAddress (address account) = true
  received : ∀ io s, AwaitsRcpt accounts io s →
    Smtp.Inbound.rcpt io (rcptArgument account) s =
      { s.answer .rcpt (rcptArgument account) (Smtp.reply 250 "OK") with
        envelope := { s.envelope with rcptTo := s.envelope.rcptTo ++ [recipientOf account] } }
  composed : ∀ C input, Composable input → input.fromAddress = address account →
    Jmap.build C input ≠ .error "invalid message header value"
  sent : ∀ new, Addressed new → new.envelopeFrom = address account → Queue.invalidEnvelope new = false
  found : findByAddress accounts account.localPart account.domain = some account

section
variable {accounts : List Account} {account : Account}

theorem address_eq :
    address account = account.localPart ++ '@' :: account.domain := by
  rw [address, append_assoc, singleton_append]

section
variable (hvalid : validEmailAddress (address account))
include hvalid

theorem rcpt_accepts (hbracket : '>' ∉ address account) (hat : '@' ∉ account.domain)
    (hfound : findByAddress accounts account.localPart account.domain = some account)
    {io : Smtp.Inbound.Io} {s : Smtp.Inbound.Session} (h : AwaitsRcpt accounts io s) :
    Smtp.Inbound.rcpt io (rcptArgument account) s =
      { s.answer .rcpt (rcptArgument account) (Smtp.reply 250 "OK") with
        envelope := { s.envelope with rcptTo := s.envelope.rcptTo ++ [recipientOf account] } } := by
  have hparse : Smtp.parseAddrParam (rcptArgument account) Smtp.toParam = some (some (address account)) :=
    Smtp.parseAddrParam_brackets (by decide) hbracket
  have hresolve : Smtp.Inbound.resolveRecipient io.faults s.world (address account) =
      some (recipientOf account) := by
    have hsplit : rsplitOnce '@' (address account) = some (account.localPart, account.domain) := by
      rw [address_eq, rsplitOnce_append hat]
    have haccount : Smtp.Inbound.resolveAccount io.faults s.world account.localPart account.domain =
        some account := by
      simp [Smtp.Inbound.resolveAccount, Smtp.Inbound.lookup, h.answers, h.accounts, hfound]
    simp [Smtp.Inbound.resolveRecipient, hsplit, haccount, recipientOf]
  have hroom : ¬ s.envelope.rcptTo.length ≥ Smtp.Inbound.maxRecipients := Nat.not_le.mpr h.room
  simp [Smtp.Inbound.rcpt, h.sender, hroom, hparse, hvalid, hresolve]

theorem build_accepts {C : Jmap.Composer} {input : Jmap.BuildInput} (h : Composable input)
    (hfrom : input.fromAddress = address account) :
    Jmap.build C input ≠ .error "invalid message header value" := by
  have haddresses : ((input.toAddrs ++ input.ccAddrs).any fun a => !Jmap.validAddress a) = false :=
    any_eq_false.mpr fun a ha => by simp [h.addresses a ha]
  have hparts : ((input.attachments ++ input.inlineImages).any fun p =>
      !validHeaderValue p.name || !validHeaderValue p.contentType) = false :=
    any_eq_false.mpr fun p hp => by simp [h.parts p hp]
  rw [Jmap.build, hfrom, hvalid, h.subject, h.inReplyTo, h.references, haddresses, hparts]
  -- what is left is an error of the MIME builder, whose text starts differently
  cases C.writeToVec input with
  | ok | error => simp

theorem envelope_accepts {new : Queue.NewOutbound} (h : Addressed new)
    (hfrom : new.envelopeFrom = address account) :
    Queue.invalidEnvelope new = false := by
  have hrcpts : (new.recipients.any fun rcpt => !validEmailAddress rcpt) = false :=
    any_eq_false.mpr fun rcpt hrcpt => by simp [h.valid rcpt hrcpt]
  have hwithin : ¬ 100 < new.recipients.length := Nat.not_lt.mpr h.within
  simp [Queue.invalidEnvelope, hfrom, hvalid, hrcpts, hwithin, h.some]

end

end

section
variable {accounts : List Account} {c : ProvisionCall}

theorem ProvisionCall.Sound.found (h : c.Sound accounts) :
    findByAddress (accounts ++ [c.row accounts]) c.localPart (c.domain.map Char.toLower) =
      some (c.row accounts) := by
  have hold : accounts.find? (fun a => a.localPart == c.localPart &&
      a.domain == c.domain.map Char.toLower) = none := by
    refine List.find?_eq_none.mpr fun a ha hmatch => ?_
    simp only [Bool.and_eq_true, beq_iff_eq] at hmatch
    exact h.fresh a ha hmatch.1 hmatch.2
  rw [findByAddress, map_toLower_toLower, List.find?_append, hold]
  simp [ProvisionCall.row]

theorem ProvisionCall.Sound.usable_iff (h : c.Sound accounts) :
    Usable (accounts ++ [c.row accounts]) (c.row accounts) ↔
      byteLen c.localPart + 1 + byteLen c.domain ≤ 254 := by
  have hname := validDomainName_lower h.domain
  have haddress : address (c.row accounts) = c.localPart ++ '@' :: c.domain.map Char.toLower :=
    address_eq
  have hlength : validEmailAddress (address (c.row accounts)) ↔
      byteLen c.localPart + 1 + byteLen c.domain ≤ 254 := by
    rw [haddress, validEmailAddress_join h.localPart hname, byteLen_map_toLower]
  refine ⟨fun husable => hlength.mp husable.valid, fun hle => ?_⟩
  have hvalid := hlength.mpr hle
  have hbracket : '>' ∉ address (c.row accounts) :=
    haddress ▸ bracket_not_mem_join h.localPart hname
  have hat : '@' ∉ (c.row accounts).domain := at_not_mem_domain hname
  exact ⟨hvalid, fun _ _ hs => rcpt_accepts hvalid hbracket hat h.found hs,
    fun _ _ hinput hfrom => build_accepts hvalid hinput hfrom,
    fun _ hnew hfrom => envelope_accepts hvalid hnew hfrom, h.found⟩

end

/-- Whatever `provision` accepts is usable exactly if the address has at most 254 bytes. -/
theorem provisioned_usable_iff {P : Primitives} {accounts accounts' : List Account} {account : Account}
    {c : ProvisionCall}
    (h : Admin.AuthStore.provision P c.faults c.now c.salt c.accountPub c.localPart c.domain c.password
      accounts = (.ok account, accounts')) :
    Usable accounts' account ↔ byteLen c.localPart + 1 + byteLen c.domain ≤ 254 := by
  rcases provision_cases P accounts c with ⟨e, hfailed⟩ | ⟨hsound, hnew⟩
  · cases hfailed.symm.trans h
  · cases hnew.symm.trans h
    exact hsound.usable_iff

/-! ## Valid addresses on the wire -/

/-- No reader of an envelope takes `a` for anything but one address. -/
structure ProtocolSafe (a : Text) : Prop where
  one : a.count '@' = 1
  plain : ∀ c ∈ a, isControl c = false ∧ isWhitespace c = false ∧ c ∉ addressDelimiters
  split : ∃ localPart domain, splitOnce '@' a = some (localPart, domain) ∧
    rsplitOnce '@' a = some (localPart, domain) ∧ validDomainName domain = true ∧
    Queue.rcptDomain a = domain.map Char.toLower ∧ validDomainName (Queue.rcptDomain a) = true
  parsed : ∀ pfx ∈ [Smtp.fromParam, Smtp.toParam], ∀ params,
    Smtp.parseAddrParam (pfx ++ '<' :: (a ++ '>' :: params)) pfx = some (some a)

/-- What the validator accepts is safe in every command. -/
theorem validEmailAddress_protocolSafe {a : Text} (h : validEmailAddress a) :
    ProtocolSafe a := by
  obtain ⟨localPart, domain, rfl, hcount, hplain, hdomain⟩ := validEmailAddress_cases h
  have hmem := plain_iff.mp hplain
  have hat : '@' ∉ localPart := by
    rw [count_append, count_cons_self] at hcount
    exact count_eq_zero.mp (by omega)
  have hlast := rsplitOnce_append (l := localPart) (at_not_mem_domain hdomain)
  have hrouting : Queue.rcptDomain (localPart ++ '@' :: domain) = domain.map Char.toLower := by
    rw [Queue.rcptDomain, hlast]
  refine ⟨hcount, hmem, ⟨localPart, domain, splitOnce_eq_some_iff.mpr ⟨rfl, hat⟩, hlast, hdomain,
    hrouting, hrouting ▸ validDomainName_lower hdomain⟩, fun pfx hpfx params => ?_⟩
  refine Smtp.parseAddrParam_brackets ?_ fun hclose => (hmem '>' hclose).2.2 (by decide)
  exact (by decide : ∀ pfx ∈ [Smtp.fromParam, Smtp.toParam],
    pfx.head?.all (fun c => !isWhitespace c) = true) pfx hpfx

theorem validEmailAddress_protocolSafe_alice : ProtocolSafe "alice@Example.com" :=
  validEmailAddress_protocolSafe (by decide)

/-! ## An address that is too long -/

def sampleMailbox (localPart domain : Text) : ProvisionCall where
  localPart := localPart
  domain := domain
  password := [1]
  now := 1600000000
  salt := .padded []
  accountPub := .padded []
  faults := .none

def sampleProvisioned (localPart domain : Text) : Res Error Account × List Account :=
  let c := sampleMailbox localPart domain
  Admin.AuthStore.provision (Primitives.sample fun _ => none) c.faults c.now c.salt c.accountPub
    c.localPart c.domain c.password []

def longLocalPart : Text := List.replicate 100 'a'

def longDomain : Text := join ['.'] (List.replicate 3 (List.replicate 63 'b'))

/-- The mailbox is made, and its address is valid nowhere. -/
theorem overlong_mailbox :
    ∃ account accounts', sampleProvisioned longLocalPart longDomain = (.ok account, accounts') ∧
      validEmailAddress (address account) = false ∧ ¬ Usable accounts' account := by
  have hinvalid : validEmailAddress (address
      ((sampleMailbox longLocalPart longDomain).row [])) = false := by
    decide +kernel
  have hrun : sampleProvisioned longLocalPart longDomain =
      (.ok ((sampleMailbox longLocalPart longDomain).row []),
        [(sampleMailbox longLocalPart longDomain).row []]) := by
    decide +kernel
  refine ⟨_, _, hrun, hinvalid, fun husable => ?_⟩
  have hvalid := husable.valid
  rw [hinvalid] at hvalid
  cases hvalid

theorem usable_alice :
    ∃ account accounts', sampleProvisioned "alice" "Example.com" =
      (.ok account, accounts') ∧ Usable accounts' account := by
  have hrun : sampleProvisioned "alice" "Example.com" =
      (.ok ((sampleMailbox "alice" "Example.com").row []),
        [(sampleMailbox "alice" "Example.com").row []]) := by
    decide +kernel
  have hshort : byteLen "alice" + 1 + byteLen "Example.com" ≤ 254 := by decide
  exact ⟨_, _, hrun, (provisioned_usable_iff hrun).mpr hshort⟩

end Litterae
