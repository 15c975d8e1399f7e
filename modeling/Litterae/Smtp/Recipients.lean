import Litterae.Smtp.Acceptance

/-! # Whom RCPT resolves to

A recipient is the account of that local part and domain, or else the domain's catch-all account. A
lookup that fails is answered as if it had found nothing.
-/

namespace Litterae.Smtp.Inbound
open Foundations Option

/-- The two tables as `provision` and `create_domain` fill them: their keys and UNIQUE columns hold,
and domains are in lower case. -/
structure Tables (s : Stores) : Prop where
  ids : (s.accounts.map Account.id).Nodup
  addresses : (s.accounts.map fun a => (a.localPart, a.domain)).Nodup
  accountsLower : ∀ a ∈ s.accounts, a.domain.map Char.toLower = a.domain
  names : (s.domains.map Domain.name).Nodup
  domainsLower : ∀ d ∈ s.domains, d.name.map Char.toLower = d.name

/-- `X` is the account of the local part in the domain. -/
def Holds (s : Stores) (localPart domain : Text) (X : Account) : Prop :=
  X ∈ s.accounts ∧ X.localPart = localPart ∧ eqIgnoreAsciiCase X.domain domain = true

def CatchAll (s : Stores) (domain localPart : Text) : Prop :=
  ∃ d ∈ s.domains, eqIgnoreAsciiCase d.name domain = true ∧ d.catchAllLocalPart = some localPart

/-- `X` receives mail for the local part in the domain. -/
inductive Resolves (s : Stores) (localPart domain : Text) (X : Account) : Prop
  | mailbox (h : Holds s localPart domain X)
  | catchAll (c : Text) (hnone : ∀ Y, ¬ Holds s localPart domain Y) (hc : CatchAll s domain c)
      (h : Holds s c domain X)

/-- A lookup made for the address fails. -/
inductive LookupFails (faults : Faults) (s : Stores) (localPart domain : Text) : Prop
  | mailbox (h : faults (.accountByAddress 0) ≠ none)
  | domain (hnone : ∀ Y, ¬ Holds s localPart domain Y) (h : faults .domainByName ≠ none)
  | catchAll (c : Text) (hnone : ∀ Y, ¬ Holds s localPart domain Y) (hc : CatchAll s domain c)
      (h : faults (.accountByAddress 1) ≠ none)

theorem find?_eq_findBy {ρ κ : Type} [DecidableEq κ] {key : ρ → κ} {p : ρ → Bool} {k : κ}
    (hp : ∀ r, p r ↔ key r = k) (t : List ρ) : t.find? p = findBy key k t := by
  congr 1
  funext r
  rw [Bool.eq_iff_iff, hp, beq_iff_eq]

section
variable {faults : Faults} {s : Stores} {localPart domain : Text} {X : Account}

theorem Tables.findByAddress_iff (ht : Tables s) :
    findByAddress s.accounts localPart domain = some X ↔ Holds s localPart domain X := by
  have hkey : findByAddress s.accounts localPart domain =
      findBy (fun a : Account => (a.localPart, a.domain)) (localPart, domain.map Char.toLower)
        s.accounts :=
    find?_eq_findBy (by simp) _
  rw [hkey, findBy_eq_some_iff _ ht.addresses]
  refine and_congr_right fun hX => ?_
  simp only [Prod.mk.injEq, eqIgnoreAsciiCase, beq_iff_eq, ht.accountsLower X hX]

theorem Tables.findByAddress_none (ht : Tables s)
    (h : findByAddress s.accounts localPart domain = none) (Y : Account) :
    ¬ Holds s localPart domain Y := by
  rw [← ht.findByAddress_iff, h]
  exact nofun

theorem Tables.catchAll_iff (ht : Tables s) {c : Text} :
    (getDomainByName s.domains domain).bind Domain.catchAllLocalPart = some c ↔
      CatchAll s domain c := by
  have hkey : ∀ d, getDomainByName s.domains domain = some d ↔
      d ∈ s.domains ∧ eqIgnoreAsciiCase d.name domain := by
    intro d
    have hfind : getDomainByName s.domains domain =
        findBy Domain.name (domain.map Char.toLower) s.domains :=
      find?_eq_findBy (by simp) _
    rw [hfind, findBy_eq_some_iff _ ht.names]
    refine and_congr_right fun hd => ?_
    simp only [eqIgnoreAsciiCase, beq_iff_eq, ht.domainsLower d hd]
  simp only [bind_eq_some_iff, hkey, CatchAll, and_assoc]

theorem resolveAccount_of_found (hfirst : faults (.accountByAddress 0) = none) {Y : Account}
    (hfind : findByAddress s.accounts localPart domain = some Y) :
    resolveAccount faults s localPart domain = some Y := by
  simp [resolveAccount, lookup, hfirst, hfind]

theorem resolveAccount_of_none (hfirst : faults (.accountByAddress 0) = none)
    (hfind : findByAddress s.accounts localPart domain = none)
    (hdomain : faults .domainByName = none) :
    resolveAccount faults s localPart domain =
      ((getDomainByName s.domains domain).bind Domain.catchAllLocalPart).bind fun c =>
        if faults (.accountByAddress 1) = none then findByAddress s.accounts c domain else none := by
  simp only [resolveAccount, lookup, hfirst, hfind, hdomain, if_true, bind_eq_bind,
    bind_some, bind_assoc]
  congr 1
  funext d
  congr 1
  funext c
  split <;> rfl

theorem resolveAccount_iff (ht : Tables s) (hok : ¬ LookupFails faults s localPart domain) :
    resolveAccount faults s localPart domain = some X ↔ Resolves s localPart domain X := by
  have hfirst : faults (.accountByAddress 0) = none := by_contra fun h => hok (.mailbox h)
  cases hfind : findByAddress s.accounts localPart domain with
  | some Y =>
    rw [resolveAccount_of_found hfirst hfind, ← hfind, ht.findByAddress_iff]
    refine ⟨.mailbox, fun h => ?_⟩
    cases h with
    | mailbox h => exact h
    | catchAll c hnone => exact absurd (ht.findByAddress_iff.mp hfind) (hnone Y)
  | none =>
    have hnone := ht.findByAddress_none hfind
    have hdomain : faults .domainByName = none := by_contra fun h => hok (.domain hnone h)
    rw [resolveAccount_of_none hfirst hfind hdomain, bind_eq_some_iff]
    constructor
    · rintro ⟨c, hc, hX⟩
      split at hX
      · exact .catchAll c hnone (ht.catchAll_iff.mp hc) (ht.findByAddress_iff.mp hX)
      · cases hX
    · intro h
      cases h with
      | mailbox h => exact absurd h (hnone X)
      | catchAll c _ hc h =>
        have hlast : faults (.accountByAddress 1) = none :=
          by_contra fun hf => hok (.catchAll c hnone hc hf)
        refine ⟨c, ht.catchAll_iff.mpr hc, ?_⟩
        rw [if_pos hlast]
        exact ht.findByAddress_iff.mpr h

theorem resolveAccount_of_fails (ht : Tables s) (h : LookupFails faults s localPart domain) :
    resolveAccount faults s localPart domain = none := by
  by_cases hfirst : faults (.accountByAddress 0) = none
  swap
  · simp [resolveAccount, lookup, hfirst]
  have hmissing : ∀ h : ∀ Y, ¬ Holds s localPart domain Y,
      findByAddress s.accounts localPart domain = none := by
    intro hnone
    rw [eq_none_iff_forall_ne_some]
    exact fun Y hY => hnone Y (ht.findByAddress_iff.mp hY)
  cases h with
  | mailbox h => exact absurd hfirst h
  | domain hnone h => simp [resolveAccount, lookup, hfirst, hmissing hnone, h]
  | catchAll c hnone hc h =>
    by_cases hdomain : faults .domainByName = none
    · rw [resolveAccount_of_none hfirst (hmissing hnone) hdomain, ht.catchAll_iff.mpr hc,
        bind_some, if_neg h]
    · simp [resolveAccount, lookup, hfirst, hmissing hnone, hdomain]

end

/-! ## The reply -/

def resolvedAs (addr : Text) (X : Account) : ResolvedRecipient where
  address := addr
  accountId := X.id
  accountPub := X.accountPub
  accountKeyId := X.keyId

def Answered (rest : Text) (s t : Session) (p : ℕ → Prop) : Prop :=
  ∃ r : Reply, t.log = .command .rcpt rest r :: s.log ∧ p r.code

def Accepted (rest addr : Text) (s t : Session) (X : Account) : Prop :=
  Answered rest s t (· = 250) ∧ t.envelope.rcptTo = s.envelope.rcptTo ++ [resolvedAs addr X]

/-- RCPT as it should be: accepted for the account the address resolves to, refused for good if
there is none, and put off if that cannot be told. -/
structure Resolved (faults : Faults) (rest addr localPart domain : Text) (s t : Session) : Prop where
  accepted : ¬ LookupFails faults s.world localPart domain → ∀ X ∈ s.world.accounts,
    (Accepted rest addr s t X ↔ Resolves s.world localPart domain X)
  refused : Answered rest s t (· = 550) →
    ¬ LookupFails faults s.world localPart domain ∧ ∀ X, ¬ Resolves s.world localPart domain X
  putOff : LookupFails faults s.world localPart domain → Answered rest s t (· / 100 = 4)

section
variable {io : Io} {rest addr localPart domain : Text} {s : Session}

theorem answered_iff {c : ℕ} {text : String} {e : Envelope} {p : ℕ → Prop} :
    Answered rest s { s.answer .rcpt rest (reply c text) with envelope := e } p ↔ p c := by
  constructor
  · rintro ⟨r, hr, hp⟩
    simp only [Session.answer, List.cons.injEq, Entry.command.injEq, true_and, and_true] at hr
    rw [← hr] at hp
    exact hp
  · exact fun hp => ⟨_, rfl, hp⟩

theorem rcpt_of_resolved (hmail : s.envelope.mailFrom.isNone = false)
    (hroom : s.envelope.rcptTo.length < maxRecipients)
    (hparam : parseAddrParam rest toParam = some (some addr))
    (hvalid : Input.validEmailAddress addr) :
    rcpt io rest s =
      (resolveRecipient io.faults s.world addr).elim
        (s.answer .rcpt rest (reply 550 "No such user here")) fun resolved =>
          { s.answer .rcpt rest (reply 250 "OK") with
            envelope := { s.envelope with rcptTo := s.envelope.rcptTo ++ [resolved] } } := by
  simp only [rcpt, hmail, hparam, hvalid, if_true, if_neg (Nat.not_le.mpr hroom),
    Bool.false_eq_true, if_false]
  cases resolveRecipient io.faults s.world addr <;> rfl

theorem resolveRecipient_eq (hdomain : '@' ∉ domain) :
    resolveRecipient io.faults s.world (localPart ++ '@' :: domain) =
      (resolveAccount io.faults s.world localPart domain).map
        (resolvedAs (localPart ++ '@' :: domain)) := by
  simp only [resolveRecipient, rsplitOnce_append hdomain, bind_eq_bind, bind_some]
  cases resolveAccount io.faults s.world localPart domain <;> rfl

/-- RCPT is answered as it should be exactly when no lookup it makes fails. -/
theorem rcpt_resolved_iff (ht : Tables s.world) (hmail : s.envelope.mailFrom.isNone = false)
    (hroom : s.envelope.rcptTo.length < maxRecipients) (hdomain : '@' ∉ domain)
    (haddr : addr = localPart ++ '@' :: domain) (hvalid : Input.validEmailAddress addr)
    (hparam : parseAddrParam rest toParam = some (some addr)) :
    Resolved io.faults rest addr localPart domain s (rcpt io rest s) ↔
      ¬ LookupFails io.faults s.world localPart domain := by
  rw [rcpt_of_resolved hmail hroom hparam hvalid, haddr, resolveRecipient_eq hdomain, ← haddr]
  constructor
  · intro h hfails
    have hreply := h.putOff hfails
    rw [resolveAccount_of_fails ht hfails] at hreply
    exact absurd (answered_iff.mp hreply) (by decide)
  · intro hok
    have hres := fun X => @resolveAccount_iff io.faults s.world localPart domain X ht hok
    cases hacc : resolveAccount io.faults s.world localPart domain with
    | none =>
      rw [hacc] at hres
      have hnobody : ∀ X, ¬ Resolves s.world localPart domain X := by
        intro X h
        cases (hres X).mpr h
      refine ⟨fun _ X _ => ⟨fun h => ?_, fun h => absurd h (hnobody X)⟩,
        fun _ => ⟨hok, hnobody⟩, fun h => absurd h hok⟩
      exact absurd (answered_iff.mp h.1) (by decide)
    | some Y =>
      rw [hacc] at hres
      refine ⟨fun _ X hX => ?_, fun h => ?_, fun h => absurd h hok⟩
      · rw [← hres X]
        constructor
        · intro h
          have hid : Y.id = X.id := by
            have hlast := List.append_cancel_left h.2
            simp only [List.cons.injEq, resolvedAs, ResolvedRecipient.mk.injEq, and_true,
              true_and] at hlast
            exact hlast.1
          have hY : Y ∈ s.world.accounts := by
            cases (hres Y).mp rfl with
            | mailbox h | catchAll c _ _ h => exact h.1
          rw [List.inj_on_of_nodup_map ht.ids hY hX hid]
        · intro h
          cases h
          exact ⟨answered_iff.mpr rfl, rfl⟩
      · exact absurd (answered_iff.mp h) (by decide)

end

def sampleDomain : Domain where
  id := 1
  name := "example.com"
  catchAllLocalPart := some "alice"
  verificationToken := []
  verifiedAt := none
  createdAt := 1600000000

def sampleMail : Session :=
  { connect ⟨[], .eof⟩ { sampleStores with domains := [sampleDomain] } with
    envelope := { Envelope.default with mailFrom := some "eve@example.net" } }

/-- Mail for a local part nobody has goes to the catch-all account, however the domain is spelled. -/
theorem rcpt_resolved_iff_catchAll :
    let t := rcpt sampleIo "TO:<carol@Example.COM>" sampleMail
    Resolved .none "TO:<carol@Example.COM>" "carol@Example.COM" "carol"
        "Example.COM" sampleMail t ∧
      t.envelope.rcptTo.map ResolvedRecipient.accountId = [1] := by
  have htables : Tables sampleMail.world := by constructor <;> decide
  refine ⟨(@rcpt_resolved_iff sampleIo _ "carol@Example.COM" "carol"
    "Example.COM" sampleMail htables (by decide) (by decide) (by decide) (by decide)
    (by decide) (by decide)).mpr ?_, by decide +kernel⟩
  intro h
  cases h with
  | mailbox h | domain _ h | catchAll _ _ _ h => exact h rfl

/-- A locked database turns the mailbox of an account into one that does not exist. -/
theorem locked_database_refuses :
    let io := { sampleIo with
      faults := .only (.accountByAddress 0) "database is locked" }
    let t := rcpt io "TO:<alice@example.com>" sampleMail
    t.log.head? = some (.command .rcpt "TO:<alice@example.com>"
        (reply 550 "No such user here")) ∧
      (findByAddress sampleMail.world.accounts "alice" "example.com").isSome = true := by
  decide +kernel

end Litterae.Smtp.Inbound
