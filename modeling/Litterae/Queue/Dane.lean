import Litterae.Queue.Send

/-! # Connecting to the hosts of a domain (`dns/src/lib.rs`, `queue/src/{dane,worker}.rs`)

The hosts are tried in order. A host with a DNSSEC-validated TLSA record must present a certificate
that the record pins; the others may do without TLS. `connected_pinned` says what a connection rests
on, `bounce_mismatch_iff` when giving up on all hosts bounces the mail.
-/

namespace Litterae.Queue
open Foundations List Nat

/-! ## TLSA records -/

structure TlsaRecord where
  certUsage : UInt8
  selector : UInt8
  matching : UInt8
  certData : Bytes
  deriving DecidableEq

/-- The verdict of the DNSSEC validation on a record. -/
inductive DnssecProof where
  | secure
  | insecure
  | indeterminate
  | bogus
  deriving DecidableEq

inductive RData where
  | tlsa (record : TlsaRecord)
  | other
  deriving DecidableEq

structure Answer where
  proof : DnssecProof
  data : RData
  deriving DecidableEq

inductive Lookup where
  | answers (records : List Answer)
  | noRecordsFound
  | nsec (proof : DnssecProof) (detail : Text)
  | failed (detail : Text)

def resolveErr (detail : Text) : Error := .config ("DNS resolution failed: " ++ detail)

def trimDots (name : Text) : Text := name.rdropWhile (· == '.')

def tlsaName (port : ℕ) (hostname : Text) : Text :=
  '_' :: (toString port).toList ++ "._tcp." ++ trimDots hostname ++ ['.']

def Answer.tlsa : Answer → Option TlsaRecord
  | ⟨_, .tlsa record⟩ => some record
  | ⟨_, .other⟩ => none

def resolveTlsa (lookup : Text → Lookup) (port : ℕ) (hostname : Text) :
    Except Error (List TlsaRecord) :=
  match lookup (tlsaName port hostname) with
  | .noRecordsFound => .ok []
  | .nsec proof detail => if proof = .bogus then .error (resolveErr detail) else .ok []
  | .failed detail => .error (resolveErr detail)
  | .answers records =>
    if records.any (fun r => r.proof = .bogus) then
      .error (.config ("DNSSEC validation failed for TLSA records on " ++ hostname))
    else .ok ((records.filter fun r => r.proof = .secure).filterMap Answer.tlsa)

/-- The answer to the lookup holds `record`, validated. -/
def Secured (lookup : Text → Lookup) (port : ℕ) (hostname : Text) (record : TlsaRecord) : Prop :=
  ∃ answers, lookup (tlsaName port hostname) = .answers answers ∧ ⟨.secure, .tlsa record⟩ ∈ answers

theorem mem_secureTlsa {answers : List Answer} {record : TlsaRecord} :
    record ∈ (answers.filter fun r => r.proof = .secure).filterMap Answer.tlsa ↔
      ⟨.secure, .tlsa record⟩ ∈ answers := by
  rw [mem_filterMap]
  constructor
  · rintro ⟨⟨proof, data⟩, hmem, hdata⟩
    obtain ⟨hanswer, hproof⟩ := mem_filter.mp hmem
    obtain rfl : proof = .secure := of_decide_eq_true hproof
    cases data with
    | tlsa r =>
      obtain rfl : r = record := Option.some.inj hdata
      exact hanswer
    | other => cases hdata
  · intro hanswer
    exact ⟨_, mem_filter.mpr ⟨hanswer, rfl⟩, rfl⟩

variable {tlsa : List TlsaRecord}

theorem mem_resolveTlsa {lookup : Text → Lookup} {port : ℕ} {hostname : Text}
    (h : resolveTlsa lookup port hostname = .ok tlsa) (record : TlsaRecord) :
    record ∈ tlsa ↔ Secured lookup port hostname record := by
  unfold resolveTlsa at h
  unfold Secured
  cases hlookup : lookup (tlsaName port hostname) with
  | noRecordsFound =>
    rw [hlookup] at h
    cases h
    simp
  | nsec =>
    rw [hlookup] at h
    simp only at h
    split at h
    · cases h
    · cases h
      simp
  | failed =>
    rw [hlookup] at h
    cases h
  | answers records =>
    rw [hlookup] at h
    simp only at h
    split at h
    · cases h
    · cases h
      rw [mem_secureTlsa]
      constructor
      · intro hmem
        exact ⟨records, rfl, hmem⟩
      · rintro ⟨answers, hanswers, hmem⟩
        cases hanswers
        exact hmem

/-! ## The verifier -/

def usageDaneEe : UInt8 := 3
def selectorSpki : UInt8 := 1
def matchingSha256 : UInt8 := 1

def TlsaRecord.supported (r : TlsaRecord) : Bool :=
  r.certUsage == usageDaneEe && r.selector == selectorSpki && r.matching == matchingSha256 &&
    r.certData.length == 32

structure DaneVerifier where
  expectedSpkiSha256 : List (Block 32)
  deriving DecidableEq

/-- `DaneVerifier::new`: no verifier without records, and one that pins nothing for records of other
profiles. -/
def DaneVerifier.new (records : List TlsaRecord) : Option DaneVerifier :=
  if records.isEmpty then none
  else some ⟨(records.filter TlsaRecord.supported).filterMap fun r => Block.ofBytes 32 r.certData⟩

inductive TlsError where
  | badEncoding
  | applicationVerificationFailure
  | other (detail : Text)
  deriving DecidableEq

def TlsaRecord.Pins (r : TlsaRecord) (hash : Bytes) : Prop :=
  r.certUsage = 3 ∧ r.selector = 1 ∧ r.matching = 1 ∧ r.certData.length = 32 ∧ r.certData = hash

section
variable (P : Primitives) (spki : Bytes → Option Bytes) {v : DaneVerifier}

/-- `spki` is the certificate's public key as `x509_parser` finds it. -/
def DaneVerifier.verifyServerCert (v : DaneVerifier) (cert : Bytes) : Except TlsError Unit :=
  match spki cert with
  | none => .error .badEncoding
  | some key =>
    if v.expectedSpkiSha256.any fun expected => expected.val == P.sha256 key then .ok ()
    else .error .applicationVerificationFailure

/-- The certificate has a key that a record pins. -/
def Pinned (tlsa : List TlsaRecord) (cert : Bytes) : Prop :=
  ∃ key ∈ spki cert, ∃ r ∈ tlsa, r.Pins (P.sha256 key)

theorem supported_iff {r : TlsaRecord} :
    r.supported ↔
      r.certUsage = 3 ∧ r.selector = 1 ∧ r.matching = 1 ∧ r.certData.length = 32 := by
  simp only [TlsaRecord.supported, usageDaneEe, selectorSpki, matchingSha256, Bool.and_eq_true,
    beq_iff_eq, and_assoc]

theorem new_any (h : DaneVerifier.new tlsa = some v) (hash : Bytes) :
    (v.expectedSpkiSha256.any fun expected => expected.val == hash) = true ↔
      ∃ r ∈ tlsa, r.Pins hash := by
  unfold DaneVerifier.new at h
  split at h
  · cases h
  cases h
  simp only [any_eq_true, mem_filterMap, mem_filter, beq_iff_eq]
  constructor
  · rintro ⟨b, ⟨r, ⟨hr, hsupported⟩, hblock⟩, hb⟩
    obtain ⟨husage, hselector, hmatching, hlength⟩ := supported_iff.mp hsupported
    exact ⟨r, hr, husage, hselector, hmatching, hlength, (Block.val_of_ofBytes hblock).symm.trans hb⟩
  · rintro ⟨r, hr, husage, hselector, hmatching, hlength, hdata⟩
    exact ⟨⟨r.certData, hlength⟩,
      ⟨r, ⟨hr, supported_iff.mpr ⟨husage, hselector, hmatching, hlength⟩⟩,
        Block.ofBytes_val ⟨r.certData, hlength⟩⟩, hdata⟩

theorem verifyServerCert_iff (h : DaneVerifier.new tlsa = some v) (cert : Bytes) :
    v.verifyServerCert P spki cert = .ok () ↔ Pinned P spki tlsa cert := by
  unfold DaneVerifier.verifyServerCert Pinned
  cases hkey : spki cert with
  | none => simp
  | some =>
    simp only [Option.mem_some_iff, exists_eq_left', ← new_any h]
    split <;> simp_all

end

/-! ## Hosts -/

structure MxRecord where
  preference : ℕ
  exchange : Text
  deriving DecidableEq

/-- What a host does when it is connected to and asked for TLS; `signed` says that it proves to hold
the key of its certificate. -/
inductive Remote where
  | unreachable (detail : Text)
  | noStartTls
  | startTlsRefused (code : ℕ)
  | handshake (cert : Bytes) (signed : Bool) (session : Except Text Client)

inductive ClientError where
  | missingStartTls
  | unexpectedReply (code : ℕ)
  | tls (e : TlsError)
  | io (detail : Text)
  deriving DecidableEq

structure HostIo where
  builderOk : Bool
  lookup : Text → Lookup
  /-- The verifier the builder starts with. -/
  webPki : Bytes → Except TlsError Unit
  /-- What the host does, whatever the client makes of it. -/
  remote : Remote
  /-- `SmtpClientBuilder::connect` with a verifier: the certificate and the client of the session. -/
  connect : (Bytes → Except TlsError Unit) → Except ClientError (Bytes × Client)
  /-- `connect_plain`. -/
  plain : Except Text Client

/-- What `rustls` warrants of its sessions: the verifier accepted the certificate. -/
def HostIo.Verifies (io : HostIo) : Prop :=
  ∀ verify cert client, io.connect verify = .ok (cert, client) → verify cert = .ok ()

inductive Connected where
  | tls (cert : Bytes) (client : Client)
  | plain (client : Client)

def Connected.client : Connected → Client
  | .tls _ client => client
  | .plain client => client

inductive MxOutcome where
  | connected (k : ℕ) (c : Connected)
  | failed (daneRequired : Bool)

section
variable (P : Primitives) (spki : Bytes → Option Bytes) {records : List MxRecord}
  {hosts : ℕ → HostIo} {mx : MxRecord}

/-- One round of the loop: the connection, if there is one, and whether the host asks for DANE. -/
def tryHost (io : HostIo) (mx : MxRecord) : Option Connected × Bool :=
  let host := trimDots mx.exchange
  if host.isEmpty then (none, false)
  else if !io.builderOk then (none, false)
  else
    match resolveTlsa io.lookup 25 host with
    | .error _ => (none, true)
    | .ok records =>
      match DaneVerifier.new records with
      | some verifier =>
        match io.connect (verifier.verifyServerCert P spki) with
        | .ok (cert, client) => (some (.tls cert client), true)
        | .error _ => (none, true)
      | none =>
        match io.connect io.webPki with
        | .ok (cert, client) => (some (.tls cert client), false)
        | .error .missingStartTls =>
          match io.plain with
          | .ok client => (some (.plain client), false)
          | .error _ => (none, false)
        | .error _ => (none, false)

/-- The loop of `connect_opportunistic`, from the `k`-th host on. -/
def connectFrom (hosts : ℕ → HostIo) : ℕ → Bool → List MxRecord → MxOutcome
  | _, daneRequired, [] => .failed daneRequired
  | k, daneRequired, mx :: rest =>
    match tryHost P spki (hosts k) mx with
    | (some c, _) => .connected k c
    | (none, dane) => connectFrom hosts (k + 1) (daneRequired || dane) rest

def connectOpportunistic (hosts : ℕ → HostIo) (records : List MxRecord) : MxOutcome :=
  connectFrom P spki hosts 0 false records

/-! ## What a connection rests on -/

inductive PassedOver (io : HostIo) (mx : MxRecord) : Prop
  | noHost (h : trimDots mx.exchange = [])
  | noBuilder (h : io.builderOk = false)
  | lookupFailed {e : Error} (h : resolveTlsa io.lookup 25 (trimDots mx.exchange) = .error e)
  | daneFailed {tlsa : List TlsaRecord} {v : DaneVerifier} {e : ClientError}
      (h : resolveTlsa io.lookup 25 (trimDots mx.exchange) = .ok tlsa)
      (hnew : DaneVerifier.new tlsa = some v)
      (hconnect : io.connect (v.verifyServerCert P spki) = .error e)
  | tlsFailed {e : ClientError} (h : resolveTlsa io.lookup 25 (trimDots mx.exchange) = .ok [])
      (hconnect : io.connect io.webPki = .error e)
      (hplain : e ≠ .missingStartTls)
  | plainFailed {detail : Text} (h : resolveTlsa io.lookup 25 (trimDots mx.exchange) = .ok [])
      (hconnect : io.connect io.webPki = .error .missingStartTls)
      (hplain : io.plain = .error detail)

inductive RestsOn (io : HostIo) (mx : MxRecord) : Connected → Prop
  | pinned {tlsa : List TlsaRecord} {cert : Bytes} {client : Client}
      (h : resolveTlsa io.lookup 25 (trimDots mx.exchange) = .ok tlsa)
      (hpinned : Pinned P spki tlsa cert) : RestsOn io mx (.tls cert client)
  | unpinned {cert : Bytes} {client : Client}
      (h : resolveTlsa io.lookup 25 (trimDots mx.exchange) = .ok []) : RestsOn io mx (.tls cert client)
  | plain {client : Client} (h : resolveTlsa io.lookup 25 (trimDots mx.exchange) = .ok [])
      (hconnect : io.connect io.webPki = .error .missingStartTls) :
      RestsOn io mx (.plain client)

variable {P spki}

theorem new_none (h : DaneVerifier.new tlsa = none) : tlsa = [] := by
  unfold DaneVerifier.new at h
  split at h
  · next hempty => exact isEmpty_iff.mp hempty
  · cases h

theorem tryHost_cases {io : HostIo} (hio : io.Verifies) (mx : MxRecord) :
    ((tryHost P spki io mx).1 = none ∧ PassedOver P spki io mx) ∨
      ∃ c, (tryHost P spki io mx).1 = some c ∧ RestsOn P spki io mx c := by
  unfold tryHost
  simp only
  split
  · next hhost => exact .inl ⟨rfl, .noHost (isEmpty_iff.mp hhost)⟩
  split
  · next hbuilder => exact .inl ⟨rfl, .noBuilder (by simpa using hbuilder)⟩
  split
  · next e hlookup => exact .inl ⟨rfl, .lookupFailed hlookup⟩
  next tlsa hlookup =>
  split
  · next v hnew =>
    split
    · next cert client hconnect =>
      have hverify := hio _ cert client hconnect
      exact .inr ⟨_, rfl, .pinned hlookup ((verifyServerCert_iff P spki hnew cert).mp hverify)⟩
    · next e hconnect => exact .inl ⟨rfl, .daneFailed hlookup hnew hconnect⟩
  · next hnew =>
    obtain rfl := new_none hnew
    split
    · exact .inr ⟨_, rfl, .unpinned hlookup⟩
    · next hconnect =>
      split
      · exact .inr ⟨_, rfl, .plain hlookup hconnect⟩
      · next detail hplain => exact .inl ⟨rfl, .plainFailed hlookup hconnect hplain⟩
    · next e hother hconnect => exact .inl ⟨rfl, .tlsFailed hlookup hconnect hother⟩

theorem connectFrom_connected (hhosts : ∀ k, (hosts k).Verifies) {k m : ℕ} {daneRequired : Bool}
    {c : Connected} (h : connectFrom P spki hosts k daneRequired records = .connected m c) :
    ∃ n, m = k + n ∧ (∃ mx, records[n]? = some mx ∧ RestsOn P spki (hosts m) mx c) ∧
      ∀ (j : ℕ) mx, j < n → records[j]? = some mx → PassedOver P spki (hosts (k + j)) mx := by
  induction records generalizing k daneRequired with
  | nil => cases h
  | cons mx _ ih =>
    rw [connectFrom] at h
    rcases @tryHost_cases P spki _ (hhosts k) mx with ⟨hnone, hpassed⟩ | ⟨c', hsome, hrests⟩
    · rcases htry : tryHost P spki (hosts k) mx with ⟨found, dane⟩
      rw [htry] at hnone h
      obtain rfl : found = none := hnone
      obtain ⟨n, hm, ⟨mx', hmx', hrests⟩, hbefore⟩ := ih h
      refine ⟨n + 1, by omega, ⟨mx', hmx', hrests⟩, ?_⟩
      intro j mx'' hj hmx''
      cases j with
      | zero =>
        obtain rfl : mx = mx'' := Option.some.inj hmx''
        exact hpassed
      | succ j =>
        have hpass := hbefore j mx'' (by omega) hmx''
        rwa [add_right_comm] at hpass
    · rcases htry : tryHost P spki (hosts k) mx with ⟨found, dane⟩
      rw [htry] at hsome h
      obtain rfl : found = some c' := hsome
      cases h
      exact ⟨0, rfl, ⟨mx, rfl, hrests⟩, fun j _ hj => absurd hj (not_lt_zero j)⟩

/-- No downgrade: a host with a validated record is connected to with a pinned certificate, and
without TLS only a host that has none and offers none. -/
theorem connected_pinned (P : Primitives) (spki : Bytes → Option Bytes) (hosts : ℕ → HostIo)
    (hhosts : ∀ k, (hosts k).Verifies) (records : List MxRecord) {k : ℕ} {c : Connected}
    (h : connectOpportunistic P spki hosts records = .connected k c) :
    ∃ mx tlsa, records[k]? = some mx ∧
      resolveTlsa (hosts k).lookup 25 (trimDots mx.exchange) = .ok tlsa ∧
      (∀ r, r ∈ tlsa ↔ Secured (hosts k).lookup 25 (trimDots mx.exchange) r) ∧
      (∀ (j : ℕ) mx', j < k → records[j]? = some mx' → PassedOver P spki (hosts j) mx') ∧
      (tlsa ≠ [] → ∃ cert client, c = .tls cert client ∧ Pinned P spki tlsa cert) ∧
      ∀ client, c = .plain client →
        tlsa = [] ∧ (hosts k).connect (hosts k).webPki = .error .missingStartTls := by
  obtain ⟨n, hk, ⟨mx, hmx, hrests⟩, hbefore⟩ := connectFrom_connected hhosts h
  obtain rfl : k = n := hk.trans (zero_add n)
  have hbefore' : ∀ (j : ℕ) mx', j < k → records[j]? = some mx' → PassedOver P spki (hosts j) mx' := by
    intro j mx' hj hmx'
    have hpassed := hbefore j mx' hj hmx'
    rwa [zero_add] at hpassed
  cases hrests with
  | @pinned tlsa cert client hlookup hpinned =>
    exact ⟨mx, tlsa, hmx, hlookup, mem_resolveTlsa hlookup, hbefore',
      fun _ => ⟨cert, client, rfl, hpinned⟩, fun client' hplain => by cases hplain⟩
  | unpinned hlookup =>
    exact ⟨mx, [], hmx, hlookup, mem_resolveTlsa hlookup, hbefore', fun hne => absurd rfl hne,
      fun client' hplain => by cases hplain⟩
  | plain hlookup hconnect =>
    exact ⟨mx, [], hmx, hlookup, mem_resolveTlsa hlookup, hbefore', fun hne => absurd rfl hne,
      fun _ _ => ⟨rfl, hconnect⟩⟩

/-! ## Giving up on all hosts -/

variable (P spki)

/-- The host is tried, with validated records or a failed lookup of them. -/
def AsksDane (io : HostIo) (mx : MxRecord) : Prop :=
  trimDots mx.exchange ≠ [] ∧ io.builderOk = true ∧
    resolveTlsa io.lookup 25 (trimDots mx.exchange) ≠ .ok []

/-- A host with validated records refuses STARTTLS or presents a certificate they do not pin. -/
def Mismatch (io : HostIo) (mx : MxRecord) : Prop :=
  trimDots mx.exchange ≠ [] ∧ io.builderOk = true ∧
    ∃ tlsa, resolveTlsa io.lookup 25 (trimDots mx.exchange) = .ok tlsa ∧ tlsa ≠ [] ∧
      (io.remote = .noStartTls ∨ (∃ code, io.remote = .startTlsRefused code) ∨
        ∃ cert signed session, io.remote = .handshake cert signed session ∧
          ¬ Pinned P spki tlsa cert)

/-- The host is not tried, or a lookup or the network fails. -/
inductive Outage (io : HostIo) (mx : MxRecord) : Prop
  | noHost (h : trimDots mx.exchange = [])
  | noBuilder (h : io.builderOk = false)
  | lookup {e : Error} (h : resolveTlsa io.lookup 25 (trimDots mx.exchange) = .error e)
  | unreachable {detail : Text} (h : io.remote = .unreachable detail)
  | session {cert : Bytes} {detail : Text} (h : io.remote = .handshake cert true (.error detail))
      (haccepted : ∀ tlsa, resolveTlsa io.lookup 25 (trimDots mx.exchange) = .ok tlsa → tlsa ≠ [] →
        Pinned P spki tlsa cert)
  | plain {detail : Text} (h : resolveTlsa io.lookup 25 (trimDots mx.exchange) = .ok [])
      (hremote : io.remote = .noStartTls) (hplain : io.plain = .error detail)

def MxOutcome.outcome : MxOutcome → ConnectOutcome
  | .connected _ c => .connected c.client
  | .failed daneRequired => .failed daneRequired

def sendIo (faults : Faults) (instant : ℕ) (hosts : ℕ → HostIo) (records : List MxRecord) :
    SendIo where
  faults := faults
  instant := instant
  mxRecords := .ok (records.map MxRecord.exchange)
  connect := (connectOpportunistic P spki hosts records).outcome

variable {P spki}

theorem tryHost_dane (io : HostIo) (mx : MxRecord) :
    (tryHost P spki io mx).2 ↔ AsksDane io mx := by
  unfold tryHost AsksDane
  simp only
  split
  · next hhost => simp [isEmpty_iff.mp hhost]
  next hhost =>
  have hhost' : trimDots mx.exchange ≠ [] := fun h => hhost (isEmpty_iff.mpr h)
  split
  · next hbuilder => simp_all
  next hbuilder =>
  have hbuilder' : io.builderOk = true := by simpa using hbuilder
  split
  · next e hlookup => simp [hhost', hbuilder', hlookup]
  next tlsa hlookup =>
  split
  · next v hnew =>
    have hne : tlsa ≠ [] := by
      rintro rfl
      cases hnew
    split <;> simp [hhost', hbuilder', hlookup, hne]
  · next hnew =>
    obtain rfl := new_none hnew
    split
    · simp [hlookup]
    · split <;> simp [hlookup]
    · simp [hlookup]

theorem connectFrom_failed {k : ℕ} {daneRequired dane : Bool}
    (h : connectFrom P spki hosts k daneRequired records = .failed dane) :
    dane ↔
      daneRequired ∨
        ∃ (j : ℕ) (mx : MxRecord), records[j]? = some mx ∧ AsksDane (hosts (k + j)) mx := by
  induction records generalizing k daneRequired with
  | nil =>
    cases h
    simp
  | cons mx _ ih =>
    rw [connectFrom] at h
    have hdane := @tryHost_dane P spki (hosts k) mx
    rcases htry : tryHost P spki (hosts k) mx with ⟨_ | c, asks⟩
    · rw [htry] at h hdane
      rw [ih h, Bool.or_eq_true, hdane, or_assoc]
      refine or_congr_right ?_
      constructor
      · rintro (hasks | ⟨j, mx', hmx', hasks⟩)
        · exact ⟨0, mx, rfl, hasks⟩
        · exact ⟨j + 1, mx', hmx', by rwa [add_right_comm] at hasks⟩
      · rintro ⟨_ | j, mx', hmx', hasks⟩
        · obtain rfl : mx = mx' := Option.some.inj hmx'
          exact .inl hasks
        · exact .inr ⟨j, mx', hmx', by rwa [add_right_comm]⟩
    · rw [htry] at h
      cases h

theorem Outage.not_mismatch {io : HostIo} (h : Outage P spki io mx) :
    ¬ Mismatch P spki io mx := by
  rintro ⟨hhost, hbuilder, tlsa, htlsa, hne, hremote⟩
  cases h with
  | noHost h => exact hhost h
  | noBuilder h => rw [hbuilder] at h; cases h
  | lookup h => rw [htlsa] at h; cases h
  | unreachable h => simp [h] at hremote
  | session h haccepted =>
    rw [h] at hremote
    rcases hremote with hno | ⟨_, hrefused⟩ | ⟨cert, signed, session, hcert, hunpinned⟩
    · cases hno
    · cases hrefused
    · cases hcert
      exact hunpinned (haccepted tlsa htlsa hne)
  | plain h => rw [htlsa] at h; cases h; exact hne rfl

theorem sendOutcomes_failed {faults : Faults} {instant : ℕ} {dane : Bool} (messageBlob : Text)
    (rcpts : List ClaimedRcpt) (blobs : Store.BlobStore)
    (h : connectOpportunistic P spki hosts records = .failed dane) :
    ∃ o : Outcome, o.isTransient = !o.isPermanent ∧
      (sendOutcomes P (sendIo P spki faults instant hosts records) messageBlob rcpts blobs).1 =
        rcpts.map (fun _ => o) ∧
      (o.isPermanent ↔ (Store.read P faults messageBlob blobs).1.isOk ∧
        (records.map MxRecord.exchange = [".".toList] ∨
          ∃ (k : ℕ) (mx : MxRecord), records[k]? = some mx ∧ AsksDane (hosts k) mx)) := by
  have hdane := connectFrom_failed h
  simp only [Bool.false_eq_true, false_or, zero_add] at hdane
  rw [← hdane]
  unfold sendOutcomes
  simp only [sendIo, h, MxOutcome.outcome]
  cases (Store.read P faults messageBlob blobs).1 with
  | err e | panic => exact ⟨_, rfl, rfl, by simp [Res.isOk, Outcome.isPermanent]⟩
  | ok =>
    by_cases hnull : records.map MxRecord.exchange = [".".toList]
    · simp only [hnull, if_true]
      exact ⟨_, rfl, rfl, by simp [Res.isOk, Outcome.isPermanent, classifyConnectFailure]⟩
    · simp only [hnull, if_false]
      cases dane with
      | true => exact ⟨_, rfl, rfl, by simp [Res.isOk, Outcome.isPermanent, classifyDaneFailure]⟩
      | false => exact ⟨_, rfl, rfl, by simp [Res.isOk, Outcome.isPermanent, classifyConnectFailure]⟩

theorem not_mismatch_of_null (hnull : records.map MxRecord.exchange = [".".toList]) {k : ℕ}
    (hmx : records[k]? = some mx) : ¬ Mismatch P spki (hosts k) mx := by
  rintro ⟨hhost, -⟩
  have hmem : mx.exchange ∈ records.map MxRecord.exchange :=
    mem_map_of_mem (mem_of_getElem? hmx)
  rw [hnull, mem_singleton] at hmem
  rw [hmem] at hhost
  exact hhost (by decide)

/-- When no host can be used, mail bounces for a mismatch only and an outage defers it, if and only if
some host shows a mismatch as soon as some host asks for DANE, and there is no null MX. -/
theorem bounce_mismatch_iff (P : Primitives) (spki : Bytes → Option Bytes) (faults : Faults)
    (instant : ℕ) (hosts : ℕ → HostIo) (records : List MxRecord) {dane : Bool} (messageBlob : Text)
    (rcpts : List ClaimedRcpt) (blobs : Store.BlobStore)
    (hfailed : connectOpportunistic P spki hosts records = .failed dane) :
    (((∃ o ∈ (sendOutcomes P (sendIo P spki faults instant hosts records) messageBlob rcpts blobs).1,
          o.isPermanent) →
        ∃ (k : ℕ) (mx : MxRecord), records[k]? = some mx ∧ Mismatch P spki (hosts k) mx) ∧
      ((∀ (k : ℕ) (mx : MxRecord), records[k]? = some mx → Outage P spki (hosts k) mx) →
        ∀ o ∈ (sendOutcomes P (sendIo P spki faults instant hosts records) messageBlob rcpts blobs).1,
          o.isTransient)) ↔
    (rcpts ≠ [] → (Store.read P faults messageBlob blobs).1.isOk →
      records.map MxRecord.exchange ≠ [".".toList] ∧
        ((∃ (k : ℕ) (mx : MxRecord), records[k]? = some mx ∧ AsksDane (hosts k) mx) →
          ∃ (k : ℕ) (mx : MxRecord), records[k]? = some mx ∧ Mismatch P spki (hosts k) mx)) := by
  obtain ⟨o, htransient, houtcomes, hpermanent⟩ := sendOutcomes_failed messageBlob rcpts blobs hfailed
  rw [houtcomes]
  have hexists : (∃ o' ∈ rcpts.map (fun _ => o), o'.isPermanent = true) ↔
      rcpts ≠ [] ∧ o.isPermanent := by
    constructor
    · rintro ⟨o', hmem, hperm⟩
      obtain ⟨r, hr, rfl⟩ := mem_map.mp hmem
      exact ⟨ne_nil_of_mem hr, hperm⟩
    · rintro ⟨hne, hperm⟩
      obtain ⟨r, hr⟩ := exists_mem_of_ne_nil rcpts hne
      exact ⟨o, mem_map.mpr ⟨r, hr, rfl⟩, hperm⟩
  rw [hexists, hpermanent]
  constructor
  · rintro ⟨honly, -⟩ hne hread
    refine ⟨fun hnull => ?_, fun hasks => honly ⟨hne, hread, .inr hasks⟩⟩
    obtain ⟨k, mx, hmx, hmismatch⟩ := honly ⟨hne, hread, .inl hnull⟩
    exact not_mismatch_of_null hnull hmx hmismatch
  · intro hcond
    have honly : rcpts ≠ [] ∧ (Store.read P faults messageBlob blobs).1.isOk ∧
        (records.map MxRecord.exchange = [".".toList] ∨
          ∃ (k : ℕ) (mx : MxRecord), records[k]? = some mx ∧ AsksDane (hosts k) mx) →
        ∃ (k : ℕ) (mx : MxRecord), records[k]? = some mx ∧ Mismatch P spki (hosts k) mx := by
      rintro ⟨hne, hread, hnull | hasks⟩
      · exact absurd hnull (hcond hne hread).1
      · exact (hcond hne hread).2 hasks
    refine ⟨honly, fun houtage o' hmem => ?_⟩
    obtain ⟨r, hr, rfl⟩ := mem_map.mp hmem
    rw [htransient, Bool.not_eq_true', Bool.eq_false_iff]
    intro hperm
    obtain ⟨k, mx, hmx, hmismatch⟩ := honly ⟨ne_nil_of_mem hr, hpermanent.mp hperm⟩
    exact (houtage k mx hmx).not_mismatch hmismatch

end

/-! Two hosts; the certificate of one is pinned. -/

def samplePin : TlsaRecord := ⟨3, 1, 1, 7 :: List.replicate 31 0⟩

def sampleMx : List MxRecord := [⟨10, "mx1.example.net."⟩, ⟨20, "mx2.example.net."⟩]

/-- A session with the host, if the verifier accepts its certificate and the signature is good. -/
def Remote.session (verify : Bytes → Except TlsError Unit) : Remote → Except ClientError (Bytes × Client)
  | .unreachable detail => .error (.io detail)
  | .noStartTls => .error .missingStartTls
  | .startTlsRefused code => .error (.unexpectedReply code)
  | .handshake cert signed session => do
    let () ← (verify cert).mapError .tls
    if signed then (session.map (cert, ·)).mapError .io else .error (.tls (.other "bad signature"))

def sampleHostIo (lookup : Lookup) (remote : Remote) : HostIo where
  builderOk := true
  lookup := fun _ => lookup
  webPki := fun _ => .error (.other "unknown issuer")
  remote := remote
  connect := fun verify => remote.session verify
  plain := .error "connection refused"

def sampleClient : Client := ⟨.ok, fun _ => .ok, .ok⟩

/-- The first host is out of reach and the second presents the certificate that its record pins. -/
theorem connected_pinned_second :
    let P := Primitives.sample fun _ => none
    let hosts := fun k : ℕ => if k = 0 then
        sampleHostIo .noRecordsFound (.unreachable "connection refused")
      else sampleHostIo (.answers [⟨.secure, .tlsa samplePin⟩]) (.handshake [7] true (.ok sampleClient))
    (∀ k, (hosts k).Verifies) ∧
      connectOpportunistic P some hosts sampleMx = .connected 1 (.tls [7] sampleClient) ∧
      PassedOver P some (hosts 0) ⟨10, "mx1.example.net."⟩ ∧ Pinned P some [samplePin] [7] := by
  intro P hosts
  have hconnected : connectOpportunistic P some hosts sampleMx = .connected 1 (.tls [7] sampleClient) :=
    rfl
  have hhosts : ∀ k, (hosts k).Verifies := by
    intro k verify cert client h
    rcases k with _ | k
    · cases h
    · cases hverify : verify [7] with
      | error =>
        simp [hosts, sampleHostIo, Remote.session, hverify, Except.mapError, bind, Except.bind] at h
      | ok =>
        simp [hosts, sampleHostIo, Remote.session, hverify, Except.mapError, bind, Except.bind,
          Except.map] at h
        rw [← h.1, hverify]
  obtain ⟨mx, tlsa, hmx, hlookup, -, hbefore, hpinned, -⟩ :=
    connected_pinned P some hosts hhosts sampleMx hconnected
  obtain rfl : tlsa = [samplePin] := by
    cases hmx
    exact (Except.ok.inj hlookup).symm
  obtain ⟨cert, client, htls, hpin⟩ := hpinned (by simp)
  cases htls
  exact ⟨hhosts, hconnected, hbefore 0 _ one_pos rfl, hpin⟩

def sampleBlob : Text := Store.hashHex (Primitives.sample fun _ => none) [1]

def sampleBlobs : Store.BlobStore := Store.BlobStore.empty.put sampleBlob [1]

def sampleClaimed : ClaimedRcpt :=
  ⟨1, "bob@example.net", "example.net", "FAILURE", 0, false⟩

def sampleGiveUp (io : HostIo) : List Outcome :=
  let P := Primitives.sample fun _ => none
  (sendOutcomes P (sendIo P some .none 0 (fun _ => io) [⟨10, "mx.example.net."⟩]) sampleBlob
    [sampleClaimed] sampleBlobs).1

/-- Without TLSA records a host that is down defers the mail. -/
theorem bounce_mismatch_iff_down :
    let io := sampleHostIo .noRecordsFound (.unreachable "connection refused")
    sampleGiveUp io = [.transient none none noConnection] ∧
      ∀ o ∈ sampleGiveUp io, o.isTransient := by
  intro io
  refine ⟨by decide +kernel, ?_⟩
  have hfailed : connectOpportunistic (Primitives.sample fun _ => none) some (fun _ => io)
      [⟨10, "mx.example.net."⟩] = .failed false := rfl
  have hcalm : ∀ mx, ¬ AsksDane io mx := by
    rintro mx ⟨-, -, hasks⟩
    exact hasks rfl
  refine ((bounce_mismatch_iff _ some .none 0 (fun _ => io) _ sampleBlob [sampleClaimed] sampleBlobs
    hfailed).mpr fun _ _ => ⟨by decide, ?_⟩).2 fun k mx _ => .unreachable rfl
  rintro ⟨k, mx, -, hasks⟩
  exact absurd hasks (hcalm mx)

/-- A host with TLSA records that is down, or one whose records cannot be looked up in time, makes
the mail bounce. -/
theorem outage_bounces :
    let down := sampleHostIo (.answers [⟨.secure, .tlsa samplePin⟩])
      (.unreachable "connection refused")
    let silent := sampleHostIo (.failed "request timed out")
      (.unreachable "connection refused")
    sampleGiveUp down = [.permanent none none daneMismatch] ∧
      sampleGiveUp silent = [.permanent none none daneMismatch] ∧
      (∀ mx, Outage (Primitives.sample fun _ => none) some down mx) ∧
      ∀ mx, Outage (Primitives.sample fun _ => none) some silent mx := by
  refine ⟨by decide +kernel, by decide +kernel, fun mx => .unreachable rfl, fun mx => .unreachable rfl⟩

end Litterae.Queue
