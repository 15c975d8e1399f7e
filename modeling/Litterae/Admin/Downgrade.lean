import Litterae.Admin.Concurrent

/-! # Turning the second factor off

A second factor that is on is turned off by `mfa_disable`, which asks for the password once more.
`mfa_enroll` refuses when the factor is on, but it looks before it writes: a confirmation that falls
between the look and the write is overwritten, with its secret, by one that nobody has confirmed.
-/

namespace Litterae.Admin
open Foundations Crypto Option Pool

/-- The two columns hold the same secret, maybe sealed under another key. -/
def SameSecret (P : Primitives) (before after : Option Bytes) : Prop :=
  after = before ∨
    ∃ wrapped wrapped' key key' secret, before = some wrapped ∧ after = some wrapped' ∧
      committingOpen P key wrapped = .ok secret ∧
      committingOpen P key' wrapped' = .ok secret

/-- A second factor that was on is off, or its secret is another one or gone. -/
def Downgraded (P : Primitives) (before after : AdminRow) : Prop :=
  before.totpEnabled = true ∧
    (after.totpEnabled = false ∨ ¬SameSecret P before.totpWrappedSecret after.totpWrappedSecret)

/-- The step is the write of a `mfa_disable` request that has verified the password. -/
def ByDisable (p : Server) (a : Act) (adminId : ℤ) : Prop :=
  ∃ i io authorization password username found, a = .perform i io ∧
    p.flights[i]?.map Flight.request = some (.mfaDisable authorization password) ∧
    p.next i = some (.disableTotp adminId) ∧
    ⟨i, .usernameForId adminId, some username⟩ ∈ p.log ∧
    ⟨i, .verifyLogin username password, some found⟩ ∈ p.log

/-- The step is the write of a `mfa_enroll` request whose administrator's second factor is on. -/
def Overwrites (p : Server) (a : Act) : Prop :=
  ∃ i io adminId wrapKey secret row, a = .perform i io ∧
    p.next i = some (.setPendingTotp adminId wrapKey secret) ∧ io.faults .totpPending = none ∧
    p.shared.row adminId = some row ∧ row.totpEnabled = true

section
variable {P : Primitives} {config : Config} {p q : Server} {a : Act} {adminId : ℤ}
  {row row' : AdminRow}

theorem not_downgraded_of_same (henabled : row'.totpEnabled = row.totpEnabled)
    (hsecret : SameSecret P row.totpWrappedSecret row'.totpWrappedSecret) :
    ¬Downgraded P row row' := by
  rintro ⟨hon, hoff | hother⟩
  · rw [henabled, hon] at hoff
    cases hoff
  · exact hother hsecret

theorem RowChange.downgraded (hcipher : P.Deciphers) {op : Op} (h : RowChange P op row row')
    (hdown : Downgraded P row row') :
    (∃ wrapKey secret, op = .setPendingTotp row.id wrapKey secret) ∨ op = .disableTotp row.id := by
  cases h with
  | other | password | unwrapped | consumed =>
    exact absurd hdown (not_downgraded_of_same rfl (.inl rfl))
  | @rewrapped _ oldWrapKey newWrapKey wrapped secret keyId nonce hwrapped hopen =>
    have hsecret : SameSecret P row.totpWrappedSecret
        (row.rewrap P newWrapKey nonce keyId secret).totpWrappedSecret :=
      .inr ⟨wrapped, _, oldWrapKey, newWrapKey, secret, hwrapped, rfl, hopen,
        committingOpen_committingSeal hcipher _ _ _ _⟩
    exact absurd hdown (not_downgraded_of_same rfl hsecret)
  | @pending _ wrapKey secret nonce => exact .inl ⟨wrapKey, secret, rfl⟩
  | confirmed =>
    obtain ⟨hon, -⟩ := id hdown
    exact absurd hdown (not_downgraded_of_same hon.symm (.inl rfl))
  | disabled => exact .inr rfl

theorem off_of_overwrites (hstep : step P config p a = some q) (h : Overwrites p a) :
    ∃ adminId row row', p.shared.row adminId = some row ∧ q.shared.row adminId = some row' ∧
      Downgraded P row row' ∧ ¬ByDisable p a adminId := by
  obtain ⟨i, io, adminId, wrapKey, secret, row, rfl, hnext, hfault, hrow, hon⟩ := h
  obtain ⟨c, k, hi⟩ := flight_of_next hnext
  obtain ⟨u, hok⟩ := Res.isOk_iff.mp ((setPendingTotp_isOk P config io adminId
    wrapKey secret p.shared).mpr hfault)
  obtain ⟨row', hrow', hchange⟩ := sem_row (Prod.ext hok rfl) hrow
  cases hstep
  rw [perform_ok hi (Prod.ext hok rfl)]
  refine ⟨adminId, row, row', hrow, hrow', ?_, ?_⟩
  · cases hchange with
    | other h => exact absurd (congrArg some (findBy_some AdminRow.id hrow).2.symm) h
    | pending => exact ⟨hon, .inl rfl⟩
  · rintro ⟨j, io', _, _, _, _, hact, -, hdisable, -⟩
    cases hact
    rw [hnext] at hdisable
    cases hdisable

/-- In every interleaving, a second factor that is on is turned off or replaced only by a
`mfa_disable` request that has verified the password, unless the step is the write of an enrolment
that has been overtaken by a confirmation. -/
theorem downgrade_by_disable_iff (P : Primitives) (config : Config)
    (hcipher : ∀ key nonce m, P.decrypt key nonce (P.encrypt key nonce m) = some m)
    (acts : List Act) (p q : Server) (a : Act) (hrun : run (step P config) .fresh acts = some p)
    (hstep : step P config p a = some q) :
    (∀ adminId row row', p.shared.row adminId = some row → q.shared.row adminId = some row' →
      Downgraded P row row' → ByDisable p a adminId) ↔ ¬Overwrites p a := by
  constructor
  · intro hsafe hover
    obtain ⟨adminId, row, row', hrow, hrow', hdown, hnot⟩ := off_of_overwrites hstep hover
    exact hnot (hsafe adminId row row' hrow hrow' hdown)
  · intro hnot adminId row row' hrow hrow' hdown
    obtain ⟨after, hafter, hcase⟩ := step_row hstep hrow
    rw [hrow', some.injEq] at hafter
    subst hafter
    rcases hcase with rfl | ⟨i, io, c, op, k, b, rfl, hi, hsem, hchange⟩
    · exact absurd hdown (not_downgraded_of_same rfl (.inl rfl))
    have hid : row.id = adminId := (findBy_some AdminRow.id hrow).2
    rcases hchange.downgraded hcipher hdown with ⟨wrapKey, secret, rfl⟩ | rfl
    · -- The write went through, so the enrolment has overwritten a factor that is on.
      refine absurd ⟨i, io, row.id, wrapKey, secret, row, rfl, next_of_flight hi, ?_,
        hid ▸ hrow, hdown.1⟩ hnot
      exact (setPendingTotp_isOk P config io _ _ _ p.shared).mp (by rw [hsem]; rfl)
    · obtain ⟨authorization, password, username, found, rfl, hname, hverified⟩ :=
        (orderly_run hrun).next hi
      refine ⟨i, io, authorization, password, username, found, rfl, ?_, ?_, ?_, ?_⟩
      · rw [hi]; rfl
      · rw [next_of_flight hi, hid]
      · exact hid ▸ mem_trace.mp hname
      · exact mem_trace.mp hverified

end

/-! ## An enrolment overtaken by a confirmation -/

/-- Two enrolments: the first is carried through, the second stops before its write, and then the
first is confirmed. -/
def sampleEnrolments : List Act :=
  sampleSettled ++
    [.launch (.mfaEnroll (sampleAuthorization 1))] ++ Act.performs 2 9 (sampleIo 3) ++
    [.launch (.mfaEnroll (sampleAuthorization 1))] ++ Act.performs 3 7 (sampleIo 4) ++
    [.launch (.mfaConfirm (sampleAuthorization 1) "123456")] ++ Act.performs 4 10 (sampleIo 5)

/-- Whether the second factor of the administrator is on, and what has been requested. -/
def sampleFactor (acts : List Act) : Option Bool × List Call :=
  (((sampleServer samplePrimitives acts).shared.row 1).map AdminRow.totpEnabled,
    (sampleServer samplePrimitives acts).flights.map Flight.request)

/-- The second enrolment writes, and the second factor that has just been confirmed is off. Nobody
has asked for that. -/
theorem enrolment_turns_factor_off :
    sampleFactor sampleEnrolments =
        (some true,
          [.login "admin" "first password",
           .changePassword (sampleAuthorization 1) "first password" "second password",
           .mfaEnroll (sampleAuthorization 1), .mfaEnroll (sampleAuthorization 1),
           .mfaConfirm (sampleAuthorization 1) "123456"]) ∧
      sampleFactor (sampleEnrolments ++ [.perform 3 (sampleIo 4)]) =
        (some false, (sampleFactor sampleEnrolments).2) := by
  constructor
  · decide +kernel
  · decide +kernel

def sampleDisabling : List Act :=
  sampleEnrolments ++ [.launch (.mfaDisable (sampleAuthorization 1) "second password")] ++
    Act.performs 5 6 (sampleIo 6)

theorem downgrade_by_disable_iff_disabling :
    ByDisable (sampleServer samplePrimitives sampleDisabling) (.perform 5 (sampleIo 6)) 1 := by
  let p := sampleServer samplePrimitives sampleDisabling
  let q := p.perform (sem samplePrimitives sampleConfig (sampleIo 6)) 5
  have hdisables : (p.next 5).any (fun op =>
      match op with
      | .disableTotp _ => true
      | _ => false) := by decide +kernel
  have hiff := downgrade_by_disable_iff samplePrimitives sampleConfig (fun _ _ _ => rfl)
    sampleDisabling p q (.perform 5 (sampleIo 6)) (sampleServer_run (by decide +kernel)) rfl
  have hbefore : (p.shared.row 1).map AdminRow.totpEnabled = some true := by decide +kernel
  have hafter : (q.shared.row 1).map AdminRow.totpEnabled = some false := by decide +kernel
  obtain ⟨row, hrow, hon⟩ := map_eq_some_iff.mp hbefore
  obtain ⟨row', hrow', hoff⟩ := map_eq_some_iff.mp hafter
  refine hiff.mpr ?_ 1 row row' hrow hrow' ⟨hon, .inl hoff⟩
  rintro ⟨i, io, adminId, wrapKey, secret, row, hact, hnext, -⟩
  cases hact
  rw [hnext] at hdisables
  cases hdisables

end Litterae.Admin
