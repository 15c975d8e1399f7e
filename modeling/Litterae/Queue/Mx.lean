import Litterae.Queue.Dane
import Mathlib.Data.List.Sort

/-! # The hosts of a domain (`dns/src/lib.rs`, `queue/src/worker.rs`)

Every failed lookup of the MX records defers the mail, also one that found that there are none.
-/

namespace Litterae.Queue
open Foundations List

inductive ResponseCode where
  | noError
  | nxDomain
  | other (code : ℕ)

/-- The result of the resolver; a record of another type than MX is `none`. -/
inductive MxLookup where
  | answers (records : List (Option MxRecord))
  | noRecordsFound (code : ResponseCode) (detail : Text)
  | nsec (proof : DnssecProof) (detail : Text)
  | failed (detail : Text)

def published (data : List (Option MxRecord)) : List MxRecord := data.filterMap id

def sortByPreference (records : List MxRecord) : List MxRecord :=
  records.insertionSort fun a b => a.preference ≤ b.preference

def fqdn (domain : Text) : Text := trimDots domain ++ ['.']

def resolveMx (lookup : Text → MxLookup) (domain : Text) : Except Error (List MxRecord) :=
  match lookup (fqdn domain) with
  | .noRecordsFound _ detail | .nsec _ detail | .failed detail => .error (resolveErr detail)
  | .answers data =>
    .ok (sortByPreference (if published data = [] then [⟨0, fqdn domain⟩] else published data))

theorem sortByPreference_null (records : List MxRecord) :
    (sortByPreference records).map MxRecord.exchange = [".".toList] ↔
      records.map MxRecord.exchange = [".".toList] := by
  have hperm := (perm_insertionSort (fun a b : MxRecord => a.preference ≤ b.preference)
    records).map MxRecord.exchange
  rw [← perm_singleton, ← perm_singleton]
  exact ⟨hperm.symm.trans, hperm.trans⟩

theorem fqdn_eq_dot (domain : Text) : fqdn domain = ".".toList ↔ trimDots domain = [] := by
  have hdot : ".".toList = [] ++ ['.'] := rfl
  rw [hdot, fqdn, append_left_inj]

def mxIo (P : Primitives) (spki : Bytes → Option Bytes) (faults : Faults) (instant : ℕ)
    (hosts : ℕ → HostIo) (lookup : Text → MxLookup) (domain : Text) : SendIo :=
  match resolveMx lookup domain with
  | .error e => { faults, instant, mxRecords := .error e.display, connect := .failed false }
  | .ok records => sendIo P spki faults instant hosts records

section
variable (P : Primitives) (spki : Bytes → Option Bytes) (faults : Faults) (instant : ℕ)
  (lookup : Text → MxLookup) (domain messageBlob : Text) (rcpts : List ClaimedRcpt)
  (blobs : Store.BlobStore)

/-- The outcomes of the unit. -/
def mxOutcomes (hosts : ℕ → HostIo) : List Outcome :=
  (sendOutcomes P (mxIo P spki faults instant hosts lookup domain) messageBlob rcpts blobs).1

/-- The outcomes that the connection loop leads to when it tries these records, in this order. -/
def attempted (hosts : ℕ → HostIo) (records : List MxRecord) : List Outcome :=
  match connectOpportunistic P spki hosts records with
  | .connected _ c => runEnvelope c.client rcpts
  | .failed true => rcpts.map fun _ => classifyDaneFailure daneMismatch
  | .failed false => rcpts.map fun _ => classifyConnectFailure noConnection false

theorem mxOutcomes_eq {body : Bytes} (hread : (Store.read P faults messageBlob blobs).1 = .ok body)
    (hosts : ℕ → HostIo) :
    mxOutcomes P spki faults instant lookup domain messageBlob rcpts blobs hosts =
      match resolveMx lookup domain with
      | .error e => rcpts.map fun _ => classifyConnectFailure e.display false
      | .ok records =>
        if records.map MxRecord.exchange = [".".toList] then
          rcpts.map fun _ => classifyConnectFailure nullMx true
        else attempted P spki rcpts hosts records := by
  unfold mxOutcomes mxIo
  cases resolveMx lookup domain with
  | error => simp only [sendOutcomes, hread]
  | ok records =>
    simp only [sendOutcomes, sendIo, hread, attempted]
    split
    · rfl
    · cases connectOpportunistic P spki hosts records with
      | connected => rfl
      | failed dane => cases dane <;> rfl

/-! ## Outcomes -/

/-- The unit, with these outcomes for the hosts' behaviour, ends as the lookup asks for: in an attempt at
the hosts that the answer names, or in outcomes of one kind. -/
def Handled (outcomes : (ℕ → HostIo) → List Outcome) : Prop :=
  match lookup (fqdn domain) with
  | .noRecordsFound .noError _ => ∀ hosts, outcomes hosts = attempted P spki rcpts hosts [⟨0, fqdn domain⟩]
  | .noRecordsFound .nxDomain _ => ∀ hosts, ∀ o ∈ outcomes hosts, o.isPermanent
  | .noRecordsFound (.other _) _ | .nsec _ _ | .failed _ => ∀ hosts, ∀ o ∈ outcomes hosts, o.isTransient
  | .answers data =>
    if (published data).map MxRecord.exchange = [".".toList] then
      ∀ hosts, ∀ o ∈ outcomes hosts, o.isPermanent
    else if published data = [] then
      ∀ hosts, outcomes hosts = attempted P spki rcpts hosts [⟨0, fqdn domain⟩]
    else ∃ records, records.Perm (published data) ∧
      (records.Pairwise fun a b => a.preference ≤ b.preference) ∧
      ∀ hosts, outcomes hosts = attempted P spki rcpts hosts records

/-- The lookup does not find that there are no records, and the implicit host has a name. -/
def Informed : Prop :=
  match lookup (fqdn domain) with
  | .noRecordsFound .noError _ => False
  | .noRecordsFound .nxDomain _ => False
  | .noRecordsFound (.other _) _ | .nsec _ _ | .failed _ => True
  | .answers data => published data = [] → trimDots domain ≠ []

end

/-- Hosts that cannot be reached. -/
def noHosts (_ : ℕ) : HostIo := sampleHostIo .noRecordsFound (.unreachable [])

section
variable {P : Primitives} {spki : Bytes → Option Bytes} {rcpts : List ClaimedRcpt} {o : Outcome}

theorem attempted_noHosts (mx : MxRecord) : attempted P spki rcpts noHosts [mx] =
    rcpts.map fun _ => classifyConnectFailure noConnection false := by
  have hfailed : connectOpportunistic P spki noHosts [mx] = .failed false := by
    unfold connectOpportunistic connectFrom tryHost
    by_cases hhost : (trimDots mx.exchange).isEmpty
    · simp [hhost, connectFrom]
    · simp [hhost, connectFrom, noHosts, sampleHostIo, resolveTlsa, DaneVerifier.new, Remote.session]
  rw [attempted, hfailed]

theorem resolveErr_display_ne (detail : Text) : (resolveErr detail).display ≠ noConnection := by
  intro h
  have hthird : some 'n' = some 'u' := congrArg (fun s : Text => s[2]?) h
  cases hthird

theorem map_const_ne {o' : Outcome} (hrcpts : rcpts ≠ []) (h : o ≠ o') :
    (rcpts.map fun _ => o) ≠ rcpts.map fun _ => o' := by
  obtain ⟨r, hr⟩ := exists_mem_of_ne_nil rcpts hrcpts
  exact fun heq => h (map_inj_left.mp heq r hr)

theorem forall_mem_map_const {p : Outcome → Bool} (hrcpts : rcpts ≠ []) :
    (∀ o' ∈ rcpts.map fun _ => o, p o') ↔ p o := by
  obtain ⟨r, hr⟩ := exists_mem_of_ne_nil rcpts hrcpts
  exact ⟨fun h => h o (mem_map_of_mem hr), fun h o' ho' => (mem_map.mp ho').elim fun _ h' => h'.2 ▸ h⟩

end

/-- A unit whose message can be read ends as its lookup asks for, exactly when the lookup does not find
that there are no records (which is taken for a failure) and the implicit host has a name. -/
theorem mx_handled_iff (P : Primitives) (spki : Bytes → Option Bytes) (faults : Faults)
    (instant : ℕ) (lookup : Text → MxLookup) (domain : Text) {messageBlob : Text}
    {rcpts : List ClaimedRcpt} {blobs : Store.BlobStore} {body : Bytes}
    (hread : (Store.read P faults messageBlob blobs).1 = .ok body) (hrcpts : rcpts ≠ []) :
    Handled P spki lookup domain rcpts
        (mxOutcomes P spki faults instant lookup domain messageBlob rcpts blobs) ↔
      Informed lookup domain := by
  have houtcomes := mxOutcomes_eq P spki faults instant lookup domain messageBlob rcpts blobs hread
  unfold Handled Informed
  cases hlookup : lookup (fqdn domain) with
  | failed | nsec =>
    simp only [resolveMx, hlookup] at houtcomes
    simp only [houtcomes, forall_mem_map_const hrcpts]
    exact ⟨fun _ => trivial, fun _ _ => rfl⟩
  | noRecordsFound code detail =>
    simp only [resolveMx, hlookup] at houtcomes
    cases code with
    | noError =>
      refine iff_of_false (fun h => ?_) id
      have hnone := h noHosts
      rw [houtcomes, attempted_noHosts] at hnone
      exact map_const_ne hrcpts (fun heq => resolveErr_display_ne detail (Outcome.transient.inj heq).2.2)
        hnone
    | nxDomain =>
      simp only [houtcomes, forall_mem_map_const hrcpts]
      exact iff_of_false (fun h => Bool.noConfusion (h noHosts)) id
    | other =>
      simp only [houtcomes, forall_mem_map_const hrcpts]
      exact ⟨fun _ => trivial, fun _ _ => rfl⟩
  | answers data =>
    simp only [resolveMx, hlookup, sortByPreference_null] at houtcomes
    by_cases hempty : published data = []
    · have hone : sortByPreference [⟨0, fqdn domain⟩] = [⟨0, fqdn domain⟩] := rfl
      simp only [hempty, map_nil, if_true, map_cons, List.cons.injEq, and_true, fqdn_eq_dot, hone,
        reduceCtorEq, if_false, forall_const] at houtcomes ⊢
      by_cases hroot : trimDots domain = []
      · refine iff_of_false (fun h => ?_) (not_not.mpr hroot)
        have hnone := h noHosts
        rw [houtcomes, if_pos hroot, attempted_noHosts] at hnone
        exact map_const_ne hrcpts (by simp [classifyConnectFailure]) hnone
      · simp only [houtcomes, if_neg hroot]
        exact iff_of_true (fun _ => trivial) hroot
    · simp only [if_neg hempty] at houtcomes ⊢
      refine ⟨fun _ h => absurd h hempty, fun _ => ?_⟩
      split
      · next hnull =>
        simp only [houtcomes, if_pos hnull, forall_mem_map_const hrcpts]
        exact fun _ => rfl
      · next hnull =>
        refine ⟨_, perm_insertionSort _ _, pairwise_insertionSort _ _, fun hosts => ?_⟩
        rw [houtcomes, if_neg hnull]
        rfl

/-- Hosts that take mail without TLS. -/
def sampleOpen (_ : ℕ) : HostIo :=
  { sampleHostIo .noRecordsFound .noStartTls with
    plain := .ok sampleClient }

def sampleMxSend (answer : MxLookup) : (ℕ → HostIo) → List Outcome :=
  mxOutcomes (Primitives.sample fun _ => none) some .none 0 (fun _ => answer) "example.net" sampleBlob
    [sampleClaimed] sampleBlobs

/-- A resolver that does not answer defers the mail. -/
theorem mx_handled_iff_failed :
    Handled (Primitives.sample fun _ => none) some (fun _ => .failed "timed out") "example.net"
      [sampleClaimed] (sampleMxSend (.failed "timed out")) :=
  (mx_handled_iff _ _ _ _ _ _ rfl (cons_ne_nil _ _)).mpr trivial

/-- A host that takes mail for its domain is not tried when the domain has no MX records, and mail to a
domain that does not exist is deferred. -/
theorem no_records_deferred :
    let found := fun code => MxLookup.noRecordsFound code "no records found"
    let deferred := Outcome.transient none none "config error: DNS resolution failed: no records found"
    attempted (Primitives.sample fun _ => none) some [sampleClaimed] sampleOpen
        [⟨0, fqdn "example.net"⟩] = [.delivered] ∧
      sampleMxSend (found .noError) sampleOpen = [deferred] ∧
      sampleMxSend (found .nxDomain) sampleOpen = [deferred] := by
  decide +kernel

end Litterae.Queue
