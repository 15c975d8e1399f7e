import Litterae.Audit.Chain
import Mathlib.Data.Finset.Dedup
import Mathlib.Data.Finset.Max

/-! # The signed chain head (`audit/src/store.rs`)

`verify_latest_signature` takes the signature with the greatest `signed_at` and checks it with the
public key. It does not read `audit_log`, and `signed_at` is a reading of the clock in seconds.
-/

namespace Litterae.Audit
open Foundations Exec List Option

def latestSigned (signatures : List HeadSignature) : List HeadSignature :=
  signatures.filter fun sig => signatures.all fun sig' => decide (sig'.signedAt ≤ sig.signedAt)

/-- `ORDER BY signed_at DESC LIMIT 1`. Which of several rows of one second comes first is left
open: `pick` says which. -/
def latestSignature (pick : ℕ) (signatures : List HeadSignature) : Option HeadSignature :=
  (latestSigned signatures)[pick % (latestSigned signatures).length]?

def verifyLatestSignature (P : Primitives) (faults : Faults) (pick : ℕ) :
    Exec AuditStore Error (Option Bool) := do
  let keys ← loadKeys faults
  sql faults .auditSignature
  let a ← Exec.get
  match latestSignature pick a.signatures with
  | none => pure none
  | some sig => do
    let hash ← orPanic (Block.ofBytes 32 sig.hash)
    let signature ← orPanic (Block.ofBytes 64 sig.signature)
    pure (some (P.ed25519Verify keys.signPub (headMessage sig.seq hash) signature))

variable {signatures : List HeadSignature} {sig : HeadSignature}

section
variable {pick : ℕ}

theorem mem_latestSigned : sig ∈ latestSigned signatures ↔
    sig ∈ signatures ∧ ∀ sig' ∈ signatures, sig'.signedAt ≤ sig.signedAt := by
  simp [latestSigned]

theorem latestSignature_mem (h : latestSignature pick signatures = some sig) :
    sig ∈ latestSigned signatures := mem_of_getElem? h

theorem exists_latestSignature (h : sig ∈ latestSigned signatures) :
    ∃ pick, latestSignature pick signatures = some sig := by
  obtain ⟨k, hk, hget⟩ := mem_iff_getElem.mp h
  refine ⟨k, ?_⟩
  rw [latestSignature, Nat.mod_eq_of_lt hk, List.getElem?_eq_getElem hk, hget]

theorem latestSigned_ne_nil (h : signatures ≠ []) : latestSigned signatures ≠ [] := by
  obtain ⟨sig, hsig, hmax⟩ := signatures.toFinset.exists_max_image HeadSignature.signedAt
    (toFinset_nonempty_iff signatures |>.mpr h)
  apply ne_nil_of_mem
  exact mem_latestSigned.mpr ⟨mem_toFinset.mp hsig, fun s hs => hmax s (mem_toFinset.mpr hs)⟩

end

/-! ## What the calls record -/

/-- Every signature was made over a row of the log, in the order of the rows. -/
structure Recorded (P : Primitives) (keys : AuditKeys) (a : AuditStore) : Prop extends
    Sound P keys a where
  seq_le : ∀ row ∈ a.rows, row.seq ≤ a.lastSeq
  last_seq : ∀ row, a.rows.getLast? = some row → row.seq = a.lastSeq
  hash_eq : ∀ row ∈ a.rows, ∀ row' ∈ a.rows, row.seq = row'.seq → row.hash = row'.hash
  signed : ∀ sig ∈ a.signatures, ∃ row ∈ a.rows, Signs P keys.signPriv row sig
  ordered : a.signatures.Pairwise fun sig sig' => sig.seq ≤ sig'.seq

variable {P : Primitives} {keys : AuditKeys}

section
variable {a b : AuditStore}

theorem Recorded.signature_le (h : Recorded P keys a) (hsig : sig ∈ a.signatures) :
    sig.seq ≤ a.lastSeq := by
  obtain ⟨row, hrow, hsigns⟩ := h.signed sig hsig
  rw [hsigns.seq]
  exact h.seq_le row hrow

theorem Recorded.bootstrapped (keys : AuditKeys) : Recorded P keys (.bootstrapped keys) where
  toSound := Sound.bootstrapped keys
  seq_le := by simp [AuditStore.bootstrapped, AuditStore.empty]
  last_seq := by simp [AuditStore.bootstrapped, AuditStore.empty]
  hash_eq := by simp [AuditStore.bootstrapped, AuditStore.empty]
  signed := by simp [AuditStore.bootstrapped, AuditStore.empty]
  ordered := .nil

theorem pairwise_signed {signPriv : Block 32} {old fresh : List HeadSignature} {row : AuditRow}
    (hold : old.Pairwise fun sig sig' => sig.seq ≤ sig'.seq) (hle : ∀ sig ∈ old, sig.seq ≤ row.seq)
    (hfresh : ∀ sig ∈ fresh, Signs P signPriv row sig) :
    (old ++ fresh).Pairwise fun sig sig' => sig.seq ≤ sig'.seq := by
  refine pairwise_append.mpr ⟨hold, ?_, fun sig hsig sig' hsig' => ?_⟩
  · refine List.Pairwise.imp_of_mem ?_ (pairwise_of_forall (fun _ _ => trivial))
    intro sig sig' hsig hsig' _
    rw [(hfresh sig hsig).seq, (hfresh sig' hsig').seq]
  · rw [(hfresh sig' hsig').seq]
    exact hle sig hsig

theorem Recorded.effect (h : Recorded P keys a) (heffect : Effect P a b) : Recorded P keys b := by
  have hsound := h.toSound.effect heffect
  obtain ⟨keys', hkeys', -, hpriv, -⟩ := h.held
  cases heffect with
  | unchanged => exact h
  | rewrapped => exact ⟨hsound, h.seq_le, h.last_seq, h.hash_eq, h.signed, h.ordered⟩
  | @signed keys'' hkeys row hrow sig hsig =>
    obtain rfl := some.inj (hkeys'.symm.trans hkeys)
    rw [hpriv] at hsig
    refine ⟨hsound, h.seq_le, h.last_seq, h.hash_eq, ?_, ?_⟩
    · intro s hs
      rcases mem_append.mp hs with hs | hs
      · exact h.signed s hs
      · obtain rfl := mem_singleton.mp hs
        exact ⟨row, mem_of_getLast? hrow, hsig⟩
    · refine pairwise_signed h.ordered (fun s hs => ?_) (forall_mem_singleton.mpr hsig)
      rw [h.last_seq row hrow]
      exact h.signature_le hs
  | @logged keys'' hkeys prev hprev row hseq hlink hhash fresh hfresh =>
    obtain rfl := some.inj (hkeys'.symm.trans hkeys)
    rw [hpriv] at hfresh
    have hnew : ∀ r ∈ a.rows, r.seq ≠ row.seq := by
      intro r hr heq
      have := h.seq_le r hr
      omega
    refine ⟨hsound, ?_, ?_, ?_, ?_, ?_⟩
    · intro r hr
      rcases mem_append.mp hr with hr | hr
      · have := h.seq_le r hr
        simp only
        omega
      · obtain rfl := mem_singleton.mp hr
        exact hseq.le
    · intro r hr
      rw [List.getLast?_concat] at hr
      obtain rfl := some.inj hr
      exact hseq
    · intro r hr r' hr' heq
      rcases mem_append.mp hr with hold | hlast <;>
        rcases mem_append.mp hr' with hold' | hlast'
      · exact h.hash_eq r hold r' hold' heq
      · rw [mem_singleton.mp hlast'] at heq
        exact absurd heq (hnew r hold)
      · rw [mem_singleton.mp hlast] at heq
        exact absurd heq.symm (hnew r' hold')
      · rw [mem_singleton.mp hlast, mem_singleton.mp hlast']
    · intro s hs
      rcases mem_append.mp hs with hs | hs
      · obtain ⟨r, hr, hsigns⟩ := h.signed s hs
        exact ⟨r, mem_append_left _ hr, hsigns⟩
      · exact ⟨row, mem_append_right _ (mem_singleton_self row), hfresh s hs⟩
    · refine pairwise_signed h.ordered (fun s hs => ?_) hfresh
      have := h.signature_le hs
      omega

theorem Recorded.after (keys : AuditKeys) (calls : List Call) :
    Recorded P keys (after P (.bootstrapped keys) calls) :=
  after_invariant (fun _ _ h => h.effect) (.bootstrapped keys) calls

theorem Recorded.hash_eq_of_seq (h : Recorded P keys a) {sig' : HeadSignature}
    (hsig : sig ∈ a.signatures) (hsig' : sig' ∈ a.signatures) (hseq : sig.seq = sig'.seq) :
    sig.hash = sig'.hash := by
  obtain ⟨row, hrow, hsigns⟩ := h.signed sig hsig
  obtain ⟨row', hrow', hsigns'⟩ := h.signed sig' hsig'
  rw [hsigns.hash, hsigns'.hash]
  exact h.hash_eq row hrow row' hrow' (by rw [← hsigns.seq, ← hsigns'.seq, hseq])

theorem Recorded.seq_le_last (h : Recorded P keys a) {last : HeadSignature}
    (hlast : a.signatures.getLast? = some last) (hsig : sig ∈ a.signatures) :
    sig.seq ≤ last.seq := by
  obtain ⟨before, hsplit⟩ := List.getLast?_eq_some_iff.mp hlast
  have hordered := h.ordered
  rw [hsplit] at hordered hsig
  rcases mem_append.mp hsig with hsig | hsig
  · exact (pairwise_append.mp hordered).2.2 sig hsig last (mem_singleton_self last)
  · rw [mem_singleton.mp hsig]

theorem Recorded.verify_run (h : Recorded P keys a)
    (hpair : ∀ m, P.ed25519Verify keys.signPub m (P.ed25519Sign keys.signPriv m)) {faults : Faults}
    (hload : faults .auditKeys = none) (hread : faults .auditSignature = none) (pick : ℕ)
    (rows : List AuditRow) :
    (verifyLatestSignature P faults pick { a with rows }).1 =
      .ok ((latestSignature pick a.signatures).map fun _ => true) := by
  obtain ⟨keys', hkeys', -, -, hpub⟩ := h.held
  have hloaded : loadKeys faults { a with rows } = (.ok keys', { a with rows }) := by
    rw [loadKeys_run, hload]
    simp only [hkeys']
  rw [verifyLatestSignature, bind_of_ok hloaded, sql_bind_run, hread]
  simp only [get_bind_run]
  cases hlatest : latestSignature pick a.signatures with
  | none => rfl
  | some sig =>
    obtain ⟨row, -, hseq, hhash, hash, hval, hsignature⟩ :=
      h.signed sig (mem_latestSigned.mp (latestSignature_mem hlatest)).1
    simp only [orPanic_bind_run, hhash, hval, hsignature, Block.ofBytes_val, hseq, hpub, hpair,
      pure_run, map_some]

end

/-! ## What a verified signature says -/

/-- The signature examined signs the greatest `seq` on record, and the log still has its entry. -/
def Covers (pick : ℕ) (a : AuditStore) : Prop :=
  ∃ sig, latestSignature pick a.signatures = some sig ∧ (∀ sig' ∈ a.signatures, sig'.seq ≤ sig.seq) ∧
    ∃ row ∈ a.rows, row.seq = sig.seq ∧ row.hash = sig.hash

/-- Every signature of the latest second signs the entry signed last. -/
def Dated (signatures : List HeadSignature) : Prop :=
  ∀ sig ∈ signatures, (∀ sig' ∈ signatures, sig'.signedAt ≤ sig.signedAt) →
    ∀ last, signatures.getLast? = some last → sig.seq = last.seq

def Kept (signatures : List HeadSignature) (rows : List AuditRow) : Prop :=
  ∀ last, signatures.getLast? = some last → ∃ row ∈ rows, row.seq = last.seq ∧ row.hash = last.hash

theorem Dated.of_increasing (h : signatures.Pairwise fun sig sig' => sig.signedAt < sig'.signedAt) :
    Dated signatures := by
  intro sig hsig hmax last hlast
  obtain ⟨before, rfl⟩ := List.getLast?_eq_some_iff.mp hlast
  rcases mem_append.mp hsig with hbefore | hself
  · have hlt := (pairwise_append.mp h).2.2 sig hbefore last (mem_singleton_self last)
    have hle := hmax last (mem_append_right _ (mem_singleton_self last))
    omega
  · rw [mem_singleton.mp hself]

section
variable {a : AuditStore} {rows : List AuditRow}

theorem Recorded.covers (h : Recorded P keys a) (hdated : Dated a.signatures)
    (hkept : Kept a.signatures rows) {pick : ℕ}
    (hlatest : latestSignature pick a.signatures = some sig) : Covers pick { a with rows } := by
  obtain ⟨hsig, hmax⟩ := mem_latestSigned.mp (latestSignature_mem hlatest)
  obtain ⟨last, hlast⟩ : ∃ last, a.signatures.getLast? = some last :=
    ⟨_, List.getLast?_eq_some_getLast (ne_nil_of_mem hsig)⟩
  have hseq : sig.seq = last.seq := hdated sig hsig hmax last hlast
  have hhash : sig.hash = last.hash := h.hash_eq_of_seq hsig (mem_of_getLast? hlast) hseq
  obtain ⟨row, hrow, hrowSeq, hrowHash⟩ := hkept last hlast
  refine ⟨sig, hlatest, fun sig' hsig' => ?_, row, hrow, ?_, ?_⟩
  · rw [hseq]
    exact h.seq_le_last hlast hsig'
  · rw [hrowSeq, hseq]
  · rw [hrowHash, hhash]

theorem Recorded.dated_of_covers (h : Recorded P keys a)
    (hcovers : ∀ pick sig, latestSignature pick a.signatures = some sig →
      Covers pick { a with rows }) : Dated a.signatures := by
  intro sig hsig hmax last hlast
  obtain ⟨pick, hpick⟩ := exists_latestSignature (mem_latestSigned.mpr ⟨hsig, hmax⟩)
  obtain ⟨sig', hsig', hgreatest, -⟩ := hcovers pick sig hpick
  obtain rfl := some.inj (hpick.symm.trans hsig')
  exact le_antisymm (h.seq_le_last hlast hsig) (hgreatest last (mem_of_getLast? hlast))

theorem Recorded.kept_of_covers (h : Recorded P keys a)
    (hcovers : ∀ pick sig, latestSignature pick a.signatures = some sig →
      Covers pick { a with rows }) : Kept a.signatures rows := by
  intro last hlast
  have hmem : last ∈ a.signatures := mem_of_getLast? hlast
  obtain ⟨sig, hsig⟩ := exists_mem_of_ne_nil _ (latestSigned_ne_nil (ne_nil_of_mem hmem))
  obtain ⟨pick, hpick⟩ := exists_latestSignature hsig
  obtain ⟨sig', hsig', hgreatest, row, hrow, hseq, hhash⟩ := hcovers pick sig hpick
  obtain rfl := some.inj (hpick.symm.trans hsig')
  have hmemSig : sig ∈ a.signatures := (mem_latestSigned.mp hsig).1
  have hsame : sig.seq = last.seq := le_antisymm (h.seq_le_last hlast hmemSig) (hgreatest last hmem)
  exact ⟨row, hrow, hseq.trans hsame, hhash.trans (h.hash_eq_of_seq hmemSig hmem hsame)⟩

end

/-- Whatever was done to the rows of the log, and whichever signature of the latest second is
examined: a verified signature covers the log exactly if the latest second only signed the last
signed entry and that entry is still there. -/
theorem verifyLatestSignature_covers_iff (P : Primitives) (keys : AuditKeys)
    (hpair : ∀ m, P.ed25519Verify keys.signPub m (P.ed25519Sign keys.signPriv m))
    (calls : List Call) {faults : Faults} (hload : faults .auditKeys = none)
    (hread : faults .auditSignature = none) (rows : List AuditRow) :
    (∀ pick, (verifyLatestSignature P faults pick
        { after P (.bootstrapped keys) calls with rows }).1 = .ok (some true) →
      Covers pick { after P (.bootstrapped keys) calls with rows }) ↔
      Dated (after P (.bootstrapped keys) calls).signatures ∧
        Kept (after P (.bootstrapped keys) calls).signatures rows := by
  have h := Recorded.after (P := P) keys calls
  simp only [h.verify_run hpair hload hread]
  constructor
  · intro hproperty
    have hcovers : ∀ pick sig,
        latestSignature pick (after P (.bootstrapped keys) calls).signatures = some sig →
          Covers pick { after P (.bootstrapped keys) calls with rows } := by
      intro pick sig hlatest
      exact hproperty pick (by rw [hlatest]; rfl)
    exact ⟨h.dated_of_covers hcovers, h.kept_of_covers hcovers⟩
  · rintro ⟨hdated, hkept⟩ pick hverified
    cases hlatest : latestSignature pick (after P (.bootstrapped keys) calls).signatures with
    | none =>
      rw [hlatest] at hverified
      cases hverified
    | some => exact h.covers hdated hkept hlatest

def signedTwiceCalls (first second : ℤ) : List Call :=
  [.log .none 50 50 [] "auth.login" "admin", .signHeadNow .none first,
   .log .none 60 60 [] "admin.domain_create" "example.com", .signHeadNow .none second]

def signedTwice (first second : ℤ) : AuditStore :=
  after chainPrimitives (.bootstrapped chainKeys) (signedTwiceCalls first second)

theorem verifyLatestSignature_covers_iff_signedTwice :
    (verifyLatestSignature chainPrimitives .none 0 (signedTwice 55 65)).1 = .ok (some true) ∧
      Covers 0 (signedTwice 55 65) := by
  have hdated : Dated (signedTwice 55 65).signatures := .of_increasing (by decide +kernel)
  have hentries : ∀ sig ∈ (signedTwice 55 65).signatures,
      ∃ row ∈ (signedTwice 55 65).rows, row.seq = sig.seq ∧ row.hash = sig.hash := by
    decide +kernel
  have hverified : (verifyLatestSignature chainPrimitives .none 0 (signedTwice 55 65)).1 =
      .ok (some true) := by decide +kernel
  exact ⟨hverified, (verifyLatestSignature_covers_iff chainPrimitives chainKeys
    (by simp [chainPrimitives, Primitives.sample]) (signedTwiceCalls 55 65) rfl rfl
    (signedTwice 55 65).rows).mpr
    ⟨hdated, fun last hlast => hentries last (mem_of_getLast? hlast)⟩ 0 hverified⟩

/-- With every row deleted the signature still verifies; and of two signatures of one second the one
examined may be the older. -/
theorem verified_but_not_covering :
    ((verifyLatestSignature chainPrimitives .none 0 { signedTwice 55 65 with rows := [] }).1 =
        .ok (some true) ∧ ¬ Covers 0 { signedTwice 55 65 with rows := [] }) ∧
      (verifyLatestSignature chainPrimitives .none 0 (signedTwice 65 65)).1 = .ok (some true) ∧
        ¬ Covers 0 (signedTwice 65 65) := by
  refine ⟨⟨by decide +kernel, ?_⟩, by decide +kernel, ?_⟩
  · rintro ⟨_, _, _, row, hrow, _⟩
    cases hrow
  · rintro ⟨sig, hsig, hgreatest, -⟩
    have hfirst : (latestSignature 0 (signedTwice 65 65).signatures).map HeadSignature.seq = some 1 := by
      decide +kernel
    have hsecond : ∃ sig ∈ (signedTwice 65 65).signatures, sig.seq = 2 := by decide +kernel
    obtain ⟨later, hlater, hseq⟩ := hsecond
    have hle := hgreatest later hlater
    rw [hsig, map_some, some.injEq] at hfirst
    omega

end Litterae.Audit
