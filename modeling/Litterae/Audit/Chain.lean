import Litterae.Foundations.Chain
import Litterae.Audit.Store
import Mathlib.Data.Set.Function

/-! # The chain of the audit log (`audit/src/store.rs`)

The program holds one `AuditStore`, and every method keeps its mutex from its first statement to its
last. Calls made at the same time are therefore a list of whole calls; each may still stop at any of
its statements. What a call can do to the tables is said once, in `Effect`.
-/

namespace Litterae.Audit
open Foundations Exec Bool List Option

section
variable (P : Primitives) (faults : Faults)

def signHeadNow (signedAt : ℤ) : Exec AuditStore Error Unit := do
  let keys ← loadKeys faults
  sql faults .auditHead
  let a ← Exec.get
  match a.rows.getLast? with
  | none => pure ()
  | some row => do
    let hash ← orPanic (Block.ofBytes 32 row.hash)
    signHeadLocked P faults signedAt keys row.seq hash

def chainHolds (chainKey : Block 32) : Block 32 → List AuditRow → Bool
  | _, [] => true
  | expectedPrev, row :: rows =>
    if row.prevHash ≠ expectedPrev.val then false
    else
      let expectedHash := P.hmac chainKey (expectedPrev.val ++ row.commitment)
      if expectedHash.val ≠ row.hash then false else chainHolds chainKey expectedHash rows

def verifyChain : Exec AuditStore Error Bool := do
  let keys ← loadKeys faults
  sql faults .auditVerify
  let a ← Exec.get
  pure (chainHolds P keys.chainKey genesisHash a.rows)

end

/-! ## Runs of calls -/

/-- A call that writes to the audit tables, with the clock readings and the randomness it meets. -/
inductive Call where
  | log (faults : Faults) (now signedAt : ℤ) (random : Bytes) (action detail : Text)
  | signHeadNow (faults : Faults) (signedAt : ℤ)
  | rewrapAuditKey (faults : Faults) (nonce : Block 24) (oldWrapKey newWrapKey : Block 32)

def Call.exec (P : Primitives) : Call → Exec AuditStore Error Unit
  | .log faults now signedAt random action detail =>
    Audit.log P faults now signedAt random action detail
  | .signHeadNow faults signedAt => Audit.signHeadNow P faults signedAt
  | .rewrapAuditKey faults nonce oldWrapKey newWrapKey =>
    Audit.rewrapAuditKey P faults nonce oldWrapKey newWrapKey

def AuditStore.bootstrapped (keys : AuditKeys) : AuditStore := { AuditStore.empty with keys := some keys }

def after (P : Primitives) (a : AuditStore) (calls : List Call) : AuditStore :=
  calls.foldl (fun a call => (call.exec P a).2) a

structure Signs (P : Primitives) (signPriv : Block 32) (row : AuditRow) (sig : HeadSignature) :
    Prop where
  seq : sig.seq = row.seq
  hash : sig.hash = row.hash
  signature : ∃ hash : Block 32, row.hash = hash.val ∧
    sig.signature = (P.ed25519Sign signPriv (headMessage row.seq hash)).val

inductive Effect (P : Primitives) (a : AuditStore) : AuditStore → Prop
  | unchanged : Effect P a a
  | rewrapped {keys : AuditKeys} (hkeys : a.keys = some keys) (wrapped : Bytes) (keyId : UInt16) :
    Effect P a { a with keys := some { keys with wrappedAuditPriv := wrapped, keyId } }
  | logged {keys : AuditKeys} (hkeys : a.keys = some keys) {prev : Block 32}
      (hprev : headHash a.rows = some prev) {row : AuditRow} (hseq : row.seq = a.lastSeq + 1)
      (hlink : row.prevHash = prev.val)
      (hhash : row.hash = (P.hmac keys.chainKey (prev.val ++ row.commitment)).val)
      {fresh : List HeadSignature} (hfresh : ∀ sig ∈ fresh, Signs P keys.signPriv row sig) :
    Effect P a
      { a with
        lastSeq := a.lastSeq + 1
        rows := a.rows ++ [row]
        signatures := a.signatures ++ fresh }
  | signed {keys : AuditKeys} (hkeys : a.keys = some keys) {row : AuditRow}
      (hrow : a.rows.getLast? = some row) {sig : HeadSignature}
      (hsig : Signs P keys.signPriv row sig) :
    Effect P a { a with signatures := a.signatures ++ [sig] }

variable {a : AuditStore} {keys : AuditKeys} {row : AuditRow} {prev : Block 32} {faults : Faults}
  {P : Primitives}

section

theorem Effect.unsigned (hkeys : a.keys = some keys) (hprev : headHash a.rows = some prev)
    (hseq : row.seq = a.lastSeq + 1) (hlink : row.prevHash = prev.val)
    (hhash : row.hash = (P.hmac keys.chainKey (prev.val ++ row.commitment)).val) :
    Effect P a { a with lastSeq := a.lastSeq + 1, rows := a.rows ++ [row] } := by
  have h := Effect.logged hkeys hprev hseq hlink hhash (forall_mem_nil _)
  rwa [append_nil] at h

theorem loadKeys_state : (loadKeys faults a).2 = a := by
  rw [loadKeys_run]
  split <;> rfl

theorem loadKeys_ok {t : AuditStore} (h : loadKeys faults a = (.ok keys, t)) :
    t = a ∧ a.keys = some keys := by
  rw [loadKeys_run] at h
  split at h
  · cases h
  · next hkeys => cases h; exact ⟨rfl, hkeys⟩
  · cases h

theorem signHeadLocked_run (signedAt seq : ℤ) (hash : Block 32) :
    (signHeadLocked P faults signedAt keys seq hash a).2 =
      match faults .auditSign with
      | some _ => a
      | none =>
        { a with
          signatures := a.signatures ++
            [{ seq
               hash := hash.val
               signature := (P.ed25519Sign keys.signPriv (headMessage seq hash)).val
               signedAt }] } := by
  rw [signHeadLocked, sql_bind_run]
  cases faults .auditSign <;> rfl

theorem log_effect (now signedAt : ℤ) (random : Bytes) (action detail : Text) (a : AuditStore) :
    Effect P a (log P faults now signedAt random action detail a).2 := by
  refine state_bind (by rw [loadKeys_state]; exact .unchanged) fun keys t hload => ?_
  obtain ⟨rfl, hkeys⟩ := loadKeys_ok hload
  rw [sql_bind_run]
  cases faults .auditHead with
  | some => exact .unchanged
  | none =>
    simp only [get_bind_run, orPanic_bind_run]
    cases hhead : headHash t.rows with
    | none => exact .unchanged
    | some =>
      simp only [ofExcept_bind_run]
      split
      · rw [sql_bind_run]
        cases faults .auditInsert with
        | some => exact .unchanged
        | none =>
          -- the row is in; only the signature may still be missing
          simp only [bind_run, update_run, insertRow, ite_run, pure_run]
          split
          · rw [signHeadLocked_run]
            split
            · exact .unsigned hkeys hhead rfl rfl rfl
            · refine .logged hkeys hhead rfl rfl rfl ?_
              rintro sig hsig
              obtain rfl := mem_singleton.mp hsig
              exact ⟨rfl, rfl, _, rfl, rfl⟩
          · exact .unsigned hkeys hhead rfl rfl rfl
      · exact .unchanged

theorem signHeadNow_effect (signedAt : ℤ) :
    Effect P a (signHeadNow P faults signedAt a).2 := by
  refine state_bind (by rw [loadKeys_state]; exact .unchanged) fun keys t hload => ?_
  obtain ⟨rfl, hkeys⟩ := loadKeys_ok hload
  rw [sql_bind_run]
  cases faults .auditHead with
  | some => exact .unchanged
  | none =>
    simp only [get_bind_run]
    cases hrow : t.rows.getLast? with
    | none => exact .unchanged
    | some row =>
      simp only [orPanic_bind_run]
      cases hhash : Block.ofBytes 32 row.hash with
      | none => exact .unchanged
      | some hash =>
        simp only [signHeadLocked_run]
        split
        · exact .unchanged
        · have hval := Block.val_of_ofBytes hhash
          exact .signed hkeys hrow ⟨rfl, hval, hash, hval.symm, rfl⟩

theorem rewrapAuditKey_effect (nonce : Block 24) (oldWrapKey newWrapKey : Block 32) :
    Effect P a (rewrapAuditKey P faults nonce oldWrapKey newWrapKey a).2 := by
  rw [rewrapAuditKey, sql_bind_run]
  cases faults .auditRewrapSelect with
  | some => exact .unchanged
  | none =>
    simp only [get_bind_run, ofOption_bind_run]
    cases hkeys : a.keys with
    | none => exact .unchanged
    | some =>
      simp only [ofExcept_bind_run]
      split
      · rw [sql_bind_run]
        cases faults .auditRewrapUpdate with
        | some => exact .unchanged
        | none => exact .rewrapped hkeys _ _
      · exact .unchanged

theorem Call.effect (call : Call) (a : AuditStore) : Effect P a (call.exec P a).2 := by
  cases call with
  | log => exact log_effect ..
  | signHeadNow => exact signHeadNow_effect ..
  | rewrapAuditKey => exact rewrapAuditKey_effect ..

theorem after_invariant {I : AuditStore → Prop} (hstep : ∀ a b, I a → Effect P a b → I b) (ha : I a)
    (calls : List Call) : I (after P a calls) := by
  induction calls generalizing a with
  | nil => exact ha
  | cons call _ ih => exact ih (hstep a _ ha (call.effect a))

end

/-! ## The chain -/

def AuditRow.message (row : AuditRow) : Bytes := row.prevHash ++ row.commitment

def link (P : Primitives) (chainKey : Block 32) (prevHash commitment : Bytes) : Bytes :=
  (P.hmac chainKey (prevHash ++ commitment)).val

abbrev Chained (P : Primitives) (chainKey : Block 32) (rows : List AuditRow) : Prop :=
  accepts AuditRow.commitment AuditRow.prevHash AuditRow.hash (link P chainKey) genesisHash.val rows = true

variable {chainKey : Block 32} {rows : List AuditRow}

section

theorem chainHolds_eq_accepts (expectedPrev : Block 32) :
    chainHolds P chainKey expectedPrev rows =
      accepts AuditRow.commitment AuditRow.prevHash AuditRow.hash (link P chainKey)
        expectedPrev.val rows := by
  induction rows generalizing expectedPrev with
  | nil => rfl
  | cons row _ ih =>
    unfold chainHolds accepts
    by_cases hprev : row.prevHash = expectedPrev.val
    · by_cases hhash : (P.hmac chainKey (expectedPrev.val ++ row.commitment)).val = row.hash
      · simp [hprev, link, ih, hhash]
      · simp [hprev, link, hhash]
    · simp [hprev]

theorem verifyChain_run (hload : faults .auditKeys = none) (hread : faults .auditVerify = none)
    (hkeys : a.keys = some keys) :
    verifyChain P faults a = (.ok (chainHolds P keys.chainKey genesisHash a.rows), a) := by
  have hloaded : loadKeys faults a = (.ok keys, a) := by rw [loadKeys_run, hload, hkeys]
  rw [verifyChain, bind_of_ok hloaded, sql_bind_run, hread]
  rfl

theorem headHash_eq_lastHash (h : headHash rows = some prev) :
    prev.val = lastHash AuditRow.hash genesisHash.val rows := by
  unfold headHash at h
  unfold lastHash
  cases hlast : rows.getLast? with
  | none =>
    rw [hlast] at h
    obtain rfl := some.inj h
    rfl
  | some =>
    rw [hlast] at h
    exact Block.val_of_ofBytes h

/-- The keys stay, up to the wrapping of the private key, and the rows are a chain. -/
structure Sound (P : Primitives) (keys : AuditKeys) (a : AuditStore) : Prop where
  held : ∃ keys', a.keys = some keys' ∧ keys'.chainKey = keys.chainKey ∧
    keys'.signPriv = keys.signPriv ∧ keys'.signPub = keys.signPub
  chained : Chained P keys.chainKey a.rows

theorem Sound.bootstrapped (keys : AuditKeys) : Sound P keys (.bootstrapped keys) :=
  ⟨⟨keys, rfl, rfl, rfl, rfl⟩, rfl⟩

theorem Sound.effect {b : AuditStore} (h : Sound P keys a) (heffect : Effect P a b) :
    Sound P keys b := by
  obtain ⟨⟨keys', hkeys', hchain, hpriv, hpub⟩, hrows⟩ := h
  cases heffect with
  | unchanged | signed hkeys hrow hsig => exact ⟨⟨keys', hkeys', hchain, hpriv, hpub⟩, hrows⟩
  | rewrapped hkeys =>
    obtain rfl := some.inj (hkeys'.symm.trans hkeys)
    exact ⟨⟨_, rfl, hchain, hpriv, hpub⟩, hrows⟩
  | logged hkeys hprev _ hlink hhash =>
    obtain rfl := some.inj (hkeys'.symm.trans hkeys)
    refine ⟨⟨keys', hkeys', hchain, hpriv, hpub⟩, accepts_concat.mpr ⟨hrows, ?_, ?_⟩⟩
    · rw [hlink, headHash_eq_lastHash hprev]
    · rw [← headHash_eq_lastHash hprev, hhash, ← hchain]
      rfl

theorem Sound.after (keys : AuditKeys) (calls : List Call) :
    Sound P keys (after P (.bootstrapped keys) calls) :=
  after_invariant (fun _ _ h => h.effect) (.bootstrapped keys) calls

theorem Sound.verifyChain (h : Sound P keys a) (hload : faults .auditKeys = none)
    (hread : faults .auditVerify = none) (rows : List AuditRow) :
    verifyChain P faults { a with rows } =
      (.ok (chainHolds P keys.chainKey genesisHash rows), { a with rows }) := by
  obtain ⟨⟨keys', hkeys', hchain, -, -⟩, -⟩ := h
  have hrun := verifyChain_run (P := P) (a := { a with rows }) hload hread hkeys'
  rwa [hchain] at hrun

theorem Chained.prevHash_length (h : Chained P chainKey rows) :
    ∀ row ∈ rows, row.prevHash.length = 32 :=
  prev_of_accepts (fun g => g.length = 32)
    (fun g c => (P.hmac chainKey (g ++ c)).property) genesisHash.property h

end

/-! ## Editing one column -/

inductive Edit where
  | at_ (value : ℤ)
  | action (value : Text)
  | commitment (value : Bytes)
  | prevHash (value : Bytes)
  | hash (value : Bytes)
  | sealedDetail (value : Bytes)

def Edit.apply : Edit → AuditRow → AuditRow
  | .at_ value, row => { row with at_ := value }
  | .action value, row => { row with action := value }
  | .commitment value, row => { row with commitment := value }
  | .prevHash value, row => { row with prevHash := value }
  | .hash value, row => { row with hash := value }
  | .sealedDetail value, row => { row with sealedDetail := value }

def Edit.chained : Edit → Bool
  | .commitment _ | .prevHash _ | .hash _ => true
  | .at_ _ | .action _ | .sealedDetail _ => false

def AuditStore.edit (a : AuditStore) (k : ℕ) (edit : Edit) : AuditStore :=
  { a with rows := a.rows.modify k edit.apply }

section

theorem chained_edit_iff {before later : List AuditRow} {edit : Edit}
    (h : Chained P chainKey (before ++ row :: later)) (hchange : edit.apply row ≠ row)
    (hinj : Set.InjOn (P.hmac chainKey) {row.message, (edit.apply row).message}) :
    Chained P chainKey (before ++ edit.apply row :: later) ↔ edit.chained = false := by
  obtain ⟨hbefore, hrest⟩ := accepts_append.mp h
  obtain ⟨hprev, hhash, hlater⟩ := accepts_cons.mp hrest
  rw [Chained, accepts_append, accepts_cons]
  cases edit with
  | at_ value | action value | sealedDetail value =>
    simp [Edit.apply, Edit.chained, hbefore, hprev, hhash, hlater]
  | prevHash value =>
    simp only [Edit.chained, true_eq_false, iff_false]
    rintro ⟨-, hvalue, -⟩
    have hsame : value = row.prevHash := hvalue.trans hprev.symm
    exact hchange (by rw [Edit.apply, hsame])
  | hash value =>
    simp only [Edit.chained, true_eq_false, iff_false]
    rintro ⟨-, -, hvalue, -⟩
    have hsame : value = row.hash := hvalue.symm.trans hhash
    exact hchange (by rw [Edit.apply, hsame])
  | commitment value =>
    simp only [Edit.chained, true_eq_false, iff_false]
    rintro ⟨-, -, hvalue, -⟩
    have hlinks : P.hmac chainKey row.message =
        P.hmac chainKey (Edit.apply (.commitment value) row).message := by
      apply Subtype.ext
      simp only [AuditRow.message, Edit.apply, hprev]
      exact hhash.trans hvalue.symm
    have hmessages := hinj (by simp) (by simp) hlinks
    have hsame : row.commitment = value := append_cancel_left hmessages
    exact hchange (by rw [Edit.apply, ← hsame])

end

/-- `verify_chain` notices a changed column exactly if it is the commitment or one of the two
hashes; the time, the action and the sealed detail are not part of what is hashed. -/
theorem verifyChain_edit_iff (P : Primitives) (keys : AuditKeys) (calls : List Call)
    {faults : Faults} (hload : faults .auditKeys = none) (hread : faults .auditVerify = none)
    {k : ℕ} {row : AuditRow} (hrow : (after P (.bootstrapped keys) calls).rows[k]? = some row)
    {edit : Edit} (hchange : edit.apply row ≠ row)
    (hinj : Set.InjOn (P.hmac keys.chainKey) {row.message, (edit.apply row).message}) :
    (verifyChain P faults ((after P (.bootstrapped keys) calls).edit k edit)).1 = .ok false ↔
      edit.chained := by
  have hsound := Sound.after (P := P) keys calls
  rw [AuditStore.edit, hsound.verifyChain hload hread]
  obtain ⟨hk, hget⟩ := List.getElem?_eq_some_iff.mp hrow
  have hrows := hsound.chained
  rw [← take_append_drop k (after P (.bootstrapped keys) calls).rows,
    drop_eq_getElem_cons hk, hget] at hrows
  have hiff := chained_edit_iff hrows hchange hinj
  rw [modify_eq_take_cons_drop hk, hget]
  rw [Chained, ← chainHolds_eq_accepts] at hiff
  simp only [Res.ok.injEq]
  rw [← not_eq_true, hiff, not_eq_false]

/-- A keyed hash to run the chain with: the bytes as digits of a number, modulo `2 ^ 256`. -/
def digitHash (chainKey : Block 32) (data : Bytes) : Block 32 :=
  let n := (chainKey.val ++ data).foldl (fun n b => (n * 257 + b.toNat + 1) % 2 ^ 256) 0
  ⟨(List.range 32).map fun k => UInt8.ofNat (n / 256 ^ k), by simp⟩

def chainPrimitives : Primitives := { Primitives.sample fun _ => none with hmac := digitHash }

def chainKeys : AuditKeys where
  auditPub := Block.padded [1]
  wrappedAuditPriv := []
  keyId := 1
  chainKey := Block.padded [2]
  signPub := Block.padded [3]
  signPriv := Block.padded [4]

def twoEntries : AuditStore := after chainPrimitives (.bootstrapped chainKeys)
  [.log .none 50 50 [] "auth.login" "admin",
   .log .none 60 60 [] "admin.domain_create" "example.com"]

theorem verifyChain_edit_iff_commitment :
    (verifyChain chainPrimitives .none (twoEntries.edit 0 (.commitment []))).1 = .ok false :=
  (verifyChain_edit_iff chainPrimitives chainKeys
    [.log .none 50 50 [] "auth.login" "admin",
     .log .none 60 60 [] "admin.domain_create" "example.com"]
    rfl rfl (some_get (by decide +kernel : twoEntries.rows[0]?.isSome)).symm
    (by decide +kernel) (Set.injOn_pair.mpr (by decide +kernel))).mpr rfl

/-- The label of the first entry is another one, and nothing is noticed. -/
theorem edited_action_accepted :
    twoEntries.edit 0 (.action "auth.logout") ≠ twoEntries ∧
      (verifyChain chainPrimitives .none
        (twoEntries.edit 0 (.action "auth.logout"))).1 = .ok true := by
  decide +kernel

/-! ## The last hash -/

def Linked (rows : List AuditRow) (prevHash commitment : Bytes) : Prop :=
  prevHash.length = 32 ∧ ∃ row ∈ rows, row.message = prevHash ++ commitment

section

theorem link_inj (hinj : Set.InjOn (P.hmac chainKey) {m | ∃ row ∈ rows, row.message = m})
    (g g' c c' : Bytes) (h : Linked rows g c) (h' : Linked rows g' c')
    (heq : link P chainKey g c = link P chainKey g' c') : g = g' ∧ c = c' := by
  have hmessages : g ++ c = g' ++ c' := hinj h.2 h'.2 (Subtype.ext heq)
  exact append_inj hmessages (h.1.trans h'.1.symm)

theorem link_ne_genesis (hfresh : ∀ row ∈ rows, P.hmac chainKey row.message ≠ genesisHash)
    (g c : Bytes) (h : Linked rows g c) : link P chainKey g c ≠ genesisHash.val := by
  obtain ⟨-, row, hrow, hmessage⟩ := h
  intro heq
  apply hfresh row hrow
  rw [hmessage]
  exact Subtype.ext heq

theorem Chained.linked {part : List AuditRow} (h : Chained P chainKey part) (hsub : part ⊆ rows) :
    ∀ row ∈ part, Linked rows row.prevHash row.commitment :=
  fun row hrow => ⟨h.prevHash_length row hrow, row, hsub hrow, rfl⟩

end

/-- Every table the calls write is accepted; and two accepted tables with one last hash (the genesis
hash for an empty table) agree on every row's commitment and hashes. No function of all byte strings
into 32 bytes is injective: the hash is one on the messages of the two tables. -/
theorem verifyChain_fixes_history (P : Primitives) {faults : Faults}
    (hload : faults .auditKeys = none) (hread : faults .auditVerify = none) :
    (∀ (keys : AuditKeys) (calls : List Call),
      (verifyChain P faults (after P (.bootstrapped keys) calls)).1 = .ok true) ∧
    ∀ (a b : AuditStore) (keys : AuditKeys), a.keys = some keys → b.keys = some keys →
      Set.InjOn (P.hmac keys.chainKey) {m | ∃ row ∈ a.rows ++ b.rows, row.message = m} →
      (∀ row ∈ a.rows ++ b.rows, P.hmac keys.chainKey row.message ≠ genesisHash) →
      (verifyChain P faults a).1 = .ok true → (verifyChain P faults b).1 = .ok true →
      lastHash AuditRow.hash genesisHash.val a.rows = lastHash AuditRow.hash genesisHash.val b.rows →
      a.rows.map (fun row => (row.commitment, row.prevHash, row.hash)) =
        b.rows.map (fun row => (row.commitment, row.prevHash, row.hash)) := by
  constructor
  · intro keys calls
    have hsound := Sound.after (P := P) keys calls
    rw [hsound.verifyChain hload hread, chainHolds_eq_accepts, hsound.chained]
  · intro a b keys ha hb hinj hfresh haccept haccept' hlast
    rw [verifyChain_run hload hread ha, Res.ok.injEq, chainHolds_eq_accepts] at haccept
    rw [verifyChain_run hload hread hb, Res.ok.injEq, chainHolds_eq_accepts] at haccept'
    exact columns_eq_of_lastHash (Linked (a.rows ++ b.rows)) (link_inj hinj)
      (link_ne_genesis hfresh) (Chained.linked haccept (subset_append_left ..))
      (Chained.linked haccept' (subset_append_right ..)) haccept haccept' hlast

theorem verifyChain_fixes_history_twoEntries :
    (verifyChain chainPrimitives .none twoEntries).1 = .ok true ∧
      twoEntries.rows.map (fun row => (row.commitment, row.prevHash, row.hash)) =
        (twoEntries.edit 1 (.at_ 70)).rows.map fun row =>
          (row.commitment, row.prevHash, row.hash) := by
  have h := @verifyChain_fixes_history chainPrimitives .none rfl rfl
  refine ⟨h.1 chainKeys _, h.2 twoEntries (twoEntries.edit 1 (.at_ 70)) chainKeys rfl rfl ?_ ?_ ?_ ?_ ?_⟩
  · have hpairs : ∀ row ∈ twoEntries.rows ++ (twoEntries.edit 1 (.at_ 70)).rows,
        ∀ row' ∈ twoEntries.rows ++ (twoEntries.edit 1 (.at_ 70)).rows,
          digitHash chainKeys.chainKey row.message = digitHash chainKeys.chainKey row'.message →
            row.message = row'.message := by decide +kernel
    rintro m ⟨row, hrow, rfl⟩ m' ⟨row', hrow', rfl⟩ heq
    exact hpairs row hrow row' hrow' heq
  · decide +kernel
  · decide +kernel
  · decide +kernel
  · decide +kernel

end Litterae.Audit
