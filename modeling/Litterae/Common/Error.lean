import Litterae.Foundations.Respects
import Litterae.Foundations.Text

/-! # Errors and failing calls (`common/src/error.rs`)

Every fallible call to SQLite or the file system is named by a `Site`. A `Faults` says which sites
fail in one run of an operation and with what text; every failure pattern is one `Faults`.
-/

namespace Litterae
open Foundations Exec

inductive Error where
  | config (detail : Text)
  | io (detail : Text)
  | crypto (detail : Text)
  | storage (detail : Text)
  | network (detail : Text)
  | rateLimited (detail : Text)
  deriving DecidableEq

def Error.display : Error → Text
  | .config d => "config error: " ++ d
  | .io d => "io error: " ++ d
  | .crypto d => "crypto error: " ++ d
  | .storage d => "storage error: " ++ d
  | .network d => "network error: " ++ d
  | .rateLimited d => "rate limited: " ++ d

/-- The statements and file operations that can fail, one name for each place in the source. A
loop's statement carries the index of its round. -/
inductive Site where
  | blobPrepare
  | blobSyncDir
  | blobRead
  | blobRemove
  | mailboxInsert (k : ℕ)
  | mailboxByRole
  | threadByReference
  | threadBySubjectHash
  | threadInsert
  | messageInsert
  | messageById
  | messageSetMailbox
  | messageSetKeywords
  | messagesInThread
  | uploadById
  | dkimSelect
  | dkimInsert
  | countMessages
  | countRecipients
  | outboundInsert
  | rcptInsert (k : ℕ)
  | dueEvents
  | eventMark
  | reapUpdate
  | expireUpdate
  | claimUpdate
  | releaseUpdate (k : ℕ)
  | loadOutbound
  | finalizeUpdate
  | delayedUpdate
  | countActive
  | accountById
  | accountByAddress (k : ℕ)
  | domainByName
  | domainList
  | domainById
  | domainInsert
  | domainCatchAll
  | domainVerified
  | domainDelete
  | adminCount
  | adminByUsername
  | adminUsername
  | adminInsert
  | adminPassword
  | totpEnabled
  | totpPending
  | totpSelect
  | totpConfirm
  | totpDisable
  | recoverySelect
  | recoveryUpdate
  | totpRewrapSelect
  | totpRewrapUpdate
  | accountList
  | accountInsert
  | accountDelete
  | queueMetrics
  | queueFailures
  | auditKeyCount
  | auditKeyInsert
  | auditKeys
  | auditHead
  | auditInsert
  | auditSign
  | auditRead
  | auditRewrapSelect
  | auditRewrapUpdate
  | auditVerify
  | auditSignature
  | mailboxList
  | messageDelete
  | messagesByIds
  | messagesForAccount
  | messagesInMailbox
  | messagesByKeyword
  | uploadInsert
  | contactList
  | contactById
  | contactInsert
  | contactUpdate
  | contactDelete
  | eventInsert
  | eventsPending
  | eventCancel (k : ℕ)
  | signatureSelect
  | signatureUpdate
  | appPasswordList
  | appPasswordInsert
  | appPasswordDelete
  | appPasswordTouch
  | searchIndex
  deriving DecidableEq

abbrev Faults := Site → Option Text

namespace Faults

def none : Faults := fun _ => .none

def only (site : Site) (detail : Text) : Faults := fun s => if s = site then some detail else .none

end Faults

section
variable {σ : Type} {R : σ → σ → Prop} {α : Type} {faults : Faults} {site : Site} {f : σ → α}

/-- A statement on a SQLite connection: `storage_err` wraps its error. -/
def sql (faults : Faults) (site : Site) : Exec σ Error Unit :=
  match faults site with
  | some detail => Exec.throw (.storage detail)
  | none => pure ()

def file (faults : Faults) (site : Site) : Exec σ Error Unit :=
  match faults site with
  | some detail => Exec.throw (.io detail)
  | none => pure ()

theorem sql_run (s : σ) :
    sql faults site s = match faults site with
      | some detail => (.err (.storage detail), s)
      | none => (.ok (), s) := by
  unfold sql
  cases faults site <;> rfl

theorem file_run (s : σ) :
    file faults site s = match faults site with
      | some detail => (.err (.io detail), s)
      | none => (.ok (), s) := by
  unfold file
  cases faults site <;> rfl

theorem sql_bind_run (f : Unit → Exec σ Error α) (s : σ) :
    (sql faults site >>= f) s = match faults site with
      | some detail => (.err (.storage detail), s)
      | none => f () s := by
  rw [bind_run, sql_run]
  cases faults site <;> rfl

theorem file_bind_run (f : Unit → Exec σ Error α) (s : σ) :
    (file faults site >>= f) s = match faults site with
      | some detail => (.err (.io detail), s)
      | none => f () s := by
  rw [bind_run, file_run]
  cases faults site <;> rfl

theorem sql_noPanic : NoPanic (sql (σ := σ) faults site) := by
  intro s
  rw [sql_run]
  cases faults site <;> rfl

theorem file_noPanic : NoPanic (file (σ := σ) faults site) := by
  intro s
  rw [file_run]
  cases faults site <;> rfl

theorem sql_state (faults : Faults) (site : Site) (s : σ) : (sql faults site s).2 = s := by
  rw [sql_run]
  cases faults site <;> rfl

theorem file_state (s : σ) : (file faults site s).2 = s := by
  rw [file_run]
  cases faults site <;> rfl

theorem sql_keeps [Std.Refl R] :
    Keeps R (sql faults site) := .of_state (sql_state faults site)

theorem query_keeps [IsPreorder σ R] (faults : Faults) (site : Site) (f : σ → α) :
    Keeps R (do sql faults site; let m ← Exec.get; pure (f m)) :=
  .bind sql_keeps fun _ => .bind .get fun _ => .pure

theorem query_same {β : Type} {g : σ → β} :
    Keeps (Same g) (do sql faults site; let m ← Exec.get; pure (f m)) :=
  query_keeps faults site f

theorem sql_respects :
    Respects R (sql faults site) := by
  intro s s' hs
  rw [sql_run, sql_run]
  cases faults site with
  | none | some detail => exact ⟨rfl, hs⟩

theorem query_respects (hf : ∀ s s', R s s' → f s = f s') :
    Respects R (do sql faults site; let m ← Exec.get; pure (f m)) :=
  .bind sql_respects fun _ => .read hf

end
end Litterae
