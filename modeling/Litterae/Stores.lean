import Litterae.Store.Blob
import Litterae.Store.Metadata
import Litterae.Queue.Schema

/-! # The stores the components share

The blob directory, the metadata, queue and auth databases, the audit log and the change
notifications sent so far. An operation of one store runs on the whole through `onBlobs`,
`onMetadata` and `onQueue`, which leave the other stores alone.
-/

namespace Litterae
open Foundations

/-- A row of `accounts`, without the wrapped key material that only an unlock reads. -/
structure Account where
  id : ℤ
  localPart : Text
  domain : Text
  keyId : UInt16
  accountPub : Bytes
  createdAt : ℤ
  signatureSealed : Option Bytes := none
  deriving DecidableEq

inductive AppPasswordScope where
  | full | submission
  deriving DecidableEq

structure AppPassword where
  id : ℤ
  accountId : ℤ
  label : Text
  scope : AppPasswordScope
  salt : Bytes
  wrappedAmk : Bytes
  createdAt : ℤ
  lastUsedAt : Option ℤ
  deriving DecidableEq

structure Domain where
  id : ℤ
  name : Text
  catchAllLocalPart : Option Text
  verificationToken : Text
  verifiedAt : Option ℤ
  createdAt : ℤ
  deriving DecidableEq

structure AuditEntry where
  action : Text
  detail : Text
  deriving DecidableEq

structure Stores where
  blobs : Store.BlobStore
  metadata : Store.MetadataStore
  queue : Queue.QueueStore
  accounts : List Account
  appPasswords : List AppPassword
  domains : List Domain
  audit : List AuditEntry
  notified : List ℤ

def Stores.empty : Stores where
  blobs := .empty
  metadata := .empty
  queue := .empty
  accounts := []
  appPasswords := []
  domains := []
  audit := []
  notified := []

section
variable {α : Type} {s t : Stores} {r : Res Error α}

def onBlobs (x : Exec Store.BlobStore Error α) : Exec Stores Error α :=
  x.zoom Stores.blobs fun b s => { s with blobs := b }

def onMetadata (x : Exec Store.MetadataStore Error α) : Exec Stores Error α :=
  x.zoom Stores.metadata fun m s => { s with metadata := m }

def onQueue (x : Exec Queue.QueueStore Error α) : Exec Stores Error α :=
  x.zoom Stores.queue fun q s => { s with queue := q }

theorem onBlobs_run (x : Exec Store.BlobStore Error α) :
    onBlobs x s = ((x s.blobs).1, { s with blobs := (x s.blobs).2 }) := rfl

theorem onMetadata_run (x : Exec Store.MetadataStore Error α) :
    onMetadata x s = ((x s.metadata).1, { s with metadata := (x s.metadata).2 }) := rfl

theorem onQueue_run (x : Exec Queue.QueueStore Error α) :
    onQueue x s = ((x s.queue).1, { s with queue := (x s.queue).2 }) := rfl

theorem onBlobs_eq {x : Exec Store.BlobStore Error α} (h : onBlobs x s = (r, t)) :
    x s.blobs = (r, t.blobs) ∧ t = { s with blobs := t.blobs } := by
  obtain ⟨rfl, rfl⟩ := h
  exact ⟨rfl, rfl⟩

theorem onMetadata_eq {x : Exec Store.MetadataStore Error α} (h : onMetadata x s = (r, t)) :
    x s.metadata = (r, t.metadata) ∧ t = { s with metadata := t.metadata } := by
  obtain ⟨rfl, rfl⟩ := h
  exact ⟨rfl, rfl⟩

theorem onQueue_eq {x : Exec Queue.QueueStore Error α} (h : onQueue x s = (r, t)) :
    x s.queue = (r, t.queue) ∧ t = { s with queue := t.queue } := by
  obtain ⟨rfl, rfl⟩ := h
  exact ⟨rfl, rfl⟩

end

def notify (accountId : ℤ) (s : Stores) : Stores := { s with notified := s.notified ++ [accountId] }

def findById (accounts : List Account) (id : ℤ) : Option Account := findBy Account.id id accounts

def findByAddress (accounts : List Account) (localPart domain : Text) : Option Account :=
  accounts.find? fun a => a.localPart == localPart && a.domain == domain.map Char.toLower

end Litterae
