import Litterae.Crypto.Seal

/-! # Content-addressed blob store (`store/src/blob.rs`)

A blob is a file named by the hex SHA-256 of its bytes. The state is which names have a file and
with what content; temporary files are not part of it, a write publishes by one rename.
-/

namespace Litterae.Store
open Foundations Exec

structure BlobStore where
  file : Text → Option Bytes

namespace BlobStore

def empty : BlobStore := ⟨fun _ => none⟩

def put (b : BlobStore) (hash : Text) (bytes : Bytes) : BlobStore :=
  ⟨fun h => if h = hash then some bytes else b.file h⟩

def erase (b : BlobStore) (hash : Text) : BlobStore :=
  ⟨fun h => if h = hash then none else b.file h⟩

end BlobStore

def hashHex (P : Primitives) (bytes : Bytes) : Text := hexEncode (P.sha256 bytes)

/-- The check of `path_for`: 64 bytes, all hexadecimal digits. -/
def validHash (hash : Text) : Bool := byteLen hash == 64 && hash.all isHexDigit

theorem validHash_hashHex (P : Primitives) (bytes : Bytes) : validHash (hashHex P bytes) := by
  simp only [validHash, hashHex, byteLen_hexEncode, P.sha256_length, all_isHexDigit_hexEncode]
  decide

section
variable (P : Primitives) (faults : Faults)

def pathFor (hash : Text) : Exec BlobStore Error Unit :=
  if validHash hash then pure () else Exec.throw (.storage "invalid blob hash")

def blobExists (b : BlobStore) (hash : Text) : Bool := validHash hash && (b.file hash).isSome

/-- `BlobStore::write`: a failure before the rename leaves no file, one of the directory sync
after it leaves the file in place. -/
def write (bytes : Bytes) : Exec BlobStore Error Text := do
  let hash := hashHex P bytes
  pathFor hash
  let b ← Exec.get
  if (b.file hash).isSome then pure hash
  else do
    file faults .blobPrepare
    Exec.modify fun b => b.put hash bytes
    file faults .blobSyncDir
    pure hash

/-- `BlobStore::read`, which checks the content against its name. -/
def read (hash : Text) : Exec BlobStore Error Bytes := do
  pathFor hash
  file faults .blobRead
  let b ← Exec.get
  match b.file hash with
  | none => Exec.throw (.io "No such file or directory")
  | some bytes =>
    if hashHex P bytes ≠ hash then
      Exec.throw (.storage ("blob integrity check failed: expected " ++ hash ++
        ", got " ++ hashHex P bytes))
    else pure bytes

/-- `BlobStore::remove`: a missing file counts as removed. -/
def remove (hash : Text) : Exec BlobStore Error Unit := do
  pathFor hash
  file faults .blobRemove
  Exec.modify fun b => b.erase hash

end

/-! ## What the operations do -/

section
variable {P : Primitives} {faults : Faults} {bytes : Bytes} {b b' : BlobStore} {hash : Text}

@[simp] theorem put_file (h : Text) :
    (b.put hash bytes).file h = if h = hash then some bytes else b.file h := rfl

@[simp] theorem erase_file (hash h : Text) :
    (b.erase hash).file h = if h = hash then none else b.file h := rfl

theorem pathFor_run :
    pathFor hash b =
      if validHash hash then (.ok (), b) else (.err (.storage "invalid blob hash"), b) := by
  unfold pathFor
  split <;> rfl

theorem pathFor_noPanic (hash : Text) : NoPanic (pathFor hash) :=
  .ite .pure .throw

theorem write_run :
    write P faults bytes b =
      if (b.file (hashHex P bytes)).isSome then (.ok (hashHex P bytes), b)
      else match faults .blobPrepare, faults .blobSyncDir with
        | some detail, _ => (.err (.io detail), b)
        | none, some detail => (.err (.io detail), b.put (hashHex P bytes) bytes)
        | none, none => (.ok (hashHex P bytes), b.put (hashHex P bytes) bytes) := by
  rw [write, bind_of_ok (by rw [pathFor_run, validHash_hashHex]; rfl),
    bind_of_ok (get_run b), ite_run, file_bind_run]
  by_cases h : (b.file (hashHex P bytes)).isSome
  · simp only [h, if_true, pure_run]
  · cases faults .blobPrepare with
    | some => rfl
    | none =>
      rw [bind_of_ok (modify_run b), file_bind_run]
      cases faults .blobSyncDir <;> rfl

theorem write_noPanic : NoPanic (write P faults bytes) := by
  intro b
  rw [write_run]
  split
  · rfl
  · split <;> rfl

theorem write_file (P : Primitives) (faults : Faults) (bytes : Bytes) (b : BlobStore) (h : Text) :
    (h ≠ hashHex P bytes → (write P faults bytes b).2.file h = b.file h) ∧
      ((b.file h).isSome → ((write P faults bytes b).2.file h).isSome) := by
  rw [write_run]
  split
  · simp
  · split <;> simp <;> grind

theorem write_ok (h : write P faults bytes b = (.ok hash, b')) :
    hash = hashHex P bytes ∧ (b'.file hash).isSome := by
  rw [write_run] at h
  split at h
  · obtain ⟨rfl, rfl⟩ := h
    exact ⟨rfl, ‹_›⟩
  · split at h
    · simp at h
    · simp at h
    · obtain ⟨rfl, rfl⟩ := h
      simp

theorem read_noPanic : NoPanic (read P faults hash) := by
  refine .bind (pathFor_noPanic hash) fun _ => .bind file_noPanic fun _ => .bind .get fun b => ?_
  cases b.file hash with
  | none => exact .throw
  | some => exact .ite .throw .pure

theorem read_state (hash : Text) (b : BlobStore) : (read P faults hash b).2 = b := by
  have hkeeps : Keeps (Same id) (read P faults hash) := by
    refine .bind (.ite (fun _ => rfl) fun _ => rfl) fun _ => ?_
    refine .bind (fun b => file_state b) fun _ => ?_
    refine .bind .get fun b => ?_
    cases b.file hash with
    | none => exact fun _ => rfl
    | some => exact .ite (fun _ => rfl) fun _ => rfl
  exact hkeeps b

theorem read_ok (h : read P faults hash b = (.ok bytes, b')) :
    faults .blobRead = none ∧ b.file hash = some bytes ∧ hashHex P bytes = hash := by
  obtain ⟨u, b₁, hpath, hread⟩ := bind_ok h
  obtain rfl : b₁ = b := by
    rw [pathFor_run] at hpath
    split at hpath <;> cases hpath
    rfl
  rw [file_bind_run] at hread
  cases hfault : faults .blobRead with
  | some => rw [hfault] at hread; cases hread
  | none =>
    rw [hfault] at hread
    simp only [bind_of_ok (get_run b₁)] at hread
    cases hfile : b₁.file hash with
    | none => rw [hfile] at hread; cases hread
    | some =>
      rw [hfile] at hread
      simp only [ite_run] at hread
      split at hread
      · cases hread
      · next hname =>
        cases hread
        exact ⟨rfl, rfl, not_not.mp hname⟩

theorem remove_run :
    remove faults hash b =
      if validHash hash then
        match faults .blobRemove with
        | some detail => (.err (.io detail), b)
        | none => (.ok (), b.erase hash)
      else (.err (.storage "invalid blob hash"), b) := by
  simp only [remove, bind_run, pathFor_run, file_run]
  by_cases h : validHash hash
  · simp only [h, if_true]
    cases faults .blobRemove <;> rfl
  · simp [h]

end
end Litterae.Store
