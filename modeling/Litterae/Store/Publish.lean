import Litterae.Foundations.FileSystem
import Litterae.Foundations.Program
import Litterae.Foundations.Run
import Litterae.Store.Blob

/-! # Publishing a blob, system call by system call (`store/src/blob.rs`)

`writeBlob` is `BlobStore::write` as the calls it makes on the file system, and any number of such
writes run interleaved in one process.
-/

namespace Litterae.Store.Publish
open Foundations Exec Bool Function List Nat Option Program

abbrev Path := Text × Text

abbrev Disk := FileSystem Text Text

def shard (hash : Text) : Text := hash.take 2

def finalPath (hash : Text) : Path := (shard hash, hash.drop 2)

def tempPath (pid : ℕ) (hash : Text) : Path :=
  (shard hash, ".tmp-" ++ (toString pid).toList ++ '-' :: hash.take 16)

/-! ## System calls -/

inductive Op where
  | pathExists (path : Path)
  | createDirAll (dir : Text)
  | create (path : Path)
  | write (fd offset : ℕ) (bytes : Bytes)
  | syncAll (fd : ℕ)
  | rename (source target : Path)
  | fsyncDir (dir : Text)

abbrev Op.Ret : Op → Type
  | .pathExists _ => Bool
  | .create _ => ℕ
  | .write _ _ _ => ℕ
  | _ => Unit

/-- What a system call depends on: a failure from outside, and how many bytes a `write` takes. -/
structure Env where
  fault : Option Text
  accepted : ℕ

def noEntry : Error := .io "No such file or directory"

/-- The bytes one `write` takes: one at least. -/
def taken (accepted : ℕ) (bytes : Bytes) : ℕ := max 1 (min accepted bytes.length)

def effect (accepted : ℕ) : (op : Op) → Exec Disk Error op.Ret
  | .pathExists path => fun fs => (.ok (fs.entry path).isSome, fs)
  | .createDirAll dir => fun fs => (.ok (), fs.makeDir dir)
  | .create path => fun fs =>
    if fs.dirs path.1 then (.ok (fs.create path).1, (fs.create path).2) else (.err noEntry, fs)
  | .write fd offset bytes => fun fs =>
    (.ok (taken accepted bytes), fs.pwrite fd offset (bytes.take (taken accepted bytes)))
  | .syncAll _ => fun fs => (.ok (), fs)
  | .rename source target => fun fs =>
    match fs.rename source target with
    | some fs' => (.ok (), fs')
    | none => (.err noEntry, fs)
  | .fsyncDir dir => fun fs => if fs.dirs dir then (.ok (), fs) else (.err noEntry, fs)

/-- A call that fails from outside; `Path::exists` is false when it cannot tell. -/
def failing (detail : Text) : (op : Op) → Exec Disk Error op.Ret
  | .pathExists _ => pure false
  | .createDirAll _ => Exec.throw (.io detail)
  | .create _ => Exec.throw (.io detail)
  | .write _ _ _ => Exec.throw (.io detail)
  | .syncAll _ => Exec.throw (.io detail)
  | .rename _ _ => Exec.throw (.io detail)
  | .fsyncDir _ => Exec.throw (.io detail)

def sem (env : Env) (op : Op) : Exec Disk Error op.Ret :=
  match env.fault with
  | none => effect env.accepted op
  | some detail => failing detail op

/-! ## The write -/

abbrev Call := Program Op Op.Ret Error

abbrev call (op : Op) : Call op.Ret := perform op

/-- `write_all`: what is left is written from the offset on. Each `write` takes a byte at least, so
the length of the text is enough fuel. -/
def writeAll (fd : ℕ) : ℕ → ℕ → Bytes → Call Unit
  | _, _, [] => pure ()
  | 0, _, _ :: _ => throw (.io "failed to write whole buffer")
  | fuel + 1, offset, b :: rest => do
    let n ← call (.write fd offset (b :: rest))
    writeAll fd fuel (offset + n) ((b :: rest).drop n)

section
variable (P : Primitives) (pid : ℕ)

def writeBlob (bytes : Bytes) : Call Text := do
  let hash := hashHex P bytes
  throwIf (!validHash hash) (.storage "invalid blob hash")
  if ← call (.pathExists (finalPath hash)) then pure hash
  else do
    call (.createDirAll (shard hash))
    let fd ← call (.create (tempPath pid hash))
    writeAll fd bytes.length 0 bytes
    call (.syncAll fd)
    call (.rename (tempPath pid hash) (finalPath hash))
    call (.fsyncDir (shard hash))
    pure hash

/-! What is left of the write before each of its calls. -/

def finish (hash : Text) : Call Text := do
  call (.fsyncDir (shard hash))
  pure hash

def moveIn (hash : Text) : Call Text := do
  call (.rename (tempPath pid hash) (finalPath hash))
  finish hash

def flush (hash : Text) (fd : ℕ) : Call Text := do
  call (.syncAll fd)
  moveIn pid hash

def fill (hash : Text) (fd fuel offset : ℕ) (rest : Bytes) : Call Text := do
  writeAll fd fuel offset rest
  flush pid hash fd

def openTemp (bytes : Bytes) : Call Text := do
  let fd ← call (.create (tempPath pid (hashHex P bytes)))
  fill pid (hashHex P bytes) fd bytes.length 0 bytes

def prepare (bytes : Bytes) : Call Text := do
  call (.createDirAll (shard (hashHex P bytes)))
  openTemp P pid bytes

end

section
variable {P : Primitives} {pid : ℕ}

theorem writeBlob_eq (bytes : Bytes) :
    writeBlob P pid bytes = .call (.pathExists (finalPath (hashHex P bytes))) fun found =>
      if found then pure (hashHex P bytes) else prepare P pid bytes := by
  simp only [writeBlob, validHash_hashHex]
  rfl

theorem fill_nil (hash : Text) (fd fuel offset : ℕ) :
    fill pid hash fd fuel offset [] = flush pid hash fd := by
  cases fuel <;> rfl

end

/-! ## Many writes at once -/

structure State where
  pool : Pool Disk Bytes Op Op.Ret Error Text
  /-- The writes one of whose calls failed for a reason from outside. -/
  harmed : List ℕ

inductive Act where
  | launch (bytes : Bytes)
  | perform (i : ℕ) (env : Env)

def step (P : Primitives) (pid : ℕ) (s : State) : Act → Option State
  | .launch bytes => some { s with pool := s.pool.launch (writeBlob P pid) bytes }
  | .perform i env =>
    some
      { pool := s.pool.perform (sem env) i
        harmed := if env.fault.isSome then i :: s.harmed else s.harmed }

def State.start (fs : Disk) : State := { pool := ⟨fs, [], []⟩, harmed := [] }

/-- The calls between the opening of the temporary file and its renaming, that included. -/
def Op.onTemp : Op → Bool
  | .write _ _ _ => true
  | .syncAll _ => true
  | .rename _ _ => true
  | _ => false

def State.midway (s : State) (i : ℕ) : Bool := (s.pool.next i).any Op.onTemp

def State.temp (P : Primitives) (pid : ℕ) (s : State) (i : ℕ) : Option Path :=
  s.pool.flights[i]?.map fun f => tempPath pid (hashHex P f.request)

def exclusive (P : Primitives) (pid : ℕ) (s : State) : Act → Bool
  | .launch _ => true
  | .perform i _ =>
    match s.pool.next i with
    | some (.create path) => (List.range s.pool.flights.length).all fun j =>
        j == i || !s.midway j || s.temp P pid j != some path
    | _ => true

/-- Every published file has the bytes of its name. -/
def Whole (P : Primitives) (fs : Disk) : Prop :=
  ∀ hash bytes, validHash hash = true → fs.read (finalPath hash) = some bytes → hashHex P bytes = hash

/-! ## Names -/

variable {hash : Text}

theorem finalPath_injective {hash' : Text} (h : finalPath hash = finalPath hash') :
    hash = hash' := by
  have hfst : hash.take 2 = hash'.take 2 := congrArg Prod.fst h
  have hsnd : hash.drop 2 = hash'.drop 2 := congrArg Prod.snd h
  rw [← List.take_append_drop 2 hash, hfst, hsnd, List.take_append_drop]

theorem finalPath_ne_tempPath (h : validHash hash) (pid : ℕ) (hash' : Text) :
    finalPath hash ≠ tempPath pid hash' := by
  intro heq
  have hname : hash.drop 2 = '.' :: ("tmp-" ++ (toString pid).toList ++ '-' :: hash'.take 16) :=
    congrArg Prod.snd heq
  have hdot : '.' ∈ hash := mem_of_mem_drop (hname ▸ mem_cons_self)
  simp only [validHash, Bool.and_eq_true, List.all_eq_true] at h
  exact absurd (h.2 '.' hdot) (by decide)

/-! ## Where a write is -/

section
variable (P : Primitives) (pid : ℕ)

structure Holds (fs : Disk) (bytes : Bytes) (fd offset : ℕ) : Prop where
  dir : fs.dirs (shard (hashHex P bytes)) = true
  entry : fs.entry (tempPath pid (hashHex P bytes)) = some fd
  content : fs.content fd = bytes.take offset
  within : offset ≤ bytes.length

/-- The write stands before one of its calls and finds what its calls so far have left, or it has
returned; it fails only if it was harmed. -/
inductive At (fs : Disk) (harmed : Prop) (bytes : Bytes) : Call Text → Prop
  | checking :
      At fs harmed bytes (.call (.pathExists (finalPath (hashHex P bytes))) fun found =>
        if found then pure (hashHex P bytes) else prepare P pid bytes)
  | preparing :
      At fs harmed bytes (.call (.createDirAll (shard (hashHex P bytes))) fun _ => openTemp P pid bytes)
  | opening (hdir : fs.dirs (shard (hashHex P bytes)) = true) :
      At fs harmed bytes (.call (.create (tempPath pid (hashHex P bytes))) fun fd =>
        fill pid (hashHex P bytes) fd bytes.length 0 bytes)
  | writing {fd fuel offset : ℕ} {b : UInt8} {rest : Bytes} (h : Holds P pid fs bytes fd offset)
      (hrest : bytes.drop offset = b :: rest) (hfuel : rest.length ≤ fuel) :
      At fs harmed bytes (.call (.write fd offset (b :: rest)) fun n =>
        fill pid (hashHex P bytes) fd fuel (offset + n) ((b :: rest).drop n))
  | flushing {fd : ℕ} (h : Holds P pid fs bytes fd bytes.length) :
      At fs harmed bytes (.call (.syncAll fd) fun _ => moveIn pid (hashHex P bytes))
  | moving {fd : ℕ} (h : Holds P pid fs bytes fd bytes.length) :
      At fs harmed bytes (.call (.rename (tempPath pid (hashHex P bytes))
        (finalPath (hashHex P bytes))) fun _ => finish (hashHex P bytes))
  | finishing (hdir : fs.dirs (shard (hashHex P bytes)) = true)
      (hthere : (fs.read (finalPath (hashHex P bytes))).isSome = true) :
      At fs harmed bytes (.call (.fsyncDir (shard (hashHex P bytes))) fun _ => pure (hashHex P bytes))
  | returned (hthere : (fs.read (finalPath (hashHex P bytes))).isSome = true) :
      At fs harmed bytes (.done (.ok (hashHex P bytes)))
  | failed {r : Res Error Text} (h : harmed) (hr : r.isOk = false) : At fs harmed bytes (.done r)

def Op.active : Op → Bool
  | .create _ => true
  | op => op.onTemp

/-- What a call of the write of `bytes` may change: its temporary name, the file that only has that
name, and at the end its final name. -/
structure Touches (bytes : Bytes) (op : Op) (fs fs' : Disk) : Prop where
  linked : fs'.Linked
  dirs : ∀ d, fs.dirs d = true → fs'.dirs d = true
  entry : ∀ q, op.active = false ∨ q ≠ tempPath pid (hashHex P bytes) →
    q ≠ finalPath (hashHex P bytes) → fs'.entry q = fs.entry q
  content : ∀ q fd, op.active = false ∨ q ≠ tempPath pid (hashHex P bytes) →
    fs.entry q = some fd → fs'.content fd = fs.content fd
  final : fs'.read (finalPath (hashHex P bytes)) = fs.read (finalPath (hashHex P bytes)) ∨
    fs'.read (finalPath (hashHex P bytes)) = some bytes

end

variable {bytes : Bytes} {fs : Disk} {op : Op} {p : Call Text} {env : Env} {k : op.Ret → Call Text}

section
variable {P : Primitives} {pid : ℕ} {fs' : Disk} {harmed : Prop}

theorem At.start : At P pid fs harmed bytes (writeBlob P pid bytes) := by
  rw [writeBlob_eq]
  exact .checking

theorem At.fill {fd fuel offset : ℕ} (h : Holds P pid fs bytes fd offset)
    (hfuel : (bytes.drop offset).length ≤ fuel) :
    At P pid fs harmed bytes (fill pid (hashHex P bytes) fd fuel offset (bytes.drop offset)) := by
  cases hrest : bytes.drop offset with
  | nil =>
    obtain rfl : offset = bytes.length :=
      le_antisymm h.within (drop_eq_nil_iff.mp hrest)
    rw [fill_nil]
    exact .flushing h
  | cons =>
    rw [hrest, length_cons] at hfuel
    obtain ⟨fuel, rfl⟩ : ∃ k, fuel = k + 1 := ⟨fuel - 1, by omega⟩
    exact .writing h hrest (le_of_succ_le_succ hfuel)

theorem Touches.same (hlinked : fs.Linked) (op : Op) : Touches P pid bytes op fs fs where
  linked := hlinked
  dirs _ h := h
  entry _ _ _ := rfl
  content _ _ _ _ := rfl
  final := .inl rfl

def Advances (P : Primitives) (pid : ℕ) (fs : Disk) (harmed : Prop) (bytes : Bytes) (accepted : ℕ)
    (op : Op) (k : op.Ret → Call Text) : Prop :=
  ∃ b fs', effect accepted op fs = (.ok b, fs') ∧ Touches P pid bytes op fs fs' ∧
    At P pid fs' harmed bytes (k b)

section
variable (hlinked : fs.Linked)
include hlinked

variable (accepted : ℕ)

theorem opening_advances (hdir : fs.dirs (shard (hashHex P bytes))) :
    Advances P pid fs harmed bytes accepted (.create (tempPath pid (hashHex P bytes))) fun fd =>
      fill pid (hashHex P bytes) fd bytes.length 0 bytes := by
  have hne := finalPath_ne_tempPath (validHash_hashHex P bytes) pid (hashHex P bytes)
  obtain ⟨hlinked', hdirs, hentry, hcontent, hother, hrest⟩ :=
    FileSystem.create_spec hlinked (tempPath pid (hashHex P bytes))
  have hkept : ∀ q fd, q ≠ tempPath pid (hashHex P bytes) → fs.entry q = some fd →
      (fs.create (tempPath pid (hashHex P bytes))).2.content fd = fs.content fd := by
    intro q fd hq hfd
    refine hrest fd fun heq => hq ?_
    have hq' := (hother q hq).trans hfd
    rw [heq] at hq'
    exact hlinked'.single _ _ _ hq' hentry
  refine ⟨_, _, if_pos hdir, ?_, ?_⟩
  · refine ⟨hlinked', fun d hd => hdirs ▸ hd, fun q hq _ => ?_, fun q fd hq => ?_, .inl ?_⟩
    · exact hother q (hq.resolve_left (by simp [Op.active]))
    · exact hkept q fd (hq.resolve_left (by simp [Op.active]))
    · exact FileSystem.read_congr (hother _ hne) fun fd => hkept _ fd hne
  · exact At.fill ⟨hdirs ▸ hdir, hentry, hcontent, zero_le _⟩ (le_refl _)

theorem writing_advances {fd fuel offset : ℕ} {b : UInt8} {rest : Bytes}
    (h : Holds P pid fs bytes fd offset) (hrest : bytes.drop offset = b :: rest)
    (hfuel : rest.length ≤ fuel) :
    Advances P pid fs harmed bytes accepted (.write fd offset (b :: rest)) fun n =>
      fill pid (hashHex P bytes) fd fuel (offset + n) ((b :: rest).drop n) := by
  have hne := finalPath_ne_tempPath (validHash_hashHex P bytes) pid (hashHex P bytes)
  refine ⟨_, _, rfl, ?_, ?_⟩
  · have hkept : ∀ q fd', q ≠ tempPath pid (hashHex P bytes) → fs.entry q = some fd' →
        (fs.pwrite fd offset ((b :: rest).take (taken accepted (b :: rest)))).content fd' =
          fs.content fd' := by
      intro q fd' hq hfd'
      refine update_of_ne (fun heq => hq ?_) ..
      rw [heq] at hfd'
      exact hlinked.single _ _ fd hfd' h.entry
    refine ⟨hlinked.pwrite .., fun d hd => hd, fun _ _ _ => rfl, fun q fd' hq => ?_, .inl ?_⟩
    · exact hkept q fd' (hq.resolve_left (by simp [Op.active, Op.onTemp]))
    · exact FileSystem.read_congr rfl fun fd' => hkept _ fd' hne
  · have hleft : rest.length + 1 + offset = bytes.length := by
      rw [← length_cons, ← hrest, length_drop]
      exact Nat.sub_add_cancel h.within
    have htaken : 1 ≤ taken accepted (b :: rest) ∧ taken accepted (b :: rest) ≤ rest.length + 1 := by
      rw [taken, length_cons]
      omega
    generalize taken accepted (b :: rest) = n at htaken
    have hcontent : (fs.pwrite fd offset ((b :: rest).take n)).content fd = bytes.take (offset + n) := by
      have happend := FileSystem.overwrite_at_end (bytes.take offset) ((b :: rest).take n)
      rw [length_take_of_le h.within] at happend
      refine (update_self ..).trans ?_
      rw [h.content, happend, ← hrest, take_add]
    have hdrop : (b :: rest).drop n = bytes.drop (offset + n) := by
      rw [← hrest, drop_drop]
    simp only [hdrop]
    refine At.fill ⟨h.dir, h.entry, hcontent, by omega⟩ ?_
    rw [length_drop]
    omega

theorem moving_advances {fd : ℕ} (h : Holds P pid fs bytes fd bytes.length) :
    Advances P pid fs harmed bytes accepted (.rename (tempPath pid (hashHex P bytes))
      (finalPath (hashHex P bytes))) fun _ => finish (hashHex P bytes) := by
  have hne := finalPath_ne_tempPath (validHash_hashHex P bytes) pid (hashHex P bytes)
  obtain ⟨fs', hrename, hlinked', hdirs, hcontents, -, htarget, hother⟩ :=
    FileSystem.rename_spec hlinked hne.symm h.entry
  have hread : fs'.read (finalPath (hashHex P bytes)) = some bytes := by
    rw [FileSystem.read, htarget, hcontents, map_some, h.content, take_length]
  refine ⟨(), fs', by simp only [effect, hrename], ?_, .finishing (hdirs ▸ h.dir) (by rw [hread]; rfl)⟩
  refine ⟨hlinked', fun d hd => hdirs ▸ hd, fun q hq => ?_, fun q fd' _ _ => ?_, .inr hread⟩
  · exact hother q (hq.resolve_left (by simp [Op.active, Op.onTemp]))
  · rw [hcontents]

theorem At.advances (hat : At P pid fs harmed bytes (.call op k)) :
    Advances P pid fs harmed bytes accepted op k := by
  cases hat with
  | checking =>
    refine ⟨_, fs, rfl, .same hlinked _, ?_⟩
    cases hfound : (fs.entry (finalPath (hashHex P bytes))).isSome with
    | true => exact .returned (by rw [FileSystem.read, isSome_map, hfound])
    | false => exact .preparing
  | preparing =>
    refine ⟨(), _, rfl, ?_, .opening (update_self ..)⟩
    refine ⟨hlinked.makeDir _, fun d hd => ?_, fun _ _ _ => rfl, fun _ _ _ _ => rfl, .inl rfl⟩
    by_cases hdir : d = shard (hashHex P bytes)
    · subst hdir
      exact update_self ..
    · exact (update_of_ne hdir ..).trans hd
  | opening hdir => exact opening_advances hlinked accepted hdir
  | writing h hrest hfuel => exact writing_advances hlinked accepted h hrest hfuel
  | flushing h => exact ⟨(), fs, rfl, .same hlinked _, .moving h⟩
  | moving h => exact moving_advances hlinked accepted h
  | finishing hdir hthere => exact ⟨(), fs, if_pos hdir, .same hlinked _, .returned hthere⟩

theorem At.sem (env : Env) (hat : At P pid fs harmed bytes (.call op k)) :
    (∃ b fs', sem env op fs = (.ok b, fs') ∧ Touches P pid bytes op fs fs' ∧
      At P pid fs' harmed bytes (k b)) ∨
    (∃ e, sem env op fs = (.err e, fs)) ∧ env.fault.isSome := by
  rw [Publish.sem]
  cases env.fault with
  | none => exact .inl (hat.advances hlinked env.accepted)
  | some =>
    cases hat with
    | checking => exact .inl ⟨false, fs, rfl, .same hlinked _, .preparing⟩
    | preparing | opening | writing | flushing | moving | finishing => exact .inr ⟨⟨_, rfl⟩, rfl⟩

end

theorem At.active_of_onTemp (hat : At P pid fs harmed bytes (.call op k)) {b : op.Ret}
    (h : (k b).next.any Op.onTemp) :
    op.active := by
  cases hat with
  | checking =>
    cases b with
    | true | false => cases h
  | preparing => cases h
  | opening | writing | flushing | moving => rfl
  | finishing => cases h

theorem At.create_eq {path : Path} {k : ℕ → Call Text}
    (hat : At P pid fs harmed bytes (.call (.create path) k)) :
    path = tempPath pid (hashHex P bytes) := by
  cases hat
  rfl

theorem At.frame {harmed' : Prop} (hat : At P pid fs harmed bytes p) (hharmed : harmed → harmed')
    (hdirs : ∀ d, fs.dirs d → fs'.dirs d)
    (htemp : p.next.any Op.onTemp →
      fs'.entry (tempPath pid (hashHex P bytes)) = fs.entry (tempPath pid (hashHex P bytes)) ∧
      ∀ fd, fs.entry (tempPath pid (hashHex P bytes)) = some fd → fs'.content fd = fs.content fd)
    (hfinal : (fs.read (finalPath (hashHex P bytes))).isSome →
      (fs'.read (finalPath (hashHex P bytes))).isSome) :
    At P pid fs' harmed' bytes p := by
  have hholds : p.next.any Op.onTemp → ∀ {fd offset : ℕ}, Holds P pid fs bytes fd offset →
      Holds P pid fs' bytes fd offset := by
    intro hp fd offset h
    obtain ⟨hentry, hcontent⟩ := htemp hp
    exact ⟨hdirs _ h.dir, hentry.trans h.entry, (hcontent fd h.entry).trans h.content, h.within⟩
  cases hat with
  | checking => exact .checking
  | preparing => exact .preparing
  | opening hdir => exact .opening (hdirs _ hdir)
  | writing h hrest hfuel => exact .writing (hholds rfl h) hrest hfuel
  | flushing h => exact .flushing (hholds rfl h)
  | moving h => exact .moving (hholds rfl h)
  | finishing hdir hthere => exact .finishing (hdirs _ hdir) (hfinal hthere)
  | returned hthere => exact .returned (hfinal hthere)
  | failed h hr => exact .failed (hharmed h) hr

theorem Touches.read (h : Touches P pid bytes op fs fs') (hvalid : validHash hash)
    (hhash : hash ≠ hashHex P bytes) :
    fs'.read (finalPath hash) = fs.read (finalPath hash) := by
  have hne := finalPath_ne_tempPath hvalid pid (hashHex P bytes)
  exact FileSystem.read_congr (h.entry _ (.inr hne) fun heq => hhash (finalPath_injective heq))
    fun fd hfd => h.content _ fd (.inr hne) hfd

theorem Touches.whole (h : Touches P pid bytes op fs fs') (hwhole : Whole P fs) :
    Whole P fs' := by
  intro hash content hvalid hread
  by_cases hhash : hash = hashHex P bytes
  · subst hhash
    rcases h.final with hsame | hnew
    · exact hwhole _ content hvalid (hsame ▸ hread)
    · rw [hnew] at hread
      rw [some.inj hread]
  · rw [h.read hvalid hhash] at hread
    exact hwhole hash content hvalid hread

theorem Touches.stays (h : Touches P pid bytes op fs fs') (hvalid : validHash hash)
    (hthere : (fs.read (finalPath hash)).isSome) :
    (fs'.read (finalPath hash)).isSome := by
  by_cases hhash : hash = hashHex P bytes
  · subst hhash
    rcases h.final with hsame | hnew
    · rw [hsame, hthere]
    · rw [hnew]
      rfl
  · rw [h.read hvalid hhash, hthere]

end

/-! ## What every state keeps -/

section
variable {P : Primitives} {pid : ℕ} {s : State}

structure Sound (P : Primitives) (pid : ℕ) (s : State) : Prop where
  linked : s.pool.shared.Linked
  whole : Whole P s.pool.shared
  stage : ∀ (i : ℕ) f, s.pool.flights[i]? = some f →
    At P pid s.pool.shared (i ∈ s.harmed) f.request f.program
  /-- No two writes have one temporary file. -/
  apart : ∀ (i j : ℕ) f g, s.pool.flights[i]? = some f → s.pool.flights[j]? = some g → i ≠ j →
    f.program.next.any Op.onTemp = true → g.program.next.any Op.onTemp = true →
    tempPath pid (hashHex P f.request) ≠ tempPath pid (hashHex P g.request)

theorem Sound.start (hlinked : fs.Linked) (hwhole : Whole P fs) :
    Sound P pid (State.start fs) where
  linked := hlinked
  whole := hwhole
  stage _ _ h := nomatch h
  apart _ _ _ _ h := nomatch h

theorem Sound.launch (h : Sound P pid s) (bytes : Bytes) :
    Sound P pid { s with pool := s.pool.launch (writeBlob P pid) bytes } := by
  have hnew : ¬ (writeBlob P pid bytes).next.any Op.onTemp := by
    rw [writeBlob_eq]
    exact false_ne_true
  refine ⟨h.linked, h.whole, fun i f hi => ?_, fun i j f g hi hj hij hf hg => ?_⟩
  · rcases Pool.flight_launch hi with hold | ⟨-, rfl⟩
    · exact h.stage i f hold
    · exact .start
  · rcases Pool.flight_launch hi with hi | ⟨-, rfl⟩
    · rcases Pool.flight_launch hj with hj | ⟨-, rfl⟩
      · exact h.apart i j f g hi hj hij hf hg
      · exact absurd hg hnew
    · exact absurd hf hnew

variable {i : ℕ}

theorem Sound.separate (h : Sound P pid s) (hguard : exclusive P pid s (.perform i env))
    (hi : s.pool.flights[i]? = some ⟨bytes, .call op k⟩) (hactive : op.active) {j : ℕ}
    {g : Flight Bytes Op Op.Ret Error Text} (hj : s.pool.flights[j]? = some g) (hij : i ≠ j)
    (hg : g.program.next.any Op.onTemp) :
    tempPath pid (hashHex P g.request) ≠ tempPath pid (hashHex P bytes) := by
  have hnext := Pool.next_of_flight hi
  cases op with
  | create path =>
    obtain rfl : path = tempPath pid (hashHex P bytes) := (h.stage i _ hi).create_eq
    simp only [exclusive, hnext, List.all_eq_true, List.mem_range, Bool.or_eq_true, beq_iff_eq,
      not_eq_true', bne_iff_ne] at hguard
    have hlt : j < s.pool.flights.length := (List.getElem?_eq_some_iff.mp hj).1
    rcases hguard j hlt with (heq | hidle) | htemp
    · exact absurd heq.symm hij
    · rw [State.midway, Pool.next, hj, Option.bind_some, hg] at hidle
      cases hidle
    · intro heq
      rw [State.temp, hj] at htemp
      exact htemp (congrArg some heq)
  | pathExists | createDirAll | fsyncDir => cases hactive
  | write | syncAll | rename => exact (h.apart i j _ g hi hj hij rfl hg).symm

theorem Sound.replace (h : Sound P pid s) {fs' : Disk} {log : List (Event Op.Ret)} {harmed : List ℕ}
    (hharmed : ∀ j ∈ s.harmed, j ∈ harmed) (hlinked : fs'.Linked) (hwhole : Whole P fs')
    (hdirs : ∀ d, s.pool.shared.dirs d → fs'.dirs d) (hat : At P pid fs' (i ∈ harmed) bytes p)
    (hleft : ∀ (j : ℕ) g, s.pool.flights[j]? = some g → i ≠ j → g.program.next.any Op.onTemp →
      fs'.entry (tempPath pid (hashHex P g.request)) =
          s.pool.shared.entry (tempPath pid (hashHex P g.request)) ∧
        ∀ fd, s.pool.shared.entry (tempPath pid (hashHex P g.request)) = some fd →
          fs'.content fd = s.pool.shared.content fd)
    (hstays : ∀ hash, validHash hash →
      (s.pool.shared.read (finalPath hash)).isSome → (fs'.read (finalPath hash)).isSome)
    (hsep : p.next.any Op.onTemp → ∀ (j : ℕ) g, s.pool.flights[j]? = some g → i ≠ j →
      g.program.next.any Op.onTemp →
      tempPath pid (hashHex P g.request) ≠ tempPath pid (hashHex P bytes)) :
    Sound P pid { pool := ⟨fs', s.pool.flights.set i ⟨bytes, p⟩, log⟩, harmed } := by
  refine ⟨hlinked, hwhole, fun j g hj => ?_, fun j l f g hj hl hjl hf hg => ?_⟩
  · rcases Pool.getElem?_set_cases hj with ⟨rfl, rfl⟩ | ⟨hij, hj⟩
    · exact hat
    · exact (h.stage j g hj).frame (hharmed j) hdirs (fun hg => hleft j g hj hij hg)
        (hstays _ (validHash_hashHex P _))
  · rcases Pool.getElem?_set_cases hj with ⟨rfl, rfl⟩ | ⟨hij, hj⟩ <;>
      rcases Pool.getElem?_set_cases hl with ⟨hil, rfl⟩ | ⟨hil, hl⟩
    · exact absurd hil hjl
    · exact (hsep hf l g hl hil hg).symm
    · exact hsep hg j f hj hij hf
    · exact h.apart j l f g hj hl hjl hf hg

theorem Sound.perform (h : Sound P pid s) (hguard : exclusive P pid s (.perform i env)) :
    Sound P pid
      { pool := s.pool.perform (sem env) i
        harmed := if env.fault.isSome then i :: s.harmed else s.harmed } := by
  have hharmed : ∀ j ∈ s.harmed, j ∈ if env.fault.isSome then i :: s.harmed else s.harmed := by
    intro j hj
    split
    · exact mem_cons_of_mem _ hj
    · exact hj
  generalize hpool : s.pool.perform (sem env) i = pool
  cases Pool.performed hpool with
  | idle =>
    refine ⟨h.linked, h.whole, fun j f hj => ?_, h.apart⟩
    exact (h.stage j f hj).frame (hharmed j) (fun _ hd => hd) (fun _ => ⟨rfl, fun _ _ => rfl⟩) id
  | @answered bytes op k b fs' hi hsem =>
    have hat : At P pid s.pool.shared (i ∈ s.harmed) bytes (.call op k) := h.stage i _ hi
    obtain ⟨htouches, hnext⟩ : Touches P pid bytes op s.pool.shared fs' ∧
        At P pid fs' (i ∈ s.harmed) bytes (k b) := by
      rcases hat.sem h.linked env with ⟨b', fs'', heq, htouches, hnext⟩ | ⟨⟨e, heq⟩, -⟩
      all_goals cases heq.symm.trans hsem
      exact ⟨htouches, hnext⟩
    have hsep := @Sound.separate bytes op env k P pid s i h hguard hi
    refine h.replace hharmed htouches.linked
      (htouches.whole h.whole) htouches.dirs
      (hnext.frame (hharmed i) (fun _ hd => hd) (fun _ => ⟨rfl, fun _ _ => rfl⟩) id)
      (fun j g hj hij hg => ?_) (fun _ => htouches.stays)
      fun hp j g hj hij hg => hsep (hat.active_of_onTemp hp) hj hij hg
    -- the file is another one, or the call does not reach any
    have hother : op.active = false ∨
        tempPath pid (hashHex P g.request) ≠ tempPath pid (hashHex P bytes) := by
      cases hactive : op.active with
      | false => exact .inl rfl
      | true => exact .inr (hsep hactive hj hij hg)
    have hfinal : tempPath pid (hashHex P g.request) ≠ finalPath (hashHex P bytes) :=
      (finalPath_ne_tempPath (validHash_hashHex P bytes) pid _).symm
    exact ⟨htouches.entry _ hother hfinal, fun fd => htouches.content _ fd hother⟩
  | @failed bytes op k r fs' hi hfs hsem hr =>
    have hat : At P pid s.pool.shared (i ∈ s.harmed) bytes (.call op k) := h.stage i _ hi
    obtain ⟨rfl, hfault⟩ : fs' = s.pool.shared ∧ env.fault.isSome := by
      rcases hat.sem h.linked env with ⟨b', fs'', heq, -, -⟩ | ⟨⟨e, heq⟩, hfault⟩
      · rw [heq] at hsem
        cases hsem
      · rw [heq] at hfs
        exact ⟨hfs.symm, hfault⟩
    refine h.replace hharmed h.linked h.whole (fun _ hd => hd)
      (.failed ?_ hr) (fun _ _ _ _ _ => ⟨rfl, fun _ _ => rfl⟩) (fun _ _ => id) fun hp => nomatch hp
    rw [hfault]
    exact mem_cons_self

variable {acts : List Act}

theorem sound_of_run (hlinked : fs.Linked) (hwhole : Whole P fs)
    (hguard : Along (step P pid) (fun s a => exclusive P pid s a = true) (State.start fs) acts)
    (hrun : run (step P pid) (State.start fs) acts = some s) : Sound P pid s := by
  refine run_invariant (fun s a t hs ha hstep => ?_) (.start hlinked hwhole) hguard hrun
  cases a with
  | launch bytes =>
    obtain rfl := some.inj hstep
    exact hs.launch bytes
  | perform =>
    obtain rfl := some.inj hstep
    exact hs.perform ha

/-! ## Writes end -/

theorem writeAll_within (fd fuel offset : ℕ) (rest : Bytes) :
    (writeAll fd fuel offset rest).Within fuel := by
  induction fuel generalizing offset rest with
  | zero => cases rest <;> trivial
  | succ _ ih =>
    cases rest with
    | nil => trivial
    | cons => exact fun n => ih _ _

theorem writeBlob_within (bytes : Bytes) : (writeBlob P pid bytes).Within (bytes.length + 6) := by
  have hflush : ∀ fd, (flush pid (hashHex P bytes) fd).Within 3 := fun _ _ _ _ => trivial
  have hfill : ∀ fd, (fill pid (hashHex P bytes) fd bytes.length 0 bytes).Within (bytes.length + 3) :=
    fun fd => (writeAll_within fd _ _ _).bind fun _ => hflush fd
  rw [writeBlob_eq]
  intro found
  cases found with
  | true => trivial
  | false => exact fun _ => hfill

def turns (i : ℕ) (acts : List Act) : ℕ :=
  acts.countP fun a => match a with
    | .perform j _ => j == i
    | .launch _ => false

theorem flight_after_turns {t : State} {acts : List Act} (hrun : run (step P pid) s acts = some t)
    {i : ℕ} {f : Flight Bytes Op Op.Ret Error Text} (hi : s.pool.flights[i]? = some f) {n : ℕ}
    (hf : f.program.Within n) :
    ∃ p, t.pool.flights[i]? = some ⟨f.request, p⟩ ∧ p.Within (n - turns i acts) := by
  induction acts generalizing s f n with
  | nil =>
    obtain rfl := some.inj hrun
    exact ⟨f.program, hi, hf⟩
  | cons a acts ih =>
    obtain ⟨u, hu, hrest⟩ := run_cons hrun
    cases a with
    | launch =>
      obtain rfl := some.inj hu
      have hlt : i < s.pool.flights.length := (List.getElem?_eq_some_iff.mp hi).1
      exact @ih _ hrest f ((List.getElem?_append_left hlt).trans hi) n hf
    | perform j env =>
      obtain rfl := some.inj hu
      by_cases hij : j = i
      · subst hij
        have hturns : turns j (.perform j env :: acts) = turns j acts + 1 := by simp [turns]
        obtain ⟨p, hp, hwithin⟩ := @Pool.within_perform _ _ _ _ _ _ s.pool (sem env) j f hi (n - 1)
          (hf.mono (by omega))
        obtain ⟨q, hq, hqwithin⟩ := @ih _ hrest _ hp _ hwithin
        exact ⟨q, hq, hqwithin.mono (by omega)⟩
      · have hturns : turns i (.perform j env :: acts) = turns i acts := by simp [turns, hij]
        rw [hturns]
        exact @ih _ hrest f ((Pool.flight_perform_of_ne hij).trans hi) n hf

end

/-- If no write opens a temporary file that another one is filling, readers see whole files only, the
writes that nothing from outside has kept return their hash, and every write ends. -/
theorem blobs_atomic {P : Primitives} {pid : ℕ} {fs : Disk} (hlinked : fs.Linked) (hwhole : Whole P fs)
    {acts : List Act} {t : State}
    (hguard : Along (step P pid) (fun s a => exclusive P pid s a = true) (State.start fs) acts)
    (hrun : run (step P pid) (State.start fs) acts = some t) :
    Whole P t.pool.shared ∧
      (∀ (i : ℕ) f r, t.pool.flights[i]? = some f → f.program.result = some r → i ∉ t.harmed →
        r = .ok (hashHex P f.request)) ∧
      ∀ before bytes after s, acts = before ++ .launch bytes :: after →
        run (step P pid) (State.start fs) before = some s →
        bytes.length + 6 ≤ turns s.pool.flights.length after →
        ∃ r, t.pool.flights[s.pool.flights.length]? = some ⟨bytes, .done r⟩ := by
  have hsound := sound_of_run hlinked hwhole hguard hrun
  refine ⟨hsound.whole, fun i f r hi hr hunharmed => ?_, ?_⟩
  · obtain ⟨bytes, program⟩ := f
    have hat : At P pid t.pool.shared (i ∈ t.harmed) bytes program := hsound.stage i _ hi
    cases program with
    | call => cases hr
    | done r' =>
      obtain rfl : r' = r := some.inj hr
      cases hat with
      | returned => rfl
      | failed h => exact absurd h hunharmed
  · rintro before bytes after s rfl hbefore hturns
    rw [run_append, hbefore, bind_some] at hrun
    obtain ⟨u, hu, hafter⟩ := run_cons hrun
    obtain rfl := some.inj hu
    obtain ⟨p, hp, hwithin⟩ := @flight_after_turns P pid _ t after hafter s.pool.flights.length
      ⟨bytes, writeBlob P pid bytes⟩ (by simp [Pool.launch]) _ (writeBlob_within bytes)
    rw [Nat.sub_eq_zero_of_le hturns] at hwithin
    cases p with
    | done r => exact ⟨r, hp⟩
    | call => exact hwithin.elim

/-! ## Two writes of the same bytes -/

def samplePrimitives : Primitives := Primitives.sample fun _ => none

def sampleEnv : Env := { fault := none, accepted := 4096 }

def sampleTurns (order : List ℕ) : List Act :=
  .launch [1, 2] :: .launch [1, 2] :: order.map fun i => .perform i sampleEnv

def sampleState (order : List ℕ) : State :=
  (run (step samplePrimitives 7) (State.start .empty) (sampleTurns order)).getD (State.start .empty)

theorem sampleState_run (order : List ℕ) :
    run (step samplePrimitives 7) (State.start .empty) (sampleTurns order) = some (sampleState order) := by
  have htotal : ∀ (acts : List Act) s, ∃ t, run (step samplePrimitives 7) s acts = some t := by
    intro acts
    induction acts with
    | nil => exact fun s => ⟨s, rfl⟩
    | cons a _ ih =>
      intro s
      cases a with
      | launch | perform => exact ih _
  obtain ⟨t, ht⟩ := htotal (sampleTurns order) (State.start .empty)
  rw [sampleState, ht]
  rfl

def sampleResults (order : List ℕ) : List (Option (Res Error Text)) :=
  (sampleState order).pool.flights.map fun f => f.program.result

def sampleRead (order : List ℕ) : Option Bytes :=
  (sampleState order).pool.shared.read (finalPath (hashHex samplePrimitives [1, 2]))

/-- The first write is about to rename when the second one opens the same temporary file. -/
def openedTwice : List ℕ := [0, 1, 0, 0, 0, 0, 1, 1]

/-- The file is published empty, and the second write ends with an error although no call failed from
outside. -/
theorem write_seen_empty :
    sampleRead (openedTwice ++ [0]) = some [] ∧ ¬ Whole samplePrimitives
        (sampleState (openedTwice ++ [0])).pool.shared ∧
      sampleResults (openedTwice ++ [0, 0, 1, 1, 1]) =
        [some (.ok (hashHex samplePrimitives [1, 2])), some (.err noEntry)] ∧
      (sampleState (openedTwice ++ [0, 0, 1, 1, 1])).harmed = [] := by
  have hread : sampleRead (openedTwice ++ [0]) = some [] := by decide +kernel
  refine ⟨hread, fun hwhole => ?_, by decide +kernel, by decide +kernel⟩
  have hhash := hwhole _ [] (validHash_hashHex samplePrimitives [1, 2]) hread
  revert hhash
  decide +kernel

/-- Both writes look for the file before it is there, and the second one opens the temporary file
after the first one has renamed it. -/
def openedInTurn : List ℕ := [0, 1] ++ List.replicate 6 0 ++ List.replicate 6 1

theorem blobs_atomic_in_turn :
    Whole samplePrimitives (sampleState openedInTurn).pool.shared ∧
      sampleRead openedInTurn = some [1, 2] ∧
      sampleResults openedInTurn = List.replicate 2 (some (.ok (hashHex samplePrimitives [1, 2]))) := by
  have hempty : Whole samplePrimitives .empty := fun _ _ _ hread => nomatch hread
  have hatomic := blobs_atomic FileSystem.Linked.empty hempty (by decide +kernel)
    (sampleState_run openedInTurn)
  exact ⟨hatomic.1, by decide +kernel, by decide +kernel⟩

end Litterae.Store.Publish
