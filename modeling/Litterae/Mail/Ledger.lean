import Litterae.Delivery.Deliver
import Mathlib.Data.List.Perm.Basic
import Mathlib.Data.Set.Basic

/-! # Which names of the blob store are spoken for

The blob store knows no owners: a name goes away when anyone removes it. A `Ledger` keeps beside the
files who speaks for which name: the rows of `messages` and `uploads`, what requests in flight hold
between two calls, and the queue. `LedgerStep` is one store call.
-/

namespace Litterae.Mail
open Foundations Store Delivery List

variable {D : ℤ → Prop} {P : Primitives}

inductive Held where
  /-- Sealed; its row is still to come. -/
  | sealedBlob (blobHash : Text) (dekWrap : Bytes)
  /-- Looked up to be destroyed. -/
  | found (m : StoredMessage)
  /-- The row is deleted, the blob still to be removed. -/
  | deleted (blobHash : Text)
  deriving DecidableEq

def Held.sealedName : Held → Option Text
  | .sealedBlob blobHash _ => some blobHash
  | _ => none

structure Ledger where
  /-- Id, blob and wrapped key of the message rows. -/
  rows : List (ℤ × Text × Bytes)
  uploads : List Text
  held : List Held
  file : Text → Option Bytes
  /-- All that was handed to the blob store to write. -/
  written : List Bytes
  spool : Set Text

namespace Ledger

def rowNames (L : Ledger) : List Text := L.rows.map fun r => r.2.1

def sealedNames (held : List Held) : List Text := held.filterMap Held.sealedName

def kept (L : Ledger) : List Text := L.rowNames ++ L.uploads ++ sealedNames L.held

end Ledger

def Put (P : Primitives) (bytes : Bytes) (f g : Text → Option Bytes) : Prop :=
  ∀ h, g h = f h ∨ (h = hashHex P bytes ∧ f h = none ∧ g h = some bytes)

def Apart (P : Primitives) (bytes : Bytes) (L : Ledger) : Prop :=
  ∀ b ∈ L.written, hashHex P b = hashHex P bytes → b = bytes

def sealedByte : UInt8 := 0x4C

def signedByte : UInt8 := 0x44

/-- One store call; `D` are the message rows it may delete. -/
inductive LedgerStep (P : Primitives) (D : ℤ → Prop) (L : Ledger) : Ledger → Prop where
  | sealed {c : Bytes} {g : Text → Option Bytes} {held : List Held}
      (hmagic : c.head? = some sealedByte) (hnew : c ∉ L.written) (hapart : Apart P c L)
      (hput : Put P c L.file g)
      (hheld : held = [] ∨ ∃ dekWrap, held = [.sealedBlob (hashHex P c) dekWrap] ∧
        (g (hashHex P c)).isSome = true) :
      LedgerStep P D L
        { L with file := g, written := L.written ++ [c], held := L.held ++ held }
  | spooled {b : Bytes} {g : Text → Option Bytes} {spool : Set Text}
      (hsigned : b.head? = some signedByte) (hapart : Apart P b L) (hput : Put P b L.file g)
      (hspool : spool ⊆ insert (hashHex P b) L.spool) :
      LedgerStep P D L { L with file := g, written := L.written ++ [b], spool }
  | filed {k : ℕ} {id : ℤ} {blobHash : Text} {dekWrap : Bytes}
      (hk : L.held[k]? = some (.sealedBlob blobHash dekWrap)) (hid : id ∉ L.rows.map Prod.fst) :
      LedgerStep P D L
        { L with rows := L.rows ++ [(id, blobHash, dekWrap)], held := L.held.eraseIdx k }
  | uploaded {k : ℕ} {blobHash : Text} {dekWrap : Bytes}
      (hk : L.held[k]? = some (.sealedBlob blobHash dekWrap)) :
      LedgerStep P D L { L with uploads := L.uploads ++ [blobHash], held := L.held.eraseIdx k }
  | found {m : StoredMessage} (hm : (m.id, m.blobHash, m.dekWrap) ∈ L.rows) :
      LedgerStep P D L { L with held := L.held ++ [.found m] }
  | deleted {k : ℕ} {m : StoredMessage} (hk : L.held[k]? = some (.found m)) (hD : D m.id) :
      LedgerStep P D L
        { L with
          rows := L.rows.filter fun r => r.1 != m.id
          held := L.held.set k (.deleted m.blobHash) }
  | removed {k : ℕ} {blobHash : Text} {g : Text → Option Bytes}
      (hk : L.held[k]? = some (.deleted blobHash)) (hg : ∀ h, h ≠ blobHash → g h = L.file h)
      (hgone : g blobHash = L.file blobHash ∨ g blobHash = none) :
      LedgerStep P D L { L with file := g, held := L.held.eraseIdx k }
  /-- A request gives up. -/
  | dropped (k : ℕ) : LedgerStep P D L { L with held := L.held.eraseIdx k }
  /-- The worker removes the blob of a queued message. -/
  | wiped {h : Text} {g : Text → Option Bytes} (hh : h ∈ L.spool) (hg : ∀ h', h' ≠ h → g h' = L.file h')
      (hgone : g h = L.file h ∨ g h = none) : LedgerStep P D L { L with file := g }
  | queued {spool : Set Text} (hspool : spool ⊆ L.spool) : LedgerStep P D L { L with spool }

/-- Row ids are unique; every file is one that was written, under its name; every name that must stay
has a file and is spoken for once; the names of sealed blobs and of queued messages come from bytes
of the two kinds. -/
structure Kept (P : Primitives) (L : Ledger) : Prop where
  ids : (L.rows.map Prod.fst).Nodup
  injective : ∀ b ∈ L.written, ∀ b' ∈ L.written, hashHex P b = hashHex P b' → b = b'
  content : ∀ h b, L.file h = some b → b ∈ L.written ∧ hashHex P b = h
  stored : ∀ h ∈ L.kept, (L.file h).isSome = true
  distinct : L.kept.Nodup
  keptNamed : ∀ h ∈ L.kept, ∃ c ∈ L.written, c.head? = some sealedByte ∧ h = hashHex P c
  spoolNamed : ∀ h ∈ L.spool, ∃ b ∈ L.written, b.head? = some signedByte ∧ h = hashHex P b
  found : ∀ m, Held.found m ∈ L.held →
    (∃ c ∈ L.written, c.head? = some sealedByte ∧ m.blobHash = hashHex P c) ∧
      m.blobHash ∉ L.uploads ∧ m.blobHash ∉ Ledger.sealedNames L.held ∧
        ∀ r ∈ L.rows, r.2.1 = m.blobHash → r.1 = m.id
  deleted : ∀ h, Held.deleted h ∈ L.held →
    (∃ c ∈ L.written, c.head? = some sealedByte ∧ h = hashHex P c) ∧ h ∉ L.kept

variable {held : List Held}

section

variable {k : ℕ} {blobHash : Text}

theorem Ledger.sealedNames_append (held held' : List Held) :
    Ledger.sealedNames (held ++ held') = Ledger.sealedNames held ++ Ledger.sealedNames held' :=
  filterMap_append

theorem Ledger.sealedNames_eraseIdx_sublist :
    (Ledger.sealedNames (held.eraseIdx k)).Sublist (Ledger.sealedNames held) :=
  (eraseIdx_sublist held k).filterMap _

theorem Ledger.sealedNames_perm {dekWrap : Bytes}
    (hk : held[k]? = some (.sealedBlob blobHash dekWrap)) :
    (Ledger.sealedNames held).Perm (blobHash :: Ledger.sealedNames (held.eraseIdx k)) := by
  obtain ⟨hlt, hget⟩ := List.getElem?_eq_some_iff.mp hk
  have hperm := (getElem_cons_eraseIdx_perm hlt).symm.filterMap Held.sealedName
  rw [hget] at hperm
  exact hperm

theorem Ledger.sealedNames_set {m : StoredMessage} (hk : held[k]? = some (.found m)) :
    Ledger.sealedNames (held.set k (.deleted blobHash)) = Ledger.sealedNames held := by
  induction held generalizing k with
  | nil => rfl
  | cons x _ ih =>
    cases k with
    | zero =>
      obtain rfl : x = .found m := by simpa using hk
      rfl
    | succ =>
      have htail := ih (by simpa using hk)
      simp only [Ledger.sealedNames, set_cons_succ, filterMap_cons] at htail ⊢
      rw [htail]

end

variable {g : Text → Option Bytes} {bytes : Bytes} {h : Text}

section

variable {f : Text → Option Bytes}

theorem Put.rfl (f : Text → Option Bytes) : Put P bytes f f := fun _ => .inl (Eq.refl _)

theorem Put.trans {k : Text → Option Bytes} (h : Put P bytes f g) (h' : Put P bytes g k) :
    Put P bytes f k := by
  intro name
  obtain hsame | ⟨hname, hnone, hnew⟩ := h name
  · rw [← hsame]
    exact h' name
  · refine .inr ⟨hname, hnone, ?_⟩
    obtain hsame | ⟨-, -, hnew'⟩ := h' name
    · exact hsame.trans hnew
    · exact hnew'

theorem write_put (P : Primitives) (faults : Faults) (bytes : Bytes) (b : BlobStore) :
    Put P bytes b.file (write P faults bytes b).2.file := by
  rw [write_run]
  split
  · exact Put.rfl _
  · next hfree =>
    have hnew : Put P bytes b.file (b.put (hashHex P bytes) bytes).file := by
      intro h
      by_cases hh : h = hashHex P bytes
      · subst hh
        exact .inr ⟨Eq.refl _, by simpa using hfree, by simp⟩
      · exact .inl (by simp [hh])
    split
    · exact Put.rfl _
    · exact hnew
    · exact hnew

theorem remove_file (faults : Faults) (hash : Text) (b : BlobStore) :
    (∀ h, h ≠ hash → (remove faults hash b).2.file h = b.file h) ∧
      ((remove faults hash b).2.file hash = b.file hash ∨ (remove faults hash b).2.file hash = none) := by
  rw [remove_run]
  split
  · split
    · exact ⟨fun _ _ => Eq.refl _, .inl (Eq.refl _)⟩
    · exact ⟨fun h hh => by simp [hh], .inr (by simp)⟩
  · exact ⟨fun _ _ => Eq.refl _, .inl (Eq.refl _)⟩

theorem Put.isSome (hput : Put P bytes f g) (hf : (f h).isSome) :
    (g h).isSome := by
  obtain hsame | ⟨-, -, hnew⟩ := hput h
  · rw [hsame]
    exact hf
  · rw [hnew]
    rfl

theorem Put.content (hput : Put P bytes f g) {b : Bytes} (hg : g h = some b) :
    f h = some b ∨ (b = bytes ∧ hashHex P bytes = h) := by
  obtain hsame | ⟨hname, -, hnew⟩ := hput h
  · exact .inl (hsame ▸ hg)
  · exact .inr ⟨Option.some.inj (hg.symm.trans hnew), hname.symm⟩

end

variable {r : ℤ × Text × Bytes}

namespace Kept

variable {L L' : Ledger} {rows : List (ℤ × Text × Bytes)}

theorem name_not_spooled (hkept : Kept P L)
    (hh : ∃ c ∈ L.written, c.head? = some sealedByte ∧ h = hashHex P c) : h ∉ L.spool := by
  intro hspool
  obtain ⟨c, hc, hmagic, rfl⟩ := hh
  obtain ⟨b, hb, hsigned, hname⟩ := hkept.spoolNamed _ hspool
  obtain rfl := hkept.injective c hc b hb hname
  rw [hmagic] at hsigned
  exact absurd hsigned (by decide)

theorem put (hkept : Kept P L) (hapart : Apart P bytes L) (hput : Put P bytes L.file g) :
    Kept P { L with file := g, written := L.written ++ [bytes] } := by
  have hlift : ∀ {p : Bytes → Prop}, (∃ c ∈ L.written, p c) → ∃ c ∈ L.written ++ [bytes], p c :=
    fun ⟨c, hc, h⟩ => ⟨c, mem_append_left _ hc, h⟩
  exact
    { hkept with
      injective := by
        intro b hb b' hb' hname
        rcases mem_append.mp hb with hold | hnew <;> rcases mem_append.mp hb' with hold' | hnew'
        · exact hkept.injective b hold b' hold' hname
        · obtain rfl := mem_singleton.mp hnew'
          exact hapart b hold hname
        · obtain rfl := mem_singleton.mp hnew
          exact (hapart b' hold' hname.symm).symm
        · rw [mem_singleton.mp hnew, mem_singleton.mp hnew']
      content := by
        intro h b hfile
        obtain hold | ⟨rfl, hname⟩ := hput.content hfile
        · exact (hkept.content h b hold).imp_left (mem_append_left _)
        · exact ⟨mem_append_right _ (mem_singleton_self _), hname⟩
      stored := fun h hh => hput.isSome (hkept.stored h hh)
      keptNamed := fun h hh => hlift (hkept.keptNamed h hh)
      spoolNamed := fun h hh => hlift (hkept.spoolNamed h hh)
      found := fun m hm => (hkept.found m hm).imp_left hlift
      deleted := fun h hh => (hkept.deleted h hh).imp_left hlift }

theorem lose (hkept : Kept P L) (hg : ∀ h', h' ≠ h → g h' = L.file h')
    (hgone : g h = L.file h ∨ g h = none) (hfree : h ∉ L.kept) : Kept P { L with file := g } :=
  { hkept with
    content := by
      intro h' b hfile
      apply hkept.content
      by_cases hh : h' = h
      · subst hh
        obtain hsame | hnone := hgone
        · exact hsame ▸ hfile
        · cases hfile.symm.trans hnone
      · exact hg h' hh ▸ hfile
    stored := by
      intro h' hh
      have hne : h' ≠ h := fun heq => hfree (heq ▸ hh)
      have hstored := hkept.stored h' hh
      rwa [← hg h' hne] at hstored }

theorem row_found {m : StoredMessage} (hkept : Kept P L)
    (hm : (m.id, m.blobHash, m.dekWrap) ∈ L.rows) :
    (∃ c ∈ L.written, c.head? = some sealedByte ∧ m.blobHash = hashHex P c) ∧
      m.blobHash ∉ L.uploads ∧ m.blobHash ∉ Ledger.sealedNames L.held ∧
        ∀ r ∈ L.rows, r.2.1 = m.blobHash → r.1 = m.id := by
  have hmem : m.blobHash ∈ L.rowNames := mem_map_of_mem hm
  obtain ⟨hleft, -, hsealed⟩ := nodup_append.mp hkept.distinct
  obtain ⟨hrows, -, huploads⟩ := nodup_append.mp hleft
  refine ⟨hkept.keptNamed _ (mem_append_left _ (mem_append_left _ hmem)),
    fun h => huploads _ hmem _ h rfl, fun h => hsealed _ (mem_append_left _ hmem) _ h rfl, ?_⟩
  exact fun r hr heq => congrArg Prod.fst (inj_on_of_nodup_map hrows hr hm heq)

theorem fewer (hkept : Kept P L) (hrows : rows.Sublist L.rows)
    (hsealed : (Ledger.sealedNames held).Sublist (Ledger.sealedNames L.held))
    (hfound : ∀ m, Held.found m ∈ held →
      Held.found m ∈ L.held ∨ (m.id, m.blobHash, m.dekWrap) ∈ L.rows)
    (hdeleted : ∀ h, Held.deleted h ∈ held → Held.deleted h ∈ L.held ∨
      ((∃ c ∈ L.written, c.head? = some sealedByte ∧ h = hashHex P c) ∧
        h ∉ ({ L with rows, held } : Ledger).kept)) :
    Kept P { L with rows, held } := by
  have hsub : ({ L with rows, held } : Ledger).kept.Sublist L.kept :=
    ((hrows.map _).append (List.Sublist.refl _)).append hsealed
  exact
    { hkept with
      ids := hkept.ids.sublist (hrows.map _)
      stored := fun h hh => hkept.stored h (hsub.subset hh)
      distinct := hkept.distinct.sublist hsub
      keptNamed := fun h hh => hkept.keptNamed h (hsub.subset hh)
      found := by
        intro m hm
        obtain ⟨hname, huploads, hheld, hid⟩ := (hfound m hm).elim (hkept.found m) hkept.row_found
        exact ⟨hname, huploads, fun h => hheld (hsealed.subset h),
          fun r hr => hid r (hrows.subset hr)⟩
      deleted := by
        intro h hh
        obtain hold | hnew := hdeleted h hh
        · obtain ⟨hname, hfree⟩ := hkept.deleted h hold
          exact ⟨hname, fun hmem => hfree (hsub.subset hmem)⟩
        · exact hnew }

theorem hold (dekWrap : Bytes) (hkept : Kept P L)
    (hname : ∃ c ∈ L.written, c.head? = some sealedByte ∧ h = hashHex P c)
    (hstored : (L.file h).isSome) (hfree : h ∉ L.kept)
    (hfound : ∀ m, Held.found m ∈ L.held → m.blobHash ≠ h) (hdeleted : Held.deleted h ∉ L.held) :
    Kept P { L with held := L.held ++ [.sealedBlob h dekWrap] } := by
  have hnames : Ledger.sealedNames (L.held ++ [.sealedBlob h dekWrap]) =
      Ledger.sealedNames L.held ++ [h] := Ledger.sealedNames_append _ _
  have hnow : ({ L with held := L.held ++ [.sealedBlob h dekWrap] } : Ledger).kept = L.kept ++ [h] := by
    simp only [Ledger.kept, Ledger.rowNames, hnames, append_assoc]
  have hmem : ∀ h', h' ∈ L.kept ++ [h] → h' ∈ L.kept ∨ h' = h := fun h' hh' =>
    (mem_append.mp hh').imp_right mem_singleton.mp
  refine { hkept with stored := ?_, distinct := ?_, keptNamed := ?_, found := ?_, deleted := ?_ }
  · intro h' hh'
    obtain hold | rfl := hmem h' (hnow ▸ hh')
    · exact hkept.stored h' hold
    · exact hstored
  · rw [hnow]
    exact nodup_append.mpr ⟨hkept.distinct, nodup_singleton h,
      fun a ha b hb hab => hfree (mem_singleton.mp hb ▸ hab ▸ ha)⟩
  · intro h' hh'
    obtain hold | rfl := hmem h' (hnow ▸ hh')
    · exact hkept.keptNamed h' hold
    · exact hname
  · intro m hm
    have hm : Held.found m ∈ L.held := by simpa using hm
    obtain ⟨hmname, huploads, hheld, hid⟩ := hkept.found m hm
    refine ⟨hmname, huploads, ?_, hid⟩
    rw [hnames, mem_append, mem_singleton]
    exact not_or.mpr ⟨hheld, hfound m hm⟩
  · intro h' hh'
    have hh' : Held.deleted h' ∈ L.held := by simpa using hh'
    obtain ⟨hname', hfree'⟩ := hkept.deleted h' hh'
    refine ⟨hname', ?_⟩
    rw [hnow, mem_append, mem_singleton]
    exact not_or.mpr ⟨hfree', fun heq => hdeleted (heq ▸ hh')⟩

theorem handOver {uploads : List Text} {k : ℕ} (hkept : Kept P L) (hids : (rows.map Prod.fst).Nodup)
    (hperm : ({ L with rows, uploads, held := L.held.eraseIdx k } : Ledger).kept.Perm L.kept)
    (hfound : ∀ m, Held.found m ∈ L.held → m.blobHash ∉ uploads ∧
      ∀ r ∈ rows, r.2.1 = m.blobHash → r.1 = m.id) :
    Kept P { L with rows, uploads, held := L.held.eraseIdx k } :=
  { hkept with
    ids := hids
    stored := fun h hh => hkept.stored h (hperm.subset hh)
    distinct := hperm.nodup_iff.mpr hkept.distinct
    keptNamed := fun h hh => hkept.keptNamed h (hperm.subset hh)
    found := by
      intro m hm
      have hm := mem_of_mem_eraseIdx hm
      obtain ⟨hname, -, hheld, -⟩ := hkept.found m hm
      obtain ⟨huploads, hid⟩ := hfound m hm
      exact ⟨hname, huploads, fun h => hheld (Ledger.sealedNames_eraseIdx_sublist.subset h), hid⟩
    deleted := by
      intro h hh
      obtain ⟨hname, hfree⟩ := hkept.deleted h (mem_of_mem_eraseIdx hh)
      exact ⟨hname, fun hmem => hfree (hperm.subset hmem)⟩ }

theorem drop (hkept : Kept P L) (k : ℕ) : Kept P { L with held := L.held.eraseIdx k } :=
  hkept.fewer (List.Sublist.refl _) Ledger.sealedNames_eraseIdx_sublist
    (fun _ hm => .inl (mem_of_mem_eraseIdx hm)) (fun _ hh => .inl (mem_of_mem_eraseIdx hh))

theorem file_eq (hkept : Kept P L) {c : Bytes} (hc : c ∈ L.written)
    (hsome : (L.file (hashHex P c)).isSome) : L.file (hashHex P c) = some c := by
  obtain ⟨b, hb⟩ := Option.isSome_iff_exists.mp hsome
  obtain ⟨hmem, hname⟩ := hkept.content _ b hb
  rw [hb, hkept.injective b hmem c hc hname]

end Kept

variable {c : Bytes}

theorem LedgerStep.kept {L L' : Ledger} (hstep : LedgerStep P D L L') (hkept : Kept P L) :
    Kept P L' := by
  cases hstep with
  | @sealed c g held hmagic hnew hapart hput hheld =>
    have hstored := hkept.put hapart hput
    obtain rfl | ⟨dekWrap, rfl, hsome⟩ := hheld
    · rw [append_nil]
      exact hstored
    · -- The ciphertext is new, so no name taken so far is its hash.
      have hother : ∀ h, (∃ b ∈ L.written, b.head? = some sealedByte ∧ h = hashHex P b) →
          h ≠ hashHex P c := by
        rintro h ⟨b, hb, -, rfl⟩ heq
        exact hnew (hapart b hb heq ▸ hb)
      have hname : ∃ b ∈ L.written ++ [c], b.head? = some sealedByte ∧ hashHex P c = hashHex P b :=
        ⟨c, mem_append_right _ (mem_singleton_self c), hmagic, rfl⟩
      exact hstored.hold dekWrap hname hsome (fun h => hother _ (hkept.keptNamed _ h) rfl)
        (fun m hm => hother _ (hkept.found m hm).1) (fun h => hother _ (hkept.deleted _ h).1 rfl)
  | @spooled b g spool hsigned hapart hput hspool =>
    have hstored := hkept.put hapart hput
    refine { hstored with spoolNamed := ?_ }
    intro h hh
    obtain rfl | hold := hspool hh
    · exact ⟨b, mem_append_right _ (mem_singleton_self b), hsigned, rfl⟩
    · exact hstored.spoolNamed h hold
  | @filed k id blobHash dekWrap hk hid =>
    have hperm := Ledger.sealedNames_perm hk
    refine hkept.handOver ?_ ?_ ?_
    · rw [map_append]
      refine nodup_append.mpr ⟨hkept.ids, nodup_singleton id, fun a ha b hb hab => ?_⟩
      obtain rfl := mem_singleton.mp hb
      exact hid (hab ▸ ha)
    · simp only [Ledger.kept, Ledger.rowNames, map_append, map_cons, map_nil,
        append_assoc, singleton_append]
      refine List.Perm.append_left _ ?_
      exact perm_middle.symm.trans (hperm.symm.append_left _)
    · intro m hm
      obtain ⟨-, huploads, hheld, hid⟩ := hkept.found m hm
      refine ⟨huploads, fun r hr heq => ?_⟩
      rcases mem_append.mp hr with hold | hnew
      · exact hid r hold heq
      · obtain rfl := mem_singleton.mp hnew
        exact absurd (hperm.mem_iff.mpr (heq ▸ mem_cons_self)) hheld
  | @uploaded k blobHash dekWrap hk =>
    have hperm := Ledger.sealedNames_perm hk
    refine hkept.handOver hkept.ids ?_ ?_
    · simp only [Ledger.kept, Ledger.rowNames, append_assoc, singleton_append]
      exact List.Perm.append_left _ (hperm.symm.append_left _)
    · intro m hm
      obtain ⟨-, huploads, hheld, hid⟩ := hkept.found m hm
      refine ⟨?_, hid⟩
      rw [mem_append, mem_singleton]
      refine not_or.mpr ⟨huploads, fun heq => hheld ?_⟩
      exact hperm.mem_iff.mpr (heq ▸ mem_cons_self)
  | @found m hm =>
    have hnames : Ledger.sealedNames (L.held ++ [.found m]) = Ledger.sealedNames L.held := by
      rw [Ledger.sealedNames_append]
      exact append_nil _
    refine hkept.fewer (List.Sublist.refl _) (hnames ▸ List.Sublist.refl _) (fun m' hm' => ?_)
      fun h hh => .inl (by simpa using hh)
    refine (mem_append.mp hm').imp_right fun hnew => ?_
    obtain rfl := Held.found.inj (mem_singleton.mp hnew)
    exact hm
  | @deleted k m hk hD =>
    have hnames : Ledger.sealedNames (L.held.set k (.deleted m.blobHash)) =
        Ledger.sealedNames L.held := Ledger.sealedNames_set hk
    obtain ⟨hname, huploads, hsealed, hid⟩ := hkept.found m (mem_of_getElem? hk)
    refine hkept.fewer filter_sublist (hnames ▸ List.Sublist.refl _) ?_ ?_
    · intro m' hm'
      exact .inl ((mem_or_eq_of_mem_set hm').resolve_right (by simp))
    · intro h hh
      refine (mem_or_eq_of_mem_set hh).imp_right fun heq => ?_
      obtain rfl := Held.deleted.inj heq
      refine ⟨hname, ?_⟩
      simp only [Ledger.kept, hnames, mem_append, not_or]
      refine ⟨⟨fun hmem => ?_, huploads⟩, hsealed⟩
      obtain ⟨r, hr, hrname⟩ := mem_map.mp hmem
      obtain ⟨hr, hne⟩ := mem_filter.mp hr
      exact absurd (hid r hr hrname) (by simpa using hne)
  | @removed k blobHash g hk hg hgone =>
    have hdeleted := hkept.deleted blobHash (mem_of_getElem? hk)
    exact (hkept.lose hg hgone hdeleted.2).drop k
  | dropped k => exact hkept.drop k
  | @wiped h g hh hg hgone =>
    exact hkept.lose hg hgone fun hmem => hkept.name_not_spooled (hkept.keptNamed h hmem) hh
  | queued hspool => exact { hkept with spoolNamed := fun h hh => hkept.spoolNamed h (hspool hh) }

theorem LedgerStep.stays {L L' : Ledger} (hstep : LedgerStep P D L L') (hkept : Kept P L)
    (hr : r ∈ L.rows) (hD : ¬ D r.1) (hfile : L.file r.2.1 = some c) :
    r ∈ L'.rows ∧ L'.file r.2.1 = some c := by
  have hname : r.2.1 ∈ L.kept :=
    mem_append_left _ (mem_append_left _ (mem_map_of_mem hr))
  have hput : ∀ {b : Bytes} {g : Text → Option Bytes}, Put P b L.file g → g r.2.1 = some c := by
    intro b g hput
    obtain hsame | ⟨-, hnone, -⟩ := hput r.2.1
    · exact hsame.trans hfile
    · cases hfile.symm.trans hnone
  cases hstep with
  | sealed hmagic hnew hapart hput' hheld | spooled hsigned hapart hput' hspool =>
    exact ⟨hr, hput hput'⟩
  | filed => exact ⟨mem_append_left _ hr, hfile⟩
  | uploaded hk | found hm | dropped k | queued hspool => exact ⟨hr, hfile⟩
  | @deleted k m hk hDm =>
    have hne : r.1 ≠ m.id := fun heq => hD (heq ▸ hDm)
    exact ⟨mem_filter.mpr ⟨hr, by simpa using hne⟩, hfile⟩
  | @removed k blobHash g hk hg hgone =>
    have hfree := (hkept.deleted blobHash (mem_of_getElem? hk)).2
    exact ⟨hr, (hg _ fun heq => hfree (heq ▸ hname)).trans hfile⟩
  | @wiped h g hh hg hgone =>
    have hne : r.2.1 ≠ h := fun heq => hkept.name_not_spooled (hkept.keptNamed _ hname) (heq ▸ hh)
    exact ⟨hr, (hg _ hne).trans hfile⟩

abbrev LedgerSteps (P : Primitives) (D : ℤ → Prop) : Ledger → Ledger → Prop :=
  Relation.ReflTransGen (LedgerStep P D)

theorem LedgerSteps.kept {L L' : Ledger} (h : LedgerSteps P D L L') (hkept : Kept P L) :
    Kept P L' := by
  induction h with
  | refl => exact hkept
  | tail _ hstep ih => exact hstep.kept ih

theorem LedgerSteps.stays {L L' : Ledger} (h : LedgerSteps P D L L') (hkept : Kept P L)
    (hr : r ∈ L.rows) (hD : ¬ D r.1) (hfile : L.file r.2.1 = some c) :
    r ∈ L'.rows ∧ L'.file r.2.1 = some c := by
  induction h with
  | refl => exact ⟨hr, hfile⟩
  | tail hbefore hstep ih => exact hstep.stays (LedgerSteps.kept hbefore hkept) ih.1 hD ih.2

end Litterae.Mail
