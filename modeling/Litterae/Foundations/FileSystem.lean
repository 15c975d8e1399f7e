import Litterae.Foundations.Text
import Mathlib.Logic.Function.Basic

/-! # Files under names

Names lead to files and files have contents. A handle is the number of a file, so it keeps its file
when the name is moved away, and opening a name that is there for writing empties the file for
everybody who holds it.
-/

namespace Foundations
open Function List Nat Option

/-- Directories `δ`, and in each of them names `ν`. -/
structure FileSystem (δ ν : Type) where
  dirs : δ → Bool
  entry : δ × ν → Option ℕ
  content : ℕ → Bytes
  fresh : ℕ

namespace FileSystem

section
variable {δ ν : Type}

def empty : FileSystem δ ν :=
  { dirs := fun _ => false, entry := fun _ => none, content := fun _ => [], fresh := 0 }

def read (fs : FileSystem δ ν) (path : δ × ν) : Option Bytes := (fs.entry path).map fs.content

/-- The bytes of a file after `chunk` was written at the offset; a gap reads as zeros. -/
def overwrite (content : Bytes) (offset : ℕ) (chunk : Bytes) : Bytes :=
  content.take offset ++ List.replicate (offset - content.length) 0 ++ chunk ++
    content.drop (offset + chunk.length)

def pwrite (fd offset : ℕ) (chunk : Bytes) (fs : FileSystem δ ν) : FileSystem δ ν :=
  { fs with content := Function.update fs.content fd (overwrite (fs.content fd) offset chunk) }

variable [DecidableEq δ]

def makeDir (dir : δ) (fs : FileSystem δ ν) : FileSystem δ ν :=
  { fs with dirs := Function.update fs.dirs dir true }

variable [DecidableEq ν]

/-- `open` with `O_CREAT | O_TRUNC`: the handle, and the file emptied. -/
def create (path : δ × ν) (fs : FileSystem δ ν) : ℕ × FileSystem δ ν :=
  match fs.entry path with
  | some fd => (fd, { fs with content := Function.update fs.content fd [] })
  | none =>
    (fs.fresh,
      { fs with
        entry := Function.update fs.entry path (some fs.fresh)
        content := Function.update fs.content fs.fresh []
        fresh := fs.fresh + 1 })

/-- `none` if there is nothing under the old name. Two names of one file stay as they are. -/
def rename (source target : δ × ν) (fs : FileSystem δ ν) : Option (FileSystem δ ν) :=
  (fs.entry source).map fun fd =>
    if fs.entry target = some fd then fs
    else { fs with entry := Function.update (Function.update fs.entry source none) target (some fd) }

end

theorem overwrite_at_end (content chunk : Bytes) :
    overwrite content content.length chunk = content ++ chunk := by
  have hdrop : content.drop (content.length + chunk.length) = [] :=
    drop_eq_nil_of_le (le_add_right _ _)
  rw [overwrite, hdrop, List.take_length, Nat.sub_self, List.replicate_zero, List.append_nil,
    append_nil]

/-! ## File systems without second names -/

section
variable {δ ν : Type} {fs fs' : FileSystem δ ν}

structure Linked (fs : FileSystem δ ν) : Prop where
  single : ∀ p q fd, fs.entry p = some fd → fs.entry q = some fd → p = q
  bound : ∀ p fd, fs.entry p = some fd → fd < fs.fresh

theorem Linked.empty : (empty : FileSystem δ ν).Linked where
  single _ _ _ h := nomatch h
  bound _ _ h := nomatch h

theorem Linked.makeDir [DecidableEq δ] (h : fs.Linked) (dir : δ) : (fs.makeDir dir).Linked :=
  ⟨h.single, h.bound⟩

theorem Linked.pwrite (h : fs.Linked) (fd offset : ℕ) (chunk : Bytes) :
    (fs.pwrite fd offset chunk).Linked := ⟨h.single, h.bound⟩

theorem read_congr {path : δ × ν} (hentry : fs'.entry path = fs.entry path)
    (hcontent : ∀ fd, fs.entry path = some fd → fs'.content fd = fs.content fd) :
    fs'.read path = fs.read path := by
  rw [read, read, hentry]
  cases hfd : fs.entry path with
  | none => rfl
  | some fd => exact congrArg some (hcontent fd hfd)

end

/-! ## Opening and renaming -/

section
variable {δ ν : Type} [DecidableEq δ] [DecidableEq ν] {fs : FileSystem δ ν}

theorem create_spec (h : fs.Linked) (path : δ × ν) :
    (fs.create path).2.Linked ∧ (fs.create path).2.dirs = fs.dirs ∧
      (fs.create path).2.entry path = some (fs.create path).1 ∧
      (fs.create path).2.content (fs.create path).1 = [] ∧
      (∀ q, q ≠ path → (fs.create path).2.entry q = fs.entry q) ∧
      ∀ fd, fd ≠ (fs.create path).1 → (fs.create path).2.content fd = fs.content fd := by
  cases hentry : fs.entry path with
  | some fd =>
    have hcreate : fs.create path = (fd, { fs with content := Function.update fs.content fd [] }) := by
      rw [create, hentry]
    rw [hcreate]
    exact ⟨⟨h.single, h.bound⟩, rfl, hentry, update_self .., fun _ _ => rfl,
      fun _ hne => update_of_ne hne ..⟩
  | none =>
    have hcreate : fs.create path = (fs.fresh, { fs with
        entry := Function.update fs.entry path (some fs.fresh)
        content := Function.update fs.content fs.fresh []
        fresh := fs.fresh + 1 }) := by
      rw [create, hentry]
    rw [hcreate]
    have hother : ∀ q, q ≠ path → Function.update fs.entry path (some fs.fresh) q = fs.entry q :=
      fun q hq => update_of_ne hq ..
    have hnew : ∀ q, Function.update fs.entry path (some fs.fresh) q = some fs.fresh → q = path := by
      intro q hq
      by_contra hne
      rw [hother q hne] at hq
      exact absurd (h.bound q _ hq) (lt_irrefl _)
    refine ⟨⟨fun p q fd hp hq => ?_, fun p fd hp => ?_⟩, rfl, update_self ..,
      update_self .., hother, fun _ hne => update_of_ne hne ..⟩
    · by_cases hfd : fd = fs.fresh
      · subst hfd
        rw [hnew p hp, hnew q hq]
      · have hold : ∀ p, Function.update fs.entry path (some fs.fresh) p = some fd →
            fs.entry p = some fd := by
          intro p hp
          by_cases hpath : p = path
          · subst hpath
            rw [update_self] at hp
            exact absurd (some.inj hp).symm hfd
          · rwa [hother p hpath] at hp
        exact h.single p q fd (hold p hp) (hold q hq)
    · change Function.update fs.entry path (some fs.fresh) p = some fd at hp
      by_cases hpath : p = path
      · subst hpath
        rw [update_self] at hp
        exact (some.inj hp) ▸ lt_succ_self _
      · rw [hother p hpath] at hp
        exact lt_succ_of_lt (h.bound p fd hp)

theorem rename_spec (h : fs.Linked) {source target : δ × ν} (hne : source ≠ target) {fd : ℕ}
    (hsource : fs.entry source = some fd) :
    ∃ fs', fs.rename source target = some fs' ∧ fs'.Linked ∧ fs'.dirs = fs.dirs ∧
      fs'.content = fs.content ∧ fs'.entry source = none ∧ fs'.entry target = some fd ∧
      ∀ q, q ≠ source → q ≠ target → fs'.entry q = fs.entry q := by
  have htarget : fs.entry target ≠ some fd := fun heq => hne (h.single _ _ fd hsource heq)
  have hrename : fs.rename source target = some { fs with
      entry := Function.update (Function.update fs.entry source none) target (some fd) } := by
    rw [rename, hsource, map_some, if_neg htarget]
  have hsrc : Function.update (Function.update fs.entry source none) target (some fd) source = none := by
    rw [update_of_ne hne, update_self]
  have hother : ∀ q, q ≠ source → q ≠ target →
      Function.update (Function.update fs.entry source none) target (some fd) q = fs.entry q := by
    intro q hqs hqt
    rw [update_of_ne hqt, update_of_ne hqs]
  -- what has an entry afterwards is the target or had it before
  have hcases : ∀ q fd', Function.update (Function.update fs.entry source none) target (some fd) q =
      some fd' → q = target ∧ fd' = fd ∨ q ≠ target ∧ q ≠ source ∧ fs.entry q = some fd' := by
    intro q fd' hq
    by_cases hqt : q = target
    · subst hqt
      rw [update_self] at hq
      exact .inl ⟨rfl, (some.inj hq).symm⟩
    · by_cases hqs : q = source
      · rw [hqs, hsrc] at hq
        cases hq
      · rw [hother q hqs hqt] at hq
        exact .inr ⟨hqt, hqs, hq⟩
  refine ⟨_, hrename, ⟨fun p q fd' hp hq => ?_, fun p fd' hp => ?_⟩, rfl, rfl, hsrc,
    update_self .., hother⟩
  · rcases hcases p fd' hp with ⟨hpt, hpfd⟩ | ⟨-, hps, hold⟩ <;>
      rcases hcases q fd' hq with ⟨hqt, hqfd⟩ | ⟨-, hqs, hold'⟩
    · rw [hpt, hqt]
    · exact absurd (h.single _ _ _ hold' (hpfd ▸ hsource)) hqs
    · exact absurd (h.single _ _ _ hold (hqfd ▸ hsource)) hps
    · exact h.single p q fd' hold hold'
  · rcases hcases p fd' hp with ⟨rfl, rfl⟩ | ⟨-, -, hp⟩
    · exact h.bound _ _ hsource
    · exact h.bound p fd' hp

end
end FileSystem
end Foundations
