import Mathlib.Data.List.Basic
import Mathlib.Data.List.Induction

/-! # Hash chains

A row holds a commitment, the hash of the row before it and its own hash. `accepts` walks the rows
from a first hash and recomputes each link. A chain splits where its first part ends
(`accepts_append`), and grows by a row that links to its last hash (`accepts_concat`).
-/

namespace Foundations
open List

section
variable {η κ ρ : Type} (commit : ρ → κ) (prev hash : ρ → η) (link : η → κ → η) {g : η}
  {rs : List ρ}

def accepts [DecidableEq η] : η → List ρ → Bool
  | _, [] => true
  | g, r :: rs => decide (prev r = g) && decide (link g (commit r) = hash r) && accepts (hash r) rs

def lastHash (g : η) (rs : List ρ) : η := (rs.getLast?.map hash).getD g

variable {commit prev hash link}

theorem lastHash_cons (r : ρ) :
    lastHash hash g (r :: rs) = lastHash hash (hash r) rs := by
  unfold lastHash
  cases rs with
  | nil => rfl
  | cons => simp [List.getLast?_cons]

@[simp] theorem lastHash_concat (r : ρ) :
    lastHash hash g (rs ++ [r]) = hash r := by
  simp [lastHash]

variable [DecidableEq η]

theorem accepts_cons {r : ρ} :
    accepts commit prev hash link g (r :: rs) ↔
      prev r = g ∧ link g (commit r) = hash r ∧ accepts commit prev hash link (hash r) rs := by
  simp [accepts, and_assoc]

theorem accepts_append {rs rs' : List ρ} :
    accepts commit prev hash link g (rs ++ rs') ↔
      accepts commit prev hash link g rs ∧
        accepts commit prev hash link (lastHash hash g rs) rs' := by
  induction rs generalizing g with
  | nil => simp [accepts, lastHash]
  | cons _ _ ih => rw [cons_append, accepts_cons, accepts_cons, ih, lastHash_cons, and_assoc,
      and_assoc]

theorem accepts_concat {r : ρ} :
    accepts commit prev hash link g (rs ++ [r]) ↔
      accepts commit prev hash link g rs ∧ prev r = lastHash hash g rs ∧
        link (lastHash hash g rs) (commit r) = hash r := by
  rw [accepts_append, accepts_cons]
  simp [accepts]

theorem prev_of_accepts (Proper : η → Prop) (hlink : ∀ g c, Proper (link g c)) (hg : Proper g)
    (h : accepts commit prev hash link g rs) :
    ∀ r ∈ rs, Proper (prev r) := by
  induction rs generalizing g with
  | nil => simp
  | cons r rs ih =>
    obtain ⟨hprev, hhash, hrest⟩ := accepts_cons.mp h
    have htail : ∀ r' ∈ rs, Proper (prev r') := by
      refine ih ?_ hrest
      rw [← hhash]
      exact hlink g (commit r)
    have hhead : Proper (prev r) := by rwa [hprev]
    exact forall_mem_cons.mpr ⟨hhead, htail⟩

/-- Two chains from one first hash with one last hash are the same chain, if links can be told
apart on what the rows of both are linked from. The induction runs from the end: equal last hashes
give equal last rows and equal hashes before them. -/
theorem columns_eq_of_lastHash (Linked : η → κ → Prop)
    (hinj : ∀ g g' c c', Linked g c → Linked g' c' → link g c = link g' c' → g = g' ∧ c = c')
    (hfresh : ∀ h c, Linked h c → link h c ≠ g) {rs rs' : List ρ}
    (hrs : ∀ r ∈ rs, Linked (prev r) (commit r)) (hrs' : ∀ r ∈ rs', Linked (prev r) (commit r))
    (h : accepts commit prev hash link g rs) (h' : accepts commit prev hash link g rs')
    (hlast : lastHash hash g rs = lastHash hash g rs') :
    rs.map (fun r => (commit r, prev r, hash r)) =
      rs'.map (fun r => (commit r, prev r, hash r)) := by
  induction rs using List.reverseRecOn generalizing rs' with
  | nil =>
    rcases eq_nil_or_concat' rs' with rfl | ⟨before', r', rfl⟩
    · rfl
    · obtain ⟨-, hprev', hhash'⟩ := accepts_concat.mp h'
      rw [lastHash_concat, ← hhash', ← hprev'] at hlast
      exact absurd hlast.symm (hfresh _ _ (hrs' r' (by simp)))
  | append_singleton _ r ih =>
    obtain ⟨hbefore, hprev, hhash⟩ := accepts_concat.mp h
    rcases eq_nil_or_concat' rs' with rfl | ⟨before', r', rfl⟩
    · rw [lastHash_concat, ← hhash, ← hprev] at hlast
      exact absurd hlast (hfresh _ _ (hrs r (by simp)))
    · obtain ⟨hbefore', hprev', hhash'⟩ := accepts_concat.mp h'
      rw [lastHash_concat, lastHash_concat] at hlast
      have hlinks : link (prev r) (commit r) = link (prev r') (commit r') := by
        rw [hprev, hhash, hprev', hhash', hlast]
      obtain ⟨hheads, hcommit⟩ :=
        hinj _ _ _ _ (hrs r (by simp)) (hrs' r' (by simp)) hlinks
      have hmaps := ih (fun q hq => hrs q (by simp [hq])) (fun q hq => hrs' q (by simp [hq]))
        hbefore hbefore' (by rw [← hprev, ← hprev', hheads])
      rw [map_append, map_append, hmaps]
      simp [hcommit, hheads, hlast]

end
end Foundations
