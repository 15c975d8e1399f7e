import Mathlib.Data.List.Forall2
import Mathlib.Data.List.Nodup
import Mathlib.Data.Int.Order.Basic

/-! # Tables of keyed rows

A table is a list of rows read by a key column.
-/

namespace Foundations
open List

section
variable {ρ : Type} (key : ρ → ℤ) {r : ρ}

/-- The row id an insert assigns: one more than the largest, or 1 in an empty table. -/
def nextRowid (t : List ρ) : ℤ :=
  match t.map key with
  | [] => 1
  | k :: ks => ks.foldl max k + 1

theorem le_foldl_max (ks : List ℤ) (k : ℤ) : k ≤ ks.foldl max k ∧ ∀ x ∈ ks, x ≤ ks.foldl max k := by
  induction ks generalizing k with
  | nil => simp
  | cons y _ ih =>
    obtain ⟨hbase, hrest⟩ := ih (max k y)
    refine ⟨le_trans (le_max_left k y) hbase, fun x hx => ?_⟩
    rcases mem_cons.mp hx with rfl | hx
    · exact le_trans (le_max_right k x) hbase
    · exact hrest x hx

theorem lt_nextRowid {t : List ρ} (h : r ∈ t) : key r < nextRowid key t := by
  have hmem : key r ∈ t.map key := mem_map_of_mem h
  unfold nextRowid
  cases hks : t.map key with
  | nil => rw [hks] at hmem; simp at hmem
  | cons k ks =>
    rw [hks] at hmem
    obtain ⟨hbase, hrest⟩ := le_foldl_max ks k
    rcases mem_cons.mp hmem with heq | hin
    · simp only; omega
    · have := hrest _ hin
      simp only
      omega

theorem nextRowid_not_mem (t : List ρ) : nextRowid key t ∉ t.map key := by
  intro h
  obtain ⟨r, hr, heq⟩ := mem_map.mp h
  have := lt_nextRowid key hr
  omega

theorem nextRowid_insert {t : List ρ} (hr : key r = nextRowid key t) :
    nextRowid key (t ++ [r]) = nextRowid key t + 1 := by
  rw [← hr]
  unfold nextRowid at hr ⊢
  rw [map_append, map_singleton]
  cases hks : t.map key with
  | nil => rfl
  | cons =>
    rw [hks] at hr
    simp only [cons_append, foldl_append, foldl_cons, foldl_nil] at hr ⊢
    omega

theorem nodup_insert {t : List ρ} (ht : (t.map key).Nodup) (hr : key r = nextRowid key t) :
    ((t ++ [r]).map key).Nodup := by
  rw [map_append, map_singleton, hr]
  refine List.Nodup.append ht (nodup_singleton _) ?_
  simpa using nextRowid_not_mem key t

end

section
variable {ρ κ β : Type} {p : ρ → Bool} {f : ρ → ρ}

def updateWhere (p : ρ → Bool) (f : ρ → ρ) (t : List ρ) : List ρ :=
  t.map fun r => if p r then f r else r

theorem mem_updateWhere {t : List ρ} {r : ρ} :
    r ∈ updateWhere p f t ↔ ∃ r₀ ∈ t, (if p r₀ then f r₀ else r₀) = r := by
  simp [updateWhere]

theorem map_updateWhere (g : ρ → β) (h : ∀ r, g (f r) = g r) (t : List ρ) :
    (updateWhere p f t).map g = t.map g := by
  rw [updateWhere, map_map]
  refine map_congr_left fun r _ => ?_
  by_cases hp : p r
  · simp [hp, h]
  · simp [hp]

theorem nextRowid_updateWhere_congr {key : ρ → ℤ} (hf : ∀ r, key (f r) = key r) {t t' : List ρ}
    (h : nextRowid key t = nextRowid key t') :
    nextRowid key (updateWhere p f t) = nextRowid key (updateWhere p f t') := by
  have hsame : ∀ u : List ρ, nextRowid key (updateWhere p f u) = nextRowid key u := by
    intro u
    unfold nextRowid
    rw [map_updateWhere key hf]
  rw [hsame, hsame, h]

end

section
variable {ρ κ : Type} [DecidableEq κ] (key : ρ → κ) {t : List ρ} {k : κ}

def findBy (k : κ) (t : List ρ) : Option ρ := t.find? fun r => key r == k

theorem findBy_some {r : ρ} (h : findBy key k t = some r) :
    r ∈ t ∧ key r = k := by
  refine ⟨mem_of_find?_eq_some h, ?_⟩
  simpa using List.find?_some h

theorem findBy_isSome_iff :
    (findBy key k t).isSome ↔ k ∈ t.map key := by
  simp [findBy, List.find?_isSome]

theorem findBy_eq_some_iff (ht : (t.map key).Nodup) {r : ρ} :
    findBy key k t = some r ↔ r ∈ t ∧ key r = k := by
  refine ⟨findBy_some key, fun ⟨hr, hk⟩ => ?_⟩
  have hsome : (findBy key k t).isSome :=
    (findBy_isSome_iff key).mpr (hk ▸ mem_map_of_mem hr)
  obtain ⟨q, hq⟩ := Option.isSome_iff_exists.mp hsome
  obtain ⟨hqt, hqk⟩ := findBy_some key hq
  rw [hq, inj_on_of_nodup_map ht hqt hr (hqk.trans hk.symm)]

theorem eq_of_findBy (ht : (t.map key).Nodup) {r r' : ρ} (h : findBy key k t = some r)
    (hr' : r' ∈ t) (hk : key r' = k) : r' = r := by
  obtain ⟨hr, hkr⟩ := findBy_some key h
  exact inj_on_of_nodup_map ht hr' hr (hk.trans hkr.symm)

theorem findBy_updateWhere {p : ρ → Bool} {f : ρ → ρ} (hf : ∀ r, key (f r) = key r) (k : κ)
    (t : List ρ) :
    findBy key k (updateWhere p f t) =
      (findBy key k t).map fun r => if p r then f r else r := by
  induction t with
  | nil => rfl
  | cons r t ih =>
    have hkey : key (if p r = true then f r else r) = key r := by
      by_cases hp : p r
      · simp [hp, hf]
      · simp [hp]
    simp only [findBy, updateWhere, map_cons, List.find?_cons, hkey] at ih ⊢
    by_cases hk : (key r == k)
    · simp [hk]
    · simp only [hk]
      exact ih

theorem findBy_append_of_mem (h : k ∈ t.map key) (u : List ρ) :
    findBy key k (t ++ u) = findBy key k t := by
  obtain ⟨r, hr⟩ := Option.isSome_iff_exists.mp ((findBy_isSome_iff key).mpr h)
  rw [findBy] at hr
  rw [findBy, findBy, List.find?_append, hr]
  rfl

end
/-! ## Two tables, row by row -/

section
variable {ρ τ κ : Type} {R : ρ → τ → Prop} {t : List ρ} {u : List τ}

theorem paired_updateWhere {p : ρ → Bool} {f : ρ → ρ} (hf : ∀ r x, R r x → R (f r) x)
    (h : List.Forall₂ R t u) : List.Forall₂ R (updateWhere p f t) u := by
  rw [updateWhere, forall₂_map_left_iff]
  refine h.imp fun r x hrx => ?_
  split
  · exact hf r x hrx
  · exact hrx

theorem findBy_paired [DecidableEq κ] {key : ρ → κ} {key' : τ → κ}
    (hkey : ∀ r x, R r x → key r = key' x) (h : List.Forall₂ R t u) {k : κ} {x : τ}
    (hx : findBy key' k u = some x) : ∃ r, findBy key k t = some r ∧ R r x := by
  induction h with
  | nil => cases hx
  | @cons r y t u hry _ ih =>
    unfold findBy at hx ih ⊢
    rw [List.find?_cons] at hx ⊢
    rw [hkey r y hry]
    split at hx
    · cases hx
      exact ⟨r, rfl, hry⟩
    · exact ih hx

end
end Foundations
