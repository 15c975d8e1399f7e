import Litterae.Foundations.Table

/-! # Tables whose rows have an owner

`OwnStep a` is what one statement made for the owner `a` can do to a table: add a row of theirs
under the next row id, change rows of theirs without moving them to another id or owner, delete rows
of theirs.
-/

namespace Foundations
open List

section
variable {ρ κ : Type} {id : ρ → ℤ} {owner : ρ → κ} {a : κ} {D : ℤ → Prop} {t t' : List ρ}

/-- A statement for the owner `a`; `D` are the row ids it may delete. -/
inductive OwnStep (id : ρ → ℤ) (owner : ρ → κ) (a : κ) (D : ℤ → Prop) (t : List ρ) :
    List ρ → Prop where
  | insert {r : ρ} (howner : owner r = a) (hid : id r = nextRowid id t) :
      OwnStep id owner a D t (t ++ [r])
  | update {p : ρ → Bool} {f : ρ → ρ} (hown : ∀ r ∈ t, p r = true → owner r = a)
      (hid : ∀ r, id (f r) = id r) (howner : ∀ r, owner (f r) = owner r) :
      OwnStep id owner a D t (updateWhere p f t)
  | delete {p : ρ → Bool} (hown : ∀ r ∈ t, p r = true → owner r = a)
      (hD : ∀ r ∈ t, p r = true → D (id r)) :
      OwnStep id owner a D t (t.filter fun r => !p r)

namespace OwnStep

theorem nodup (h : OwnStep id owner a D t t') (ht : (t.map id).Nodup) : (t'.map id).Nodup := by
  cases h with
  | insert _ hid => exact nodup_insert id ht hid
  | update _ hid => rwa [map_updateWhere id hid]
  | delete => exact (filter_sublist.map id).nodup ht

theorem others [DecidableEq κ] {b : κ} (h : OwnStep id owner a D t t') (hb : b ≠ a) :
    (t'.filter fun r => owner r == b) = t.filter fun r => owner r == b := by
  cases h with
  | insert howner => simp [howner, hb.symm]
  | @update p f hown _ howner =>
    induction t with
    | nil => rfl
    | cons r _ ih =>
      have hrest := ih fun r' hr' => hown r' (mem_cons_of_mem r hr')
      rw [updateWhere] at hrest
      rw [updateWhere, map_cons, filter_cons, filter_cons, hrest]
      by_cases hp : p r
      · have hne : ¬ owner r = b := fun hr => hb (hr.symm.trans (hown r mem_cons_self hp))
        simp [hp, howner, hne]
      · simp [hp]
  | @delete p hown _ =>
    rw [filter_filter]
    refine filter_congr fun r hr => ?_
    by_cases hp : p r
    · have hne : ¬ owner r = b := fun h => hb (h.symm.trans (hown r hr hp))
      simp [hne]
    · simp [hp]

theorem keeps {k : ℤ} {r : ρ} (h : OwnStep id owner a D t t') (hk : ¬ D k)
    (hr : findBy id k t = some r) : ∃ r', findBy id k t' = some r' ∧ owner r' = owner r := by
  cases h with
  | insert =>
    refine ⟨r, ?_, rfl⟩
    rw [findBy_append_of_mem id ((findBy_isSome_iff id).mp (by rw [hr]; rfl)), hr]
  | @update p f _ hid howner =>
    refine ⟨if p r then f r else r, by rw [findBy_updateWhere id hid, hr]; rfl, ?_⟩
    by_cases hp : p r
    · simp [hp, howner]
    · simp [hp]
  | @delete p _ hD =>
    obtain ⟨hmem, hid⟩ := findBy_some id hr
    have hkept : p r = false := by
      by_contra hp
      exact hk (hid ▸ hD r hmem (by simpa using hp))
    refine ⟨r, ?_, rfl⟩
    rw [findBy, List.find?_filter]
    -- the first row with this id is kept, and no earlier one has it
    refine List.find?_eq_some_iff_append.mpr ?_
    obtain ⟨hfound, before, after, rfl, hbefore⟩ := List.find?_eq_some_iff_append.mp hr
    refine ⟨by simpa [hkept] using hfound, before, after, rfl, fun x hx => ?_⟩
    have hne : ¬ id x = k := by simpa using hbefore x hx
    simp [hne]

end OwnStep

/-! ## Tables that look the same -/

/-- Two tables in which an owner has the same rows; row ids are unique in each. -/
structure Alike [DecidableEq κ] (id : ρ → ℤ) (owner : ρ → κ) (a : κ) (t t' : List ρ) : Prop where
  own : (t.filter fun r => owner r == a) = t'.filter fun r => owner r == a
  unique : (t.map id).Nodup
  unique' : (t'.map id).Nodup

namespace Alike
variable [DecidableEq κ]

section
variable (h : Alike id owner a t t')
include h

theorem mem_iff {r : ρ} (hr : owner r = a) : r ∈ t ↔ r ∈ t' := by
  have hmem : r ∈ (t.filter fun r => owner r == a) ↔ r ∈ t'.filter fun r => owner r == a := by
    rw [h.own]
  simpa [mem_filter, hr] using hmem

variable (p : ρ → Bool)

theorem select :
    (t.filter fun r => owner r == a && p r) = t'.filter fun r => owner r == a && p r := by
  have hfilter := congrArg (List.filter p) h.own
  rw [filter_filter, filter_filter] at hfilter
  simpa only [Bool.and_comm] using hfilter

theorem first :
    (t.find? fun r => owner r == a && p r) = t'.find? fun r => owner r == a && p r := by
  have hfind := congrArg (List.find? p) h.own
  simpa only [List.find?_filter, Bool.decide_and, Bool.decide_eq_true] using hfind

theorem any :
    (t.any fun r => owner r == a && p r) = t'.any fun r => owner r == a && p r := by
  have hany := congrArg (List.any · p) h.own
  simpa only [any_filter] using hany

theorem find (k : ℤ) :
    (findBy id k t).filter (fun r => decide (owner r = a)) =
      (findBy id k t').filter fun r => decide (owner r = a) := by
  ext r
  simp only [Option.filter_eq_some_iff, decide_eq_true_eq, findBy_eq_some_iff id h.unique,
    findBy_eq_some_iff id h.unique']
  constructor
  · rintro ⟨⟨hr, hk⟩, howner⟩
    exact ⟨⟨(h.mem_iff howner).mp hr, hk⟩, howner⟩
  · rintro ⟨⟨hr, hk⟩, howner⟩
    exact ⟨⟨(h.mem_iff howner).mpr hr, hk⟩, howner⟩

theorem insert {r : ρ} (hid : id r = nextRowid id t) (hnext : nextRowid id t = nextRowid id t') :
    Alike id owner a (t ++ [r]) (t' ++ [r]) where
  own := by rw [filter_append, filter_append, h.own]
  unique := nodup_insert id h.unique hid
  unique' := nodup_insert id h.unique' (hid.trans hnext)

theorem update {p : ρ → Bool} {f : ρ → ρ} (hid : ∀ r, id (f r) = id r)
    (howner : ∀ r, owner (f r) = owner r) :
    Alike id owner a (updateWhere p f t) (updateWhere p f t') := by
  have hfilter : ∀ u : List ρ, ((updateWhere p f u).filter fun r => owner r == a) =
      updateWhere p f (u.filter fun r => owner r == a) := by
    intro u
    rw [updateWhere, updateWhere, filter_map]
    congr 1
    refine filter_congr fun r _ => ?_
    by_cases hp : p r
    · simp [hp, howner]
    · simp [hp]
  refine ⟨?_, ?_, ?_⟩
  · rw [hfilter, hfilter, h.own]
  · rw [map_updateWhere id hid]
    exact h.unique
  · rw [map_updateWhere id hid]
    exact h.unique'

theorem delete :
    Alike id owner a (t.filter p) (t'.filter p) where
  own := by
    rw [filter_filter, filter_filter]
    exact h.select p
  unique := (filter_sublist.map id).nodup h.unique
  unique' := (filter_sublist.map id).nodup h.unique'

end

end Alike
end
end Foundations
