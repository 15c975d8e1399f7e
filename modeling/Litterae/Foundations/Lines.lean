import Mathlib.Data.List.Basic

/-! Streams cut into lines: a line is everything up to and including the next
terminator. The pieces are what a reader that stops at each terminator sees. -/
namespace Foundations
open List

variable {α : Type} [DecidableEq α]

/-- Cuts a list after each `nl`; what follows the last `nl` is dropped when empty. -/
def linesOf (nl : α) : List α → List (List α)
  | [] => []
  | b :: rest =>
    if b = nl then [b] :: linesOf nl rest
    else
      match linesOf nl rest with
      | [] => [[b]]
      | l :: ls => (b :: l) :: ls

/-- A terminated line: a body free of `nl`, then `nl`. -/
def IsLine (nl : α) (l : List α) : Prop := ∃ body, l = body ++ [nl] ∧ nl ∉ body

omit [DecidableEq α] in
theorem isLine_singleton (nl : α) : IsLine nl [nl] := ⟨[], rfl, by simp⟩

omit [DecidableEq α] in
theorem IsLine.cons {nl b : α} {l : List α} (h : IsLine nl l) (hb : b ≠ nl) :
    IsLine nl (b :: l) := by
  obtain ⟨body, rfl, hbody⟩ := h
  refine ⟨b :: body, rfl, ?_⟩
  simp only [mem_cons, not_or]
  exact ⟨hb.symm, hbody⟩

variable (nl : α) (bytes : List α)

theorem linesOf_flatten : (linesOf nl bytes).flatten = bytes := by
  induction bytes with
  | nil => rfl
  | cons b _ ih =>
    by_cases hb : b = nl
    · simp [linesOf, hb, ih]
    · rw [linesOf, if_neg hb]
      split
      · next h => rw [h] at ih; simpa using ih
      · next l ls h => rw [h] at ih; simpa using ih

theorem linesOf_isLine (hend : bytes = [] ∨ bytes.getLast? = some nl) :
    ∀ l ∈ linesOf nl bytes, IsLine nl l := by
  induction bytes with
  | nil => simp [linesOf]
  | cons b rest ih =>
    have hrest : rest = [] ∨ rest.getLast? = some nl := by
      rcases rest with _ | ⟨c, tail⟩
      · exact .inl rfl
      · right
        rcases hend with h | h
        · cases h
        · simpa using h
    have htail := ih hrest
    by_cases hb : b = nl
    · subst hb
      simp only [linesOf, if_true, forall_mem_cons]
      exact ⟨isLine_singleton b, htail⟩
    · rw [linesOf, if_neg hb]
      split
      · next h =>
        -- the last byte of the stream would not be a terminator
        have hnil : rest = [] := by simpa [h] using (linesOf_flatten nl rest).symm
        subst hnil
        simp [hb] at hend
      · next l ls h =>
        rw [h] at htail
        simp only [forall_mem_cons] at htail ⊢
        exact ⟨htail.1.cons hb, htail.2⟩

theorem linesOf_line {nl : α} {l rest : List α} (h : IsLine nl l) :
    linesOf nl (l ++ rest) = l :: linesOf nl rest := by
  obtain ⟨body, rfl, hbody⟩ := h
  induction body with
  | nil => simp [linesOf]
  | cons b tail ih =>
    have hb : b ≠ nl := (ne_of_not_mem_cons hbody).symm
    have htail : nl ∉ tail := not_mem_of_not_mem_cons hbody
    rw [cons_append, cons_append, linesOf, if_neg hb, ih htail]

theorem linesOf_of_isLine {ls : List (List α)} (h : ∀ l ∈ ls, IsLine nl l) :
    linesOf nl ls.flatten = ls := by
  induction ls with
  | nil => rfl
  | cons _ _ ih =>
    simp only [forall_mem_cons] at h
    rw [flatten_cons, linesOf_line h.1, ih h.2]

end Foundations
