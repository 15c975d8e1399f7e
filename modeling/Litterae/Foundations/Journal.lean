import Mathlib.Data.List.Basic

/-! # Transactions read off a journal

A journal is a list of entries, newest first. Some entries open a transaction, some add an item to
the open one, some close it. `replay` is the transaction that is open at the end of the journal, and
`Since` says the same without a fold: the entry that opened it, and what was added after that.
-/

namespace Foundations
open List

structure Book (ε α β : Type) where
  opens : ε → Option α
  adds : ε → Option β
  closes : ε → Bool

namespace Book
variable {ε α β : Type} (book : Book ε α β) {journal : List ε} {e : ε}

def after (e : ε) (t : Option (α × List β)) : Option (α × List β) :=
  match book.opens e with
  | some a => some (a, [])
  | none =>
    if book.closes e then none
    else
      match book.adds e with
      | some b => t.map fun p => (p.1, p.2 ++ [b])
      | none => t

/-- The transaction open at the end of the journal. -/
def replay : List ε → Option (α × List β)
  | [] => none
  | e :: journal => book.after e (replay journal)

/-- `a` was opened in `journal`, nothing opened or closed a transaction since, and `items` are the
items added since, oldest first. -/
def Since (journal : List ε) (a : α) (items : List β) : Prop :=
  ∃ later first earlier, journal = later ++ first :: earlier ∧ book.opens first = some a ∧
    (∀ e ∈ later, book.opens e = none ∧ book.closes e = false) ∧
    items = later.reverse.filterMap book.adds

variable {book}

theorem since_of_replay {a : α} {items : List β} (h : book.replay journal = some (a, items)) :
    book.Since journal a items := by
  induction journal generalizing items with
  | nil => cases h
  | cons e journal ih =>
    rw [replay, after] at h
    cases hopens : book.opens e with
    | some =>
      rw [hopens] at h
      obtain ⟨rfl, rfl⟩ := h
      exact ⟨[], e, journal, rfl, hopens, by simp, rfl⟩
    | none =>
      rw [hopens] at h
      cases hcloses : book.closes e with
      | true => simp [hcloses] at h
      | false =>
        simp only [hcloses, Bool.false_eq_true, if_false] at h
        -- the entry neither opens nor closes: it joins the ones after the opening
        have hextend : ∀ items', book.Since journal a items' →
            book.Since (e :: journal) a (items' ++ (book.adds e).toList) := by
          rintro items' ⟨later, first, earlier, rfl, hfirst, hlater, rfl⟩
          refine ⟨e :: later, first, earlier, rfl, hfirst, ?_, ?_⟩
          · simp only [forall_mem_cons]
            exact ⟨⟨hopens, hcloses⟩, hlater⟩
          · cases hadds : book.adds e <;> simp [hadds]
        cases hadds : book.adds e with
        | none =>
          rw [hadds] at h
          simpa [hadds] using hextend items (ih h)
        | some =>
          rw [hadds] at h
          simp only [Option.map_eq_some_iff, Prod.mk.injEq, Prod.exists] at h
          obtain ⟨a', items', hrest, rfl, rfl⟩ := h
          simpa [hadds] using hextend items' (ih hrest)

theorem replay_opens {a : α} (h : book.opens e = some a) :
    book.replay (e :: journal) = some (a, []) := by
  rw [replay, after, h]

theorem replay_closes (hopens : book.opens e = none) (h : book.closes e) :
    book.replay (e :: journal) = none := by
  rw [replay, after, hopens]
  simp [h]

theorem replay_adds {b : β} (hopens : book.opens e = none) (hcloses : book.closes e = false)
    (h : book.adds e = some b) :
    book.replay (e :: journal) = (book.replay journal).map fun p => (p.1, p.2 ++ [b]) := by
  rw [replay, after, hopens]
  simp [hcloses, h]

theorem replay_neutral (hopens : book.opens e = none) (hcloses : book.closes e = false)
    (hadds : book.adds e = none) :
    book.replay (e :: journal) = book.replay journal := by
  rw [replay, after, hopens]
  simp [hcloses, hadds]

end Book
end Foundations
