import Mathlib.Logic.Basic

/-! # Runs of a labelled machine

`step s a` is the state after action `a`, if `a` is enabled in `s`. `run` takes actions one by one;
`Along G` says that every action of a run meets `G` in the state it is taken in. The rules below turn
what one step preserves into what whole runs preserve.
-/

namespace Foundations
open Option

section
variable {σ α : Type} (step : σ → α → Option σ) {as : List α} {s : σ} {bs : List α}
  {G' : σ → α → Prop} {I : σ → Prop}

def run : σ → List α → Option σ
  | s, [] => some s
  | s, a :: as => (step s a).bind fun t => run t as

/-- Every action of the run meets `G` when it is taken. -/
def Along (G : σ → α → Prop) : σ → List α → Prop
  | _, [] => True
  | s, a :: as => G s a ∧ ∀ t, step s a = some t → Along G t as

variable {step} {G : σ → α → Prop}

theorem run_cons {s u : σ} {a : α} (h : run step s (a :: as) = some u) :
    ∃ t, step s a = some t ∧ run step t as = some u := bind_eq_some_iff.mp h

theorem run_append :
    run step s (as ++ bs) = (run step s as).bind fun t => run step t bs := by
  induction as generalizing s with
  | nil => rfl
  | cons a _ ih =>
    simp only [List.cons_append, run]
    cases step s a with
    | none => rfl
    | some => exact ih

instance instDecidableAlong [∀ s a, Decidable (G s a)] :
    (s : σ) → (as : List α) → Decidable (Along step G s as)
  | _, [] => isTrue trivial
  | s, a :: as =>
    match hstep : step s a with
    | none => decidable_of_iff (G s a) (by simp [Along, hstep])
    | some t =>
      haveI := instDecidableAlong t as
      decidable_of_iff (G s a ∧ Along step G t as) (by simp [Along, hstep])

theorem Along.and (h : Along step G s as) (h' : Along step G' s as) :
    Along step (fun s a => G s a ∧ G' s a) s as := by
  induction as generalizing s with
  | nil => trivial
  | cons _ _ ih => exact ⟨⟨h.1, h'.1⟩, fun t ht => ih (h.2 t ht) (h'.2 t ht)⟩

theorem Along.mono (hG : ∀ s a, G s a → G' s a) {as : List α} (h : Along step G s as) :
    Along step G' s as := by
  induction as generalizing s with
  | nil => trivial
  | cons a _ ih => exact ⟨hG s a h.1, fun t ht => ih (h.2 t ht)⟩

theorem Along.of_mem (h : ∀ a ∈ as, ∀ s, G s a) (s : σ) : Along step G s as := by
  induction as generalizing s with
  | nil => trivial
  | cons a _ ih =>
    exact ⟨h a List.mem_cons_self s, fun t _ => ih (fun b hb => h b (List.mem_cons_of_mem a hb)) t⟩

theorem Along.of_forall (h : ∀ s a, G s a) (s : σ) (as : List α) : Along step G s as :=
  .of_mem (fun a _ s => h s a) s

theorem Along.append_left (h : Along step G s (as ++ bs)) :
    Along step G s as := by
  induction as generalizing s with
  | nil => trivial
  | cons _ _ ih => exact ⟨h.1, fun t ht => ih (h.2 t ht)⟩

theorem Along.append_right {s t : σ} (h : Along step G s (as ++ bs))
    (hrun : run step s as = some t) : Along step G t bs := by
  induction as generalizing s with
  | nil =>
    obtain rfl : s = t := some.inj hrun
    exact h
  | cons _ _ ih =>
    obtain ⟨u, hu, hrest⟩ := run_cons hrun
    exact ih (h.2 u hu) hrest

theorem exists_of_not_along {s t : σ} (hrun : run step s as = some t) (h : ¬ Along step G s as) :
    ∃ before a after u v, as = before ++ a :: after ∧ run step s before = some u ∧ ¬ G u a ∧
      step u a = some v ∧ run step v after = some t := by
  induction as generalizing s with
  | nil => exact absurd trivial h
  | cons a as ih =>
    obtain ⟨u, hu, hrest⟩ := run_cons hrun
    by_cases hG : G s a
    · have hnot : ¬ Along step G u as := by
        intro halong
        refine h ⟨hG, fun t' ht' => ?_⟩
        obtain rfl : u = t' := some.inj (hu.symm.trans ht')
        exact halong
      obtain ⟨before, b, after, v, w, rfl, hv, hb, hw, hend⟩ := ih hrest hnot
      refine ⟨a :: before, b, after, v, w, rfl, ?_, hb, hw, hend⟩
      rw [run, hu]
      exact hv
    · exact ⟨[], a, as, s, u, rfl, rfl, hG, hu, hrest⟩

theorem run_invariant (hstep : ∀ s a t, I s → G s a → step s a = some t → I t) {s t : σ}
    {as : List α} (hs : I s) (hG : Along step G s as) (h : run step s as = some t) :
    I t := by
  induction as generalizing s with
  | nil =>
    obtain rfl : s = t := some.inj h
    exact hs
  | cons a _ ih =>
    obtain ⟨u, hu, hrest⟩ := run_cons h
    exact ih (hstep s a u hs hG.1 hu) (hG.2 u hu) hrest

theorem run_relation {R : σ → σ → Prop} (hrefl : ∀ s, R s s)
    (htrans : ∀ s t u, R s t → R t u → R s u)
    (hstep : ∀ s a t, I s → G s a → step s a = some t → I t ∧ R s t) {s t : σ} {as : List α}
    (hs : I s) (hG : Along step G s as) (h : run step s as = some t) :
    R s t := by
  induction as generalizing s with
  | nil =>
    obtain rfl : s = t := some.inj h
    exact hrefl s
  | cons a _ ih =>
    obtain ⟨u, hu, hrest⟩ := run_cons h
    obtain ⟨hIu, hsu⟩ := hstep s a u hs hG.1 hu
    exact htrans s u t hsu (ih hIu (hG.2 u hu) hrest)

end
end Foundations
