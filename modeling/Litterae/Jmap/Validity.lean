import Mathlib.Data.List.Infix
import Litterae.Jmap.Registry

/-! # Session tokens are valid, and once dead stay dead

`Sound` is what holds of the registry whichever calls go on at once. Two parts of it carry the rest: a
registered token has not ended, and the last time at which a token was used is the one that its
session has.
-/

namespace Litterae.Jmap.Registry
open Foundations List World

/-! ## What holds whichever calls go on -/

/-- A call that has been at the map is about the token. -/
def World.Speaks (w : World) (token : Text) : Prop :=
  ∃ f ∈ w.flights, f.request.token = token ∧ f.phase.settled = true

def World.Has (w : World) (c : ℕ) (token : Text) : Prop :=
  (w.cells.map Cell.token)[c]? = some token

/-- By the history before it, a check of the token at `checked` finds it in time. -/
def Recent (idleTimeout : ℕ) (token : Text) (checked : ℕ) (older : List Event) : Prop :=
  (∃ seen, .created token seen ∈ older) ∧
    ∃ last, lastSeen token older = some last ∧ last ≤ checked ∧ checked - last ≤ idleTimeout

/-- What a lookup relies on in each phase. -/
def Knows (w : World) (i : ℕ) (token : Text) : Phase → Prop
  | .found c | .locked c | .overdue c => w.Has c token
  | .live c checked =>
    ∃ x, w.cells[c]? = some x ∧ x.token = token ∧ x.session.lastSeen ≤ checked ∧
      checked - x.session.lastSeen ≤ w.idleTimeout
  | .inside c => w.Has c token ∧ ∃ checked seen, .passed i token checked seen ∈ w.log
  | .returned (.session _) => ∃ checked seen, .passed i token checked seen ∈ w.log
  | .entered | .minted _ | .returned _ => True

/-- The token had not ended when the call began, unless the call fails or has done nothing yet. -/
def Flight.Timely (f : Flight) (token : Text) : Prop :=
  f.phase = .entered ∨ f.phase = .returned .absent ∨ ∀ e ∈ f.began, e.ends token = false

structure Sound (w : World) : Prop where
  unique : (w.cells.map Cell.token).Nodup
  registered : ∀ token c, w.sessions token = some c → w.Has c token
  quiet : ∀ token c, w.sessions token = some c → ∀ e ∈ w.log, e.ends token = false
  stamped : ∀ x ∈ w.cells, (∃ seen, .created x.token seen ∈ w.log) ∧
    lastSeen x.token w.log = some x.session.lastSeen ∧ x.session.lastSeen ≤ w.clock
  spoken : ∀ e ∈ w.log, w.Speaks e.token
  exclusive : ∀ (i j c : ℕ) (f g : Flight), w.flights[i]? = some f → w.flights[j]? = some g →
    f.phase.holds c = true → g.phase.holds c = true → i = j
  minted : ∀ f ∈ w.flights, ∀ session, f.phase = .minted session → session.lastSeen ≤ w.clock
  began : ∀ f ∈ w.flights, ∀ e ∈ f.began, e ∈ w.log
  passes : ∀ i token checked seen older, (.passed i token checked seen :: older) <:+ w.log →
    Recent w.idleTimeout token checked older
  knows : ∀ i f token method, w.flights[i]? = some f → f.request = .look token method →
    Knows w i token f.phase
  timely : ∀ f ∈ w.flights, ∀ token method, f.request = .look token method → f.Timely token

variable {token : Text}

theorem Event.token_of_ends {e : Event} (h : e.ends token) :
    e.token = token := by
  cases e with
  | created | passed => cases h
  | removed t | gone t | expired t => exact eq_of_beq h

variable {c : ℕ} {x : Cell}

namespace World
variable {w t : World}

theorem Has.cell (h : w.Has c token) : ∃ x, w.cells[c]? = some x ∧ x.token = token := by
  rw [Has, List.getElem?_map] at h
  exact Option.map_eq_some_iff.mp h

theorem has_of_cell (hx : w.cells[c]? = some x) : w.Has c x.token := by
  rw [Has, List.getElem?_map, hx]
  rfl

theorem Has.unique {d : ℕ} (hw : (w.cells.map Cell.token).Nodup) (h : w.Has c token)
    (h' : w.Has d token) : c = d :=
  (List.getElem?_inj (List.getElem?_eq_some_iff.mp h).1 hw).mp (h.trans h'.symm)

theorem store_tokens (w : World) (c : ℕ) (g : Session → Session) :
    (w.store c g).cells.map Cell.token = w.cells.map Cell.token := by
  refine ext_getElem? fun d => ?_
  rw [List.getElem?_map, List.getElem?_map]
  rcases hx : w.cells[d]? with _ | x
  · rw [store, List.getElem?_modify, hx]
    rfl
  · rw [store_cell hx]
    split <;> rfl

end World

variable {phase p : Phase} {f : Flight}

section
variable {w t : World} {i now : ℕ}

theorem Taken.tokens (h : Taken w i now f p t) :
    t.cells.map Cell.token = w.cells.map Cell.token ∨
      f.phase.isMinted ∧
        t.cells.map Cell.token = w.cells.map Cell.token ++ [f.request.token] := by
  cases h with
  | insert htoken hphase =>
    refine .inr ⟨by rw [hphase]; rfl, ?_⟩
    rw [htoken]
    exact map_append
  | refresh | finish => exact .inl (w.store_tokens _ _)
  | @evict token method c =>
    obtain ⟨sessions, hsame⟩ := w.removeIfSame_eq token c
    exact .inl (by rw [hsame]; rfl)
  | _ => exact .inl rfl

theorem Taken.sessions (h : Taken w i now f p t) (hc : t.sessions token = some c) :
    w.sessions token = some c ∨
      f.phase.isMinted ∧ f.request.token = token ∧ t.Has c token := by
  cases h with
  | @insert new session htoken hphase =>
    by_cases htok : token = new
    · subst htok
      simp only [World.emit, World.move, World.insert, World.put, if_pos] at hc
      obtain rfl := Option.some.inj hc
      refine .inr ⟨by rw [hphase]; rfl, htoken, ?_⟩
      simp [World.Has, World.emit, World.move, World.insert]
    · simp only [World.emit, World.move, World.insert, World.put, if_neg htok] at hc
      exact .inl hc
  | remove =>
    simp only [World.emit, World.move, World.put] at hc
    split at hc
    · cases hc
    · exact .inl hc
  | evict =>
    simp only [World.emit, World.move, World.removeIfSame] at hc
    split at hc
    · simp only [World.put] at hc
      split at hc
      · cases hc
      · exact .inl hc
    · exact .inl hc
  | _ => exact .inl hc

theorem Taken.has (h : Taken w i now f p t) (hc : w.Has c token) :
    t.Has c token := by
  rw [World.Has] at hc ⊢
  rcases h.tokens with hsame | ⟨-, hnew⟩
  · rw [hsame, hc]
  · rw [hnew, List.getElem?_append_left (List.getElem?_eq_some_iff.mp hc).1, hc]

section
variable (h : Steps w i now f t phase)
include h

theorem Steps.flight (hf : w.flights[i]? = some f) {j : ℕ} {g : Flight}
    (hg : t.flights[j]? = some g) :
    j = i ∧ g = { f with phase } ∨ j ≠ i ∧ w.flights[j]? = some g := by
  rw [h.flights, List.getElem?_modify] at hg
  obtain ⟨g₀, hg₀, rfl⟩ := Option.map_eq_some_iff.mp hg
  by_cases hij : i = j
  · subst hij
    obtain rfl : f = g₀ := Option.some.inj (hf.symm.trans hg₀)
    exact .inl ⟨rfl, by simp⟩
  · exact .inr ⟨Ne.symm hij, by simpa [hij] using hg₀⟩

theorem Steps.moved (hf : w.flights[i]? = some f) : t.flights[i]? = some { f with phase } := by
  rw [h.flights, List.getElem?_modify, hf]
  simp

theorem Steps.log_subset : ∀ e ∈ w.log, e ∈ t.log := by
  rcases h.log with hsame | ⟨e, -, -, hnew⟩
  · rw [hsame]
    exact fun _ he => he
  · rw [hnew]
    exact fun _ he => mem_cons_of_mem _ he

theorem Steps.speaks (hf : w.flights[i]? = some f) (hspeaks : w.Speaks token) :
    t.Speaks token := by
  obtain ⟨g, hg, htoken, hsettled⟩ := hspeaks
  obtain ⟨j, hj⟩ := mem_iff_getElem?.mp hg
  by_cases hij : j = i
  · subst hij
    obtain rfl : f = g := Option.some.inj (hf.symm.trans hj)
    exact ⟨_, mem_of_getElem? (h.moved hf), htoken, h.settled hsettled⟩
  · have hsame : t.flights[j]? = some g := by
      rw [h.flights, List.getElem?_modify, hj]
      simp [Ne.symm hij]
    exact ⟨g, mem_of_getElem? hsame, htoken, hsettled⟩

end

theorem Fresh.unspoken (hfresh : Fresh w (.advance i now)) (hf : w.flights[i]? = some f)
    (hminted : f.phase.isMinted) : ¬ w.Speaks f.request.token := by
  rintro ⟨g, hg, htoken, hsettled⟩
  obtain ⟨j, hj⟩ := mem_iff_getElem?.mp hg
  have hij : j ≠ i := by
    rintro rfl
    obtain rfl : f = g := Option.some.inj (hf.symm.trans hj)
    cases hphase : f.phase <;> simp [hphase, Phase.settled, Phase.isMinted] at hminted hsettled
  exact hfresh f hf hminted g (mem_eraseIdx_iff_getElem?.mpr ⟨j, hij, hj⟩) htoken

end

variable {method : Method}

namespace Sound
variable {w t : World} {i now : ℕ}

theorem spoken_cell (hw : Sound w) (hx : x ∈ w.cells) : w.Speaks x.token := by
  obtain ⟨⟨seen, hcreated⟩, -, -⟩ := hw.stamped x hx
  exact hw.spoken _ hcreated

theorem registered_step (hw : Sound w) (h : Taken w i now f p t) (token : Text) (c : ℕ)
    (hc : t.sessions token = some c) : t.Has c token := by
  rcases h.sessions hc with hold | ⟨-, -, hnew⟩
  · exact h.has (hw.registered token c hold)
  · exact hnew

section
variable (hw : Sound w) (hf : w.flights[i]? = some f)
include hw hf

theorem knows_at (hlook : f.request = .look token method) (hphase : f.phase = p) :
    Knows w i token p :=
  hphase ▸ hw.knows i f token method hf hlook

theorem unique_step (hfresh : Fresh w (.advance i now)) (h : Taken w i now f p t) :
    (t.cells.map Cell.token).Nodup := by
  rcases h.tokens with hsame | ⟨hminted, hnew⟩
  · rw [hsame]
    exact hw.unique
  · rw [hnew]
    refine List.Nodup.append hw.unique (nodup_singleton _) (disjoint_singleton.mpr ?_)
    intro hmem
    obtain ⟨x, hx, htoken⟩ := mem_map.mp hmem
    exact hfresh.unspoken hf hminted (htoken ▸ hw.spoken_cell hx)

theorem quiet_step (hfresh : Fresh w (.advance i now)) (h : Taken w i now f p t) (token : Text)
    (c : ℕ) (hc : t.sessions token = some c) : ∀ e ∈ t.log, e.ends token = false := by
  have hold : ∀ e ∈ w.log, e.ends token = false := by
    rcases h.sessions hc with hreg | ⟨hminted, rfl, -⟩
    · exact hw.quiet token c hreg
    · intro e he
      rw [Bool.eq_false_iff]
      intro hends
      exact hfresh.unspoken hf hminted (Event.token_of_ends hends ▸ hw.spoken e he)
  have hnew : ∀ e, t.log = e :: w.log → e.ends token = false → ∀ e ∈ t.log, e.ends token = false := by
    intro e hlog he
    rw [hlog]
    exact forall_mem_cons.mpr ⟨he, hold⟩
  cases h with
  | insert htoken hphase | refresh hrequest hphase => exact hnew _ rfl rfl
  | @remove old hrequest hphase =>
    refine hnew _ rfl (beq_false_of_ne ?_)
    rintro rfl
    simp [World.emit, World.move, World.put] at hc
  | @gone old method hrequest hphase hnone =>
    refine hnew _ rfl (beq_false_of_ne ?_)
    rintro rfl
    cases hnone.symm.trans hc
  | @evict old method d hrequest hphase =>
    obtain ⟨sessions, hsame⟩ := w.removeIfSame_eq old d
    refine hnew (.expired old) (by rw [hsame]; rfl) (beq_false_of_ne ?_)
    rintro rfl
    -- the session that has expired is the one the token would be registered for
    have hd : w.Has d old := hw.knows_at hf hrequest hphase
    simp only [World.emit, World.move, World.removeIfSame] at hc
    split at hc
    · simp [World.put] at hc
    · next hother =>
      have hreg : w.Has c old := hw.registered old c hc
      exact hother (hreg.unique hw.unique hd ▸ hc)
  | _ => exact hold

theorem spoken_step (h : Steps w i now f t phase) :
    ∀ e ∈ t.log, t.Speaks e.token := by
  have hold : ∀ e ∈ w.log, t.Speaks e.token := fun e he => h.speaks hf (hw.spoken e he)
  rcases h.log with hsame | ⟨e, htoken, hsettled, hnew⟩
  · rw [hsame]
    exact hold
  · rw [hnew]
    exact forall_mem_cons.mpr ⟨⟨_, mem_of_getElem? (h.moved hf), htoken.symm, hsettled⟩, hold⟩

theorem exclusive_step (h : Steps w i now f t phase) (j k c : ℕ) (g g' : Flight)
    (hg : t.flights[j]? = some g) (hg' : t.flights[k]? = some g') (hholds : g.phase.holds c)
    (hholds' : g'.phase.holds c) : j = k := by
  -- a session that the call comes to hold was free, or it held it already
  have hmoved : phase.holds c → ∀ l g, w.flights[l]? = some g → g.phase.holds c →
      i = l := by
    intro hphase l g hl hg
    rcases h.holds c hphase with hbefore | hfree
    · exact hw.exclusive i l c f g hf hl hbefore hg
    · rw [World.held, any_eq_false] at hfree
      exact absurd hg (hfree g (mem_of_getElem? hl))
  rcases h.flight hf hg with ⟨rfl, rfl⟩ | ⟨hj, hg⟩ <;>
    rcases h.flight hf hg' with ⟨rfl, rfl⟩ | ⟨hk, hg'⟩
  · rfl
  · exact hmoved hholds k g' hg' hholds'
  · exact (hmoved hholds' j g hg hholds).symm
  · exact hw.exclusive j k c g g' hg hg' hholds hholds'

theorem minted_step (hclock : w.clock ≤ now) (h : Taken w i now f p t) (g : Flight)
    (hg : g ∈ t.flights) (session : Session) (hphase : g.phase = .minted session) :
    session.lastSeen ≤ t.clock := by
  rw [h.steps.clock]
  obtain ⟨j, hj⟩ := mem_iff_getElem?.mp hg
  rcases h.steps.flight hf hj with ⟨-, rfl⟩ | ⟨-, hold⟩
  · cases h <;> cases hphase
    exact le_rfl
  · exact (hw.minted g (mem_of_getElem? hold) session hphase).trans hclock

theorem began_step (h : Steps w i now f t p) (g : Flight) (hg : g ∈ t.flights) :
    ∀ e ∈ g.began, e ∈ t.log := by
  intro e he
  obtain ⟨j, hj⟩ := mem_iff_getElem?.mp hg
  rcases h.flight hf hj with ⟨-, rfl⟩ | ⟨-, hold⟩
  · exact h.log_subset e (hw.began f (mem_of_getElem? hf) e he)
  · exact h.log_subset e (hw.began g (mem_of_getElem? hold) e he)

theorem stamped_step (hclock : w.clock ≤ now) (hfresh : Fresh w (.advance i now))
    (h : Taken w i now f p t) (x : Cell) (hx : x ∈ t.cells) :
    (∃ seen, .created x.token seen ∈ t.log) ∧
      lastSeen x.token t.log = some x.session.lastSeen ∧ x.session.lastSeen ≤ t.clock := by
  have hsubset := h.steps.log_subset
  have hold : ∀ y ∈ w.cells, y.token = x.token → y.session.lastSeen = x.session.lastSeen →
      lastSeen x.token t.log = lastSeen x.token w.log →
      (∃ seen, .created x.token seen ∈ t.log) ∧
        lastSeen x.token t.log = some x.session.lastSeen ∧ x.session.lastSeen ≤ now := by
    intro y hy htoken hseen hlast
    obtain ⟨⟨seen, hcreated⟩, hstamp, hle⟩ := hw.stamped y hy
    rw [htoken] at hcreated hstamp
    rw [hlast, ← hseen]
    exact ⟨⟨seen, hsubset _ hcreated⟩, hstamp, hle.trans hclock⟩
  cases h with
  | @insert token session htoken hphase =>
    rcases mem_append.mp hx with hx' | hx'
    · refine hold x hx' rfl rfl (if_neg fun hsame => ?_)
      have hspeaks := hw.spoken_cell hx'
      rw [← hsame, ← htoken] at hspeaks
      exact hfresh.unspoken hf (by rw [hphase]; rfl) hspeaks
    · obtain rfl := mem_singleton.mp hx'
      exact ⟨⟨session.lastSeen, mem_cons_self⟩, if_pos rfl,
        (hw.minted f (mem_of_getElem? hf) session hphase).trans hclock⟩
  | @refresh token method c checked hrequest hphase =>
    obtain ⟨y, hy, htoken, -, -⟩ := hw.knows_at hf hrequest hphase
    obtain ⟨d, z, hz, rfl⟩ := mem_store hx
    by_cases hcd : c = d
    · subst hcd
      obtain rfl : y = z := Option.some.inj (hy.symm.trans hz)
      obtain ⟨⟨seen, hcreated⟩, -, -⟩ := hw.stamped y (mem_of_getElem? hy)
      rw [if_pos rfl]
      exact ⟨⟨seen, mem_cons_of_mem _ hcreated⟩, if_pos htoken.symm, le_rfl⟩
    · rw [if_neg hcd] at hold ⊢
      refine hold z (mem_of_getElem? hz) rfl rfl (if_neg fun hsame => hcd ?_)
      have hc : w.Has c z.token := hsame ▸ htoken ▸ has_of_cell hy
      exact hc.unique hw.unique (has_of_cell hz)
  | @finish token method c x' hrequest hphase hcell =>
    obtain ⟨d, z, hz, rfl⟩ := mem_store hx
    refine hold z (mem_of_getElem? hz) ?_ ?_ rfl
    · split <;> rfl
    · split
      · exact (method.leave_lastSeen z.session).symm
      · rfl
  | @evict token method c hrequest hphase =>
    obtain ⟨sessions, hsame⟩ := w.removeIfSame_eq token c
    rw [hsame] at hold hx ⊢
    exact hold x hx rfl rfl rfl
  | _ => exact hold x hx rfl rfl rfl

theorem passes_step (h : Taken w i now f p t) (j : ℕ) (token : Text) (checked seen : ℕ)
    (older : List Event) (hpassed : (.passed j token checked seen :: older) <:+ t.log) :
    Recent t.idleTimeout token checked older := by
  rw [h.steps.idleTimeout]
  have hold : (.passed j token checked seen :: older) <:+ w.log →
      Recent w.idleTimeout token checked older := hw.passes j token checked seen older
  have hnew : ∀ e, t.log = e :: w.log → e ≠ .passed j token checked seen →
      Recent w.idleTimeout token checked older := by
    intro e hlog hne
    rw [hlog] at hpassed
    rcases suffix_cons_iff.mp hpassed with heq | hsuffix
    · exact absurd (List.cons.inj heq).1.symm hne
    · exact hold hsuffix
  cases h with
  | insert htoken hphase | remove hrequest hphase | gone hrequest hphase hnone =>
    exact hnew _ rfl (by simp)
  | @evict old method c hrequest hphase =>
    obtain ⟨sessions, hsame⟩ := w.removeIfSame_eq old c
    exact hnew (.expired old) (by rw [hsame]; rfl) (by simp)
  | @refresh old method c at' hrequest hphase =>
    rcases suffix_cons_iff.mp hpassed with heq | hsuffix
    · obtain ⟨hevent, rfl⟩ := List.cons.inj heq
      obtain ⟨-, rfl, rfl, -⟩ := Event.passed.inj hevent
      obtain ⟨x, hx, rfl, hle, hlive⟩ := hw.knows_at hf hrequest hphase
      obtain ⟨hcreated, hlast, -⟩ := hw.stamped x (mem_of_getElem? hx)
      exact ⟨hcreated, x.session.lastSeen, hlast, hle, hlive⟩
    · exact hold hsuffix
  | _ => exact hold hpassed

theorem knows_taken (hclock : w.clock ≤ now) (h : Taken w i now f p t)
    (hlook : f.request = .look token method) : Knows t i token p := by
  have hhas : ∀ c, w.Has c token → t.Has c token := fun c => h.has
  cases h with
  | mint | insert | remove | gone | evict => trivial
  | @find old method' c hrequest hphase hsome =>
    obtain ⟨rfl, -⟩ := Request.look.inj (hlook.symm.trans hrequest)
    exact hhas c (hw.registered token c hsome)
  | @lock old method' c hrequest hphase hfree | @lapse old method' c hrequest hphase =>
    exact hhas c (hw.knows_at hf hlook hphase)
  | @check old method' c x hrequest hphase hcell hlive =>
    obtain ⟨y, hy, htoken⟩ := World.Has.cell (hw.knows_at hf hlook hphase)
    obtain rfl : x = y := Option.some.inj (hcell.symm.trans hy)
    have hle := (hw.stamped x (mem_of_getElem? hcell)).2.2
    exact ⟨x, hcell, htoken, hle.trans hclock, hlive⟩
  | @refresh old method' c checked hrequest hphase =>
    obtain ⟨rfl, -⟩ := Request.look.inj (hlook.symm.trans hrequest)
    obtain ⟨x, hx, rfl, -, -⟩ := hw.knows_at hf hlook hphase
    exact ⟨hhas c (has_of_cell hx), checked, now, mem_cons_self⟩
  | finish hrequest hphase => exact (hw.knows_at hf hlook hphase).2

theorem knows_other (h : Taken w i now f p t) {j : ℕ} {g : Flight} (hij : j ≠ i)
    (hg : w.flights[j]? = some g) (hknows : Knows w j token g.phase) :
    Knows t j token g.phase := by
  have hhas : ∀ c, w.Has c token → t.Has c token := fun c => h.has
  have hlog := h.steps.log_subset
  cases hphase : g.phase <;> rw [hphase] at hknows
  case entered | minted => trivial
  case found c | locked c | overdue c => exact hhas c hknows
  case live c _ =>
    obtain ⟨x, hx, htoken, hle, hlive⟩ := hknows
    obtain ⟨y, hy, htoken', hsame⟩ := h.steps.cells c x hx
    have hfree : f.phase.holds c = false := by
      rw [Bool.eq_false_iff]
      intro hholds
      exact hij (hw.exclusive j i c g f hg hf (by rw [hphase]; exact beq_self_eq_true c) hholds)
    refine ⟨y, hy, htoken'.trans htoken, ?_⟩
    rw [hsame hfree, h.steps.idleTimeout]
    exact ⟨hle, hlive⟩
  case inside c =>
    obtain ⟨hc, checked, seen, hpassed⟩ := hknows
    exact ⟨hhas c hc, checked, seen, hlog _ hpassed⟩
  case returned answer =>
    cases answer with
    | session =>
      obtain ⟨checked, seen, hpassed⟩ := hknows
      exact ⟨checked, seen, hlog _ hpassed⟩
    | token | absent | removed => trivial

theorem knows_step (hclock : w.clock ≤ now) (h : Taken w i now f p t) (j : ℕ) (g : Flight)
    (token : Text) (method : Method) (hg : t.flights[j]? = some g)
    (hlook : g.request = .look token method) :
    Knows t j token g.phase := by
  rcases h.steps.flight hf hg with ⟨rfl, rfl⟩ | ⟨hij, hold⟩
  · exact hw.knows_taken hf hclock h hlook
  · exact hw.knows_other hf h hij hold (hw.knows j g token method hold hlook)

theorem timely_step (h : Taken w i now f p t) (g : Flight) (hg : g ∈ t.flights) (token : Text)
    (method : Method) (hlook : g.request = .look token method) : g.Timely token := by
  obtain ⟨j, hj⟩ := mem_iff_getElem?.mp hg
  rcases h.steps.flight hf hj with ⟨rfl, rfl⟩ | ⟨-, hold⟩
  · have htimely := hw.timely f (mem_of_getElem? hf) token method hlook
    -- a lookup that has gone past the map began before the token ended
    have hpast : f.phase ≠ .entered → f.phase ≠ .returned .absent →
        ({ f with phase := p } : Flight).Timely token := by
      intro hentered habsent
      rcases htimely with hphase | hphase | hquiet
      · exact absurd hphase hentered
      · exact absurd hphase habsent
      · exact .inr (.inr hquiet)
    cases h with
    | mint hrequest hphase | remove hrequest hphase =>
      cases hlook.symm.trans hrequest
    | insert htoken hphase | lock hrequest hphase hfree | lapse hrequest hphase
    | check hrequest hphase hcell hlive | refresh hrequest hphase | finish hrequest hphase hcell =>
      exact hpast (by simp [hphase]) (by simp [hphase])
    | gone hrequest hphase hnone | evict hrequest hphase => exact .inr (.inl rfl)
    | @find old method' c hrequest hphase hsome =>
      obtain ⟨rfl, -⟩ := Request.look.inj (hlook.symm.trans hrequest)
      refine .inr (.inr fun e he => hw.quiet token c hsome e ?_)
      exact hw.began f (mem_of_getElem? hf) e he
  · exact hw.timely g (mem_of_getElem? hold) token method hlook

end

theorem advance (hw : Sound w) (hfresh : Fresh w (.advance i now))
    (h : step w (.advance i now) = some t) : Sound t := by
  obtain ⟨f, p, hf, hclock, htaken⟩ := taken_of_step h
  exact
    { unique := hw.unique_step hf hfresh htaken
      registered := hw.registered_step htaken
      quiet := hw.quiet_step hf hfresh htaken
      stamped := hw.stamped_step hf hclock hfresh htaken
      spoken := hw.spoken_step hf htaken.steps
      exclusive := hw.exclusive_step hf htaken.steps
      minted := hw.minted_step hf hclock htaken
      began := hw.began_step hf htaken.steps
      passes := hw.passes_step hf htaken
      knows := hw.knows_step hf hclock htaken
      timely := hw.timely_step hf htaken }

theorem launch (hw : Sound w) (request : Request) :
    Sound { w with flights := w.flights ++ [{ request, began := w.log, phase := .entered }] } := by
  let new : Flight := { request, began := w.log, phase := .entered }
  have hmem : ∀ {g : Flight}, g ∈ w.flights ++ [new] → g ∈ w.flights ∨ g = new :=
    fun hg => (mem_append.mp hg).imp_right mem_singleton.mp
  have hflight : ∀ {j : ℕ} {g : Flight}, (w.flights ++ [new])[j]? = some g →
      w.flights[j]? = some g ∨ g = new := by
    intro j g hg
    rcases Nat.lt_or_ge j w.flights.length with hlt | hge
    · exact .inl ((List.getElem?_append_left hlt).symm.trans hg)
    · rw [List.getElem?_append_right hge] at hg
      exact .inr (mem_singleton.mp (mem_of_getElem? hg))
  exact
    { unique := hw.unique
      registered := hw.registered
      quiet := hw.quiet
      stamped := hw.stamped
      spoken := fun e he =>
        (hw.spoken e he).imp fun f ⟨hf, hspeaks⟩ => ⟨mem_append_left _ hf, hspeaks⟩
      exclusive := by
        intro j k c g g' hg hg' hholds hholds'
        rcases hflight hg with hg | rfl
        · rcases hflight hg' with hg' | rfl
          · exact hw.exclusive j k c g g' hg hg' hholds hholds'
          · cases hholds'
        · cases hholds
      minted := by
        intro g hg session hphase
        rcases hmem hg with hg | rfl
        · exact hw.minted g hg session hphase
        · cases hphase
      began := by
        intro g hg
        rcases hmem hg with hg | rfl
        · exact hw.began g hg
        · exact fun e he => he
      passes := hw.passes
      knows := by
        intro j g token method hg hlook
        rcases hflight hg with hg | rfl
        · exact hw.knows j g token method hg hlook
        · trivial
      timely := by
        intro g hg token method hlook
        rcases hmem hg with hg | rfl
        · exact hw.timely g hg token method hlook
        · exact .inl rfl }

theorem new (idleTimeout : ℕ) : Sound (World.new idleTimeout) := by
  constructor <;> simp [World.new]

theorem run {idleTimeout : ℕ} {acts : List Act}
    (hfresh : Along step Fresh (World.new idleTimeout) acts)
    (hrun : Foundations.run step (World.new idleTimeout) acts = some w) :
    Sound w ∧ w.idleTimeout = idleTimeout := by
  refine run_invariant (I := fun w => Sound w ∧ w.idleTimeout = idleTimeout) ?_
    ⟨.new idleTimeout, rfl⟩ hfresh hrun
  rintro w (request | ⟨i, now⟩) t ⟨hw, hidle⟩ hG hstep
  · obtain rfl := Option.some.inj hstep
    exact ⟨hw.launch request, hidle⟩
  · obtain ⟨f, p, -, -, htaken⟩ := taken_of_step hstep
    exact ⟨hw.advance hG hstep, htaken.steps.idleTimeout.trans hidle⟩

end Sound

/-! ## Sessions are valid, and stay dead -/

/-- Whatever calls go on together: a lookup succeeds only on a token that was created, that nobody
removed before the lookup began, and whose last use was at most the idle timeout ago when the lookup
checked it. A lookup that begins after the token was removed, or after another lookup failed on it,
fails. -/
theorem sessions_valid (idleTimeout : ℕ) (acts : List Act) (w : World)
    (hfresh : Along step Fresh (World.new idleTimeout) acts)
    (hrun : Foundations.run step (World.new idleTimeout) acts = some w) :
    (∀ (i : ℕ) (f : Flight) token method session, w.flights[i]? = some f → f.request = .look token method →
      f.phase = .returned (.session session) →
      .removed token ∉ f.began ∧
        ∃ checked seen older, (.passed i token checked seen :: older) <:+ w.log ∧
          (∃ seen, .created token seen ∈ older) ∧
          ∃ last, lastSeen token older = some last ∧ last ≤ checked ∧
            checked - last ≤ idleTimeout) ∧
    ∀ (i : ℕ) (f : Flight) token method, w.flights[i]? = some f → f.request = .look token method →
      (∃ e ∈ f.began, e.ends token) →
      f.phase = .returned .absent ∨ f.phase = .entered ∧ w.sessions token = none := by
  obtain ⟨hw, rfl⟩ := Sound.run hfresh hrun
  constructor
  · intro i f token method session hf hlook hphase
    constructor
    · intro hremoved
      rcases hw.timely f (mem_of_getElem? hf) token method hlook with h | h | hquiet
      · cases hphase.symm.trans h
      · cases hphase.symm.trans h
      · exact absurd (hquiet _ hremoved) (by simp [Event.ends])
    · obtain ⟨checked, seen, hpassed⟩ := hw.knows_at hf hlook hphase
      obtain ⟨newer, older, hlog⟩ := append_of_mem hpassed
      have hsuffix : (.passed i token checked seen :: older) <:+ w.log := ⟨newer, hlog.symm⟩
      exact ⟨checked, seen, older, hsuffix, hw.passes i token checked seen older hsuffix⟩
  · rintro i f token method hf hlook ⟨e, he, hends⟩
    rcases hw.timely f (mem_of_getElem? hf) token method hlook with h | h | hquiet
    · refine .inr ⟨h, ?_⟩
      rcases hc : w.sessions token with _ | c
      · rfl
      · have hlog := hw.began f (mem_of_getElem? hf) e he
        exact absurd hends (by rw [hw.quiet token c hc e hlog]; simp)
    · exact .inl h
    · exact absurd hends (by rw [hquiet e he]; simp)

/-! A token is created and looked up; it is removed while the lookup waits. -/

def sampleToken : Text := "t"

def sampleSession : Session :=
  { accountId := 1, unlocked := ⟨[], []⟩, identity := ⟨[], 0, []⟩, lastSeen := 6, searchIndex := none }

def sampleCalls : List Act :=
  [.launch (.create sampleToken 1 ⟨[], []⟩ ⟨[], 0, []⟩), .advance 0 0, .advance 0 0,
    .launch (.look sampleToken .accountId), .advance 1 5,
    .launch (.remove sampleToken), .advance 2 5,
    .advance 1 5, .advance 1 6, .advance 1 6, .advance 1 7,
    .launch (.look sampleToken .withAccount), .advance 3 8]

theorem sessions_valid_removed :
    ∃ w f, Foundations.run step (World.new 10) sampleCalls = some w ∧
      (∃ checked seen older, (.passed 1 sampleToken checked seen :: older) <:+ w.log ∧
        (∃ seen, .created sampleToken seen ∈ older) ∧
        ∃ last, lastSeen sampleToken older = some last ∧ last ≤ checked ∧ checked - last ≤ 10) ∧
      w.flights[3]? = some f ∧ .removed sampleToken ∈ f.began ∧ f.phase = .returned .absent := by
  obtain ⟨w, hrun⟩ : ∃ w, Foundations.run step (World.new 10) sampleCalls = some w := ⟨_, rfl⟩
  have hfresh : Along step Fresh (World.new 10) sampleCalls := by decide +kernel
  obtain ⟨hvalid, hdead⟩ := sessions_valid 10 sampleCalls w hfresh hrun
  obtain rfl := Option.some.inj hrun
  obtain ⟨-, hrecent⟩ := hvalid 1 _ sampleToken .accountId sampleSession rfl rfl rfl
  have hremoved : Event.removed sampleToken ∈
      [Event.passed 1 sampleToken 6 6, .removed sampleToken, .created sampleToken 0] := by simp
  refine ⟨_, _, rfl, hrecent, rfl, hremoved, ?_⟩
  rcases hdead 3 _ sampleToken .withAccount rfl rfl ⟨_, hremoved, beq_self_eq_true _⟩ with h | ⟨h, -⟩
  · exact h
  · cases h

end Litterae.Jmap.Registry
