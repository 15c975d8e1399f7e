import Mathlib.Logic.Relation
import Litterae.Foundations.Text

/-! # Subject normalisation (`store/src/threads.rs`)

`normalizeSubject` trims the subject, strips `Re:`, `Fwd:` and `Fw:` prefixes round after round and
lowercases what is left. A round compares slices of the remaining text taken at the byte lengths of
the three prefixes, so it can cut inside a character; `none` is that panic.
-/

namespace Litterae.Store

variable {pfx : Text}
open Foundations List

variable {s lower : Text} {pfxs : List Text}

def replyPrefixes : List Text := ["re:", "fwd:", "fw:"]

/-- One test of the `find_map`: the text after the prefix `pfx` if `lower` starts with it. The
outer `none` is a slice at a byte offset inside a character. -/
def strippedBy (lower pfx : Text) : Option (Option Text) :=
  if byteLen pfx ≤ byteLen lower then
    match splitAtByte (byteLen pfx) lower with
    | none => none
    | some (head, tail) =>
      if eqIgnoreAsciiCase head pfx then some (some (trimStart tail)) else some none
  else some none

def stripped (lower : Text) : List Text → Option (Option Text)
  | [] => some none
  | pfx :: rest =>
    match strippedBy lower pfx with
    | none => none
    | some (some text) => some (some text)
    | some none => stripped lower rest

variable {rest : Text}

theorem strippedBy_some (h : strippedBy lower pfx = some (some rest)) :
    ∃ head tail, lower = head ++ tail ∧ byteLen head = byteLen pfx ∧
      head.map Char.toLower = pfx.map Char.toLower ∧ rest = trimStart tail := by
  unfold strippedBy at h
  split at h
  · split at h
    · simp at h
    · rename_i head tail hcut
      obtain ⟨rfl, hlen⟩ := splitAtByte_eq_some_iff.mp hcut
      split at h
      · rename_i heq
        simp only [Option.some.injEq] at h
        exact ⟨head, tail, rfl, hlen, by simpa [eqIgnoreAsciiCase] using heq, h.symm⟩
      · simp at h
  · simp at h

theorem stripped_some (h : stripped lower pfxs = some (some rest)) :
    ∃ pfx ∈ pfxs, strippedBy lower pfx = some (some rest) := by
  induction pfxs with
  | nil => simp [stripped] at h
  | cons pfx _ ih =>
    simp only [stripped] at h
    split at h
    · simp at h
    · rename_i text htext
      obtain rfl : text = rest := by simpa using h
      exact ⟨pfx, mem_cons_self, htext⟩
    · obtain ⟨q, hq, hby⟩ := ih h
      exact ⟨q, mem_cons_of_mem _ hq, hby⟩

theorem three_le_byteLen_of_mem : ∀ pfx ∈ replyPrefixes, 3 ≤ byteLen pfx := by decide

theorem byteLen_lt_of_stripped (h : stripped (trimStart s) replyPrefixes = some (some rest)) :
    byteLen rest < byteLen s := by
  obtain ⟨pfx, hpfx, hby⟩ := stripped_some h
  obtain ⟨head, tail, hs, hlen, -, rfl⟩ := strippedBy_some hby
  have hpos := three_le_byteLen_of_mem pfx hpfx
  have htrim := byteLen_le_of_suffix (trimStart_suffix s)
  have htail := byteLen_le_of_suffix (trimStart_suffix tail)
  rw [hs, byteLen_append] at htrim
  omega

def stripLoop (s : Text) : Option Text :=
  match _h : stripped (trimStart s) replyPrefixes with
  | none => none
  | some (some rest) => if byteLen rest ≠ byteLen s then stripLoop rest else some s
  | some none => some s
termination_by byteLen s
decreasing_by exact byteLen_lt_of_stripped _h

/-- `normalize_subject`, over the standard library's `to_lowercase`. -/
def normalizeSubject (toLowercase : Text → Text) (subject : Text) : Option Text :=
  (stripLoop (trim subject)).map toLowercase

/-! ## One round -/

/-- `t` is `s` without one leading reply prefix, in any letter case, and the white space after it. -/
def Strips (s t : Text) : Prop :=
  ∃ head tail, s = head ++ tail ∧ head.map Char.toLower ∈ replyPrefixes ∧ t = trimStart tail

def StartsWithRe (s : Text) : Prop :=
  ∃ head tail, s = head ++ tail ∧ head.map Char.toLower = "re:"

/-- The round on `s` cuts at character boundaries only. -/
def RoundSafe (s : Text) : Prop :=
  StartsWithRe s ∨ ((3 ≤ byteLen s → IsBoundary 3 s) ∧ (4 ≤ byteLen s → IsBoundary 4 s))

theorem strippedBy_eq_none_iff :
    strippedBy lower pfx = none ↔
      byteLen pfx ≤ byteLen lower ∧ ¬ IsBoundary (byteLen pfx) lower := by
  rw [← splitAtByte_isSome_iff]
  unfold strippedBy
  by_cases hlen : byteLen pfx ≤ byteLen lower
  · rw [if_pos hlen]
    cases hcut : splitAtByte (byteLen pfx) lower with
    | none => simp [hlen]
    | some parts =>
      by_cases heq : eqIgnoreAsciiCase parts.1 pfx
      · simp [heq]
      · simp [heq]
  · simp [hlen]

theorem strippedBy_append {head tail : Text} (h : head.map Char.toLower = pfx.map Char.toLower) :
    strippedBy (head ++ tail) pfx = some (some (trimStart tail)) := by
  have hlen : byteLen head = byteLen pfx := by
    have := congrArg byteLen h
    simpa using this
  unfold strippedBy
  rw [if_pos (by simp [hlen]), ← hlen, splitAtByte_append]
  simp [eqIgnoreAsciiCase, h]

theorem map_toLower_of_mem : ∀ pfx ∈ replyPrefixes, pfx.map Char.toLower = pfx := by decide

variable {t : Text}

theorem strips_unique {u : Text} (ht : Strips s t) (hu : Strips s u) : t = u := by
  obtain ⟨a, b, rfl, ha, rfl⟩ := ht
  obtain ⟨c, d, hs, hc, rfl⟩ := hu
  have hdisjoint : ∀ p ∈ replyPrefixes, ∀ q ∈ replyPrefixes, p <+: q → p = q := by decide
  have hlow : a.map Char.toLower ++ b.map Char.toLower =
      c.map Char.toLower ++ d.map Char.toLower := by
    rw [← map_append, hs, map_append]
  have hsame : a.map Char.toLower = c.map Char.toLower := by
    rcases append_eq_append_iff.mp hlow with ⟨m, hm, -⟩ | ⟨m, hm, -⟩
    · exact hdisjoint _ ha _ hc ⟨m, hm.symm⟩
    · exact (hdisjoint _ hc _ ha ⟨m, hm.symm⟩).symm
  have hlen : byteLen a = byteLen c := by
    rw [← byteLen_map_toLower a, hsame, byteLen_map_toLower]
  obtain ⟨-, rfl⟩ := append_inj_of_byteLen hs hlen
  rfl

theorem strips_of_stripped (h : stripped s replyPrefixes = some (some t)) :
    Strips s t := by
  obtain ⟨pfx, hpfx, hby⟩ := stripped_some h
  obtain ⟨head, tail, rfl, -, hmap, rfl⟩ := strippedBy_some hby
  rw [map_toLower_of_mem pfx hpfx] at hmap
  exact ⟨head, tail, rfl, hmap ▸ hpfx, rfl⟩

theorem not_strips_of_stripped_none (h : stripped lower pfxs = some none) (hpfx : pfx ∈ pfxs) :
    strippedBy lower pfx = some none := by
  induction pfxs with
  | nil => simp at hpfx
  | cons _ _ ih =>
    simp only [stripped] at h
    split at h
    · simp at h
    · simp at h
    · rename_i hq
      rcases mem_cons.mp hpfx with rfl | hpfx
      · exact hq
      · exact ih h hpfx

theorem stripped_cons_eq_none_iff :
    stripped lower (pfx :: pfxs) = none ↔
      strippedBy lower pfx = none ∨
        (strippedBy lower pfx = some none ∧ stripped lower pfxs = none) := by
  rw [stripped]
  split <;> simp_all

theorem startsWithRe_iff :
    StartsWithRe s ↔ ∃ t, strippedBy s "re:" = some (some t) := by
  constructor
  · rintro ⟨head, tail, rfl, hmap⟩
    exact ⟨trimStart tail, strippedBy_append (hmap.trans (by decide))⟩
  · rintro ⟨t, ht⟩
    obtain ⟨head, tail, rfl, -, hmap, -⟩ := strippedBy_some ht
    exact ⟨head, tail, rfl, hmap.trans (by decide)⟩

theorem stripped_eq_none_iff : stripped s replyPrefixes = none ↔ ¬ RoundSafe s := by
  have hre : strippedBy s "re:" = none ↔ 3 ≤ byteLen s ∧ ¬ IsBoundary 3 s :=
    strippedBy_eq_none_iff
  have hfwd : strippedBy s "fwd:" = none ↔ 4 ≤ byteLen s ∧ ¬ IsBoundary 4 s :=
    strippedBy_eq_none_iff
  have hfw : strippedBy s "fw:" = none ↔ 3 ≤ byteLen s ∧ ¬ IsBoundary 3 s :=
    strippedBy_eq_none_iff
  unfold RoundSafe replyPrefixes
  rw [stripped_cons_eq_none_iff, stripped_cons_eq_none_iff, stripped_cons_eq_none_iff,
    startsWithRe_iff, hfwd, hfw]
  -- A text that fails the first test but is cut at byte 3 leaves only the cut at byte 4.
  cases h1 : strippedBy s "re:" with
  | none => rw [h1] at hre; simp [hre.mp rfl]
  | some r =>
    rw [h1] at hre
    cases r with
    | some => simp
    | none =>
      have hthree : 3 ≤ byteLen s → IsBoundary 3 s := by simpa using hre
      simp only [stripped]
      grind

theorem stripped_of_roundSafe (hsafe : RoundSafe s) :
    (∃ t, stripped s replyPrefixes = some (some t) ∧ Strips s t) ∨
      (stripped s replyPrefixes = some none ∧ ∀ t, ¬ Strips s t) := by
  cases h : stripped s replyPrefixes with
  | none => exact absurd hsafe (stripped_eq_none_iff.mp h)
  | some r =>
    cases r with
    | some t => exact .inl ⟨t, rfl, strips_of_stripped h⟩
    | none =>
      refine .inr ⟨rfl, ?_⟩
      rintro t ⟨head, tail, rfl, hmem, -⟩
      have hby := not_strips_of_stripped_none h hmem
      rw [strippedBy_append (map_toLower_of_mem _ hmem).symm] at hby
      simp at hby

/-! ## The loop -/

theorem trimStart_of_strips (h : Strips s t) : trimStart t = t := by
  obtain ⟨head, tail, -, -, rfl⟩ := h
  exact trimStart_trimStart tail

theorem stripLoop_of_strips (hs : trimStart s = s)
    (hstrip : stripped s replyPrefixes = some (some t)) : stripLoop s = stripLoop t := by
  have hlt : byteLen t < byteLen s := byteLen_lt_of_stripped (hs.symm ▸ hstrip)
  rw [stripLoop, hs]
  split
  · simp_all
  · rename_i rest hrest
    obtain rfl : t = rest := by rw [hstrip] at hrest; simpa using hrest
    rw [if_pos (Nat.ne_of_lt hlt)]
  · simp_all

theorem stripLoop_of_none (hs : trimStart s = s) (hstrip : stripped s replyPrefixes = some none) :
    stripLoop s = some s := by
  rw [stripLoop, hs]
  split <;> simp_all

/-- From a text with no leading white space the loop returns exactly when every text a chain of
strips reaches is safe. -/
theorem stripLoop_isSome_iff (hs : trimStart s = s) :
    (stripLoop s).isSome ↔ ∀ t, Relation.ReflTransGen Strips s t → RoundSafe t := by
  induction hn : byteLen s using Nat.strong_induction_on generalizing s with
  | _ n ih =>
    by_cases hsafe : RoundSafe s
    · rcases stripped_of_roundSafe hsafe with ⟨t, hstrip, hst⟩ | ⟨hstrip, hnone⟩
      · have hlt : byteLen t < byteLen s := byteLen_lt_of_stripped (hs.symm ▸ hstrip)
        rw [stripLoop_of_strips hs hstrip, ih (byteLen t) (hn ▸ hlt) (trimStart_of_strips hst) rfl]
        constructor
        · intro hall u hu
          rcases Relation.ReflTransGen.cases_head hu with rfl | ⟨v, hv, hvu⟩
          · exact hsafe
          · rw [strips_unique hv hst] at hvu
            exact hall u hvu
        · exact fun hall u hu => hall u (Relation.ReflTransGen.head hst hu)
      · rw [stripLoop_of_none hs hstrip]
        refine ⟨fun _ u hu => ?_, fun _ => rfl⟩
        rcases Relation.ReflTransGen.cases_head hu with rfl | ⟨v, hv, -⟩
        · exact hsafe
        · exact absurd hv (hnone v)
    · have hpanic : stripLoop s = none := by
        have hnone := stripped_eq_none_iff.mpr hsafe
        rw [stripLoop, hs]
        split <;> simp_all
      rw [hpanic]
      refine ⟨fun h => by simp at h, fun hall => absurd (hall s .refl) hsafe⟩

/-- Every text the loop can work on for `subject` is cut at character boundaries only. -/
def SubjectSafe (subject : Text) : Prop :=
  ∀ t, Relation.ReflTransGen Strips (trim subject) t → RoundSafe t

theorem normalizeSubject_isSome_iff (toLowercase : Text → Text) (subject : Text) :
    (normalizeSubject toLowercase subject).isSome ↔ SubjectSafe subject := by
  rw [normalizeSubject, Option.isSome_map, stripLoop_isSome_iff (trimStart_trim subject)]
  rfl

/-! ## ASCII subjects -/

def IsAscii (s : Text) : Prop := ∀ c ∈ s, c.toNat < 128

theorem utf8Size_of_ascii {c : Char} : c.utf8Size = 1 ↔ c.toNat < 128 :=
  Char.utf8Size_eq_one_iff.trans Nat.lt_succ_iff.symm

theorem byteLen_of_ascii (hs : IsAscii s) : byteLen s = s.length := by
  induction s with
  | nil => rfl
  | cons c s ih =>
    obtain ⟨hc, hs⟩ := forall_mem_cons.mp hs
    rw [byteLen_cons, utf8Size_of_ascii.mpr hc, ih hs, length_cons, Nat.add_comm]

theorem isAscii_lower : IsAscii (s.map Char.toLower) ↔ IsAscii s := by
  simp only [IsAscii, ← utf8Size_of_ascii, forall_mem_map, utf8Size_toLower]

theorem IsAscii.suffix (hs : IsAscii s) (h : t <:+ s) : IsAscii t := fun c hc =>
  hs c (h.subset hc)

theorem roundSafe_of_ascii (hs : IsAscii s) : RoundSafe s := by
  have hcut : ∀ n, n ≤ byteLen s → IsBoundary n s := by
    intro n hn
    refine ⟨s.take n, s.drop n, (take_append_drop n s).symm, ?_⟩
    rw [byteLen_of_ascii fun c hc => hs c (mem_of_mem_take hc), length_take, ← byteLen_of_ascii hs]
    exact Nat.min_eq_left hn
  exact .inr ⟨hcut 3, hcut 4⟩

theorem suffix_of_strips (h : Strips s t) : t <:+ s := by
  obtain ⟨head, tail, rfl, -, rfl⟩ := h
  exact (trimStart_suffix tail).trans (suffix_append head tail)

theorem stripLoop_step (hs : IsAscii s) (htrim : trimStart s = s) (h : Strips s t) :
    stripLoop s = stripLoop t := by
  rcases stripped_of_roundSafe (roundSafe_of_ascii hs) with ⟨u, hstrip, hsu⟩ | ⟨-, hnone⟩
  · rw [stripLoop_of_strips htrim hstrip, strips_unique h hsu]
  · exact absurd h (hnone t)

theorem stripLoop_done (hs : IsAscii s) (htrim : trimStart s = s) (h : ∀ t, ¬ Strips s t) :
    stripLoop s = some s := by
  rcases stripped_of_roundSafe (roundSafe_of_ascii hs) with ⟨u, -, hsu⟩ | ⟨hstrip, -⟩
  · exact absurd hsu (h u)
  · exact stripLoop_of_none htrim hstrip

theorem trim_of_strips (hs : trim s = s) (h : Strips s t) : trim t = t := by
  have hend : trimEnd s = s := by
    rw [← hs]
    exact rdropWhile_idempotent _ _
  rw [trim, trimStart_of_strips h]
  refine rdropWhile_eq_self_iff.mpr fun hne => ?_
  have hsuffix := suffix_of_strips h
  rw [hsuffix.getLast hne]
  exact rdropWhile_eq_self_iff.mp hend _

/-- The loop ends at a trimmed text with no prefix left. -/
theorem stripLoop_normal (hs : IsAscii s) (htrim : trim s = s) :
    ∃ r, stripLoop s = some r ∧ IsAscii r ∧ trim r = r ∧ ∀ t, ¬ Strips r t := by
  induction hn : byteLen s using Nat.strong_induction_on generalizing s with
  | _ n ih =>
    have hstart : trimStart s = s := by rw [← htrim, trimStart_trim]
    rcases stripped_of_roundSafe (roundSafe_of_ascii hs) with ⟨t, hstrip, ht⟩ | ⟨hstrip, hnone⟩
    · have hlt : byteLen t < byteLen s := byteLen_lt_of_stripped (hstart.symm ▸ hstrip)
      rw [stripLoop_of_strips hstart hstrip]
      exact ih _ (hn ▸ hlt) (hs.suffix (suffix_of_strips ht)) (trim_of_strips htrim ht) rfl
    · exact ⟨s, stripLoop_of_none hstart hstrip, hs, htrim, hnone⟩

theorem not_strips_lower {r : Text} (h : ∀ t, ¬ Strips r t) (t : Text) :
    ¬ Strips (r.map Char.toLower) t := by
  rintro ⟨head, tail, hr, hmem, -⟩
  obtain ⟨head, tail, rfl, rfl, -⟩ := map_eq_append_iff.mp hr
  rw [map_toLower_toLower] at hmem
  exact h _ ⟨head, tail, rfl, hmem, rfl⟩

/-- One prefix in any letter case with the white space after it is one round of the loop. -/
theorem strips_trim {head space : Text} (hhead : head.map Char.toLower ∈ replyPrefixes)
    (hspace : ∀ c ∈ space, isWhitespace c) : Strips (trim (head ++ space ++ s)) (trim s) := by
  have hends : ∀ pfx ∈ replyPrefixes, pfx.getLast? = some ':' ∧ pfx.head?.all (!isWhitespace ·) := by
    decide
  obtain ⟨hlast, hfirst⟩ := hends _ hhead
  obtain ⟨body, rfl⟩ : ∃ body, head = body ++ [':'] := by
    rw [getLast?_map] at hlast
    obtain ⟨c, hc, hcolon⟩ := Option.map_eq_some_iff.mp hlast
    obtain rfl := eq_of_toLower_eq (by decide) hcolon
    exact getLast?_eq_some_iff.mp hc
  have hstart : trimStart (body ++ [':'] ++ space ++ s) = body ++ [':'] ++ space ++ s := by
    refine trimStart_eq_self_iff.mpr fun c hc => ?_
    rw [← isWhitespace_toLower]
    cases body with
    | nil => exact absurd hhead (by decide)
    | cons d =>
      obtain rfl : d = c := by simpa using hc
      simpa using hfirst
  have hend : trim (body ++ [':'] ++ space ++ s) = body ++ [':'] ++ trimEnd (space ++ s) := by
    rw [trim, hstart, append_assoc, append_assoc, singleton_append, append_assoc, singleton_append]
    exact rdropWhile_append_cons (by decide) body (space ++ s)
  refine ⟨body ++ [':'], trimEnd (space ++ s), hend, hhead, ?_⟩
  have hgap : trim (space ++ s ++ []) = trim s := trim_around hspace (by simp)
  rw [trimStart_trimEnd, ← hgap, append_nil]

theorem IsAscii.trim (hs : IsAscii s) : IsAscii (trim s) := fun c hc =>
  hs c ((trimStart_suffix s).subset (( rdropWhile_prefix _ _).subset hc))

theorem stripLoop_marks {marks : List (Text × Text)} (hs : IsAscii s)
    (hmarks : ∀ m ∈ marks, m.1.map Char.toLower ∈ replyPrefixes ∧
      ∀ c ∈ m.2, isWhitespace c ∧ c.toNat < 128) :
    IsAscii (marks.flatMap (fun m => m.1 ++ m.2) ++ s) ∧
      stripLoop (trim (marks.flatMap (fun m => m.1 ++ m.2) ++ s)) = stripLoop (trim s) := by
  have hplain : ∀ pfx ∈ replyPrefixes, ∀ c ∈ pfx, c.toNat < 128 := by decide
  induction marks with
  | nil => exact ⟨hs, rfl⟩
  | cons m marks ih =>
    obtain ⟨⟨hhead, hspace⟩, hmarks⟩ := forall_mem_cons.mp hmarks
    obtain ⟨hrest, hloop⟩ := ih hmarks
    rw [flatMap_cons, append_assoc]
    have hwhole : IsAscii (m.1 ++ m.2 ++ (marks.flatMap (fun m => m.1 ++ m.2) ++ s)) := by
      have hfirst : IsAscii m.1 := isAscii_lower.mp (hplain _ hhead)
      simp only [IsAscii, mem_append, or_imp, forall_and] at hrest ⊢
      exact ⟨⟨hfirst, fun c hc => (hspace c hc).2⟩, hrest⟩
    refine ⟨hwhole, ?_⟩
    rw [stripLoop_step hwhole.trim (trimStart_trim _) (strips_trim hhead fun c hc => (hspace c hc).1),
      hloop]

/-- Subjects that differ in their reply prefixes and the white space around them are normalised to
one text, which has neither and is left as it is by another normalisation. -/
theorem normalizeSubject_ascii {toLowercase : Text → Text}
    (hlower : ∀ s : Text, IsAscii s → toLowercase s = s.map Char.toLower) {s : Text} (hs : IsAscii s) :
    ∃ r, normalizeSubject toLowercase s = some r ∧
      (∀ (marks : List (Text × Text)) (before after : Text),
        (∀ m ∈ marks, m.1.map Char.toLower ∈ replyPrefixes ∧
          ∀ c ∈ m.2, isWhitespace c ∧ c.toNat < 128) →
        (∀ c ∈ before ++ after, isWhitespace c) →
        normalizeSubject toLowercase (before ++ (marks.flatMap (fun m => m.1 ++ m.2) ++ s) ++ after) =
          some r) ∧
      (∀ t, ¬ Strips r t) ∧ trim r = r ∧ normalizeSubject toLowercase r = some r := by
  obtain ⟨r, hr, hascii, htrim, hnone⟩ := stripLoop_normal hs.trim (trim_trim s)
  have hlowered : IsAscii (r.map Char.toLower) := isAscii_lower.mpr hascii
  have hblank : trim (r.map Char.toLower) = r.map Char.toLower := by rw [trim_lower, htrim]
  refine ⟨r.map Char.toLower, ?_, fun marks before after hmarks haround => ?_, not_strips_lower hnone,
    hblank, ?_⟩
  · rw [normalizeSubject, hr, Option.map_some, hlower r hascii]
  · rw [normalizeSubject, trim_around (fun c hc => haround c (mem_append_left _ hc))
      fun c hc => haround c (mem_append_right _ hc), (stripLoop_marks hs hmarks).2, hr, Option.map_some,
      hlower r hascii]
  · have hstart : trimStart (r.map Char.toLower) = r.map Char.toLower := by
      rw [← hblank, trimStart_trim]
    rw [normalizeSubject, hblank, stripLoop_done hlowered hstart (not_strips_lower hnone),
      Option.map_some, hlower _ hlowered, map_toLower_toLower]

theorem normalizeSubject_ascii_hello :
    ∃ r, normalizeSubject (List.map Char.toLower) "Hello" = some r ∧
      normalizeSubject (List.map Char.toLower) " Fw:\tRE: Hello " = some r := by
  obtain ⟨r, hr, hmarks, -⟩ := @normalizeSubject_ascii (List.map Char.toLower) (fun _ _ => rfl)
    "Hello" (by unfold IsAscii; decide)
  exact ⟨r, hr, hmarks [("Fw:", "\t"), ("RE:", " ")] " " " "
    (by decide) (by decide)⟩

end Litterae.Store
