import Mathlib.Algebra.Ring.Int.Defs
import Mathlib.Data.List.Basic
import Mathlib.Data.List.DropRight

/-! # Text as a list of characters with UTF-8 byte offsets

A `Text` is a sequence of Unicode scalar values; a program that holds it in UTF-8 measures and
slices it by bytes.
-/

namespace Foundations

open List Option

abbrev Text := List Char

abbrev Bytes := List UInt8

instance : Coe String Text := ⟨String.toList⟩

/-- A property of a list's elements is decided along the list, also where its type is finite. -/
instance (priority := 2000) decidableForallMem {α : Type*} (l : List α) (p : α → Prop)
    [DecidablePred p] : Decidable (∀ a ∈ l, p a) :=
  decidableBAll p l

variable {s : Text} {n : ℕ} {sep : Char}

/-! ## Byte lengths and cuts -/

def byteLen : Text → ℕ
  | [] => 0
  | c :: s => c.utf8Size + byteLen s

def utf8 (s : Text) : Bytes := s.flatMap String.utf8EncodeChar

@[simp] theorem byteLen_nil : byteLen [] = 0 := rfl

@[simp] theorem byteLen_cons (c : Char) : byteLen (c :: s) = c.utf8Size + byteLen s := rfl

@[simp] theorem byteLen_append (s t : Text) : byteLen (s ++ t) = byteLen s + byteLen t := by
  induction s with
  | nil => simp
  | cons c s ih => simp [ih, Nat.add_assoc]

theorem byteLen_eq_zero : byteLen s = 0 ↔ s = [] := by
  cases s with
  | nil => simp
  | cons c => simp [Nat.ne_of_gt c.utf8Size_pos]

theorem byteLen_le_of_suffix {s t : Text} (h : s <:+ t) : byteLen s ≤ byteLen t := by
  obtain ⟨u, rfl⟩ := h
  simp

theorem append_inj_of_byteLen {a b c d : Text} (h : a ++ b = c ++ d)
    (hlen : byteLen a = byteLen c) : a = c ∧ b = d := by
  induction a generalizing c with
  | nil =>
    obtain rfl := byteLen_eq_zero.mp hlen.symm
    exact ⟨rfl, h⟩
  | cons x a ih =>
    cases c with
    | nil =>
      have := x.utf8Size_pos
      simp only [byteLen_cons, byteLen_nil] at hlen
      omega
    | cons =>
      simp only [cons_append, List.cons.injEq] at h
      obtain ⟨rfl, h⟩ := h
      obtain ⟨rfl, rfl⟩ := ih h (by simpa using hlen)
      exact ⟨rfl, rfl⟩

/-- The parts of `s` before and after byte offset `n`, when `n` is a character boundary of `s`. -/
def splitAtByte : ℕ → Text → Option (Text × Text)
  | 0, s => some ([], s)
  | _ + 1, [] => none
  | n + 1, c :: s =>
    if c.utf8Size ≤ n + 1 then
      (splitAtByte (n + 1 - c.utf8Size) s).map fun p => (c :: p.1, p.2)
    else none

def IsBoundary (n : ℕ) (s : Text) : Prop := ∃ a b, s = a ++ b ∧ byteLen a = n

theorem splitAtByte_append (a b : Text) : splitAtByte (byteLen a) (a ++ b) = some (a, b) := by
  induction a with
  | nil => simp [splitAtByte]
  | cons c a ih =>
    have hpos := c.utf8Size_pos
    obtain ⟨n, hn⟩ : ∃ n, byteLen (c :: a) = n + 1 := ⟨c.utf8Size + byteLen a - 1, by
      simp only [byteLen_cons]; omega⟩
    have hrest : n + 1 - c.utf8Size = byteLen a := by simp only [byteLen_cons] at hn; omega
    have hle : c.utf8Size ≤ n + 1 := by simp only [byteLen_cons] at hn; omega
    rw [hn, cons_append, splitAtByte, if_pos hle, hrest, ih]
    rfl

theorem append_of_splitAtByte {s a b : Text} (h : splitAtByte n s = some (a, b)) :
    s = a ++ b ∧ byteLen a = n := by
  induction s generalizing n a b with
  | nil =>
    cases n with
    | zero => simp only [splitAtByte, some.injEq, Prod.mk.injEq] at h; simp [← h.1, ← h.2]
    | succ => simp [splitAtByte] at h
  | cons c s ih =>
    cases n with
    | zero => simp only [splitAtByte, some.injEq, Prod.mk.injEq] at h; simp [← h.1, ← h.2]
    | succ =>
      simp only [splitAtByte] at h
      split at h
      · rename_i hle
        obtain ⟨⟨a', b'⟩, hp, hab⟩ := map_eq_some_iff.mp h
        obtain ⟨rfl, rfl⟩ := hab
        obtain ⟨rfl, hlen⟩ := ih hp
        refine ⟨rfl, ?_⟩
        simp only [byteLen_cons]
        omega
      · simp at h

theorem splitAtByte_eq_some_iff {s a b : Text} :
    splitAtByte n s = some (a, b) ↔ s = a ++ b ∧ byteLen a = n := by
  refine ⟨append_of_splitAtByte, ?_⟩
  rintro ⟨rfl, rfl⟩
  exact splitAtByte_append a b

theorem splitAtByte_isSome_iff :
    (splitAtByte n s).isSome ↔ IsBoundary n s := by
  rw [isSome_iff_exists]
  constructor
  · rintro ⟨⟨a, b⟩, h⟩
    exact ⟨a, b, append_of_splitAtByte h⟩
  · rintro ⟨a, b, h⟩
    exact ⟨(a, b), splitAtByte_eq_some_iff.mpr h⟩

instance (n : ℕ) (s : Text) : Decidable (IsBoundary n s) :=
  decidable_of_iff _ splitAtByte_isSome_iff

/-! ## White space -/

/-- The code points with the Unicode `White_Space` property, `char::is_whitespace`. -/
def isWhitespace (c : Char) : Bool :=
  let n := c.toNat
  (9 ≤ n && n ≤ 13) || n == 32 || n == 0x85 || n == 0xA0 || n == 0x1680 ||
    (0x2000 ≤ n && n ≤ 0x200A) || n == 0x2028 || n == 0x2029 || n == 0x202F || n == 0x205F ||
    n == 0x3000

def trimStart (s : Text) : Text := s.dropWhile isWhitespace

def trimEnd (s : Text) : Text := s.rdropWhile isWhitespace

def trim (s : Text) : Text := trimEnd (trimStart s)

theorem rdropWhile_append_cons {α : Type} {p : α → Bool} {x : α} (hx : ¬ p x) (xs ys : List α) :
    (xs ++ x :: ys).rdropWhile p = xs ++ x :: ys.rdropWhile p := by
  induction ys using List.reverseRecOn with
  | nil => rw [rdropWhile_concat_neg _ _ _ hx, rdropWhile_nil]
  | append_singleton _ y ih =>
    rw [← cons_append, ← append_assoc]
    by_cases hy : p y
    · rw [rdropWhile_concat_pos _ _ _ hy, rdropWhile_concat_pos _ _ _ hy, ih]
    · rw [rdropWhile_concat_neg _ _ _ hy, rdropWhile_concat_neg _ _ _ hy]
      simp

@[simp] theorem trimStart_trimStart (s : Text) : trimStart (trimStart s) = trimStart s :=
  dropWhile_idempotent _ _

theorem trimStart_eq_self_iff :
    trimStart s = s ↔ ∀ c ∈ s.head?, isWhitespace c = false := by
  cases s with
  | nil => simp [trimStart]
  | cons c s =>
    simp only [trimStart, dropWhile_cons, List.head?_cons, mem_some_iff, forall_eq']
    split
    · rename_i h
      refine ⟨fun he => ?_, fun he => by simp [h] at he⟩
      have := congrArg List.length he
      have hle := (dropWhile_suffix isWhitespace (l := s)).length_le
      simp only [length_cons] at this
      omega
    · rename_i h
      simpa using h

theorem trimStart_trim (s : Text) : trimStart (trim s) = trim s := by
  have hself := trimStart_eq_self_iff.mp (trimStart_trimStart s)
  rw [trimStart_eq_self_iff]
  intro c hc
  have hpre : trim s <+: trimStart s := rdropWhile_prefix _ _
  obtain ⟨t, ht⟩ := hpre
  refine hself c ?_
  cases hs : trim s with
  | nil => rw [hs] at hc; simp at hc
  | cons => rw [hs] at hc ht; rw [← ht]; simpa using hc

theorem trimStart_suffix (s : Text) : trimStart s <:+ s := dropWhile_suffix _

theorem trimStart_trimEnd : trimStart (trimEnd s) = trim s := by
  cases hs : trimStart s with
  | nil =>
    have hall : ∀ c ∈ s, isWhitespace c := dropWhile_eq_nil_iff.mp hs
    have hnil : trimEnd s = [] := rdropWhile_eq_nil_iff.mpr hall
    rw [trim, hs, hnil]
    rfl
  | cons c rest =>
    have hc : isWhitespace c = false := by
      refine trimStart_eq_self_iff.mp (trimStart_trimStart s) c ?_
      rw [hs]
      rfl
    have hsplit : s = s.takeWhile isWhitespace ++ c :: rest := by
      rw [← hs, trimStart, takeWhile_append_dropWhile]
    have hend : trimEnd s = s.takeWhile isWhitespace ++ c :: trimEnd rest := by
      conv_lhs => rw [hsplit]
      exact rdropWhile_append_cons (by simp [hc]) _ _
    rw [hend, trim, hs, trimStart, dropWhile_append_of_pos fun _ => mem_takeWhile_imp,
      dropWhile_cons_of_neg (by simp [hc])]
    exact (rdropWhile_append_cons (by simp [hc]) [] rest).symm

theorem trim_trim (s : Text) : trim (trim s) = trim s := by
  rw [trim, trimStart_trim]
  exact rdropWhile_idempotent _ _

theorem trim_around {before s after : Text} (hbefore : ∀ c ∈ before, isWhitespace c)
    (hafter : ∀ c ∈ after, isWhitespace c) : trim (before ++ s ++ after) = trim s := by
  have hend : trimEnd (s ++ after) = trimEnd s := by
    rw [trimEnd, rdropWhile, reverse_append,
      dropWhile_append_of_pos fun c hc => hafter c (mem_reverse.mp hc)]
    rfl
  rw [trim, append_assoc, trimStart, dropWhile_append_of_pos hbefore]
  change trim (s ++ after) = trim s
  rw [← trimStart_trimEnd, hend, trimStart_trimEnd]

/-! ## ASCII case and separators -/

def eqIgnoreAsciiCase (s t : Text) : Bool := s.map Char.toLower == t.map Char.toLower

theorem eq_of_toLower_eq {c d : Char} (hd : ¬ ('a'.val ≤ d.val ∧ d.val ≤ 'z'.val)) (h : c.toLower = d) :
    c = d := by
  unfold Char.toLower at h
  split at h
  · rename_i hupper
    obtain ⟨hlow, hhigh⟩ := hupper
    refine absurd ?_ hd
    rw [← h]
    change (65 : UInt32) ≤ c.val at hlow
    rw [UInt32.le_iff_toNat_le] at hlow hhigh
    simp only [UInt32.le_iff_toNat_le, UInt32.toNat_add]
    simp at hlow hhigh ⊢
    omega
  · exact h

theorem toLower_toLower (c : Char) : c.toLower.toLower = c.toLower := by
  by_cases hc : 'a'.val ≤ c.toLower.val ∧ c.toLower.val ≤ 'z'.val
  · have hsmall : ¬ (c.toLower.val ≥ 'A'.val ∧ c.toLower.val ≤ 'Z'.val) := by
      rintro ⟨-, hle⟩
      exact absurd (UInt32.le_trans hc.1 hle) (by decide)
    generalize c.toLower = d at hsmall
    unfold Char.toLower
    rw [dif_neg hsmall]
  · have hsame : c = c.toLower := eq_of_toLower_eq hc rfl
    rw [← hsame, ← hsame]

theorem map_toLower_toLower : (s.map Char.toLower).map Char.toLower = s.map Char.toLower := by
  rw [List.map_map]
  exact map_congr_left fun c _ => toLower_toLower c

theorem utf8Size_toLower (c : Char) : c.toLower.utf8Size = c.utf8Size := by
  unfold Char.toLower
  split
  · rename_i h
    have hupper : c.val ≤ 90 := h.2
    have hc : c.utf8Size = 1 := Char.utf8Size_eq_one_iff.mpr (by
      exact Nat.le_trans hupper (by decide))
    have hdiff : 'a'.val - 'A'.val = 32 := by decide
    have hl : c.val + ('a'.val - 'A'.val) ≤ 127 := by
      rw [hdiff, UInt32.le_iff_toNat_le, UInt32.toNat_add]
      rw [UInt32.le_iff_toNat_le] at hupper
      simp at hupper ⊢
      omega
    rw [hc, Char.utf8Size_eq_one_iff]
    exact hl
  · rfl

@[simp] theorem byteLen_map_toLower (s : Text) : byteLen (s.map Char.toLower) = byteLen s := by
  induction s with
  | nil => rfl
  | cons c s ih => simp [ih, utf8Size_toLower]

theorem isWhitespace_toLower (c : Char) : isWhitespace c.toLower = isWhitespace c := by
  have hletter : ∀ d : Char, 65 ≤ d.toNat → d.toNat ≤ 122 → isWhitespace d = false := by
    intro d hlow hhigh
    simp only [isWhitespace, Bool.or_eq_false_iff, Bool.and_eq_false_iff, decide_eq_false_iff_not,
      beq_eq_false_iff_ne]
    omega
  by_cases hsmall : 'a'.val ≤ c.toLower.val ∧ c.toLower.val ≤ 'z'.val
  · rw [hletter c.toLower (Nat.le_trans (by decide) hsmall.1) hsmall.2]
    unfold Char.toLower at hsmall
    split at hsmall
    · next hupper => exact (hletter c hupper.1 (Nat.le_trans hupper.2 (by decide))).symm
    · exact (hletter c (Nat.le_trans (by decide) hsmall.1) hsmall.2).symm
  · rw [← eq_of_toLower_eq hsmall rfl]

theorem trim_lower : trim (s.map Char.toLower) = (trim s).map Char.toLower := by
  have hwhite : isWhitespace ∘ Char.toLower = isWhitespace := funext isWhitespace_toLower
  simp only [trim, trimEnd, trimStart, rdropWhile, dropWhile_map, ← map_reverse, hwhite]

theorem splitOn_map_toLower (hlower : sep.toLower = sep)
    (hsep : ¬ ('a'.val ≤ sep.val ∧ sep.val ≤ 'z'.val)) :
    (s.map Char.toLower).splitOn sep = (s.splitOn sep).map (List.map Char.toLower) := by
  simp only [List.splitOn]
  induction s with
  | nil => rfl
  | cons c s ih =>
    have hc : (c.toLower == sep) = (c == sep) := by
      rw [Bool.eq_iff_iff, beq_iff_eq, beq_iff_eq]
      exact ⟨eq_of_toLower_eq hsep, fun h => h ▸ hlower⟩
    rw [map_cons, splitOnP_cons_eq_if_modifyHead, splitOnP_cons_eq_if_modifyHead,
      hc, ih]
    split
    · rfl
    · cases s.splitOnP (· == sep) <;> rfl

/-- `split_once`: the parts before and after the first occurrence. -/
def splitOnce {α : Type} [DecidableEq α] (a : α) : List α → Option (List α × List α)
  | [] => none
  | b :: s => if b = a then some ([], s) else (splitOnce a s).map fun p => (b :: p.1, p.2)

theorem splitOnce_eq_some_iff {α : Type} [DecidableEq α] {a : α} {s l r : List α} :
    splitOnce a s = some (l, r) ↔ s = l ++ a :: r ∧ a ∉ l := by
  induction s generalizing l with
  | nil => simp [splitOnce]
  | cons b s ih =>
    by_cases hb : b = a
    · subst hb
      cases l with
      | nil => simp [splitOnce]
      | cons =>
        simp only [splitOnce, if_true, some.injEq, Prod.mk.injEq, cons_append,
          List.cons.injEq, mem_cons, not_or]
        constructor
        · rintro ⟨h, -⟩
          cases h
        · rintro ⟨⟨rfl, -⟩, hne, -⟩
          exact absurd rfl hne
    · cases l with
      | nil => simp [splitOnce, hb]
      | cons c l =>
        have hne : ∀ c, b = c → ¬ a = c := fun c hc ha => hb (hc.trans ha.symm)
        simp only [splitOnce, hb, if_false, map_eq_some_iff, Prod.mk.injEq, List.cons.injEq,
          cons_append, mem_cons, not_or, Prod.exists]
        constructor
        · rintro ⟨l', r', hs, ⟨rfl, rfl⟩, rfl⟩
          exact ⟨⟨rfl, (ih.mp hs).1⟩, hne b rfl, (ih.mp hs).2⟩
        · rintro ⟨⟨rfl, hs⟩, -, hl⟩
          exact ⟨l, r, ih.mpr ⟨hs, hl⟩, ⟨rfl, rfl⟩, rfl⟩

/-- `rsplit_once`: the parts around the last occurrence of `sep`. -/
def rsplitOnce (sep : Char) (s : Text) : Option (Text × Text) :=
  if sep ∈ s then
    some ((s.reverse.dropWhile (· != sep)).tail.reverse, (s.reverse.takeWhile (· != sep)).reverse)
  else none

theorem rsplitOnce_append {l r : Text} (hr : sep ∉ r) :
    rsplitOnce sep (l ++ sep :: r) = some (l, r) := by
  have hne : ∀ c ∈ r.reverse, (c != sep) = true := fun c hc =>
    bne_iff_ne.mpr fun heq => hr (heq ▸ mem_reverse.mp hc)
  have hrev : (l ++ sep :: r).reverse = r.reverse ++ sep :: l.reverse := by simp
  rw [rsplitOnce, if_pos (by simp), hrev, dropWhile_append_of_pos hne,
    takeWhile_append_of_pos hne]
  simp

/-- The number a run of decimal digits denotes; `none` off the digits or without any. -/
def parseDigits (s : Text) : Option ℕ :=
  if s.isEmpty || !s.all Char.isDigit then none
  else some (s.foldl (fun n c => n * 10 + (c.toNat - '0'.toNat)) 0)

def parseI64 (s : Text) : Option ℤ :=
  let value : Option ℤ := match s with
    | '-' :: digits => (parseDigits digits).map fun n => -(n : ℤ)
    | '+' :: digits => (parseDigits digits).map fun n => (n : ℤ)
    | digits => (parseDigits digits).map fun n => (n : ℤ)
  value.filter fun n => decide (-2 ^ 63 ≤ n) && decide (n < 2 ^ 63)

/-! ## Hexadecimal digits -/

def upperHex (n : ℕ) : Char := if n < 10 then Char.ofNat (48 + n) else Char.ofNat (55 + n)

def hexValue (c : Char) : Option ℕ :=
  if c.isDigit then some (c.toNat - 48)
  else if 'A' ≤ c ∧ c ≤ 'F' then some (c.toNat - 55)
  else if 'a' ≤ c ∧ c ≤ 'f' then some (c.toNat - 87)
  else none

theorem hexValue_upperHex : ∀ n < 16, hexValue (upperHex n) = some n := by decide

/-! ## Words -/

def join (sep : Text) (parts : List Text) : Text := sep.intercalate parts

def splitWhitespace (s : Text) : List Text := (s.splitOnP isWhitespace).filter fun w => !w.isEmpty

end Foundations
