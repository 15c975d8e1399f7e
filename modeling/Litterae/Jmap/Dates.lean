import Litterae.Jmap.EmailGet
import Mathlib.Data.Int.ConditionallyCompleteOrder
import Mathlib.Tactic.IntervalCases

/-! # Dates (`jmap/src/email.rs`)

`civil_from_days` against the Gregorian calendar carried on in both directions, and `iso8601` against
the instants its texts stand for.
-/

namespace Litterae.Jmap
open Foundations List
open Queue (showInt)

/-! ## The calendar -/

def leapDay (y : ℤ) : ℕ := if y % 4 = 0 ∧ (y % 100 ≠ 0 ∨ y % 400 = 0) then 1 else 0

def monthLength (y : ℤ) (m : ℕ) : ℕ :=
  if m = 2 then 28 + leapDay y else if m = 4 ∨ m = 6 ∨ m = 9 ∨ m = 11 then 30 else 31

/-- From the first day of 1970 to the first of `y`. -/
def daysBeforeYear (y : ℤ) : ℤ :=
  365 * (y - 1970) + ((y - 1) / 4 - (y - 1) / 100 + (y - 1) / 400 - 477)

def daysInMonths (y : ℤ) : ℕ → ℕ
  | 0 => 0
  | k + 1 => daysInMonths y k + monthLength y (k + 1)

structure ValidDate (date : ℤ × ℕ × ℕ) : Prop where
  month : 1 ≤ date.2.1 ∧ date.2.1 ≤ 12
  day : 1 ≤ date.2.2 ∧ date.2.2 ≤ monthLength date.1 date.2.1

def dayCount (date : ℤ × ℕ × ℕ) : ℤ :=
  daysBeforeYear date.1 + daysInMonths date.1 (date.2.1 - 1) + date.2.2 - 1

def Earlier (a b : ℤ × ℕ × ℕ) : Prop :=
  a.1 < b.1 ∨ a.1 = b.1 ∧ (a.2.1 < b.2.1 ∨ a.2.1 = b.2.1 ∧ a.2.2 < b.2.2)

theorem daysBeforeYear_succ (y : ℤ) : daysBeforeYear (y + 1) = daysBeforeYear y + 365 + leapDay y := by
  unfold daysBeforeYear leapDay
  split <;> omega

theorem daysBeforeYear_mono : Monotone daysBeforeYear := by
  refine monotone_int_of_le_succ fun y => ?_
  rw [daysBeforeYear_succ]
  omega

theorem daysInMonths_mono (y : ℤ) : Monotone (daysInMonths y) :=
  monotone_nat_of_le_succ fun _ => Nat.le_add_right _ _

theorem daysInMonths_year (y : ℤ) : daysInMonths y 12 = 365 + leapDay y := by
  simp [daysInMonths, monthLength]
  omega

section
variable {a b : ℤ × ℕ × ℕ}

theorem dayCount_lt (ha : ValidDate a) (hb : ValidDate b) (h : Earlier a b) :
    dayCount a < dayCount b := by
  have hmonth : daysInMonths a.1 (a.2.1 - 1) + a.2.2 ≤ daysInMonths a.1 a.2.1 := by
    obtain ⟨k, hk⟩ : ∃ k, a.2.1 = k + 1 := ⟨a.2.1 - 1, by have := ha.month; omega⟩
    have hday := ha.day.2
    rw [hk] at hday ⊢
    exact Nat.add_le_add_left hday _
  have hfirst := hb.day.1
  unfold dayCount
  rcases h with hy | ⟨hy, hm | ⟨hm, hd⟩⟩
  · have hyear := daysInMonths_mono a.1 ha.month.2
    have hnext := daysBeforeYear_mono (Int.add_one_le_of_lt hy)
    rw [daysInMonths_year] at hyear
    rw [daysBeforeYear_succ] at hnext
    omega
  · have hlater := daysInMonths_mono a.1 (Nat.le_sub_one_of_lt hm)
    rw [← hy]
    omega
  · rw [← hy, ← hm]
    omega

theorem earlier_or_eq (a b : ℤ × ℕ × ℕ) : Earlier a b ∨ a = b ∨ Earlier b a := by
  obtain ⟨y, m, d⟩ := a
  obtain ⟨y', m', d'⟩ := b
  simp only [Earlier, Prod.mk.injEq]
  omega

theorem dayCount_lt_iff (ha : ValidDate a) (hb : ValidDate b) : dayCount a < dayCount b ↔ Earlier a b := by
  refine ⟨fun h => ?_, dayCount_lt ha hb⟩
  rcases earlier_or_eq a b with hab | rfl | hba
  · exact hab
  · exact absurd h (lt_irrefl _)
  · exact absurd h (lt_asymm (dayCount_lt hb ha hba))

theorem dayCount_inj (ha : ValidDate a) (hb : ValidDate b) (h : dayCount a = dayCount b) : a = b := by
  rcases earlier_or_eq a b with hab | hab | hba
  · exact absurd h (ne_of_lt (dayCount_lt ha hb hab))
  · exact hab
  · exact absurd h (ne_of_gt (dayCount_lt hb ha hba))

end

/-! ## The algorithm -/

/-- A day of an era in the years, from March on, that it is made of: centuries, groups of four years,
years and days. -/
theorem era_split {doe : ℕ} (h : doe < 146097) :
    ∃ c q r d, doe = 36524 * c + 1461 * q + 365 * r + d ∧ c ≤ 3 ∧ q ≤ 24 ∧ r ≤ 3 ∧ d ≤ 365 ∧
      (d = 365 → r = 3 ∧ (q < 24 ∨ c = 3)) := by
  obtain ⟨c, m, hc, hc3, hm⟩ : ∃ c m, doe = 36524 * c + m ∧ c ≤ 3 ∧ (m < 36524 ∨ c = 3 ∧ m = 36524) :=
    ⟨min (doe / 36524) 3, doe - 36524 * min (doe / 36524) 3, by omega, by omega, by omega⟩
  obtain ⟨q, n, hq, hq24, hn⟩ : ∃ q n, m = 1461 * q + n ∧ q ≤ 24 ∧ n < 1461 :=
    ⟨m / 1461, m % 1461, by omega, by omega, by omega⟩
  obtain ⟨r, d, hr, hr3, hd⟩ : ∃ r d, n = 365 * r + d ∧ r ≤ 3 ∧ (d < 365 ∨ r = 3 ∧ d = 365) :=
    ⟨min (n / 365) 3, n - 365 * min (n / 365) 3, by omega, by omega, by omega⟩
  exact ⟨c, q, r, d, by omega, hc3, hq24, hr3, by omega, by omega⟩

theorem yoe_eq {doe c q r d : ℕ} (h : doe = 36524 * c + 1461 * q + 365 * r + d) (hc : c ≤ 3) (hq : q ≤ 24)
    (hr : r ≤ 3) (hd : d ≤ 365) (hlast : d = 365 → r = 3 ∧ (q < 24 ∨ c = 3)) :
    (doe - doe / 1460 + doe / 36524 - doe / 146096) / 365 = 100 * c + 4 * q + r := by
  have hfour : doe / 1460 = 25 * c + q + (24 * c + q + 365 * r + d) / 1460 := by omega
  have hcentury : doe / 36524 = c ∧ doe / 146096 = 0 ∨
      c = 3 ∧ doe / 36524 = 4 ∧ doe / 146096 = 1 ∧ doe = 146096 := by omega
  rw [hfour]
  rcases hcentury with ⟨h3, h4⟩ | ⟨rfl, h3, h4, h5⟩
  · rw [h3, h4]
    omega
  · rw [h3, h4]
    omega

theorem era_eq (z : ℤ) : (if 0 ≤ z then z else z - 146096).tdiv 146097 = z / 146097 := by
  have hsign : Int.sign 146097 = 1 := rfl
  rw [Int.tdiv_eq_ediv, hsign]
  split <;> split <;> omega

/-- Days up to the first of March of a year. -/
theorem daysBeforeMarch {e y : ℤ} {c q r : ℕ} (hc : c ≤ 3) (hq : q ≤ 24) (hr : r ≤ 3)
    (hy : y = (100 * c + 4 * q + r : ℕ) + e * 400) :
    daysBeforeYear y + 59 + leapDay y = e * 146097 + (36524 * c + 1461 * q + 365 * r) - 719468 := by
  unfold daysBeforeYear leapDay
  split <;> omega

/-- The month and the day of a day of the year that starts in March. -/
theorem civil_of_march {y : ℤ} {d : ℕ} (hd : d ≤ 365) (hlast : d = 365 → leapDay (y + 1) = 1) :
    let mp := (5 * d + 2) / 153
    let m := if mp < 10 then mp + 3 else mp - 9
    let date := (if m ≤ 2 then y + 1 else y, m, d - (153 * mp + 2) / 5 + 1)
    ValidDate date ∧ dayCount date = daysBeforeYear y + 59 + leapDay y + d := by
  obtain ⟨mp, hmp⟩ : ∃ mp, (5 * d + 2) / 153 = mp := ⟨_, rfl⟩
  have hle : mp ≤ 11 := by omega
  have hnext := daysBeforeYear_succ y
  simp only [hmp]
  interval_cases mp
  all_goals
    refine ⟨⟨by simp, by simp [monthLength]; omega⟩, ?_⟩
    simp +decide only [dayCount, daysInMonths, monthLength, reduceIte, Nat.reduceSub]
    omega

theorem civilFromDays_spec (z : ℤ) : ValidDate (civilFromDays z) ∧ dayCount (civilFromDays z) = z := by
  have hz : z + 719468 = (z + 719468) / 146097 * 146097 +
      (z + 719468 - (z + 719468) / 146097 * 146097).toNat := by omega
  have hdoe : (z + 719468 - (z + 719468) / 146097 * 146097).toNat < 146097 := by omega
  unfold civilFromDays
  simp only [era_eq]
  generalize (z + 719468 - (z + 719468) / 146097 * 146097).toNat = doe at hz hdoe ⊢
  generalize (z + 719468) / 146097 = e at hz ⊢
  obtain ⟨c, q, r, d, h, hc, hq, hr, hd, hlast⟩ := era_split hdoe
  have hdoy : doe - (365 * (100 * c + 4 * q + r) + (100 * c + 4 * q + r) / 4 -
      (100 * c + 4 * q + r) / 100) = d := by
    have hfour : (100 * c + 4 * q + r) / 4 = 25 * c + q := by omega
    have hcentury : (100 * c + 4 * q + r) / 100 = c := by omega
    omega
  rw [yoe_eq h hc hq hr hd hlast, hdoy]
  generalize hy : ((100 * c + 4 * q + r : ℕ) : ℤ) + e * 400 = y
  have hmarch := daysBeforeMarch hc hq hr hy.symm
  have hleap : d = 365 → leapDay (y + 1) = 1 := by
    intro hlong
    rw [leapDay, if_pos (by have := hlast hlong; omega)]
  obtain ⟨hvalid, hcount⟩ := civil_of_march hd hleap
  refine ⟨hvalid, hcount.trans ?_⟩
  omega

/-! ## Texts of instants -/

/-- The digits of `n` with zeros in front, `w` characters if they fit. -/
def padded (w n : ℕ) : Text := List.replicate (w - (Nat.toDigits 10 n).length) '0' ++ Nat.toDigits 10 n

theorem zeroPadded_eq (w : ℕ) (n : ℤ) :
    zeroPadded w n = if n < 0 then '-' :: padded (w - 1) n.natAbs else padded w n.natAbs := by
  have hdigits : showInt n.natAbs = Nat.toDigits 10 n.natAbs := Nat.toList_repr
  rw [zeroPadded, hdigits]
  rfl

theorem value_padded (w n : ℕ) : Nat.ofDigitChars 10 (padded w n) 0 = n := by
  rw [padded, Nat.ofDigitChars_append, Nat.ofDigitChars_replicate_zero, Nat.mul_zero,
    Nat.ofDigitChars_ten_toDigits]

theorem isDigit_of_mem_padded {w n : ℕ} {c : Char} (hc : c ∈ padded w n) : c.isDigit := by
  rcases mem_append.mp hc with hzero | hdigit
  · obtain rfl := eq_of_mem_replicate hzero
    rfl
  · exact Nat.isDigit_of_mem_toDigits (by decide) (by decide) hdigit

theorem zeroPadded_inj {w : ℕ} {m n : ℤ} (h : zeroPadded w m = zeroPadded w n) : m = n := by
  have hsign : ∀ v k l, '-' :: padded v k ≠ padded w l := by
    intro v k l heq
    have hminus : '-' ∈ padded w l := heq ▸ mem_cons_self
    exact absurd (isDigit_of_mem_padded hminus) (by decide)
  rw [zeroPadded_eq, zeroPadded_eq] at h
  split at h <;> split at h
  · have hvalue := congrArg (Nat.ofDigitChars 10 · 0) (cons.inj h).2
    simp only [value_padded] at hvalue
    omega
  · exact absurd h (hsign _ _ _)
  · exact absurd h.symm (hsign _ _ _)
  · have hvalue := congrArg (Nat.ofDigitChars 10 · 0) h
    simp only [value_padded] at hvalue
    omega

theorem append_lt_append {s t : Text} (h : s.length = t.length) (hst : s < t) (u v : Text) :
    s ++ u < t ++ v := by
  induction s generalizing t with
  | nil =>
    obtain rfl := length_eq_zero_iff.mp h.symm
    cases hst
  | cons c s ih =>
    cases t with
    | nil => cases h
    | cons =>
      rw [cons_append, cons_append, cons_lt_cons_iff]
      rcases cons_lt_cons_iff.mp hst with hlt | ⟨heq, hst⟩
      · exact .inl hlt
      · exact .inr ⟨heq, ih (Nat.succ.inj h) hst⟩

/-- The last `w` digits of `n`. -/
def lastDigits : ℕ → ℕ → Text
  | 0, _ => []
  | w + 1, n => lastDigits w (n / 10) ++ [Nat.digitChar (n % 10)]

theorem length_lastDigits (w n : ℕ) : (lastDigits w n).length = w := by
  induction w generalizing n with
  | zero => rfl
  | succ w ih => rw [lastDigits, length_append, ih, length_singleton]

theorem lastDigits_zero (w : ℕ) : lastDigits w 0 = List.replicate w '0' := by
  induction w with
  | zero => rfl
  | succ w ih => rw [lastDigits, Nat.zero_div, ih, replicate_succ']; rfl

theorem lastDigits_lt {w m n : ℕ} (hn : n < 10 ^ w) (h : m < n) : lastDigits w m < lastDigits w n := by
  induction w generalizing m n with
  | zero => omega
  | succ w ih =>
    have hdigit : ∀ a b : Fin 10, a < b → Nat.digitChar a < Nat.digitChar b := by decide
    rw [Nat.pow_succ] at hn
    rw [lastDigits, lastDigits]
    by_cases hlt : m / 10 < n / 10
    · refine append_lt_append ?_ (ih (by omega) hlt) _ _
      rw [length_lastDigits, length_lastDigits]
    · obtain heq : m / 10 = n / 10 := by omega
      rw [heq]
      refine append_left_lt (cons_lt_cons_iff.mpr (.inl ?_))
      exact hdigit ⟨m % 10, by omega⟩ ⟨n % 10, by omega⟩ (Fin.mk_lt_mk.mpr (by omega))

theorem padded_eq {w n : ℕ} (hw : 0 < w) (hn : n < 10 ^ w) : padded w n = lastDigits w n := by
  induction w generalizing n with
  | zero => cases hw
  | succ w ih =>
    rw [Nat.pow_succ] at hn
    rw [padded, lastDigits, Nat.toDigits_eq_if (by decide)]
    split
    · next hone => rw [Nat.div_eq_of_lt hone, Nat.mod_eq_of_lt hone, lastDigits_zero]; rfl
    · next hmore =>
      have hpos : 0 < w := by
        by_contra hzero
        obtain rfl : w = 0 := by omega
        omega
      rw [← ih hpos (by omega), padded, length_append, length_singleton, Nat.add_sub_add_right,
        append_assoc]

@[ext] structure ClockTime where
  hour : ℤ
  minute : ℤ
  second : ℤ

structure ClockTime.Valid (t : ClockTime) : Prop where
  hour : 0 ≤ t.hour ∧ t.hour < 24
  minute : 0 ≤ t.minute ∧ t.minute < 60
  second : 0 ≤ t.second ∧ t.second < 60

def timestamp (date : ℤ × ℕ × ℕ) (t : ClockTime) : Text :=
  zeroPadded 4 date.1 ++ '-' :: zeroPadded 2 date.2.1 ++ '-' :: zeroPadded 2 date.2.2 ++
    'T' :: zeroPadded 2 t.hour ++ ':' :: zeroPadded 2 t.minute ++ ':' :: zeroPadded 2 t.second ++ ['Z']

/-- `text` is the RFC 3339 form, in UTC, of the instant `n` seconds after the start of 1970. -/
def Denotes (text : Text) (n : ℤ) : Prop :=
  ∃ date t, ValidDate date ∧ t.Valid ∧ text = timestamp date t ∧
    n = dayCount date * 86400 + t.hour * 3600 + t.minute * 60 + t.second

def clockOf (n : ℤ) : ClockTime := ⟨n % 86400 / 3600, n % 86400 % 3600 / 60, n % 86400 % 60⟩

theorem clockOf_valid (n : ℤ) : (clockOf n).Valid := by
  constructor <;> simp only [clockOf] <;> omega

theorem iso8601_eq (n : ℤ) : iso8601 n = timestamp (civilFromDays (n / 86400)) (clockOf n) := rfl

/-- Numbers that two digits hold. -/
def TwoDigits (n : ℤ) : Prop := 0 ≤ n ∧ n < 10 ^ 2

theorem ValidDate.twoDigits {date : ℤ × ℕ × ℕ} (h : ValidDate date) :
    TwoDigits date.2.1 ∧ TwoDigits date.2.2 := by
  have hmonth := h.month
  have hday := h.day.2
  unfold monthLength leapDay at hday
  unfold TwoDigits
  refine ⟨by omega, ?_⟩
  split at hday <;> split at hday <;> omega

theorem ClockTime.Valid.twoDigits {t : ClockTime} (h : t.Valid) :
    TwoDigits t.hour ∧ TwoDigits t.minute ∧ TwoDigits t.second := by
  have hhour := h.hour
  have hminute := h.minute
  have hsecond := h.second
  unfold TwoDigits
  omega

theorem zeroPadded_digits {w : ℕ} {n : ℤ} (hw : 0 < w) (h : 0 ≤ n ∧ n < 10 ^ w) :
    zeroPadded w n = lastDigits w n.natAbs := by
  have hpow : ((10 ^ w : ℕ) : ℤ) = 10 ^ w := by push_cast; rfl
  rw [zeroPadded_eq, if_neg (by omega), padded_eq hw (by omega)]

theorem zeroPadded_append_lt {w : ℕ} {m n : ℤ} (hw : 0 < w) (hm : 0 ≤ m ∧ m < 10 ^ w)
    (hn : 0 ≤ n ∧ n < 10 ^ w) (h : m < n) (u v : Text) : zeroPadded w m ++ u < zeroPadded w n ++ v := by
  have hpow : ((10 ^ w : ℕ) : ℤ) = 10 ^ w := by push_cast; rfl
  rw [zeroPadded_digits hw hm, zeroPadded_digits hw hn]
  refine append_lt_append ?_ (lastDigits_lt (by omega) (by omega)) u v
  rw [length_lastDigits, length_lastDigits]

section
variable {s t u v : Text} {c : Char} {m n : ℤ}

theorem field_inj (hm : TwoDigits m) (hn : TwoDigits n)
    (h : s ++ c :: zeroPadded 2 m = t ++ c :: zeroPadded 2 n) : s = t ∧ m = n := by
  have hlen : (c :: zeroPadded 2 m).length = (c :: zeroPadded 2 n).length := by
    rw [length_cons, length_cons, zeroPadded_digits (by decide) hm, zeroPadded_digits (by decide) hn,
      length_lastDigits, length_lastDigits]
  obtain ⟨hst, hfield⟩ := append_inj' h hlen
  exact ⟨hst, zeroPadded_inj (cons.inj hfield).2⟩

theorem field_lt (hm : TwoDigits m) (hn : TwoDigits n) (h : m < n) :
    c :: (zeroPadded 2 m ++ u) < c :: (zeroPadded 2 n ++ v) :=
  cons_lt_cons_iff.mpr (.inr ⟨rfl, zeroPadded_append_lt (by decide) hm hn h u v⟩)

theorem next_field_lt (h : u < v) : c :: (s ++ u) < c :: (s ++ v) :=
  cons_lt_cons_iff.mpr (.inr ⟨rfl, append_left_lt h⟩)

end

section
variable {date date' : ℤ × ℕ × ℕ} {t t' : ClockTime}

theorem timestamp_inj (hdate : ValidDate date) (hdate' : ValidDate date') (ht : t.Valid) (ht' : t'.Valid)
    (h : timestamp date t = timestamp date' t') : date = date' ∧ t = t' := by
  obtain ⟨hm, hd⟩ := hdate.twoDigits
  obtain ⟨hm', hd'⟩ := hdate'.twoDigits
  obtain ⟨hhour, hminute, hsecond⟩ := ht.twoDigits
  obtain ⟨hhour', hminute', hsecond'⟩ := ht'.twoDigits
  obtain ⟨h₅, second⟩ := field_inj hsecond hsecond' ((append_left_inj _).mp h)
  obtain ⟨h₄, minute⟩ := field_inj hminute hminute' h₅
  obtain ⟨h₃, hour⟩ := field_inj hhour hhour' h₄
  obtain ⟨h₂, day⟩ := field_inj hd hd' h₃
  obtain ⟨h₁, month⟩ := field_inj hm hm' h₂
  exact ⟨Prod.ext (zeroPadded_inj h₁) (Prod.ext (Int.ofNat_inj.mp month) (Int.ofNat_inj.mp day)),
    ClockTime.ext hour minute second⟩

theorem timestamp_lt (hdate : ValidDate date) (hdate' : ValidDate date') (ht : t.Valid) (ht' : t'.Valid)
    (hy : 0 ≤ date.1 ∧ date.1 < 10 ^ 4) (hy' : 0 ≤ date'.1 ∧ date'.1 < 10 ^ 4)
    (h : Earlier date date' ∨ date = date' ∧ (t.hour < t'.hour ∨ t.hour = t'.hour ∧
      (t.minute < t'.minute ∨ t.minute = t'.minute ∧ t.second < t'.second))) :
    timestamp date t < timestamp date' t' := by
  obtain ⟨hm, hd⟩ := hdate.twoDigits
  obtain ⟨hm', hd'⟩ := hdate'.twoDigits
  obtain ⟨hhour, hminute, hsecond⟩ := ht.twoDigits
  obtain ⟨hhour', hminute', hsecond'⟩ := ht'.twoDigits
  simp only [timestamp, append_assoc, cons_append]
  -- the first field in which they differ
  rcases h with (hlt | ⟨heq, hlt | ⟨hmonth, hlt⟩⟩) | ⟨rfl, hlt | ⟨heq, hlt | ⟨hmin, hlt⟩⟩⟩
  · exact zeroPadded_append_lt (by decide) hy hy' hlt _ _
  · rw [heq]
    exact append_left_lt (field_lt hm hm' (Int.ofNat_lt.mpr hlt))
  · rw [heq, hmonth]
    exact append_left_lt (next_field_lt (field_lt hd hd' (Int.ofNat_lt.mpr hlt)))
  · exact append_left_lt (next_field_lt (next_field_lt (field_lt hhour hhour' hlt)))
  · rw [heq]
    exact append_left_lt (next_field_lt (next_field_lt (next_field_lt (field_lt hminute hminute' hlt))))
  · rw [heq, hmin]
    exact append_left_lt (next_field_lt (next_field_lt (next_field_lt
      (next_field_lt (field_lt hsecond hsecond' hlt)))))

end

theorem iso8601_denotes (n n' : ℤ) : Denotes (iso8601 n) n' ↔ n' = n := by
  have hspec := civilFromDays_spec (n / 86400)
  have hclock := clockOf_valid n
  have hvalue : n = dayCount (civilFromDays (n / 86400)) * 86400 + (clockOf n).hour * 3600 +
      (clockOf n).minute * 60 + (clockOf n).second := by
    rw [hspec.2]
    simp only [clockOf]
    omega
  constructor
  · rintro ⟨date, t, hdate, ht, htext, rfl⟩
    obtain ⟨rfl, rfl⟩ := timestamp_inj hspec.1 hdate hclock ht htext
    exact hvalue.symm
  · rintro rfl
    exact ⟨_, _, hspec.1, hclock, iso8601_eq _, hvalue⟩

theorem iso8601_lt {m n : ℤ}
    (hm : 0 ≤ (civilFromDays (m / 86400)).1 ∧ (civilFromDays (m / 86400)).1 < 10 ^ 4)
    (hn : 0 ≤ (civilFromDays (n / 86400)).1 ∧ (civilFromDays (n / 86400)).1 < 10 ^ 4) (h : m < n) :
    iso8601 m < iso8601 n := by
  obtain ⟨hvalid, hcount⟩ := civilFromDays_spec (m / 86400)
  obtain ⟨hvalid', hcount'⟩ := civilFromDays_spec (n / 86400)
  rw [iso8601_eq, iso8601_eq]
  refine timestamp_lt hvalid hvalid' (clockOf_valid m) (clockOf_valid n) hm hn ?_
  by_cases hday : m / 86400 < n / 86400
  · refine .inl ((dayCount_lt_iff hvalid hvalid').mp ?_)
    rwa [hcount, hcount']
  · have hsame : m / 86400 = n / 86400 := by omega
    refine .inr ⟨by rw [hsame], ?_⟩
    simp only [clockOf]
    omega

/-- The dates are those of the calendar, every text stands for one instant, and texts with a year of
four digits are ordered in time. -/
theorem dates_exact :
    (∀ z, ValidDate (civilFromDays z) ∧ dayCount (civilFromDays z) = z ∧
      ∀ date, ValidDate date → dayCount date = z → date = civilFromDays z) ∧
    (∀ n n', Denotes (iso8601 n) n' ↔ n' = n) ∧
    ∀ m n : ℤ, 0 ≤ (civilFromDays (m / 86400)).1 ∧ (civilFromDays (m / 86400)).1 ≤ 9999 →
      0 ≤ (civilFromDays (n / 86400)).1 ∧ (civilFromDays (n / 86400)).1 ≤ 9999 →
      (iso8601 m < iso8601 n ↔ m < n) := by
  refine ⟨fun z => ?_, iso8601_denotes, fun m n hm hn => ?_⟩
  · obtain ⟨hvalid, hcount⟩ := civilFromDays_spec z
    exact ⟨hvalid, hcount, fun date hdate h => dayCount_inj hdate hvalid (h.trans hcount.symm)⟩
  · refine ⟨fun h => ?_, iso8601_lt ⟨hm.1, by omega⟩ ⟨hn.1, by omega⟩⟩
    rcases lt_trichotomy m n with hlt | rfl | hgt
    · exact hlt
    · exact absurd h (List.lt_irrefl _)
    · exact absurd h (List.lt_asymm (iso8601_lt ⟨hn.1, by omega⟩ ⟨hm.1, by omega⟩ hgt))

end Litterae.Jmap
