import Litterae.Common.Input

/-! # The styles of composed mail (`jmap/src/compose_html.rs`)

Of the style attributes a client sends only colours of the palette go out.
-/

namespace Litterae.Jmap

open Foundations List

abbrev Rgb := UInt8 × UInt8 × UInt8

variable {rgb : Rgb}

def allowedColors : List Rgb :=
  [(0x1a, 0x1a, 0x1a), (0xd9, 0x26, 0x26), (0xd9, 0x77, 0x06), (0x16, 0xa3, 0x4a),
    (0x25, 0x63, 0xeb), (0x7c, 0x3a, 0xed)]

/-- `u8::from_str_radix` for two hexadecimal digits. -/
def hexPair (hi lo : Char) : Option UInt8 := do
  some (UInt8.ofNat (16 * (← hexValue hi) + (← hexValue lo)))

/-- Six bytes that are hexadecimal digits are six characters. -/
def parseHex : Text → Option Rgb
  | [a, b, c, d, e, f] => do some (← hexPair a b, ← hexPair c d, ← hexPair e f)
  | _ => none

/-- `str::parse` for a `u8`. -/
def parseU8 (s : Text) : Option UInt8 :=
  ((parseDigits ((s.dropPrefix? ['+']).getD s)).filter (· < 256)).map UInt8.ofNat

def parseRgb (inner : Text) : Option Rgb :=
  match (inner.splitOn ',').map trim with
  | [r, g, b] => do some (← parseU8 r, ← parseU8 g, ← parseU8 b)
  | _ => none

/-- The colour after `color:`. -/
def parseColor (rest : Text) : Option Rgb :=
  match rest.dropPrefix? ['#'] with
  | some hex => parseHex hex
  | none => do parseRgb (← (← rest.dropPrefix? "rgb(").dropSuffix? [')'])

def parseColorStyle (value : Text) : Option Rgb := do
  let value := trim value
  let value := trim ((value.dropSuffix? [';']).getD value)
  parseColor (trim (← value.dropPrefix? "color:"))

def isAllowedColorStyle (value : Text) : Bool :=
  (parseColorStyle value).any fun rgb => allowedColors.contains rgb

/-! ## The accepted texts -/

def Blank (s : Text) : Prop := ∀ c ∈ s, isWhitespace c = true

/-- A decimal number, with white space around it. -/
def IsNumber (n : UInt8) (s : Text) : Prop :=
  ∃ before plus digits after, s = before ++ plus ++ digits ++ after ∧ Blank before ∧ Blank after ∧
    (plus = [] ∨ plus = ['+']) ∧ parseDigits digits = some n.toNat

def IsColor (rgb : Rgb) (s : Text) : Prop :=
  (∃ a b c d e f, s = ['#', a, b, c, d, e, f] ∧ hexPair a b = some rgb.1 ∧
      hexPair c d = some rgb.2.1 ∧ hexPair e f = some rgb.2.2) ∨
    ∃ r g b, s = "rgb(" ++ r ++ ',' :: g ++ ',' :: b ++ [')'] ∧
      IsNumber rgb.1 r ∧ IsNumber rgb.2.1 g ∧ IsNumber rgb.2.2 b

/-- A colour after `color:`, with white space around it and a semicolon or none. -/
def IsStyle (rgb : Rgb) (v : Text) : Prop :=
  ∃ before gap color after semi rest,
    v = before ++ "color:" ++ gap ++ color ++ after ++ semi ++ rest ∧ Blank before ∧ Blank gap ∧
    Blank after ∧ Blank rest ∧ (semi = [] ∨ semi = [';']) ∧ IsColor rgb color

theorem Blank.append {s t : Text} (hs : Blank s) (ht : Blank t) : Blank (s ++ t) := fun c hc =>
  (mem_append.mp hc).elim (hs c) (ht c)

theorem around_trim (s : Text) : ∃ before after, Blank before ∧ Blank after ∧
    s = before ++ trim s ++ after := by
  refine ⟨s.takeWhile isWhitespace, (trimStart s).rtakeWhile isWhitespace,
    fun _ => mem_takeWhile_imp, fun _ => mem_rtakeWhile_imp, ?_⟩
  rw [append_assoc, trim, trimEnd, rdropWhile_append_rtakeWhile]
  exact takeWhile_append_dropWhile.symm

theorem isNumber_of_parseU8 {s : Text} {n : UInt8} (h : parseU8 (trim s) = some n) :
    IsNumber n s := by
  obtain ⟨before, after, hbefore, hafter, hs⟩ := around_trim s
  obtain ⟨k, hk, rfl⟩ := Option.map_eq_some_iff.mp h
  obtain ⟨hdigits, hlt⟩ := Option.filter_eq_some_iff.mp hk
  have hvalue : (UInt8.ofNat k).toNat = k := UInt8.toNat_ofNat_of_lt (by simpa using hlt)
  cases hplus : (trim s).dropPrefix? ['+'] with
  | none =>
    rw [hplus] at hdigits
    refine ⟨before, [], trim s, after, ?_, hbefore, hafter, .inl rfl, hvalue.symm ▸ hdigits⟩
    rw [append_nil, ← hs]
  | some digits =>
    rw [hplus] at hdigits
    obtain ⟨plus, hsplit, hbeq⟩ := dropPrefix?_eq_some_iff.mp hplus
    obtain rfl := eq_of_beq hbeq
    refine ⟨before, ['+'], digits, after, ?_, hbefore, hafter, .inr rfl, hvalue.symm ▸ hdigits⟩
    rw [append_assoc before, ← hsplit, ← hs]

theorem isColor_of_parseHex {hex : Text} (h : parseHex hex = some rgb) :
    IsColor rgb ('#' :: hex) := by
  unfold parseHex at h
  split at h
  · next a b c d e f =>
    obtain ⟨r, hr, h⟩ := Option.bind_eq_some_iff.mp h
    obtain ⟨g, hg, h⟩ := Option.bind_eq_some_iff.mp h
    obtain ⟨b, hb, h⟩ := Option.bind_eq_some_iff.mp h
    cases h
    exact .inl ⟨_, _, _, _, _, _, rfl, hr, hg, hb⟩
  · cases h

theorem isColor_of_parseRgb {inner : Text} (h : parseRgb inner = some rgb) :
    IsColor rgb ("rgb(" ++ inner ++ [')']) := by
  unfold parseRgb at h
  rcases hl : inner.splitOn ',' with _ | ⟨r', _ | ⟨g', _ | ⟨b', _ | _⟩⟩⟩ <;> rw [hl] at h
  case cons.cons.cons.nil =>
    obtain ⟨r, hr, h⟩ := Option.bind_eq_some_iff.mp h
    obtain ⟨g, hg, h⟩ := Option.bind_eq_some_iff.mp h
    obtain ⟨b, hb, h⟩ := Option.bind_eq_some_iff.mp h
    cases h
    have hinner : inner = r' ++ ',' :: g' ++ ',' :: b' := by
      refine (intercalate_splitOn ',').symm.trans ?_
      rw [hl]
      simp [intercalate]
    refine .inr ⟨r', g', b', ?_, isNumber_of_parseU8 hr, isNumber_of_parseU8 hg, isNumber_of_parseU8 hb⟩
    rw [hinner]
    simp only [append_assoc]
  all_goals cases h

theorem isColor_of_parseColor {color : Text} (h : parseColor color = some rgb) :
    IsColor rgb color := by
  unfold parseColor at h
  cases hhash : color.dropPrefix? ['#'] with
  | some =>
    rw [hhash] at h
    obtain ⟨_, rfl, hbeq⟩ := dropPrefix?_eq_some_iff.mp hhash
    obtain rfl := eq_of_beq hbeq
    exact isColor_of_parseHex h
  | none =>
    rw [hhash] at h
    obtain ⟨rest, hrest, h⟩ := Option.bind_eq_some_iff.mp h
    obtain ⟨inner, hinner, hrgb⟩ := Option.bind_eq_some_iff.mp h
    obtain ⟨_, rfl, hbeq⟩ := dropPrefix?_eq_some_iff.mp hrest
    obtain rfl := eq_of_beq hbeq
    obtain ⟨_, rfl, hbeq⟩ := dropSuffix?_eq_some_iff.mp hinner
    obtain rfl := eq_of_beq hbeq
    rw [← append_assoc]
    exact isColor_of_parseRgb hrgb

theorem isStyle_of_parse {v : Text} (h : parseColorStyle v = some rgb) :
    IsStyle rgb v := by
  obtain ⟨before, rest, hbefore, hrest, hv⟩ := around_trim v
  obtain ⟨semi, hsemi, hsplit⟩ : ∃ semi, (semi = [] ∨ semi = [';']) ∧
      trim v = ((trim v).dropSuffix? [';']).getD (trim v) ++ semi := by
    cases hs : (trim v).dropSuffix? [';'] with
    | none => exact ⟨[], .inl rfl, (append_nil _).symm⟩
    | some =>
      obtain ⟨semi, hp, hbeq⟩ := dropSuffix?_eq_some_iff.mp hs
      exact ⟨semi, .inr (eq_of_beq hbeq), hp⟩
  obtain ⟨r, hr, h⟩ := Option.bind_eq_some_iff.mp h
  generalize ((trim v).dropSuffix? [';']).getD (trim v) = x at hsplit hr
  obtain ⟨before', after', hbefore', hafter', hx⟩ := around_trim x
  obtain ⟨_, hcolor, hbeq⟩ := dropPrefix?_eq_some_iff.mp hr
  obtain rfl := eq_of_beq hbeq
  obtain ⟨gap, after, hgap, hafter, hgaps⟩ := around_trim r
  refine ⟨before ++ before', gap, trim r, after ++ after', semi, rest, ?_, hbefore.append hbefore', hgap,
    hafter.append hafter', hrest, hsemi, ?_⟩
  · conv_lhs => rw [hv, hsplit, hx, hcolor, hgaps]
    simp only [append_assoc]
  · exact isColor_of_parseColor h

/-- A colour in hexadecimal, in both cases, and in numbers, with and without blanks. -/
def spellings (rgb : Rgb) : List Text :=
  let parts := [rgb.1, rgb.2.1, rgb.2.2].map UInt8.toNat
  let hex := parts.flatMap fun n => [upperHex (n / 16), upperHex (n % 16)]
  let numbers (sep : String) := "rgb(" ++ join sep.toList (parts.map fun n => (toString n).toList) ++ [')']
  ['#' :: hex.map Char.toLower, '#' :: hex, numbers ",", numbers ", "]

/-- What is accepted is a colour of the palette and nothing else, and every such colour is accepted. -/
theorem isAllowedColorStyle_sound (v : Text) :
    (isAllowedColorStyle v → ∃ rgb ∈ allowedColors, IsStyle rgb v) ∧
    ∀ rgb ∈ allowedColors, ∀ color ∈ spellings rgb, ∀ gap ∈ [[], [' ']], ∀ semi ∈ [[], [';']],
      isAllowedColorStyle ("color:" ++ gap ++ color ++ semi) = true := by
  refine ⟨fun h => ?_, by decide +kernel⟩
  obtain ⟨rgb, hrgb, hallowed⟩ := (Option.any_eq_true _ _).mp h
  exact ⟨rgb, contains_iff_mem.mp hallowed, isStyle_of_parse hrgb⟩

end Litterae.Jmap
