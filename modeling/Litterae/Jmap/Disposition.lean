import Litterae.Common.Input

/-! # The name of a download (`jmap/src/content_disposition.rs`)

The sender of a mail chooses the names of its attachments. The header made of such a name reads back as
one quoted name and, where that had to differ from the name, an extended one that decodes to it.
-/

namespace Litterae.Jmap

open Foundations Input List

variable {filename : Text}

def needsExtendedEncoding (s : Text) : Bool := s.any fun c => c == '"' || c == '\\' || isControl c

/-- The characters `ascii_fallback` keeps. -/
def isKept (c : Char) : Bool := c.toNat < 128 && !isControl c && c != '"' && c != '\\'

def cleaned (filename : Text) : Text := filename.map fun c => if isKept c then c else '_'

def asciiFallback (filename : Text) : Text :=
  if (trim (cleaned filename)).isEmpty then "attachment" else trim (cleaned filename)

def percentEncodeByte (byte : UInt8) : Text :=
  if isAsciiAlphanumeric (Char.ofNat byte.toNat) || Char.ofNat byte.toNat ∈ ['-', '.', '_', '~'] then
    [Char.ofNat byte.toNat]
  else ['%', upperHex (byte.toNat / 16), upperHex (byte.toNat % 16)]

def percentEncode (s : Text) : Text := (utf8 s).flatMap percentEncodeByte

def opening : Text := "attachment; filename=\""

def extension : Text := "; filename*=UTF-8''"

def attachmentHeader (filename : Text) : Text :=
  opening ++ asciiFallback filename ++ '"' ::
    if filename.all (fun c => c.toNat < 128) && !needsExtendedEncoding filename then []
    else extension ++ percentEncode filename

/-! ## Reading the header -/

/-- The characters that stand for themselves in an extended value: `attr-char` of RFC 5987. -/
def isAttrChar (c : Char) : Bool :=
  isAsciiAlphanumeric c || "!#$&+-.^_`|~".toList.contains c

/-- The quoted name, which has no escapes, and the extended one. A header that goes on after its
extended value, with a further parameter say, is not read. -/
def readAttachment (header : Text) : Option (Text × Option Text) := do
  let rest ← header.dropPrefix? opening
  let (value, rest) ← splitOnce '"' rest
  if rest.isEmpty then some (value, none)
  else
    let ext ← rest.dropPrefix? extension
    if ext.all fun c => isAttrChar c || c == '%' then some (value, some ext) else none

/-- The bytes of an extended value: `attr-char`s and `%XX`, nothing else. -/
def percentDecode : Text → Option Bytes
  | [] => some []
  | '%' :: hi :: lo :: rest => do
    let byte := UInt8.ofNat (16 * (← hexValue hi) + (← hexValue lo))
    (percentDecode rest).map (byte :: ·)
  | c :: rest => if isAttrChar c then (percentDecode rest).map (UInt8.ofNat c.toNat :: ·) else none

theorem percentDecode_encodeByte (b : UInt8) (rest : Text) :
    percentDecode (percentEncodeByte b ++ rest) = (percentDecode rest).map (b :: ·) := by
  have hb : b.toNat < 256 := b.toNat_lt
  unfold percentEncodeByte
  split
  · next hsafe =>
    have hbytes : ∀ n < 256, isAsciiAlphanumeric (Char.ofNat n) || Char.ofNat n ∈ ['-', '.', '_', '~'] →
        (Char.ofNat n).toNat = n ∧ isAttrChar (Char.ofNat n) ∧ Char.ofNat n ≠ '%' := by decide +kernel
    obtain ⟨hchar, hattr, hne⟩ := hbytes _ hb hsafe
    rw [cons_append, percentDecode, if_pos hattr, hchar, UInt8.ofNat_toNat]
    · rfl
    · exact fun _ _ _ heq => absurd heq hne
  · simp only [cons_append, percentDecode, hexValue_upperHex _ (show b.toNat / 16 < 16 by omega),
      hexValue_upperHex _ (show b.toNat % 16 < 16 by omega)]
    change (percentDecode rest).map (UInt8.ofNat (16 * (b.toNat / 16) + b.toNat % 16) :: ·) = _
    rw [Nat.div_add_mod, UInt8.ofNat_toNat]

theorem percentDecode_encode (bytes : Bytes) :
    percentDecode (bytes.flatMap percentEncodeByte) = some bytes := by
  induction bytes with
  | nil => rfl
  | cons _ _ ih =>
    rw [flatMap_cons, percentDecode_encodeByte, ih]
    rfl

theorem readAttachment_opening {value : Text} (hvalue : '"' ∉ value) (rest : Text) :
    readAttachment (opening ++ value ++ '"' :: rest) =
      if rest.isEmpty then some (value, none)
      else (rest.dropPrefix? extension).bind fun ext =>
        if ext.all fun c => isAttrChar c || c == '%' then some (value, some ext) else none := by
  rw [readAttachment, append_assoc, dropPrefix?_append_of_beq _ BEq.rfl, Option.bind_eq_bind,
    Option.bind_some, splitOnce_eq_some_iff.mpr ⟨rfl, hvalue⟩]
  rfl

/-! ## What a header consists of -/

abbrev Printable (c : Char) : Prop := ' ' ≤ c ∧ c ≤ '~'

theorem percentEncodeByte_chars (b : UInt8) :
    ∀ c ∈ percentEncodeByte b, Printable c ∧ (isAttrChar c || c == '%') := by
  have hall : ∀ n < 256, ∀ c ∈ percentEncodeByte (UInt8.ofNat n),
      Printable c ∧ (isAttrChar c || c == '%') := by decide +kernel
  have hb := hall b.toNat b.toNat_lt
  rwa [UInt8.ofNat_toNat] at hb

theorem isKept_iff {c : Char} :
    isKept c = true ↔ c.toNat < 128 ∧ isControl c = false ∧ c ≠ '"' ∧ c ≠ '\\' := by
  simp [isKept, and_assoc]

theorem printable_of_isKept {c : Char} (hc : isKept c) : Printable c := by
  obtain ⟨hascii, hcontrol, -⟩ := isKept_iff.mp hc
  simp only [isControl, Bool.or_eq_false_iff, Bool.and_eq_false_iff, decide_eq_false_iff_not] at hcontrol
  constructor
  · change 32 ≤ c.toNat
    omega
  · change c.toNat ≤ 126
    omega

theorem asciiFallback_kept : ∀ c ∈ asciiFallback filename, isKept c := by
  unfold asciiFallback
  split
  · decide
  · intro c hc
    have hpre : trim (cleaned filename) <+: _ := rdropWhile_prefix _ _
    obtain ⟨d, -, rfl⟩ := mem_map.mp ((trimStart_suffix _).subset (hpre.subset hc))
    split
    · next hd => exact hd
    · rfl

theorem asciiFallback_solid (filename : Text) :
    ∃ c ∈ asciiFallback filename, isWhitespace c = false := by
  unfold asciiFallback
  split
  · exact ⟨'a', by decide, by decide⟩
  · next hne =>
    obtain ⟨c, l, hcons⟩ := exists_cons_of_ne_nil (mt isEmpty_iff.mpr hne)
    have hhead := trimStart_eq_self_iff.mp (trimStart_trim _) c (by rw [hcons]; rfl)
    exact ⟨c, by rw [hcons]; exact mem_cons_self, hhead⟩

theorem cleaned_eq_self (h : ∀ c ∈ filename, isKept c) :
    cleaned filename = filename :=
  (map_congr_left fun c hc => if_pos (h c hc)).trans (map_id _)

theorem all_isKept_iff :
    (filename.all (fun c => c.toNat < 128) && !needsExtendedEncoding filename) = true ↔
      ∀ c ∈ filename, isKept c := by
  simp only [needsExtendedEncoding, Bool.and_eq_true, all_eq_true, Bool.not_eq_true', any_eq_false]
  rw [← forall₂_and]
  refine forall₂_congr fun c _ => ?_
  rw [isKept_iff]
  grind

theorem attachmentHeader_printable (filename : Text) : ∀ c ∈ attachmentHeader filename, Printable c := by
  have htexts : ∀ c ∈ opening ++ '"' :: extension, Printable c := by decide
  intro c hc
  simp only [attachmentHeader, mem_append, mem_cons] at hc htexts
  rcases hc with (hc | hc) | hc | hc
  · exact htexts c (.inl hc)
  · exact printable_of_isKept (asciiFallback_kept c hc)
  · exact htexts c (.inr (.inl hc))
  · split at hc
    · cases hc
    · rcases mem_append.mp hc with hc | hc
      · exact htexts c (.inr (.inr hc))
      · obtain ⟨b, -, hb⟩ := mem_flatMap.mp hc
        exact (percentEncodeByte_chars b c hb).1

/-- The header is printable and reads as a quoted name without quotes or backslashes, not blank, and
no other parameter but the extended name. That is there if the name has a character that is not kept,
consists of `attr-char`s and `%XX` and decodes to the name; without it the quoted name is the name less
the white space around it. -/
theorem attachmentHeader_reads (filename : Text) :
    (∀ c ∈ attachmentHeader filename, Printable c) ∧
    ∃ value ext, readAttachment (attachmentHeader filename) = some (value, ext) ∧
      '"' ∉ value ∧ '\\' ∉ value ∧ (∃ c ∈ value, isWhitespace c = false) ∧
      (ext.isSome = true ↔ ∃ c ∈ filename, 128 ≤ c.toNat ∨ c = '"' ∨ c = '\\' ∨ isControl c = true) ∧
      (∀ e, ext = some e → percentDecode e = some (utf8 filename)) ∧
      (ext = none → value =
        if (trim filename).isEmpty then "attachment".toList else trim filename) := by
  have hquote : '"' ∉ asciiFallback filename := fun h => absurd (asciiFallback_kept _ h) (by decide)
  have hback : '\\' ∉ asciiFallback filename := fun h => absurd (asciiFallback_kept _ h) (by decide)
  have hsome : (∃ c ∈ filename, 128 ≤ c.toNat ∨ c = '"' ∨ c = '\\' ∨ isControl c = true) ↔
      ¬ ∀ c ∈ filename, isKept c := by
    simp only [isKept_iff, not_forall, exists_prop]
    refine exists_congr fun c => and_congr_right fun _ => ?_
    grind
  refine ⟨attachmentHeader_printable filename, asciiFallback filename, ?_⟩
  rw [attachmentHeader, hsome, readAttachment_opening hquote]
  by_cases hkept : ∀ c ∈ filename, isKept c
  · rw [if_pos (all_isKept_iff.mpr hkept)]
    refine ⟨none, rfl, hquote, hback, asciiFallback_solid filename, ?_, ?_, fun _ => ?_⟩
    · exact iff_of_false (by simp) (not_not.mpr hkept)
    · rintro _ ⟨⟩
    · rw [asciiFallback, cleaned_eq_self hkept]
  · have hext : (percentEncode filename).all fun c => isAttrChar c || c == '%' := by
      rw [all_eq_true]
      intro c hc
      obtain ⟨b, -, hb⟩ := mem_flatMap.mp hc
      exact (percentEncodeByte_chars b c hb).2
    rw [if_neg (mt all_isKept_iff.mp hkept), dropPrefix?_append_of_beq _ BEq.rfl]
    simp only [Option.bind_some, hext, if_true]
    refine ⟨some (percentEncode filename), rfl, hquote, hback, asciiFallback_solid filename,
      iff_of_true rfl hkept, ?_, fun h => absurd h (by simp)⟩
    rintro _ ⟨⟩
    exact percentDecode_encode _

end Litterae.Jmap
