import Litterae.Foundations.Text

/-! # Validation of strings that cross mail protocol boundaries (`common/src/input.rs`) -/

namespace Litterae.Input
open Foundations List Nat

variable {localPart : Text} {c : Char}

/-- `char::is_control`: the Unicode general category Cc. -/
def isControl (c : Char) : Bool := c.toNat ≤ 0x1F || (0x7F ≤ c.toNat && c.toNat ≤ 0x9F)

def validHeaderValue (value : Text) : Bool :=
  !value.any fun c => c == '\r' || c == '\n' || c == '\x00' || isControl c

def addressDelimiters : List Char := ['<', '>', '(', ')', '[', ']', ',', ';', ':', '\\', '"']

def isAsciiAlphanumeric (c : Char) : Bool :=
  ('a' ≤ c && c ≤ 'z') || ('A' ≤ c && c ≤ 'Z') || ('0' ≤ c && c ≤ '9')

def validLabel (label : Text) : Bool :=
  !label.isEmpty && byteLen label ≤ 63 && label.head? != some '-' && label.getLast? != some '-' &&
    label.all fun c => isAsciiAlphanumeric c || c == '-'

def validDomainName (domain : Text) : Bool :=
  !domain.isEmpty && byteLen domain ≤ 253 && validHeaderValue domain &&
    domain.all (fun c => c.toNat < 128) && (domain.splitOn '.').all validLabel

def hasDoubleDot : Text → Bool
  | '.' :: '.' :: _ => true
  | _ :: s => hasDoubleDot s
  | [] => false

def validEmailAddress (address : Text) : Bool :=
  if address.isEmpty || decide (254 < byteLen address) || !validHeaderValue address then false
  else if address.any fun c => isWhitespace c || addressDelimiters.contains c then false
  else
    match address.splitOn '@' with
    | [localPart, domain] =>
      !(localPart.isEmpty || domain.isEmpty || localPart.head? == some '.' ||
        localPart.getLast? == some '.' || hasDoubleDot localPart || !validDomainName domain)
    | _ => false

def validLocalPart (localPart : Text) : Bool :=
  validEmailAddress (localPart ++ "@example.invalid")

def stripStart : Text → Text → Option Text
  | [], s => some s
  | p :: ps, c :: s => if p = c then stripStart ps s else none
  | _ :: _, [] => none

variable {s : Text}

theorem stripStart_eq_some {start t : Text} (h : stripStart start s = some t) : s = start ++ t := by
  induction start generalizing s with
  | nil => exact Option.some.inj h
  | cons _ _ ih =>
    cases s with
    | nil => cases h
    | cons =>
      rw [stripStart] at h
      split at h
      · next hp => rw [hp, ih h, cons_append]
      · cases h

/-- `valid_helo_domain`, over the standard library's address parsers. -/
def validHeloDomain (isIpv4 isIpv6 : Text → Bool) (value : Text) : Bool :=
  if validDomainName value then true
  else
    match value with
    | '[' :: rest =>
      if rest.getLast? = some ']' then
        match stripStart "IPv6:" rest.dropLast with
        | some v6 => isIpv6 v6
        | none => isIpv4 rest.dropLast
      else false
    | _ => false

/-! ## What valid names are made of -/

theorem mem_of_mem_intercalate {α : Type} {a sep : α} {parts : List (List α)}
    (h : a ∈ [sep].intercalate parts) : a = sep ∨ ∃ part ∈ parts, a ∈ part := by
  induction parts with
  | nil => simp at h
  | cons part rest ih =>
    cases rest with
    | nil => exact .inr ⟨part, mem_cons_self, by simpa using h⟩
    | cons =>
      rw [intercalate_cons_cons, mem_append, mem_append] at h
      rcases h with (h | h) | h
      · exact .inr ⟨part, mem_cons_self, h⟩
      · exact .inl (mem_singleton.mp h)
      · rcases ih h with hsep | ⟨part', hpart', hc⟩
        · exact .inl hsep
        · exact .inr ⟨part', mem_cons_of_mem _ hpart', hc⟩

variable {domain : Text}

theorem mem_validDomainName (h : validDomainName domain) (hc : c ∈ domain) :
    c = '.' ∨ isAsciiAlphanumeric c ∨ c = '-' := by
  have hjoin : ['.'].intercalate (domain.splitOn '.') = domain := intercalate_splitOn '.'
  rw [← hjoin] at hc
  rcases mem_of_mem_intercalate hc with hdot | ⟨label, hlabel, hc⟩
  · exact .inl hdot
  · simp only [validDomainName, Bool.and_eq_true, all_eq_true] at h
    have hvalid := h.2 label hlabel
    simp only [validLabel, Bool.and_eq_true, all_eq_true] at hvalid
    have hchar := hvalid.2 c hc
    exact .inr (by simpa using hchar)

/-! ## Addresses put together from their parts -/

theorem label_char_ascii (hc : (isAsciiAlphanumeric c || c == '-')) :
    c.toNat < 128 := by
  have hle : ∀ d : Char, c ≤ d → d.toNat < 128 → c.toNat < 128 := fun d hcd hd =>
    lt_of_le_of_lt hcd hd
  simp only [isAsciiAlphanumeric, Bool.or_eq_true, Bool.and_eq_true, decide_eq_true_eq,
    beq_iff_eq] at hc
  rcases hc with ((⟨-, h⟩ | ⟨-, h⟩) | ⟨-, h⟩) | rfl
  · exact hle _ h (by decide)
  · exact hle _ h (by decide)
  · exact hle _ h (by decide)
  · decide

theorem label_char_plain (hc : (isAsciiAlphanumeric c || c == '-')) :
    (isAsciiAlphanumeric c.toLower || c.toLower == '-') ∧ isControl c = false ∧
      isWhitespace c = false ∧ c ∉ addressDelimiters ∧ c ≠ '@' := by
  have hall : ∀ n : Fin 128,
      (isAsciiAlphanumeric (Char.ofNat n) || Char.ofNat n == '-') →
        (isAsciiAlphanumeric (Char.ofNat n).toLower || (Char.ofNat n).toLower == '-') ∧
          isControl (Char.ofNat n) = false ∧ isWhitespace (Char.ofNat n) = false ∧
          Char.ofNat n ∉ addressDelimiters ∧ Char.ofNat n ≠ '@' := by
    decide +kernel
  have hchar := hall ⟨c.toNat, label_char_ascii hc⟩
  rw [Char.ofNat_toNat] at hchar
  exact hchar hc

theorem toLower_ne_dash {o : Option Char} (h : o ≠ some '-') : o.map Char.toLower ≠ some '-' := by
  intro heq
  obtain ⟨c, hc, hlower⟩ := Option.map_eq_some_iff.mp heq
  exact h (eq_of_toLower_eq (by decide) hlower ▸ hc)

theorem validLabel_lower {label : Text} (h : validLabel label) :
    validLabel (label.map Char.toLower) := by
  simp only [validLabel, Bool.and_eq_true, Bool.not_eq_true', bne_iff_ne, decide_eq_true_eq,
    all_eq_true, isEmpty_eq_false_iff] at h ⊢
  obtain ⟨⟨⟨⟨hne, hlen⟩, hhead⟩, hlast⟩, hchars⟩ := h
  refine ⟨⟨⟨⟨by simpa using hne, by rwa [byteLen_map_toLower]⟩, ?_⟩, ?_⟩, ?_⟩
  · rw [List.head?_map]
    exact toLower_ne_dash hhead
  · rw [List.getLast?_map]
    exact toLower_ne_dash hlast
  · intro c hc
    obtain ⟨d, hd, rfl⟩ := mem_map.mp hc
    exact (label_char_plain (hchars d hd)).1

/-- The characters of an unquoted address, its `@` and its dots apart: no control character, no white
space, no delimiter. -/
def plain (s : Text) : Bool :=
  validHeaderValue s && !s.any fun c => isWhitespace c || addressDelimiters.contains c

theorem validHeaderValue_iff {value : Text} :
    validHeaderValue value ↔ ∀ c ∈ value, isControl c = false := by
  simp only [validHeaderValue, Bool.not_eq_true', any_eq_false, Bool.or_eq_true, not_or,
    Bool.not_eq_true]
  refine forall₂_congr fun c _ => ⟨And.right, fun hc => ⟨⟨⟨?_, ?_⟩, ?_⟩, hc⟩⟩
  all_goals
    refine beq_eq_false_iff_ne.mpr ?_
    rintro rfl
    exact absurd hc (by decide)

theorem validHeaderValue_append {t : Text} (hs : validHeaderValue s) (ht : validHeaderValue t) :
    validHeaderValue (s ++ t) := by
  refine validHeaderValue_iff.mpr fun c hc => ?_
  rcases mem_append.mp hc with hc | hc
  · exact validHeaderValue_iff.mp hs c hc
  · exact validHeaderValue_iff.mp ht c hc

theorem validHeaderValue_digits (n : ℕ) : validHeaderValue (toString n).toList := by
  refine validHeaderValue_iff.mpr fun c hc => ?_
  have htext : (toString n).toList = Nat.toDigits 10 n := by simp
  rw [htext] at hc
  have hdigit := isDigit_of_mem_toDigits (by decide) (by decide) hc
  simp only [Char.isDigit, Bool.and_eq_true, decide_eq_true_eq, ge_iff_le, UInt32.le_iff_toNat_le] at hdigit
  obtain ⟨hlow, hhigh⟩ : 48 ≤ c.toNat ∧ c.toNat ≤ 57 := hdigit
  simp only [isControl, Bool.or_eq_false_iff, Bool.and_eq_false_iff, decide_eq_false_iff_not]
  omega

theorem plain_append (s t : Text) : plain (s ++ t) = (plain s && plain t) := by
  simp only [plain, validHeaderValue, any_append, Bool.not_or]
  ac_rfl

theorem plain_iff : plain s ↔
    ∀ c ∈ s, isControl c = false ∧ isWhitespace c = false ∧ c ∉ addressDelimiters := by
  rw [plain, Bool.and_eq_true, validHeaderValue_iff, forall₂_and]
  simp

theorem plain_domain (h : validDomainName domain) : plain domain := by
  refine plain_iff.mpr fun c hc => ?_
  rcases mem_validDomainName h hc with rfl | hchar
  · decide
  · have hplain := label_char_plain (by simpa using hchar)
    exact ⟨hplain.2.1, hplain.2.2.1, hplain.2.2.2.1⟩

theorem at_not_mem_domain (h : validDomainName domain) : '@' ∉ domain := by
  intro hc
  rcases mem_validDomainName h hc with hdot | halnum | hdash
  · exact absurd hdot (by decide)
  · exact absurd halnum (by decide)
  · exact absurd hdash (by decide)

theorem validDomainName_lower (h : validDomainName domain) :
    validDomainName (domain.map Char.toLower) := by
  have hmem : ∀ c ∈ domain.map Char.toLower, c.toNat < 128 ∧ isControl c = false := by
    intro c hc
    obtain ⟨d, hd, rfl⟩ := mem_map.mp hc
    rcases mem_validDomainName h hd with rfl | hchar
    · decide
    · have hlower := (label_char_plain (by simpa using hchar)).1
      exact ⟨label_char_ascii hlower, (label_char_plain hlower).2.1⟩
  simp only [validDomainName, Bool.and_eq_true, Bool.not_eq_true', decide_eq_true_eq,
    all_eq_true, isEmpty_eq_false_iff] at h ⊢
  obtain ⟨⟨⟨⟨hne, hlen⟩, -⟩, -⟩, hlabels⟩ := h
  refine ⟨⟨⟨⟨by simpa using hne, by rwa [byteLen_map_toLower]⟩, ?_⟩, fun c hc => (hmem c hc).1⟩, ?_⟩
  · exact validHeaderValue_iff.mpr fun c hc => (hmem c hc).2
  · rw [splitOn_map_toLower (by decide) (by decide)]
    intro lower hlower
    obtain ⟨label, hlabel, rfl⟩ := mem_map.mp hlower
    exact validLabel_lower (hlabels label hlabel)

def dotted (localPart : Text) : Bool :=
  !(localPart.isEmpty || localPart.head? == some '.' || localPart.getLast? == some '.' ||
    hasDoubleDot localPart)

variable {address : Text}

theorem validEmailAddress_of_split (hsplit : address.splitOn '@' = [localPart, domain])
    (hne : address ≠ []) :
    validEmailAddress address = (decide (byteLen address ≤ 254) && plain address &&
      (dotted localPart && validDomainName domain)) := by
  have hempty : address.isEmpty = false := isEmpty_eq_false_iff.mpr hne
  have hdomain : (!domain.isEmpty && validDomainName domain) = validDomainName domain := by
    cases domain <;> rfl
  rw [validEmailAddress, hsplit, hempty]
  by_cases hlen : byteLen address ≤ 254
  · cases hvalue : validHeaderValue address with
    | false => simp [plain, hvalue]
    | true =>
      rw [plain, hvalue, dotted, if_neg (by simpa using hlen), decide_eq_true hlen]
      cases address.any fun c => isWhitespace c || addressDelimiters.contains c with
      | true => rfl
      | false =>
        -- an empty domain is no domain name: the two lists of rules differ in order only
        simp only [Bool.not_or, Bool.true_and, Bool.not_false, Bool.false_eq_true, if_false,
          Bool.not_not]
        conv_rhs => rw [← hdomain]
        ac_rfl
  · simp [hlen, Nat.lt_of_not_le hlen]

theorem validEmailAddress_parts (hlocal : '@' ∉ localPart) (hdomain : '@' ∉ domain) :
    validEmailAddress (localPart ++ '@' :: domain) ↔
      byteLen localPart + 1 + byteLen domain ≤ 254 ∧
        (plain localPart ∧ dotted localPart) ∧
        plain domain ∧ validDomainName domain := by
  have hsplit : (localPart ++ '@' :: domain).splitOn '@' = [localPart, domain] := by
    rw [splitOn_append_cons_self, splitOn_eq_singleton hlocal, splitOn_eq_singleton hdomain]
    rfl
  have hlen : byteLen (localPart ++ '@' :: domain) = byteLen localPart + 1 + byteLen domain := by
    rw [byteLen_append, byteLen_cons, Nat.add_assoc]
    rfl
  have hplain : plain (localPart ++ '@' :: domain) = (plain localPart && plain domain) := by
    have hat : plain ['@'] := by decide
    rw [← singleton_append, plain_append, plain_append, hat, Bool.true_and]
  rw [validEmailAddress_of_split hsplit (by simp), hlen, hplain]
  simp only [Bool.and_eq_true, decide_eq_true_eq]
  tauto

theorem length_splitOn {a : Char} : (s.splitOn a).length = s.count a + 1 := by
  induction s with
  | nil => simp
  | cons c s ih =>
    rw [splitOn_cons_eq_if_modifyHead, count_cons, ← Nat.add_right_comm, ← ih]
    split <;> simp

theorem validEmailAddress_cases (h : validEmailAddress address) :
    ∃ localPart domain, address = localPart ++ '@' :: domain ∧ address.count '@' = 1 ∧
      plain address ∧ validDomainName domain := by
  cases hsplit : address.splitOn '@' with
  | nil => exact absurd hsplit (splitOn_ne_nil _ _)
  | cons localPart rest =>
    have hlength := @length_splitOn address '@'
    have hjoin : ['@'].intercalate (address.splitOn '@') = address := intercalate_splitOn '@'
    obtain ⟨domain, rfl⟩ : ∃ domain, rest = [domain] := by
      rw [validEmailAddress, hsplit] at h
      rcases rest with _ | ⟨domain, _ | ⟨_, _⟩⟩
      · simp at h
      · exact ⟨domain, rfl⟩
      · simp at h
    rw [hsplit] at hlength hjoin
    have hne : address ≠ [] := by rintro rfl; cases h
    rw [validEmailAddress_of_split hsplit hne] at h
    simp only [Bool.and_eq_true] at h
    exact ⟨localPart, domain, by simpa using hjoin.symm, by simpa using hlength.symm, h.1.2, h.2.2⟩

theorem validEmailAddress_headerSafe (h : validEmailAddress address) :
    validHeaderValue address := by
  obtain ⟨-, -, -, -, hplain, -⟩ := validEmailAddress_cases h
  exact (Bool.and_eq_true _ _ ▸ hplain).1

theorem mem_validLocalPart (h : validLocalPart localPart) (hc : c ∈ localPart) :
    c ≠ '@' ∧ isWhitespace c = false ∧ c ∉ addressDelimiters := by
  obtain ⟨-, -, -, hcount, hplain, -⟩ := validEmailAddress_cases h
  refine ⟨?_, (plain_iff.mp hplain c (mem_append_left _ hc)).2⟩
  rintro rfl
  -- an `@` of its own would give the address two of them
  have hown := count_pos_iff.mpr hc
  have hhost : "@example.invalid".toList.count '@' = 1 := by decide
  rw [count_append] at hcount
  omega

theorem validLocalPart_iff (hlocal : '@' ∉ localPart) :
    validLocalPart localPart ↔
      byteLen localPart ≤ 238 ∧ plain localPart ∧ dotted localPart := by
  have hparts := @validEmailAddress_parts _ "example.invalid" hlocal (by decide)
  have hlen : byteLen "example.invalid" = 15 := by decide
  have hhost : plain "example.invalid" = true ∧
      validDomainName "example.invalid" = true := by decide
  refine hparts.trans ?_
  constructor
  · rintro ⟨hle, hlocal, -⟩
    exact ⟨by omega, hlocal⟩
  · rintro ⟨hle, hlocal⟩
    exact ⟨by omega, hlocal, hhost⟩

theorem validEmailAddress_join (hlocal : validLocalPart localPart)
    (hdomain : validDomainName domain) :
    validEmailAddress (localPart ++ '@' :: domain) ↔
      byteLen localPart + 1 + byteLen domain ≤ 254 := by
  have hat : '@' ∉ localPart := fun hmem => (mem_validLocalPart hlocal hmem).1 rfl
  rw [validEmailAddress_parts hat (at_not_mem_domain hdomain)]
  have hparts := (validLocalPart_iff hat).mp hlocal
  exact and_iff_left ⟨hparts.2, plain_domain hdomain, hdomain⟩

theorem bracket_not_mem_join (hlocal : validLocalPart localPart)
    (hdomain : validDomainName domain) : '>' ∉ localPart ++ '@' :: domain := by
  intro hmem
  rcases mem_append.mp hmem with hleft | hright
  · exact (mem_validLocalPart hlocal hleft).2.2 (by decide)
  · rcases mem_cons.mp hright with hat | hchar
    · exact absurd hat (by decide)
    · exact (plain_iff.mp (plain_domain hdomain) _ hchar).2.2 (by decide)

end Litterae.Input
