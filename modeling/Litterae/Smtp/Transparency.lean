import Litterae.Smtp.Wire

/-! # DATA transparency

`dotStuff` is the sender's side of RFC 5321: a dot is doubled where it starts the message or follows
a CRLF. The readers cut at every LF instead, so they agree with the sender exactly on the
messages without a bare LF before a dot.
-/

namespace Litterae.Smtp
open Foundations List

/-! ## The sender -/

/-- `start`: at the start of the message or right after CRLF; `afterCr`: right after CR. -/
def dotStuffFrom (start afterCr : Bool) : Bytes → Bytes
  | [] => []
  | b :: rest =>
    let tail := dotStuffFrom (afterCr && b == lf) (b == cr) rest
    if start && b == dot then dot :: b :: tail else b :: tail

def dotStuff (m : Bytes) : Bytes := dotStuffFrom true false m

def BareLfDot (m : Bytes) : Prop := ∃ p q, m = p ++ lf :: dot :: q ∧ p.getLast? ≠ some cr

/-- Every line, up to its LF, is within the limit. -/
def LinesWithin (maxLine : ℕ) (bytes : Bytes) : Prop :=
  ∀ l ∈ linesOf lf bytes, l.length ≤ maxLine + 1

/-! ## Line by line -/

/-- Whether the byte before the end is a CR, given whether the one before the start is. -/
def crLast : Bool → Bytes → Bool
  | afterCr, [] => afterCr
  | _, b :: rest => crLast (b == cr) rest

def endsCrlf (l : Bytes) : Bool := crLast false l.dropLast

def stuffLine (start : Bool) (l : Bytes) : Bytes :=
  if start && l.head? == some dot then dot :: l else l

def stuffLines : Bool → List Bytes → List Bytes
  | _, [] => []
  | start, l :: ls => stuffLine start l :: stuffLines (endsCrlf l) ls

/-- A line starts with a dot although the one before it did not end in CRLF. -/
def Exposed : Bool → List Bytes → Prop
  | _, [] => False
  | start, l :: ls => (start = false ∧ l.head? = some dot) ∨ Exposed (endsCrlf l) ls

theorem dotStuffFrom_body {body rest : Bytes} (afterCr : Bool) (hbody : lf ∉ body) :
    dotStuffFrom false afterCr (body ++ lf :: rest) =
      body ++ lf :: dotStuffFrom (crLast afterCr body) false rest := by
  induction body generalizing afterCr with
  | nil => simp [dotStuffFrom, crLast, lf, cr]
  | cons b tail ih =>
    have hb : b ≠ lf := (ne_of_not_mem_cons hbody).symm
    have htail : lf ∉ tail := not_mem_of_not_mem_cons hbody
    have hnot : (afterCr && b == lf) = false := by simp [hb]
    rw [cons_append, dotStuffFrom, hnot, ih (b == cr) htail]
    rfl

variable (start : Bool) {l : Bytes}

theorem dotStuffFrom_line {rest : Bytes} (hl : IsLine lf l) :
    dotStuffFrom start false (l ++ rest) =
      stuffLine start l ++ dotStuffFrom (endsCrlf l) false rest := by
  obtain ⟨body, rfl, hbody⟩ := hl
  rcases body with _ | ⟨b, tail⟩
  · cases start <;> simp [dotStuffFrom, stuffLine, endsCrlf, crLast, lf, dot, cr]
  · have htail : lf ∉ tail := fun h => hbody (mem_cons_of_mem b h)
    have hrest := @dotStuffFrom_body tail rest (b == cr) htail
    have hends : endsCrlf (b :: tail ++ [lf]) = crLast (b == cr) tail := by
      rw [endsCrlf, dropLast_concat, crLast]
    rw [hends, append_assoc, cons_append, dotStuffFrom, Bool.false_and]
    by_cases hs : (start && b == dot)
    · simp [hs, hrest, stuffLine]
    · simp [hs, hrest, stuffLine]

variable {ls : List Bytes}

theorem dotStuffFrom_lines (hls : ∀ l ∈ ls, IsLine lf l) :
    dotStuffFrom start false ls.flatten = (stuffLines start ls).flatten := by
  induction ls generalizing start with
  | nil => rfl
  | cons l _ ih =>
    rw [flatten_cons, dotStuffFrom_line start (hls l mem_cons_self),
      ih (endsCrlf l) fun l' h => hls l' (mem_cons_of_mem l h)]
    rfl

theorem stuffLine_isLine (hl : IsLine lf l) :
    IsLine lf (stuffLine start l) := by
  unfold stuffLine
  split
  · exact hl.cons (by decide)
  · exact hl

theorem stuffLines_isLine (hls : ∀ l ∈ ls, IsLine lf l) :
    ∀ w ∈ stuffLines start ls, IsLine lf w := by
  induction ls generalizing start with
  | nil => simp [stuffLines]
  | cons l _ ih =>
    simp only [stuffLines, forall_mem_cons] at hls ⊢
    exact ⟨stuffLine_isLine start hls.1, ih (endsCrlf l) hls.2⟩

/-! ## The reader, line by line -/

variable {ending : Ending}

section
variable {maxLine maxSize : ℕ}

theorem readDataFrom_isLine {out rest : Bytes} (hl : IsLine lf l) (hlen : l.length ≤ maxLine + 1) :
    readDataFrom maxLine maxSize ending out (l ++ rest) =
      if isTerminator l then (.ok out, rest)
      else if out.length + (unstuff l).length > maxSize then (.error .tooLarge, rest)
      else readDataFrom maxLine maxSize ending (out ++ unstuff l) rest := by
  obtain ⟨body, rfl, hbody⟩ := hl
  refine readDataFrom_line ?_
  have hbodyLen : ([] ++ body : Bytes).length ≤ maxLine := by
    simp only [length_append, length_singleton] at hlen
    simp only [nil_append]
    omega
  have hread := @readLineFrom_line maxLine ending [] body rest hbody hbodyLen
  simpa using hread

theorem readDataFrom_end (out rest : Bytes) (hmax : 2 ≤ maxLine) :
    readDataFrom maxLine maxSize ending out ([dot, cr, lf] ++ rest) = (.ok out, rest) := by
  have hline : IsLine lf [dot, cr, lf] := ⟨[dot, cr], rfl, by decide⟩
  have hlen : [dot, cr, lf].length ≤ maxLine + 1 := by simpa using hmax
  rw [readDataFrom_isLine hline hlen]
  rfl

theorem unstuff_length_lt (h : l.head? = some dot) : (unstuff l).length < l.length := by
  rcases l with _ | ⟨b, tail⟩
  · simp at h
  · simp [unstuff, h]

theorem unstuff_stuffLine {start : Bool} (h : ¬ (start = false ∧ l.head? = some dot)) :
    unstuff (stuffLine start l) = l := by
  by_cases hdot : l.head? = some dot
  · have hstart : start = true := by simpa [hdot] using h
    simp [stuffLine, unstuff, hstart, hdot]
  · simp [stuffLine, unstuff, hdot]

theorem not_isTerminator_stuffLine {start : Bool} (h : ¬ (start = false ∧ l.head? = some dot)) :
    isTerminator (stuffLine start l) = false := by
  by_cases hdot : l.head? = some dot
  · have hstart : start = true := by simpa [hdot] using h
    obtain ⟨tail, rfl⟩ : ∃ tail, l = dot :: tail := by
      rcases l with _ | ⟨b, tail⟩
      · simp at hdot
      · exact ⟨tail, by simpa using hdot⟩
    simp [stuffLine, isTerminator, hstart, dot, cr, lf]
  · have hcrlf : l ≠ [dot, cr, lf] := fun h => hdot (by rw [h]; rfl)
    have hlf : l ≠ [dot, lf] := fun h => hdot (by rw [h]; rfl)
    simp [stuffLine, isTerminator, hdot, hcrlf, hlf]

/-- What the reader makes of the stuffed lines: all of them when none is exposed, and otherwise
something shorter, if it ends at all. -/
theorem readDataFrom_stuffLines (start : Bool) (out rest : Bytes) (hls : ∀ l ∈ ls, IsLine lf l)
    (hlen : ∀ w ∈ stuffLines start ls, w.length ≤ maxLine + 1) (hmax : 2 ≤ maxLine)
    (hsize : out.length + ls.flatten.length ≤ maxSize) :
    let result := readDataFrom maxLine maxSize ending out
      ((stuffLines start ls).flatten ++ ([dot, cr, lf] ++ rest))
    (¬ Exposed start ls → result = (.ok (out ++ ls.flatten), rest)) ∧
      (Exposed start ls → ∀ m, result.1 = .ok m → m.length < out.length + ls.flatten.length) := by
  induction ls generalizing start out with
  | nil =>
    simp only [stuffLines, flatten_nil, nil_append, readDataFrom_end out rest hmax]
    exact ⟨fun _ => by simp, fun h => h.elim⟩
  | cons l ls ih =>
    have hl : IsLine lf l := hls l mem_cons_self
    have htail : ∀ l' ∈ ls, IsLine lf l' := fun l' h => hls l' (mem_cons_of_mem l h)
    have hwire := hlen (stuffLine start l) mem_cons_self
    have hwires : ∀ w ∈ stuffLines (endsCrlf l) ls, w.length ≤ maxLine + 1 :=
      fun w h => hlen w (mem_cons_of_mem _ h)
    simp only [flatten_cons, length_append] at hsize ⊢
    simp only [stuffLines, flatten_cons, append_assoc]
    rw [readDataFrom_isLine (stuffLine_isLine start hl) hwire]
    by_cases hexposed : start = false ∧ l.head? = some dot
    · -- the sender left the dot alone: the reader stops here or drops it
      have hshort := unstuff_length_lt hexposed.2
      have hplain : stuffLine start l = l := by simp [stuffLine, hexposed.1]
      refine ⟨fun h => absurd (.inl hexposed) h, fun _ m hm => ?_⟩
      rw [hplain] at hm
      by_cases hterm : isTerminator l
      · rw [if_pos hterm] at hm
        obtain rfl : out = m := by simpa using hm
        omega
      · have hfits : ¬ out.length + (unstuff l).length > maxSize := by omega
        rw [if_neg hterm, if_neg hfits] at hm
        have hrec := ih (endsCrlf l) (out ++ unstuff l) htail hwires
          (by simp only [length_append]; omega)
        have hbound : m.length ≤ (out ++ unstuff l).length + ls.flatten.length := by
          by_cases hrest : Exposed (endsCrlf l) ls
          · exact Nat.le_of_lt (hrec.2 hrest m hm)
          · rw [hrec.1 hrest] at hm
            obtain rfl : out ++ unstuff l ++ ls.flatten = m := by simpa using hm
            exact Nat.le_of_eq length_append
        simp only [length_append] at hbound
        omega
    · have hplain := unstuff_stuffLine hexposed
      have hfits : ¬ out.length + l.length > maxSize := by omega
      have hiff : Exposed start (l :: ls) ↔ Exposed (endsCrlf l) ls := or_iff_right hexposed
      rw [not_isTerminator_stuffLine hexposed, if_neg Bool.false_ne_true, hplain, if_neg hfits, hiff]
      have hrec := ih (endsCrlf l) (out ++ l) htail hwires
        (by simp only [length_append]; omega)
      simp only [length_append, append_assoc, Nat.add_assoc] at hrec
      exact hrec

end

/-! ## The exposed dots of a message -/

variable (afterCr : Bool)

theorem crLast_eq_true {p : Bytes} :
    crLast afterCr p ↔ p.getLast? = some cr ∨ (p = [] ∧ afterCr) := by
  induction p generalizing afterCr with
  | nil => simp [crLast]
  | cons b tail ih =>
    rw [crLast, ih]
    rcases tail with _ | ⟨c, tail⟩
    · simp
    · simp [List.getLast?_cons_cons]

def BareLfDotFrom (afterCr : Bool) (m : Bytes) : Prop :=
  ∃ p q, m = p ++ lf :: dot :: q ∧ crLast afterCr p = false

theorem bareLfDot_iff (m : Bytes) : BareLfDot m ↔ BareLfDotFrom false m := by
  have hlast : ∀ p : Bytes, p.getLast? ≠ some cr ↔ crLast false p = false := by
    intro p
    rw [← Bool.not_eq_true, crLast_eq_true]
    simp
  simp only [BareLfDot, BareLfDotFrom, hlast]

theorem bareLfDotFrom_nil : ¬ BareLfDotFrom afterCr [] := by
  rintro ⟨p, q, h, -⟩
  simp at h

theorem bareLfDotFrom_cons (b : UInt8) (m : Bytes) :
    BareLfDotFrom afterCr (b :: m) ↔
      (b = lf ∧ afterCr = false ∧ m.head? = some dot) ∨ BareLfDotFrom (b == cr) m := by
  constructor
  · rintro ⟨p, q, h, hp⟩
    rcases p with _ | ⟨c, p⟩
    · simp only [nil_append, List.cons.injEq] at h
      exact .inl ⟨h.1, hp, by rw [h.2]; rfl⟩
    · simp only [cons_append, List.cons.injEq] at h
      exact .inr ⟨p, q, h.2, by rw [h.1]; exact hp⟩
  · rintro (⟨rfl, hcr, hdot⟩ | ⟨p, q, rfl, hp⟩)
    · obtain ⟨q, rfl⟩ : ∃ q, m = dot :: q := by
        rcases m with _ | ⟨c, q⟩
        · simp at hdot
        · exact ⟨q, by simpa using hdot⟩
      exact ⟨[], q, rfl, hcr⟩
    · exact ⟨b :: p, q, rfl, hp⟩

theorem bareLfDotFrom_line {body m : Bytes} (hbody : lf ∉ body) :
    BareLfDotFrom afterCr (body ++ lf :: m) ↔
      (crLast afterCr body = false ∧ m.head? = some dot) ∨ BareLfDotFrom false m := by
  induction body generalizing afterCr with
  | nil =>
    have hlf : (lf == cr) = false := by decide
    rw [nil_append, bareLfDotFrom_cons, hlf]
    simp [crLast]
  | cons b tail ih =>
    have hb : b ≠ lf := (ne_of_not_mem_cons hbody).symm
    have htail : lf ∉ tail := not_mem_of_not_mem_cons hbody
    rw [cons_append, bareLfDotFrom_cons, ih (b == cr) htail, crLast]
    simp [hb]

theorem exposed_iff (start : Bool) (hls : ∀ l ∈ ls, IsLine lf l) :
    Exposed start ls ↔
      (start = false ∧ ls.flatten.head? = some dot) ∨ BareLfDotFrom false ls.flatten := by
  induction ls generalizing start with
  | nil => simp [Exposed, bareLfDotFrom_nil]
  | cons l ls ih =>
    obtain ⟨body, rfl, hbody⟩ := hls l mem_cons_self
    have htail : ∀ l' ∈ ls, IsLine lf l' := fun l' h => hls l' (mem_cons_of_mem _ h)
    have hends : endsCrlf (body ++ [lf]) = crLast false body := by
      rw [endsCrlf, dropLast_concat]
    have hhead : (body ++ [lf] ++ ls.flatten).head? = (body ++ [lf]).head? := by
      rcases body with _ | ⟨b, tail⟩ <;> rfl
    rw [Exposed, ih _ htail, flatten_cons, hhead, hends, append_assoc,
      singleton_append, bareLfDotFrom_line false hbody]

/-! ## Both directions -/

/-- The reader gives back a stuffed message and leaves the rest unread exactly when the message
has no bare LF before a dot. -/
theorem readData_dotStuff_iff {maxLine maxSize : ℕ} {m rest : Bytes}
    (hend : m = [] ∨ [cr, lf] <:+ m) (hlines : LinesWithin maxLine (dotStuff m))
    (hmax : 2 ≤ maxLine) (hsize : m.length ≤ maxSize) :
    readData maxLine maxSize ⟨dotStuff m ++ ([dot, cr, lf] ++ rest), ending⟩ =
      (.ok m, ⟨rest, ending⟩) ↔ ¬ BareLfDot m := by
  have hlast : m = [] ∨ m.getLast? = some lf := by
    refine hend.imp_right ?_
    rintro ⟨p, rfl⟩
    simp
  have hls := linesOf_isLine lf m hlast
  have hflat : (linesOf lf m).flatten = m := linesOf_flatten lf m
  have hstuff : dotStuff m = (stuffLines true (linesOf lf m)).flatten := by
    rw [← dotStuffFrom_lines true hls, hflat]
    rfl
  have hwires : ∀ w ∈ stuffLines true (linesOf lf m), w.length ≤ maxLine + 1 := by
    rwa [LinesWithin, hstuff, linesOf_of_isLine lf (stuffLines_isLine true hls)] at hlines
  have hbad : BareLfDot m ↔ Exposed true (linesOf lf m) := by
    rw [exposed_iff true hls, hflat, bareLfDot_iff]
    simp
  have hfits : ([] : Bytes).length + (linesOf lf m).flatten.length ≤ maxSize := by
    rw [hflat]
    simpa using hsize
  have hread := @readDataFrom_stuffLines _ ending maxLine maxSize true [] rest hls hwires hmax hfits
  rw [hflat, ← hstuff, ← hbad] at hread
  simp only [readData, Prod.mk.injEq, Reader.mk.injEq, and_true]
  constructor
  · rintro ⟨hm, -⟩ hexposed
    have hlt := hread.2 hexposed m hm
    simp at hlt
  · intro hclean
    rw [hread.1 hclean]
    exact ⟨rfl, rfl⟩

end Litterae.Smtp
