import Litterae.Jmap.EmailGet

/-! # Search input as a query (`jmap/src/search.rs`)

`fts5_query` turns what the user typed into a MATCH expression. Read by FTS5's rules it is one quoted
string for each word, with the star that asks for words starting so, and nothing else.
-/

namespace Litterae.Jmap
open Foundations List

inductive Fts5Token where
  | string (text : Text) (starred : Bool)
  | other (c : Char)
  deriving DecidableEq

inductive Lexing where
  | outside
  | inside (text : Text)
  | quote (text : Text)

def fts5Space (c : Char) : Bool := c == ' ' || c == '\t' || c == '\n' || c == '\r'

/-- FTS5's lexer, as far as strings go: any other character that is not white space stands for itself.
After a quote inside a string only the next character tells whether the string has ended. -/
def fts5Lex : Lexing → Text → Option (List Fts5Token)
  | .outside, [] => some []
  | .outside, '"' :: s => fts5Lex (.inside []) s
  | .outside, c :: s =>
    if fts5Space c then fts5Lex .outside s else (fts5Lex .outside s).map (.other c :: ·)
  | .inside _, [] => none
  | .inside text, '"' :: s => fts5Lex (.quote text) s
  | .inside text, c :: s => fts5Lex (.inside (text ++ [c])) s
  | .quote text, [] => some [.string text false]
  | .quote text, '"' :: s => fts5Lex (.inside (text ++ ['"'])) s
  | .quote text, '*' :: s => (fts5Lex .outside s).map (.string text true :: ·)
  | .quote text, c :: s =>
    (if fts5Space c then fts5Lex .outside s else (fts5Lex .outside s).map (.other c :: ·)).map
      (.string text false :: ·)

def escaped (token : Text) : Text := token.flatMap fun c => if c = '"' then ['"', '"'] else [c]

def quoted (token : Text) : Text := '"' :: escaped token ++ ['"', '*']

theorem fts5Lex_escaped (token text rest : Text) :
    fts5Lex (.inside text) (escaped token ++ '"' :: rest) = fts5Lex (.quote (text ++ token)) rest := by
  unfold escaped
  induction token generalizing text with
  | nil => simp [fts5Lex]
  | cons c _ ih => by_cases hc : c = '"' <;> simp [hc, fts5Lex, ih]

theorem fts5Lex_quoted (token rest : Text) :
    fts5Lex .outside (quoted token ++ rest) =
      (fts5Lex .outside rest).map (.string token true :: ·) := by
  have hescaped := fts5Lex_escaped token [] ('*' :: rest)
  simpa [quoted, fts5Lex] using hescaped

/-- No text that is searched for is read as anything but its words. -/
theorem fts5Lex_query (query : Text) :
    fts5Lex .outside (fts5Query query) =
      some ((splitWhitespace query).map fun token => .string token true) := by
  have hspace : ∀ s, fts5Lex .outside (" " ++ s) = fts5Lex .outside s := fun s => by
    simp [fts5Lex, fts5Space]
  change fts5Lex .outside (join " " ((splitWhitespace query).map quoted)) = _
  induction splitWhitespace query with
  | nil => rfl
  | cons token tokens ih =>
    cases tokens with
    | nil => simpa [join, fts5Lex] using fts5Lex_quoted token []
    | cons =>
      rw [map_cons, join, map_cons, intercalate_cons_cons, append_assoc, fts5Lex_quoted, hspace]
      exact congrArg (Option.map (.string token true :: ·)) ih

end Litterae.Jmap
