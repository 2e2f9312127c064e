/-!
# Quoted strings

The two quoted forms of a string on one line, and lists of strings in brackets.  Between double
quotes a backslash escapes the quote, itself and the three line and tab controls; between single
quotes a quote is written twice.
-/

namespace Pipework.Text

/-- How one character stands between double quotes. -/
def escapeChar : Char → List Char
  | '"' => ['\\', '"']
  | '\\' => ['\\', '\\']
  | '\n' => ['\\', 'n']
  | '\t' => ['\\', 't']
  | '\r' => ['\\', 'r']
  | c => [c]

/-- A string between double quotes. -/
def doubleQuoted (s : List Char) : List Char :=
  '"' :: s.flatMap escapeChar ++ ['"']

/-- How one character stands between single quotes. -/
def doubleSingleQuote : Char → List Char
  | '\'' => ['\'', '\'']
  | c => [c]

/-- A string between single quotes. -/
def singleQuoted (s : List Char) : List Char :=
  '\'' :: s.flatMap doubleSingleQuote ++ ['\'']

/-- Strings in brackets, each between double quotes, with commas between them. -/
def flowList (items : List (List Char)) : List Char :=
  '[' :: [',', ' '].intercalate (items.map doubleQuoted) ++ [']']

end Pipework.Text
