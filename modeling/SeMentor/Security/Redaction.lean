import SeMentor.Lib.Pattern
import SeMentor.Paths

set_option autoImplicit false

/- `security/redaction.py`: secrets of a few known shapes are replaced in a text. -/
namespace SeMentor.Redaction

open Paths (Str)
open Pattern

/-- `[A-Za-z0-9]` with some further characters. -/
def keyCharacter (further : List Char) (c : Char) : Bool := c.isAlphanum || further.contains c

/-- `sk-(?:proj-)?[A-Za-z0-9_-]{16,}` -/
def skPattern : Pattern :=
  sequence [literal "sk-".toList, opt (literal "proj-".toList), many (keyCharacter ['_', '-']) 16]

/-- `LTAI[A-Za-z0-9]{8,}` -/
def ltaiPattern : Pattern := sequence [literal "LTAI".toList, many (keyCharacter []) 8]

/-- `(?:ghp_|gho_|glpat-|xox[baprs]-)[A-Za-z0-9_=-]{12,}` -/
def tokenPattern : Pattern :=
  sequence [
    alt (literal "ghp_".toList) (alt (literal "gho_".toList) (alt (literal "glpat-".toList)
      (sequence [literal "xox".toList, one ("baprs".toList.contains ·), literal "-".toList]))),
    many (keyCharacter ['_', '=', '-']) 12]

def defaultPatterns : List Pattern := [skPattern, ltaiPattern, tokenPattern]

/-- `redact_text`. None of the patterns asks for a word boundary. -/
def redactText (text : Str) : Str :=
  defaultPatterns.foldl (fun redacted pattern =>
    sub Char.isAlphanum pattern (fun _ => "[REDACTED:SECRET]".toList) redacted) text

example : redactText "key sk-proj-abcdefghijklmnop ok".toList =
    "key [REDACTED:SECRET] ok".toList := by decide

end SeMentor.Redaction
