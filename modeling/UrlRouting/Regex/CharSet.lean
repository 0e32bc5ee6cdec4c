import UrlRouting.Unicode.CaseVariant
import UrlRouting.Unicode.Property

/-!
# Sets of characters

A character set is kept as the operations that build it; `CharSet.contains` says which
characters it holds.
-/

namespace UrlRouting

open Unicode (Property)

/-- A set of characters. -/
inductive CharSet
  | range (first last : Char)
  | property (p : Property)
  | union (a b : CharSet)
  | inter (a b : CharSet)
  | compl (a : CharSet)
  | caseless (a : CharSet)
  deriving DecidableEq, Repr

namespace CharSet

/-- Whether a set holds a character. A caseless set holds every case variant of its members. -/
def contains : CharSet → Char → Bool
  | range first last, c => first ≤ c && c ≤ last
  | property p, c => p.holds c
  | union a b, c => a.contains c || b.contains c
  | inter a b, c => a.contains c && b.contains c
  | compl a, c => !a.contains c
  | caseless a, c => a.contains c || (Unicode.caseVariants c).any a.contains

/-- The set of one character. -/
def single (c : Char) : CharSet := range c c

/-- All characters. -/
def all : CharSet := property .any

/-- No character. -/
def none : CharSet := compl all

/-- The characters of `a` that are not in `b`. -/
def diff (a b : CharSet) : CharSet := inter a (compl b)

/-- The characters of exactly one of `a` and `b`. -/
def symmDiff (a b : CharSet) : CharSet := union (diff a b) (diff b a)

/-- The set, or its complement. -/
def negateIf (negated : Bool) (a : CharSet) : CharSet := if negated then compl a else a

/-- The set, or its closure under case variants. -/
def caselessIf (flag : Bool) (a : CharSet) : CharSet := if flag then caseless a else a

/-- The characters that some set of a list holds. -/
def unionOf : List CharSet → CharSet
  | [] => none
  | [a] => a
  | a :: as => union a (unionOf as)

/-- The union of ranges of characters. -/
def ofRanges (rs : List (Char × Char)) : CharSet := unionOf (rs.map fun (a, b) => range a b)

/-- The decimal digits. -/
def digits : CharSet := property (.categories [.decimalNumber])

/-- The blanks. -/
def blanks : CharSet := property .whiteSpace

/-- The characters of words. -/
def words : CharSet := property .word

/-- The hexadecimal digits. -/
def hexDigits : CharSet := ofRanges [('0', '9'), ('A', 'F'), ('a', 'f')]

/-- The ASCII classes that have a name of their own. -/
def asciiClasses : List (String × CharSet) :=
  [("alnum", ofRanges [('0', '9'), ('A', 'Z'), ('a', 'z')]),
    ("alpha", ofRanges [('A', 'Z'), ('a', 'z')]),
    ("ascii", range '\x00' '\x7f'),
    ("blank", ofRanges [('\t', '\t'), (' ', ' ')]),
    ("cntrl", ofRanges [('\x00', '\x1f'), ('\x7f', '\x7f')]),
    ("digit", range '0' '9'),
    ("graph", range '!' '~'),
    ("lower", range 'a' 'z'),
    ("print", range ' ' '~'),
    ("punct", ofRanges [('!', '/'), (':', '@'), ('[', '\x60'), ('\x7b', '~')]),
    ("space", ofRanges [('\t', '\r'), (' ', ' ')]),
    ("upper", range 'A' 'Z'),
    ("word", ofRanges [('0', '9'), ('A', 'Z'), ('_', '_'), ('a', 'z')]),
    ("xdigit", hexDigits)]

/-- The ASCII class with a given name. -/
def ofAsciiClass? (name : Text) : Option CharSet :=
  (asciiClasses.find? fun (n, _) => n.toList = name).map Prod.snd

end CharSet

end UrlRouting
