import UrlRouting.Unicode.Category
import UrlRouting.Unicode.LetterRanges
import UrlRouting.Unicode.ScriptRuns

/-!
# Character properties

The properties that expressions can ask for, which characters have them, and the names by which
they are called. `isBlank` is the class of blanks that trimming removes.
-/

namespace UrlRouting.Unicode

/-- The white space characters. -/
def isBlank (c : Char) : Bool :=
  let n := c.toNat
  (9 ≤ n && n ≤ 13) || n == 0x20 || n == 0x85 || n == 0xA0 || n == 0x1680 ||
    (0x2000 ≤ n && n ≤ 0x200A) || n == 0x2028 || n == 0x2029 || n == 0x202F || n == 0x205F ||
    n == 0x3000

/-- A property of characters. -/
inductive Property
  | any
  | ascii
  | assigned
  | whiteSpace
  | categories (cs : List Category)
  | script (code : Text)
  | alphabetic
  | lowercase
  | uppercase
  | word
  deriving DecidableEq, Repr

/-- The script of every code point, by its four-letter code. -/
def scriptTable : Runs Text := Runs.read id scriptRuns

/-- The scripts with their codes and long names. -/
def scripts : List (Text × Text) :=
  scriptNames.map fun (code, name) => (code.toList, name.toList)

/-- Alphabetic code points outside the letter categories. -/
def alphabeticRanges : Ranges := Ranges.read otherAlphabetic

/-- Lowercase code points outside the lowercase letters. -/
def lowercaseRanges : Ranges := Ranges.read otherLowercase

/-- Uppercase code points outside the uppercase letters. -/
def uppercaseRanges : Ranges := Ranges.read otherUppercase

/-- Whether a character is alphabetic. -/
def isAlphabetic (c : Char) : Bool :=
  letters.contains (category c) || category c == .letterNumber || alphabeticRanges.holds c.toNat

/-- Whether a character is alphabetic or a number. -/
def isAlphanumeric (c : Char) : Bool :=
  if c.toNat < 0x80 then c.isAlphanum else isAlphabetic c || numbers.contains (category c)

/-- Whether a character is a decimal digit of some script. -/
def isDigit (c : Char) : Bool := category c == .decimalNumber

/-- Whether a character belongs in words: letters, marks, decimal digits, connectors, and the two
joiners. -/
def isWord (c : Char) : Bool :=
  if c.toNat < 0x80 then c.isAlphanum || c == '_'
  else
    isAlphabetic c || marks.contains (category c) || isDigit c ||
      category c == .connectorPunctuation || c == '\u200C' || c == '\u200D'

namespace Property

/-- Whether a character has a property. -/
def holds : Property → Char → Bool
  | any, _ => true
  | ascii, c => c.toNat < 0x80
  | assigned, c => category c != .unassigned
  | whiteSpace, c => isBlank c
  | categories cs, c => cs.contains (category c)
  | script code, c => scriptTable.lookup c.toNat == some code
  | alphabetic, c => isAlphabetic c
  | lowercase, c => category c == .lowercaseLetter || lowercaseRanges.holds c.toNat
  | uppercase, c => category c == .uppercaseLetter || uppercaseRanges.holds c.toNat
  | word, c => isWord c

/-- A name as it is compared: in lower case, without blanks, hyphens and underscores, and
without a leading `is`. -/
def looseName (name : Text) : Text :=
  let plain := (name.filter fun c => c != ' ' && c != '-' && c != '_').map Char.toLower
  match plain with
  | 'i' :: 's' :: rest => rest
  | _ => plain

/-- The properties that are no category and no script, with their names. -/
def namedProperties : List (Property × List String) :=
  [(any, ["any"]), (ascii, ["ascii"]), (assigned, ["assigned"]),
    (whiteSpace, ["whitespace", "wspace", "space"]), (alphabetic, ["alphabetic", "alpha"]),
    (lowercase, ["lowercase", "lower"]), (uppercase, ["uppercase", "upper"])]

/-- The category or group of categories with a given loose name. -/
def ofCategoryName? (name : Text) : Option Property :=
  match Category.ofName? name with
  | some c => some (categories [c])
  | none =>
    (categoryGroups.find? fun (_, names) => names.any (·.toList = name)).map
      fun (cs, _) => categories cs

/-- The script with a given loose name. -/
def ofScriptName? (name : Text) : Option Property :=
  (scripts.find? fun (code, long) => looseName code = name || looseName long = name).map
    fun (code, _) => script code

/-- The property that a name stands for: `name`, or `kind=value` with a kind for categories or
scripts. -/
def ofName? (name : Text) : Option Property :=
  let (kind, value) :=
    match Text.splitFirst ':' name with
    | (kind, some value) => (kind, some value)
    | _ => Text.splitFirst '=' name
  match value with
  | none =>
    let name := looseName name
    match namedProperties.find? fun (_, names) => names.any (·.toList = name) with
    | some (p, _) => some p
    | none => (ofCategoryName? name).or (ofScriptName? name)
  | some value =>
    let kind := looseName kind
    if kind = "gc".toList ∨ kind = "generalcategory".toList then ofCategoryName? (looseName value)
    else if kind = "sc".toList ∨ kind = "script".toList then ofScriptName? (looseName value)
    else none

end Property

end UrlRouting.Unicode
