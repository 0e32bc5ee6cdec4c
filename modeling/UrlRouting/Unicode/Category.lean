import UrlRouting.Unicode.CategoryRuns
import UrlRouting.Unicode.Runs

/-!
# General categories

The general category of a character and the groups of categories that properties are made of.
-/

namespace UrlRouting.Unicode

/-- The general categories. -/
inductive Category
  | uppercaseLetter | lowercaseLetter | titlecaseLetter | modifierLetter | otherLetter
  | nonspacingMark | spacingMark | enclosingMark
  | decimalNumber | letterNumber | otherNumber
  | connectorPunctuation | dashPunctuation | openPunctuation | closePunctuation
  | initialPunctuation | finalPunctuation | otherPunctuation
  | mathSymbol | currencySymbol | modifierSymbol | otherSymbol
  | spaceSeparator | lineSeparator | paragraphSeparator
  | control | format | surrogate | privateUse | unassigned
  deriving DecidableEq, Repr

namespace Category

/-- The categories with their two-letter codes and their long names, both in lower case and
without separators. -/
def names : List (Category × String × String) :=
  [(uppercaseLetter, "lu", "uppercaseletter"), (lowercaseLetter, "ll", "lowercaseletter"),
    (titlecaseLetter, "lt", "titlecaseletter"), (modifierLetter, "lm", "modifierletter"),
    (otherLetter, "lo", "otherletter"), (nonspacingMark, "mn", "nonspacingmark"),
    (spacingMark, "mc", "spacingmark"), (enclosingMark, "me", "enclosingmark"),
    (decimalNumber, "nd", "decimalnumber"), (letterNumber, "nl", "letternumber"),
    (otherNumber, "no", "othernumber"), (connectorPunctuation, "pc", "connectorpunctuation"),
    (dashPunctuation, "pd", "dashpunctuation"), (openPunctuation, "ps", "openpunctuation"),
    (closePunctuation, "pe", "closepunctuation"),
    (initialPunctuation, "pi", "initialpunctuation"),
    (finalPunctuation, "pf", "finalpunctuation"), (otherPunctuation, "po", "otherpunctuation"),
    (mathSymbol, "sm", "mathsymbol"), (currencySymbol, "sc", "currencysymbol"),
    (modifierSymbol, "sk", "modifiersymbol"), (otherSymbol, "so", "othersymbol"),
    (spaceSeparator, "zs", "spaceseparator"), (lineSeparator, "zl", "lineseparator"),
    (paragraphSeparator, "zp", "paragraphseparator"), (control, "cc", "control"),
    (format, "cf", "format"), (surrogate, "cs", "surrogate"), (privateUse, "co", "privateuse"),
    (unassigned, "cn", "unassigned")]

/-- The category with a given code or long name. -/
def ofName? (name : Text) : Option Category :=
  (names.find? fun (_, code, long) => code.toList = name || long.toList = name).map Prod.fst

end Category

/-- The general category of every code point. -/
def categoryTable : Runs Category :=
  Runs.read (fun code => (Category.ofName? (code.map Char.toLower)).getD .unassigned) categoryRuns

/-- The general category of a character. -/
def category (c : Char) : Category := (categoryTable.lookup c.toNat).getD .unassigned

/-- The letters of all cases. -/
def letters : List Category :=
  [.uppercaseLetter, .lowercaseLetter, .titlecaseLetter, .modifierLetter, .otherLetter]

/-- The combining marks. -/
def marks : List Category := [.nonspacingMark, .spacingMark, .enclosingMark]

/-- The numbers. -/
def numbers : List Category := [.decimalNumber, .letterNumber, .otherNumber]

/-- The groups of categories that have a name of their own, with their names. -/
def categoryGroups : List (List Category × List String) :=
  [(letters, ["l", "letter"]),
    ([.uppercaseLetter, .lowercaseLetter, .titlecaseLetter], ["lc", "casedletter"]),
    (marks, ["m", "mark", "combiningmark"]),
    (numbers, ["n", "number"]),
    ([.decimalNumber], ["digit"]),
    ([.connectorPunctuation, .dashPunctuation, .openPunctuation, .closePunctuation,
      .initialPunctuation, .finalPunctuation, .otherPunctuation],
      ["p", "punctuation", "punct"]),
    ([.mathSymbol, .currencySymbol, .modifierSymbol, .otherSymbol], ["s", "symbol"]),
    ([.spaceSeparator, .lineSeparator, .paragraphSeparator], ["z", "separator"]),
    ([.control], ["cntrl"]),
    ([.control, .format, .surrogate, .privateUse, .unassigned], ["c", "other"])]

end UrlRouting.Unicode
