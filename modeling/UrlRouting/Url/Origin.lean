import UrlRouting.Text

/-!
# Origins

A URL may begin with an origin, `scheme://authority`, which matching ignores. `Url.withoutOrigin`
takes it away if it is a valid one. The authority ends at the first slash, and within it at a number
sign.
-/

namespace UrlRouting.Url

/-- Whether a character may occur in a scheme. -/
def isSchemeChar (c : Char) : Bool := c.isAlphanum || ['+', '-', '.', '~'].contains c

/-- The greatest length of a scheme. -/
def maxSchemeLength : Nat := 64

/-- The greatest length of an origin, in bytes. -/
def maxOriginLength : Nat := 65534

/-- The marks that may occur in an authority, besides letters and digits. -/
def authorityMarks : List Char :=
  ['!', '$', '&', '\'', '(', ')', '*', '+', ',', '-', '.', ':', ';', '=', '@', '[', ']', '_', '~',
    '%']

/-- What has been seen of an authority: the colons since the last at sign or closing bracket,
whether brackets have been opened and closed, whether a percent sign has yet to be found inside
brackets or before an at sign, and the last character. -/
structure AuthorityScan where
  colons : Nat := 0
  opened : Bool := false
  closed : Bool := false
  percent : Bool := false
  last : Option Char := none

namespace AuthorityScan

/-- The greatest number of colons, those of an address of eight groups with a port. -/
def maxColons : Nat := 8

/-- Looks at one character, or refuses it. -/
def step (s : AuthorityScan) (c : Char) : Option AuthorityScan :=
  let s := { s with last := some c }
  if !(c.isAlphanum || authorityMarks.contains c) then none
  else if c = ':' then
    if s.colons ≥ maxColons then none else some { s with colons := s.colons + 1 }
  else if c = '[' then if s.percent || s.opened then none else some { s with opened := true }
  else if c = ']' then
    if !s.opened || s.closed then none
    else some { s with closed := true, colons := 0, percent := false }
  else if c = '@' then some { s with colons := 0, percent := false }
  else if c = '%' then some { s with percent := true }
  else some s

/-- Whether an authority may end here: brackets in pairs, at most the colon of a port, no stray
percent sign, and a host. -/
def complete (s : AuthorityScan) : Bool :=
  s.opened == s.closed && s.colons ≤ 1 && !s.percent && s.last.isSome && s.last != some '@'

end AuthorityScan

/-- Whether a text is an authority. -/
def isAuthority (t : Text) : Bool :=
  match (t.takeWhile (· ≠ '#')).foldlM AuthorityScan.step {} with
  | some s => s.complete
  | none => false

/-- What stands before the first `://`, and what stands after it. -/
def splitScheme? : Text → Option (Text × Text)
  | [] => none
  | ':' :: '/' :: '/' :: t => some ([], t)
  | c :: t => (splitScheme? t).map fun (scheme, rest) => (c :: scheme, rest)

/-- Whether a scheme and an authority make an origin. -/
def isOrigin (scheme authority : Text) : Bool :=
  scheme.all isSchemeChar && scheme.length ≤ maxSchemeLength && isAuthority authority &&
    Text.byteLength scheme + 3 + Text.byteLength authority ≤ maxOriginLength

/-- The path of a location: the location without its origin. A bare origin stands for `/`. -/
def withoutOrigin (location : Text) : Text :=
  match splitScheme? location with
  | none => location
  | some (scheme, rest) =>
    if isOrigin scheme (rest.takeWhile (· ≠ '/')) then
      match rest.dropWhile (· ≠ '/') with
      | [] => ['/']
      | path => path
    else location

end UrlRouting.Url
