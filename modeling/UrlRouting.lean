import UrlRouting.Params.Flatten
import UrlRouting.Params.Json
import UrlRouting.RouteTable.Basic
import UrlRouting.Proofs.Regex.Lexing
import UrlRouting.Proofs.Result
import UrlRouting.Proofs.Text.Escapes
import UrlRouting.Proofs.Text.Split
import UrlRouting.Proofs.Unicode.PropertyNames
import UrlRouting.Proofs.Regex.Tokens
import UrlRouting.Proofs.Regex.Bracket
import UrlRouting.Proofs.Regex.Skipping
import UrlRouting.Proofs.Regex.Advancing
import UrlRouting.Proofs.Regex.LineComments
import UrlRouting.Proofs.Regex.Following
import UrlRouting.Proofs.Regex.Embedding
import UrlRouting.Proofs.Matcher.GroupName
import UrlRouting.Proofs.Matcher.Pieces
import UrlRouting.Proofs.Matcher.Constraint
import UrlRouting.Proofs.Matcher.Restraint
import UrlRouting.Proofs.Pattern.Body
import UrlRouting.Proofs.Pattern.Scanning
import UrlRouting.Proofs.Pattern.Parsing
import UrlRouting.Proofs.Pattern.Openers
import UrlRouting.Proofs.Matcher.Groups
import UrlRouting.Proofs.Pattern.Guard
import UrlRouting.Proofs.Regex.Solving
import UrlRouting.Proofs.Regex.Language
import UrlRouting.Proofs.Regex.Numbering
import UrlRouting.Proofs.Matcher.Reading
import UrlRouting.Proofs.Matcher.Decomposing
import UrlRouting.Proofs.Matcher.Matching
import UrlRouting.Proofs.Pattern.Matching
import UrlRouting.Proofs.Pattern.Confined
import UrlRouting.Proofs.Text.Utf8
import UrlRouting.Proofs.Text.Percent
import UrlRouting.Proofs.Text.Form
import UrlRouting.Proofs.Keyed
import UrlRouting.Proofs.Pattern.Trailing
import UrlRouting.Proofs.Pattern.Segments
import UrlRouting.Proofs.Url.Slashes
import UrlRouting.Proofs.Url.Building
import UrlRouting.Proofs.Url.Leaves
import UrlRouting.Proofs.Url.Parameters
import UrlRouting.Proofs.Url.NormalForm
import UrlRouting.Proofs.Url.Segments
import UrlRouting.Proofs.Pattern.Reporting
import UrlRouting.Proofs.Pattern.RoundTrip
import UrlRouting.Proofs.Pattern.Canonical
import UrlRouting.Proofs.RouteTable.Making
import UrlRouting.Proofs.RouteTable.Resolving
import UrlRouting.Proofs.RouteTable.Extending
import UrlRouting.Proofs.Pattern.Decoding
import UrlRouting.Proofs.Url.Forms
import UrlRouting.Proofs.Pattern.Agreement
import UrlRouting.Proofs.Pattern.Constrained
import UrlRouting.Proofs.Pattern.Placement
import UrlRouting.Proofs.Json.Tokens
import UrlRouting.Proofs.Json.RoundTrip
import UrlRouting.Proofs.Params.Flattening
import UrlRouting.Proofs.Url.Origin
import UrlRouting.Proofs.RouteTable.Absolute
import UrlRouting.Proofs.RouteTable.Globbing
import UrlRouting.Proofs.RouteTable.Joining
import UrlRouting.Proofs.Pattern.Positions
import UrlRouting.Proofs.Regex.Depth
import UrlRouting.Proofs.Regex.Lasting
import UrlRouting.Proofs.Matcher.Assembling
import UrlRouting.Proofs.Pattern.Assembled
import UrlRouting.Proofs.Matcher.Outlining
import UrlRouting.Proofs.Pattern.Presence
import UrlRouting.Proofs.Params.Queries
import UrlRouting.Proofs.Params.History
import UrlRouting.Proofs.Pattern.ByteOpeners
import UrlRouting.Proofs.Text.Component
