import UrlRouting.Keyed
import UrlRouting.Text.Form

/-!
# Parameter sets

Parameters are texts by name, in the order in which they were given.
-/

namespace UrlRouting

/-- A parameter set. -/
abbrev Params := Keyed Text

/-- The parameters of a query. A repeated key keeps its first place and takes its last value. -/
def Params.ofQuery (query : Text) : Params := .ofList (Form.read query)

end UrlRouting
