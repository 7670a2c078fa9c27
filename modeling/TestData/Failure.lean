import TestData.Site.Factory
import TestData.Type.Bindings
import TestData.Type.Visitor

namespace TestData

/-!
# Failures

A stubbing error is a cause with the data that belongs to it; its text is put
together in one place.  A computation that goes too deep has not found an error:
it fails in its own way, so that "no answer within this depth" is never mistaken
for an answer.
-/

/-- Why something could not be stubbed, read or written. -/
inductive StubError where
  | unresolvable (type : TypeExpr) (site : Site)
  | unsupported (cause : UnsupportedType)
  | invalidSite (cause : SiteError)
  | produce (type : TypeExpr) (site : Site) (message : String)
  | config (message : String)
  | io
  | serialization

namespace StubError

/-- The text of an error; errors of reading and writing are told apart by kind only. -/
def message : StubError → String
  | .unresolvable type site => "Cannot stub " ++ type.display ++ " at " ++ site.display
  | .unsupported cause =>
      "Unsupported type " ++ cause.type.display ++ " for " ++ cause.operation
  | .invalidSite cause => "Invalid stubbing site: " ++ cause.message
  | .produce type site message =>
      "Failed to stub " ++ type.display ++ " at " ++ site.display ++ ": " ++ message
  | .config message => "Configuration error: " ++ message
  | .io => "IO error"
  | .serialization => "Serialization error"

/-- The type an error is about. -/
def type? : StubError → Option TypeExpr
  | .unresolvable type _ => some type
  | .unsupported cause => some cause.type
  | .produce type _ _ => some type
  | _ => none

/-- The site an error arose at. -/
def site? : StubError → Option Site
  | .unresolvable _ site => some site
  | .produce _ site _ => some site
  | _ => none

end StubError

/-- How a run can end without a result: in an error, or by going too deep. -/
inductive Failure where
  | error (cause : StubError)
  | exhausted

end TestData
