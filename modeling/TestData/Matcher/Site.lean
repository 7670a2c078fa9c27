import TestData.Matcher.Basic
import TestData.Text.Pattern

namespace TestData
namespace Matcher

/-!
# Matchers that look at the site

These matchers pay no attention to the candidate, or hand it on to a matcher at
another site.  One that asks for something the site does not have refuses, and the
inner matcher is then not asked at all.
-/

variable {α β : Type}

/-- Judges the site instead of the candidate. -/
def atSite (matcher : Matcher Site) : Matcher α :=
  fun site _ => matcher site site

/-- Judges the same candidate at the parent of the site. -/
def parent (matcher : Matcher α) : Matcher α :=
  fun site candidate =>
    match site.parent? with
    | some parent => matcher parent candidate
    | none => .of false

/-- Judges what a projection finds at the site. -/
def projected (projection : Site → Option β) (matcher : Matcher β) : Matcher α :=
  fun site _ =>
    match projection site with
    | some found => matcher site found
    | none => .of false

/-- Judges the annotated element of the site. -/
def annotatedSiteIs (matcher : Matcher Element) : Matcher α :=
  projected Site.element? matcher

/-- Judges the executable of the site. -/
def executableIs (matcher : Matcher Executable) : Matcher α :=
  projected Site.executable? matcher

/-- Judges the constructor of the site. -/
def constructorIs (matcher : Matcher Constructor) : Matcher α :=
  projected Site.constructor? matcher

/-- Judges the method of the site. -/
def methodIs (matcher : Matcher Method) : Matcher α :=
  projected Site.method? matcher

/-- Judges the parameter of the site. -/
def parameterIs (matcher : Matcher Parameter) : Matcher α :=
  projected Site.parameter? matcher

/-- Judges the field of the site. -/
def fieldIs (matcher : Matcher Field) : Matcher α :=
  projected Site.field? matcher

/-- Judges the component type at the site of an array element. -/
def arrayElementIs (matcher : Matcher TypeExpr) : Matcher α :=
  projected (fun site =>
    match site.kind with
    | .arrayElement component => some component
    | _ => none) matcher

/-- Matches at sites of the given name. -/
def siteNamed (name : String) : Matcher α :=
  fun site _ => .of (site.name? == some name)

/-- Judges the name of the site. -/
def nameIs (matcher : Matcher String) : Matcher α :=
  projected Site.name? matcher

/-- Matches at sites whose name contains a match of the pattern. -/
def siteNamedLike (pattern : Text.Pattern) : Matcher α :=
  nameIs (ofPredicate pattern.isFoundIn)

end Matcher
end TestData
