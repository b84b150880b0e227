/-
Dialects and their grammar families. A dialect is the name of a language that
abbreviations are written for (`html`, `scss`, ...); each belongs to one of two
families, and a name that is not known counts as markup so that it still gets a
usable configuration.
-/
import Shorthand.Text.Class

namespace Shorthand.Dialect

/-- The grammar family of a dialect. -/
inductive Family where
  | markup
  | stylesheet
  deriving DecidableEq, Repr, Inhabited

def Family.name : Family → Text
  | .markup => "markup".toList
  | .stylesheet => "stylesheet".toList

/-- The dialect at the root of a family. -/
def Family.root : Family → Text
  | .markup => "html".toList
  | .stylesheet => "css".toList

/-- The markup dialects, the root first. -/
def markupDialects : List Text :=
  ["html", "xhtml", "xml", "xsl", "jsx", "haml", "pug", "slim", "vue"].map String.toList

/-- The stylesheet dialects, the root first. -/
def stylesheetDialects : List Text :=
  ["css", "scss", "sass", "less", "sss", "stylus"].map String.toList

def family (dialect : Text) : Family :=
  if stylesheetDialects.contains dialect then .stylesheet else .markup

def isStylesheet (dialect : Text) : Bool := family dialect == .stylesheet

def isKnown (dialect : Text) : Bool :=
  markupDialects.contains dialect || stylesheetDialects.contains dialect

/-- The family of a dialect that may be missing. -/
def familyOf : Option Text → Family
  | none => .markup
  | some dialect => family dialect

end Shorthand.Dialect
