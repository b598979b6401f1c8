import Folio.Text.Blank
import Folio.Text.Case
import Folio.Path

/-!
# Schemes and references

A view belongs to one of four schemes, which say how it is rendered and where its files lie. A reference names a view
across all schemes; it is built from the scheme and the view's name with its first character in upper case.
-/

namespace Folio

/-- How a view is rendered. The order of the cases is the order in which schemes are gone through. -/
inductive Scheme
  | theme
  | page
  | template
  | wrap
  deriving DecidableEq, Repr, Inhabited

namespace Scheme

/-- Every scheme, in order. -/
def all : List Scheme := [theme, page, template, wrap]

/-- The name of a scheme; also the directory that holds its views. -/
def name : Scheme → String
  | theme => "theme"
  | page => "page"
  | template => "template"
  | wrap => "wrap"

/-- The name of a scheme inside a reference. -/
def title : Scheme → String
  | theme => "Theme"
  | page => "Page"
  | template => "Template"
  | wrap => "Wrap"

/-- A theme or a page is one file, a template or a wrap a directory of files. -/
def isSingleFile : Scheme → Bool
  | theme | page => true
  | template | wrap => false

/-- The scheme with exactly this name. -/
def ofName? (s : String) : Option Scheme :=
  all.find? (·.name = s)

/-- A text that names no scheme, as it was compared. -/
structure Unknown where
  name : String
  deriving DecidableEq, Repr

/-- The wording of an unknown scheme. -/
def Unknown.message (e : Unknown) : String :=
  "unknown view scheme '" ++ e.name ++ "'; expected: theme, page, template, wrap"

/-- The scheme a text names, white space around it and the case of its ASCII letters set aside. -/
def parse (s : String) : Except Unknown Scheme :=
  let name := Text.lowerAscii (Text.trim s)
  match ofName? name with
  | some scheme => .ok scheme
  | none => .error ⟨name⟩

/-- The scheme under which a tag of a given kind is looked up: pages and wraps keep their own, every other kind is a
template. -/
def ofKind (kind : String) : Scheme :=
  let name := Text.capitalize kind
  if name = page.title then page
  else if name = wrap.title then wrap
  else template

theorem mem_all (s : Scheme) : s ∈ all := by cases s <;> decide

theorem ofName?_name (s : Scheme) : ofName? s.name = some s := by cases s <;> decide

end Scheme

/-- The extension of the files that hold views. -/
def viewExtension : String := "tera"

/-- The reference of a view. -/
def reference (scheme : Scheme) (name : String) : String :=
  scheme.title ++ ":///App//View//" ++ scheme.title ++ "//" ++ Text.capitalize name

/-- Where the files of a view lie if nothing else is said: a file or a directory in the directory of its scheme. -/
def defaultIncludePath (scheme : Scheme) (name : String) : String :=
  Path.join scheme.name (if scheme.isSingleFile then name ++ "." ++ viewExtension else name)

end Folio
