import StatesLang.Path.Parser

/-!
# Paths into two documents

Expressions read the input document, or the context document if the path starts with `$$`.

* `Path.Source`: the two documents; `Path.Sources` holds both.
* `Path.scoped?`: the document that a path expression reads, and the path in it.
* `Path.Sources.select`: the node that a path expression identifies.
-/

namespace StatesLang.Path

/-- The document that a path expression reads. -/
inductive Source
  | input
  | context
deriving DecidableEq

/-- The two documents that expressions read. -/
structure Sources where
  input : Json
  context : Json
deriving DecidableEq

/-- The document that a path expression reads, and the path in it. A text that does not start with
`$` is no path expression. -/
def scoped? (text : String) : Option (Source × String) :=
  match text.toList with
  | '$' :: '$' :: rest => some (.context, String.ofList ('$' :: rest))
  | '$' :: _ => some (.input, text)
  | _ => none

/-- The document of a source. -/
def Sources.document (d : Sources) : Source → Json
  | .input => d.input
  | .context => d.context

/-- The node that a path in one of the documents identifies. -/
def Sources.select (d : Sources) (source : Source) (path : String) : Option Json :=
  selectText (d.document source) path

end StatesLang.Path
