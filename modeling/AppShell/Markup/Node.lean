/-
AppShell/Markup/Node.lean

Markup and its text.

In the content of an element the three characters that could start markup are
written as entities, and an empty text as one blank.  Attribute values are
written as they are; all of them are fixed by the program.
-/
namespace AppShell.Markup

/-- A piece of markup. -/
inductive Node where
  | text (content : String)
  | element (name : String) (attributes : List (String × String)) (children : List Node)
  | void (name : String) (attributes : List (String × String))

/-- One character of a text. -/
def escapeChar (c : Char) : List Char :=
  match c with
  | '&' => ['&', 'a', 'm', 'p', ';']
  | '<' => ['&', 'l', 't', ';']
  | '>' => ['&', 'g', 't', ';']
  | c => [c]

/-- A text in the content of an element. -/
def escapeText (s : String) : List Char :=
  if s.toList.isEmpty then [' '] else s.toList.flatMap escapeChar

/-- Attributes behind the name of an element. -/
def writeAttributes (attributes : List (String × String)) : List Char :=
  attributes.flatMap fun a => ' ' :: a.1.toList ++ '=' :: '"' :: a.2.toList ++ ['"']

/-- The tag that starts an element. -/
def openTag (name : String) (attributes : List (String × String)) : List Char :=
  '<' :: name.toList ++ writeAttributes attributes ++ ['>']

/-- The tag that ends an element. -/
def closeTag (name : String) : List Char :=
  '<' :: '/' :: name.toList ++ ['>']

mutual
/-- The text of a piece of markup. -/
def Node.write : Node → List Char
  | .text content => escapeText content
  | .element name attributes children =>
    openTag name attributes ++ writeAll children ++ closeTag name
  | .void name attributes => openTag name attributes
/-- The text of several pieces, one behind the other. -/
def writeAll : List Node → List Char
  | [] => []
  | n :: ns => n.write ++ writeAll ns
end

/-- The text of several pieces of markup. -/
def render (nodes : List Node) : String :=
  String.ofList (writeAll nodes)

/-- An element whose only attribute is its class. -/
def Node.classed (name styleClass : String) (children : List Node) : Node :=
  .element name [("class", styleClass)] children

/-- An element without attributes. -/
def Node.plain (name : String) (children : List Node) : Node :=
  .element name [] children

end AppShell.Markup
