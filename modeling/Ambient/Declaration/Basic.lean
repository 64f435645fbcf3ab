import Ambient.Description

/-!
# Declarations

The declaration of a symbol or of a global: its text, and the parts that the text is put together
from.  Members are kept with their comments and signatures, so that a global can be declared as one
of them without reading the text again.
-/

namespace Ambient

/-- A member as it is declared. -/
structure DeclaredMember where
  name : Text
  comment : Text
  signature : Signature
deriving Repr

namespace DeclaredMember

/-- Whether a member can be called. -/
def isFunction (m : DeclaredMember) : Bool :=
  m.signature.form = some .method

/-- The text of a member inside the declaration of its owner, where `static` can be said. -/
def text (m : DeclaredMember) : Text :=
  Comment.before m.comment m.signature.render

/-- The text of a member where nothing stands before its name. -/
def plainText (m : DeclaredMember) : Text :=
  Comment.before m.comment (m.signature.renderAfter [])

/-- The word before a member that is declared on its own. -/
def word (m : DeclaredMember) : Text :=
  if m.isFunction then "function " else "var "

end DeclaredMember

/-- What is declared under one name. -/
structure Declaration where
  name : Text
  kind : SymbolKind
  text : Text
  comment : Text := []
  signature : Option Signature := none
  members : Table DeclaredMember := []
  interfaces : List Interface := []
deriving Repr

namespace Declaration

/-- The member with a name; one of an instance comes before a static one. -/
def findMember? (d : Declaration) (name : Text) : Option DeclaredMember :=
  let named := (Table.values d.members).filter fun m => m.name = name
  (named.find? fun m => !m.signature.isStatic).or named.head?

end Declaration

end Ambient
