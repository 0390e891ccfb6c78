import SchemaTypes.Types.Expression

/-!
# Declarations

Named types and enums, and the sets of them that a pass over a document yields.
-/
namespace SchemaTypes

open Data

/-- A named type with its description. A record or a union never admits null itself. -/
inductive Declaration where
  | record (name : String) (members : List Member) (description : Option String)
  | union (name : String) (members : List TypeExpr) (description : Option String)
  | array (name : String) (element : TypeExpr) (nullable : Bool) (description : Option String)
  | scalar (name : String) (kind : ScalarKind) (nullable : Bool) (description : Option String)
  | any (name : String) (nullable : Bool) (description : Option String)
deriving DecidableEq, Inhabited

namespace Declaration

def name : Declaration → String
  | .record n .. | .union n .. | .array n .. | .scalar n .. | .any n .. => n

def description : Declaration → Option String
  | .record _ _ d | .union _ _ d | .array _ _ _ d | .scalar _ _ _ d | .any _ _ d => d

/-- The names that the body of a declaration refers to, at any depth. -/
def references : Declaration → List String
  | .record _ members _ => Member.listReferences members
  | .union _ members _ => TypeExpr.listReferences members
  | .array _ element _ _ => element.references
  | .scalar .. | .any .. => []

/-- The members of a record, none for the other kinds. -/
def members : Declaration → List Member
  | .record _ members _ => members
  | _ => []

end Declaration

/-- A member of an enum: its name in the module, and the text it stands for. -/
structure EnumMember where
  identifier : String
  value : String
deriving Repr, DecidableEq, Inhabited

structure EnumDeclaration where
  name : String
  members : List EnumMember
  description : Option String
deriving Repr, DecidableEq, Inhabited

/-- What a pass over a document yields. `referenced` holds every name met as a reference. -/
structure DeclarationSet where
  declarations : List Declaration
  enums : List EnumDeclaration
  referenced : NameSet
deriving DecidableEq, Inhabited

namespace DeclarationSet

def empty : DeclarationSet := ⟨[], [], .empty⟩

/-- The names of the declarations and of the enums. -/
def names (set : DeclarationSet) : List String :=
  set.declarations.map Declaration.name ++ set.enums.map EnumDeclaration.name

def declaredNames (set : DeclarationSet) : NameSet :=
  .ofList set.names

/-- The first declaration of the name. -/
def declaration? (set : DeclarationSet) (name : String) : Option Declaration :=
  set.declarations.find? fun d => d.name == name

/-- The first enum of the name. -/
def enum? (set : DeclarationSet) (name : String) : Option EnumDeclaration :=
  set.enums.find? fun e => e.name == name

def isEmpty (set : DeclarationSet) : Bool :=
  set.declarations.isEmpty && set.enums.isEmpty

end DeclarationSet
end SchemaTypes
