import SchemaTypes.Module.Descriptor
import SchemaTypes.Text.Quoted
import SchemaTypes.Types.Declaration

/-!
# Module text

The source text of a declaration set: a header, then each declaration after a blank line, the types
first and the enums after them.
-/
namespace SchemaTypes

/-- The name of the file for the module, unless another is asked for. -/
def moduleFileName : String :=
  "types.bal"

def moduleHeader : String :=
  "// AUTO-GENERATED FILE. DO NOT MODIFY.\n" ++
    "// This file was generated by openapi-typegen-generator."

/-- A description that there is something to say about. -/
def describedBy : Option String → Option String
  | some text => if text.isEmpty then none else some text
  | none => none

def Member.text : Member → String
  | .inclusion name => "\n    *" ++ name ++ ";"
  | .field name _ type required description =>
    (match describedBy description with
      | some text => "\n    # " ++ text
      | none => "") ++
      "\n    " ++ type.descriptor ++ " " ++ name ++ missingMark required ++ ";"

/-- The lines above a declaration: a blank one, and its description. -/
def leadText (description : Option String) : String :=
  "\n\n" ++
    (match describedBy description with
      | some text => "# " ++ text ++ "\n"
      | none => "")

namespace Declaration

/-- The declaration itself, without the lines above it. -/
def body : Declaration → String
  | .record name members _ =>
    "public type " ++ name ++ " record \x7b" ++ String.join (members.map Member.text) ++ "\n\x7d;"
  | .union name members _ =>
    "public type " ++ name ++ " " ++ TypeExpr.unionDescriptor members ++ ";"
  | .array name element nullable _ =>
    "public type " ++ name ++ " " ++ (TypeExpr.array element false).descriptor ++
      nullMark nullable ++ ";"
  | .scalar name kind nullable _ =>
    "public type " ++ name ++ " " ++ kind.keyword ++ nullMark nullable ++ ";"
  | .any name nullable _ => "public type " ++ name ++ " anydata" ++ nullMark nullable ++ ";"

def text (d : Declaration) : String :=
  leadText d.description ++ d.body

end Declaration

namespace EnumDeclaration

/-- The members, one a line, with commas between them. -/
def memberLines : List EnumMember → String
  | [] => ""
  | [m] => "\n    " ++ m.identifier ++ " = " ++ Text.literal m.value
  | m :: rest =>
    "\n    " ++ m.identifier ++ " = " ++ Text.literal m.value ++ "," ++ memberLines rest

def text (e : EnumDeclaration) : String :=
  leadText e.description ++ "public enum " ++ e.name ++ " \x7b" ++ memberLines e.members ++ "\n\x7d"

end EnumDeclaration

/-- The whole module. -/
def DeclarationSet.moduleText (set : DeclarationSet) : String :=
  moduleHeader ++ String.join (set.declarations.map Declaration.text) ++
    String.join (set.enums.map EnumDeclaration.text) ++ "\n"

end SchemaTypes
