import SchemaTypes.Types.Expression

/-!
# Type descriptors

The spelling of a type inside the emitted module. A type that a suffix follows is put in parentheses
if it is nullable or a union.
-/
namespace SchemaTypes

def ScalarKind.keyword : ScalarKind → String
  | .string => "string"
  | .int => "int"
  | .float => "float"
  | .decimal => "decimal"
  | .boolean => "boolean"

/-- A question mark after what admits null. -/
def nullMark (nullable : Bool) : String :=
  if nullable then "?" else ""

/-- A question mark after the name of a field that may be missing. -/
def missingMark (required : Bool) : String :=
  if required then "" else "?"

namespace TypeExpr

/-- Does a suffix after the type need parentheses around it? -/
def needsGroup (t : TypeExpr) : Bool :=
  t.nullable || t.isUnion

end TypeExpr

mutual

def TypeExpr.descriptor : TypeExpr → String
  | .reference name nullable => name ++ nullMark nullable
  | .record members nullable =>
    "record \x7b" ++ Member.listDescriptor members ++ " \x7d" ++ nullMark nullable
  | .array element nullable =>
    (if element.needsGroup then "(" ++ element.descriptor ++ ")" else element.descriptor) ++ "[]" ++
      nullMark nullable
  | .union members nullable =>
    if nullable then "(" ++ TypeExpr.unionDescriptor members ++ ")?"
    else TypeExpr.unionDescriptor members
  | .scalar kind nullable => kind.keyword ++ nullMark nullable
  | .any nullable => "anydata" ++ nullMark nullable
termination_by structural t => t

/-- The alternatives of a union, with bars between them. -/
def TypeExpr.unionDescriptor : List TypeExpr → String
  | [] => ""
  | t :: rest => t.descriptor ++ TypeExpr.laterDescriptor rest
termination_by structural ts => ts

def TypeExpr.laterDescriptor : List TypeExpr → String
  | [] => ""
  | t :: rest => "|" ++ t.descriptor ++ TypeExpr.laterDescriptor rest
termination_by structural ts => ts

def Member.descriptor : Member → String
  | .field name _ type required _ =>
    " " ++ type.descriptor ++ " " ++ name ++ missingMark required ++ ";"
  | .inclusion name => " *" ++ name ++ ";"
termination_by structural m => m

def Member.listDescriptor : List Member → String
  | [] => ""
  | m :: rest => m.descriptor ++ Member.listDescriptor rest
termination_by structural ms => ms

end
end SchemaTypes
