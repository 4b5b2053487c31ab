import FluentBuilders.DottedName
import FluentBuilders.Element.Written

/-! # Source units

The source text of one type together with its full name.
-/
namespace FluentBuilders

/-- The source of a type. -/
structure SourceUnit where
  /-- The full name of the type. -/
  target : String
  text : String
deriving DecidableEq, Repr

namespace SourceUnit

/-- The package of the type, if it has one. -/
def package (unit : SourceUnit) : Option String :=
  (DottedName.cut unit.target).package

/-- The name of the type within its package. -/
def simpleName (unit : SourceUnit) : String :=
  (DottedName.cut unit.target).simple

/-- A unit in the data format. -/
def written (unit : SourceUnit) : String :=
  String.ofList (Json.object
    [Json.member "target" (Json.encode unit.target.toList),
      Json.member "text" (Json.encode unit.text.toList)])

end SourceUnit
end FluentBuilders
