import FluentBuilders.Element.Basic
import FluentBuilders.Diagnostic
import FluentBuilders.Json.Quote

/-! # Elements in the data format

Elements, severities and written sources as objects of the data format.  The
members of an object come in a fixed order, without blanks, and an absent
location is left out.
-/
namespace FluentBuilders
namespace Json

/-- One member of an object. -/
def member (key : String) (value : List Char) : List Char :=
  encode key.toList ++ ':' :: value

/-- An object with the given members. -/
def object (members : List (List Char)) : List Char :=
  '\x7b' :: (List.intercalate [','] members ++ ['\x7d'])

/-- A list of strings. -/
def texts (items : List String) : List Char :=
  '[' :: (List.intercalate [','] (items.map fun item => encode item.toList) ++ [']'])

end Json

/-- The characters of an element in the data format. -/
def Element.encode (e : Element) : List Char :=
  let members :=
    [Json.member "owner" (Json.encode e.owner.toList),
      Json.member "name" (Json.encode e.name.toList),
      Json.member "parameters" (Json.texts e.parameters)]
  let place := e.location.toList.map fun l => Json.member "location" (Json.encode l.toList)
  Json.object (members ++ place)

/-- An element in the data format. -/
def Element.written (e : Element) : String :=
  String.ofList e.encode

/-- A severity in the data format. -/
def Severity.written (s : Severity) : String :=
  String.ofList (Json.encode s.label.toList)

end FluentBuilders
