/-! # Tagged elements

A tagged element is a callable member that carries the marker: the type that
declares it, its name, its parameter types and, when it is known, the place in
the source it comes from.
-/
namespace FluentBuilders

/-- A callable member that carries the marker. -/
structure Element where
  /-- The full name of the type that declares the member. -/
  owner : String
  name : String
  /-- The types of the parameters, in the order of declaration. -/
  parameters : List String
  /-- Where the member comes from, as opaque text. -/
  location : Option String
deriving DecidableEq, Repr

namespace Element

/-- The signature of a member: owner, name and parameter types. -/
def signature (e : Element) : String :=
  e.owner ++ "#" ++ e.name ++ "(" ++ String.intercalate ", " e.parameters ++ ")"

/-- The place a message about a member points at: its location, or owner and
name when there is none.  An empty location is a location. -/
def place (e : Element) : String :=
  match e.location with
  | some location => location
  | none => e.owner ++ "#" ++ e.name

end Element
end FluentBuilders
