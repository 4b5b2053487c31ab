/-! # Naming rules

What the name of a setter has to start with, and what is appended to the name of
an owner to name its builder.  Rules that are put together from settings are
refused when the suffix is empty, since the builder would then share the name of
its owner.
-/
namespace FluentBuilders

/-- How setters are recognised and builders are named. -/
structure Naming where
  /-- What the name of a setter has to start with; an empty text admits every
  name. -/
  namePrefix : String
  /-- What is appended to the name of an owner. -/
  builderSuffix : String
deriving DecidableEq, Repr

/-- A setting that must not be empty and is. -/
structure NamingError where
  /-- What the settings were to build. -/
  builder : String
  /-- The setting. -/
  field : String
deriving DecidableEq, Repr

/-- The wording of the error. -/
def NamingError.message (e : NamingError) : String :=
  e.builder ++ ": field '" ++ e.field ++ "' must not be empty"

/-- One setting. -/
inductive Setting where
  | namePrefix (value : String)
  | builderSuffix (value : String)
deriving DecidableEq, Repr

namespace Naming

/-- The rules that hold without any setting. -/
def standard : Naming := ⟨"set", "Builder"⟩

/-- The standard rules with another start of names. -/
def ofNamePrefix (namePrefix : String) : Naming :=
  { standard with namePrefix }

/-- The rules after one more setting; a later one replaces an earlier one. -/
def change (n : Naming) : Setting → Naming
  | .namePrefix value => { n with namePrefix := value }
  | .builderSuffix value => { n with builderSuffix := value }

/-- The error of an empty suffix. -/
def emptySuffix : NamingError := ⟨"GeneratorConfigBuilder", "builder_suffix"⟩

/-- The rules that a list of settings makes. -/
def ofSettings (settings : List Setting) : Except NamingError Naming :=
  let n := settings.foldl change standard
  if n.builderSuffix = "" then .error emptySuffix else .ok n

/-- Rules made of settings have a suffix. -/
theorem builderSuffix_of_ofSettings {settings : List Setting} {n : Naming}
    (h : ofSettings settings = .ok n) : n.builderSuffix ≠ "" := by
  unfold ofSettings at h
  dsimp only at h
  split at h
  · simp at h
  · next hne =>
    injection h with h
    exact h ▸ hne

end Naming
end FluentBuilders
