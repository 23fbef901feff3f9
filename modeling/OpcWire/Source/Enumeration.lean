import OpcWire.Generator.Definition
import OpcWire.Source.Basic

/-!
# Source text of enumerations

An enumeration is written as a wrapped integer with a constant for each member, a table of the
members, look-ups in both directions, and its wire form.
-/

namespace OpcWire

namespace Definition

/-- The integer type of an enumeration, 32 bits wide unless stated. -/
def integerType (d : Definition) : String := (d.repr.getD .bits32).render

/-- The constant of a member. -/
def Member.constantLine (m : Member) : String :=
  "pub const " ++ m.ident ++ s!": Self = Self({m.value});"

/-- The row of a member in the table of members. -/
def Member.tableLine (m : Member) : String :=
  "(" ++ Source.quote m.name ++ ", Self::" ++ m.ident ++ "),"

/-- The case of a member in the look-up by name. -/
def Member.lookupLine (m : Member) : String :=
  Source.quote m.name ++ " => Ok(Self::" ++ m.ident ++ "),"

/-- The constants of the members, with an empty line behind them if there are any. -/
def constantLines (d : Definition) : List String :=
  if d.members.isEmpty then [] else d.members.map Member.constantLine ++ [""]

/-- The table of the members. -/
def tableLines (d : Definition) : List String :=
  ["/// Members in declaration order.",
    "pub const VALUES: &'static [(&'static str, Self)] = &["] ++
  Source.indent (d.members.map Member.tableLine) ++ ["];"]

/-- The look-up of a member by name. -/
def lookupLines (d : Definition) : List String :=
  "/// Look up a member by its dictionary name." ::
  Source.block "pub fn from_name(name: &str) -> Result<Self, UnknownEnumName>"
    (Source.block "match name"
      (d.members.map Member.lookupLine ++
        ["_ => Err(UnknownEnumName::new(" ++ Source.quote d.name ++ ", name)),"]))

/-- The look-up of a member's name. -/
def nameLines : List String :=
  "/// Dictionary name of this value, if it is a declared member." ::
  Source.block "pub fn name(self) -> Option<&'static str>"
    ["Self::VALUES.iter().find(|(_, v)| *v == self).map(|(n, _)| *n)"]

/-- The lines of an enumeration. -/
def enumerationLines (d : Definition) : List String :=
  ["", "/// `" ++ d.name ++ "` enumeration.",
    "#[derive(Debug, Clone, Copy, Default, PartialEq, Eq, Hash, PartialOrd, Ord)]",
    "pub struct " ++ d.name ++ "(pub " ++ d.integerType ++ ");", ""] ++
  Source.block ("impl " ++ d.name)
    (d.constantLines ++ d.tableLines ++ [""] ++ d.lookupLines ++ [""] ++ nameLines) ++
  [""] ++ Source.encodeImpl d.name "buf" ["self.0.encode(buf)"] ++
  [""] ++ Source.decodeImpl d.name "buf" [d.integerType ++ "::decode(buf).map(Self)"]

end Definition

end OpcWire
