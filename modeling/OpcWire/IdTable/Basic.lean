/-!
# Identifier tables

An `IdTable` assigns numbers to names, in the order of a file. It holds its entries in a list, and
beside it an index with the position of the entry of each name; numbers are looked up in the index
first. Each name occurs once: a second entry for a name is refused (`insert?_eq_none_iff`), and any
other goes behind the earlier ones (`entries_of_insert?_eq_some`).
-/

namespace OpcWire

/-- A line of an identifier table. -/
structure IdEntry where
  /-- The name. -/
  name : String
  /-- The number. -/
  id : UInt32
  /-- What kind of node the number identifies. -/
  kind : String
  deriving DecidableEq, Repr

/-- The line of an entry. -/
def IdEntry.line (e : IdEntry) : String := e.name ++ "," ++ toString e.id ++ "," ++ e.kind

/-- The names of entries with the positions of these. -/
def IdEntry.positions (entries : List IdEntry) : List (String × Nat) :=
  entries.zipIdx.map fun p => (p.1.name, p.2)

/-- Numbers by name. -/
structure IdTable where
  /-- The entries in the order in which they were added. -/
  entries : List IdEntry
  /-- The index: names with the positions of their entries. -/
  positions : List (String × Nat) := IdEntry.positions entries
  deriving DecidableEq, Repr

namespace IdTable

/-- A table without entries. -/
def empty : IdTable where
  entries := []
  positions := []

variable (t : IdTable)

/-- The entry of a name. -/
def find? (name : String) : Option IdEntry :=
  (t.positions.lookup name).bind fun i => t.entries[i]?

/-- The number of a name. -/
def get? (name : String) : Option UInt32 := (t.find? name).map (·.id)

/-- Number of entries. -/
def size : Nat := t.entries.length

/-- Whether there are no entries. -/
def isEmpty : Bool := t.entries.isEmpty

/-- Add an entry behind the others: the answer, and the table afterwards. If its name has an entry
already, the answer is this name. -/
def insert (e : IdEntry) : Except String Unit × IdTable :=
  match t.positions.lookup e.name with
  | none => (.ok (), ⟨t.entries ++ [e], t.positions ++ [(e.name, t.entries.length)]⟩)
  | some _ => (.error e.name, t)

/-- The table with an entry behind the others; `none` if its name has one already. -/
def insert? (e : IdEntry) : Option IdTable :=
  match t.insert e with
  | (.ok (), u) => some u
  | (.error _, _) => none

variable {t} {e : IdEntry}

theorem insert_of_lookup_eq_none (h : t.positions.lookup e.name = none) :
    t.insert e = (.ok (), ⟨t.entries ++ [e], t.positions ++ [(e.name, t.entries.length)]⟩) := by
  rw [insert, h]

theorem insert_of_lookup_eq_some {i : Nat} (h : t.positions.lookup e.name = some i) :
    t.insert e = (.error e.name, t) := by
  rw [insert, h]

theorem insert?_of_lookup_eq_none (h : t.positions.lookup e.name = none) :
    t.insert? e = some ⟨t.entries ++ [e], t.positions ++ [(e.name, t.entries.length)]⟩ := by
  rw [insert?, insert_of_lookup_eq_none h]

theorem insert?_of_lookup_eq_some {i : Nat} (h : t.positions.lookup e.name = some i) :
    t.insert? e = none := by
  rw [insert?, insert_of_lookup_eq_some h]

theorem insert?_eq_none_iff : t.insert? e = none ↔ (t.positions.lookup e.name).isSome := by
  cases hlookup : t.positions.lookup e.name with
  | none => simp [insert?_of_lookup_eq_none hlookup]
  | some i => simp [insert?_of_lookup_eq_some hlookup]

theorem entries_of_insert?_eq_some {u : IdTable} (h : t.insert? e = some u) :
    u.entries = t.entries ++ [e] := by
  cases hlookup : t.positions.lookup e.name with
  | none =>
    obtain rfl := Option.some.inj ((insert?_of_lookup_eq_none hlookup).symm.trans h)
    rfl
  | some i => cases (insert?_of_lookup_eq_some hlookup).symm.trans h

end IdTable

end OpcWire
