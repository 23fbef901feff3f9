import OpcWire.Body
import OpcWire.Proofs.Wire.Written

/-!
# Headers and the fields behind them

A value of a structure is told by the list of its fields (`Value.toList_fields_inj`). In a structure
with a header, the reference to it comes first in this list, and first in what is written
(`Structure.Heading.toList_fields`, `Structure.Heading.encode_join`). The structures that
`Structure.heading?` knows are all of this kind (`Structure.exists_heading`).

On a body whose structure is known, each operation on bodies is one on its value:
`Body.assign?_self`, `Body.setHeader?_of_heading`, and lemmas for what is refused.
-/

namespace OpcWire

/-! ### Fields as a list -/

/-- Names and values of the fields. -/
def Fields.toList : {l : Layout} → Fields l → List (String × Σ t : WireType, Value t)
  | _, .nil => []
  | _, .cons (n := name) (t := t) v rest => (name, ⟨t, v⟩) :: rest.toList

theorem Fields.toList_inj : {l : Layout} → {f g : Fields l} → f.toList = g.toList → f = g
  | .nil, .nil, .nil, _ => rfl
  | .cons _ _ _, .cons v f, .cons w g, h => by
    obtain ⟨hfirst, hrest⟩ := List.cons.inj h
    obtain rfl : v = w := by
      simpa using hfirst
    rw [toList_inj hrest]

theorem Fields.layout_of_toList {l : Layout} {f : Fields l} {name : String} {t : WireType}
    {v : Value t} {rest : List (String × Σ t : WireType, Value t)}
    (h : f.toList = (name, ⟨t, v⟩) :: rest) : ∃ l', l = .cons name t l' := by
  cases f with
  | nil => cases h
  | cons w g =>
    obtain ⟨hfirst, -⟩ := List.cons.inj h
    cases hfirst
    exact ⟨_, rfl⟩

theorem Fields.toList_cast {k l : Layout} (h : k = l) (f : Fields k) :
    (f.cast h).toList = f.toList := by
  subst h
  rfl

theorem Fields.encode_cast {k l : Layout} (h : k = l) (f : Fields k) (owner : String) :
    (f.cast h).encode owner = f.encode owner := by
  subst h
  rfl

theorem Value.toList_fields_inj {name : String} {l : Layout} {v w : Value (.record name l)}
    (h : v.fields.toList = w.fields.toList) : v = w := by
  cases v with
  | record f =>
    cases w with
    | record g => exact congrArg Value.record (Fields.toList_inj h)

/-! ### Structures with a header -/

theorem HeaderRole.header_injective {r r' : HeaderRole} (h : r.header = r'.header) : r = r' := by
  cases r <;> cases r' <;> first | rfl | cases h

/-- Name of the structure to which the first field refers. -/
def Layout.firstTarget? : Layout → Option String
  | .cons _ (.nullable (.record name _)) _ => some name
  | _ => none

namespace Structure

variable {s : Structure} {role : HeaderRole} {field : String} {rest : Layout}

/-- All structures that start with a reference to a header are known. -/
theorem exists_heading (h : s.layout = .cons field (.nullable role.header.wireType) rest) :
    ∃ heading, s.heading? = some heading ∧ heading.role = role := by
  have htarget : s.layout.firstTarget? = some role.header.name := congrArg Layout.firstTarget? h
  -- the first field of each structure refers to the header of its kind, or to no header
  cases s <;> cases role <;> first
    | exact ⟨_, rfl, rfl⟩
    | exact absurd htarget (by decide)

namespace Heading

variable (h : s.Heading) (reference : Value (.nullable h.role.header.wireType)) (f : Fields h.rest)

theorem toList_fields_join : (h.join reference f).fields.toList =
    (h.field, ⟨.nullable h.role.header.wireType, reference⟩) :: f.toList :=
  Fields.toList_cast _ _

theorem toList_fields (v : Value s.wireType) : v.fields.toList =
    (h.field, ⟨.nullable h.role.header.wireType, (h.split v).1⟩) :: (h.split v).2.toList := by
  rw [← toList_fields_join, join_split]

theorem encode_join : (h.join reference f).encode =
    reference.encode.inField s.name h.field ++ f.encode s.name := by
  rw [join]
  exact Fields.encode_cast _ _ _

end Heading

end Structure

/-! ### Bodies of a structure -/

namespace Body

variable {s s' : Structure} {v w : Value s.wireType} {role : HeaderRole} {b : Body}

theorem as?_self : (Body.mk s v).as? s = some v := by
  rw [as?, dif_pos rfl]

theorem as?_of_ne (h : s ≠ s') : (Body.mk s v).as? s' = none := by
  rw [as?, dif_neg h]

theorem assign?_self : (Body.mk s v).assign? ⟨s, w⟩ = some ⟨s, w⟩ := by
  rw [assign?, as?_self]
  rfl

theorem assign?_of_ne {u : Value s'.wireType} (h : s' ≠ s) :
    (Body.mk s v).assign? ⟨s', u⟩ = none := by
  rw [assign?, as?_of_ne h]
  rfl

theorem setHeader?_of_heading {h : s.Heading} (hs : s.heading? = some h)
    (header : Value h.role.header.wireType) :
    (Body.mk s v).setHeader? ⟨h.role.header, header⟩ =
      some ⟨s, h.join (.present header) (h.split v).2⟩ := by
  simp only [setHeader?, hs, Option.bind_some, as?_self, Option.map_some]

theorem setHeader?_eq_none (hs : ¬ ∃ h, s.heading? = some h ∧ h.role = role)
    (header : Value role.header.wireType) :
    (Body.mk s v).setHeader? ⟨role.header, header⟩ = none := by
  cases hheading : s.heading? with
  | none => simp only [setHeader?, hheading, Option.bind_none]
  | some h =>
    have hne : role.header ≠ h.role.header := fun hsame =>
      hs ⟨h, hheading, (HeaderRole.header_injective hsame).symm⟩
    simp only [setHeader?, hheading, Option.bind_some, as?_of_ne hne, Option.map_none]

theorem header?_of_heading {h : s.Heading} (hs : s.heading? = some h) :
    (Body.mk s v).header? = some ((h.split v).1.target?.map (Body.mk h.role.header)) := by
  simp only [header?, hs, Option.map_some]

end Body

end OpcWire
