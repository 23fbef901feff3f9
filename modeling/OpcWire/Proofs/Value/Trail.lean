import OpcWire.Proofs.Builtin.Failing
import OpcWire.Proofs.Registry
import OpcWire.Proofs.Value.Layers

/-!
# Where reading a value fails

`t.Leads c path u spot` says that reading a value of the type `t` from `c` comes to reading one of
the type `u` from `spot`, through the fields in `path`. It follows the reader into references,
fields, elements and the bodies of extension objects, and on the way everything before the spot has
been read, lengths are within their limits and type ids are registered.

`cause.Holds u spot` says that the error `cause` arises right at `spot` where a value of the type
`u` is expected, and that it tells the truth. `WireType.explains_decode` brings the two together:
whenever reading fails, there is a way to a spot where the root cause holds, and the error names
exactly the fields on it.
-/

namespace OpcWire

/-! ### Errors with a path -/

namespace CodecError

/-- The error `root` in the field at the end of a path of structures and fields, outermost first. -/
def inFields (path : List (String × String)) (root : CodecError) : CodecError :=
  path.foldr (fun (owner, field) cause => .inField owner field cause) root

theorem inFields_cons (owner field : String) (path : List (String × String)) (root : CodecError) :
    root.inFields ((owner, field) :: path) = .inField owner field (root.inFields path) := rfl

@[simp] theorem rootCause_inFields (path : List (String × String)) (root : CodecError) :
    (root.inFields path).rootCause = root.rootCause := by
  induction path with
  | nil => rfl
  | cons step path ih => exact ih

@[simp] theorem fields_inFields (path : List (String × String)) (root : CodecError) :
    (root.inFields path).fields = path.map Prod.snd ++ root.fields := by
  induction path with
  | nil => rfl
  | cons step path ih => exact congrArg (step.2 :: ·) ih

end CodecError

/-! ### The way of a reader -/

namespace Cursor

/-- At the cursor stand a type id and the byte that announces a binary body, and then `after`. -/
def BodyAhead (c : Cursor) (typeId : NodeId) (after : List UInt8) : Prop :=
  NodeId.codec.decode c = .ok typeId ⟨binaryBody :: after, c.openBodies⟩

/-- At the cursor stands an extension object with the binary body `span`. -/
def HasBody (c : Cursor) (typeId : NodeId) (span : List UInt8) : Prop :=
  ∃ after rest, c.BodyAhead typeId after ∧
    Reader.length ⟨after, c.openBodies⟩ = .ok (some span.length) ⟨span ++ rest, c.openBodies⟩

end Cursor

/-- Reading the fields of a layout from a cursor comes to the field `name` of the type `t`, at the
last cursor. -/
inductive Layout.Reaches : Layout → Cursor → String → WireType → Cursor → Prop
  /-- To the first field at once. -/
  | here {name : String} {t : WireType} {rest : Layout} {c : Cursor} :
      Reaches (.cons name t rest) c name t c
  /-- To another field when the first one has been read. -/
  | later {first name : String} {t u : WireType} {rest : Layout} {c next spot : Cursor}
      {v : Value t} (hfirst : t.decode c = .ok v next) (h : Reaches rest next name u spot) :
      Reaches (.cons first t rest) c name u spot

/-- Reading a value of a type from a cursor comes to reading one of the second type from the
second cursor, through the fields of a path. -/
inductive WireType.Leads :
    WireType → Cursor → List (String × String) → WireType → Cursor → Prop
  /-- Without a step. -/
  | here {t : WireType} {c : Cursor} : Leads t c [] t c
  /-- Into the target of a reference. -/
  | target {t u : WireType} {c spot : Cursor} {path : List (String × String)}
      (h : Leads t c path u spot) : Leads (.nullable t) c path u spot
  /-- Into a field of a structure. -/
  | field {owner name : String} {l : Layout} {t u : WireType} {c next spot : Cursor}
      {path : List (String × String)} (hfield : l.Reaches c name t next)
      (h : Leads t next path u spot) :
      Leads (.record owner l) c ((owner, name) :: path) u spot
  /-- Into an element of an array, when those before it have been read. -/
  | item {t u : WireType} {c start next spot : Cursor} {count index : Nat}
      {before : List (Value t)} {path : List (String × String)}
      (hlength : Reader.length c = .ok (some count) start) (hcount : count ≤ maxArrayLength)
      (hindex : index < count) (hbefore : Reader.replicate t.decode index start = .ok before next)
      (h : Leads t next path u spot) : Leads (.array t) c path u spot
  /-- Into the body of an extension object, by the structure registered for its type id. -/
  | body {u : WireType} {c spot : Cursor} {typeId : NodeId} {span : List UInt8} {s : Structure}
      {path : List (String × String)} (hbody : c.HasBody typeId span)
      (hs : structureOf Registries.extensionObjects typeId = .ok s)
      (hopen : c.openBodies < maxBodyDepth)
      (h : Leads s.wireType ⟨span, c.openBodies + 1⟩ path u spot) :
      Leads .extensionObject c path u spot

/-! ### What is wrong there -/

/-- The error arises where a value of the type `t` is expected at `c`, not in any part of it that
has a type of its own, and what it says is true. -/
def CodecError.Holds (t : WireType) (c : Cursor) : CodecError → Prop
  | unexpectedEnd needed remaining => remaining < needed
  | invalidLength length => length < -1 ∨
      length = -1 ∧ t = .extensionObject ∧ ∃ typeId after rest, c.BodyAhead typeId after ∧
        Reader.length ⟨after, c.openBodies⟩ = .ok none ⟨rest, c.openBodies⟩
  | lengthLimit length limit => limit = 2 ^ 20 ∧ limit < length
  | lengthOverflow _ => False
  | invalidUtf8 bytes fault => Utf8.decode bytes = .error fault
  | unsupportedNodeIdForm leading => 5 < leading &&& 0x3F ∨
      (t = .scalar .nodeId ∨ t = .extensionObject) ∧ leading &&& 0xC0 ≠ 0
  | unsupportedBodyMask mask => t = .extensionObject ∧ 2 ≤ mask
  | nonNumericTypeId text => t = .extensionObject ∧ ∃ typeId after, c.BodyAhead typeId after ∧
      text = typeId.render ∧ ∀ id, typeId ≠ .numeric 0 id
  | unregisteredType kind id => t = .extensionObject ∧ ∃ registries after,
      Registries.build = .ok registries ∧ kind = registries.extensionObjects.kind ∧
        registries.extensionObjects.contains id = false ∧ c.BodyAhead (.numeric 0 id) after
  | nestingTooDeep limit => limit = 100 ∧
      (t = .scalar .diagnosticInfo ∨ t = .extensionObject ∧ limit ≤ c.openBodies)
  | trailingBytes count => t = .extensionObject ∧ 1 ≤ count
  | registry _ => False
  | inField .. => False

namespace CodecError

variable {t : WireType} {c : Cursor}

/-- Only root causes hold anywhere. -/
theorem Holds.rootCause_eq {root : CodecError} (h : root.Holds t c) : root.rootCause = root := by
  cases root with
  | inField => exact absurd h id
  | _ => rfl

theorem Holds.fields_eq {root : CodecError} (h : root.Holds t c) : root.fields = [] := by
  cases root with
  | inField => exact absurd h id
  | _ => rfl

end CodecError

section

variable {t : WireType} {c : Cursor} {e : CodecError}

theorem Reader.IsShort.holds (h : IsShort e) : e.Holds t c := by
  cases h with
  | mk h => exact h

/-- A length prefix that cannot be read is not the null marker. -/
theorem Reader.holds_of_length {start : Cursor} {openBodies : Nat}
    (h : Reader.length start = .error e openBodies) : e.Holds t c := by
  rcases raises_length h with hshort | ⟨prefixed, hlow, rfl⟩
  · exact hshort.holds
  · exact .inl hlow

theorem Scalar.IsFault.holds {s : Scalar} (h : s.IsFault e) : e.Holds (.scalar s) c := by
  cases h with
  | unexpectedEnd h => exact h
  | invalidLength h => exact .inl h
  | invalidUtf8 h => exact h
  | unknownForm _ h => exact .inl h
  | flag hs h => exact .inr ⟨.inl (congrArg WireType.scalar hs), h⟩
  | nesting hs => exact ⟨rfl, .inl (congrArg WireType.scalar hs)⟩

/-- The type id of an extension object is an identifier like any other. -/
theorem Scalar.IsFault.holds_typeId (h : Scalar.nodeId.IsFault e) :
    e.Holds .extensionObject c := by
  cases h with
  | unexpectedEnd h => exact h
  | invalidLength h => exact .inl h
  | invalidUtf8 h => exact h
  | unknownForm _ h => exact .inl h
  | flag _ h => exact .inr ⟨.inr rfl, h⟩
  | nesting hs => cases hs

/-- A type id that selects no structure is not numeric in namespace 0, or not registered. -/
theorem holds_of_structureOf {typeId : NodeId} {after : List UInt8}
    (hbody : c.BodyAhead typeId after)
    (h : structureOf Registries.extensionObjects typeId = .error e) :
    e.Holds .extensionObject c := by
  obtain ⟨r, hr, -, -, -⟩ := Registries.build_spec
  rw [structureOf, hr] at h
  cases hid : typeId.standardNumber? with
  | none =>
    simp only [hid] at h
    cases h
    refine ⟨rfl, typeId, after, hbody, rfl, fun id hnumeric => ?_⟩
    rw [NodeId.standardNumber?_eq_some_iff.2 hnumeric] at hid
    cases hid
  | some id =>
    obtain rfl := NodeId.standardNumber?_eq_some_iff.1 hid
    simp only [hid] at h
    cases hs : r.extensionObjects.structure? id with
    | some s =>
      simp only [hs] at h
      cases h
    | none =>
      simp only [hs] at h
      cases h
      refine ⟨rfl, r, after, hr, rfl, ?_, hbody⟩
      refine Bool.eq_false_iff.2 fun hcontains => ?_
      obtain ⟨s, hs'⟩ := TypeRegistry.contains_eq_true_iff.1 hcontains
      cases hs.symm.trans hs'

end

/-! ### Every failure is explained -/

/-- A way of the reader ends where the root cause of the error holds, and the error names the
fields on it. -/
def WireType.Explains (t : WireType) (c : Cursor) (cause : CodecError) : Prop :=
  ∃ (path : List (String × String)) (u : WireType) (spot : Cursor) (root : CodecError),
    t.Leads c path u spot ∧ root.Holds u spot ∧ cause = root.inFields path

namespace WireType.Explains

variable {t : WireType} {c next : Cursor} {cause : CodecError}

theorem of_holds (h : cause.Holds t c) : t.Explains c cause :=
  ⟨[], t, c, cause, .here, h, rfl⟩

theorem nullable (h : t.Explains c cause) : (WireType.nullable t).Explains c cause := by
  obtain ⟨path, u, spot, root, hleads, hroot, rfl⟩ := h
  exact ⟨path, u, spot, root, .target hleads, hroot, rfl⟩

theorem field {owner name : String} {l : Layout} (hfield : l.Reaches c name t next)
    (h : t.Explains next cause) :
    (WireType.record owner l).Explains c (.inField owner name cause) := by
  obtain ⟨path, u, spot, root, hleads, hroot, rfl⟩ := h
  exact ⟨(owner, name) :: path, u, spot, root, .field hfield hleads, hroot, rfl⟩

theorem item {start : Cursor} {count index : Nat} {before : List (Value t)}
    (hlength : Reader.length c = .ok (some count) start) (hcount : count ≤ maxArrayLength)
    (hindex : index < count) (hbefore : Reader.replicate t.decode index start = .ok before next)
    (h : t.Explains next cause) : (WireType.array t).Explains c cause := by
  obtain ⟨path, u, spot, root, hleads, hroot, rfl⟩ := h
  exact ⟨path, u, spot, root, .item hlength hcount hindex hbefore hleads, hroot, rfl⟩

theorem body {typeId : NodeId} {span : List UInt8} {s : Structure} (hbody : c.HasBody typeId span)
    (hs : structureOf Registries.extensionObjects typeId = .ok s)
    (hopen : c.openBodies < maxBodyDepth)
    (h : s.wireType.Explains ⟨span, c.openBodies + 1⟩ cause) :
    WireType.extensionObject.Explains c cause := by
  obtain ⟨path, u, spot, root, hleads, hroot, rfl⟩ := h
  exact ⟨path, u, spot, root, .body hbody hs hopen hleads, hroot, rfl⟩

end WireType.Explains

/-- All failures of a reader that starts with `d` open bodies are explained by a type. -/
def WireType.ExplainsAt (d : Nat) (t : WireType) {α : Type} (r : Reader α) : Prop :=
  ∀ ⦃c cause openBodies⦄, c.openBodies = d → r c = .error cause openBodies → t.Explains c cause

variable {d : Nat}

/-- A balanced reader leaves as many bodies open as it found. -/
theorem Reader.Balanced.openBodies_eq {α : Type} {r : Reader α} (h : r.Balanced) {c next : Cursor}
    {a : α} (hread : r c = .ok a next) : next.openBodies = c.openBodies := by
  have hc := h c
  rwa [hread] at hc

mutual

/-- Given that failures of extension objects are explained, so are those of all types. -/
theorem WireType.explainsAt_of_object
    (hobject : WireType.extensionObject.ExplainsAt d decodeObject) :
    (t : WireType) → t.ExplainsAt d t.decode
  | .scalar s => fun _ _ _ _ h => .of_holds (s.raises_decode (Reader.map_eq_error_iff.1 h)).holds
  | .extensionObject => hobject
  | .record owner l => fun c cause openBodies hd h => by
    obtain ⟨name, t, spot, inner, hfield, hinner, rfl⟩ :=
      l.exists_field_of_error hobject owner hd (Reader.map_eq_error_iff.1 h)
    exact .field hfield hinner
  | .array t => fun c cause openBodies hd h => by
    rcases Reader.bind_eq_error_iff.1 (Reader.map_eq_error_iff.1 h) with
      hlength | ⟨count, start, hlength, hitems⟩
    · exact .of_holds (Reader.holds_of_length hlength)
    · cases count with
      | none => cases hitems
      | some count =>
        by_cases hlimit : maxArrayLength < count
        · simp only [hlimit, if_true] at hitems
          cases hitems
          exact .of_holds ⟨rfl, hlimit⟩
        · simp only [hlimit, if_false] at hitems
          obtain ⟨index, hindex, before, next, hbefore, hitem⟩ :=
            Reader.exists_of_replicate_eq_error (Reader.map_eq_error_iff.1 hitems)
          have hstart := Reader.indifferent_length.balanced.openBodies_eq hlength
          have hnext := (t.balanced_decode.replicate index).openBodies_eq hbefore
          have hd' : next.openBodies = d := by rw [hnext, hstart, hd]
          exact .item hlength (Nat.le_of_not_lt hlimit) hindex hbefore
            (t.explainsAt_of_object hobject hd' hitem)
  | .nullable t => fun _ _ _ hd h =>
    .nullable (t.explainsAt_of_object hobject hd (Reader.map_eq_error_iff.1 h))

theorem Layout.exists_field_of_error
    (hobject : WireType.extensionObject.ExplainsAt d decodeObject) (owner : String) :
    (l : Layout) → ∀ {c : Cursor} {cause : CodecError} {openBodies : Nat}, c.openBodies = d →
      l.decodeWith decodeObject owner c = .error cause openBodies →
        ∃ name t spot inner, l.Reaches c name t spot ∧ t.Explains spot inner ∧
          cause = .inField owner name inner
  | .nil => fun _ h => nomatch h
  | .cons name t rest => fun hd h => by
    rcases Reader.bind_eq_error_iff.1 h with hfirst | ⟨v, next, hfirst, hrest⟩
    · obtain ⟨inner, hinner, rfl⟩ := Reader.inField_eq_error_iff.1 hfirst
      exact ⟨name, t, _, inner, .here, t.explainsAt_of_object hobject hd hinner, rfl⟩
    · have hread : t.decode _ = .ok v next := Reader.inField_eq_ok_iff.1 hfirst
      have hd' : next.openBodies = d := by rw [t.balanced_decode.openBodies_eq hread, hd]
      obtain ⟨name', u, spot, inner, hreaches, hinner, hcause⟩ :=
        rest.exists_field_of_error hobject owner hd' (Reader.map_eq_error_iff.1 hrest)
      exact ⟨name', u, spot, inner, .later hread hreaches, hinner, hcause⟩

end

theorem two_le_of_mask {mask : UInt8} (hnone : mask ≠ noBody) (hbinary : mask ≠ binaryBody) :
    2 ≤ mask := by
  have hzero : mask.toNat ≠ 0 := fun h => hnone (UInt8.toNat_inj.1 h)
  have hone : mask.toNat ≠ 1 := fun h => hbinary (UInt8.toNat_inj.1 h)
  exact UInt8.le_iff_toNat_le.2 (by simp only [UInt8.reduceToNat]; omega)

/-- **One extension object.** A failure is in its header, which it explains itself, or in its body,
which is one level further inside. -/
theorem explainsAt_decodeObject
    (hinner : d < maxBodyDepth → ∀ s : Structure, s.wireType.ExplainsAt (d + 1) s.wireType.decode) :
    WireType.extensionObject.ExplainsAt d decodeObject := by
  intro c cause openBodies hd h
  rw [decodeObject_eq, objectReader] at h
  rcases Reader.bind_eq_error_iff.1 h with hid | ⟨typeId, mid, hid, hbehindId⟩
  · exact .of_holds (NodeId.raises_decode hid).holds_typeId
  rcases Reader.bind_eq_error_iff.1 hbehindId with hmask | ⟨mask, ⟨after, d'⟩, hmask, hbehindMask⟩
  · exact .of_holds (Reader.raises_byte hmask).holds
  obtain rfl := Reader.byte_eq_ok hmask
  obtain rfl : d' = c.openBodies := NodeId.indifferent_decode.balanced.openBodies_eq hid
  by_cases hnone : mask = noBody
  · rw [if_pos hnone] at hbehindMask
    cases hbehindMask
  rw [if_neg hnone] at hbehindMask
  by_cases hbinary : mask = binaryBody
  · subst hbinary
    rw [if_pos rfl] at hbehindMask
    have hahead : c.BodyAhead typeId after := hid
    rcases Reader.bind_eq_error_iff.1 hbehindMask with
      hlength | ⟨count, ⟨rest, d'⟩, hlength, hbehindLength⟩
    · exact .of_holds (Reader.holds_of_length hlength)
    obtain rfl : d' = c.openBodies := Reader.indifferent_length.balanced.openBodies_eq hlength
    cases count with
    | none =>
      cases hbehindLength
      exact .of_holds (.inr ⟨rfl, rfl, typeId, after, rest, hahead, hlength⟩)
    | some count =>
      rcases Reader.bind_eq_error_iff.1 hbehindLength with
        htake | ⟨span, behind, htake, hbehindSpan⟩
      · exact .of_holds (Reader.raises_take htake).holds
      obtain ⟨rfl, rfl, hbehind⟩ := Reader.take_eq_ok htake
      have hbody : c.HasBody typeId span := ⟨after, behind.rest, hahead, hlength⟩
      cases hs : structureOf Registries.extensionObjects typeId with
      | error unknown =>
        rw [hs] at hbehindSpan
        cases hbehindSpan
        exact .of_holds (holds_of_structureOf hahead hs)
      | ok s =>
        rw [hs] at hbehindSpan
        have hopening := Reader.map_eq_error_iff.1 hbehindSpan
        rcases Reader.opening_eq_error hopening with ⟨hfull, rfl⟩ | ⟨hfree, openBodies', hread⟩
        · exact .of_holds ⟨rfl, .inr ⟨rfl, hbehind ▸ hfull⟩⟩
        · rcases Reader.delimited_eq_error hread with hcontent | ⟨left, hleft, rfl⟩
          · rw [hbehind] at hfree hcontent
            exact .body hbody hs hfree (hinner (hd ▸ hfree) s (congrArg (· + 1) hd) hcontent)
          · exact .of_holds ⟨rfl, hleft⟩
  · rw [if_neg hbinary] at hbehindMask
    cases hbehindMask
    exact .of_holds ⟨rfl, two_le_of_mask hnone hbinary⟩

/-- Failures with any number of open bodies are explained, by induction on how many more bodies may
be opened. -/
theorem WireType.explainsAt_decode (layers : Nat) {d : Nat} (h : maxBodyDepth ≤ d + layers)
    (t : WireType) : t.ExplainsAt d t.decode := by
  induction layers generalizing d t with
  | zero =>
    -- no further body may be opened, so that nothing inside one is read
    refine t.explainsAt_of_object (explainsAt_decodeObject fun hd => ?_)
    exact absurd hd (Nat.not_lt.2 h)
  | succ layers ih =>
    exact t.explainsAt_of_object (explainsAt_decodeObject fun _ s => ih (by omega) s.wireType)

/-- **Every failure is explained.** Where reading a value fails, the fields in the error are those
on the way of the reader to the spot where the root cause arose, and the root cause tells the truth
about that spot. -/
theorem WireType.explains_decode {t : WireType} {c : Cursor} {cause : CodecError}
    {openBodies : Nat} (h : t.decode c = .error cause openBodies) : t.Explains c cause :=
  t.explainsAt_decode maxBodyDepth (Nat.le_add_left _ _) rfl h

end OpcWire
