import OpcWire.Proofs.Registry
import OpcWire.Proofs.Scalar
import OpcWire.Proofs.Value.Normal
import OpcWire.Proofs.Wire.Coinciding

/-!
# Values that are written alike

Two values of one type are written alike only if they have the same normal form, whatever follows
their bytes (`Value.coincideOnlyIf`). The readers have no part in this: arrays, diagnostics and
bodies may exceed every limit. For one level of diagnostics after the other there is a reader that
goes down far enough (`Scalar.exists_reads`), and all that is made of scalars is compared part by
part, by induction on the first of the two values.

The induction is on complete values. What is written for an absent reference is the zero value of
its target, which is no part of the value that holds the reference; `Value.encode_normal` makes
the step from complete values to all of them.
-/

namespace OpcWire

/-! ### Scalars -/

theorem Scalar.diagnosticDepth_of_ne {s : Scalar} (h : s ≠ .diagnosticInfo) (v : s.Carrier) :
    s.diagnosticDepth v = 0 := by
  cases s <;> first | rfl | exact absurd rfl h

/-- For diagnostics of any depth there is a reader that reads them back, and for other scalars
there is one anyway. -/
theorem Scalar.exists_reads (s : Scalar) (depth : Nat) : ∃ r : Reader s.Carrier,
    ∀ v bytes, s.diagnosticDepth v ≤ depth → s.codec.encode v = .ofBytes bytes →
      r.Reads 0 bytes v := by
  by_cases hs : s = .diagnosticInfo
  · subst hs
    refine ⟨DiagnosticInfo.decodeWithin depth, ?_⟩
    intro v bytes hdepth hwritten
    exact (DiagnosticInfo.readsIf_within hwritten).reads hdepth
  · refine ⟨s.codec.decode, ?_⟩
    intro v bytes _ hwritten
    have hfits : s.Fits v := by
      rw [Scalar.Fits, diagnosticDepth_of_ne hs v]
      exact Nat.zero_le _
    exact (s.lawful_codec.readsIf hwritten).reads hfits

/-- **Different scalars are never written alike.** -/
theorem Scalar.coincideOnlyIf (s : Scalar) (a b : s.Carrier) :
    (s.codec.encode a).CoincideOnlyIf (s.codec.encode b) (a = b) := by
  obtain ⟨r, hr⟩ := s.exists_reads (max (s.diagnosticDepth a) (s.diagnosticDepth b))
  have ha (bytes : List UInt8) (h : s.codec.encode a = .ofBytes bytes) : r.Reads 0 bytes a :=
    hr a bytes (Nat.le_max_left _ _) h
  have hb (bytes : List UInt8) (h : s.codec.encode b = .ofBytes bytes) : r.Reads 0 bytes b :=
    hr b bytes (Nat.le_max_right _ _) h
  exact Encoding.coincide_of_reads ha hb

/-! ### Extension objects -/

theorem NodeId.coincideOnlyIf (m n : NodeId) :
    (NodeId.codec.encode m).CoincideOnlyIf (NodeId.codec.encode n) (m = n) :=
  Scalar.coincideOnlyIf .nodeId m n

/-- An object with a body is never written like one without. -/
theorem coincide_noBody {typeId : NodeId} {s : Structure} {body : Encoding} :
    (NodeId.codec.encode typeId ++ .byte noBody).CoincideOnlyIf (encodeObject s body) False := by
  rw [encodeObject, Encoding.append_assoc, ← Encoding.append_empty (.byte noBody)]
  have hid := NodeId.coincideOnlyIf typeId (.numeric 0 s.encodingId)
  have hmask : noBody ≠ binaryBody := by decide
  have hbody : (Encoding.byte noBody ++ .empty).CoincideOnlyIf
      (.byte binaryBody ++ .delimited body) (False ∧ False) :=
    (Encoding.coincide_byte.imp hmask).append False.elim
  exact (hid.append fun _ => hbody).imp fun h => h.2.1

/-- The type id tells the structure of the body. -/
theorem coincide_encodeObject {s s' : Structure} {body body' : Encoding} {p : Prop}
    (hbody : s = s' → body.CoincideOnlyIf body' p) :
    (encodeObject s body).CoincideOnlyIf (encodeObject s' body') (s = s' ∧ p) := by
  have hstructure (h : NodeId.numeric 0 s.encodingId = .numeric 0 s'.encodingId) : s = s' := by
    injection h with _ hidentifier
    injection hidentifier with hnumber
    exact Structure.encodingId_injective s s' hnumber
  have hid := (NodeId.coincideOnlyIf (.numeric 0 s.encodingId)
    (.numeric 0 s'.encodingId)).imp hstructure
  have hfront := hid.append fun _ => Encoding.coincide_byte (x := binaryBody) (y := binaryBody)
  have hwhole := hfront.append fun h => (hbody h.1).delimited
  exact hwhole.imp fun h => ⟨h.1.1, h.2⟩

/-- The null marker is no length of an array, so that what would follow does not matter. -/
theorem coincide_nullArray {p : Prop} (items : List Encoding) :
    (Encoding.length none).CoincideOnlyIf
      (.length (some items.length) ++ .concat items) p := by
  have hlength := Encoding.coincide_length (m := none) (n := some items.length)
  have h : (Encoding.length none ++ .empty).CoincideOnlyIf
      (.length (some items.length) ++ .concat items) (none = some items.length ∧ p) :=
    hlength.append nofun
  rw [Encoding.append_empty] at h
  exact h.imp And.right

/-! ### All values -/

mutual

/-- Complete values that are written alike have the same normal form. -/
theorem Value.coincideOnlyIf_of_isComplete : {t : WireType} → (v w : Value t) → v.IsComplete →
    w.IsComplete → v.encode.CoincideOnlyIf w.encode (v.normal = w.normal)
  | _, .scalar (s := s) a, .scalar b, _, _ =>
    (s.coincideOnlyIf a b).imp (congrArg Value.scalar)
  | _, .bodiless i, .bodiless j, _, _ => by
    have hmask := Encoding.coincide_byte (x := noBody) (y := noBody)
    have h := (NodeId.coincideOnlyIf i j).append fun _ => hmask
    exact h.imp fun h => congrArg Value.bodiless h.1
  | _, .bodiless _, .holding _ _ _, _, _ => coincide_noBody.imp False.elim
  | _, .holding _ _ _, .bodiless _, _, _ => coincide_noBody.symm.imp False.elim
  | _, .holding _ s v, .holding _ s' w, hv, hw => by
    by_cases hs : s = s'
    · subst hs
      have hbody := v.coincideOnlyIf_of_isComplete w hv hw
      exact (coincide_encodeObject fun _ => hbody).imp fun h => congrArg (Value.object s) h.2
    · refine (coincide_encodeObject (p := False) fun h => absurd h hs).imp ?_
      exact fun h => h.2.elim
  | _, .record (n := n) f, .record g, hf, hg =>
    (f.coincideOnlyIf_of_isComplete n g hf hg).imp (congrArg Value.record)
  | _, .nullArray, .nullArray, _, _ =>
    (Encoding.coincide_length (m := none) (n := none)).imp fun _ => rfl
  | _, .nullArray, .array g, _, _ => coincide_nullArray g.encodings
  | _, .array f, .nullArray, _, _ => (coincide_nullArray f.encodings).symm
  | _, .array f, .array g, hf, hg => by
    have hlength := Encoding.coincide_length (m := some f.encodings.length)
      (n := some g.encodings.length)
    refine (hlength.append fun h => ?_).imp fun h => congrArg Value.array h.2
    exact f.coincideOnlyIf_of_isComplete g (Option.some.inj h) hf hg
  | _, .present v, .present w, hv, hw =>
    (v.coincideOnlyIf_of_isComplete w hv hw).imp (congrArg Value.present)

/-- The fields of a structure are compared in their order. -/
theorem Fields.coincideOnlyIf_of_isComplete (owner : String) : {l : Layout} → (f g : Fields l) →
    f.IsComplete → g.IsComplete →
      (f.encode owner).CoincideOnlyIf (g.encode owner) (f.normal = g.normal)
  | _, .nil, .nil, _, _ => Encoding.coincide_empty.imp fun _ => rfl
  | _, .cons (n := n) v f, .cons w g, hv, hw => by
    have hfield : ((v.encode).inField owner n).CoincideOnlyIf ((w.encode).inField owner n)
        (v.normal = w.normal) := (v.coincideOnlyIf_of_isComplete w hv.1 hw.1).inField
    have hrest := f.coincideOnlyIf_of_isComplete owner g hv.2 hw.2
    refine (hfield.append fun _ => hrest).imp fun h => ?_
    rw [Fields.normal, Fields.normal, h.1, h.2]

/-- The elements of arrays of the same length are compared in their order. -/
theorem Items.coincideOnlyIf_of_isComplete : {t : WireType} → (f g : Items t) →
    f.encodings.length = g.encodings.length → f.IsComplete → g.IsComplete →
      (Encoding.concat f.encodings).CoincideOnlyIf (.concat g.encodings) (f.normal = g.normal)
  | _, .nil, .nil, _, _, _ => Encoding.coincide_empty.imp fun _ => rfl
  | _, .nil, .cons _ _, h, _, _ => nomatch h
  | _, .cons _ _, .nil, h, _, _ => nomatch h
  | _, .cons v f, .cons w g, h, hv, hw => by
    have hitem := v.coincideOnlyIf_of_isComplete w hv.1 hw.1
    have hrest := f.coincideOnlyIf_of_isComplete g (Nat.succ.inj h) hv.2 hw.2
    refine (hitem.append fun _ => hrest).imp fun h => ?_
    rw [Items.normal, Items.normal, h.1, h.2]

end

/-- **Values that are written alike have the same normal form**, absent references or not. -/
theorem Value.coincideOnlyIf {t : WireType} (v w : Value t) :
    v.encode.CoincideOnlyIf w.encode (v.normal = w.normal) := by
  have h := v.normal.coincideOnlyIf_of_isComplete w.normal v.isComplete_normal
    w.isComplete_normal
  rwa [v.encode_normal, w.encode_normal, v.normal_normal, w.normal_normal] at h

end OpcWire
