import OpcWire.Proofs.Registry
import OpcWire.Proofs.Value.Extent
import OpcWire.Proofs.Value.Normal

/-!
# What is read can be written again

`Value.Rewrites v bodies k` collects what is known of a value that a reader returned for `k`
bytes with `bodies` bodies still to be opened: it is written in no more bytes, keeps the limits,
and is in normal form. The readers of all types return such values only, by induction on the type
and, for extension objects, on the number of layers.

The body of an extension object may shrink when it is written again. Its length prefix has room
for the body that was read (`Encoding.Fits.delimited`), so that writing it cannot fail either.
-/

namespace OpcWire

variable {object : Reader (Value .extensionObject)} {d bodies k : Nat}

/-- What a reader establishes of a value for which it took `k` bytes. -/
structure Value.Rewrites {t : WireType} (v : Value t) (bodies k : Nat) : Prop where
  fits : v.encode.Fits k
  within : v.extent.Within bodies
  normal : v.normal = v

/-- What a reader establishes of the fields of the structure `owner`. -/
structure Fields.Rewrites (owner : String) {l : Layout} (fields : Fields l) (bodies k : Nat) :
    Prop where
  fits : (fields.encode owner).Fits k
  within : fields.extent.Within bodies
  normal : fields.normal = fields

/-! ### Elements of arrays -/

namespace Items

variable {t : WireType} {values : List (Value t)}

theorem encodings_ofList (values : List (Value t)) :
    (ofList values).encodings = values.map Value.encode := by
  induction values with
  | nil => rfl
  | cons v rest ih => exact congrArg (v.encode :: ·) ih

theorem within_ofList (h : ∀ v ∈ values, v.extent.Within bodies) :
    (ofList values).extent.Within bodies := by
  induction values with
  | nil => exact Extent.within_zero
  | cons v rest ih =>
    have hrest := ih fun w hw => h w (List.mem_cons_of_mem v hw)
    exact Extent.within_sup.2 ⟨h v List.mem_cons_self, hrest⟩

theorem normal_ofList (h : ∀ v ∈ values, v.normal = v) :
    (ofList values).normal = ofList values := by
  induction values with
  | nil => rfl
  | cons v rest ih =>
    have hrest := ih fun w hw => h w (List.mem_cons_of_mem v hw)
    rw [ofList_cons, normal, h v List.mem_cons_self, hrest]

end Items

/-! ### Values -/

theorem Value.rewrites_ofItems? {t : WireType} {items : Option (List (Value t))}
    (hfits : (Encoding.array (items.map (·.map Value.encode))).Fits k)
    (hitems : ∀ values, items = some values → values.length ≤ maxArrayLength ∧
      ∀ v ∈ values, v.extent.Within bodies ∧ v.normal = v) :
    (Value.ofItems? items).Rewrites bodies k := by
  cases items with
  | none => exact ⟨hfits, Extent.within_zero, rfl⟩
  | some values =>
    obtain ⟨hlength, hvalues⟩ := hitems values rfl
    refine ⟨?_, ?_, ?_⟩
    · rw [ofItems?, encode, Items.encodings_ofList]
      exact hfits
    · have hitems' := Items.within_ofList fun v hv => (hvalues v hv).1
      refine Extent.within_sup.2 ⟨Extent.within_array.2 ?_, hitems'⟩
      rwa [Items.toList_ofList]
    · exact congrArg array (Items.normal_ofList fun v hv => (hvalues v hv).2)

mutual

theorem WireType.ensures_decodeWith
    (hobject : object.Ensures d fun v k => v.Rewrites (maxBodyDepth - d) k) : (t : WireType) →
      (t.decodeWith object).Ensures d fun v k => v.Rewrites (maxBodyDepth - d) k
  | .scalar s => by
    refine (s.lawful_codec.rewrites d).map fun v k ⟨hfits, hlimit⟩ => ?_
    exact ⟨hfits, Extent.within_diagnostics.2 hlimit, rfl⟩
  | .extensionObject => hobject
  | .record name l => by
    refine (l.ensures_decodeWith hobject name).map fun fields k h => ?_
    exact ⟨h.fits, h.within, congrArg Value.record h.normal⟩
  | .array t => by
    have hitem := (t.ensures_decodeWith hobject).imp fun v k h =>
      (⟨h.fits, h.within, h.normal⟩ : v.encode.Fits k ∧ v.extent.Within _ ∧ v.normal = v)
    exact hitem.array.map fun items k ⟨hfits, hitems⟩ => Value.rewrites_ofItems? hfits hitems
  | .nullable t => by
    refine (t.ensures_decodeWith hobject).map fun v k h => ?_
    exact ⟨h.fits, h.within, congrArg Value.present h.normal⟩

theorem Layout.ensures_decodeWith
    (hobject : object.Ensures d fun v k => v.Rewrites (maxBodyDepth - d) k) (owner : String) :
    (l : Layout) → (l.decodeWith object owner).Ensures d fun fields k =>
      fields.Rewrites owner (maxBodyDepth - d) k
  | .nil => Reader.ensures_pure ⟨Encoding.fits_empty, Extent.within_zero, rfl⟩
  | .cons name t rest => by
    refine (t.ensures_decodeWith hobject).inField.bind fun v j hv => ?_
    refine (rest.ensures_decodeWith hobject owner).map fun fields k hfields => ?_
    refine ⟨hv.fits.inField.append hfields.fits, ?_, ?_⟩
    · exact Extent.within_sup.2 ⟨hv.within, hfields.within⟩
    · exact congr (congrArg Fields.cons hv.normal) hfields.normal

end

/-! ### Extension objects -/

theorem Reader.ensures_ofExcept {α : Type} (result : Except CodecError α) :
    (ofExcept result).Ensures d fun a k => result = .ok a ∧ k = 0 := by
  cases result with
  | ok a => exact ensures_pure ⟨rfl, rfl⟩
  | error cause => exact ensures_fail

/-- **One layer of extension objects.** -/
theorem ensures_objectReader {inner : Reader (Value .extensionObject)}
    (hinner : inner.Ensures (d + 1) fun v k => v.Rewrites (maxBodyDepth - (d + 1)) k) :
    (objectReader inner).Ensures d fun v k => v.Rewrites (maxBodyDepth - d) k := by
  refine (NodeId.lawful_codec.fitsOnly d).bind fun typeId i hid => ?_
  refine Reader.ensures_byte.bind fun mask j hj => ?_
  subst hj
  refine Reader.Ensures.ite (fun _ => ?_) fun _ => Reader.Ensures.ite (fun _ => ?_) fun _ => ?_
  · exact Reader.ensures_pure ⟨hid.append Encoding.fits_byte, Extent.within_zero, rfl⟩
  · refine Reader.ensures_length.bind fun count j ⟨_, hj, hmax⟩ => ?_
    subst hj
    cases count with
    | none => exact Reader.ensures_fail
    | some count =>
      refine Reader.ensures_take.bind fun span j ⟨hspan, hj⟩ => ?_
      refine (Reader.ensures_ofExcept _).bind fun s k₀ ⟨hs, hk₀⟩ => ?_
      -- the body is written under the type id that selected its structure
      obtain rfl := structureOf_extensionObjects_eq_ok_iff.1 hs
      have hbody : (Reader.delimited span _).Ensures (d + 1) _ :=
        (s.wireType.ensures_decodeWith hinner).delimited
      refine (Reader.Ensures.opening fun _ => hbody).map fun body k ⟨hd, hk, hbody⟩ => ?_
      have hlength : span.length ≤ Encoding.maxLength := hspan ▸ hmax count rfl
      refine ⟨?_, ?_, congrArg (Value.object s) hbody.normal⟩
      · refine ((hid.append Encoding.fits_byte).append (hbody.fits.delimited hlength)).mono ?_
        omega
      · exact Extent.within_inBody.2 ⟨hd, hbody.within⟩
  · exact Reader.ensures_fail

/-- **Extension objects that are read can be written again.** -/
theorem ensures_decodeObjectWithin (layers : Nat) :
    (decodeObjectWithin layers).Ensures d fun v k => v.Rewrites (maxBodyDepth - d) k := by
  induction layers generalizing d with
  | zero =>
    -- nothing is claimed of a reader that fails, so no number of layers is too small
    exact ensures_objectReader Reader.ensures_fail
  | succ layers ih => exact ensures_objectReader ih

/-- **Values of every type that are read can be written again.** -/
theorem WireType.ensures_decode (t : WireType) :
    t.decode.Ensures d fun v k => v.Rewrites (maxBodyDepth - d) k :=
  t.ensures_decodeWith (ensures_decodeObjectWithin maxBodyDepth)

/-! ### Messages -/

/-- What a reader establishes of a message for which it took `k` bytes. -/
structure Body.Rewrites (b : Body) (bodies k : Nat) : Prop where
  fits : (encodeMessage b).Fits k
  within : b.value.extent.inBody.Within bodies
  normal : b.value.normal = b.value

theorem typeId_of_decodeMessage {c next : Cursor} {b : Body} (h : decodeMessage c = .ok b next) :
    ∃ mid, NodeId.codec.decode c = .ok (.numeric 0 b.encodingId) mid := by
  rw [decodeMessage, Reader.bind_apply] at h
  cases hid : NodeId.codec.decode c with
  | error => simp only [hid] at h; cases h
  | ok typeId mid =>
    rw [hid] at h
    simp only [Reader.bind_apply] at h
    cases hs : structureOf Registries.services typeId with
    | error => simp only [hs] at h; cases h
    | ok s =>
      simp only [hs] at h
      obtain ⟨-, rfl⟩ := structureOf_services_eq_ok_iff.1 hs
      change (Body.mk s <$> Reader.opening s.wireType.decode) mid = _ at h
      rw [Reader.map_apply] at h
      split at h
      · cases h
        exact ⟨mid, rfl⟩
      · cases h

/-- **Messages that are read can be written again.** -/
theorem ensures_decodeMessage :
    decodeMessage.Ensures d fun b k => b.Rewrites (maxBodyDepth - d) k := by
  refine (NodeId.lawful_codec.fitsOnly d).bind fun typeId i hid => ?_
  refine (Reader.ensures_ofExcept _).bind fun s j ⟨hs, hj⟩ => ?_
  obtain ⟨hservice, rfl⟩ := structureOf_services_eq_ok_iff.1 hs
  subst hj
  refine (Reader.Ensures.opening fun _ => s.wireType.ensures_decode).map fun v k ⟨hd, hv⟩ => ?_
  refine ⟨?_, Extent.within_inBody.2 ⟨hd, hv.within⟩, hv.normal⟩
  rw [encodeMessage_eq, if_pos hservice, Nat.zero_add]
  exact hid.append hv.fits

end OpcWire
