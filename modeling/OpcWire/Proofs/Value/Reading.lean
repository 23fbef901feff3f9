import OpcWire.Proofs.Registry
import OpcWire.Proofs.Value.Extent
import OpcWire.Proofs.Value.Normal

/-!
# Values are read back in normal form

`ReadsObjects object d` says that a reader of extension objects, with `d` bodies open around it,
reads back what is written for any of them that keeps the limits, and refuses the others.

* `Value.readsIf` lifts this to the values of every type, by induction on the value;
* `readsObjects_objectReader` goes from the reader of the objects inside bodies to the reader of
  the objects around them;
* `readsObjects_decodeObjectWithin` ties the two together by induction on the number of layers.

The innermost layer fails on whatever it is given. It is never reached: with as many bodies open
as there are layers above it no further body may be opened.
-/

namespace OpcWire

variable {object : Reader (Value .extensionObject)} {d : Nat} {bytes : List UInt8}

/-- `object` reads back extension objects within the limits and refuses the others. -/
def ReadsObjects (object : Reader (Value .extensionObject)) (d : Nat) : Prop :=
  ∀ ⦃v : Value .extensionObject⦄ ⦃bytes : List UInt8⦄, v.encode = .ofBytes bytes →
    object.ReadsIf (v.extent.Within (maxBodyDepth - d)) d bytes v.normal

/-! ### Zero values -/

mutual

theorem WireType.reads_zero (hobject : ReadsObjects object d) : (t : WireType) →
    {bytes : List UInt8} → t.zeroEncoding = .ofBytes bytes →
      (t.decodeWith object).Reads d bytes t.filledZero
  | .scalar s, _, h => ((s.lawful_codec.readsIf h).reads s.fits_zero).map
  | .extensionObject, _, h =>
    (hobject (v := .nullObject) h).reads Extent.within_zero
  | .record name l, _, h => (l.reads_zero hobject name h).map
  | .array _, bytes, h => by
    obtain rfl := Encoding.ofBytes_inj.1 (Encoding.length_none.symm.trans h)
    exact Reader.reads_array_none.map
  | .nullable t, _, h => (t.reads_zero hobject h).map

theorem Layout.reads_zero (hobject : ReadsObjects object d) (owner : String) : (l : Layout) →
    {bytes : List UInt8} → l.zeroEncoding owner = .ofBytes bytes →
      (l.decodeWith object owner).Reads d bytes l.filledZero
  | .nil, bytes, h => by
    obtain rfl : [] = bytes := Encoding.ofBytes_inj.1 h
    exact Reader.reads_pure
  | .cons name t rest, bytes, h => by
    obtain ⟨front, others, hfront, hothers, rfl⟩ := Encoding.append_eq_ofBytes_iff.1 h
    have hfield := t.reads_zero hobject (Encoding.inField_eq_ofBytes_iff.1 hfront)
    exact hfield.inField.bind (rest.reads_zero hobject owner hothers).map

end

/-! ### Values -/

@[simp] theorem Items.length_encodings {t : WireType} : (items : Items t) →
    items.encodings.length = items.toList.length
  | .nil => rfl
  | .cons _ rest => congrArg (· + 1) rest.length_encodings

@[simp] theorem Items.length_normal {t : WireType} : (items : Items t) →
    items.normal.toList.length = items.toList.length
  | .nil => rfl
  | .cons _ rest => congrArg (· + 1) rest.length_normal

mutual

/-- **Values are read back in normal form**, or refused if they exceed a limit. -/
theorem Value.readsIf (hobject : ReadsObjects object d) : {t : WireType} → (v : Value t) →
    {bytes : List UInt8} → v.encode = .ofBytes bytes →
      (t.decodeWith object).ReadsIf (v.extent.Within (maxBodyDepth - d)) d bytes v.normal
  | _, .scalar (s := s) v, _, h =>
    ((s.lawful_codec.readsIf h).map (g := Value.scalar)).congr Extent.within_diagnostics.symm
  | _, .bodiless _, _, h => hobject h
  | _, .holding _ _ _, _, h => hobject h
  | _, .record (n := n) fields, _, h => (fields.readsIf hobject n h).map
  | _, .nullArray (t := t), _, h => by
    exact ((WireType.array t).reads_zero hobject h).readsIf Extent.within_zero
  | _, .array items, bytes, h => by
    obtain ⟨front, others, hfront, hothers, rfl⟩ := Encoding.append_eq_ofBytes_iff.1 h
    have hlength : Encoding.length (some items.normal.toList.length) = .ofBytes front := by
      simpa using hfront
    have hitems := items.readsIf hobject hothers
    rw [← items.length_normal] at hitems
    have harray := (Reader.ReadsIf.array hlength hitems).map (g := Value.ofItems?)
    rw [Value.ofItems?, Items.ofList_toList, items.length_normal] at harray
    refine harray.congr ?_
    rw [Value.extent, Extent.within_sup, Extent.within_array]
  | _, .absent (t := t), _, h =>
    Reader.Reads.readsIf (t.reads_zero hobject h).map Extent.within_zero
  | _, .present v, _, h => (v.readsIf hobject h).map

theorem Fields.readsIf (hobject : ReadsObjects object d) (owner : String) : {l : Layout} →
    (fields : Fields l) → {bytes : List UInt8} → fields.encode owner = .ofBytes bytes →
      (l.decodeWith object owner).ReadsIf (fields.extent.Within (maxBodyDepth - d)) d bytes
        fields.normal
  | _, .nil, bytes, h => by
    obtain rfl : [] = bytes := Encoding.ofBytes_inj.1 h
    exact Reader.reads_pure.readsIf Extent.within_zero
  | _, .cons v rest, bytes, h => by
    obtain ⟨front, others, hfront, hothers, rfl⟩ := Encoding.append_eq_ofBytes_iff.1 h
    have hfield := v.readsIf hobject (Encoding.inField_eq_ofBytes_iff.1 hfront)
    exact (hfield.inField.bind (rest.readsIf hobject owner hothers).map).congr
      Extent.within_sup.symm

theorem Items.readsIf (hobject : ReadsObjects object d) : {t : WireType} → (items : Items t) →
    {bytes : List UInt8} → Encoding.concat items.encodings = .ofBytes bytes →
      (Reader.replicate (t.decodeWith object) items.toList.length).ReadsIf
        (items.extent.Within (maxBodyDepth - d)) d bytes items.normal.toList
  | _, .nil, bytes, h => by
    obtain rfl : [] = bytes := Encoding.ofBytes_inj.1 h
    exact Reader.Reads.readsIf Reader.reads_pure Extent.within_zero
  | t, .cons v rest, bytes, h => by
    obtain ⟨front, others, hfront, hothers, rfl⟩ := Encoding.append_eq_ofBytes_iff.1 h
    have hstep := Reader.replicate_succ (t.decodeWith object) rest.toList.length
    rw [Items.toList, List.length_cons, hstep]
    exact ((v.readsIf hobject hfront).bind (rest.readsIf hobject hothers).map).congr
      Extent.within_sup.symm

end

/-! ### Extension objects -/

/-- A body is read if one more may be opened and `inner` reads what is inside it. -/
theorem readsIf_body {inner : Reader (Value .extensionObject)}
    (hinner : d < maxBodyDepth → ReadsObjects inner (d + 1)) {s : Structure}
    {body : Value s.wireType} {content : List UInt8} (hbody : body.encode = .ofBytes content) :
    (Reader.opening (.delimited content (s.wireType.decodeWith inner))).ReadsIf
      (body.extent.inBody.Within (maxBodyDepth - d)) d [] body.normal := by
  refine (Reader.ReadsIf.opening fun hd => ?_).congr Extent.within_inBody.symm
  exact (body.readsIf (hinner hd) hbody).delimited

/-- **One layer of extension objects.** -/
theorem readsObjects_objectReader {inner : Reader (Value .extensionObject)}
    (hinner : d < maxBodyDepth → ReadsObjects inner (d + 1)) :
    ReadsObjects (objectReader inner) d := by
  intro v bytes h
  cases v with
  | bodiless typeId =>
    obtain ⟨id, mask, hid, hmask, rfl⟩ := Encoding.append_eq_ofBytes_iff.1 h
    obtain rfl := Encoding.ofBytes_inj.1 hmask
    refine ((NodeId.lawful_codec.reads hid).bind ?_).readsIf Extent.within_zero
    refine Reader.reads_byte.bind_nil ?_
    rw [if_pos rfl]
    exact Reader.reads_pure
  | holding typeId s body =>
    obtain ⟨front, rest, hfront, hrest, rfl⟩ := Encoding.append_eq_ofBytes_iff.1 h
    obtain ⟨id, mask, hid, hmask, rfl⟩ := Encoding.append_eq_ofBytes_iff.1 hfront
    obtain rfl := Encoding.ofBytes_inj.1 hmask
    obtain ⟨content, hcontent, hle, rfl⟩ := Encoding.delimited_eq_ofBytes_iff.1 hrest
    rw [List.append_assoc]
    refine (NodeId.lawful_codec.reads hid).bind_readsIf (Reader.reads_byte.bind_readsIf ?_)
    rw [if_neg (by decide), if_pos rfl]
    refine (Reader.reads_length_some hle).bind_readsIf ?_
    -- the type id that was written is the body's, whatever the object held
    have hs : structureOf Registries.extensionObjects (.numeric 0 s.encodingId) = .ok s :=
      structureOf_extensionObjects_eq_ok_iff.2 rfl
    have hspan := (Reader.reads_take content (d := d)).bind_readsIf
      (f := fun span => Value.holding (.numeric 0 s.encodingId) s <$>
        Reader.opening (.delimited span (s.wireType.decodeWith inner)))
      (readsIf_body hinner hcontent).map
    rw [List.append_nil] at hspan
    simp only [hs]
    exact hspan

/-- **Extension objects are read back**, given a layer for each body that may still be opened. -/
theorem readsObjects_decodeObjectWithin (layers : Nat) {d : Nat} (h : maxBodyDepth ≤ d + layers) :
    ReadsObjects (decodeObjectWithin layers) d := by
  induction layers generalizing d with
  | zero =>
    -- as many bodies are open as may be, so that the failing reader inside is not reached
    exact readsObjects_objectReader fun hd => absurd hd (Nat.not_lt.2 h)
  | succ layers ih => exact readsObjects_objectReader fun _ => ih (by omega)

theorem readsObjects_decodeObject (d : Nat) : ReadsObjects decodeObject d :=
  readsObjects_decodeObjectWithin maxBodyDepth (Nat.le_add_left maxBodyDepth d)

/-- **Values of every type are read back in normal form**, or refused if they exceed a limit. -/
theorem WireType.readsIf_decode {t : WireType} {v : Value t} (h : v.encode = .ofBytes bytes) :
    t.decode.ReadsIf (v.extent.Within (maxBodyDepth - d)) d bytes v.normal :=
  v.readsIf (readsObjects_decodeObject d) h

/-! ### Messages -/

theorem readsIf_decodeMessage {b : Body} (h : encodeMessage b = .ofBytes bytes) :
    decodeMessage.ReadsIf (b.value.extent.inBody.Within (maxBodyDepth - d)) d bytes
      ⟨b.structureType, b.value.normal⟩ := by
  rw [encodeMessage_eq] at h
  split at h
  · rename_i hservice
    obtain ⟨id, content, hid, hcontent, rfl⟩ := Encoding.append_eq_ofBytes_iff.1 h
    have hs : structureOf Registries.services (.numeric 0 b.encodingId) = .ok b.structureType :=
      structureOf_services_eq_ok_iff.2 ⟨hservice, rfl⟩
    refine (NodeId.lawful_codec.reads hid).bind_readsIf ?_
    simp only [hs]
    refine Reader.ReadsIf.map (g := Body.mk b.structureType) ?_
    refine (Reader.ReadsIf.opening fun _ => ?_).congr Extent.within_inBody.symm
    exact WireType.readsIf_decode hcontent
  · exact absurd h Encoding.fail_ne_ofBytes

end OpcWire
