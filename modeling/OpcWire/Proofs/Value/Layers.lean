import OpcWire.Proofs.Value.Watching
import OpcWire.Proofs.Wire.Agreement

/-!
# As many layers as are needed

`decodeObjectWithin` follows bodies down to a number of layers, and more layers than bodies that
may still be opened make no difference (`agreeAt_decodeObjectWithin`). `decodeObject` starts with
enough of them, however many bodies are open already, and therefore solves the equation of a
reader that calls itself for the objects in a body (`decodeObject_eq`). What is proved from this
equation does not depend on how the layers are counted.
-/

namespace OpcWire

variable {d : Nat}

section

variable {object object' : Reader (Value .extensionObject)}

mutual

theorem WireType.agreeAt_decodeWith (h : Reader.AgreeAt d object object')
    (hbalanced : object'.Balanced) :
    (t : WireType) → Reader.AgreeAt d (t.decodeWith object) (t.decodeWith object')
  | .scalar _ => .refl _
  | .extensionObject => h
  | .record name l => (l.agreeAt_decodeWith h hbalanced name).map
  | .array t => by
    have hitem := t.agreeAt_decodeWith h hbalanced
    exact (hitem.array (t.balanced_decodeWith hbalanced)).map
  | .nullable t => (t.agreeAt_decodeWith h hbalanced).map

theorem Layout.agreeAt_decodeWith (h : Reader.AgreeAt d object object')
    (hbalanced : object'.Balanced) (owner : String) :
    (l : Layout) → Reader.AgreeAt d (l.decodeWith object owner) (l.decodeWith object' owner)
  | .nil => .refl _
  | .cons name t rest => by
    have hfield : Reader.AgreeAt d ((t.decodeWith object).inField owner name)
        ((t.decodeWith object').inField owner name) := (t.agreeAt_decodeWith h hbalanced).inField
    have hrest := rest.agreeAt_decodeWith h hbalanced owner
    have hfirst := t.balanced_decodeWith hbalanced
    exact hfield.bind hfirst.inField fun v => hrest.map

end

end

/-- **One layer of extension objects.** What is inside a body matters only if it may be opened. -/
theorem agreeAt_objectReader {inner inner' : Reader (Value .extensionObject)}
    (h : d < maxBodyDepth → Reader.AgreeAt (d + 1) inner inner') (hbalanced : inner'.Balanced) :
    Reader.AgreeAt d (objectReader inner) (objectReader inner') := by
  refine (Reader.AgreeAt.refl _).bind NodeId.indifferent_decode.balanced fun typeId => ?_
  refine (Reader.AgreeAt.refl _).bind Reader.indifferent_byte.balanced fun mask => ?_
  by_cases hbody : mask = binaryBody
  · subst hbody
    refine (Reader.AgreeAt.refl _).bind Reader.indifferent_length.balanced fun count => ?_
    cases count with
    | none => exact .refl _
    | some count =>
      refine (Reader.AgreeAt.refl _).bind Reader.indifferent_take.balanced fun span => ?_
      refine (Reader.AgreeAt.refl _).bind Reader.indifferent_ofExcept.balanced fun s => ?_
      refine Reader.AgreeAt.map (Reader.AgreeAt.opening fun hd => ?_)
      exact (s.wireType.agreeAt_decodeWith (h hd) hbalanced).delimited
  · -- no body is looked into, so that both readers are the same
    simp only [if_neg hbody]
    exact .refl _

/-- **Layers beyond the bodies that may still be opened make no difference.** -/
theorem agreeAt_decodeObjectWithin {layers layers' : Nat} (h : maxBodyDepth ≤ d + layers)
    (h' : maxBodyDepth ≤ d + layers') :
    Reader.AgreeAt d (decodeObjectWithin layers) (decodeObjectWithin layers') := by
  -- without layers on one side no further body may be opened, so that what is inside is not reached
  induction layers generalizing d layers' with
  | zero =>
    cases layers' with
    | zero => exact .refl _
    | succ layers' =>
      refine agreeAt_objectReader (fun hd => ?_) (balanced_decodeObjectWithin layers')
      exact absurd hd (Nat.not_lt.2 h)
  | succ layers ih =>
    cases layers' with
    | zero =>
      refine agreeAt_objectReader (fun hd => ?_) Reader.balanced_fail
      exact absurd hd (Nat.not_lt.2 h')
    | succ layers' =>
      refine agreeAt_objectReader (fun _ => ?_) (balanced_decodeObjectWithin layers')
      exact ih (by omega) (by omega)

/-- **The reader of extension objects calls itself** for the objects in a body. -/
theorem decodeObject_eq : decodeObject = objectReader decodeObject := by
  funext ⟨bytes, d⟩
  have hlayers : maxBodyDepth ≤ d + maxBodyDepth := Nat.le_add_left _ _
  have hmore : maxBodyDepth ≤ d + (maxBodyDepth + 1) := Nat.le_succ_of_le hlayers
  exact agreeAt_decodeObjectWithin hlayers hmore bytes

end OpcWire
