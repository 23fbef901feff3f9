import OpcWire.Message
import OpcWire.Proofs.Builtin.Indifferent
import OpcWire.Proofs.Wire.Watcher

/-!
# Watching how many bodies are open in values and messages

Every reader of values has its watcher, which follows the type as the reader does and reads the same
(`WireType.reader_watch`, `reader_watchMessage`). Its steps are readers that do not look at open
bodies, and the opening and closing of bodies. Confinement goes through the type by induction, and
through the layers of bodies one by one. Nothing but the body of an extension object, and the
message around it, opens a body.
-/

namespace OpcWire

/-! ### Values, given a watcher of extension objects -/

mutual

/-- Watch a value of a type being read; `object` watches the extension objects in it. -/
def WireType.watchWith (object : Watcher (Value .extensionObject)) :
    (t : WireType) → Watcher (Value t)
  | .scalar s => Value.scalar <$> .step s.codec.decode s.indifferent_decode
  | .extensionObject => object
  | .record name l => Value.record <$> l.watchWith object name
  | .array t => Value.ofItems? <$> Watcher.array (t.watchWith object)
  | .nullable t => Value.present <$> t.watchWith object

/-- Watch the fields of the structure `owner`; `object` watches the extension objects in them. -/
def Layout.watchWith (object : Watcher (Value .extensionObject)) (owner : String) :
    (l : Layout) → Watcher (Fields l)
  | .nil => return .nil
  | .cons name t rest => do
    let v ← (t.watchWith object).inField owner name
    let fields ← rest.watchWith object owner
    return .cons v fields

end

variable {object : Watcher (Value .extensionObject)}

mutual

theorem WireType.reader_watchWith :
    (t : WireType) → (t.watchWith object).reader = t.decodeWith object.reader
  | .scalar _ => rfl
  | .extensionObject => rfl
  | .record name l => congrArg (Value.record <$> ·) (l.reader_watchWith name)
  | .array t => by
    rw [WireType.decodeWith, ← t.reader_watchWith, ← Watcher.reader_array]
    rfl
  | .nullable t => congrArg (Value.present <$> ·) t.reader_watchWith

theorem Layout.reader_watchWith (owner : String) :
    (l : Layout) → (l.watchWith object owner).reader = l.decodeWith object.reader owner
  | .nil => rfl
  | .cons name t rest => by
    rw [Layout.decodeWith, ← t.reader_watchWith, ← rest.reader_watchWith]
    rfl

end

mutual

theorem WireType.confined_watchWith (h : object.Confined) :
    (t : WireType) → (t.watchWith object).Confined
  | .scalar _ => Watcher.confined_step.map
  | .extensionObject => h
  | .record name l => (l.confined_watchWith h name).map
  | .array t => (t.confined_watchWith h).array.map
  | .nullable t => (t.confined_watchWith h).map

theorem Layout.confined_watchWith (h : object.Confined) (owner : String) :
    (l : Layout) → (l.watchWith object owner).Confined
  | .nil => Watcher.confined_pure
  | .cons _ t rest => (t.confined_watchWith h).inField.bind fun _ =>
      (rest.confined_watchWith h owner).bind fun _ => Watcher.confined_pure

end

/-! ### Extension objects -/

theorem Reader.indifferent_ofExcept {α : Type} {result : Except CodecError α} :
    (ofExcept result).Indifferent := by
  cases result with
  | ok a => exact indifferent_pure
  | error cause => exact indifferent_fail

/-- Watch an extension object being read; `inner` watches the extension objects in its body. -/
def objectWatcher (inner : Watcher (Value .extensionObject)) :
    Watcher (Value .extensionObject) := do
  let typeId ← .step NodeId.codec.decode NodeId.indifferent_decode
  let mask ← .step Reader.byte Reader.indifferent_byte
  if mask = noBody then return .bodiless typeId
  else if mask = binaryBody then
    match ← Watcher.step Reader.length Reader.indifferent_length with
    | none => .fail (.invalidLength nullLength)
    | some count =>
      let span ← .step (Reader.take count) Reader.indifferent_take
      let s ← .step (Reader.ofExcept (structureOf Registries.extensionObjects typeId))
        Reader.indifferent_ofExcept
      Value.holding typeId s <$> Watcher.opening (.delimited span (s.wireType.watchWith inner))
  else .fail (.unsupportedBodyMask mask)

theorem reader_objectWatcher (inner : Watcher (Value .extensionObject)) :
    (objectWatcher inner).reader = objectReader inner.reader := by
  refine congrArg (NodeId.codec.decode >>= ·) (funext fun typeId => ?_)
  refine congrArg (Reader.byte >>= ·) (funext fun mask => ?_)
  -- of the three masks, only that of a binary body leads to something to be watched
  by_cases hnone : mask = noBody
  · simp only [if_pos hnone]
    rfl
  · by_cases hbody : mask = binaryBody
    · simp only [if_neg hnone, if_pos hbody]
      refine congrArg (Reader.length >>= ·) (funext fun count => ?_)
      cases count with
      | none => rfl
      | some count =>
        refine congrArg (Reader.take count >>= ·) (funext fun span => ?_)
        refine congrArg (Reader.ofExcept _ >>= ·) (funext fun s => ?_)
        rw [← s.wireType.reader_watchWith]
        rfl
    · simp only [if_neg hnone, if_neg hbody]
      rfl

theorem confined_objectWatcher {inner : Watcher (Value .extensionObject)} (h : inner.Confined) :
    (objectWatcher inner).Confined := by
  refine Watcher.confined_step.bind fun typeId => ?_
  refine Watcher.confined_step.bind fun mask => ?_
  refine Watcher.confined_pure.ite (Watcher.Confined.ite ?_ Watcher.confined_step)
  refine Watcher.confined_step.bind fun count => ?_
  cases count with
  | none => exact Watcher.confined_step
  | some count =>
    refine Watcher.confined_step.bind fun span => ?_
    refine Watcher.confined_step.bind fun s => ?_
    exact (s.wireType.confined_watchWith h).delimited.opening.map

/-- Watch an extension object whose body may hold further bodies down to `layers` layers. -/
def watchObjectWithin : (layers : Nat) → Watcher (Value .extensionObject)
  | 0 => objectWatcher (.fail (.nestingTooDeep maxBodyDepth))
  | layers + 1 => objectWatcher (watchObjectWithin layers)

theorem reader_watchObjectWithin (layers : Nat) :
    (watchObjectWithin layers).reader = decodeObjectWithin layers := by
  induction layers with
  | zero => exact reader_objectWatcher _
  | succ layers ih => rw [decodeObjectWithin, ← ih, watchObjectWithin, reader_objectWatcher]

theorem confined_watchObjectWithin (layers : Nat) : (watchObjectWithin layers).Confined := by
  induction layers with
  | zero => exact confined_objectWatcher Watcher.confined_step
  | succ layers ih => exact confined_objectWatcher ih

/-! ### Values and messages -/

/-- Watch a value of a type being read. -/
def WireType.watch (t : WireType) : Watcher (Value t) :=
  t.watchWith (watchObjectWithin maxBodyDepth)

/-- **Watching a value changes nothing of what is read.** -/
theorem WireType.reader_watch (t : WireType) : t.watch.reader = t.decode := by
  rw [watch, reader_watchWith, reader_watchObjectWithin]
  rfl

/-- **The limit is kept while a value is read.** -/
theorem WireType.confined_watch (t : WireType) : t.watch.Confined :=
  t.confined_watchWith (confined_watchObjectWithin maxBodyDepth)

/-- Watch a service message being read. -/
def watchMessage : Watcher Body := do
  let typeId ← .step NodeId.codec.decode NodeId.indifferent_decode
  let s ← .step (Reader.ofExcept (structureOf Registries.services typeId))
    Reader.indifferent_ofExcept
  Body.mk s <$> s.wireType.watch.opening

/-- **Watching a message changes nothing of what is read.** -/
theorem reader_watchMessage : watchMessage.reader = decodeMessage := by
  refine congrArg (NodeId.codec.decode >>= ·) (funext fun typeId => ?_)
  refine congrArg (Reader.ofExcept _ >>= ·) (funext fun s => ?_)
  rw [← s.wireType.reader_watch]
  rfl

/-- **The limit is kept while a message is read.** -/
theorem confined_watchMessage : watchMessage.Confined := by
  refine Watcher.confined_step.bind fun typeId => ?_
  refine Watcher.confined_step.bind fun s => ?_
  exact s.wireType.confined_watch.opening.map

/-! ### Balance -/

mutual

theorem WireType.balanced_decodeWith {object : Reader (Value .extensionObject)}
    (h : object.Balanced) : (t : WireType) → (t.decodeWith object).Balanced
  | .scalar s => s.indifferent_decode.balanced.map
  | .extensionObject => h
  | .record name l => (l.balanced_decodeWith h name).map
  | .array t => (t.balanced_decodeWith h).array.map
  | .nullable t => (t.balanced_decodeWith h).map

theorem Layout.balanced_decodeWith {object : Reader (Value .extensionObject)}
    (h : object.Balanced) (owner : String) : (l : Layout) → (l.decodeWith object owner).Balanced
  | .nil => Reader.balanced_pure
  | .cons _ t rest => (t.balanced_decodeWith h).inField.bind fun _ =>
      (rest.balanced_decodeWith h owner).bind fun _ => Reader.balanced_pure

end

theorem balanced_decodeObjectWithin (layers : Nat) : (decodeObjectWithin layers).Balanced := by
  rw [← reader_watchObjectWithin]
  exact (confined_watchObjectWithin layers).balanced

/-- **Reading a value leaves as many bodies open as there were.** -/
theorem WireType.balanced_decode (t : WireType) : t.decode.Balanced := by
  rw [← t.reader_watch]
  exact t.confined_watch.balanced

/-- **Reading a message leaves as many bodies open as there were.** -/
theorem balanced_decodeMessage : decodeMessage.Balanced := by
  rw [← reader_watchMessage]
  exact confined_watchMessage.balanced

end OpcWire
