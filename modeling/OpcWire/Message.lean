import OpcWire.Body

/-!
# Service messages

A service message is the node id of its structure's binary encoding followed by the structure.
The reader picks the structure by the id from the registry of services. A message counts as the
first open body.
-/

namespace OpcWire

/-- Read a service message. -/
def decodeMessage : Reader Body := do
  let typeId ← NodeId.codec.decode
  let s ← Reader.ofExcept (structureOf Registries.services typeId)
  Body.mk s <$> Reader.opening s.wireType.decode

/-- What is written for a service message. A body that is no service message is refused. -/
def encodeMessage (b : Body) : Encoding :=
  match Registries.build with
  | .error cause => .fail (.registry cause)
  | .ok registries =>
    if registries.services.contains b.encodingId then
      NodeId.codec.encode (.numeric 0 b.encodingId) ++ b.encode
    else .fail (.unregisteredType registries.services.kind b.encodingId)

end OpcWire
