import OpcWire.Proofs.RoundTrip
import OpcWire.Proofs.Value.Layers
import OpcWire.Proofs.Value.PrefixCode

/-!
# Messages and extension objects pick the same body

A service message and an extension object both name their body by a type id, look it up in a
registry, and read it with one more body open. They differ in the registry, in what stands between
the type id and the body, and in that the body of an extension object has a span of its own, which
it must use up. On the services, the two registries agree. That the span makes no other difference
than that is `Reader.opening_delimited`: opening a body and setting its span can be swapped.

So the body of a message, put into an extension object under the same type id, is read as the same
body or refused with the same error; and if the message leaves bytes behind, the object is refused
for these.
-/

namespace OpcWire

open Reader (Reads)

/-! ### Opening, delimiting and running -/

namespace Reader

variable {α β : Type} {r : Reader α} {f : α → Reader β} {d : Nat} {used rest : List UInt8} {a : α}

/-- It does not matter whether a body is opened before its span is set or after. -/
theorem opening_delimited (span : List UInt8) (r : Reader α) :
    opening (delimited span r) = delimited span (opening r) := by
  funext c
  simp only [opening_apply, delimited]
  by_cases hlimit : maxBodyDepth < c.openBodies + 1
  · simp only [if_pos hlimit]
  · simp only [if_neg hlimit]
    cases r ⟨span, c.openBodies + 1⟩ with
    | error cause openBodies => rfl
    | ok a next =>
      by_cases hempty : next.rest.isEmpty
      · simp only [if_pos hempty]
      · simp only [if_neg hempty]

/-- What goes on after a part that is in hand. -/
theorem Reads.bind_eq (h : r.Reads d used a) : (r >>= f) ⟨used ++ rest, d⟩ = f a ⟨rest, d⟩ := by
  rw [bind_apply, h rest]

theorem run_map (g : α → β) (r : Reader α) (bytes : List UInt8) :
    (g <$> r).run bytes = (r.run bytes).map fun (a, rest) => (g a, rest) := by
  rw [run, run, map_apply]
  cases r (.start bytes) <;> rfl

/-- The result of a read from a span that has to be used up, with `bytes` behind the span. -/
def usedUp (bytes : List UInt8) :
    Except CodecError (α × List UInt8) → Except CodecError (α × List UInt8)
  | .ok (a, []) => .ok (a, bytes)
  | .ok (_, x :: rest) => .error (.trailingBytes (x :: rest).length)
  | .error cause => .error cause

/-- A delimited value is what its reader makes of the span, if nothing is left over. -/
theorem run_delimited (span bytes : List UInt8) (r : Reader α) :
    (delimited span r).run bytes = usedUp bytes (r.run span) := by
  rw [run, run, delimited]
  simp only [Cursor.start]
  cases r ⟨span, 0⟩ with
  | error cause openBodies => rfl
  | ok a next =>
    obtain ⟨rest, openBodies⟩ := next
    cases rest <;> rfl

end Reader

/-! ### What the type id selects -/

theorem structureOf_eq_error {registry : Registries → TypeRegistry Structure} {r : Registries} {id : UInt32}
    (hr : Registries.build = .ok r) (h : (registry r).contains id = false) :
    structureOf registry (.numeric 0 id) = .error (.unregisteredType (registry r).kind id) := by
  have hid : (NodeId.numeric 0 id).standardNumber? = some id := rfl
  have hnone : (registry r).structure? id = none := by
    refine Option.eq_none_iff_forall_ne_some.2 fun s hs => ?_
    exact Bool.eq_false_iff.1 h (TypeRegistry.contains_eq_true_iff.2 ⟨s, hs⟩)
  rw [structureOf, hr]
  simp only [hid, hnone]
  rfl

theorem Registries.exists_service {r : Registries} {id : UInt32} (hr : build = .ok r)
    (h : r.services.contains id = true) :
    ∃ s : Structure, structureOf services (.numeric 0 id) = .ok s ∧
      structureOf extensionObjects (.numeric 0 id) = .ok s := by
  obtain ⟨s, hs⟩ := TypeRegistry.contains_eq_true_iff.1 h
  have hservice : structureOf services (.numeric 0 id) = .ok s :=
    (structureOf_eq_ok_iff hr).2 ⟨id, rfl, hs⟩
  have htypeId := (structureOf_services_eq_ok_iff.1 hservice).2
  exact ⟨s, hservice, structureOf_extensionObjects_eq_ok_iff.2 htypeId⟩

variable {typeId : NodeId} {s : Structure} {d : Nat} {used body rest : List UInt8}

/-! ### The two readers behind the type id -/

theorem decodeMessage_of_reads (hid : Reads NodeId.codec.decode d used typeId)
    (hs : structureOf Registries.services typeId = .ok s) :
    decodeMessage ⟨used ++ body, d⟩ =
      (Body.mk s <$> Reader.opening s.wireType.decode) ⟨body, d⟩ := by
  rw [decodeMessage, hid.bind_eq, hs]
  rfl

theorem decodeObject_of_reads (hid : Reads NodeId.codec.decode d used typeId)
    (hs : structureOf Registries.extensionObjects typeId = .ok s)
    (hlength : body.length ≤ Encoding.maxLength) :
    decodeObject ⟨used ++ ([binaryBody] ++ (LittleEndian.toBytes 4 body.length ++ (body ++ rest))),
        d⟩ =
      (Value.holding typeId s <$>
        Reader.delimited body (Reader.opening s.wireType.decode)) ⟨rest, d⟩ := by
  rw [decodeObject_eq, objectReader, hid.bind_eq, Reader.reads_byte.bind_eq,
    if_neg (by decide), if_pos rfl, (Reader.reads_length_some hlength).bind_eq,
    ← Reader.opening_delimited]
  refine (Reader.Reads.bind_eq (Reader.reads_take body)).trans ?_
  rw [hs]
  rfl

/-- Both results are functions of what opening the body and reading it gives. -/
theorem run_of_typeId (hid : NodeId.codec.decode.run used = .ok (typeId, []))
    (hservice : structureOf Registries.services typeId = .ok s)
    (hobject : structureOf Registries.extensionObjects typeId = .ok s)
    (hlength : body.length ≤ Encoding.maxLength) :
    let opened := (Reader.opening s.wireType.decode).run body
    decodeMessage.run (used ++ body) = opened.map (fun (v, rest) => (Body.mk s v, rest)) ∧
      decodeObject.run (used ++ ([binaryBody] ++ (LittleEndian.toBytes 4 body.length ++ body))) =
        (Reader.usedUp [] opened).map fun (v, rest) => (Value.holding typeId s v, rest) := by
  intro opened
  have hreads := NodeId.lawful_codec.prefixCode.reads_of_run hid
  constructor
  · rw [← Reader.run_map]
    exact congrArg ReadResult.toExcept (decodeMessage_of_reads hreads hservice)
  · rw [← Reader.run_delimited, ← Reader.run_map]
    have hread : decodeObject
        ⟨used ++ ([binaryBody] ++ (LittleEndian.toBytes 4 body.length ++ (body ++ []))), 0⟩ =
          (Value.holding typeId s <$>
            Reader.delimited body (Reader.opening s.wireType.decode)) ⟨[], 0⟩ :=
      decodeObject_of_reads hreads hobject hlength
    rw [List.append_nil] at hread
    exact congrArg ReadResult.toExcept hread

/-- **Messages and extension objects agree on every body.** Under the type id of a service, in any
of its forms, and whatever the bytes of the body: if the message reads it, the object holds the
same body; if the message leaves bytes behind, the object is refused for that many; if the message
fails, the object fails with the same error. No other number selects a message. -/
theorem dispatch_agrees :
    ∃ registries, Registries.build = .ok registries ∧
      ∀ (id : UInt32) (typeId body : List UInt8),
        NodeId.codec.decode.run typeId = .ok (.numeric 0 id, []) →
          (registries.services.contains id = true → body.length ≤ 2 ^ 31 - 1 →
            let message := decodeMessage.run (typeId ++ body)
            let object := WireType.extensionObject.codec.decode.run
              (typeId ++ 1 :: (LittleEndian.toBytes 4 body.length ++ body))
            (∀ b, message = .ok (b, []) →
              object = .ok (.holding (.numeric 0 id) b.structureType b.value, [])) ∧
            (∀ b rest, rest ≠ [] → message = .ok (b, rest) →
              object = .error (.trailingBytes rest.length)) ∧
            ∀ cause, message = .error cause → object = .error cause) ∧
          (registries.services.contains id = false →
            decodeMessage.run (typeId ++ body) = .error (.unregisteredType "service" id)) := by
  obtain ⟨registries, hr, hkind, -⟩ := Registries.build_spec
  refine ⟨registries, hr, fun id typeId body hid => ⟨?_, ?_⟩⟩
  · intro hcontains hlength message object
    obtain ⟨s, hservice, hobject⟩ := Registries.exists_service hr hcontains
    obtain ⟨hmessage, hobject⟩ := run_of_typeId hid hservice hobject hlength
    have hm : message = _ := hmessage
    have ho : object = _ := hobject
    rw [hm, ho]
    rcases (Reader.opening s.wireType.decode).run body with cause | ⟨v, rest⟩
    · -- the body is refused, by the same reader in both
      refine ⟨nofun, nofun, fun cause' h => ?_⟩
      exact congrArg Except.error (Except.error.inj h)
    · cases rest with
      | nil =>
        refine ⟨?_, ?_, nofun⟩
        · rintro b ⟨⟩
          rfl
        · rintro b rest hrest ⟨⟩
          exact absurd rfl hrest
      | cons x rest =>
        -- the message hands on what is left over, the object complains of it
        refine ⟨nofun, ?_, nofun⟩
        rintro b rest - ⟨⟩
        rfl
  · intro hcontains
    have hmissing := structureOf_eq_error hr hcontains
    rw [hkind] at hmissing
    have hreads := NodeId.lawful_codec.prefixCode.reads_of_run hid
    rw [Reader.run, Cursor.start, decodeMessage, hreads.bind_eq, hmissing]
    rfl

/-- Bytes of the number 397 of fault messages as a type id, in a form too long for it. -/
def oversizedTypeId : List UInt8 := [2, 0, 0, 0x8D, 1, 0, 0]

/-- The body of a fault message alone, with a byte behind it, and cut by one byte; and a number
that belongs to no message. -/
theorem dispatch_agrees_fault :
    let body := headlessFaultBytes.drop 4
    let object (body : List UInt8) := WireType.extensionObject.codec.decode.run
      (oversizedTypeId ++ 1 :: (LittleEndian.toBytes 4 body.length ++ body))
    object body = .ok (.holding (.numeric 0 397) .serviceFault (WireType.filledZero _), []) ∧
      object (body ++ [0xFF]) = .error (.trailingBytes 1) ∧
      object body.dropLast = .error (.inField "ServiceFault" "ResponseHeader"
        (.inField "ResponseHeader" "AdditionalHeader" (.unexpectedEnd 1 0))) ∧
      decodeMessage.run ([0, 5] ++ body) = .error (.unregisteredType "service" 5) := by
  obtain ⟨registries, hr, hagree⟩ := dispatch_agrees
  obtain ⟨r, hr', -, -, hservices⟩ := Registries.build_spec
  obtain rfl : registries = r := Except.ok.inj (hr.symm.trans hr')
  have hfault : registries.services.contains 397 = true :=
    TypeRegistry.contains_eq_true_iff.2 ⟨.serviceFault, (hservices _ _).2 ⟨rfl, rfl⟩⟩
  have hother : registries.services.contains 5 = false := by
    refine Bool.eq_false_iff.2 fun h => ?_
    obtain ⟨s, hs⟩ := TypeRegistry.contains_eq_true_iff.1 h
    obtain ⟨-, hid⟩ := (hservices _ _).1 hs
    cases s <;> cases hid
  have hagree' (body : List UInt8) := (hagree 397 oversizedTypeId body rfl).1 hfault
  refine ⟨?_, ?_, ?_, ?_⟩
  · exact (hagree' _ (by decide)).1 ⟨.serviceFault, WireType.filledZero _⟩ rfl
  · exact (hagree' _ (by decide)).2.1 ⟨.serviceFault, WireType.filledZero _⟩ [0xFF] nofun rfl
  · exact (hagree' _ (by decide)).2.2 _ rfl
  · exact (hagree 5 [0, 5] _ rfl).2 hother

end OpcWire
