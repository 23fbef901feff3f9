import OpcWire.Proofs.Value.Header
import OpcWire.Proofs.Value.Watching
import OpcWire.Proofs.Wire.Failing

/-!
# Sessions with a body

A body does not show the type of its value. Who holds one can have another value read into it, give
it another header, and assign a value to it, in any order; each of these may fail. `Session.run`
does so with the operations on bodies.

`Structure.Performs` says for each operation what it does to a value of a known structure: with the
fields of the value as a list, and with nothing that knows of bodies. `bodies_stay_typed` says that
a session is a run of this relation from start to end (`Structure.Runs`), and the only one, and what
bytes are written when a message has got another header.
-/

namespace OpcWire

namespace Body

/-- What can be asked of a body. -/
inductive Operation
  /-- Read another value of its structure from bytes. -/
  | read (bytes : List UInt8)
  /-- Take another header, as a request or as a response. -/
  | setHeader (role : HeaderRole) (header : Value role.header.wireType)
  /-- Take another value, if that is one of its structure. -/
  | assign (s : Structure) (v : Value s.wireType)

/-- How an operation ends. -/
inductive Answer
  /-- A value was read, and `rest` is left. -/
  | left (rest : List UInt8)
  /-- No value was read, for the reason `cause`. -/
  | failed (cause : CodecError)
  /-- The header or the value was taken. -/
  | accepted
  /-- The header or the value was not taken. -/
  | refused
  deriving DecidableEq

end Body

open Body (Operation Answer)

/-- A body, and the number of bodies that are open while something is read into it. -/
structure Session where
  /-- The body. -/
  body : Body
  /-- Number of open bodies. -/
  openBodies : Nat

namespace Session

/-- Perform an operation. -/
def perform (σ : Session) : Operation → Session × Answer
  | .read bytes =>
    match σ.body.decode ⟨bytes, σ.openBodies⟩ with
    | .ok b next => (⟨b, next.openBodies⟩, .left next.rest)
    | .error cause openBodies => ({ σ with openBodies }, .failed cause)
  | .setHeader role header =>
    match σ.body.setHeader? ⟨role.header, header⟩ with
    | some b => ({ σ with body := b }, .accepted)
    | none => (σ, .refused)
  | .assign s v =>
    match σ.body.assign? ⟨s, v⟩ with
    | some b => ({ σ with body := b }, .accepted)
    | none => (σ, .refused)

/-- Perform operations one after the other. -/
def run (σ : Session) : List Operation → Session × List Answer
  | [] => (σ, [])
  | op :: ops =>
    let (next, answer) := σ.perform op
    let (last, answers) := next.run ops
    (last, answer :: answers)

end Session

/-! ### What operations do to a value -/

/-- What an operation does to a value of the structure `s`, and its answer. -/
inductive Structure.Performs (s : Structure) (d : Nat) (v : Value s.wireType) :
    Operation → Answer → Value s.wireType → Prop
  /-- What is read takes the place of the old value, whatever that was. -/
  | read {bytes : List UInt8} {w : Value s.wireType} {next : Cursor}
      (h : s.wireType.codec.decode ⟨bytes, d⟩ = .ok w next) :
      Performs s d v (.read bytes) (.left next.rest) w
  /-- Where nothing is read, the value stays as it is. -/
  | unread {bytes : List UInt8} {cause : CodecError} {openBodies : Nat}
      (h : s.wireType.codec.decode ⟨bytes, d⟩ = .error cause openBodies) :
      Performs s d v (.read bytes) (.failed cause) v
  /-- The first field refers to the new header then, and all others are as they were. -/
  | stamped {role : HeaderRole} {header : Value role.header.wireType} {w : Value s.wireType}
      {field : String} {old : Value (.nullable role.header.wireType)}
      {rest : List (String × Σ t : WireType, Value t)}
      (hv : v.fields.toList = (field, ⟨_, old⟩) :: rest)
      (hw : w.fields.toList = (field, ⟨_, Value.present header⟩) :: rest) :
      Performs s d v (.setHeader role header) .accepted w
  /-- A value whose first field does not refer to a header of this kind stays as it is. -/
  | headless {role : HeaderRole} {header : Value role.header.wireType}
      (h : ∀ field (old : Value (.nullable role.header.wireType)) rest,
        v.fields.toList ≠ (field, ⟨_, old⟩) :: rest) :
      Performs s d v (.setHeader role header) .refused v
  /-- A value of the structure is taken. -/
  | assigned {w : Value s.wireType} : Performs s d v (.assign s w) .accepted w
  /-- A value of another structure is not. -/
  | foreign {s' : Structure} {w : Value s'.wireType} (h : s' ≠ s) :
      Performs s d v (.assign s' w) .refused v

/-- What operations one after the other do to a value of the structure `s`, and their answers. -/
inductive Structure.Runs (s : Structure) (d : Nat) :
    Value s.wireType → List Operation → List Answer → Value s.wireType → Prop
  /-- No operation does nothing. -/
  | nil {v : Value s.wireType} : Runs s d v [] [] v
  /-- The first operation, and the others on what it makes of the value. -/
  | cons {v w u : Value s.wireType} {op : Operation} {ops : List Operation} {answer : Answer}
      {answers : List Answer} (hfirst : s.Performs d v op answer w)
      (hrest : Runs s d w ops answers u) : Runs s d v (op :: ops) (answer :: answers) u

section Typed

variable {s : Structure} {d : Nat} {v w w' : Value s.wireType} {op : Operation}
  {ops : List Operation} {answer answer' : Answer} {answers answers' : List Answer}

theorem Structure.Performs.unique (h : s.Performs d v op answer w)
    (h' : s.Performs d v op answer' w') : answer' = answer ∧ w' = w := by
  cases h with
  | read hread =>
    cases h' with
    | read hread' =>
      cases hread.symm.trans hread'
      exact ⟨rfl, rfl⟩
    | unread hread' => cases hread.symm.trans hread'
  | unread hread =>
    cases h' with
    | read hread' => cases hread.symm.trans hread'
    | unread hread' =>
      cases hread.symm.trans hread'
      exact ⟨rfl, rfl⟩
  | stamped hv hw =>
    cases h' with
    | stamped hv' hw' =>
      obtain ⟨hfield, rfl⟩ := List.cons.inj (hv.symm.trans hv')
      obtain ⟨rfl, -⟩ := Prod.mk.inj hfield
      exact ⟨rfl, Value.toList_fields_inj (hw'.trans hw.symm)⟩
    | headless hnone => exact absurd hv (hnone _ _ _)
  | headless hnone =>
    cases h' with
    | stamped hv => exact absurd hv (hnone _ _ _)
    | headless => exact ⟨rfl, rfl⟩
  | assigned =>
    cases h' with
    | assigned => exact ⟨rfl, rfl⟩
    | foreign hne => exact absurd rfl hne
  | foreign hne =>
    cases h' with
    | assigned => exact absurd rfl hne
    | foreign => exact ⟨rfl, rfl⟩

theorem Structure.Runs.unique (h : s.Runs d v ops answers w)
    (h' : s.Runs d v ops answers' w') : answers' = answers ∧ w' = w := by
  induction h generalizing answers' with
  | nil =>
    cases h'
    exact ⟨rfl, rfl⟩
  | cons hfirst hrest ih =>
    cases h' with
    | cons hfirst' hrest' =>
      obtain ⟨rfl, rfl⟩ := hfirst.unique hfirst'
      obtain ⟨rfl, rfl⟩ := ih hrest'
      exact ⟨rfl, rfl⟩

/-! ### One operation and many -/

theorem Session.perform_read (s : Structure) (d : Nat) (v : Value s.wireType)
    (bytes : List UInt8) : ∃ answer w,
      (Session.mk ⟨s, v⟩ d).perform (.read bytes) = (⟨⟨s, w⟩, d⟩, answer) ∧
        s.Performs d v (.read bytes) answer w := by
  have hkept : (s.wireType.codec.decode ⟨bytes, d⟩).openBodies = d :=
    s.wireType.balanced_decode ⟨bytes, d⟩
  cases hread : s.wireType.codec.decode ⟨bytes, d⟩ with
  | ok w next =>
    rw [hread] at hkept
    obtain rfl : next.openBodies = d := hkept
    have hbody : (Body.mk s v).decode ⟨bytes, next.openBodies⟩ = .ok ⟨s, w⟩ next :=
      Reader.map_eq_ok_iff.2 ⟨w, hread, rfl⟩
    refine ⟨.left next.rest, w, ?_, .read hread⟩
    simp only [perform, hbody]
  | error cause openBodies =>
    rw [hread] at hkept
    obtain rfl : openBodies = d := hkept
    have hbody : (Body.mk s v).decode ⟨bytes, openBodies⟩ = .error cause openBodies :=
      Reader.map_eq_error_iff.2 hread
    refine ⟨.failed cause, v, ?_, .unread hread⟩
    simp only [perform, hbody]

theorem Session.perform_setHeader (s : Structure) (d : Nat) (v : Value s.wireType)
    (role : HeaderRole) (header : Value role.header.wireType) : ∃ answer w,
      (Session.mk ⟨s, v⟩ d).perform (.setHeader role header) = (⟨⟨s, w⟩, d⟩, answer) ∧
        s.Performs d v (.setHeader role header) answer w := by
  by_cases hknown : ∃ h, s.heading? = some h ∧ h.role = role
  · obtain ⟨h, hs, rfl⟩ := hknown
    refine ⟨.accepted, h.join (.present header) (h.split v).2, ?_, ?_⟩
    · simp only [perform, Body.setHeader?_of_heading hs]
    · exact .stamped (h.toList_fields v) (h.toList_fields_join _ _)
  · refine ⟨.refused, v, ?_, .headless fun field old rest hfirst => ?_⟩
    · simp only [perform, Body.setHeader?_eq_none hknown]
    · obtain ⟨l, hlayout⟩ := Fields.layout_of_toList hfirst
      exact hknown (Structure.exists_heading hlayout)

theorem Session.perform_assign (s s' : Structure) (d : Nat) (v : Value s.wireType)
    (u : Value s'.wireType) : ∃ answer w,
      (Session.mk ⟨s, v⟩ d).perform (.assign s' u) = (⟨⟨s, w⟩, d⟩, answer) ∧
        s.Performs d v (.assign s' u) answer w := by
  by_cases hs : s' = s
  · subst hs
    refine ⟨.accepted, u, ?_, .assigned⟩
    simp only [perform, Body.assign?_self]
  · refine ⟨.refused, v, ?_, .foreign hs⟩
    simp only [perform, Body.assign?_of_ne hs]

/-- **One operation** on a body does to its value what it says, and leaves the structure and the
number of open bodies as they are. -/
theorem Session.perform_spec (s : Structure) (d : Nat) (v : Value s.wireType) (op : Operation) :
    ∃ answer w, (Session.mk ⟨s, v⟩ d).perform op = (⟨⟨s, w⟩, d⟩, answer) ∧
      s.Performs d v op answer w := by
  cases op with
  | read bytes => exact perform_read s d v bytes
  | setHeader role header => exact perform_setHeader s d v role header
  | assign s' u => exact perform_assign s s' d v u

/-- **Many operations** do it one after the other. -/
theorem Session.run_spec (s : Structure) (d : Nat) (v : Value s.wireType)
    (ops : List Operation) : ∃ answers w,
      (Session.mk ⟨s, v⟩ d).run ops = (⟨⟨s, w⟩, d⟩, answers) ∧ s.Runs d v ops answers w := by
  induction ops generalizing v with
  | nil => exact ⟨[], v, rfl, .nil⟩
  | cons op ops ih =>
    obtain ⟨answer, w, hfirst, hperforms⟩ := perform_spec s d v op
    obtain ⟨answers, u, hrest, hruns⟩ := ih w
    refine ⟨answer :: answers, u, ?_, .cons hperforms hruns⟩
    simp only [run, hfirst, hrest]

end Typed

/-! ### Messages with another header -/

theorem Value.encode_reference {t : WireType} (reference : Value (.nullable t)) :
    reference.encode = (reference.target?.getD (.zero t)).encode := by
  cases reference with
  | absent => exact (Value.encode_zero t).symm
  | present v => rfl

/-- The body `b'` is the message `b` with another header: all other fields are as they were, and in
what is written, the bytes of the header take the place of those of the old one, or of a header of
zero values if there was none. -/
structure Body.Restamps (b header b' : Body) : Prop where
  structure_eq : b'.structureType = b.structureType
  header_eq : b'.header? = some (some header)
  others_eq : b'.value.fields.toList.tail = b.value.fields.toList.tail
  bytes_eq : ∀ old new, b.encode.toExcept = .ok old → b'.encode.toExcept = .ok new →
    ∃ reference front stamp, b.header? = some reference ∧
      (reference.getD (.zero header.structureType)).encode.toExcept = .ok front ∧
      header.encode.toExcept = .ok stamp ∧
      front <+: old ∧ new = stamp ++ old.drop front.length

theorem Structure.Heading.restamps {s : Structure} {h : s.Heading} (hs : s.heading? = some h)
    (v : Value s.wireType) (header : Value h.role.header.wireType) :
    Body.Restamps ⟨s, v⟩ ⟨h.role.header, header⟩ ⟨s, h.join (.present header) (h.split v).2⟩ where
  structure_eq := rfl
  header_eq := by
    rw [Body.header?_of_heading hs, h.split_join]
    rfl
  others_eq := by
    simp only [toList_fields_join, h.toList_fields v, List.tail_cons]
  bytes_eq := by
    intro old new hold hnew
    have hbefore : (h.join (h.split v).1 (h.split v).2).encode = .ofBytes old := by
      rw [h.join_split]
      exact Encoding.toExcept_eq_ok_iff.1 hold
    have hafter := Encoding.toExcept_eq_ok_iff.1 hnew
    rw [Body.encode, encode_join] at hafter
    rw [encode_join] at hbefore
    obtain ⟨front, others, hfront, hothers, rfl⟩ := Encoding.append_eq_ofBytes_iff.1 hbefore
    obtain ⟨stamp, others', hstamp, hothers', rfl⟩ := Encoding.append_eq_ofBytes_iff.1 hafter
    obtain rfl : others' = others := Encoding.ofBytes_inj.1 (hothers'.symm.trans hothers)
    rw [Encoding.inField_eq_ofBytes_iff, Value.encode_reference] at hfront hstamp
    refine ⟨_, front, stamp, Body.header?_of_heading hs, ?_, ?_, List.prefix_append _ _, ?_⟩
    · refine Encoding.toExcept_eq_ok_iff.2 (Eq.trans ?_ hfront)
      cases (h.split v).1.target? <;> rfl
    · exact Encoding.toExcept_eq_ok_iff.2 hstamp
    · rw [List.drop_left]

theorem Session.restamps_of_accepted {s : Structure} {d : Nat} {v : Value s.wireType}
    {role : HeaderRole} {header : Value role.header.wireType} {next : Session}
    (h : (Session.mk ⟨s, v⟩ d).perform (.setHeader role header) = (next, .accepted)) :
    Body.Restamps ⟨s, v⟩ ⟨role.header, header⟩ next.body := by
  by_cases hknown : ∃ h, s.heading? = some h ∧ h.role = role
  · obtain ⟨heading, hs, rfl⟩ := hknown
    simp only [perform, Body.setHeader?_of_heading hs] at h
    cases h
    exact heading.restamps hs v header
  · simp only [perform, Body.setHeader?_eq_none hknown] at h
    cases h

/-- **Bodies stay typed.** Any operations on a body, in any order and with any mixture of success
and failure, leave its structure as it is, with name and number, and the number of open bodies as
well; and its value is the one that the operations on values lead to. Where a message takes a header
at the end, that is its header from then on, and all else is as it was, in the value and in its
bytes. -/
theorem bodies_stay_typed (s : Structure) (v : Value s.wireType) (d : Nat)
    (ops : List Operation) :
    ∃ answers w, (Session.mk ⟨s, v⟩ d).run ops = (⟨⟨s, w⟩, d⟩, answers) ∧
      (Body.mk s w).typeName = (Body.mk s v).typeName ∧
      (Body.mk s w).encodingId = (Body.mk s v).encodingId ∧
      (∀ answers' w', s.Runs d v ops answers' w' ↔ answers' = answers ∧ w' = w) ∧
      ∀ (role : HeaderRole) (header : Value role.header.wireType) (next : Session),
        (Session.mk ⟨s, w⟩ d).perform (.setHeader role header) = (next, .accepted) →
          Body.Restamps ⟨s, w⟩ ⟨role.header, header⟩ next.body := by
  obtain ⟨answers, w, hrun, hruns⟩ := Session.run_spec s d v ops
  refine ⟨answers, w, hrun, rfl, rfl, fun answers' w' => ⟨hruns.unique, ?_⟩, ?_⟩
  · rintro ⟨rfl, rfl⟩
    exact hruns
  · intro role header next hnext
    exact Session.restamps_of_accepted hnext

/-- A header of a request with the handle 6. -/
def stampedHeader : Value HeaderRole.request.header.wireType :=
  .record (.cons .absent (.cons (.scalar (s := .dateTime) .null) (.cons (.scalar (s := .uint32) 6)
    (.cons (.scalar (s := .uint32) 0) (.cons (.scalar (s := .string) "")
      (.cons (.scalar (s := .uint32) 0) (.cons .absent .nil)))))))

/-- Operations on a request to cancel another one: bytes that are cut short, a value of another
structure, a header of the wrong kind, and one of the right kind. -/
def cancelOperations : List Operation :=
  [.read [0, 0], .assign .range (.zero _), .setHeader .response (.zero _),
    .setHeader .request (.zero _)]

/-- The request to cancel none, with a header of zero values. -/
def cancelNone : Value Structure.cancelRequest.wireType :=
  .record (.cons (.present (.zero _)) (.cons (.scalar (s := .uint32) 0) .nil))

/-- Only the last of these operations changes the request. It takes another header again then, of
which the handle is written behind the ten bytes of the token and the time. -/
theorem bodies_stay_typed_cancelRequest :
    let after : Body := ⟨.cancelRequest,
      .record (.cons (.present stampedHeader) (.cons (.scalar (s := .uint32) 0) .nil))⟩
    (Session.mk (.zero .cancelRequest) 0).run cancelOperations =
      (⟨⟨.cancelRequest, cancelNone⟩, 0⟩, [.failed (.inField "CancelRequest" "RequestHeader"
        (.inField "RequestHeader" "Timestamp" (.unexpectedEnd 8 0))), .refused, .refused,
        .accepted]) ∧
    Body.Restamps ⟨.cancelRequest, cancelNone⟩ ⟨.requestHeader, stampedHeader⟩ after ∧
    after.encode.toExcept = .ok (List.replicate 10 0 ++ [6, 0, 0, 0] ++ List.replicate 4 0 ++
      List.replicate 4 0xFF ++ List.replicate 11 0) := by
  intro after
  obtain ⟨answers, w, hrun, -, -, -, hstamp⟩ :=
    bodies_stay_typed .cancelRequest (.zero _) 0 cancelOperations
  have hbody : (Body.mk .cancelRequest w) = ⟨.cancelRequest, cancelNone⟩ :=
    (congrArg (fun r => r.1.body) hrun).symm
  obtain rfl : w = cancelNone := by simpa using hbody
  exact ⟨rfl, hstamp .request stampedHeader _ rfl, rfl⟩

end OpcWire
