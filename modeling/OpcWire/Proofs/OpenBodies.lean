import OpcWire.Proofs.RoundTrip
import OpcWire.Proofs.Value.Watching

/-!
# Calls do not disturb each other

Readers that run one after another share the number of open bodies, which says how many more may
be opened. A call that left the number higher than it found it would make later calls refuse
bodies that they have to accept. `Call.runAll` runs calls in this way, each on bytes of its own,
and hands the number on whether a call succeeded or failed. One call leaves the number as it was
(`Call.runAll_cons`), and so do all of them together (`Call.runAll_eq`): every answer is the one
that the call would give if it was the first.

The number that is handed on says nothing of what happens during a call. There it is watched
(`OpcWire.Proofs.Value.Watching`): what is seen are the numbers that the parts of the reader hand on
to each other, at every step on every path, up to the one that fails.
-/

namespace OpcWire

/-- A call that reads from bytes of its own. -/
inductive Call
  /-- Read a value of a type. -/
  | value (t : WireType) (bytes : List UInt8)
  /-- Read another value for a body. -/
  | body (b : Body) (bytes : List UInt8)
  /-- Read a service message. -/
  | message (bytes : List UInt8)

namespace Call

/-- What a call returns if it succeeds. -/
def Outcome : Call → Type
  | value t _ => Value t
  | body _ _ => Body
  | message _ => Body

/-- The bytes to read from. -/
def bytes : Call → List UInt8
  | value _ bytes => bytes
  | body _ bytes => bytes
  | message bytes => bytes

/-- The reader that is run. -/
def reader : (call : Call) → Reader call.Outcome
  | value t _ => t.codec.decode
  | body b _ => b.decode
  | message _ => decodeMessage

/-- A call with its answer. -/
def Answer : Type := Σ call : Call, Except CodecError (call.Outcome × List UInt8)

/-- The answer of a call that is made with `d` bodies open. -/
def answerAt (d : Nat) (call : Call) : Answer := ⟨call, (call.reader ⟨call.bytes, d⟩).toExcept⟩

/-- The answer of a call that is made first. -/
def answer (call : Call) : Answer := ⟨call, call.reader.run call.bytes⟩

/-- Make calls one after another, the first with `d` bodies open and each later one with as many
as the one before it left; also return how many the last one left. -/
def runAll (d : Nat) : List Call → List Answer × Nat
  | [] => ([], d)
  | call :: rest =>
    let result := call.reader ⟨call.bytes, d⟩
    let (answers, last) := runAll result.openBodies rest
    (⟨call, result.toExcept⟩ :: answers, last)

/-! ### One call and many -/

theorem balanced_reader (call : Call) : call.reader.Balanced := by
  cases call with
  | value t _ => exact t.balanced_decode
  | body b _ => exact b.structureType.wireType.balanced_decode.map
  | message _ => exact balanced_decodeMessage

/-- **One call** leaves the number of open bodies to the others as it found it. -/
theorem runAll_cons (d : Nat) (call : Call) (rest : List Call) :
    runAll d (call :: rest) = (call.answerAt d :: (runAll d rest).1, (runAll d rest).2) := by
  have hkept : (call.reader ⟨call.bytes, d⟩).openBodies = d := call.balanced_reader _
  rw [runAll, hkept]
  rfl

/-- **Any calls**, accepted or rejected, answer as each of them would with the same number of open
bodies and no other call before it. -/
theorem runAll_eq (d : Nat) (calls : List Call) : runAll d calls = (calls.map (answerAt d), d) := by
  induction calls with
  | nil => rfl
  | cons call rest ih => rw [runAll_cons, ih, List.map_cons]

end Call

/-- **Open bodies are closed again, and never more than `maxBodyDepth` are open.** Reading a value
of any type, or a message, ends with as many bodies open as it started with, however it ends, and
keeps the limit all the time. Calls that are made one after another answer as if each was the
first one. -/
theorem open_bodies_balanced :
    (∀ (t : WireType) (bytes : List UInt8) (d : Nat), d ≤ maxBodyDepth →
      (t.codec.decode ⟨bytes, d⟩).openBodies = d ∧
        t.watch.reader = t.codec.decode ∧ ∀ n ∈ t.watch.counts ⟨bytes, d⟩, n ≤ maxBodyDepth) ∧
    (∀ (bytes : List UInt8) (d : Nat), d ≤ maxBodyDepth →
      (decodeMessage ⟨bytes, d⟩).openBodies = d ∧
        watchMessage.reader = decodeMessage ∧
          ∀ n ∈ watchMessage.counts ⟨bytes, d⟩, n ≤ maxBodyDepth) ∧
    ∀ calls : List Call, Call.runAll 0 calls = (calls.map Call.answer, 0) := by
  refine ⟨?_, ?_, ?_⟩
  · intro t bytes d hd
    exact ⟨t.balanced_decode _, t.reader_watch, t.confined_watch.counts_le ⟨bytes, d⟩ hd⟩
  · intro bytes d hd
    exact ⟨balanced_decodeMessage _, reader_watchMessage,
      confined_watchMessage.counts_le ⟨bytes, d⟩ hd⟩
  · intro calls
    exact Call.runAll_eq 0 calls

/-- Bytes of a fault message whose header ends with an extension object under an unknown mask. -/
def brokenFaultBytes : List UInt8 := headlessFaultBytes.dropLast ++ [2]

/-- A message takes the last body that may be open, and opens none beyond it, even if it fails
inside; an object inside it would be refused. A message behind a broken one is read as if it came
first. -/
theorem open_bodies_balanced_atLimit :
    (100 ∈ watchMessage.counts ⟨brokenFaultBytes, 99⟩ ∧
      (∀ n ∈ watchMessage.counts ⟨brokenFaultBytes, 99⟩, n ≤ 100) ∧
      (decodeMessage ⟨brokenFaultBytes, 99⟩).openBodies = 99) ∧
    (WireType.extensionObject.codec.decode ⟨foreignObjectBytes, 100⟩).openBodies = 100 ∧
    Call.runAll 0 [.message brokenFaultBytes, .message headlessFaultBytes] =
      ([.message brokenFaultBytes, .message headlessFaultBytes].map Call.answer, 0) := by
  obtain ⟨hvalue, hmessage, hcalls⟩ := open_bodies_balanced
  obtain ⟨hkept, -, hlimit⟩ := hmessage brokenFaultBytes 99 (by decide)
  refine ⟨⟨?_, hlimit, hkept⟩, ?_, hcalls _⟩
  · decide
  · exact (hvalue .extensionObject foreignObjectBytes 100 (by decide)).1

end OpcWire
