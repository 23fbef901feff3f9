import OpcWire.Wire.Error
import OpcWire.Wire.LittleEndian

/-!
# Reading values from bytes

A `Reader α` takes a value off the front of its input. Its `Cursor` holds the bytes not read
yet and the number of extension object bodies that are open around the current position; the
second outlives a failed read, so that a caller who goes on after an error still knows how deep
it is.

* `Reader.take` is the only primitive that consumes input, and the only source of
  `unexpectedEnd`;
* `Reader.length` reads the signed prefix of strings and arrays, in which `-1` is null;
* `Reader.array` reads a prefix and as many elements, up to `maxArrayLength`;
* `Reader.delimited` reads a value from its own span of bytes and refuses leftovers;
* `Reader.enter` opens one more body, up to `maxBodyDepth`, and `Reader.closing` closes it again;
  `Reader.opening` puts them together. No other reader looks at how many bodies are open.
-/

namespace OpcWire

/-- The length prefix that marks a null string, byte string or array. -/
def nullLength : Int := -1

/-- Greatest number of elements of an array that is read, two to the power of twenty. -/
def maxArrayLength : Nat := 0x100000

/-- Greatest number of extension object bodies that may be open at once. -/
def maxBodyDepth : Nat := 100

/-- Where a reader stands. -/
structure Cursor where
  /-- The bytes not read yet. -/
  rest : List UInt8
  /-- Number of extension object bodies open around this position. -/
  openBodies : Nat
  deriving DecidableEq, Repr

/-- The cursor at the start of bytes that lie in no body. -/
def Cursor.start (bytes : List UInt8) : Cursor := ⟨bytes, 0⟩

/-- How a read ends. -/
inductive ReadResult (α : Type)
  /-- A value was read, and the next read starts at `next`. -/
  | ok (value : α) (next : Cursor)
  /-- Nothing was read, for the reason `cause`. -/
  | error (cause : CodecError) (openBodies : Nat)
  deriving Repr

namespace ReadResult

variable {α : Type}

/-- The value and the bytes after it, or the cause of failure. -/
def toExcept : ReadResult α → Except CodecError (α × List UInt8)
  | ok value next => .ok (value, next.rest)
  | error cause _ => .error cause

/-- Number of open bodies after the read. -/
def openBodies : ReadResult α → Nat
  | ok _ next => next.openBodies
  | error _ openBodies => openBodies

end ReadResult

/-- A computation that reads an `α`. -/
def Reader (α : Type) := Cursor → ReadResult α

namespace Reader

variable {α β : Type}

/-- Read nothing and return `a`. -/
@[inline] protected def pure (a : α) : Reader α := fun c => .ok a c

/-- Read an `α`, then go on with what depends on it. -/
@[inline] protected def bind (r : Reader α) (f : α → Reader β) : Reader β := fun c =>
  match r c with
  | .ok a next => f a next
  | .error cause openBodies => .error cause openBodies

instance : Monad Reader where
  pure := Reader.pure
  bind := Reader.bind

/-- Fail with `cause`. -/
def fail (cause : CodecError) : Reader α := fun c => .error cause c.openBodies

/-- Run a reader over the whole of `bytes`, which lie in no body. -/
def run (r : Reader α) (bytes : List UInt8) : Except CodecError (α × List UInt8) :=
  (r (.start bytes)).toExcept

theorem bind_apply (r : Reader α) (f : α → Reader β) (c : Cursor) :
    (r >>= f) c = match r c with
      | .ok a next => f a next
      | .error cause openBodies => .error cause openBodies := rfl

theorem map_apply (f : α → β) (r : Reader α) (c : Cursor) :
    (f <$> r) c = match r c with
      | .ok a next => .ok (f a) next
      | .error cause openBodies => .error cause openBodies := rfl

theorem run_eq_ok_iff {r : Reader α} {bytes rest : List UInt8} {a : α} :
    r.run bytes = .ok (a, rest) ↔ ∃ next, r ⟨bytes, 0⟩ = .ok a next ∧ next.rest = rest := by
  rw [run, Cursor.start]
  constructor
  · intro h
    cases hread : r ⟨bytes, 0⟩ with
    | error cause openBodies => rw [hread] at h; cases h
    | ok b next =>
      rw [hread] at h
      cases h
      exact ⟨next, rfl, rfl⟩
  · rintro ⟨next, hread, rfl⟩
    rw [hread]
    rfl

instance : LawfulMonad Reader := by
  refine LawfulMonad.mk' Reader (fun r => ?_) (fun _ _ => rfl) (fun r f g => ?_)
  · funext c
    rw [map_apply]
    cases r c <;> rfl
  · funext c
    simp only [bind_apply]
    cases r c <;> rfl

/-- Read a value and name the field it belongs to in any error. -/
def inField (typeName field : String) (r : Reader α) : Reader α := fun c =>
  match r c with
  | .ok a next => .ok a next
  | .error cause openBodies => .error (.inField typeName field cause) openBodies

/-! ### Bytes and words -/

/-- Take exactly `count` bytes. -/
def take (count : Nat) : Reader (List UInt8) := fun c =>
  let taken := c.rest.take count
  if taken.length = count then .ok taken { c with rest := c.rest.drop count }
  else .error (.unexpectedEnd count c.rest.length) c.openBodies

theorem take_apply (count : Nat) (c : Cursor) :
    take count c =
      if count ≤ c.rest.length then
        .ok (c.rest.take count) { c with rest := c.rest.drop count }
      else .error (.unexpectedEnd count c.rest.length) c.openBodies := by
  have h : ((c.rest.take count).length = count) = (count ≤ c.rest.length) := by
    rw [List.length_take]
    exact propext (by omega)
  simp only [take, h]

/-- Read an unsigned little-endian word of `width` bytes. -/
def word (width : Nat) : Reader Nat := LittleEndian.ofBytes <$> take width

/-- Read one byte. -/
def byte : Reader UInt8 := UInt8.ofNat <$> word 1

/-- Read a 16-bit unsigned word. -/
def uint16 : Reader UInt16 := UInt16.ofNat <$> word 2

/-- Read a 32-bit unsigned word. -/
def uint32 : Reader UInt32 := UInt32.ofNat <$> word 4

/-- Read a 64-bit unsigned word. -/
def uint64 : Reader UInt64 := UInt64.ofNat <$> word 8

/-- Read a 32-bit signed word. -/
def int32 : Reader Int32 := UInt32.toInt32 <$> uint32

/-! ### Prefixed sequences -/

/-- Read a length prefix; `none` is the null marker. -/
def length : Reader (Option Nat) := do
  let prefixed := (← int32).toInt
  if prefixed = nullLength then return none
  else if prefixed < nullLength then fail (.invalidLength prefixed)
  else return some prefixed.toNat

/-- Read `count` elements one after the other; `done` holds those already read, last first. -/
def replicateOnto (item : Reader α) : (count : Nat) → (done : List α) → Reader (List α)
  | 0, done, c => .ok done.reverse c
  | count + 1, done, c =>
    match item c with
    | .ok a next => replicateOnto item count (a :: done) next
    | .error cause openBodies => .error cause openBodies

/-- Read `count` elements one after the other. -/
def replicate (item : Reader α) (count : Nat) : Reader (List α) := replicateOnto item count []

/-- Read a length prefix and as many elements. -/
def array (item : Reader α) : Reader (Option (List α)) := do
  match ← length with
  | none => return none
  | some count =>
    if maxArrayLength < count then fail (.lengthLimit count maxArrayLength)
    else return some (← replicate item count)

theorem replicateOnto_eq (item : Reader α) (count : Nat) (done : List α) (c : Cursor) :
    replicateOnto item count done c = match replicate item count c with
      | .ok rest next => .ok (done.reverse ++ rest) next
      | .error cause openBodies => .error cause openBodies := by
  unfold replicate
  induction count generalizing done c with
  | zero => simp [replicateOnto]
  | succ n ih =>
    simp only [replicateOnto]
    cases item c with
    | error => rfl
    | ok a next =>
      simp only [ih (a :: done) next, ih [a] next]
      cases replicateOnto item n [] next <;> simp

theorem replicate_succ (item : Reader α) (count : Nat) :
    replicate item (count + 1) = do
      let a ← item
      let rest ← replicate item count
      return a :: rest := by
  funext c
  simp only [bind_apply]
  rw [replicate, replicateOnto]
  cases item c with
  | error => rfl
  | ok a next =>
    simp only [replicateOnto_eq item count [a] next]
    cases replicate item count next <;> rfl

/-! ### Delimited values and bodies -/

/-- Read from `span`, which must be used up, and then go on behind it. -/
def delimited (span : List UInt8) (r : Reader α) : Reader α := fun c =>
  match r { c with rest := span } with
  | .error cause openBodies => .error cause openBodies
  | .ok a next =>
    if next.rest.isEmpty then .ok a { next with rest := c.rest }
    else .error (.trailingBytes next.rest.length) next.openBodies

/-- Open one more body, unless as many as may be are open already. -/
def enter : Reader Unit := fun c =>
  if maxBodyDepth < c.openBodies + 1 then .error (.nestingTooDeep maxBodyDepth) c.openBodies
  else .ok () { c with openBodies := c.openBodies + 1 }

/-- Read in a body that has been opened, and close the body however the read ends. -/
def closing (r : Reader α) : Reader α := fun c =>
  match r c with
  | .ok a next => .ok a { next with openBodies := next.openBodies - 1 }
  | .error cause openBodies => .error cause (openBodies - 1)

/-- Read with one more body open. -/
def opening (r : Reader α) : Reader α := do
  enter
  closing r

theorem opening_apply (r : Reader α) (c : Cursor) :
    opening r c =
      if maxBodyDepth < c.openBodies + 1 then .error (.nestingTooDeep maxBodyDepth) c.openBodies
      else match r { c with openBodies := c.openBodies + 1 } with
        | .ok a next => .ok a { next with openBodies := next.openBodies - 1 }
        | .error cause openBodies => .error cause (openBodies - 1) := by
  rw [opening, bind_apply, enter]
  by_cases hfull : maxBodyDepth < c.openBodies + 1
  · rw [if_pos hfull, if_pos hfull]
  · rw [if_neg hfull, if_neg hfull]
    rfl

end Reader

end OpcWire
