import OpcWire.Proofs.Wire.Balanced

/-!
# Watching how many bodies are open

The result of a read tells how many bodies are open at its end, but not how many were open in
between. A `Watcher` is a reader together with the numbers that are seen while it runs, which are
those that its parts hand on to each other: a reader that does not look at the number is one part
(`Watcher.step`), opening a body is one (`Watcher.enter`), and closing it is another
(`Watcher.closing`). Nothing else makes a number, so that watching decides nothing by itself; and
the combinators below, which put watchers together as those of the same names put readers together,
do the same to the readers inside, so that watching changes nothing of what is read.

A watcher is *confined* if it is balanced and never sees more than `maxBodyDepth` open bodies,
given that it does not start with more. Confinement passes through every combinator. The limit is
reached in `Confined.opening` only, where it is kept because `Reader.enter` keeps it.
-/

namespace OpcWire

/-- A reader of an `α` and what is seen of open bodies while it runs. -/
structure Watcher (α : Type) where
  /-- What is read. -/
  reader : Reader α
  /-- The numbers of open bodies that are seen from a cursor on, in their order. -/
  counts : Cursor → List Nat
  /-- The last number is the one that is handed on, and where none is seen it has not changed. -/
  getLastD_counts : ∀ c : Cursor, (counts c).getLastD c.openBodies = (reader c).openBodies

namespace Watcher

variable {α β : Type}

/-! ### Steps -/

/-- Watch a reader that does not look at the number: it is one step. -/
def step (r : Reader α) (_ : r.Indifferent) : Watcher α where
  reader := r
  counts c := [(r c).openBodies]
  getLastD_counts _ := rfl

/-- Watch a body being opened. -/
def enter : Watcher Unit where
  reader := .enter
  counts c := [(Reader.enter c).openBodies]
  getLastD_counts _ := rfl

/-- Watch what is read in a body that has been opened, and how the body is closed. -/
def closing (w : Watcher α) : Watcher α where
  reader := .closing w.reader
  counts c := w.counts c ++ [(Reader.closing w.reader c).openBodies]
  getLastD_counts _ := List.getLastD_concat

/-! ### Steps behind each other -/

/-- Read nothing and return `a`, which is no step. -/
protected def pure (a : α) : Watcher α where
  reader := pure a
  counts _ := []
  getLastD_counts _ := rfl

/-- Read an `α`, then go on with what depends on it, unless reading it failed. -/
protected def bind (w : Watcher α) (f : α → Watcher β) : Watcher β where
  reader := w.reader >>= fun a => (f a).reader
  counts c := w.counts c ++
    match w.reader c with
    | .ok a next => (f a).counts next
    | .error _ _ => []
  getLastD_counts c := by
    have hfirst : (w.counts c).getLastD c.openBodies = (w.reader c).openBodies :=
      w.getLastD_counts c
    rw [Reader.bind_apply]
    cases hread : w.reader c with
    | error cause openBodies =>
      rw [List.append_nil, hfirst, hread]
      rfl
    | ok a next =>
      rw [hread] at hfirst
      have hsecond :
          ((f a).counts next).getLastD next.openBodies = ((f a).reader next).openBodies :=
        (f a).getLastD_counts next
      rw [List.getLastD_eq_getLast?] at hfirst hsecond ⊢
      rw [List.getLast?_append, Option.getD_or, hfirst]
      exact hsecond

instance : Monad Watcher where
  pure := Watcher.pure
  bind := Watcher.bind

/-- Read a value and name the field it belongs to in any error. -/
def inField (typeName field : String) (w : Watcher α) : Watcher α where
  reader := w.reader.inField typeName field
  counts := w.counts
  getLastD_counts c := by
    rw [w.getLastD_counts, Reader.inField]
    cases w.reader c <;> rfl

/-- Read `count` elements one after the other. -/
def replicate (item : Watcher α) : (count : Nat) → Watcher (List α)
  | 0 => return []
  | count + 1 => do
    let a ← item
    let rest ← replicate item count
    return a :: rest

/-- Fail with `cause`. -/
def fail (cause : CodecError) : Watcher α := step (.fail cause) Reader.indifferent_fail

/-- Read a length prefix and as many elements. -/
def array (item : Watcher α) : Watcher (Option (List α)) := do
  match ← step Reader.length Reader.indifferent_length with
  | none => return none
  | some count =>
    if maxArrayLength < count then fail (.lengthLimit count maxArrayLength)
    else return some (← replicate item count)

/-- Read from `span`, which must be used up, and then go on behind it. -/
def delimited (span : List UInt8) (w : Watcher α) : Watcher α where
  reader := .delimited span w.reader
  counts c := w.counts { c with rest := span }
  getLastD_counts c := by
    rw [Reader.openBodies_delimited]
    exact w.getLastD_counts { c with rest := span }

/-- Read with one more body open. -/
def opening (w : Watcher α) : Watcher α := do
  enter
  closing w

/-! ### What is read does not change -/

theorem reader_replicate (item : Watcher α) (count : Nat) :
    (replicate item count).reader = .replicate item.reader count := by
  induction count with
  | zero => rfl
  | succ count ih =>
    rw [Reader.replicate_succ, ← ih]
    rfl

theorem reader_array (item : Watcher α) : (array item).reader = .array item.reader := by
  refine congrArg (Reader.length >>= ·) (funext fun count => ?_)
  cases count with
  | none => rfl
  | some count =>
    by_cases hlimit : maxArrayLength < count
    · simp only [if_pos hlimit]
      rfl
    · simp only [if_neg hlimit, ← reader_replicate]
      rfl

/-! ### Confinement -/

variable {w : Watcher α} {f : α → Watcher β}

/-- Bodies are closed as often as opened, and no more than `maxBodyDepth` are open at any moment
of a run that starts with no more than these. -/
structure Confined (w : Watcher α) : Prop where
  /-- As many bodies are open at the end as at the start. -/
  balanced : w.reader.Balanced
  /-- The limit is kept on the way. -/
  counts_le : ∀ c : Cursor, c.openBodies ≤ maxBodyDepth → ∀ n ∈ w.counts c, n ≤ maxBodyDepth

theorem confined_step {r : Reader α} {hr : r.Indifferent} : (step r hr).Confined where
  balanced := hr.balanced
  counts_le c hc n hn := by
    have hseen : n = (r c).openBodies := List.mem_singleton.1 hn
    rw [hseen, hr.balanced c]
    exact hc

theorem confined_pure {a : α} : (pure a : Watcher α).Confined where
  balanced := Reader.balanced_pure
  counts_le _ _ _ hn := absurd hn List.not_mem_nil

/-- The second part of a run starts with as many bodies open as the first. -/
theorem Confined.bind (hw : w.Confined) (hf : ∀ a, (f a).Confined) : (w >>= f).Confined where
  balanced := hw.balanced.bind fun a => (hf a).balanced
  counts_le c hc n hn := by
    rcases List.mem_append.1 hn with hfirst | hsecond
    · exact hw.counts_le c hc n hfirst
    · have hbalanced : (w.reader c).openBodies = c.openBodies := hw.balanced c
      cases hread : w.reader c with
      | error cause openBodies =>
        rw [hread] at hsecond
        exact absurd hsecond List.not_mem_nil
      | ok a next =>
        rw [hread] at hsecond hbalanced
        have hnext : next.openBodies ≤ maxBodyDepth := le_of_eq_of_le hbalanced hc
        exact (hf a).counts_le next hnext n hsecond

theorem Confined.map {g : α → β} (hw : w.Confined) : (g <$> w).Confined :=
  hw.bind fun _ => confined_pure

theorem Confined.ite {p : Prop} [Decidable p] {v : Watcher α} (hw : w.Confined)
    (hv : v.Confined) : (if p then w else v).Confined := by
  by_cases hp : p
  · rwa [if_pos hp]
  · rwa [if_neg hp]

theorem Confined.inField {typeName field : String} (hw : w.Confined) :
    (w.inField typeName field).Confined where
  balanced := hw.balanced.inField
  counts_le := hw.counts_le

theorem Confined.replicate {item : Watcher α} (h : item.Confined) (count : Nat) :
    (replicate item count).Confined := by
  induction count with
  | zero => exact confined_pure
  | succ count ih => exact h.bind fun _ => ih.bind fun _ => confined_pure

theorem Confined.array {item : Watcher α} (h : item.Confined) : (array item).Confined := by
  refine confined_step.bind fun count => ?_
  cases count with
  | none => exact confined_pure
  | some count => exact confined_step.ite ((h.replicate count).bind fun _ => confined_pure)

theorem Confined.delimited {span : List UInt8} (hw : w.Confined) :
    (delimited span w).Confined where
  balanced := hw.balanced.delimited
  counts_le _ hc := hw.counts_le _ hc

/-- **Opening a body keeps the limit.** Where a body is entered there is room for it, and what is
read in it is confined with one more body open. -/
theorem Confined.opening (hw : w.Confined) : (opening w).Confined where
  balanced := hw.balanced.opening
  counts_le c hc n hn := by
    rcases List.mem_append.1 hn with hentered | hinside
    · -- the number that entering hands on
      rw [List.mem_singleton.1 hentered]
      obtain ⟨hroom, henter⟩ | ⟨-, henter⟩ := Reader.enter_cases c
      · rw [henter]
        exact hroom
      · rw [henter]
        exact hc
    · obtain ⟨hroom, henter⟩ | ⟨-, henter⟩ := Reader.enter_cases c
      · simp only [enter, henter, closing] at hinside
        rcases List.mem_append.1 hinside with hread | hclosed
        · exact hw.counts_le { c with openBodies := c.openBodies + 1 } hroom n hread
        · rw [List.mem_singleton.1 hclosed, Reader.openBodies_closing, hw.balanced]
          exact hc
      · simp only [enter, henter] at hinside
        exact absurd hinside List.not_mem_nil

end Watcher

end OpcWire
