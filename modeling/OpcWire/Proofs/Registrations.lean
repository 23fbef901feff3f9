import Mathlib.Data.Finset.Card
import OpcWire.Body
import OpcWire.Proofs.Registry

/-!
# The first registration of an identifier counts

Calls that register types may come in any order, and some are refused; a refused call leaves the
registry as it was, so that there is always a next one (`TypeRegistry.run`). What a registry holds
after calls is settled by the first call with each identifier (`TypeRegistry.Records`): one call
keeps it so (`Records.perform`), and therefore a whole run does (`Records.run`). Everything that can
be asked of the registry follows (`first_registration_counts`).
-/

namespace OpcWire

namespace TypeRegistry

variable {α : Type}

/-! ### Calls -/

/-- Make a call: its answer, and the registry afterwards. -/
def perform (r : TypeRegistry α) (c : Registration α) :
    Except RegistryError Unit × TypeRegistry α :=
  match r.register c.id c.name c.structureType with
  | .ok r' => (.ok (), r')
  | .error e => (.error e, r)

/-- Make calls one after the other: their answers, and the registry afterwards. -/
def run (r : TypeRegistry α) :
    List (Registration α) → List (Except RegistryError Unit) × TypeRegistry α
  | [] => ([], r)
  | c :: rest =>
    let (answer, r') := r.perform c
    let (answers, r'') := run r' rest
    (answer :: answers, r'')

/-- The first call with an identifier. -/
def firstCall? (calls : List (Registration α)) (id : UInt32) : Option (Registration α) :=
  calls.find? (·.id == id)

/-- A new value of the type that belongs to an identifier; `zero` makes the values of types. -/
def newValue? {β : Type} (zero : α → β) (r : TypeRegistry α) (id : UInt32) : Option β :=
  (r.structure? id).map zero

variable {r : TypeRegistry α} {calls earlier : List (Registration α)} {c : Registration α}
  {id : UInt32} {kind : String}

theorem firstCall?_eq_none_iff : firstCall? calls id = none ↔ ∀ c ∈ calls, c.id ≠ id := by
  rw [firstCall?, List.find?_eq_none]
  simp only [beq_iff_eq, ne_eq]

theorem firstCall?_append (xs ys : List (Registration α)) (id : UInt32) :
    firstCall? (xs ++ ys) id = (firstCall? xs id).or (firstCall? ys id) :=
  List.find?_append

theorem firstCall?_singleton (c : Registration α) (id : UInt32) :
    firstCall? [c] id = if c.id = id then some c else none := by
  rw [firstCall?, List.find?_singleton]
  simp only [beq_iff_eq]

theorem run_cons (r : TypeRegistry α) (c : Registration α) (rest : List (Registration α)) :
    r.run (c :: rest) =
      ((r.perform c).1 :: ((r.perform c).2.run rest).1, ((r.perform c).2.run rest).2) :=
  rfl

theorem run_append (r : TypeRegistry α) (xs ys : List (Registration α)) :
    r.run (xs ++ ys) = ((r.run xs).1 ++ ((r.run xs).2.run ys).1, ((r.run xs).2.run ys).2) := by
  induction xs generalizing r with
  | nil => rfl
  | cons c rest ih => rw [List.cons_append, run_cons, ih, run_cons, List.cons_append]

theorem length_run (r : TypeRegistry α) (calls : List (Registration α)) :
    (r.run calls).1.length = calls.length := by
  induction calls generalizing r with
  | nil => rfl
  | cons c rest ih => rw [run_cons, List.length_cons, ih, List.length_cons]

/-! ### One call -/

theorem perform_of_find?_eq_some {e : Registration α} (h : r.find? c.id = some e) :
    r.perform c = (.error (.duplicateIdentifier r.kind c.id e.name c.name), r) := by
  rw [perform, register, h]

theorem perform_of_find?_eq_none (h : r.find? c.id = none) :
    r.perform c = (.ok (), { r with registrations := insert c r.registrations }) := by
  rw [perform, register, h]

theorem mem_insert {e x : Registration α} {l : List (Registration α)} :
    x ∈ insert e l ↔ x = e ∨ x ∈ l := by
  induction l with
  | nil => exact List.mem_cons
  | cons y rest ih =>
    rw [insert]
    split
    · exact List.mem_cons
    · rw [List.mem_cons, ih, List.mem_cons]
      exact or_left_comm

/-- A new entry goes where the order of identifiers wants it. -/
theorem pairwise_insert {e : Registration α} {l : List (Registration α)}
    (h : l.Pairwise (·.id < ·.id)) (hnew : ∀ x ∈ l, x.id ≠ e.id) :
    (insert e l).Pairwise (·.id < ·.id) := by
  induction l with
  | nil => exact List.pairwise_singleton _ _
  | cons y rest ih =>
    obtain ⟨hy, hrest⟩ := List.pairwise_cons.1 h
    obtain ⟨hne, hnew⟩ := List.forall_mem_cons.1 hnew
    rw [insert]
    split
    · rename_i hlt
      refine List.pairwise_cons.2 ⟨List.forall_mem_cons.2 ⟨hlt, fun x hx => ?_⟩, h⟩
      exact UInt32.lt_trans hlt (hy x hx)
    · rename_i hge
      have hlt : y.id < e.id := UInt32.lt_of_le_of_ne (UInt32.not_lt.1 hge) hne
      refine List.pairwise_cons.2 ⟨fun x hx => ?_, ih hrest hnew⟩
      rcases mem_insert.1 hx with rfl | hx
      · exact hlt
      · exact hy x hx

/-! ### Runs -/

/-- What a registry holds after calls: for each identifier what the first call with it said, in
ascending order of identifiers. -/
structure Records (kind : String) (calls : List (Registration α)) (r : TypeRegistry α) : Prop where
  /-- The registry keeps its kind. -/
  kind : r.kind = kind
  /-- Entries stand in ascending order. -/
  ascending : r.registrations.Pairwise (·.id < ·.id)
  /-- The entry of an identifier is the first call with it. -/
  find?_eq : ∀ id, r.find? id = firstCall? calls id

theorem records_empty (kind : String) : Records kind [] (empty kind : TypeRegistry α) where
  kind := rfl
  ascending := .nil
  find?_eq _ := rfl

namespace Records

/-- **One call**, taken or refused. -/
theorem perform (h : Records kind earlier r) (c : Registration α) :
    Records kind (earlier ++ [c]) (r.perform c).2 := by
  cases hfind : r.find? c.id with
  | some e =>
    rw [perform_of_find?_eq_some hfind]
    refine ⟨h.kind, h.ascending, fun id => ?_⟩
    rw [h.find?_eq, firstCall?_append, firstCall?_singleton]
    split
    · rename_i hid
      rw [← hid, ← h.find?_eq, hfind, Option.some_or]
    · exact Option.or_none.symm
  | none =>
    have hnew : ∀ x ∈ r.registrations, x.id ≠ c.id := by
      intro x hx
      simpa using List.find?_eq_none.1 hfind x hx
    rw [perform_of_find?_eq_none hfind]
    refine ⟨h.kind, pairwise_insert h.ascending hnew, fun id => ?_⟩
    rw [firstCall?_append, firstCall?_singleton, ← h.find?_eq]
    refine (find?_insert hfind id).trans ?_
    split
    · rename_i hid
      rw [← hid, hfind, Option.none_or]
    · exact Option.or_none.symm

/-- **A run of calls.** -/
theorem run (h : Records kind earlier r) (calls : List (Registration α)) :
    Records kind (earlier ++ calls) (r.run calls).2 := by
  induction calls generalizing earlier r with
  | nil => rwa [List.append_nil]
  | cons c rest ih =>
    rw [run_cons, ← List.singleton_append, ← List.append_assoc]
    exact ih (h.perform c)

theorem perform_of_unused (h : Records kind earlier r) (hunused : firstCall? earlier c.id = none) :
    (r.perform c).1 = .ok () := by
  rw [perform_of_find?_eq_none ((h.find?_eq c.id).trans hunused)]

theorem perform_of_used (h : Records kind earlier r) {first : Registration α}
    (hused : firstCall? earlier c.id = some first) :
    r.perform c = (.error (.duplicateIdentifier kind c.id first.name c.name), r) := by
  rw [perform_of_find?_eq_some ((h.find?_eq c.id).trans hused), h.kind]

theorem nodup_ids (h : Records kind calls r) : (r.registrations.map (·.id)).Nodup :=
  List.pairwise_map.2 (h.ascending.imp fun hlt => UInt32.ne_of_lt hlt)

theorem mem_ids_iff (h : Records kind calls r) :
    id ∈ r.registrations.map (·.id) ↔ id ∈ calls.map (·.id) := by
  have hnone : r.find? id = none ↔ firstCall? calls id = none := by rw [h.find?_eq]
  rw [firstCall?_eq_none_iff] at hnone
  rw [find?, List.find?_eq_none] at hnone
  simp only [beq_iff_eq] at hnone
  rw [← not_iff_not]
  simpa using hnone

theorem size_eq (h : Records kind calls r) : r.size = (calls.map (·.id)).toFinset.card := by
  have hids : (calls.map (·.id)).toFinset = (r.registrations.map (·.id)).toFinset := by
    ext id
    rw [List.mem_toFinset, List.mem_toFinset, h.mem_ids_iff]
  rw [hids, List.toFinset_card_of_nodup h.nodup_ids, List.length_map]
  rfl

theorem mem_toList_iff (h : Records kind calls r) {name : String} :
    (id, name) ∈ r.toList ↔ (firstCall? calls id).map (·.name) = some name := by
  rw [← h.find?_eq, toList, List.mem_map, Option.map_eq_some_iff]
  refine exists_congr fun e => ?_
  rw [find?, find?_eq_some_iff_of_nodup h.nodup_ids, Prod.mk.injEq, and_assoc]

end Records

end TypeRegistry

open TypeRegistry in
/-- **The first registration of an identifier counts.** Whatever calls are made on an empty
registry, in any order: the type, its zero value and the name that belong to an identifier are those
of the first call with it, and there are none if there was no such call. A call is refused if and
only if its identifier was used before; the refusal reports the identifier with the first name and
the new one, and the registry is then as it was. There are as many entries as different identifiers,
listed in strictly ascending order, each with its first name. -/
theorem first_registration_counts {α : Type} (kind : String) (calls : List (Registration α)) :
    (∀ id, ((empty kind).run calls).2.structure? id =
          (firstCall? calls id).map (·.structureType) ∧
        (∀ {β : Type} (zero : α → β), ((empty kind).run calls).2.newValue? zero id =
          (firstCall? calls id).map fun c => zero c.structureType) ∧
        ((empty kind).run calls).2.name? id = (firstCall? calls id).map (·.name) ∧
        (((empty kind).run calls).2.contains id = true ↔ ∃ c ∈ calls, c.id = id)) ∧
      (∀ earlier c later, calls = earlier ++ c :: later →
        match firstCall? earlier c.id with
        | none => ((empty kind).run calls).1[earlier.length]? = some (.ok ())
        | some first =>
          ((empty kind).run calls).1[earlier.length]? =
              some (.error (.duplicateIdentifier kind c.id first.name c.name)) ∧
            ((empty kind).run (earlier ++ [c])).2 = ((empty kind).run earlier).2) ∧
      ((empty kind).run calls).2.size = (calls.map (·.id)).toFinset.card ∧
      (((empty kind).run calls).2.toList.map Prod.fst).Pairwise (· < ·) ∧
      ∀ id name, (id, name) ∈ ((empty kind).run calls).2.toList ↔
        (firstCall? calls id).map (·.name) = some name := by
  have hempty : Records kind [] (empty kind : TypeRegistry α) := records_empty kind
  have h : Records kind calls ((empty kind).run calls).2 := hempty.run calls
  refine ⟨fun id => ⟨?_, fun zero => ?_, ?_, ?_⟩, ?_, h.size_eq, ?_, fun id name => h.mem_toList_iff⟩
  · rw [structure?, h.find?_eq]
  · rw [newValue?, structure?, h.find?_eq, Option.map_map]
    rfl
  · rw [name?, h.find?_eq]
  · rw [contains, h.find?_eq, firstCall?, List.find?_isSome]
    simp only [beq_iff_eq]
  · rintro earlier c later rfl
    have hearlier : Records kind earlier ((empty kind).run earlier).2 := hempty.run earlier
    have hanswer : ((empty kind).run (earlier ++ c :: later)).1[earlier.length]? =
        some (((empty kind).run earlier).2.perform c).1 := by
      rw [run_append, run_cons, List.getElem?_append_right (Nat.le_of_eq (length_run _ _)),
        length_run, Nat.sub_self, List.getElem?_cons_zero]
    rw [hanswer]
    cases hfirst : firstCall? earlier c.id with
    | none => rw [hearlier.perform_of_unused hfirst]
    | some first =>
      rw [run_append, run_cons, hearlier.perform_of_used hfirst]
      exact ⟨rfl, rfl⟩
  · rw [toList, List.map_map]
    exact List.pairwise_map.2 h.ascending

/-- Calls of which the last one asks for an identifier that is in use. -/
def contestedCalls : List (Registration Structure) :=
  [⟨9, "First", .cancelRequest⟩, ⟨4, "Other", .requestHeader⟩, ⟨9, "Second", .cancelResponse⟩]

open TypeRegistry in
/-- The last one is refused and changes nothing. -/
theorem first_registration_counts_contested :
    ((empty "service").run contestedCalls).1[2]? =
        some (.error (.duplicateIdentifier "service" 9 "First" "Second")) ∧
      ((empty "service").run contestedCalls).2 =
        ((empty "service").run (contestedCalls.take 2)).2 ∧
      ((empty "service").run contestedCalls).2.newValue? Body.zero 9 =
        some (.zero .cancelRequest) ∧
      ((empty "service").run contestedCalls).2.size = 2 ∧
      (4, "Other") ∈ ((empty "service").run contestedCalls).2.toList := by
  obtain ⟨hfirst, hanswers, hsize, -, hlist⟩ := first_registration_counts "service" contestedCalls
  obtain ⟨hanswer, hkept⟩ := hanswers (contestedCalls.take 2) _ [] rfl
  obtain ⟨-, hvalue, -⟩ := hfirst 9
  exact ⟨hanswer, hkept, hvalue Body.zero, hsize, (hlist 4 "Other").2 rfl⟩

end OpcWire
