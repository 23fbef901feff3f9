import OpcWire.Proofs.IdTable.Csv
import OpcWire.Proofs.Registry

/-!
# The index of a table

The index of a table gives the position of the entry of each name. It fits the entries
(`IdTable.IsIndexed`) in a table without any, and entries that are added keep it so
(`IdTable.IsIndexed.insert?`); hence it does in every table that is read
(`IdTable.isIndexed_of_parse`). In such a table a name is found exactly if it is that of an entry
(`IdTable.IsIndexed.find?_eq_some_iff`), and an entry is refused exactly if its name is
(`IdTable.IsIndexed.insert?_eq_some_iff`).
-/

namespace OpcWire

theorem IdEntry.lookup_positions (entries : List IdEntry) (name : String) :
    (positions entries).lookup name = entries.findIdx? (·.name == name) := by
  suffices hfrom : ∀ k, ((entries.zipIdx k).map fun p => (p.1.name, p.2)).lookup name =
      (entries.findIdx? (·.name == name)).map (k + ·) by
    rw [positions, hfrom 0]
    simp only [Nat.zero_add, Option.map_id']
  intro k
  induction entries generalizing k with
  | nil => rfl
  | cons e rest ih =>
    rw [List.zipIdx_cons, List.map_cons, List.lookup_cons, List.findIdx?_cons]
    by_cases h : e.name = name
    · simp [h]
    · rw [beq_false_of_ne h, beq_false_of_ne (Ne.symm h)]
      simp only [Bool.false_eq_true, ↓reduceIte, ih, Option.map_map]
      congr 1
      funext i
      exact Nat.add_right_comm k 1 i

theorem IdEntry.positions_concat (entries : List IdEntry) (e : IdEntry) :
    positions (entries ++ [e]) = positions entries ++ [(e.name, entries.length)] := by
  rw [positions, List.zipIdx_append, List.map_append]
  simp [positions]

namespace IdTable

/-- Whether the names of a table are distinct and its index fits its entries. -/
structure IsIndexed (t : IdTable) : Prop where
  /-- No two entries have the same name. -/
  nodup : (t.entries.map (·.name)).Nodup
  /-- The index gives the position of the entry of each name. -/
  positions_eq : t.positions = IdEntry.positions t.entries

variable {t u : IdTable} {e : IdEntry} {name : String}

namespace IsIndexed

theorem lookup_eq (h : t.IsIndexed) (name : String) :
    t.positions.lookup name = t.entries.findIdx? (·.name == name) := by
  rw [h.positions_eq, IdEntry.lookup_positions]

theorem find?_eq (h : t.IsIndexed) (name : String) :
    t.find? name = t.entries.find? (·.name == name) := by
  rw [find?, h.lookup_eq, List.find?_eq_bind_findIdx?_getElem?]

/-- **An entry is found by its name, and by no other.** -/
theorem find?_eq_some_iff (h : t.IsIndexed) : t.find? name = some e ↔ e ∈ t.entries ∧ e.name = name := by
  rw [h.find?_eq]
  exact find?_eq_some_iff_of_nodup h.nodup

theorem find?_eq_none_iff (h : t.IsIndexed) : t.find? name = none ↔ ∀ e ∈ t.entries, e.name ≠ name := by
  rw [h.find?_eq, List.find?_eq_none]
  simp only [beq_iff_eq, ne_eq]

theorem get?_eq_some_iff (h : t.IsIndexed) {id : UInt32} :
    t.get? name = some id ↔ ∃ e ∈ t.entries, e.name = name ∧ e.id = id := by
  simp only [get?, Option.map_eq_some_iff, h.find?_eq_some_iff, and_assoc]

theorem get?_eq_none_iff (h : t.IsIndexed) : t.get? name = none ↔ ∀ e ∈ t.entries, e.name ≠ name := by
  rw [get?, Option.map_eq_none_iff, h.find?_eq_none_iff]

/-- **An entry is added behind the others unless one of them has its name.** -/
theorem insert?_eq_some_iff (h : t.IsIndexed) : t.insert? e = some u ↔
    (∀ e' ∈ t.entries, e'.name ≠ e.name) ∧
      u = ⟨t.entries ++ [e], IdEntry.positions (t.entries ++ [e])⟩ := by
  have hfind := h.lookup_eq e.name
  cases hlookup : t.positions.lookup e.name with
  | none =>
    have hnew := List.findIdx?_eq_none_iff.1 (hfind.symm.trans hlookup)
    simp only [beq_eq_false_iff_ne] at hnew
    rw [insert?_of_lookup_eq_none hlookup, IdEntry.positions_concat, ← h.positions_eq,
      Option.some.injEq, eq_comm]
    exact (and_iff_right hnew).symm
  | some i =>
    obtain ⟨hi, heq, -⟩ := List.findIdx?_eq_some_iff_getElem.1 (hfind.symm.trans hlookup)
    rw [insert?_of_lookup_eq_some hlookup]
    exact iff_of_false nofun fun hnew => hnew.1 _ (List.getElem_mem hi) (by simpa using heq)

theorem insert?_eq_none_iff (h : t.IsIndexed) :
    t.insert? e = none ↔ ∃ e' ∈ t.entries, e'.name = e.name := by
  rw [IdTable.insert?_eq_none_iff, h.lookup_eq, List.findIdx?_isSome, List.any_eq_true]
  simp only [beq_iff_eq]

/-- **Entries that are added keep the index.** -/
theorem insert? (h : t.IsIndexed) (hinsert : t.insert? e = some u) : u.IsIndexed := by
  obtain ⟨hnew, rfl⟩ := h.insert?_eq_some_iff.1 hinsert
  refine ⟨?_, rfl⟩
  rw [List.map_append, List.nodup_append]
  refine ⟨h.nodup, List.pairwise_singleton _ _, ?_⟩
  intro name hname name' hname' heq
  obtain ⟨e', he', rfl⟩ := List.mem_map.1 hname
  exact hnew e' he' (heq.trans (List.mem_singleton.1 hname'))

theorem addLine {line : String} (h : t.IsIndexed) (hline : t.addLine line = .ok u) : u.IsIndexed := by
  obtain ⟨-, rfl⟩ | ⟨-, e, -, hinsert⟩ := addLine_eq_ok_iff.1 hline
  · exact h
  · exact h.insert? hinsert

end IsIndexed

theorem isIndexed_empty : empty.IsIndexed := ⟨.nil, rfl⟩

/-- **The index of a table that is read fits its entries.** -/
theorem isIndexed_of_parse {csv : String} (h : parse csv = .ok t) : t.IsIndexed :=
  addLines_induction (fun _ _ _ _ hadd ht => ht.addLine hadd) isIndexed_empty h

end IdTable

end OpcWire
