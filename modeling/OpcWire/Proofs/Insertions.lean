import Mathlib.Data.List.Basic
import OpcWire.Proofs.IdTable.Index

/-!
# Tables grow by insertion

Entries are inserted into a table one after the other, and some are refused (`IdTable.run`).
Everything that one insertion can do is said in `IdTable.IsIndexed.insert_cases`, and what a run of
them comes to follows by induction (`IdTable.IsIndexed.run`): the index fits the entries all the
time, and these are the ones of before and those that were taken, in this order. Tables that are
read from text have nothing but the entries of its lines (`IdTable.exists_rows_of_addLines`). So a
name is never given the number of another entry (`index_fits_entries`).
-/

namespace OpcWire

namespace IdTable

/-! ### Runs -/

/-- Insert entries one after the other: the answers, and the table afterwards. -/
def run (t : IdTable) : List IdEntry → List (Except String Unit) × IdTable
  | [] => ([], t)
  | e :: rest =>
    let (answer, u) := t.insert e
    let (answers, v) := run u rest
    (answer :: answers, v)

/-- The entries that were taken, going by the answers. -/
def taken : List IdEntry → List (Except String Unit) → List IdEntry
  | e :: rest, .ok () :: answers => e :: taken rest answers
  | _ :: rest, .error _ :: answers => taken rest answers
  | _, _ => []

variable {t u : IdTable} {e : IdEntry} {number : Nat} {lines : List String}

theorem run_cons_of_ok {rest : List IdEntry} (h : t.insert e = (.ok (), u)) :
    t.run (e :: rest) = (.ok () :: (u.run rest).1, (u.run rest).2) := by
  rw [run, h]

theorem run_cons_of_error {rest : List IdEntry} {name : String} (h : t.insert e = (.error name, t)) :
    t.run (e :: rest) = (.error name :: (t.run rest).1, (t.run rest).2) := by
  rw [run, h]

namespace IsIndexed

/-- **One insertion.** An entry is refused with its name, and the table stays as it is, if another
one has the name; otherwise it goes behind the others, and the index has it too. -/
theorem insert_cases (h : t.IsIndexed) (e : IdEntry) :
    (e.name ∈ t.entries.map (·.name) ∧ t.insert e = (.error e.name, t)) ∨
      (e.name ∉ t.entries.map (·.name) ∧
        ∃ u, t.insert e = (.ok (), u) ∧ u.IsIndexed ∧ u.entries = t.entries ++ [e]) := by
  cases hlookup : t.positions.lookup e.name with
  | some i =>
    obtain ⟨e', he', hname⟩ := h.insert?_eq_none_iff.1 (insert?_of_lookup_eq_some hlookup)
    exact .inl ⟨List.mem_map.2 ⟨e', he', hname⟩, insert_of_lookup_eq_some hlookup⟩
  | none =>
    have htaken := insert?_of_lookup_eq_none hlookup
    obtain ⟨hnew, -⟩ := h.insert?_eq_some_iff.1 htaken
    refine .inr ⟨fun hmem => ?_, _, insert_of_lookup_eq_none hlookup, h.insert? htaken, rfl⟩
    obtain ⟨e', he', hname⟩ := List.mem_map.1 hmem
    exact hnew e' he' hname

/-- **A run of insertions** keeps the index, and adds what it takes. -/
theorem run (h : t.IsIndexed) (calls : List IdEntry) :
    (t.run calls).2.IsIndexed ∧
      (t.run calls).2.entries = t.entries ++ taken calls (t.run calls).1 := by
  induction calls generalizing t with
  | nil => exact ⟨h, (List.append_nil _).symm⟩
  | cons e rest ih =>
    obtain ⟨-, hinsert⟩ | ⟨-, u, hinsert, hu, hentries⟩ := h.insert_cases e
    · rw [run_cons_of_error hinsert]
      exact ih h
    · obtain ⟨hindexed, hrest⟩ := ih hu
      rw [run_cons_of_ok hinsert, taken]
      refine ⟨hindexed, ?_⟩
      rw [hrest, hentries, List.append_assoc, List.singleton_append]

end IsIndexed

/-! ### Rows of a text -/

/-- The lines that are added to a table and not passed over each have an entry, and these entries go
behind those of the table. -/
theorem exists_rows_of_addLines (h : t.addLines number lines = .ok u) :
    ∃ rows, (lines.filter (!isComment ·)).map entryOfLine = rows.map .ok ∧
      u.entries = t.entries ++ rows := by
  induction lines generalizing t number with
  | nil =>
    cases h
    exact ⟨[], rfl, (List.append_nil _).symm⟩
  | cons line rest ih =>
    cases hline : t.addLine line with
    | error fault =>
      rw [addLines_cons_of_error hline] at h
      cases h
    | ok v =>
      rw [addLines_cons_of_ok hline] at h
      obtain ⟨rows, hrows, hentries⟩ := ih h
      obtain ⟨hcomment, rfl⟩ | ⟨hcomment, e, he, hinsert⟩ := addLine_eq_ok_iff.1 hline
      · refine ⟨rows, ?_, hentries⟩
        rw [List.filter_cons_of_neg (by simp [hcomment]), hrows]
      · refine ⟨e :: rows, ?_, ?_⟩
        · rw [List.filter_cons_of_pos (by simp [hcomment]), List.map_cons, he, hrows, List.map_cons]
        · rw [hentries, entries_of_insert?_eq_some hinsert, List.append_assoc, List.singleton_append]

end IdTable

open IdTable in
/-- **Entries and index never drift apart.** Whatever entries are inserted into a table that was
empty or read from a text, in any order: the names of its entries are distinct; the entries are
those that it had, which are those of the lines of the text, and then those that were taken; the
number of a name is that of the entry with the name, and there is none if there is no such entry;
and the next entry is refused if its name is there, with this name and without a change, and goes
behind the others if not. -/
theorem index_fits_entries (start : IdTable)
    (hstart : start = .empty ∨ ∃ csv, parse csv = .ok start) (calls : List IdEntry) :
    ∃ answers t, start.run calls = (answers, t) ∧
      (t.entries.map (·.name)).Nodup ∧
      t.entries = start.entries ++ taken calls answers ∧
      (∀ csv, parse csv = .ok start →
        ((Text.lines csv).filter (!isComment ·)).map entryOfLine = start.entries.map .ok) ∧
      (∀ e ∈ t.entries, t.get? e.name = some e.id) ∧
      (∀ name, name ∉ t.entries.map (·.name) → t.get? name = none) ∧
      t.size = t.entries.length ∧
      ∀ e, if e.name ∈ t.entries.map (·.name) then t.insert e = (.error e.name, t)
        else ∃ u, t.insert e = (.ok (), u) ∧ u.entries = t.entries ++ [e] := by
  have hindexed : start.IsIndexed := by
    rcases hstart with rfl | ⟨csv, hcsv⟩
    · exact isIndexed_empty
    · exact isIndexed_of_parse hcsv
  obtain ⟨ht, hentries⟩ := hindexed.run calls
  refine ⟨_, _, rfl, ht.nodup, hentries, fun csv hcsv => ?_, fun e he => ?_, fun name hname => ?_, rfl,
    fun e => ?_⟩
  · obtain ⟨rows, hrows, hadded⟩ := exists_rows_of_addLines hcsv
    obtain rfl : start.entries = rows := hadded
    exact hrows
  · exact ht.get?_eq_some_iff.2 ⟨e, he, rfl, rfl⟩
  · exact ht.get?_eq_none_iff.2 fun e he heq => hname (List.mem_map.2 ⟨e, he, heq⟩)
  · obtain ⟨hused, hinsert⟩ | ⟨hfree, u, hinsert, -, hbehind⟩ := ht.insert_cases e
    · rwa [if_pos hused]
    · rw [if_neg hfree]
      exact ⟨u, hinsert, hbehind⟩

/-- Entries of which the first is in the text already and the last comes twice. -/
def lateEntries : List IdEntry :=
  [⟨"Lamp", 9, "Object"⟩, ⟨"Door", 3, "Object"⟩, ⟨"Door", 4, "Object"⟩]

/-- Only the one between them is taken. -/
theorem index_fits_entries_late :
    ∃ start t, IdTable.parse "Lamp,7,Object\n# spare\nShelf,8,DataType" = .ok start ∧
      start.run lateEntries = ([.error "Lamp", .ok (), .error "Door"], t) ∧
      t.entries = start.entries ++ [⟨"Door", 3, "Object"⟩] ∧ t.get? "Lamp" = some 7 ∧
      t.get? "Door" = some 3 ∧ t.get? "spare" = none ∧
      t.insert ⟨"Shelf", 5, "Object"⟩ = (.error "Shelf", t) := by
  have hcsv : IdTable.parse "Lamp,7,Object\n# spare\nShelf,8,DataType" =
      .ok { entries := [⟨"Lamp", 7, "Object"⟩, ⟨"Shelf", 8, "DataType"⟩] } := by decide +kernel
  obtain ⟨answers, t, hrun, -, hentries, -, hfound, hmissing, -, hnext⟩ :=
    index_fits_entries _ (.inr ⟨_, hcsv⟩) lateEntries
  obtain ⟨rfl, rfl⟩ := Prod.mk.inj hrun
  exact ⟨_, _, hcsv, rfl, hentries, hfound ⟨"Lamp", 7, "Object"⟩ (by decide),
    hfound ⟨"Door", 3, "Object"⟩ (by decide), hmissing "spare" (by decide),
    hnext ⟨"Shelf", 5, "Object"⟩⟩

end OpcWire
