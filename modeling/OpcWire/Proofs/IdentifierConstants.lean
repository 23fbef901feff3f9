import OpcWire.Proofs.IdTable.Index
import OpcWire.Proofs.Source.Identifiers

/-!
# Constants of an identifier table

Different names may have the same constant. Entries are checked one by one against the constants of
those before them, so the check fails at the first entry whose constant is taken
(`Source.checkConstants_eq_error_iff`), and blames it with the one entry that has taken it
(`Source.identifierFile_eq_error_iff`). A table without such an entry has a file, in which every
entry has a line that defines its constant (`identifier_constants_or_collision`).
-/

namespace OpcWire

/-- Whether `second` is the earliest of the entries that has the constant of one before it, and
`first` is the one before it with this constant. -/
def IdEntry.FirstCollision (entries : List IdEntry) (first second : IdEntry) : Prop :=
  ∃ earlier later, entries = earlier ++ second :: later ∧
    (earlier.map fun e => Naming.constIdent e.name).Nodup ∧
    ∀ e, e ∈ earlier ∧ Naming.constIdent e.name = Naming.constIdent second.name ↔ e = first

namespace Source

variable {entries : List IdEntry} {known : List (String × String)} {ident name : String}
  {error : GenerateError}

/-- The constants of entries with their names, those of the last entry in front, and of those known
before them. -/
def addConstants (known : List (String × String)) (entries : List IdEntry) : List (String × String) :=
  (entries.map fun e => (Naming.constIdent e.name, e.name)).reverse ++ known

theorem addConstants_cons (e : IdEntry) :
    addConstants known (e :: entries) =
      addConstants ((Naming.constIdent e.name, e.name) :: known) entries := by
  simp only [addConstants, List.map_cons, List.reverse_cons, List.append_assoc,
    List.singleton_append]

theorem lookup_addConstants_eq_some_iff
    (h : (entries.map fun e => Naming.constIdent e.name).Nodup) :
    (addConstants [] entries).lookup ident = some name ↔
      ∃ e ∈ entries, Naming.constIdent e.name = ident ∧ e.name = name := by
  have hmem {n : String} (hn : (addConstants [] entries).lookup ident = some n) :
      ∃ e ∈ entries, Naming.constIdent e.name = ident ∧ e.name = n := by
    obtain ⟨before, behind, hsplit, -⟩ := List.lookup_eq_some_iff.1 hn
    have hpair : (ident, n) ∈ addConstants [] entries :=
      hsplit ▸ List.mem_append_right before List.mem_cons_self
    rw [addConstants, List.append_nil, List.mem_reverse] at hpair
    obtain ⟨e, he, heq⟩ := List.mem_map.1 hpair
    exact ⟨e, he, congrArg Prod.fst heq, congrArg Prod.snd heq⟩
  refine ⟨hmem, ?_⟩
  rintro ⟨e, he, rfl, rfl⟩
  cases hlookup : (addConstants [] entries).lookup (Naming.constIdent e.name) with
  | none =>
    have hpair : (Naming.constIdent e.name, e.name) ∈ addConstants [] entries := by
      rw [addConstants, List.append_nil, List.mem_reverse]
      exact List.mem_map_of_mem he
    simpa using List.lookup_eq_none_iff.1 hlookup _ hpair
  | some n =>
    obtain ⟨e', he', hconst, rfl⟩ := hmem hlookup
    rw [List.inj_on_of_nodup_map h he' he hconst]

/-! ### The check -/

theorem checkConstants_append (xs ys : List IdEntry) :
    checkConstants known (xs ++ ys) =
      (checkConstants known xs).bind fun _ => checkConstants (addConstants known xs) ys := by
  induction xs generalizing known with
  | nil => rfl
  | cons e rest ih =>
    rw [List.cons_append, checkConstants, checkConstants, addConstants_cons]
    cases known.lookup (Naming.constIdent e.name) with
    | some first => rfl
    | none => exact ih

/-- **The check fails at the first entry whose constant is known.** -/
theorem checkConstants_eq_error_iff : checkConstants known entries = .error error ↔
    ∃ earlier second later first, entries = earlier ++ second :: later ∧
      checkConstants known earlier = .ok () ∧
      (addConstants known earlier).lookup (Naming.constIdent second.name) = some first ∧
      error = .identifierCollision first second.name (Naming.constIdent second.name) := by
  constructor
  · intro h
    induction entries generalizing known with
    | nil => cases h
    | cons e rest ih =>
      rw [checkConstants] at h
      cases hlookup : known.lookup (Naming.constIdent e.name) with
      | some first =>
        simp only [hlookup, Except.error.injEq] at h
        exact ⟨[], e, rest, first, rfl, rfl, hlookup, h.symm⟩
      | none =>
        simp only [hlookup] at h
        obtain ⟨earlier, second, later, first, rfl, hearlier, hfirst, rfl⟩ := ih h
        refine ⟨e :: earlier, second, later, first, rfl, ?_, ?_, rfl⟩
        · rw [checkConstants]
          simp only [hlookup, hearlier]
        · rwa [addConstants_cons]
  · rintro ⟨earlier, second, later, first, rfl, hearlier, hfirst, rfl⟩
    rw [checkConstants_append, hearlier, Except.bind, checkConstants]
    simp only [hfirst]

/-- **The error of a table names its first collision.** -/
theorem identifierFile_eq_error_iff {t : IdTable} : identifierFile t = .error error ↔
    ∃ first second, IdEntry.FirstCollision t.entries first second ∧
      error = .identifierCollision first.name second.name (Naming.constIdent second.name) := by
  have hcheck : identifierFile t = .error error ↔ checkConstants [] t.entries = .error error := by
    rw [identifierFile, bind_eq_error_iff]
    refine or_iff_left ?_
    rintro ⟨_, -, ⟨⟩⟩
  rw [hcheck, checkConstants_eq_error_iff]
  constructor
  · rintro ⟨earlier, second, later, name, hentries, hearlier, hlookup, rfl⟩
    have hnodup := (checkConstants_eq_ok_iff.1 hearlier).2
    obtain ⟨first, hfirst, hconst, rfl⟩ := (lookup_addConstants_eq_some_iff hnodup).1 hlookup
    refine ⟨first, second, ⟨earlier, later, hentries, hnodup, fun e => ⟨?_, ?_⟩⟩, rfl⟩
    · rintro ⟨he, heq⟩
      exact List.inj_on_of_nodup_map hnodup he hfirst (heq.trans hconst.symm)
    · rintro rfl
      exact ⟨hfirst, hconst⟩
  · rintro ⟨first, second, ⟨earlier, later, hentries, hnodup, hfirst⟩, rfl⟩
    obtain ⟨hmem, hconst⟩ := (hfirst first).2 rfl
    exact ⟨earlier, second, later, first.name, hentries,
      checkConstants_eq_ok_iff.2 ⟨fun _ _ => rfl, hnodup⟩,
      (lookup_addConstants_eq_some_iff hnodup).2 ⟨first, hmem, hconst, rfl⟩, rfl⟩

/-! ### The lines of the file -/

/-- Whether a line starts as the definition of a public constant does. -/
def startsConstant (line : String) : Bool := "pub const".toList.isPrefixOf line.toList

theorem startsConstant_line (c : Constant) : startsConstant c.line = true := by
  refine List.isPrefixOf_iff_prefix.2 ?_
  simp [Constant.line]

/-- Of the lines of an entry, the one that defines its constant is the one that starts so. -/
theorem filter_identifierLines (e : IdEntry) :
    (identifierLines e).filter startsConstant = [e.constant.line] := by
  have hdescription : ¬ startsConstant ("/// `" ++ e.name ++ "` (" ++ e.kind ++ ").") = true := by
    simp [startsConstant, List.isPrefixOf]
  rw [identifierLines_eq, List.filter_cons_of_neg hdescription,
    List.filter_cons_of_pos (startsConstant_line _), List.filter_nil]

/-- **The lines that start as definitions are those of the entries**, in order. -/
theorem filter_lines_identifierFile {t : IdTable} (ht : t.Lacks '\n') {text : String}
    (h : identifierFile t = .ok text) :
    (Text.lines text).filter startsConstant = t.entries.map fun e => e.constant.line := by
  have hheader : (header none ++ [""]).filter startsConstant = [] := by decide
  rw [lines_identifierFile ht h, List.filter_append, hheader, List.nil_append, List.filter_flatMap]
  simp only [filter_identifierLines]
  exact List.flatMap_pure_eq_map _ _

end Source

/-- Whether names of a table that have the same constant are the same. -/
def IdTable.HasDistinctConstants (t : IdTable) : Prop :=
  ∀ a ∈ t.entries, ∀ b ∈ t.entries,
    Naming.constIdent a.name = Naming.constIdent b.name → a.name = b.name

instance (t : IdTable) : Decidable t.HasDistinctConstants :=
  inferInstanceAs (Decidable (∀ a ∈ t.entries, ∀ b ∈ t.entries, _ → _))

/-- As no two entries of a table have the same name, no two have the same constant if no two names
do. -/
theorem IdTable.IsIndexed.nodup_map_constIdent_iff {t : IdTable} (h : t.IsIndexed) :
    (t.entries.map fun e => Naming.constIdent e.name).Nodup ↔ t.HasDistinctConstants := by
  rw [List.nodup_map_iff_inj_on (List.Nodup.of_map _ h.nodup)]
  constructor
  · intro hinj a ha b hb heq
    exact congrArg IdEntry.name (hinj a ha b hb heq)
  · intro hdistinct a ha b hb heq
    exact List.inj_on_of_nodup_map h.nodup ha hb (hdistinct a ha b hb heq)

/-- **The constants of a table are written, or their first collision is reported.** A table that was
read has a file if and only if no two of its names have the same constant. The lines of the file
that start as definitions of public constants are then one for each entry, in the order of the
table, and each defines the constant of its entry with its number. Otherwise the error names the
earliest entry that has the constant of one before it, the one entry before it that has this
constant, and the constant. -/
theorem identifier_constants_or_collision {csv : String} {t : IdTable} (h : IdTable.parse csv = .ok t) :
    ((∃ text, Source.identifierFile t = .ok text) ↔ t.HasDistinctConstants) ∧
    (∀ text, Source.identifierFile t = .ok text →
      (Text.lines text).filter Source.startsConstant = t.entries.map fun e =>
        "pub const " ++ Naming.constIdent e.name ++ ": u32 = " ++ toString e.id ++ ";") ∧
    (¬ t.HasDistinctConstants → ∃ first second, IdEntry.FirstCollision t.entries first second ∧
      Source.identifierFile t = .error
        (.identifierCollision first.name second.name (Naming.constIdent second.name))) := by
  have hok : (∃ text, Source.identifierFile t = .ok text) ↔ t.HasDistinctConstants := by
    rw [← (IdTable.isIndexed_of_parse h).nodup_map_constIdent_iff]
    simp only [Source.identifierFile_eq_ok_iff, exists_and_left, exists_eq, and_true]
  refine ⟨hok, fun text => Source.filter_lines_identifierFile (IdTable.lacks_of_parse h), fun hnot => ?_⟩
  cases hfile : Source.identifierFile t with
  | ok text => exact absurd (hok.1 ⟨text, hfile⟩) hnot
  | error error =>
    obtain ⟨first, second, hcollision, rfl⟩ := Source.identifierFile_eq_error_iff.1 hfile
    exact ⟨first, second, hcollision, rfl⟩

/-- A table in which the third name and the fourth have the constant of the first. -/
def lampPosts : IdTable where
  entries := [⟨"LampPost", 7, "Object"⟩, ⟨"Shelf", 8, "Object"⟩, ⟨"lamp_post", 9, "Object"⟩,
    ⟨"LAMP-POST", 1, "Object"⟩]

/-- The first two entries have their constants in the file; with the third and the fourth behind
them, the third is blamed. -/
theorem identifier_constants_or_collision_lamps :
    (∃ t text, IdTable.parse "LampPost,7,Object\nShelf,8,Object" = .ok t ∧
      Source.identifierFile t = .ok text ∧ (Text.lines text).filter Source.startsConstant =
        ["pub const LAMP_POST: u32 = 7;", "pub const SHELF: u32 = 8;"]) ∧
    ∃ first second, IdEntry.FirstCollision lampPosts.entries first second ∧
      first.name = "LampPost" ∧ second.name = "lamp_post" ∧ Source.identifierFile lampPosts =
        .error (.identifierCollision first.name second.name "LAMP_POST") := by
  constructor
  · have hparse : IdTable.parse "LampPost,7,Object\nShelf,8,Object" =
        .ok { entries := [⟨"LampPost", 7, "Object"⟩, ⟨"Shelf", 8, "Object"⟩] } := by decide +kernel
    obtain ⟨hok, hlines, -⟩ := identifier_constants_or_collision hparse
    obtain ⟨text, htext⟩ := hok.2 (by decide +kernel)
    exact ⟨_, text, hparse, htext, (hlines text htext).trans (by decide +kernel)⟩
  · have hparse : IdTable.parse
        "LampPost,7,Object\nShelf,8,Object\nlamp_post,9,Object\nLAMP-POST,1,Object" =
        .ok lampPosts := by decide +kernel
    obtain ⟨-, -, hnot⟩ := identifier_constants_or_collision hparse
    obtain ⟨first, second, hcollision, herror⟩ := hnot (by decide +kernel)
    have hblamed : Source.identifierFile lampPosts =
        .error (.identifierCollision "LampPost" "lamp_post" "LAMP_POST") := by decide +kernel
    obtain ⟨hfirst, hsecond, -⟩ := GenerateError.identifierCollision.inj
      (Except.error.inj (herror.symm.trans hblamed))
    exact ⟨first, second, hcollision, hfirst, hsecond, by rw [hblamed, hfirst, hsecond]⟩

end OpcWire
