import OpcWire.Proofs.Source.Items

/-!
# Lines that visit fields

The lines that write a field mention its identifier once, and the names of the structure and the
field once; so do the lines that read it (`Source.visits_writingLines`,
`Source.visits_readingLines`). A line visits nothing if it is no call of the encoder, reads no field
and reports no error.

In the text of a structure, no line besides those that write and read its fields visits anything
(`Source.exists_lines_around_visits`). So all lines of a file of structures together visit each
field of each structure once to write and once to read it (`Source.visits_objectFile`).
-/

namespace OpcWire

namespace Definition

/-- Whether the identifiers of fields can be told from what stands behind them, and the name of the
structure can be quoted. -/
structure IsReadable (d : Definition) : Prop where
  /-- The name of the structure has no quotation mark. -/
  name : '"' ∉ d.name.toList
  /-- Identifiers of fields are not empty and have no blanks and no colons. -/
  idents : ∀ f ∈ d.fields, f.ident ≠ "" ∧ ' ' ∉ f.ident.toList ∧ ':' ∉ f.ident.toList

/-- The visits to the fields of structures, in order. -/
def visits (ds : List Definition) : Source.Visits :=
  ⟨ds.flatMap fun d => d.fields.map (·.ident),
    ds.flatMap fun d => d.fields.map fun f => (d.name, f.name)⟩

end Definition

namespace Source

open Definition (Field)

variable {owner line : String} {xs ys : List String} {d : Definition} {f : Field} {fields : List Field}

/-! ### Lines of fields -/

theorem context_eq (f : Field) : f.context owner = ".map_err(|e| e.in_field(\"" ++
    (owner ++ String.singleton '"' ++ (", \"" ++ f.name)) ++ "\"))?" := by
  unfold Field.context quote
  apply String.toList_inj.1
  simp

theorem unindented_context (f : Field) (stop : String) :
    unindented (f.context owner ++ stop) = f.context owner ++ stop :=
  unindented_eq_self (by simp [context_eq])

/-- The lines that write a field, without indentation. -/
def writingLines (owner : String) (f : Field) : List String :=
  ["self." ++ f.ident, ".encode(buf)", f.context owner ++ ";"]

/-- The lines that read a field, without indentation. -/
def readingLines (owner : String) (f : Field) : List String :=
  [f.ident ++ ": BinaryDecode::decode(buf)", f.context owner ++ ","]

theorem map_unindented_encodeLines (f : Field) :
    (f.encodeLines owner).map unindented = writingLines owner f := by
  have hself : unindented ("self." ++ f.ident) = "self." ++ f.ident := unindented_eq_self (by simp)
  have hcall : unindented ".encode(buf)" = ".encode(buf)" := by decide
  simp [Field.encodeLines, writingLines, indent, unindented_indentLine, hself, hcall,
    unindented_context]

theorem map_unindented_decodeLines (hne : f.ident ≠ "") (h : ' ' ∉ f.ident.toList) :
    (f.decodeLines owner).map unindented = readingLines owner f := by
  have hident : unindented (f.ident ++ ": BinaryDecode::decode(buf)") =
      f.ident ++ ": BinaryDecode::decode(buf)" := by
    refine unindented_eq_self ?_
    rw [String.toList_append, List.head?_append_of_ne_nil _ (mt String.toList_eq_nil_iff.1 hne)]
    exact fun hhead => h (List.mem_of_mem_head? hhead)
  simp [Field.decodeLines, readingLines, indent, unindented_indentLine, hident, unindented_context]

theorem map_unindented_constructor (h : d.IsReadable) :
    (blockWith "Ok(Self " ")" (d.fields.flatMap (·.decodeLines d.name))).map unindented =
      "Ok(Self \x7b" :: (d.fields.flatMap (readingLines d.name) ++ ["\x7d)"]) := by
  have hopen : unindented ("Ok(Self " ++ "\x7b") = "Ok(Self \x7b" := by decide
  have hclose : unindented ("\x7d" ++ ")") = "\x7d)" := by decide
  have hfields : d.fields.flatMap (fun f => (f.decodeLines d.name).map unindented) =
      d.fields.flatMap (readingLines d.name) := by
    refine List.flatMap_congr fun f hf => ?_
    obtain ⟨hne, hblank, -⟩ := h.idents f hf
    exact map_unindented_decodeLines hne hblank
  rw [blockWith, List.cons_append, List.map_cons, List.map_append, hopen, map_unindented_indent,
    List.map_singleton, hclose, List.map_flatMap, hfields]

/-! ### Functions -/

/-- The line that begins the function by which a structure is written. -/
def encodeHead (buffer : String) : String :=
  "fn encode(&self, " ++ buffer ++ ": &mut ::bytes::BytesMut) -> Result<(), CodecError>" ++ " \x7b"

/-- The line that begins the function by which a structure is read. -/
def decodeHead (buffer : String) : String :=
  "fn decode(" ++ buffer ++ ": &mut ::bytes::Bytes) -> Result<Self, CodecError>" ++ " \x7b"

theorem body_encodingItem (buffer : String) :
    (encodingItem d.name buffer (d.fields.flatMap (·.encodeLines d.name) ++ ["Ok(())"])).body =
      [encodeHead buffer] ++ (d.fields.flatMap (writingLines d.name) ++ ["Ok(())", "\x7d"]) := by
  have hreturn : unindented "Ok(())" = "Ok(())" := by decide
  unfold encodingItem encodeHead
  simp [List.map_flatMap, map_unindented_encodeLines, hreturn]

theorem body_decodingItem (h : d.IsReadable) (buffer : String) :
    (decodingItem d.name buffer
      (blockWith "Ok(Self " ")" (d.fields.flatMap (·.decodeLines d.name)))).body =
      [decodeHead buffer, "Ok(Self \x7b"] ++
        (d.fields.flatMap (readingLines d.name) ++ ["\x7d)", "\x7d"]) := by
  rw [decodingItem, map_unindented_constructor h]
  simp only [decodeHead, List.cons_append, List.append_assoc, List.nil_append]

/-! ### What is read from a line -/

theorem readIdents_append (xs ys : List String) :
    readIdents (xs ++ ys) = readIdents xs ++ readIdents ys :=
  List.filterMap_append

theorem errorContexts_append (stop : String) (xs ys : List String) :
    errorContexts stop (xs ++ ys) = errorContexts stop xs ++ errorContexts stop ys :=
  List.filterMap_append

theorem writtenIdents_cons_of_ne (h : xs.head? ≠ some ".encode(buf)") :
    writtenIdents (line :: xs) = writtenIdents xs := by
  cases xs with
  | nil => rfl
  | cons next rest =>
    rw [writtenIdents, if_neg fun heq => h (congrArg some heq)]
    rfl

theorem dropEnd?_ident_eq_none (h : line.toList.getLast? ≠ some ')') :
    dropEnd? ": BinaryDecode::decode(buf)" line = none :=
  dropEnd?_eq_none_of_getLast? (by decide) h

theorem errorContext?_context {stop : String} (howner : '"' ∉ owner.toList) (f : Field) :
    errorContext? stop (f.context owner ++ stop) = some (owner, f.name) := by
  rw [errorContext?, parts?_eq_some_iff, context_eq]
  exact ⟨String.append_assoc .., howner⟩

theorem errorContext?_eq_none_of_take {stop : String} (h : line.toList.take 2 ≠ ['.', 'm']) :
    errorContext? stop line = none :=
  parts?_eq_none_of_take 2 h (by decide)

theorem errorContext?_eq_none_of_getLast? {stop : String} (hstop : stop ≠ "")
    (h : line.toList.getLast? ≠ stop.toList.getLast?) : errorContext? stop line = none := by
  refine parts?_eq_none_of_getLast? (fun hempty => hstop (String.append_eq_empty_iff.1 hempty).2) ?_
  rwa [getLast?_append hstop]

/-!
### Visits of fields

A call of the encoder writes the field that the line in front of it mentions. So lines are read
apart from what stands behind them only if this does not begin with a call.
-/

theorem visits_writingLines (howner : '"' ∉ owner.toList) (h : ':' ∉ f.ident.toList)
    (hys : ys.head? ≠ some ".encode(buf)") :
    writtenVisits (writingLines owner f ++ ys) =
        ⟨f.ident :: (writtenVisits ys).idents, (owner, f.name) :: (writtenVisits ys).contexts⟩ ∧
      readVisits (writingLines owner f ++ ys) = readVisits ys := by
  have hwritten : writtenIdents (writingLines owner f ++ ys) = f.ident :: writtenIdents ys := by
    have hself : Naming.dropStart? "self." ("self." ++ f.ident) = some f.ident :=
      Naming.dropStart?_eq_some_iff.2 rfl
    have hcontext : f.context owner ++ ";" ≠ ".encode(buf)" := ne_of_take_ne 2 (by simp [context_eq])
    simp only [writingLines, List.cons_append, List.nil_append]
    rw [writtenIdents, if_pos rfl, hself, writtenIdents_cons_of_ne (by simpa using hcontext),
      writtenIdents_cons_of_ne hys]
    rfl
  have hread : readIdents (writingLines owner f) = [] := by
    -- a line that reads a field has a colon, which the identifier has not
    have hself : dropEnd? ": BinaryDecode::decode(buf)" ("self." ++ f.ident) = none := by
      refine Option.eq_none_iff_forall_ne_some.2 fun rest hrest => ?_
      have hmem : ':' ∈ ("self." ++ f.ident).toList := by
        rw [dropEnd?_eq_some_iff.1 hrest]
        simp
      simp [h] at hmem
    have hcall : dropEnd? ": BinaryDecode::decode(buf)" ".encode(buf)" = none := by decide
    have hcontext : dropEnd? ": BinaryDecode::decode(buf)" (f.context owner ++ ";") = none :=
      dropEnd?_ident_eq_none (getLast?_append_ne (by decide) (by decide))
    simp [readIdents, writingLines, hself, hcall, hcontext]
  have hself (stop : String) : errorContext? stop ("self." ++ f.ident) = none :=
    errorContext?_eq_none_of_take (by simp)
  have hcall (stop : String) : errorContext? stop ".encode(buf)" = none :=
    errorContext?_eq_none_of_take (by decide)
  have hcontexts : errorContexts ";" (writingLines owner f) = [(owner, f.name)] := by
    simp [errorContexts, writingLines, hself, hcall, errorContext?_context howner]
  have hnone : errorContexts "," (writingLines owner f) = [] := by
    have hcontext : errorContext? "," (f.context owner ++ ";") = none :=
      errorContext?_eq_none_of_getLast? (by decide) (getLast?_append_ne (by decide) (by decide))
    simp [errorContexts, writingLines, hself, hcall, hcontext]
  rw [writtenVisits, readVisits, hwritten, readIdents_append, hread, errorContexts_append, hcontexts,
    errorContexts_append, hnone]
  exact ⟨rfl, rfl⟩

theorem call_ne_of_mem_readingLines (h : line ∈ readingLines owner f) : line ≠ ".encode(buf)" := by
  rcases List.mem_pair.1 h with rfl | rfl
  · intro heq
    have hmem : ':' ∈ (f.ident ++ ": BinaryDecode::decode(buf)").toList := by simp
    rw [heq] at hmem
    exact absurd hmem (by decide)
  · exact ne_of_take_ne 2 (by simp [context_eq])

theorem visits_readingLines (howner : '"' ∉ owner.toList) (hys : ys.head? ≠ some ".encode(buf)") :
    writtenVisits (readingLines owner f ++ ys) = writtenVisits ys ∧
      readVisits (readingLines owner f ++ ys) =
        ⟨f.ident :: (readVisits ys).idents, (owner, f.name) :: (readVisits ys).contexts⟩ := by
  have hwritten : writtenIdents (readingLines owner f ++ ys) = writtenIdents ys := by
    have hcontext : f.context owner ++ "," ≠ ".encode(buf)" :=
      call_ne_of_mem_readingLines (List.mem_cons_of_mem _ (List.mem_singleton_self _))
    rw [readingLines, List.cons_append, List.singleton_append,
      writtenIdents_cons_of_ne (by simpa using hcontext), writtenIdents_cons_of_ne hys]
  have hread : readIdents (readingLines owner f) = [f.ident] := by
    have hident : dropEnd? ": BinaryDecode::decode(buf)"
        (f.ident ++ ": BinaryDecode::decode(buf)") = some f.ident := dropEnd?_eq_some_iff.2 rfl
    have hcontext : dropEnd? ": BinaryDecode::decode(buf)" (f.context owner ++ ",") = none :=
      dropEnd?_ident_eq_none (getLast?_append_ne (by decide) (by decide))
    simp [readIdents, readingLines, hident, hcontext]
  have hcontexts : errorContexts "," (readingLines owner f) = [(owner, f.name)] := by
    have hident : errorContext? "," (f.ident ++ ": BinaryDecode::decode(buf)") = none :=
      errorContext?_eq_none_of_getLast? (by decide) (getLast?_append_ne (by decide) (by decide))
    simp [errorContexts, readingLines, hident, errorContext?_context howner]
  have hnone : errorContexts ";" (readingLines owner f) = [] := by
    have hident : errorContext? ";" (f.ident ++ ": BinaryDecode::decode(buf)") = none :=
      errorContext?_eq_none_of_getLast? (by decide) (getLast?_append_ne (by decide) (by decide))
    have hcontext : errorContext? ";" (f.context owner ++ ",") = none :=
      errorContext?_eq_none_of_getLast? (by decide) (getLast?_append_ne (by decide) (by decide))
    simp [errorContexts, readingLines, hident, hcontext]
  rw [writtenVisits, readVisits, hwritten, readIdents_append, hread, errorContexts_append, hnone,
    errorContexts_append, hcontexts]
  exact ⟨rfl, rfl⟩

theorem head?_append_ne_call (h : ∀ line ∈ xs, line ≠ ".encode(buf)")
    (hys : ys.head? ≠ some ".encode(buf)") : (xs ++ ys).head? ≠ some ".encode(buf)" := by
  cases xs with
  | nil => exact hys
  | cons line rest => exact fun heq => h line List.mem_cons_self (Option.some.inj heq)

theorem head?_flatMap_writingLines (owner : String) (fields : List Field)
    (hys : ys.head? ≠ some ".encode(buf)") :
    (fields.flatMap (writingLines owner) ++ ys).head? ≠ some ".encode(buf)" := by
  cases fields with
  | nil => exact hys
  | cons f others =>
    have hne : "self." ++ f.ident ≠ ".encode(buf)" := ne_of_take_ne 1 (by simp)
    simpa [writingLines] using hne

theorem head?_flatMap_readingLines (owner : String) (fields : List Field)
    (hys : ys.head? ≠ some ".encode(buf)") :
    (fields.flatMap (readingLines owner) ++ ys).head? ≠ some ".encode(buf)" := by
  refine head?_append_ne_call (fun line hline => ?_) hys
  obtain ⟨f, -, hmem⟩ := List.mem_flatMap.1 hline
  exact call_ne_of_mem_readingLines hmem

theorem visits_flatMap_writingLines (howner : '"' ∉ owner.toList)
    (h : ∀ f ∈ fields, ':' ∉ f.ident.toList) (hys : ys.head? ≠ some ".encode(buf)") :
    writtenVisits (fields.flatMap (writingLines owner) ++ ys) =
        ⟨fields.map (·.ident) ++ (writtenVisits ys).idents,
          fields.map (fun f => (owner, f.name)) ++ (writtenVisits ys).contexts⟩ ∧
      readVisits (fields.flatMap (writingLines owner) ++ ys) = readVisits ys := by
  induction fields with
  | nil => exact ⟨rfl, rfl⟩
  | cons f rest ih =>
    obtain ⟨hident, hrest⟩ := List.forall_mem_cons.1 h
    obtain ⟨hwritten, hread⟩ := ih hrest
    obtain ⟨hwritten', hread'⟩ :=
      visits_writingLines howner hident (head?_flatMap_writingLines owner rest hys)
    rw [List.flatMap_cons, List.append_assoc, hwritten', hread', hwritten, hread]
    exact ⟨rfl, rfl⟩

theorem visits_flatMap_readingLines (fields : List Field) (howner : '"' ∉ owner.toList)
    (hys : ys.head? ≠ some ".encode(buf)") :
    writtenVisits (fields.flatMap (readingLines owner) ++ ys) = writtenVisits ys ∧
      readVisits (fields.flatMap (readingLines owner) ++ ys) =
        ⟨fields.map (·.ident) ++ (readVisits ys).idents,
          fields.map (fun f => (owner, f.name)) ++ (readVisits ys).contexts⟩ := by
  induction fields with
  | nil => exact ⟨rfl, rfl⟩
  | cons f rest ih =>
    obtain ⟨hwritten, hread⟩ := ih
    obtain ⟨hwritten', hread'⟩ :=
      visits_readingLines (f := f) howner (head?_flatMap_readingLines owner rest hys)
    rw [List.flatMap_cons, List.append_assoc, hwritten', hread', hwritten, hread]
    exact ⟨rfl, rfl⟩

/-! ### Lines that visit nothing -/

/-- Whether a line neither writes nor reads a field, and reports no errors. -/
structure VisitsNothing (line : String) : Prop where
  /-- It does not call the encoder. -/
  call : line ≠ ".encode(buf)"
  /-- It does not read a field. -/
  ident : dropEnd? ": BinaryDecode::decode(buf)" line = none
  /-- It reports no errors. -/
  context : ∀ stop, errorContext? stop line = none

/-- Whether lines visit nothing. -/
def VisitNothing (lines : List String) : Prop := ∀ line ∈ lines, VisitsNothing line

@[simp] theorem visitNothing_nil : VisitNothing [] := nofun

@[simp] theorem visitNothing_cons : VisitNothing (line :: xs) ↔ VisitsNothing line ∧ VisitNothing xs :=
  List.forall_mem_cons

theorem visitNothing_singleton : VisitNothing [line] ↔ VisitsNothing line :=
  List.forall_mem_singleton

@[simp] theorem visitNothing_append : VisitNothing (xs ++ ys) ↔ VisitNothing xs ∧ VisitNothing ys :=
  List.forall_mem_append

/-- A line that begins with anything but a dot visits nothing if it reads nothing. -/
theorem visitsNothing_of_head? {c : Char} (hfirst : line.toList.head? = some c) (hdot : c ≠ '.')
    (hident : dropEnd? ": BinaryDecode::decode(buf)" line = none) : VisitsNothing line where
  call := by
    rintro rfl
    exact hdot (Option.some.inj hfirst).symm
  ident := hident
  context stop := by
    refine errorContext?_eq_none_of_take fun htake => hdot ?_
    have hhead := congrArg List.head? htake
    rw [List.head?_take, if_neg (by decide), hfirst] at hhead
    exact Option.some.inj hhead

/-- A line visits nothing if it begins with anything but a dot and does not end like a call. -/
theorem visitsNothing_append {start stop : String} {c : Char} (hfirst : start.toList.head? = some c)
    (hdot : c ≠ '.') (hstop : stop ≠ "" ∧ stop.toList.getLast? ≠ some ')') :
    VisitsNothing (start ++ stop) := by
  refine visitsNothing_of_head? (c := c) ?_ hdot
    (dropEnd?_ident_eq_none (getLast?_append_ne hstop.1 hstop.2))
  rw [String.toList_append, List.head?_append, hfirst]
  rfl

theorem VisitsNothing.unindented (h : VisitsNothing line) (hfirst : line.toList.head? ≠ some ' ') :
    VisitsNothing (unindented line) := by
  rwa [unindented_eq_self hfirst]

theorem visitsNothing_empty : VisitsNothing (unindented "") :=
  ⟨by decide, by decide, fun _ => errorContext?_eq_none_of_take (by decide)⟩

theorem visitsNothing_return : VisitsNothing "Ok(())" :=
  visitsNothing_of_head? (c := 'O') rfl (by decide) (by decide)

theorem visitsNothing_open : VisitsNothing "Ok(Self \x7b" :=
  visitsNothing_of_head? (c := 'O') rfl (by decide) (by decide)

theorem visitsNothing_closeCall : VisitsNothing "\x7d)" :=
  visitsNothing_of_head? (c := '\x7d') rfl (by decide) (by decide)

theorem visitsNothing_close : VisitsNothing "\x7d" :=
  visitsNothing_of_head? (c := '\x7d') rfl (by decide) (by decide)

theorem visitsNothing_encodeHead (buffer : String) : VisitsNothing (encodeHead buffer) :=
  visitsNothing_append (c := 'f') (by simp) (by decide) (by decide)

theorem visitsNothing_decodeHead (buffer : String) : VisitsNothing (decodeHead buffer) :=
  visitsNothing_append (c := 'f') (by simp) (by decide) (by decide)

theorem visitsNothing_implementationHead (capability typeName : String) :
    VisitsNothing (implementationHead capability typeName) :=
  visitsNothing_append (c := 'i') (by simp) (by decide) (by decide)

/-- A block visits what its body does. -/
theorem visitNothing_block {head : String} {body : List String} {c : Char}
    (hfirst : head.toList.head? = some c) (hc : c ≠ ' ' ∧ c ≠ '.')
    (hbody : VisitNothing (body.map unindented)) :
    VisitNothing ((block head body).map unindented) := by
  have hspace : head.toList.head? ≠ some ' ' := by simp [hfirst, hc.1]
  have hne : head ≠ "" := by
    rintro rfl
    cases hfirst
  have hopen : VisitsNothing (head ++ " \x7b") := visitsNothing_append hfirst hc.2 (by decide)
  simp only [map_unindented_block hspace hne, List.cons_append, visitNothing_cons,
    visitNothing_append, visitNothing_nil, and_true]
  exact ⟨hopen, hbody, visitsNothing_close⟩

/-- Lines that visit nothing say nothing in front of others. -/
theorem visits_append_of_visitNothing (h : VisitNothing xs) (hys : ys.head? ≠ some ".encode(buf)") :
    writtenVisits (xs ++ ys) = writtenVisits ys ∧ readVisits (xs ++ ys) = readVisits ys := by
  induction xs with
  | nil => exact ⟨rfl, rfl⟩
  | cons line rest ih =>
    obtain ⟨hline, hrest⟩ := visitNothing_cons.1 h
    obtain ⟨hwritten, hread⟩ := ih hrest
    have hnext := head?_append_ne_call (fun line hline => (hrest line hline).call) hys
    rw [List.cons_append, ← hwritten, ← hread]
    simp only [writtenVisits, readVisits, readIdents, errorContexts, writtenIdents_cons_of_ne hnext,
      List.filterMap_cons_none hline.ident, List.filterMap_cons_none (hline.context _), and_self]

section Around

variable {before after : List String} (howner : '"' ∉ owner.toList) (hbefore : VisitNothing before)
  (hafter : VisitNothing after) (hys : ys.head? ≠ some ".encode(buf)")

include howner hbefore hafter hys

/-- What stands around the lines that write fields adds nothing to them. -/
theorem visits_around_writingLines (h : ∀ f ∈ fields, ':' ∉ f.ident.toList) :
    writtenVisits (before ++ (fields.flatMap (writingLines owner) ++ (after ++ ys))) =
        ⟨fields.map (·.ident) ++ (writtenVisits ys).idents,
          fields.map (fun f => (owner, f.name)) ++ (writtenVisits ys).contexts⟩ ∧
      readVisits (before ++ (fields.flatMap (writingLines owner) ++ (after ++ ys))) =
        readVisits ys := by
  have hafter' := head?_append_ne_call (fun line hline => (hafter line hline).call) hys
  obtain ⟨hwritten, hread⟩ := visits_append_of_visitNothing hafter hys
  obtain ⟨hwritten', hread'⟩ := visits_flatMap_writingLines howner h hafter'
  obtain ⟨hwritten'', hread''⟩ := visits_append_of_visitNothing hbefore
    (head?_flatMap_writingLines owner fields hafter')
  rw [hwritten'', hread'', hwritten', hread', hwritten, hread]
  exact ⟨rfl, rfl⟩

/-- What stands around the lines that read fields adds nothing to them. -/
theorem visits_around_readingLines (fields : List Field) :
    writtenVisits (before ++ (fields.flatMap (readingLines owner) ++ (after ++ ys))) =
        writtenVisits ys ∧
      readVisits (before ++ (fields.flatMap (readingLines owner) ++ (after ++ ys))) =
        ⟨fields.map (·.ident) ++ (readVisits ys).idents,
          fields.map (fun f => (owner, f.name)) ++ (readVisits ys).contexts⟩ := by
  have hafter' := head?_append_ne_call (fun line hline => (hafter line hline).call) hys
  obtain ⟨hwritten, hread⟩ := visits_append_of_visitNothing hafter hys
  obtain ⟨hwritten', hread'⟩ := visits_flatMap_readingLines fields howner hafter'
  obtain ⟨hwritten'', hread''⟩ := visits_append_of_visitNothing hbefore
    (head?_flatMap_readingLines owner fields hafter')
  rw [hwritten'', hread'', hwritten', hread', hwritten, hread]
  exact ⟨rfl, rfl⟩

omit hys

theorem writtenVisits_around (h : ∀ f ∈ fields, ':' ∉ f.ident.toList) :
    writtenVisits (before ++ (fields.flatMap (writingLines owner) ++ after)) =
      ⟨fields.map (·.ident), fields.map fun f => (owner, f.name)⟩ := by
  have hnone : writtenVisits [] = ⟨[], []⟩ := rfl
  have hnil : ([] : List String).head? ≠ some ".encode(buf)" := nofun
  have hvisits := (visits_around_writingLines howner hbefore hafter hnil h).1
  simpa only [hnone, List.append_nil] using hvisits

theorem readVisits_around (fields : List Field) :
    readVisits (before ++ (fields.flatMap (readingLines owner) ++ after)) =
      ⟨fields.map (·.ident), fields.map fun f => (owner, f.name)⟩ := by
  have hnone : readVisits [] = ⟨[], []⟩ := rfl
  have hnil : ([] : List String).head? ≠ some ".encode(buf)" := nofun
  have hvisits := (visits_around_readingLines howner hbefore hafter hnil fields).2
  simpa only [hnone, List.append_nil] using hvisits

end Around

/-! ### Structures -/

theorem visitsNothing_descriptionLine (d : Definition) :
    VisitsNothing (unindented d.descriptionLine) := by
  rw [Definition.descriptionLine]
  split
  · exact (visitsNothing_append (c := '/') (by simp) (by decide) (by decide)).unindented (by simp)
  · exact (visitsNothing_append (c := '/') (by simp) (by decide) (by decide)).unindented (by simp)

theorem visitNothing_declarationLines (d : Definition) :
    VisitNothing (d.declarationLines.map unindented) := by
  rw [Definition.declarationLines]
  split
  · have hempty : VisitsNothing ("pub struct " ++ d.name ++ " \x7b\x7d") :=
      visitsNothing_append (c := 'p') (by simp) (by decide) (by decide)
    exact visitNothing_singleton.2 (hempty.unindented (by simp))
  · refine visitNothing_block (c := 'p') (by simp) (by decide) fun line hline => ?_
    simp only [List.map_map, List.mem_map, Function.comp_apply] at hline
    obtain ⟨f, -, rfl⟩ := hline
    have hfield : VisitsNothing f.declarationLine :=
      visitsNothing_append (c := 'p') (by simp) (by decide) (by decide)
    exact hfield.unindented (by simp [Field.declarationLine])

theorem visitNothing_bodyLines (h : ')' ∉ d.name.toList) :
    VisitNothing (d.bodyLines.map unindented) := by
  have hname : VisitsNothing (unindented (quote d.name)) :=
    (visitsNothing_append (c := '"') (by simp) (by decide) (by decide)).unindented (by simp)
  have hconstant : VisitsNothing (unindented ("id::" ++ d.encodingConstant)) := by
    rw [unindented_eq_self (by simp)]
    refine visitsNothing_of_head? (c := 'i') (by simp) (by decide) (dropEnd?_ident_eq_none ?_)
    intro hlast
    -- the constant is made of the name, which has no parenthesis
    have hnot : ')' ∉ d.encodingConstant.toList := by
      refine Naming.not_mem_constIdent (by decide) (by decide) (.inl ?_)
      rw [Naming.encodingIdName, String.toList_append, List.mem_append]
      exact not_or.2 ⟨h, by decide⟩
    have hmem := List.mem_of_getLast? hlast
    rw [String.toList_append, List.mem_append] at hmem
    exact hmem.elim (by decide) hnot
  have hview (function capability : String) :
      VisitNothing ((Definition.viewLines function capability).map unindented) := by
    have hsome : VisitNothing (["Some(self)"].map unindented) :=
      visitNothing_singleton.2 (visitsNothing_of_head? (c := 'S') (by decide) (by decide) (by decide))
    simp only [Definition.viewLines, List.map_append, List.map_cons, List.map_nil,
      visitNothing_append, visitNothing_cons, visitsNothing_empty, visitNothing_nil, true_and, and_true]
    exact ⟨visitNothing_block (c := 'f') (by simp) (by decide) hsome,
      visitNothing_block (c := 'f') (by simp) (by decide) hsome⟩
  have hviews (condition : Prop) [Decidable condition] (function capability : String) :
      VisitNothing ((if condition then Definition.viewLines function capability else []).map
        unindented) := by
    split
    · exact hview function capability
    · exact visitNothing_nil
  rw [Definition.bodyLines]
  refine visitNothing_block (c := 'i') (by simp) (by decide) ?_
  simp only [List.map_append, List.map_cons, List.map_nil, visitNothing_append, visitNothing_cons,
    visitsNothing_empty, visitNothing_nil, and_true]
  exact ⟨⟨⟨visitNothing_block (c := 'f') rfl (by decide) (visitNothing_singleton.2 hname),
    visitNothing_block (c := 'f') rfl (by decide) (visitNothing_singleton.2 hconstant)⟩,
    hviews _ _ _⟩, hviews _ _ _⟩

/-- The access to a header visits nothing, though it mentions the field with the header. -/
theorem visitNothing_headerLines (d : Definition) (capability header ident : String) :
    VisitNothing ((d.headerLines capability header ident).map unindented) := by
  have hget : VisitsNothing (unindented ("self." ++ ident ++ ".as_deref()")) := by
    rw [unindented_eq_self (by simp)]
    refine visitsNothing_of_head? (c := 's') (by simp) (by decide) ?_
    -- this line ends with a call too, but with one that has no arguments
    refine Option.eq_none_iff_forall_ne_some.2 fun rest hrest => ?_
    have hend := congrArg (·.toList.reverse.take 2) (dropEnd?_eq_some_iff.1 hrest)
    simp at hend
  have hset : VisitsNothing (unindented ("self." ++ ident ++ " = Some(Box::new(header));")) :=
    (visitsNothing_append (c := 's') (by simp) (by decide) (by decide)).unindented (by simp)
  rw [Definition.headerLines, List.map_append, visitNothing_append]
  refine ⟨visitNothing_singleton.2 visitsNothing_empty,
    visitNothing_block (c := 'i') (by simp) (by decide) ?_⟩
  simp only [List.map_append, List.map_cons, List.map_nil, visitNothing_append, visitNothing_cons,
    visitsNothing_empty, visitNothing_nil, and_true]
  exact ⟨visitNothing_block (c := 'f') (by simp) (by decide) (visitNothing_singleton.2 hget),
    visitNothing_block (c := 'f') (by simp) (by decide) (visitNothing_singleton.2 hset)⟩

theorem visitNothing_capabilityLines (d : Definition) :
    VisitNothing (d.capabilityLines.map unindented) := by
  rw [Definition.capabilityLines]
  split
  · exact visitNothing_nil
  · split
    · exact visitNothing_headerLines _ _ _ _
    · split
      · exact visitNothing_headerLines _ _ _ _
      · exact visitNothing_nil

theorem map_unindented_writing (d : Definition) :
    d.encodeLines.map unindented =
      [implementationHead "BinaryEncode" d.name, encodeHead d.bufferName] ++
        (d.fields.flatMap (writingLines d.name) ++ ["Ok(())", "\x7d", "\x7d"]) := by
  rw [Definition.encodeLines, map_unindented_encodeImpl, body_encodingItem, List.append_assoc,
    List.append_assoc]
  rfl

theorem map_unindented_reading (h : d.IsReadable) :
    d.decodeLines.map unindented =
      [implementationHead "BinaryDecode" d.name, decodeHead d.bufferName, "Ok(Self \x7b"] ++
        (d.fields.flatMap (readingLines d.name) ++ ["\x7d)", "\x7d", "\x7d"]) := by
  rw [Definition.decodeLines, map_unindented_decodeImpl, body_decodingItem h, List.append_assoc,
    List.append_assoc]
  rfl

/-- **The lines of a structure visit its fields twice**, to write and to read them; what stands
around these lines visits nothing. -/
theorem exists_lines_around_visits (h : d.IsReadable) (hname : ')' ∉ d.name.toList) :
    ∃ before between after, VisitNothing before ∧ VisitNothing between ∧ VisitNothing after ∧
      d.objectLines.map unindented =
        before ++ (d.fields.flatMap (writingLines d.name) ++ (between ++
          (d.fields.flatMap (readingLines d.name) ++ after))) := by
  have hderive : VisitsNothing (unindented "#[derive(Debug, Clone, Default, PartialEq)]") :=
    visitsNothing_of_head? (c := '#') (by decide) (by decide) (by decide)
  refine ⟨(["", d.descriptionLine, "#[derive(Debug, Clone, Default, PartialEq)]"] ++
      d.declarationLines ++ [""]).map unindented ++
        [implementationHead "BinaryEncode" d.name, encodeHead d.bufferName],
    ["Ok(())", "\x7d", "\x7d"] ++ [""].map unindented ++
      [implementationHead "BinaryDecode" d.name, decodeHead d.bufferName, "Ok(Self \x7b"],
    ["\x7d)", "\x7d", "\x7d"] ++ ([""] ++ d.bodyLines ++ d.capabilityLines).map unindented,
    ?_, ?_, ?_, ?_⟩
  · simp only [List.map_append, List.map_cons, List.map_nil, visitNothing_append, visitNothing_cons,
      visitNothing_nil, and_true]
    exact ⟨⟨⟨⟨visitsNothing_empty, visitsNothing_descriptionLine d, hderive⟩,
      visitNothing_declarationLines d⟩, visitsNothing_empty⟩,
      visitsNothing_implementationHead _ _, visitsNothing_encodeHead _⟩
  · simp only [List.map_cons, List.map_nil, visitNothing_append, visitNothing_cons, visitNothing_nil,
      and_true]
    exact ⟨⟨⟨visitsNothing_return, visitsNothing_close, visitsNothing_close⟩, visitsNothing_empty⟩,
      visitsNothing_implementationHead _ _, visitsNothing_decodeHead _, visitsNothing_open⟩
  · simp only [List.map_append, List.map_cons, List.map_nil, visitNothing_append, visitNothing_cons,
      visitNothing_nil, and_true]
    exact ⟨⟨visitsNothing_closeCall, visitsNothing_close, visitsNothing_close⟩,
      ⟨visitsNothing_empty, visitNothing_bodyLines hname⟩, visitNothing_capabilityLines d⟩
  · rw [Definition.objectLines]
    simp only [List.map_append, map_unindented_writing, map_unindented_reading h, List.append_assoc]

/-- **The lines of a structure visit each of its fields once to write and once to read it**, in
order. -/
theorem visits_objectLines (h : d.IsReadable) (hname : ')' ∉ d.name.toList)
    (hys : ys.head? ≠ some ".encode(buf)") :
    writtenVisits (d.objectLines.map unindented ++ ys) =
        ⟨d.fields.map (·.ident) ++ (writtenVisits ys).idents,
          d.fields.map (fun f => (d.name, f.name)) ++ (writtenVisits ys).contexts⟩ ∧
      readVisits (d.objectLines.map unindented ++ ys) =
        ⟨d.fields.map (·.ident) ++ (readVisits ys).idents,
          d.fields.map (fun f => (d.name, f.name)) ++ (readVisits ys).contexts⟩ := by
  obtain ⟨before, between, after, hbefore, hbetween, hafter, hlines⟩ :=
    exists_lines_around_visits h hname
  have hcolon : ∀ f ∈ d.fields, ':' ∉ f.ident.toList := fun f hf => (h.idents f hf).2.2
  have hnext := head?_flatMap_readingLines d.name d.fields
    (head?_append_ne_call (fun line hline => (hafter line hline).call) hys)
  obtain ⟨hwritten, hread⟩ := visits_around_writingLines h.name hbefore hbetween hnext hcolon
  obtain ⟨hwritten', hread'⟩ :=
    visits_around_readingLines h.name visitNothing_nil hafter hys d.fields
  simp only [hlines, List.append_assoc]
  rw [hwritten, hread]
  exact ⟨by rw [← hwritten']; rfl, hread'⟩

/-! ### Files -/

theorem head?_map_flatMap_lines {ds : List Definition} (h : ∀ d ∈ ds, d.kind = .object) :
    ((ds.flatMap Definition.lines).map unindented).head? ≠ some ".encode(buf)" := by
  cases ds with
  | nil => exact nofun
  | cons d rest =>
    have hlines : d.lines = d.objectLines := by rw [Definition.lines, h d List.mem_cons_self]
    rw [List.flatMap_cons, hlines, Definition.objectLines]
    exact fun heq => visitsNothing_empty.call (Option.some.inj heq)

theorem visits_flatMap_lines {ds : List Definition}
    (h : ∀ d ∈ ds, d.kind = .object ∧ d.IsReadable ∧ ')' ∉ d.name.toList) :
    writtenVisits ((ds.flatMap Definition.lines).map unindented) = Definition.visits ds ∧
      readVisits ((ds.flatMap Definition.lines).map unindented) = Definition.visits ds := by
  induction ds with
  | nil => exact ⟨rfl, rfl⟩
  | cons d rest ih =>
    obtain ⟨⟨hkind, hreadable, hname⟩, hrest⟩ := List.forall_mem_cons.1 h
    obtain ⟨hwritten, hread⟩ := ih hrest
    have hlines : d.lines = d.objectLines := by rw [Definition.lines, hkind]
    obtain ⟨hwritten', hread'⟩ :=
      visits_objectLines hreadable hname (head?_map_flatMap_lines fun d hd => (hrest d hd).1)
    rw [List.flatMap_cons, List.map_append, hlines, hwritten', hread', hwritten, hread]
    exact ⟨rfl, rfl⟩

theorem visitNothing_header (prelude : String) :
    VisitNothing ((header (some prelude)).map unindented) := by
  have huse : VisitsNothing (unindented ("use " ++ prelude ++ "::*;")) :=
    (visitsNothing_append (c := 'u') (by simp) (by decide) (by decide)).unindented (by simp)
  have hmarker : VisitsNothing (unindented marker) :=
    visitsNothing_of_head? (c := '/') (by decide) (by decide) (by decide)
  have hallow : VisitsNothing (unindented "#[allow(unused_imports)]") :=
    visitsNothing_of_head? (c := '#') (by decide) (by decide) (by decide)
  simp only [header, List.map_cons, visitNothing_cons]
  exact ⟨hmarker, visitsNothing_empty, hallow, huse, visitNothing_nil⟩

theorem visitNothing_capability (capability kind header : String) :
    VisitNothing ((capabilityLines capability kind header).map unindented) := by
  have hdescription : VisitsNothing (unindented ("/// Capability shared by every service " ++ kind ++
      ": access to its `" ++ header ++ "`.")) :=
    (visitsNothing_append (c := '/') (by simp) (by decide) (by decide)).unindented (by simp)
  have hget : VisitsNothing (unindented ("fn header(&self) -> Option<&" ++ header ++ ">;")) :=
    (visitsNothing_append (c := 'f') (by simp) (by decide) (by decide)).unindented (by simp)
  have hset : VisitsNothing (unindented ("fn set_header(&mut self, header: " ++ header ++ ");")) :=
    (visitsNothing_append (c := 'f') (by simp) (by decide) (by decide)).unindented (by simp)
  rw [capabilityLines, List.map_append, visitNothing_append]
  refine ⟨visitNothing_cons.2 ⟨visitsNothing_empty, visitNothing_singleton.2 hdescription⟩,
    visitNothing_block (c := 'p') (by simp) (by decide) ?_⟩
  exact visitNothing_cons.2 ⟨hget, visitNothing_singleton.2 hset⟩

/-- **The lines of a file of structures visit their fields**, each once to write and once to read
it, and nothing besides, if no line is torn. -/
theorem visits_objectFile {prelude : String} (hprelude : '\n' ∉ prelude.toList) {ds : List Definition}
    (h : ∀ d ∈ ds, d.kind = .object ∧ d.IsReadable ∧ ')' ∉ d.name.toList)
    (hlines : AreLines (ds.flatMap Definition.lines)) :
    writtenVisits ((Text.lines (objectFile prelude ds)).map unindented) = Definition.visits ds ∧
      readVisits ((Text.lines (objectFile prelude ds)).map unindented) = Definition.visits ds := by
  have hfront : VisitNothing ((header (some prelude) ++ messageCapabilityLines).map unindented) := by
    simp only [messageCapabilityLines, List.map_append, visitNothing_append]
    exact ⟨visitNothing_header prelude, visitNothing_capability _ _ _, visitNothing_capability _ _ _⟩
  obtain ⟨hwritten, hread⟩ := visits_append_of_visitNothing hfront
    (head?_map_flatMap_lines fun d hd => (h d hd).1)
  rw [lines_objectFile hprelude hlines, List.map_append, hwritten, hread]
  exact visits_flatMap_lines h

end Source

end OpcWire
