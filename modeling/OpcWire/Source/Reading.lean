import OpcWire.Naming
import OpcWire.Source.Basic
import OpcWire.Text.Blank
import OpcWire.Text.Decimal

/-!
# Reading generated source text

What a generated file says is read from its lines, without knowing what it was generated from: the
constants that it defines (`Source.constants`), the calls by which a function registers types
(`Source.calls?`), and the constants that bodies of extension objects give as the numbers of their
encodings (`Source.encodingConstants`).
-/

namespace OpcWire

namespace Source

/-! ### Parts of a line -/

/-- The part of `text` in front of `stop`, if `text` ends with it. -/
def dropEnd? (stop text : String) : Option String :=
  if stop.toList.isSuffixOf text.toList then
    some (String.ofList (text.toList.take (text.length - stop.length)))
  else none

/-- The part of `text` between `start` and `stop`, if `text` starts and ends with them. -/
def between? (start stop text : String) : Option String :=
  (Naming.dropStart? start text).bind (dropEnd? stop)

/-- The parts of `text` in front of and behind the first occurrence of a character. -/
def cut? (mark : Char) (text : String) : Option (String × String) :=
  match text.toList.dropWhile (· != mark) with
  | [] => none
  | _ :: behind => some (String.ofList (text.toList.takeWhile (· != mark)), String.ofList behind)

theorem dropEnd?_eq_some_iff {stop text rest : String} :
    dropEnd? stop text = some rest ↔ text = rest ++ stop := by
  rw [dropEnd?, ← String.toList_inj, String.toList_append]
  constructor
  · intro h
    obtain ⟨hstop, ⟨⟩⟩ := Option.ite_none_right_eq_some.1 h
    obtain ⟨l, hl⟩ := List.isSuffixOf_iff_suffix.1 hstop
    rw [← String.length_toList, ← String.length_toList, ← hl, String.toList_ofList,
      List.length_append, Nat.add_sub_cancel, List.take_left]
  · intro h
    rw [h, if_pos (List.isSuffixOf_iff_suffix.2 ⟨_, rfl⟩), ← String.length_toList,
      ← String.length_toList, h, List.length_append, Nat.add_sub_cancel, List.take_left,
      String.ofList_toList]

theorem between?_eq_some_iff {start stop text rest : String} :
    between? start stop text = some rest ↔ text = start ++ rest ++ stop := by
  rw [between?, Option.bind_eq_some_iff]
  constructor
  · rintro ⟨tail, htail, hrest⟩
    rw [Naming.dropStart?_eq_some_iff.1 htail, dropEnd?_eq_some_iff.1 hrest, String.append_assoc]
  · intro h
    rw [String.append_assoc] at h
    exact ⟨rest ++ stop, Naming.dropStart?_eq_some_iff.2 h, dropEnd?_eq_some_iff.2 rfl⟩

theorem cut?_eq_some_iff {mark : Char} {text before behind : String} :
    cut? mark text = some (before, behind) ↔
      text = before ++ String.singleton mark ++ behind ∧ mark ∉ before.toList := by
  rw [cut?, ← String.toList_inj]
  simp only [String.toList_append, String.toList_singleton, List.append_assoc,
    List.singleton_append]
  generalize text.toList = chars
  constructor
  · intro h
    split at h
    · cases h
    · rename_i c tail htail
      obtain ⟨rfl, rfl⟩ := Prod.mk.inj (Option.some.inj h)
      obtain rfl : c = mark := by
        have hhead := List.head_dropWhile_not (· != mark) (l := chars) (htail ▸ List.cons_ne_nil _ _)
        simpa [htail] using hhead
      rw [String.toList_ofList, String.toList_ofList, ← htail]
      exact ⟨List.takeWhile_append_dropWhile.symm, fun hmem => by
        simpa using List.all_eq_true.1 List.all_takeWhile _ hmem⟩
  · rintro ⟨rfl, hmark⟩
    have hall : ∀ c ∈ before.toList, (c != mark) = true := fun c hc =>
      bne_iff_ne.2 fun heq => hmark (heq ▸ hc)
    rw [List.dropWhile_append_of_pos hall, List.takeWhile_append_of_pos hall,
      List.dropWhile_cons_of_neg (by simp), List.takeWhile_cons_of_neg (by simp), List.append_nil]
    simp only [String.ofList_toList]

/-! ### Constants -/

/-- A constant with its number. -/
structure Constant where
  /-- Name of the constant. -/
  name : String
  /-- Its number. -/
  number : UInt32
  deriving DecidableEq, Repr

/-- The line that defines a constant. -/
def Constant.line (c : Constant) : String :=
  "pub const " ++ c.name ++ ": u32 = " ++ toString c.number ++ ";"

/-- The constant that a line defines. -/
def Constant.read? (line : String) : Option Constant := do
  let (head, tail) ← (between? "pub const " ";" line).bind (cut? ' ')
  let name ← dropEnd? ":" head
  let digits ← Naming.dropStart? "u32 = " tail
  let number ← (Decimal.uint32 digits).toOption
  return ⟨name, number⟩

/-- The constants that a text defines, line by line. -/
def constants (text : String) : List Constant := (Text.lines text).filterMap Constant.read?

/-! ### Calls -/

/-- A call that registers a type. -/
structure Call where
  /-- Name of the type. -/
  typeName : String
  /-- The constant with the number under which the type is registered. -/
  constant : String
  /-- The name under which the type is registered. -/
  name : String
  deriving DecidableEq, Repr

/-- The statement that makes a call. -/
def Call.statement (c : Call) : String :=
  "registry.register::<" ++ c.typeName ++ ">(id::" ++ c.constant ++ ", " ++ quote c.name ++ ")?;"

/-- The call that a statement makes. -/
def Call.read? (statement : String) : Option Call := do
  let (typeName, rest) ← (between? "registry.register::<" "\")?;" statement).bind (cut? '>')
  let (constant, rest) ← (Naming.dropStart? "(id::" rest).bind (cut? ',')
  let name ← Naming.dropStart? " \"" rest
  return ⟨typeName, constant, name⟩

/-- A line one level further out. -/
def unindentLine (line : String) : String := (Naming.dropStart? "    " line).getD line

/-- The statements between the last occurrence of the line `head` and the brace that closes it. -/
def statements? (head : String) : List String → Option (List String)
  | [] => none
  | line :: rest =>
    match statements? head rest with
    | some statements => some statements
    | none =>
      if line = head then some ((rest.takeWhile (· ≠ "\x7d")).map unindentLine) else none

/-- The calls that statements make, if each of them does but the last, which returns. -/
def callsOfStatements? : List String → Option (List Call)
  | [] => none
  | statement :: rest =>
    if statement = "Ok(())" ∧ rest = [] then some []
    else do
      let call ← Call.read? statement
      let calls ← callsOfStatements? rest
      return call :: calls

/-- What a function that registers types is declared as. -/
def initialiserHead (function : String) : String :=
  "pub fn " ++ function ++ "(registry: &mut TypeRegistry) -> Result<(), RegistryError>"

/-- The calls that the function `function` of a text makes, if it does nothing else. -/
def calls? (function text : String) : Option (List Call) :=
  (statements? (initialiserHead function ++ " \x7b") (Text.lines text)).bind callsOfStatements?

/-! ### Numbers of encodings -/

/-- The name of the type of which the body of an extension object begins with a line. -/
def implementedType? (line : String) : Option String :=
  between? "impl ExtensionObjectBody for " " \x7b" line

/-- The constant that the method `encoding_id` gives, which is among the lines of a body. -/
def encodingConstant? (lines : List String) : Option String :=
  match lines.dropWhile (· ≠ "    fn encoding_id(&self) -> u32 \x7b") with
  | _ :: value :: _ => Naming.dropStart? "        id::" value
  | _ => none

/-- The types that are bodies of extension objects, with the constants of their encodings. -/
def encodingConstants : List String → List (String × String)
  | [] => []
  | line :: rest =>
    let found := do
      let name ← implementedType? line
      let constant ← encodingConstant? (rest.takeWhile (· ≠ "\x7d"))
      return (name, constant)
    found.toList ++ encodingConstants rest

end Source

end OpcWire
