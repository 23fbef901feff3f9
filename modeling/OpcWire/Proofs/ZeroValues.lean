import OpcWire.Dictionary.Standard
import OpcWire.Proofs.Generator.ZeroValue

/-!
# Zero values that end, and zero values that do not

A structure may refer to itself, as in a list, where each node refers to the next one, or to
another structure that refers back to it. Such references are nullable so that values can end; but
as an absent reference is written as a zero value, whose own reference is absent again, writing a
value of such a structure does not end. The generator accepts these structures: base types must not
form a cycle, references may.

Without a cycle of references, all zero values are written. A structure that holds an array of
itself, like a tree, is no cycle, since null is written for an absent array.
-/

namespace OpcWire

open Relation (ReflTransGen TransGen)

/-- **Zero values are written unless references lead into a cycle.** Of the structures of any
accepted dictionary, those from which no way along references meets a cycle have a zero value that
is written, always with the same bytes, in no more levels than there are structures; for the
others no number of levels is enough. -/
theorem zero_value_written_iff (d : Dictionary) (roots : HierarchyRoots)
    (objects : List Definition) (h : d.objectDefinitions roots = .ok objects) :
    let g : GeneratedTypes := ⟨d.enumerations, objects⟩
    ∀ a ∈ objects,
      ((∃ bytes, ∀ levels ≥ objects.length, g.zeroEncoding? levels a = some (.ofBytes bytes)) ↔
        ∀ b, ReflTransGen g.Refers a b → ¬ TransGen g.Refers b b) ∧
      ∀ b, ReflTransGen g.Refers a b → TransGen g.Refers b b →
        ∀ levels, g.zeroEncoding? levels a = none := by
  intro g a ha
  have hclosed : g.Closed := GeneratedTypes.closed_of_objectDefinitions h
  have hiff : (∃ levels, IsWritten (g.zeroEncoding? levels a)) ↔
      ∀ b, ReflTransGen g.Refers a b → ¬ TransGen g.Refers b b :=
    (GeneratedTypes.exists_isWritten_iff_acc hclosed ha).trans
      (acc_iff_forall_not_cycle fun _ _ hbc => hbc.2.1)
  refine ⟨⟨?_, ?_⟩, ?_⟩
  · rintro ⟨bytes, hbytes⟩
    exact hiff.1 ⟨objects.length, bytes, hbytes _ le_rfl⟩
  · intro hacyclic
    obtain ⟨levels, hwritten⟩ := hiff.2 hacyclic
    obtain ⟨bytes, hbytes⟩ := GeneratedTypes.isWritten_length hclosed ha hwritten
    exact ⟨bytes, fun _ hmore => GeneratedTypes.zeroEncoding?_mono hmore hbytes⟩
  · intro b hab hcycle levels
    refine GeneratedTypes.zeroEncoding?_eq_none fun hwritten => ?_
    exact hiff.1 ⟨levels, hwritten⟩ b hab hcycle

/-- A response to a cancel request and its header are written like the wire types that the standard
dictionary gives them. -/
example :
    let d : Dictionary := { Dictionary.standard with
      structures := Dictionary.standard.structures.filter fun s =>
        ["ResponseHeader", "CancelResponse"].contains s.name }
    (d.objectDefinitions .standard).map (fun objects =>
      objects.map (GeneratedTypes.zeroEncoding? ⟨d.enumerations, objects⟩ 2)) =
        .ok [some Structure.responseHeader.wireType.zeroEncoding,
          some Structure.cancelResponse.wireType.zeroEncoding] := by
  decide +kernel

/-! ### A list -/

/-- A dictionary with the nodes of a list, each of which refers to the next one. -/
def listDictionary : Dictionary where
  targetNamespace := "http://opcfoundation.org/UA/"
  enumerations := []
  structures :=
    [ ⟨"ListNode", some "ua:ExtensionObject",
        [ ⟨"Value", "opc:Int32", none⟩, ⟨"Next", "tns:ListNode", none⟩ ]⟩ ]

/-- The definition of these nodes. -/
def listNode : Definition where
  name := "ListNode"
  kind := .object
  repr := none
  base := some "ExtensionObject"
  fields := [⟨"Value", "value", .builtin .int32⟩, ⟨"Next", "next", .reference "ListNode"⟩]
  members := []

/-- The dictionary is accepted though its structure refers to itself, and no number of levels is
enough to write the zero value. -/
theorem zero_value_of_listNode_unwritten :
    listDictionary.objectDefinitions .standard = .ok [listNode] ∧
      TransGen (GeneratedTypes.mk [] [listNode]).Refers listNode listNode ∧
      ∀ levels, (GeneratedTypes.mk [] [listNode]).zeroEncoding? levels listNode = none := by
  have haccepted : listDictionary.objectDefinitions .standard = .ok [listNode] := by
    decide +kernel
  have hself : listNode ∈ [listNode] := List.mem_cons_self
  have hrefers : (GeneratedTypes.mk [] [listNode]).Refers listNode listNode :=
    ⟨hself, hself, ⟨"Next", "next", .reference "ListNode"⟩, by decide, rfl⟩
  refine ⟨haccepted, .single hrefers, fun levels => ?_⟩
  refine GeneratedTypes.zeroEncoding?_eq_none fun hwritten => ?_
  have hclosed := GeneratedTypes.closed_of_objectDefinitions haccepted
  have hacc := (GeneratedTypes.exists_isWritten_iff_acc hclosed hself).1 ⟨levels, hwritten⟩
  exact not_cycle_of_acc hacc .refl (.single hrefers)

/-! ### A tree -/

/-- A dictionary with trees, which hold an array of trees, and with the owners they refer to. -/
def treeDictionary : Dictionary where
  targetNamespace := "http://opcfoundation.org/UA/"
  enumerations := [⟨"Shape", 8, [⟨"Round", 0⟩, ⟨"Tall", 1⟩]⟩]
  structures :=
    [ ⟨"Tree", some "ua:ExtensionObject",
        [ ⟨"Shape", "tns:Shape", none⟩, ⟨"Owner", "tns:Owner", none⟩,
          ⟨"NoOfBranches", "opc:Int32", none⟩, ⟨"Branches", "tns:Tree", some "NoOfBranches"⟩ ]⟩,
      ⟨"Owner", some "ua:ExtensionObject",
        [ ⟨"Name", "opc:String", none⟩, ⟨"NodeId", "ua:NodeId", none⟩ ]⟩ ]

/-- The definition of trees. -/
def treeDefinition : Definition where
  name := "Tree"
  kind := .object
  repr := none
  base := some "ExtensionObject"
  fields :=
    [ ⟨"Shape", "shape", .enumeration "Shape"⟩, ⟨"Owner", "owner", .reference "Owner"⟩,
      ⟨"Branches", "branches", .sequence (.reference "Tree")⟩ ]
  members := []

/-- The definition of their owners. -/
def ownerDefinition : Definition where
  name := "Owner"
  kind := .object
  repr := none
  base := some "ExtensionObject"
  fields := [⟨"Name", "name", .builtin .string⟩, ⟨"NodeId", "node_id", .reference "NodeId"⟩]
  members := []

/-- The zero value of a tree is written in two levels, its owner inside, and so no way from it
meets a cycle; from the nodes of a list one does. -/
theorem zero_value_written_tree :
    let trees : GeneratedTypes := ⟨treeDictionary.enumerations, [treeDefinition, ownerDefinition]⟩
    let lists : GeneratedTypes := ⟨listDictionary.enumerations, [listNode]⟩
    trees.zeroEncoding? 2 treeDefinition =
        some (.ofBytes [0, 0xFF, 0xFF, 0xFF, 0xFF, 0, 0, 0xFF, 0xFF, 0xFF, 0xFF]) ∧
      (∀ b, ReflTransGen trees.Refers treeDefinition b → ¬ TransGen trees.Refers b b) ∧
      ∀ levels, lists.zeroEncoding? levels listNode = none := by
  have htrees := zero_value_written_iff treeDictionary .standard
    [treeDefinition, ownerDefinition] (by decide +kernel) treeDefinition List.mem_cons_self
  have hlists := zero_value_written_iff listDictionary .standard [listNode] (by decide +kernel)
    listNode List.mem_cons_self
  have hself : listNode ∈ [listNode] := List.mem_cons_self
  intro trees lists
  have hwritten : trees.zeroEncoding? 2 treeDefinition =
      some (.ofBytes [0, 0xFF, 0xFF, 0xFF, 0xFF, 0, 0, 0xFF, 0xFF, 0xFF, 0xFF]) := rfl
  refine ⟨hwritten, ?_, ?_⟩
  · exact htrees.1.1 ⟨_, fun _ hmore => GeneratedTypes.zeroEncoding?_mono hmore hwritten⟩
  · refine hlists.2 listNode .refl (.single ⟨hself, hself, ?_⟩)
    exact ⟨⟨"Next", "next", .reference "ListNode"⟩, by decide, rfl⟩

end OpcWire
