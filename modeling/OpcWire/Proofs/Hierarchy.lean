import OpcWire.Proofs.Generator.Resolution

/-!
# The hierarchy is resolved exactly

Which structures of a dictionary are members of the hierarchy, is settled by their chains of base
types alone (`hierarchy_resolved_exactly`): neither the order in which the structures are defined
nor what is known from chains followed before has a say in it. When a dictionary is refused, the
error names a structure, and a field, of which what it says is true.
-/

namespace OpcWire

open Relation (TransGen)

namespace Dictionary

variable {d : Dictionary} {roots : HierarchyRoots} {s : StructuredType} {isMember : Bool}

/-- What is known is no part of the answer. -/
theorem followBases_eq_ok_iff (hd : d.NamesDistinct) {memo : Memo}
    (hmemo : Memo.Sound d roots memo []) (hs : s ∈ d.structures) :
    (∃ memo', d.followBases roots (d.structures.length + 1) memo s = .ok (isMember, memo')) ↔
      d.ChainEnds roots s isMember := by
  rcases d.followBases_spec hd hmemo hs nofun .nil (Nat.lt_succ_self _) with
    ⟨isMember', memo', hfollow, hends, -⟩ | ⟨e, hfollow, t, -, hreach, hblame⟩
  · constructor
    · rintro ⟨memo'', h⟩
      cases hfollow.symm.trans h
      exact hends
    · intro h
      exact ⟨memo', h.unique hd hends ▸ hfollow⟩
  · constructor
    · rintro ⟨memo'', h⟩
      cases hfollow.symm.trans h
    · intro h
      exact absurd (h.of_reaches hd hreach) (hblame.not_chainEnds hd)

end Dictionary

/-- **The hierarchy is resolved exactly.** A dictionary is accepted if and only if structures have
names of their own, all chains of base types end, and the fields of members have identifiers of
their own and known types; the result is then one definition for each member, in the order of the
dictionary. Chains are found to end where they do, whatever was found out before. An error tells the
truth. -/
theorem hierarchy_resolved_exactly (d : Dictionary) (roots : HierarchyRoots) :
    ((∃ objects, d.objectDefinitions roots = .ok objects) ↔ d.WellFormed roots) ∧
      (∀ objects, d.objectDefinitions roots = .ok objects → d.Resolves roots objects) ∧
      (d.NamesDistinct → ∀ memo, Dictionary.Memo.Sound d roots memo [] →
        ∀ s ∈ d.structures, ∀ isMember,
          (∃ memo', d.followBases roots (d.structures.length + 1) memo s =
            .ok (isMember, memo')) ↔ d.ChainEnds roots s isMember) ∧
      ∀ e, d.objectDefinitions roots = .error e → d.Fault roots e := by
  refine ⟨Dictionary.objectDefinitions_eq_ok_iff_wellFormed,
    fun objects => Dictionary.resolves_of_objectDefinitions, ?_, fun e h => ?_⟩
  · intro hd memo hmemo s hs isMember
    exact Dictionary.followBases_eq_ok_iff hd hmemo hs
  · rcases Dictionary.objectDefinitions_spec d roots with ⟨objects, hok, -⟩ | ⟨e', herror, hfault⟩
    · cases hok.symm.trans h
    · cases herror.symm.trans h
      exact hfault

/-- A dictionary in which structures are defined before those they extend, and one of them does not
belong to the hierarchy. -/
def scatteredDictionary : Dictionary where
  targetNamespace := "http://opcfoundation.org/UA/"
  enumerations := [⟨"Shape", 8, [⟨"Round", 0⟩]⟩]
  structures :=
    [ ⟨"Leaf", some "tns:Branch", [⟨"Shape", "tns:Shape", none⟩]⟩,
      ⟨"Stone", some "ua:Union", [⟨"Weight", "opc:Unknown", none⟩]⟩,
      ⟨"Branch", some "tns:Trunk",
        [⟨"NoOfLeaves", "opc:Int32", none⟩, ⟨"Leaves", "tns:Leaf", some "NoOfLeaves"⟩]⟩,
      ⟨"Trunk", some "ua:ExtensionObject", [⟨"Node", "ua:NodeId", none⟩]⟩ ]

/-- A dictionary in which the chain of one structure leads to a cycle of two others. -/
def cyclicDictionary : Dictionary where
  targetNamespace := "http://opcfoundation.org/UA/"
  enumerations := []
  structures := [⟨"Tail", some "tns:Left", []⟩, ⟨"Left", some "tns:Right", []⟩,
    ⟨"Right", some "tns:Left", []⟩]

/-- The structure that the others of the first dictionary extend. -/
def trunk : Dictionary.StructuredType :=
  ⟨"Trunk", some "ua:ExtensionObject", [⟨"Node", "ua:NodeId", none⟩]⟩

/-- The members of the first dictionary are found though they come before their bases; once the
membership of the trunk is known, it is not asked for again. The error for the second dictionary
names a structure of the cycle, not the one that the chain started from. -/
theorem hierarchy_resolved_exactly_scattered :
    (∃ objects, scatteredDictionary.objectDefinitions .standard = .ok objects ∧
        objects.map (·.name) = ["Leaf", "Branch", "Trunk"] ∧
        scatteredDictionary.Resolves .standard objects) ∧
      scatteredDictionary.WellFormed .standard ∧
      (∃ memo, Dictionary.Memo.Sound scatteredDictionary .standard memo [] ∧
        memo.lookup "Trunk" = some (.resolved true) ∧ ∃ memo',
          scatteredDictionary.followBases .standard 5 memo trunk = .ok (true, memo')) ∧
      cyclicDictionary.objectDefinitions .standard = .error (.baseCycle "Left") ∧
      cyclicDictionary.Fault .standard (.baseCycle "Left") := by
  obtain ⟨hiff, hresolves, hfollow, -⟩ := hierarchy_resolved_exactly scatteredDictionary .standard
  obtain ⟨-, -, -, hfault⟩ := hierarchy_resolved_exactly cyclicDictionary .standard
  have hnames : (scatteredDictionary.objectDefinitions .standard).map (·.map (·.name)) =
      .ok ["Leaf", "Branch", "Trunk"] := by decide +kernel
  have hcycle : cyclicDictionary.objectDefinitions .standard = .error (.baseCycle "Left") := by
    decide +kernel
  have hmem : trunk ∈ scatteredDictionary.structures := by decide
  have hends : scatteredDictionary.ChainEnds .standard trunk true :=
    .root (.root rfl (by decide))
  obtain ⟨objects, hobjects, hmap⟩ : ∃ objects,
      scatteredDictionary.objectDefinitions .standard = .ok objects ∧
        objects.map (·.name) = ["Leaf", "Branch", "Trunk"] := by
    cases hobjects : scatteredDictionary.objectDefinitions .standard with
    | error e =>
      rw [hobjects] at hnames
      cases hnames
    | ok objects =>
      rw [hobjects] at hnames
      exact ⟨objects, rfl, Except.ok.inj hnames⟩
  have hd := hiff.1 ⟨objects, hobjects⟩
  have hmemo := (Dictionary.Memo.Sound.nil.visit hd.distinct hmem).resolve hd.distinct hmem
    List.not_mem_nil hends
  exact ⟨⟨objects, hobjects, hmap, hresolves objects hobjects⟩, hd,
    ⟨_, hmemo, rfl, (hfollow hd.distinct _ hmemo trunk hmem true).2 hends⟩, hcycle,
    hfault _ hcycle⟩

end OpcWire
