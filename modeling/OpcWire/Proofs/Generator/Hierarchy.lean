import Mathlib.Data.List.Nodup
import Mathlib.Data.List.Perm.Subperm
import Mathlib.Logic.Relation
import OpcWire.Naming
import OpcWire.Proofs.Generator.Definitions

/-!
# Chains of base types

What the chain of a structure is, is said without following it: `Dictionary.Leads` says where a base
leads by its text, and `Dictionary.ChainEnds` that one base after the other leads to an end, inside
or outside the hierarchy. A chain that ends has one end (`ChainEnds.unique`), meets no cycle
(`ChainEnds.not_cycle`) and leads to no undefined base (`ChainEnds.not_undefined`).

Following a chain finds its end, whatever is known from chains followed before, or blames a
structure that the chain leads to (`followBases_spec`). The invariant is `Memo.Sound`: what is
resolved is right, and what is being visited is the way that has led here. So a structure that is
met while it is visited is on a cycle.
-/

namespace OpcWire

open Relation (ReflTransGen TransGen)

namespace Dictionary

variable (d : Dictionary) (roots : HierarchyRoots)

/-- Structures have names of their own. -/
def NamesDistinct : Prop := (d.structures.map (·.name)).Nodup

/-! ### Chains -/

/-- Where the base of a structure leads, by its text. -/
inductive Leads (s : StructuredType) : Base → Prop
  /-- The base is a root. -/
  | root {base : String} (hbase : s.baseType = some base) (hroot : roots.contains base = true) :
      Leads s .root
  /-- There is no base. -/
  | noBase (hbase : s.baseType = none) : Leads s .outside
  /-- The base is no root and not in the namespace of the dictionary. -/
  | foreign {base : String} (hbase : s.baseType = some base)
      (hroot : roots.contains base = false) (hforeign : ∀ name, base ≠ "tns:" ++ name) :
      Leads s .outside
  /-- The base is no root, and is the name of a structure in the namespace of the dictionary. -/
  | structured {t : StructuredType} (ht : t ∈ d.structures)
      (hbase : s.baseType = some ("tns:" ++ t.name))
      (hroot : roots.contains ("tns:" ++ t.name) = false) : Leads s (.structured t)
  /-- The base is no root, and is a name in the namespace of the dictionary that no structure
  has. -/
  | undefined {name : String} (hbase : s.baseType = some ("tns:" ++ name))
      (hroot : roots.contains ("tns:" ++ name) = false)
      (hnone : ∀ t ∈ d.structures, t.name ≠ name) : Leads s (.undefined ("tns:" ++ name))

/-- One step along a chain. -/
def Extends (s t : StructuredType) : Prop := d.Leads roots s (.structured t)

/-- The chain of base types of a structure ends, in a root (`true`) or outside the hierarchy
(`false`). -/
inductive ChainEnds : StructuredType → (isMember : Bool) → Prop
  /-- The base is a root. -/
  | root {s : StructuredType} (hs : d.Leads roots s .root) : ChainEnds s true
  /-- There is no base, or it is in another namespace. -/
  | outside {s : StructuredType} (hs : d.Leads roots s .outside) : ChainEnds s false
  /-- The base is a structure, whose chain ends. -/
  | step {s t : StructuredType} {isMember : Bool} (hs : d.Extends roots s t)
      (ht : ChainEnds t isMember) : ChainEnds s isMember

variable {d roots} {s t : StructuredType} {isMember : Bool}

/-! ### One step -/

theorem NamesDistinct.eq (hd : d.NamesDistinct) (hs : s ∈ d.structures) (ht : t ∈ d.structures)
    (h : s.name = t.name) : s = t :=
  List.inj_on_of_nodup_map hd hs ht h

theorem structure?_eq_none_iff {name : String} :
    d.structure? name = none ↔ ∀ t ∈ d.structures, t.name ≠ name := by
  simp [structure?]

theorem structure?_eq_some_iff (hd : d.NamesDistinct) {name : String} :
    d.structure? name = some t ↔ t ∈ d.structures ∧ t.name = name := by
  have hfound {t : StructuredType} (h : d.structure? name = some t) :
      t ∈ d.structures ∧ t.name = name :=
    ⟨List.mem_of_find?_eq_some h, by simpa using List.find?_some h⟩
  refine ⟨hfound, ?_⟩
  rintro ⟨ht, rfl⟩
  cases hfind : d.structure? t.name with
  | none => exact absurd rfl (structure?_eq_none_iff.1 hfind t ht)
  | some t' => rw [hd.eq (hfound hfind).1 ht (hfound hfind).2]

theorem leads_baseOf (hd : d.NamesDistinct) : d.Leads roots s (d.baseOf roots s) := by
  rw [baseOf]
  cases hbase : s.baseType with
  | none => exact .noBase hbase
  | some base =>
    cases hroot : roots.contains base with
    | true =>
      simp only [hroot, if_true]
      exact .root hbase hroot
    | false =>
      simp only [hroot, Bool.false_eq_true, if_false]
      cases hname : Naming.dropStart? "tns:" base with
      | none => exact .foreign hbase hroot (Naming.dropStart?_eq_none_iff.1 hname)
      | some name =>
        obtain rfl := Naming.dropStart?_eq_some_iff.1 hname
        cases hparent : d.structure? name with
        | none =>
          simp only [hparent]
          exact .undefined hbase hroot (structure?_eq_none_iff.1 hparent)
        | some parent =>
          obtain ⟨hmem, rfl⟩ := (structure?_eq_some_iff hd).1 hparent
          simp only [hparent]
          exact .structured hmem hbase hroot

/-- **Where a base leads.** -/
theorem baseOf_eq_iff (hd : d.NamesDistinct) {b : Base} :
    d.baseOf roots s = b ↔ d.Leads roots s b := by
  constructor
  · rintro rfl
    exact leads_baseOf hd
  · intro h
    cases h with
    | root hbase hroot => simp only [baseOf, hbase, hroot, if_true]
    | noBase hbase => simp only [baseOf, hbase]
    | foreign hbase hroot hforeign =>
      simp only [baseOf, hbase, hroot, Naming.dropStart?_eq_none_iff.2 hforeign,
        Bool.false_eq_true, if_false]
    | structured ht hbase hroot =>
      simp only [baseOf, hbase, hroot, Naming.dropStart?_eq_some_iff.2 rfl,
        (structure?_eq_some_iff hd).2 ⟨ht, rfl⟩, Bool.false_eq_true, if_false]
    | undefined hbase hroot hnone =>
      simp only [baseOf, hbase, hroot, Naming.dropStart?_eq_some_iff.2 rfl,
        structure?_eq_none_iff.2 hnone, Bool.false_eq_true, if_false]

theorem Leads.unique (hd : d.NamesDistinct) {b b' : Base} (h : d.Leads roots s b)
    (h' : d.Leads roots s b') : b = b' :=
  ((baseOf_eq_iff hd).2 h).symm.trans ((baseOf_eq_iff hd).2 h')

theorem Extends.mem (h : d.Extends roots s t) : t ∈ d.structures := by
  cases h
  assumption

theorem Extends.unique (hd : d.NamesDistinct) {t' : StructuredType} (h : d.Extends roots s t)
    (h' : d.Extends roots s t') : t = t' :=
  Base.structured.inj (Leads.unique hd h h')

/-! ### Ends -/

namespace ChainEnds

theorem of_extends (hd : d.NamesDistinct) (hs : d.ChainEnds roots s isMember)
    (hst : d.Extends roots s t) : d.ChainEnds roots t isMember := by
  cases hs with
  | root hs => cases hs.unique hd hst
  | outside hs => cases hs.unique hd hst
  | step hs ht => rwa [Extends.unique hd hst hs]

theorem of_reaches (hd : d.NamesDistinct) (hs : d.ChainEnds roots s isMember)
    (hst : ReflTransGen (d.Extends roots) s t) : d.ChainEnds roots t isMember := by
  induction hst with
  | refl => exact hs
  | tail _ hstep ih => exact ih.of_extends hd hstep

theorem unique (hd : d.NamesDistinct) {isMember' : Bool} (hs : d.ChainEnds roots s isMember)
    (hs' : d.ChainEnds roots s isMember') : isMember = isMember' := by
  induction hs with
  | root hs =>
    cases hs' with
    | root => rfl
    | outside hs' => cases hs.unique hd hs'
    | step hs' => cases hs.unique hd hs'
  | outside hs =>
    cases hs' with
    | root hs' => cases hs.unique hd hs'
    | outside => rfl
    | step hs' => cases hs.unique hd hs'
  | step hs _ ih => exact ih (hs'.of_extends hd hs)

/-- A chain that ends comes back to no structure. -/
theorem not_cycle (hd : d.NamesDistinct) (hs : d.ChainEnds roots s isMember) :
    ¬ TransGen (d.Extends roots) s s := by
  induction hs with
  | root hs =>
    intro hcycle
    obtain ⟨t, hst, -⟩ := TransGen.head'_iff.1 hcycle
    cases hs.unique hd hst
  | outside hs =>
    intro hcycle
    obtain ⟨t, hst, -⟩ := TransGen.head'_iff.1 hcycle
    cases hs.unique hd hst
  | step hs _ ih =>
    -- a cycle through a structure also goes through the one it extends
    intro hcycle
    obtain ⟨t, hst, hback⟩ := TransGen.head'_iff.1 hcycle
    obtain rfl := Extends.unique hd hs hst
    exact ih (TransGen.tail' hback hs)

theorem not_undefined (hd : d.NamesDistinct) {base : String}
    (hs : d.ChainEnds roots s isMember) : ¬ d.Leads roots s (.undefined base) := by
  intro hundefined
  cases hs with
  | root hs => cases hs.unique hd hundefined
  | outside hs => cases hs.unique hd hundefined
  | step hs => cases Leads.unique hd hs hundefined

theorem mono {d' : Dictionary} (hsub : d.structures ⊆ d'.structures)
    (hs : d.ChainEnds roots s isMember) : d'.ChainEnds roots s isMember := by
  induction hs with
  | root hs =>
    cases hs with
    | root hbase hroot => exact .root (.root hbase hroot)
  | outside hs =>
    cases hs with
    | noBase hbase => exact .outside (.noBase hbase)
    | foreign hbase hroot hforeign => exact .outside (.foreign hbase hroot hforeign)
  | step hs _ ih =>
    cases hs with
    | structured ht hbase hroot => exact .step (.structured (hsub ht) hbase hroot) ih

end ChainEnds

/-! ### Following a chain -/

/-- A structure to blame for a chain that does not end, and the error that says so. -/
inductive Blames (d : Dictionary) (roots : HierarchyRoots) (s : StructuredType) :
    GenerateError → Prop
  /-- The structure is on a cycle. -/
  | cycle (h : TransGen (d.Extends roots) s s) : Blames d roots s (.baseCycle s.name)
  /-- The base of the structure is not defined. -/
  | undefined {base : String} (h : d.Leads roots s (.undefined base)) :
      Blames d roots s (.unresolvedBase s.name base)

/-- No structure on a chain that ends is to blame. -/
theorem Blames.not_chainEnds (hd : d.NamesDistinct) {e : GenerateError}
    (h : d.Blames roots s e) : ¬ d.ChainEnds roots s isMember := by
  intro hs
  cases h with
  | cycle h => exact hs.not_cycle hd h
  | undefined h => exact hs.not_undefined hd h

/-- What is known is right: chains that have been resolved end as noted, and the structures being
visited are those on the way `path`. -/
structure Memo.Sound (d : Dictionary) (roots : HierarchyRoots) (memo : Memo)
    (path : List StructuredType) : Prop where
  /-- The end noted for a chain is its end. -/
  resolved : ∀ s ∈ d.structures, ∀ isMember, memo.lookup s.name = some (.resolved isMember) →
    d.ChainEnds roots s isMember
  /-- Nothing else is being visited. -/
  visiting : ∀ s ∈ d.structures, memo.lookup s.name = some .visiting ↔ s ∈ path

namespace Memo.Sound

variable {memo : Memo} {path : List StructuredType}

theorem nil : Memo.Sound d roots [] [] where
  resolved := nofun
  visiting _ _ := ⟨nofun, nofun⟩

theorem lookup_cons_of_ne {l : List (String × Membership)} {n m : String} {b : Membership}
    (h : m ≠ n) : ((n, b) :: l).lookup m = l.lookup m := by
  rw [List.lookup_cons, beq_eq_false_iff_ne.2 h]

theorem visit (hd : d.NamesDistinct) (hmemo : Memo.Sound d roots memo path)
    (hs : s ∈ d.structures) : Memo.Sound d roots ((s.name, .visiting) :: memo) (s :: path) where
  resolved t ht b h := by
    by_cases hname : t.name = s.name
    · rw [hname, List.lookup_cons_self] at h
      cases h
    · rw [lookup_cons_of_ne hname] at h
      exact hmemo.resolved t ht b h
  visiting t ht := by
    by_cases hname : t.name = s.name
    · rw [hname, List.lookup_cons_self, hd.eq ht hs hname]
      simp
    · have hne : t ≠ s := fun heq => hname (congrArg _ heq)
      rw [lookup_cons_of_ne hname, hmemo.visiting t ht, List.mem_cons, or_iff_right hne]

theorem resolve (hd : d.NamesDistinct) (hmemo : Memo.Sound d roots memo (s :: path))
    (hs : s ∈ d.structures) (hpath : s ∉ path) (hends : d.ChainEnds roots s isMember) :
    Memo.Sound d roots ((s.name, .resolved isMember) :: memo) path where
  resolved t ht b h := by
    by_cases hname : t.name = s.name
    · rw [hname, List.lookup_cons_self] at h
      cases h
      rwa [hd.eq ht hs hname]
    · rw [lookup_cons_of_ne hname] at h
      exact hmemo.resolved t ht b h
  visiting t ht := by
    by_cases hname : t.name = s.name
    · rw [hname, List.lookup_cons_self, hd.eq ht hs hname]
      simp [hpath]
    · have hne : t ≠ s := fun heq => hname (congrArg _ heq)
      rw [lookup_cons_of_ne hname, hmemo.visiting t ht, List.mem_cons, or_iff_right hne]

end Memo.Sound

/-- **Following a chain.** From a structure to which the way `path` has led, either the end of its
chain is found, and what is known stays right, or a structure further down is to blame. -/
theorem followBases_spec (hd : d.NamesDistinct) {steps : Nat} {memo : Memo}
    {path : List StructuredType} (hmemo : Memo.Sound d roots memo path) (hs : s ∈ d.structures)
    (hpath : ∀ t ∈ path, t ∈ d.structures ∧ TransGen (d.Extends roots) t s) (hnodup : path.Nodup)
    (hsteps : d.structures.length < steps + path.length) :
    (∃ isMember memo', d.followBases roots steps memo s = .ok (isMember, memo') ∧
        d.ChainEnds roots s isMember ∧ Memo.Sound d roots memo' path) ∨
      ∃ e, d.followBases roots steps memo s = .error e ∧
        ∃ t ∈ d.structures, ReflTransGen (d.Extends roots) s t ∧ d.Blames roots t e := by
  induction steps generalizing memo path s with
  | zero =>
    -- the way would have more structures than there are
    have hle := (hnodup.subperm fun t ht => (hpath t ht).1).length_le
    omega
  | succ steps ih =>
    rw [followBases]
    cases hknown : memo.lookup s.name with
    | some known =>
      cases known with
      | resolved isMember =>
        exact .inl ⟨isMember, memo, rfl, hmemo.resolved s hs isMember hknown, hmemo⟩
      | visiting =>
        have hcycle := (hpath s ((hmemo.visiting s hs).1 hknown)).2
        exact .inr ⟨_, rfl, s, hs, .refl, .cycle hcycle⟩
    | none =>
      have hfresh : s ∉ path := by
        intro hmem
        rw [(hmemo.visiting s hs).2 hmem] at hknown
        cases hknown
      have hvisit := hmemo.visit hd hs
      cases hbase : d.baseOf roots s with
      | root =>
        have hends := ChainEnds.root ((baseOf_eq_iff hd).1 hbase)
        exact .inl ⟨_, _, rfl, hends, hvisit.resolve hd hs hfresh hends⟩
      | outside =>
        have hends := ChainEnds.outside ((baseOf_eq_iff hd).1 hbase)
        exact .inl ⟨_, _, rfl, hends, hvisit.resolve hd hs hfresh hends⟩
      | undefined base =>
        exact .inr ⟨_, rfl, s, hs, .refl, .undefined ((baseOf_eq_iff hd).1 hbase)⟩
      | structured parent =>
        have hstep : d.Extends roots s parent := (baseOf_eq_iff hd).1 hbase
        have hway : ∀ t ∈ s :: path, t ∈ d.structures ∧ TransGen (d.Extends roots) t parent := by
          intro t ht
          rcases List.mem_cons.1 ht with rfl | ht
          · exact ⟨hs, .single hstep⟩
          · exact ⟨(hpath t ht).1, (hpath t ht).2.tail hstep⟩
        rcases ih hvisit hstep.mem hway (List.nodup_cons.2 ⟨hfresh, hnodup⟩)
          (by rw [List.length_cons]; omega) with
          ⟨isMember, memo', hfollow, hends, hmemo'⟩ | ⟨e, hfollow, t, ht, hreach, hblame⟩
        · have hends := ChainEnds.step hstep hends
          refine .inl ⟨isMember, _, ?_, hends, hmemo'.resolve hd hs hfresh hends⟩
          simp only [hfollow]
          rfl
        · refine .inr ⟨e, ?_, t, ht, hreach.head hstep, hblame⟩
          simp only [hfollow]
          rfl

/-- **Following all chains.** Either all of them end, and the members are those that end in a root,
or a structure is to blame. -/
theorem membersAmong_spec (hd : d.NamesDistinct) {memo : Memo} {structures : List StructuredType}
    (hsub : structures ⊆ d.structures) (hmemo : Memo.Sound d roots memo []) :
    (∃ members, d.membersAmong roots memo structures = .ok members ∧
        members.Sublist structures ∧ ∀ s ∈ structures,
          (∃ isMember, d.ChainEnds roots s isMember) ∧
            (s ∈ members ↔ d.ChainEnds roots s true)) ∨
      ∃ e, d.membersAmong roots memo structures = .error e ∧
        ∃ t ∈ d.structures, d.Blames roots t e := by
  induction structures generalizing memo with
  | nil => exact .inl ⟨[], rfl, .slnil, nofun⟩
  | cons s rest ih =>
    obtain ⟨hs, hrest⟩ := List.cons_subset.1 hsub
    rw [membersAmong]
    rcases d.followBases_spec hd hmemo hs nofun .nil (Nat.lt_succ_self _) with
      ⟨isMember, memo', hfollow, hends, hmemo'⟩ | ⟨e, hfollow, t, ht, -, hblame⟩
    · rcases ih hrest hmemo' with ⟨others, hothers, hsublist, hmem⟩ | ⟨e, hothers, hblame⟩
      · refine .inl ⟨if isMember then s :: others else others, ?_, ?_, ?_⟩
        · exact bind_eq_ok_iff.2 ⟨_, hfollow, bind_eq_ok_iff.2 ⟨others, hothers, rfl⟩⟩
        · cases isMember with
          | true => exact hsublist.cons_cons s
          | false => exact hsublist.cons s
        · intro t ht
          cases isMember with
          | true =>
            rcases List.mem_cons.1 ht with rfl | ht
            · exact ⟨⟨true, hends⟩, fun _ => hends, fun _ => List.mem_cons_self⟩
            · refine ⟨(hmem t ht).1, ?_⟩
              rw [if_pos rfl, List.mem_cons, (hmem t ht).2]
              exact or_iff_right_of_imp fun heq => heq ▸ hends
          | false =>
            rcases List.mem_cons.1 ht with rfl | ht
            · refine ⟨⟨false, hends⟩, fun hother => ?_, fun htrue => ?_⟩
              · exact (hmem t (hsublist.subset hother)).2.1 hother
              · cases htrue.unique hd hends
            · exact hmem t ht
      · exact .inr ⟨e, bind_eq_error_iff.2 (.inr ⟨_, hfollow, bind_eq_error_iff.2 (.inl hothers)⟩),
          hblame⟩
    · exact .inr ⟨e, bind_eq_error_iff.2 (.inl hfollow), t, ht, hblame⟩

end Dictionary

end OpcWire
