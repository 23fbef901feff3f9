import Mathlib.Data.Fintype.Card
import Mathlib.Data.Set.Finite.Lattice
import Mathlib.Logic.Relation
import OpcWire.Proofs.Generator.Definitions
import OpcWire.Proofs.Wire.Written

/-!
# When zero values are written

The zero value of a structure is written in `levels + 1` levels exactly when those of all
structures it refers to are written in `levels` (`GeneratedTypes.isWritten_succ_iff`). So it is
written at some level if and only if the structure is accessible, that is, if every way along
references ends (`GeneratedTypes.exists_isWritten_iff_acc`). There are finitely many structures,
and so this means that no way leads into a cycle (`acc_iff_forall_not_cycle`), and as many levels as
there are structures will do (`GeneratedTypes.isWritten_length`).
-/

namespace OpcWire

open Relation (ReflTransGen TransGen)

/-! ### Ways along a relation -/

section

variable {α : Type} {r : α → α → Prop} {a b : α}

/-- No way leads from an accessible point into a cycle. -/
theorem not_cycle_of_acc (h : Acc (Function.swap r) a) (hab : ReflTransGen r a b) :
    ¬ TransGen r b b := by
  induction h with
  | intro a _ ih =>
    intro hcycle
    -- the way to the cycle, or the cycle itself, starts with a step, behind which `ih` applies
    rcases ReflTransGen.cases_head hab with rfl | ⟨c, hac, hcb⟩
    · obtain ⟨c, hac, hca⟩ := TransGen.head'_iff.1 hcycle
      exact ih c hac hca hcycle
    · exact ih c hac hcb hcycle

/-- With finitely many points to go to, a way that meets no cycle ends. -/
theorem acc_of_forall_not_cycle {l : List α} (hl : ∀ b c, r b c → c ∈ l)
    (h : ∀ b, ReflTransGen r a b → ¬ TransGen r b b) : Acc (Function.swap r) a := by
  let reached : Set α := {b | ReflTransGen r a b}
  have hsubset : reached ⊆ {b | b ∈ a :: l} := by
    intro b hb
    rcases ReflTransGen.cases_tail hb with rfl | ⟨c, -, hcb⟩
    · exact List.mem_cons_self
    · exact List.mem_cons_of_mem _ (hl c b hcb)
  -- on what is reached, being further down the way is a strict order, and so it is well-founded
  have : Finite reached := ((List.finite_toSet (a :: l)).subset hsubset).to_subtype
  let above : reached → reached → Prop := fun b c => TransGen r c b
  have : IsTrans reached above := ⟨fun _ _ _ hbc hcd => hcd.trans hbc⟩
  have : Std.Irrefl above := ⟨fun b => h b b.2⟩
  have hwf : WellFounded above := Finite.wellFounded_of_trans_of_irrefl above
  have hacc (b : reached) : Acc (Function.swap r) b.1 := by
    induction b using hwf.induction with
    | _ b ih =>
      refine ⟨_, fun c (hbc : r b c) => ?_⟩
      have hc : ReflTransGen r a c := b.2.tail hbc
      exact ih ⟨c, hc⟩ (.single hbc)
  exact hacc ⟨a, .refl⟩

/-- **Every way ends if and only if none meets a cycle.** -/
theorem acc_iff_forall_not_cycle {l : List α} (hl : ∀ b c, r b c → c ∈ l) :
    Acc (Function.swap r) a ↔ ∀ b, ReflTransGen r a b → ¬ TransGen r b b :=
  ⟨fun h _ hab => not_cycle_of_acc h hab, acc_of_forall_not_cycle hl⟩

end

/-! ### Fields -/

/-- The levels were enough, and nothing failed. -/
def IsWritten (e : Option Encoding) : Prop := ∃ bytes, e = some (.ofBytes bytes)

theorem not_isWritten_none : ¬ IsWritten none := nofun

theorem Builtin.isWritten_zero (b : Builtin) :
    IsWritten (some (WireType.scalar b.scalar).zeroEncoding) := by
  cases b <;> exact ⟨_, rfl⟩

namespace FieldType

variable {t : FieldType} {n : String} {named named' : String → Option Encoding}

theorem zeroEncoding?_of_target (h : t.target? = some n) : t.zeroEncoding? named = named n := by
  cases t <;> cases h <;> rfl

/-- No name is looked up. -/
theorem zeroEncoding?_of_no_target (h : t.target? = none) :
    t.zeroEncoding? named = t.zeroEncoding? named' := by
  cases t <;> first | rfl | cases h

theorem isWritten_of_no_target (h : t.target? = none) : IsWritten (t.zeroEncoding? named) := by
  cases t with
  | builtin b => exact b.isWritten_zero
  | enumeration name => cases h
  | reference name => cases h
  | sequence item => exact ⟨_, rfl⟩

theorem isWritten_knownWireTypes {w : WireType} (h : knownWireTypes.lookup n = some w) :
    IsWritten (some w.zeroEncoding) := by
  have hall : ∀ known ∈ knownWireTypes, known.2.zeroEncoding.failure = none := by decide
  have hmem : (n, w) ∈ knownWireTypes := by
    obtain ⟨front, back, hlist, -⟩ := List.lookup_eq_some_iff.1 h
    rw [hlist]
    exact List.mem_append_right _ List.mem_cons_self
  refine ⟨w.zeroEncoding.bytes, congrArg some ?_⟩
  exact congrArg (Encoding.mk _) (hall _ hmem)

end FieldType

namespace Definition

variable {named named' : String → Option Encoding} {owner : String} {fields : List Field}

theorem isWritten_zeroFields_iff : IsWritten (zeroFields? named owner fields) ↔
    ∀ f ∈ fields, IsWritten (f.type.zeroEncoding? named) := by
  induction fields with
  | nil => exact ⟨fun _ => nofun, fun _ => ⟨[], rfl⟩⟩
  | cons f rest ih =>
    rw [List.forall_mem_cons, ← ih]
    constructor
    · rintro ⟨bytes, h⟩
      obtain ⟨first, hfirst, h⟩ := Option.bind_eq_some_iff.1 h
      obtain ⟨others, hothers, h⟩ := Option.bind_eq_some_iff.1 h
      obtain ⟨as, bs, has, hbs, -⟩ := Encoding.append_eq_ofBytes_iff.1 (Option.some.inj h)
      rw [Encoding.inField_eq_ofBytes_iff] at has
      exact ⟨⟨as, has ▸ hfirst⟩, ⟨bs, hbs ▸ hothers⟩⟩
    · rintro ⟨⟨as, has⟩, ⟨bs, hbs⟩⟩
      refine ⟨as ++ bs, ?_⟩
      rw [zeroFields?, has, hbs]
      rfl

theorem exists_of_zeroFields {e : Encoding} (h : zeroFields? named owner fields = some e) :
    ∀ f ∈ fields, ∃ e', f.type.zeroEncoding? named = some e' := by
  induction fields generalizing e with
  | nil => exact nofun
  | cons f rest ih =>
    obtain ⟨first, hfirst, h⟩ := Option.bind_eq_some_iff.1 h
    obtain ⟨others, hothers, -⟩ := Option.bind_eq_some_iff.1 h
    exact List.forall_mem_cons.2 ⟨⟨first, hfirst⟩, ih hothers⟩

theorem zeroFields?_mono (h : ∀ n e, named n = some e → named' n = some e) {e : Encoding}
    (hfields : zeroFields? named owner fields = some e) :
    zeroFields? named' owner fields = some e := by
  induction fields generalizing e with
  | nil => exact hfields
  | cons f rest ih =>
    obtain ⟨first, hfirst, hfields⟩ := Option.bind_eq_some_iff.1 hfields
    obtain ⟨others, hothers, hfields⟩ := Option.bind_eq_some_iff.1 hfields
    have hfirst' : f.type.zeroEncoding? named' = some first := by
      cases htarget : f.type.target? with
      | none => exact (FieldType.zeroEncoding?_of_no_target htarget).trans hfirst
      | some n =>
        rw [FieldType.zeroEncoding?_of_target htarget] at hfirst ⊢
        exact h n first hfirst
    rw [zeroFields?, hfirst', ih hothers]
    exact hfields

end Definition

/-! ### Structures -/

namespace GeneratedTypes

variable {g : GeneratedTypes} {a b : Definition} {levels : Nat} {e : Encoding}

theorem isWritten_plainEncoding {n : String} (h : g.plainEncoding? n = some e) :
    IsWritten (some e) := by
  rw [plainEncoding?] at h
  cases hfind : g.enumerations.find? (·.name == n) with
  | some enumerated =>
    simp only [hfind] at h
    cases h
    exact ⟨_, rfl⟩
  | none =>
    simp only [hfind] at h
    obtain ⟨w, hw, rfl⟩ := Option.map_eq_some_iff.1 h
    exact FieldType.isWritten_knownWireTypes hw

theorem Closed.object?_name (hg : g.Closed) (hb : b ∈ g.objects) :
    g.object? b.name = some b := by
  cases hfind : g.object? b.name with
  | none => exact absurd (List.find?_eq_none.1 hfind b hb) (by simp)
  | some c =>
    have hname : c.name = b.name := by simpa using List.find?_some hfind
    have hc : c ∈ g.objects := List.mem_of_find?_eq_some hfind
    rw [List.inj_on_of_nodup_map hg.nodup hc hb hname]

theorem zeroEncoding?_succ_of_eq_some (h : g.zeroEncoding? levels a = some e) :
    g.zeroEncoding? (levels + 1) a = some e := by
  induction levels generalizing a e with
  | zero => cases h
  | succ levels ih =>
    rw [zeroEncoding?_succ] at h ⊢
    refine Definition.zeroFields?_mono (fun n e hn => ?_) h
    rw [namedZeroEncoding?] at hn ⊢
    cases hobject : g.object? n with
    | some inner =>
      simp only [hobject] at hn ⊢
      exact ih hn
    | none =>
      simp only [hobject] at hn ⊢
      exact hn

/-- Nothing fails in a zero value, so that it is written as soon as the levels are enough. -/
theorem isWritten_of_eq_some (h : g.zeroEncoding? levels a = some e) :
    IsWritten (g.zeroEncoding? levels a) := by
  induction levels generalizing a e with
  | zero => cases h
  | succ levels ih =>
    rw [zeroEncoding?_succ] at h ⊢
    refine Definition.isWritten_zeroFields_iff.2 fun f hf => ?_
    obtain ⟨e', he'⟩ := Definition.exists_of_zeroFields h f hf
    cases htarget : f.type.target? with
    | none => exact FieldType.isWritten_of_no_target htarget
    | some n =>
      rw [FieldType.zeroEncoding?_of_target htarget, namedZeroEncoding?] at he' ⊢
      cases hobject : g.object? n with
      | some inner =>
        simp only [hobject] at he' ⊢
        exact ih he'
      | none =>
        simp only [hobject] at he' ⊢
        rw [he']
        exact isWritten_plainEncoding he'

theorem zeroEncoding?_eq_none (h : ¬ IsWritten (g.zeroEncoding? levels a)) :
    g.zeroEncoding? levels a = none :=
  Option.eq_none_iff_forall_ne_some.2 fun _ he => h (isWritten_of_eq_some he)

theorem zeroEncoding?_mono {levels' : Nat} (hle : levels ≤ levels')
    (h : g.zeroEncoding? levels a = some e) : g.zeroEncoding? levels' a = some e := by
  induction hle with
  | refl => exact h
  | step _ ih => exact zeroEncoding?_succ_of_eq_some ih

theorem isWritten_mono {levels' : Nat} (hle : levels ≤ levels')
    (h : IsWritten (g.zeroEncoding? levels a)) : IsWritten (g.zeroEncoding? levels' a) := by
  obtain ⟨bytes, hbytes⟩ := h
  exact ⟨bytes, zeroEncoding?_mono hle hbytes⟩

/-- **One level.** A structure is written if those it refers to are, one level further inside. -/
theorem isWritten_succ_iff (hg : g.Closed) (ha : a ∈ g.objects) :
    IsWritten (g.zeroEncoding? (levels + 1) a) ↔
      ∀ b, g.Refers a b → IsWritten (g.zeroEncoding? levels b) := by
  rw [zeroEncoding?_succ, Definition.isWritten_zeroFields_iff]
  constructor
  · rintro h b ⟨-, hb, f, hf, htarget⟩
    have hwritten := h f hf
    rw [FieldType.zeroEncoding?_of_target htarget, namedZeroEncoding?,
      hg.object?_name hb] at hwritten
    exact hwritten
  · intro h f hf
    cases htarget : f.type.target? with
    | none => exact FieldType.isWritten_of_no_target htarget
    | some n =>
      rw [FieldType.zeroEncoding?_of_target htarget, namedZeroEncoding?]
      rcases hg.resolves a ha f hf n htarget with hname | ⟨e, he⟩
      · obtain ⟨b, hb, rfl⟩ := List.mem_map.1 hname
        rw [hg.object?_name hb]
        exact h b ⟨ha, hb, f, hf, htarget⟩
      · cases hobject : g.object? n with
        | none =>
          simp only [he]
          exact isWritten_plainEncoding he
        | some b =>
          -- a structure of the same name stands before the type that is known beforehand
          have hname : b.name = n := by simpa using List.find?_some hobject
          have hb : b ∈ g.objects := List.mem_of_find?_eq_some hobject
          exact h b ⟨ha, hb, f, hf, by rw [htarget, hname]⟩

/-- Levels that are enough for each of some structures are bounded by levels enough for all. -/
theorem exists_common_levels {P : Definition → Prop} {objects : List Definition}
    (h : ∀ b ∈ objects, P b → ∃ levels, IsWritten (g.zeroEncoding? levels b)) :
    ∃ levels, ∀ b ∈ objects, P b → IsWritten (g.zeroEncoding? levels b) := by
  induction objects with
  | nil => exact ⟨0, nofun⟩
  | cons b rest ih =>
    obtain ⟨hb, hrest⟩ := List.forall_mem_cons.1 h
    obtain ⟨levels, hlevels⟩ := ih hrest
    by_cases hP : P b
    · obtain ⟨levels', hlevels'⟩ := hb hP
      refine ⟨max levels levels', List.forall_mem_cons.2 ⟨fun _ => ?_, fun c hc hPc => ?_⟩⟩
      · exact isWritten_mono (Nat.le_max_right _ _) hlevels'
      · exact isWritten_mono (Nat.le_max_left _ _) (hlevels c hc hPc)
    · exact ⟨levels, List.forall_mem_cons.2 ⟨fun hPb => absurd hPb hP, hlevels⟩⟩

/-- **A zero value is written if and only if every way along references ends.** -/
theorem exists_isWritten_iff_acc (hg : g.Closed) (ha : a ∈ g.objects) :
    (∃ levels, IsWritten (g.zeroEncoding? levels a)) ↔ Acc (Function.swap g.Refers) a := by
  constructor
  · rintro ⟨levels, h⟩
    induction levels generalizing a with
    | zero => exact absurd h not_isWritten_none
    | succ levels ih =>
      refine ⟨_, fun b (hab : g.Refers a b) => ?_⟩
      exact ih hab.2.1 ((isWritten_succ_iff hg ha).1 h b hab)
  · intro hacc
    induction hacc with
    | intro a _ ih =>
      have hinner : ∀ b ∈ g.objects, g.Refers a b →
          ∃ levels, IsWritten (g.zeroEncoding? levels b) := fun b hb hab => ih b hab hb
      obtain ⟨levels, hlevels⟩ := exists_common_levels hinner
      exact ⟨levels + 1, (isWritten_succ_iff hg ha).2 fun b hab => hlevels b hab.2.1 hab⟩

/-! ### As many levels as there are structures -/

/-- The structures whose zero values are written in a number of levels. -/
def writtenWithin (g : GeneratedTypes) (levels : Nat) : Finset Definition :=
  g.objects.toFinset.filter fun a => (g.zeroEncoding? levels a).isSome

theorem mem_writtenWithin_iff :
    a ∈ g.writtenWithin levels ↔ a ∈ g.objects ∧ IsWritten (g.zeroEncoding? levels a) := by
  rw [writtenWithin, Finset.mem_filter, List.mem_toFinset]
  refine and_congr_right fun _ => ?_
  constructor
  · intro h
    obtain ⟨e, he⟩ := Option.isSome_iff_exists.1 h
    exact isWritten_of_eq_some he
  · rintro ⟨bytes, hbytes⟩
    rw [hbytes]
    rfl

/-- What takes one level more than before refers to something that does, one level inside. -/
theorem exists_newly_written (hg : g.Closed) (ha : a ∈ g.objects)
    (h : IsWritten (g.zeroEncoding? (levels + 2) a))
    (hnot : ¬ IsWritten (g.zeroEncoding? (levels + 1) a)) :
    ∃ b ∈ g.objects, IsWritten (g.zeroEncoding? (levels + 1) b) ∧
      ¬ IsWritten (g.zeroEncoding? levels b) := by
  -- if all that `a` refers to took one level less, so would `a`
  by_contra hnone
  refine hnot ((isWritten_succ_iff hg ha).2 fun b hab => ?_)
  by_contra hb
  exact hnone ⟨b, hab.2.1, (isWritten_succ_iff hg ha).1 h b hab, hb⟩

/-- As long as a level still adds structures, at least as many are written as there are levels. -/
theorem succ_le_card_writtenWithin (hg : g.Closed)
    (h : ∃ a ∈ g.objects, IsWritten (g.zeroEncoding? (levels + 1) a) ∧
      ¬ IsWritten (g.zeroEncoding? levels a)) :
    levels + 1 ≤ (g.writtenWithin (levels + 1)).card := by
  induction levels with
  | zero =>
    obtain ⟨a, ha, hwritten, -⟩ := h
    exact Finset.card_pos.2 ⟨a, mem_writtenWithin_iff.2 ⟨ha, hwritten⟩⟩
  | succ levels ih =>
    obtain ⟨a, ha, hwritten, hnot⟩ := h
    have hbefore := ih (exists_newly_written hg ha hwritten hnot)
    have hsubset : g.writtenWithin (levels + 1) ⊆ g.writtenWithin (levels + 2) := by
      intro b hb
      obtain ⟨hmem, hb⟩ := mem_writtenWithin_iff.1 hb
      exact mem_writtenWithin_iff.2 ⟨hmem, isWritten_mono (Nat.le_succ _) hb⟩
    have hnew : a ∈ g.writtenWithin (levels + 2) := mem_writtenWithin_iff.2 ⟨ha, hwritten⟩
    have hold : a ∉ g.writtenWithin (levels + 1) := fun hmem =>
      hnot (mem_writtenWithin_iff.1 hmem).2
    have hlt := Finset.card_lt_card ((Finset.ssubset_iff_of_subset hsubset).2 ⟨a, hnew, hold⟩)
    exact Nat.succ_le_of_lt (hbefore.trans_lt hlt)

/-- **As many levels as there are structures are enough**, if any number is. -/
theorem isWritten_length (hg : g.Closed) (ha : a ∈ g.objects)
    (h : IsWritten (g.zeroEncoding? levels a)) :
    IsWritten (g.zeroEncoding? g.objects.length a) := by
  induction levels with
  | zero => exact absurd h not_isWritten_none
  | succ levels ih =>
    by_cases hbefore : IsWritten (g.zeroEncoding? levels a)
    · exact ih hbefore
    · have hcard := succ_le_card_writtenWithin hg ⟨a, ha, h, hbefore⟩
      have hall : (g.writtenWithin (levels + 1)).card ≤ g.objects.length :=
        (Finset.card_filter_le _ _).trans g.objects.toFinset_card_le
      exact isWritten_mono (hcard.trans hall) h

end GeneratedTypes

end OpcWire
