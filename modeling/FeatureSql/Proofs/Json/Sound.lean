import FeatureSql.Proofs.Json.Double
import FeatureSql.Proofs.Json.Exact

/-! A value that was read from a text is written as a text that is read again: as the same value, but
for numbers that are not read exactly. -/

set_option autoImplicit false

namespace FeatureSql.Json

open Reader (Yields)

/-- What was read at a depth is legible once its keys are settled. -/
def Settles (depth : Nat) (json : Json) : Prop := IsLegibleAt depth json.settle

section Parts
variable {items : List Json} {members : List (String × Json)}

/-- Settled members hold values that were there before. -/
theorem mem_settleMembers {member : String × Json} (h : member ∈ settleMembers members) :
    ∃ before ∈ members, member.2 = before.2.settle := by
  induction members generalizing member with
  | nil => exact absurd h List.not_mem_nil
  | cons first members ih =>
    have hrest : ∀ m ∈ settleMembers members,
        ∃ before ∈ first :: members, m.2 = before.2.settle := by
      intro m hm
      obtain ⟨before, hbefore, hsettle⟩ := ih hm
      exact ⟨before, List.mem_cons_of_mem first hbefore, hsettle⟩
    rw [settleMembers, List.mem_cons] at h
    rcases h with rfl | h
    · cases hlookup : (settleMembers members).lookup first.1 with
      | none => exact ⟨first, List.mem_cons_self, rfl⟩
      | some value =>
        obtain ⟨front, back, hsplit, _⟩ := List.lookup_eq_some_iff.mp hlookup
        exact hrest (first.1, value) (by simp [hsplit])
    · exact hrest member (List.mem_filter.mp h).1

variable {depth : Nat}

theorem Settles.arr (h : ∀ item ∈ items, Settles depth item) :
    Settles (depth + 1) (.arr items) := by
  rw [Settles, settle, settleItems_eq_map]
  exact .arr (List.forall_mem_map.mpr h)

theorem Settles.obj (h : ∀ member ∈ members, Settles depth member.2) :
    Settles (depth + 1) (.obj members) := by
  refine NestedOver.obj (nodup_settleMembers members) fun member hmember => ?_
  obtain ⟨before, hbefore, hsettle⟩ := mem_settleMembers hmember
  exact hsettle ▸ h before hbefore

end Parts

theorem numberReader_yields (depth : Nat) :
    Yields (fun value => Settles depth (.number value)) numberReader := by
  refine Yields.andThen fun n => ?_
  cases hvalue : numberOf? n with
  | none => exact Yields.failure
  | some value => exact Yields.of_pure (.number depth (isLegible_of_numberOf? hvalue))

theorem scalar_yields (depth : Nat) : Yields (Settles depth) scalar := by
  have hword : ∀ {json : Json} (chars : String), Settles depth json →
      Yields (Settles depth) (do word chars; pure json) :=
    fun chars h => Yields.andThen fun _ => Yields.of_pure h
  have hbool : ∀ value, Settles depth (.bool value) := fun value => .bool depth value
  have hnull : Settles depth .null := .null depth
  refine (hword "null" hnull).orElse ((hword "true" (hbool true)).orElse ?_)
  refine (hword "false" (hbool false)).orElse (Yields.orElse ?_ ?_)
  · exact Yields.map ((Yields.trivially stringReader).weaken fun value _ => .str depth value)
  · exact Yields.map (numberReader_yields depth)

theorem bracketed_yields {α : Type} {P : α → Prop} {part : Reader α} (opening closing : Char)
    (h : Yields P part) : Yields (fun parts => ∀ part ∈ parts, P part)
      (bracketed opening closing part) := by
  have hparts : Yields (fun parts => ∀ part ∈ parts, P part)
      (Reader.separated (punctuation ',') (token part) <|> pure []) :=
    (h.after.separated.weaken fun _ hparts => hparts.2).orElse (Yields.of_pure (by simp))
  exact Yields.andThen fun _ => hparts.bind fun parts hparts => Yields.andThen fun _ =>
    Yields.of_pure hparts

theorem nested_yields {depth : Nat} {inner : Reader Json} (h : Yields (Settles depth) inner) :
    Yields (Settles (depth + 1)) (nested inner) := by
  have hmember : Yields (fun member : String × Json => Settles depth member.2)
      (memberReader inner) :=
    Yields.andThen fun _ => Yields.andThen fun _ => h.after.bind fun _ hvalue =>
      Yields.of_pure hvalue
  refine Yields.orElse (Yields.map ?_) (Yields.map ?_)
  · exact (bracketed_yields '[' ']' h).weaken fun _ => Settles.arr
  · exact (bracketed_yields '\x7b' '\x7d' hmember).weaken fun _ => Settles.obj

theorem readerAt_yields (depth : Nat) : Yields (Settles depth) (readerAt depth) := by
  induction depth with
  | zero => exact scalar_yields 0
  | succ depth ih => exact (scalar_yields (depth + 1)).orElse (nested_yields ih)

theorem isLegibleAt_of_parse? {text : String} {json : Json} (h : parse? text = some json) :
    IsLegibleAt maxDepth json := by
  obtain ⟨raw, hraw, rfl⟩ := Option.map_eq_some_iff.mp h
  obtain ⟨⟨_, left⟩, hread, rfl⟩ := Option.map_eq_some_iff.mp hraw
  have hwhole : Yields (Settles maxDepth)
      (do let json ← token (readerAt maxDepth); token Reader.atEnd; pure json) :=
    (readerAt_yields maxDepth).after.bind fun _ hjson => Yields.andThen fun _ =>
      Yields.of_pure hjson
  exact hwhole _ _ _ hread

/-- Whatever a text stands for is read again from its compact text, number by number. -/
theorem parse?_compact_of_parse? {text : String} {json : Json} (h : parse? text = some json) :
    parse? json.compact = some json.reread :=
  parse?_compact_reread (isLegibleAt_of_parse? h)

/-- The number need not be the same. -/
example : (parse? "8.985012716781238e-8").map compact = some "8.985012716781239e-8" := by
  decide +kernel

end FeatureSql.Json
