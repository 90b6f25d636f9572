import FeatureSql.Proofs.Lexeme
import FeatureSql.Sql.Expr.Render

/-! Lists whose parts are written between commas, read back part by part. -/

set_option autoImplicit false

namespace FeatureSql.Sql

theorem length_le_commas {part : String} {parts : List String} (h : part ∈ parts) :
    part.toList.length ≤ (commas parts).toList.length := by
  have htail : ∀ parts : List String, part ∈ parts →
      part.toList.length ≤ (Reader.markedTail ", " parts).length := by
    intro parts
    induction parts with
    | nil =>
      intro h
      exact absurd h List.not_mem_nil
    | cons p parts ih =>
      intro h
      rw [Reader.markedTail_cons, List.length_append, List.length_append]
      rcases List.mem_cons.mp h with rfl | h
      · omega
      · have := ih h
        omega
  cases parts with
  | nil => exact absurd h List.not_mem_nil
  | cons p parts =>
    rw [commas, Reader.intercalate_cons, List.length_append]
    rcases List.mem_cons.mp h with rfl | h
    · omega
    · have := htail parts h
      omega

section Separated
variable {α β : Type} {reader : Reader α} {write : β → String} {value : β → α}
variable {follows : List Char → Prop} {text : List Char}

/-- The part is read back in front of whatever may follow it. -/
def ReadsAs (reader : Reader α) (follows : List Char → Prop) (sql : String) (a : α) : Prop :=
  ∀ gap text, Gap gap → follows text → reader (gap ++ (sql.toList ++ text)) = some (a, text)

theorem ReadsAs.mono {narrower : List Char → Prop} {sql : String} {a : α}
    (h : ReadsAs reader follows sql a) (hn : ∀ text, narrower text → follows text) :
    ReadsAs reader narrower sql a :=
  fun gap text hg ht => h gap text hg (hn text ht)

/-- A comma may stand alone, or with a gap behind it. -/
theorem separated_marks {mark : String} {blank : List Char} (hmark : mark.toList = ',' :: blank)
    (hblank : Gap blank) (hcomma : ∀ rest, follows (',' :: rest)) {bs : List β} (hne : bs ≠ [])
    (hb : ∀ b ∈ bs, ReadsAs reader follows (write b) (value b)) (ht : follows text)
    (hstop : comma text = none) {gap : List Char} (hg : Gap gap) :
    Reader.separated comma reader (gap ++ ((mark.intercalate (bs.map write)).toList ++ text)) =
      some (bs.map value, text) := by
  refine Reader.separated_intercalate hne (by simp [hmark]) (fun rest => ?_) gap
    (fun b hmem rest hrest => hb b hmem gap rest hg hrest) (fun b hmem rest hrest => ?_) ht hstop
  · rw [hmark]
    exact hcomma _
  · have hsep : comma (',' :: (blank ++ ((write b).toList ++ rest))) =
        some ((), blank ++ ((write b).toList ++ rest)) := rfl
    rw [hmark]
    exact (Reader.bind_of_some hsep).trans (hb b hmem blank rest hblank hrest)

theorem separated_commas (hcomma : ∀ rest, follows (',' :: rest)) {bs : List β} (hne : bs ≠ [])
    (hb : ∀ b ∈ bs, ReadsAs reader follows (write b) (value b)) (ht : follows text)
    (hstop : comma text = none) {gap : List Char} (hg : Gap gap) :
    Reader.separated comma reader (gap ++ ((commas (bs.map write)).toList ++ text)) =
      some (bs.map value, text) :=
  separated_marks rfl Gap.blank hcomma hne hb ht hstop hg

end Separated
end FeatureSql.Sql
