import FeatureSql.Proofs.Expr.Primary

/-! Names of columns and of tables read back as they were written, bare or in quotes, and no text
breaks out of the quotes it is put in. -/

set_option autoImplicit false

namespace FeatureSql.Sql

open Reader (Breaks breaks_cons bind_of_some bind_of_none orElse_of_none orElse_of_some)

section Names
variable {text : List Char}

theorem name_append (value : String) (hn : Breaks isNameChar text)
    (hq : Breaks (· == '\x22') text) :
    name ((writeName value).toList ++ text) = some (value, text) := by
  rcases Expr.writeName_cases value with ⟨hb, _, hwrite⟩ | hwrite
  · have hread := bareName_append hb hn
    rw [String.ofList_toList] at hread
    obtain ⟨c, cs, hcs, hc, _⟩ := hb.start
    have hg := isGap_of_isWordChar (isWordChar_of_isWordStart hc)
    rw [hcs, List.cons_append] at hread
    rw [hwrite, hcs, List.cons_append]
    rw [name, orElse_of_none (quotedName_of_ne hg (Expr.ne_of_isWordStart hc rfl)),
      orElse_of_none (backtickName_of_ne hg (Expr.ne_of_isWordStart hc rfl)), hread]
  · rw [hwrite]
    exact orElse_of_some (quotedName_append value hq)

theorem isTableChar_iff (c : Char) :
    isTableChar c = (isWordChar c || c == '-' || c == '.') := by
  unfold isTableChar isDotOrDash
  cases isWordChar c <;> simp [Bool.or_comm]

theorem isTableChar_of_isWordChar {c : Char} (h : isWordChar c = true) : isTableChar c = true := by
  simp [isTableChar, h]

/-- A table name that reads back when it is written bare. -/
structure IsBareTable (value : List Char) : Prop where
  start : ∃ c cs, value = c :: cs ∧ isWordChar c = true ∧ ∀ d ∈ cs, isTableChar d = true
  free : isReserved (value.takeWhile isWordChar) = false

theorem isBareTable_of_isBareTable {value : List Char} (h : isBareTable value = true) :
    IsBareTable value := by
  cases value with
  | nil => exact absurd h (by decide)
  | cons c cs =>
    simp only [isBareTable, Bool.and_eq_true, Bool.not_eq_true', List.all_eq_true] at h
    obtain ⟨⟨hc, hcs⟩, hr⟩ := h
    refine ⟨⟨c, cs, rfl, hc, hcs⟩, ?_⟩
    rw [← takeWhile_isWordChar isDotOrDash]
    · exact isReserved_first hr
    · intro d hd
      rcases List.mem_cons.mp hd with rfl | hd
      · exact Or.inl hc
      · have := hcs d hd
        simp only [Bool.or_eq_true] at this
        exact this
    · intro d hd
      simp only [isDotOrDash, Bool.or_eq_true, beq_iff_eq] at hd
      rcases hd with rfl | rfl <;> rfl

theorem IsBareTable.all {value : List Char} (h : IsBareTable value) :
    ∀ c ∈ value, isTableChar c = true := by
  obtain ⟨c, cs, rfl, hc, hcs⟩ := h.start
  intro d hd
  rcases List.mem_cons.mp hd with rfl | hd
  · exact isTableChar_of_isWordChar hc
  · exact hcs d hd

theorem breaks_isWordChar_of_isTableChar (h : Breaks isTableChar text) : Breaks isWordChar text :=
  h.mono fun _ => isTableChar_of_isWordChar

theorem bareTable_append {value : String} (hb : IsBareTable value.toList)
    (ht : Breaks isTableChar text) : bareTable (value.toList ++ text) = some (value, text) := by
  have hfree := hb.free
  rw [← Reader.takeWhile_append (breaks_isWordChar_of_isTableChar ht)] at hfree
  have hall : ∀ c ∈ value.toList, (isWordChar c || c == '-' || c == '.') = true := by
    intro c hc
    rw [← isTableChar_iff]
    exact hb.all c hc
  have hbreaks : Breaks (fun c => isWordChar c || c == '-' || c == '.') text :=
    ht.mono fun c hc => by rw [isTableChar_iff]; exact hc
  obtain ⟨c, cs, hcs, hc, _⟩ := hb.start
  have hne : value.toList ≠ [] := by rw [hcs]; exact List.cons_ne_nil c cs
  have hrun := Reader.run1_append hall hne hbreaks
  have hg : Breaks isGap (value.toList ++ text) := by
    rw [hcs]
    exact breaks_cons.mpr (isGap_of_isWordChar hc)
  rw [bareTable, lexeme_of_breaks hg, bind_of_some (notReserved_of_free hfree), bind_of_some hrun,
    String.ofList_toList]
  rfl

theorem ne_of_isWordChar {c d : Char} (hc : isWordChar c = true) (hd : isWordChar d = false) :
    c ≠ d := by
  rintro rfl
  rw [hc] at hd
  exact absurd hd (by decide)

theorem tableName_append (value : String) (ht : Breaks isTableChar text)
    (hq : Breaks (· == '\x22') text) :
    tableName ((writeTable value).toList ++ text) = some (value, text) := by
  unfold writeTable
  split
  case isTrue hbare =>
    have hb := isBareTable_of_isBareTable hbare
    have hread := bareTable_append hb ht
    obtain ⟨c, cs, hcs, hc, _⟩ := hb.start
    have hg := isGap_of_isWordChar hc
    rw [hcs, List.cons_append] at hread ⊢
    rw [tableName, orElse_of_none (quotedName_of_ne hg (ne_of_isWordChar hc rfl)),
      orElse_of_none (backtickName_of_ne hg (ne_of_isWordChar hc rfl)), hread]
  case isFalse => exact orElse_of_some (quotedName_append value hq)

theorem name_gap {gap : List Char} (hg : Gap gap) (text : List Char) :
    name (gap ++ text) = name text := by
  simp only [name, quotedName, backtickName, bareName, Reader.orElse_apply, lexeme_gap hg]

theorem tableName_gap {gap : List Char} (hg : Gap gap) (text : List Char) :
    tableName (gap ++ text) = tableName text := by
  simp only [tableName, quotedName, backtickName, bareTable, Reader.orElse_apply, lexeme_gap hg]

/-- No name starts with a reserved word. -/
theorem name_of_reserved (h : isReserved (nextWord text) = true) : name text = none := by
  obtain ⟨gap, c, cs, rfl, hgap, hc⟩ := Expr.reserved_start h
  rw [nextWord_gap hgap] at h
  have hg := isGap_of_isWordChar (isWordChar_of_isWordStart hc)
  rw [name_gap hgap, name, orElse_of_none (quotedName_of_ne hg (Expr.ne_of_isWordStart hc rfl)),
    orElse_of_none (backtickName_of_ne hg (Expr.ne_of_isWordStart hc rfl))]
  exact bareName_of_reserved h

/-- What is written for a text, a column or a table is read as just that, up to its own end, unless
what comes behind it goes on with it. Quotes, reserved words and line ends in it make no
difference. -/
theorem written_closes (value : String) (text : List Char) :
    (Breaks (· == '\x27') text →
      textLiteral ((Dialect.standard.literal value).toList ++ text) = some (value, text)) ∧
    (Breaks (fun c => isNameChar c || c == '\x22') text →
      name ((writeName value).toList ++ text) = some (value, text)) ∧
    (Breaks (fun c => isTableChar c || c == '\x22') text →
      tableName ((writeTable value).toList ++ text) = some (value, text)) := by
  refine ⟨textLiteral_append value, fun h => ?_, fun h => ?_⟩
  · exact name_append value (h.mono fun c hc => Bool.or_eq_true _ _ ▸ Or.inl hc)
      (h.mono fun c hc => Bool.or_eq_true _ _ ▸ Or.inr hc)
  · exact tableName_append value (h.mono fun c hc => Bool.or_eq_true _ _ ▸ Or.inl hc)
      (h.mono fun c hc => Bool.or_eq_true _ _ ▸ Or.inr hc)

/-- A reserved word as one part of the name, quotes in a row, a line end, and a statement behind
it. -/
theorem written_closes_reserved :
    let value := "t.Where-it''s \"\"\n"
    let text := "; DELETE FROM u".toList
    textLiteral ("'t.Where-it''''s \"\"\n'".toList ++ text) = some (value, text) ∧
      name ("\"t.Where-it''s \"\"\"\"\n\"".toList ++ text) = some (value, text) ∧
      tableName ("\"t.Where-it''s \"\"\"\"\n\"".toList ++ text) = some (value, text) := by
  intro value text
  obtain ⟨hliteral, hname, htable⟩ := written_closes value text
  have hwrite : (Dialect.standard.literal value = "'t.Where-it''''s \"\"\n'") ∧
      writeName value = "\"t.Where-it''s \"\"\"\"\n\"" ∧
      writeTable value = "\"t.Where-it''s \"\"\"\"\n\"" := by decide +kernel
  rw [hwrite.1] at hliteral
  rw [hwrite.2.1] at hname
  rw [hwrite.2.2] at htable
  exact ⟨hliteral (breaks_cons.mpr rfl), hname (breaks_cons.mpr rfl), htable (breaks_cons.mpr rfl)⟩

end Names
end FeatureSql.Sql
