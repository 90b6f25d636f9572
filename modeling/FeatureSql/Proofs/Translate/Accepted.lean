import FeatureSql.Proofs.Translate.Reading

/-! Which queries of a feature service have a text that can be read. Output fields and statistics go
into one select list, whatever they are; the grammar has `DISTINCT` in front of names alone. -/

set_option autoImplicit false

namespace FeatureSql

open Sql (Expr SelectItem AggregateFunction AggregateArgument)

namespace Sql

open Reader (Breaks breaks_cons bind_of_some bind_of_none orElse_of_none orElse_of_some)

namespace AggregateFunction

/-- In a list of names, the function of an aggregate is one of them. -/
theorem writeName_name (function : AggregateFunction) :
    writeName function.name = function.name := by
  cases function <;> decide

end AggregateFunction

/-- What an aggregate has behind its function. -/
def callChars (argument : AggregateArgument) (output : Option String) : List Char :=
  '(' :: (SelectItem.withOutput (argument.render ++ ")") output).toList

section Distinct
variable (function : AggregateFunction) (argument : AggregateArgument) (output : Option String)
variable (more : List SelectItem) {columns : List String} (hne : columns ≠ [])

theorem aggregate_chars :
    (SelectItem.render .standard (.aggregate function argument output)).toList =
      function.name.toList ++ callChars argument output := by
  cases output <;> simp [SelectItem.render, SelectItem.withOutput, callChars]

include hne

/-- The text of such a list goes on as a list of names, up to the parenthesis of the aggregate. -/
theorem distinct_chars : ∃ rest,
    (commas ((.distinct columns :: .aggregate function argument output :: more).map
      (SelectItem.render .standard))).toList = "DISTINCT".toList ++ ([' '] ++
        ((commas ((columns ++ [function.name]).map writeName)).toList ++ '(' :: rest)) := by
  cases columns with
  | nil => exact absurd rfl hne
  | cons column columns =>
    refine ⟨(SelectItem.withOutput (argument.render ++ ")") output).toList ++
      Reader.markedTail ", " (more.map (SelectItem.render .standard)), ?_⟩
    have hdistinct : (SelectItem.render .standard (.distinct (column :: columns))).toList =
        "DISTINCT ".toList ++ ((writeName column).toList ++
          Reader.markedTail ", " (columns.map writeName)) := by
      rw [SelectItem.render, List.map_cons, commas, String.toList_append, Reader.intercalate_cons]
    have hnames : (commas ((column :: columns ++ [function.name]).map writeName)).toList =
        (writeName column).toList ++ (Reader.markedTail ", " (columns.map writeName) ++
          (", ".toList ++ function.name.toList)) := by
      rw [List.cons_append, List.map_cons, commas, Reader.intercalate_cons]
      simp [Reader.markedTail, function.writeName_name]
    rw [hnames, List.map_cons, List.map_cons, commas, Reader.intercalate_cons,
      Reader.markedTail_cons, aggregate_chars, hdistinct]
    simp [callChars]

theorem listReader_distinct {gap : List Char} (hg : Gap gap) (text : List Char) :
    ∃ rest, SelectItem.listReader (gap ++ ((commas
      ((.distinct columns :: .aggregate function argument output :: more).map
        (SelectItem.render .standard))).toList ++ text)) =
          some ([.distinct (columns ++ [function.name])], '(' :: rest) := by
  obtain ⟨rest, hchars⟩ := distinct_chars function argument output more hne
  have hname : ∀ column ∈ columns ++ [function.name], ReadsAs name
      (fun text => ∃ c rest, text = c :: rest ∧ (c = ',' ∨ c = '(')) (writeName column) column := by
    rintro column _ gap _ hg ⟨c, rest, rfl, hc⟩
    rw [name_gap hg]
    rcases hc with rfl | rfl
    all_goals exact name_append column (breaks_cons.mpr rfl) (breaks_cons.mpr rfl)
  have hnames : columns ++ [function.name] ≠ [] := List.append_ne_nil_of_left_ne_nil hne _
  have hcomma : ∀ rest, ∃ c more, ',' :: rest = c :: more ∧ (c = ',' ∨ c = '(') :=
    fun rest => ⟨',', rest, rfl, .inl rfl⟩
  have hopen : ∃ c more, '(' :: (rest ++ text) = c :: more ∧ (c = ',' ∨ c = '(') :=
    ⟨'(', _, rfl, .inr rfl⟩
  have hsep := separated_commas hcomma hnames hname hopen rfl Gap.blank
  have hword : ∀ rest, keyword "distinct" (gap ++ ("DISTINCT".toList ++ ([' '] ++ rest))) =
      some ((), [' '] ++ rest) := fun rest =>
    keyword_append (List.all_eq_true.mp rfl) (by decide) rfl hg (breaks_cons.mpr rfl)
  refine ⟨rest ++ text, ?_⟩
  rw [hchars]
  simp only [List.append_assoc, List.cons_append]
  rw [List.map_id'] at hsep
  exact orElse_of_some ((bind_of_some (hword _)).trans (bind_of_some hsep))

end Distinct

namespace Query

/-- No clause begins at a parenthesis, nor does a statement end there. -/
theorem reader_of_parenthesis {text rest : List Char} {items : List SelectItem}
    (h : SelectItem.listReader ([' '] ++ text) = some (items, '(' :: rest)) :
    Draft.reader ("SELECT".toList ++ ([' '] ++ text)) = none := by
  have hselect : Draft.selectReader ("SELECT".toList ++ ([' '] ++ text)) =
      some ({ query := { select := items } }, '(' :: rest) := by
    have hword : keyword "select" ("SELECT".toList ++ ([' '] ++ text)) =
        some ((), [' '] ++ text) := rfl
    rw [Draft.selectReader, bind_of_some hword, bind_of_some h]
    rfl
  rw [Draft.reader, bind_of_some (orElse_of_some hselect)]
  rfl

theorem parse_of_aggregate {query : Query} {columns : List String} {function : AggregateFunction}
    {argument : AggregateArgument} {output : Option String} {more : List SelectItem}
    (hstatement : query.statement = .select) (hne : columns ≠ [])
    (h : query.select = .distinct columns :: .aggregate function argument output :: more) :
    parse .standard (query.render .standard) = .error .grammar := by
  obtain ⟨_, select, tables, joins, filter, groupBy, orderBy, limit, offset⟩ := query
  obtain rfl := hstatement
  obtain ⟨rest, hlist⟩ := listReader_distinct function argument output more hne Gap.blank
    (tablesChars tables (joinsChars joins ++ lastChars filter groupBy orderBy limit offset))
  rw [← h] at hlist
  have hread : Draft.reader.value? (render .standard
      { select, tables, joins, filter, groupBy, orderBy, limit, offset }) = none := by
    rw [Reader.value?, render_select_chars, reader_of_parenthesis hlist]
    rfl
  unfold parse
  rw [hread]
  rfl

end Query
end Sql

namespace Feature.Query

/-- Fields are distinct columns only as a whole. -/
theorem fields_of_mem_distinct {query : Query} {texts fields statistics : List SelectItem}
    (h : query.Lists texts fields statistics) {columns : List String}
    (hmem : .distinct columns ∈ fields) : fields = [.distinct columns] := by
  have htexts : .distinct columns ∈ texts → texts = [.distinct columns] := by
    intro hmem
    rcases parsedList_eq_ok.mp h.outFields with ⟨_, rfl⟩ | ⟨text, _, htext⟩
    · cases hmem
    · rcases Sql.forall_of_parseWhole SelectItem.listReader_yields htext with
        ⟨_, _, rfl⟩ | ⟨_, hitems⟩
      · rw [List.mem_singleton.mp hmem]
      · exact absurd (hitems _ hmem) id
  have hfields := h.distinct
  unfold fieldItems at hfields
  split at hfields
  · obtain ⟨others, _, rfl⟩ := distinctItems_eq_ok.mp hfields
    cases others with
    | nil => exact htexts hmem
    | cons other others => exact congrArg (fun item => [item]) (List.mem_singleton.mp hmem).symm
  · exact Except.ok.inj hfields ▸ htexts (Except.ok.inj hfields ▸ hmem)

/-- Distinct columns stand alone in a select clause, or aggregates stand behind them. -/
theorem select_of_distinct {query : Query} {items : List SelectItem}
    (h : query.selectItems = .ok items) {columns : List String} (hmem : .distinct columns ∈ items) :
    columns ≠ [] ∧ (items = [.distinct columns] ∨ ∃ function argument output more,
      items = .distinct columns :: .aggregate function argument output :: more) := by
  refine ⟨?_, ?_⟩
  · rcases (selectable_selectItems h).2 _ hmem with hwell | ⟨_, hne, hsame⟩
    · exact absurd hwell id
    · exact SelectItem.distinct.inj hsame ▸ hne
  rcases selectItems_eq_ok.mp h with ⟨_, rfl⟩ | ⟨_, _, texts, fields, statistics, hlists, rfl⟩
  · exact absurd (List.mem_singleton.mp hmem) (by simp [SelectItem.countStar])
  have haggregate : ∀ item ∈ statistics, ∃ function argument output,
      item = .aggregate function argument output := by
    intro item hitem
    obtain ⟨statistic, _, hstatistic⟩ := exists_of_mapM hlists.outStatistics hitem
    obtain ⟨function, _, rfl⟩ := OutStatistic.toSelectItem_eq_ok.mp hstatistic
    exact ⟨function, _, _, rfl⟩
  have hfield : .distinct columns ∈ fields := by
    rcases mem_orWildcard hmem with hwildcard | hmem
    · cases hwildcard
    rcases List.mem_append.mp hmem with hfield | hstatistic
    · exact hfield
    · obtain ⟨_, _, _, hsame⟩ := haggregate _ hstatistic
      cases hsame
  obtain rfl := fields_of_mem_distinct hlists hfield
  cases statistics with
  | nil => exact Or.inl rfl
  | cons item more =>
    obtain ⟨function, argument, output, rfl⟩ := haggregate item List.mem_cons_self
    exact Or.inr ⟨function, argument, output, more, rfl⟩

end Feature.Query

/-- The text that is written for the parameters of a feature service can be read unless distinct
columns stand next to statistics in it. -/
theorem Conversion.query_accepted {fs : Feature.Query} {given : Option SpatialFilter}
    {conversion : Conversion} (h : Conversion.ofFeature .standard fs given = .ok conversion) :
    (∃ read, Sql.Query.parse .standard conversion.query = .ok read) ↔
      ∀ columns, .distinct columns ∈ conversion.tree.select →
        conversion.tree.select = [.distinct columns] := by
  obtain ⟨tree, htree, _, rfl⟩ := Conversion.ofFeature_eq_ok.mp h
  have hreads := Feature.Query.toSql_eq_ok.mp htree
  constructor
  · rintro ⟨read, hread⟩ columns hmem
    obtain ⟨hne, halone | ⟨function, argument, output, more, hselect⟩⟩ :=
      Feature.Query.select_of_distinct hreads.select hmem
    · exact halone
    · have hrefused := Sql.Query.parse_of_aggregate hreads.statement hne hselect
      cases hrefused.symm.trans hread
  · intro halone
    exact ⟨_, (hreads.wellFormed (hreads.listWellFormed halone)).parse_render_reread⟩

/-- The same fields and statistic, as they are and with a wish for distinct values. -/
theorem Conversion.query_accepted_mixed :
    let fs : Feature.Query := {
      Feature.Query.ofTable "t" with
      outFields := some "a, lower(b) AS \"l\""
      outStatistics := [{ field := "c", type := "MAX" }]
      groupBy := some "a" }
    let distinct : Feature.Query := {
      fs with outFields := some "a", returnDistinctValues := some true }
    let area : SpatialFilter := { geometry := .obj [("'", .null)] }
    ∃ plain other, Conversion.ofFeature .standard fs (some area) = .ok plain ∧
      (∃ read, Sql.Query.parse .standard plain.query = .ok read) ∧
      Conversion.ofFeature .standard distinct (some area) = .ok other ∧
      ¬ ∃ read, Sql.Query.parse .standard other.query = .ok read := by
  intro fs distinct area
  let tree : Sql.Query := {
    select := [.column "a" none, .computed (.call "lower" [.name "b"]) (some "l"),
      .aggregate .max (.column "c") none]
    tables := ["t"]
    filter := some (Spatial.predicate area .vector)
    groupBy := [.name "a"] }
  let other : Sql.Query := {
    tree with select := [.distinct ["a"], .aggregate .max (.column "c") none] }
  have htree : fs.toSql (some area) = .ok tree := eq_ok_of_toOption (by decide +kernel)
  have hother : distinct.toSql (some area) = .ok other := eq_ok_of_toOption (by decide +kernel)
  have hplain := Conversion.ofFeature_eq_ok.mpr ⟨tree, htree, rfl, rfl⟩
  have hdistinct := Conversion.ofFeature_eq_ok.mpr ⟨other, hother, rfl, rfl⟩
  refine ⟨_, _, hplain, (Conversion.query_accepted hplain).mpr (by simp [tree]), hdistinct, ?_⟩
  intro hread
  exact absurd ((Conversion.query_accepted hdistinct).mp hread ["a"] (by simp [other]))
    (by simp [other])

/-- Such a wish turns the fields into a list that is written in front of the statistic. -/
theorem Conversion.query_notAccepted :
    let fs : Feature.Query := {
      Feature.Query.ofTable "t" with
      outFields := some "a"
      outStatistics := [{ field := "b", type := "sum" }]
      returnDistinctValues := some true }
    ∃ conversion, Conversion.ofFeature .standard fs none = .ok conversion ∧
      conversion.query = "SELECT DISTINCT a, sum(b) FROM t" ∧
      Sql.Query.parse .standard conversion.query = .error .grammar := by
  intro fs
  let tree : Sql.Query := {
    select := [.distinct ["a"], .aggregate .sum (.column "b") none], tables := ["t"] }
  have htree : fs.toSql none = .ok tree := eq_ok_of_toOption (by decide +kernel)
  have htext : tree.render .standard = "SELECT DISTINCT a, sum(b) FROM t" := by decide +kernel
  have hparse : Sql.Query.parse .standard (tree.render .standard) = .error .grammar := by
    decide +kernel
  exact ⟨_, Conversion.ofFeature_eq_ok.mpr ⟨tree, htree, rfl, rfl⟩, htext, hparse⟩

end FeatureSql
