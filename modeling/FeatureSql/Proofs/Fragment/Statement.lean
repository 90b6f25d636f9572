import FeatureSql.Proofs.Fragment.Expr
import FeatureSql.Proofs.Translate.Reading

/-! The texts of the parameters mean in a statement what they mean as parameters. -/

set_option autoImplicit false

namespace FeatureSql

open Sql (Expr OrderBy SelectItem backtick findBacktick)

namespace Feature.Query

/-- The text that stands for the select clause. -/
def selectText (query : Query) : String := (given? query.outFields).getD "*"

/-- The parameters put side by side as the clauses of a statement, their texts as they are. -/
def statement (query : Query) : String :=
  "SELECT " ++ query.selectText ++
    " FROM " ++ Sql.writeTable ((given? query.tableName).getD "") ++
    " WHERE " ++ query.condition ++
    Sql.Query.optionalClause " GROUP BY " id (given? query.groupBy) ++
    Sql.Query.optionalClause " ORDER BY " id (given? query.orderBy) ++
    Sql.Query.optionalClause " LIMIT " (fun n => n.toNat.repr) query.resultRecordCount ++
    Sql.Query.optionalClause " OFFSET " (fun n => n.toNat.repr) query.resultOffset

/-- No text that is read as SQL holds a backtick. -/
structure NoBackticks (query : Query) : Prop where
  outFields : ∀ text ∈ query.outFields, backtick ∉ text.toList
  condition : backtick ∉ query.condition.toList
  groupBy : ∀ text ∈ query.groupBy, backtick ∉ text.toList
  orderBy : ∀ text ∈ query.orderBy, backtick ∉ text.toList

end Feature.Query

namespace Sql

open Reader (bind_of_some bind_of_none bind_apply)

theorem findBacktick_of_not_mem {text : List Char} (h : backtick ∉ text) :
    findBacktick text = none := by
  have hboth : findBacktick text = none ∧ ∀ quote, findBacktick.skipTo quote text = none := by
    induction text with
    | nil => exact ⟨rfl, fun _ => rfl⟩
    | cons c cs ih =>
      rw [List.mem_cons, not_or] at h
      obtain ⟨ihFind, ihSkip⟩ := ih h.2
      constructor
      · rw [findBacktick, if_neg (by simpa using Ne.symm h.1)]
        split
        · exact ihSkip c
        · exact ihFind
      · intro quote
        rw [findBacktick.skipTo]
        split
        · exact ihFind
        · exact ihSkip quote
  exact hboth.1

theorem gap_of_atEnd {left rest : List Char} (h : lexeme Reader.atEnd left = some ((), rest)) :
    Gap left := by
  have hdrop : left.dropWhile isGap = [] := by
    rw [lexeme_apply] at h
    cases hcs : left.dropWhile isGap with
    | nil => rfl
    | cons c cs =>
      rw [hcs] at h
      cases h
  have htake := List.takeWhile_append_dropWhile (p := isGap) (l := left)
  rw [hdrop, List.append_nil] at htake
  exact htake ▸ List.all_eq_true.mp List.all_takeWhile

/-- What is read as a whole is read from the text's front, with blanks left over. -/
theorem left_of_parseWhole {α : Type} {reader : Reader α} {text : String} {a : α}
    (h : parseWhole reader text = .ok a) :
    ∃ left, Gap left ∧ reader text.toList = some (a, left) := by
  have hvalue :
      (do let a ← reader; lexeme Reader.atEnd; pure a : Reader α).value? text = some a := by
    unfold parseWhole at h
    split at h
    · next b hb => exact hb.trans (congrArg some (Except.ok.inj h))
    · cases h
  obtain ⟨⟨_, last⟩, hwhole, rfl⟩ := Option.map_eq_some_iff.mp hvalue
  rw [bind_apply, Option.bind_eq_some_iff] at hwhole
  obtain ⟨⟨b, left⟩, hfirst, hend⟩ := hwhole
  rw [bind_apply, Option.bind_eq_some_iff] at hend
  obtain ⟨_, hend, hsame⟩ := hend
  cases hsame
  exact ⟨left, gap_of_atEnd hend, hfirst⟩

section Fragments
variable {α : Type} {reader : Reader α} {gap rest : List Char}

/-- What a text is read as on its own, it is read as in front of a clause. -/
theorem fragment_append (h : ∀ n, Local n reader reader) {text : String} {a : α}
    (htext : backtick ∉ text.toList) (hread : parseWhole reader text = .ok a) :
    Clean text ∧ ∀ {rest}, Ends 0 rest →
      ∃ left, Gap left ∧ reader ([' '] ++ (text.toList ++ rest)) = some (a, left ++ rest) := by
  obtain ⟨left, hgap, hfirst⟩ := left_of_parseWhole hread
  obtain ⟨taken, hsplit, htaken⟩ := (h 0).shuts (findBacktick_of_not_mem htext) hfirst
  have hshut : Shut text.toList := hsplit ▸ htaken.append hgap.shut
  refine ⟨hshut, fun {rest} hrest => ?_⟩
  have hagrees := (h _).agrees (Nat.lt_succ_self _) hshut hrest Gap.blank
  rw [hfirst] at hagrees
  obtain ⟨ahead, hahead, houter⟩ := hagrees
  exact ⟨ahead ++ left, (Gap.blank.suffix hahead).append hgap, by rw [houter, List.append_assoc]⟩

/-- Blanks in front of a clause stay where they are if there is no such clause. -/
theorem optional_gap {text left : List Char} {a : Option α} (hg : Gap gap)
    (hskip : reader (gap ++ text) = reader text) (hread : optional reader text = some (a, left)) :
    ∃ ahead, Gap ahead ∧ optional reader (gap ++ text) = some (a, ahead ++ left) := by
  cases hcase : reader text with
  | none =>
    rw [Reader.optional_of_none hcase] at hread
    cases hread
    exact ⟨gap, hg, Reader.optional_of_none (hskip.trans hcase)⟩
  | some p =>
    rw [Reader.optional_of_some hcase] at hread
    cases hread
    exact ⟨[], Gap.nil, Reader.optional_of_some (hskip.trans hcase)⟩

theorem keyword_bind_gap {word : String} {next : Unit → Reader α} (hg : Gap gap)
    (text : List Char) : (keyword word >>= next) (gap ++ text) = (keyword word >>= next) text := by
  rw [bind_apply, keyword_gap hg, ← bind_apply]

end Fragments
end Sql

namespace Feature

theorem not_mem_given? {parameter : Option String} {c : Char}
    (h : ∀ text ∈ parameter, c ∉ text.toList) : ∀ text ∈ given? parameter, c ∉ text.toList := by
  intro text htext hc
  obtain ⟨⟨raw, hraw, rfl⟩, _⟩ := given?_eq_some.mp htext
  exact h raw hraw (mem_of_mem_trim hc)

end Feature

namespace Sql

open Feature (given? parsedList parsedList_eq_ok)

section Clauses
variable {gap rest : List Char}

/-- A parameter that is given is read as a clause of its own, whatever blanks stand around it. -/
theorem optional_parameter {α : Type} {reader clause : Reader (List α)}
    (h : ∀ n, Local n reader reader) {word : String} (hword : Clean word)
    (hclause : ∀ text, clause (word.toList ++ text) = reader ([' '] ++ text))
    (hskip : ∀ text, clause (gap ++ text) = clause text) (hg : Gap gap)
    (hrest : Ends 0 rest) (hnone : clause rest = none) {parameter : Option String} {as : List α}
    (hparameter : ∀ text ∈ parameter, backtick ∉ text.toList)
    (hread : parsedList (parseWhole reader) parameter = .ok as) :
    Clean (Query.optionalClause word id (given? parameter)) ∧
      ∃ items left, Gap left ∧ items.getD [] = as ∧ optional clause
        (gap ++ ((Query.optionalClause word id (given? parameter)).toList ++ rest)) =
          some (items, left ++ rest) := by
  have hgiven := Feature.not_mem_given? hparameter
  rcases parsedList_eq_ok.mp hread with ⟨hnot, rfl⟩ | ⟨text, hsome, htext⟩
  · rw [hnot]
    refine ⟨Clean.empty, none, gap, hg, rfl, ?_⟩
    exact Reader.optional_of_none ((hskip _).trans hnone)
  · rw [hsome]
    obtain ⟨hclean, hfragment⟩ := fragment_append h (hgiven text hsome) htext
    obtain ⟨left, hleft, hfragment⟩ := hfragment hrest
    refine ⟨hword.append hclean, some as, left, hleft, rfl, ?_⟩
    have hchars : (Query.optionalClause word id (some text)).toList ++ rest =
        word.toList ++ (text.toList ++ rest) := by
      rw [Query.optionalClause, String.toList_append, List.append_assoc, id]
    rw [hchars]
    exact Reader.optional_of_some ((hskip _).trans ((hclause _).trans hfragment))

end Clauses
end Sql

namespace Feature.Query

open Sql
open Reader (bind_of_some bind_of_none orElse_of_some)

variable {query : Query} {tree : Sql.Query}

theorem parseList_selectText {items : List SelectItem} (hcount : query.returnCountOnly ≠ some true)
    (hdistinct : query.returnDistinctValues ≠ some true) (hstatistics : query.outStatistics = [])
    (h : query.selectItems = .ok items) : SelectItem.parseList query.selectText = .ok items := by
  rcases selectItems_eq_ok.mp h with ⟨hpos, _⟩ | ⟨_, _, texts, fields, statistics, hlists, rfl⟩
  · exact absurd hpos hcount
  obtain rfl : texts = fields := by
    have hfields := hlists.distinct
    rw [fieldItems, if_neg hdistinct] at hfields
    exact Except.ok.inj hfields
  obtain rfl : [] = statistics := by
    have hstatistics' := hlists.outStatistics
    rw [hstatistics] at hstatistics'
    exact Except.ok.inj hstatistics'
  rw [List.append_nil, selectText]
  cases hgiven : given? query.outFields with
  | none =>
    rcases parsedList_eq_ok.mp hlists.outFields with ⟨_, rfl⟩ | ⟨text, hsome, _⟩
    · rfl
    · rw [hgiven] at hsome
      cases hsome
  | some text =>
    have hne := ne_nil_of_given? (by rw [hgiven]; simp) hlists.outFields
    rw [orWildcard_of_ne_nil hne]
    rcases parsedList_eq_ok.mp hlists.outFields with ⟨hnone, _⟩ | ⟨text', hsome, htext⟩
    · rw [hgiven] at hnone
      cases hnone
    · rw [hgiven] at hsome
      obtain rfl := Option.some.inj hsome
      exact htext

/-- The one filter of a query without a geometry is its condition. -/
theorem IsReadAs.parse_condition (h : query.IsReadAs none tree)
    (hgeometry : given? query.geometry = none) (hwhere : query.hasDefaultWhere = false) :
    ∃ e, Expr.parse query.condition = .ok e ∧ tree.filter = some e := by
  obtain ⟨condition, spatial, hcondition, hspatial, hfilter⟩ := h.filter
  obtain rfl : none = spatial := by
    have hnone : query.filterOr none = .ok none := by rw [filterOr, filter?, hgeometry]
    exact Except.ok.inj (hnone.symm.trans hspatial)
  rcases conditionExpr?_eq_ok.mp hcondition with ⟨hdefault, _⟩ | ⟨_, e, hread, rfl⟩
  · rw [hwhere] at hdefault
    cases hdefault
  · exact ⟨e, hread, hfilter⟩

-- The statement from some clause on.

def orderChars (query : Query) : List Char :=
  (Sql.Query.optionalClause " ORDER BY " id (given? query.orderBy)).toList ++
    limitChars query.resultRecordCount query.resultOffset

def groupChars (query : Query) : List Char :=
  (Sql.Query.optionalClause " GROUP BY " id (given? query.groupBy)).toList ++ query.orderChars

def whereChars (query : Query) : List Char :=
  " WHERE ".toList ++ (query.condition.toList ++ query.groupChars)

def fromChars (query : Query) (table : String) : List Char :=
  " FROM ".toList ++ ((writeTable table).toList ++ query.whereChars)

theorem statement_chars {table : String} (htable : given? query.tableName = some table) :
    query.statement.toList =
      "SELECT ".toList ++ (query.selectText.toList ++ query.fromChars table) := by
  unfold statement fromChars whereChars groupChars orderChars limitChars offsetChars
  simp only [htable, Option.getD_some, String.toList_append, List.append_assoc, List.append_nil]

theorem orderChars_ends (query : Query) : Ends 10 query.orderChars :=
  ends_optional _ _ (limit_ends _ _) _ (w := "ORDER") (by decide) rfl

theorem groupChars_ends (query : Query) : Ends 9 query.groupChars :=
  ends_optional _ _ query.orderChars_ends _ (w := "GROUP") (by decide) rfl

theorem whereChars_ends (query : Query) : Ends 8 query.whereChars := by
  have hword : ∀ rest, Ends 8 (' ' :: ("WHERE".toList ++ ' ' :: rest)) :=
    fun _ => .word (w := "WHERE") (by decide)
  exact hword _

theorem fromChars_ends (query : Query) (table : String) : Ends 1 (query.fromChars table) := by
  have hword : ∀ rest, Ends 1 (' ' :: ("FROM".toList ++ ' ' :: rest)) :=
    fun _ => .word (w := "FROM") (by decide)
  exact hword _

section Clauses
variable {gap : List Char}

theorem NoBackticks.selectText (h : query.NoBackticks) : backtick ∉ query.selectText.toList := by
  rw [Query.selectText]
  cases hgiven : given? query.outFields with
  | none => decide
  | some text => exact not_mem_given? h.outFields text hgiven

theorem NoBackticks.read_select (h : query.NoBackticks) (table : String) {items : List SelectItem}
    (hread : SelectItem.parseList query.selectText = .ok items) : Clean query.selectText ∧
      ∃ left, Gap left ∧ SelectItem.listReader
        ([' '] ++ (query.selectText.toList ++ query.fromChars table)) =
          some (items, left ++ query.fromChars table) := by
  obtain ⟨hclean, hfragment⟩ :=
    fragment_append (fun _ => SelectItem.local_listReader) h.selectText hread
  exact ⟨hclean, hfragment ((query.fromChars_ends table).mono (by decide))⟩

theorem read_from (hg : Gap gap) (query : Query) (table : String) :
    optional Draft.tablesReader (gap ++ query.fromChars table) =
      some (some [table], query.whereChars) := by
  have hread := tables_append (List.cons_ne_nil table []) query.whereChars_ends
  exact Reader.optional_of_some ((keyword_bind_gap hg _).trans hread)

theorem NoBackticks.read_where (h : query.NoBackticks) {e : Expr}
    (hread : Expr.parse query.condition = .ok e) : Clean query.condition ∧
      ∃ left, Gap left ∧ optional Draft.filterReader query.whereChars =
        some (some e, left ++ query.groupChars) := by
  obtain ⟨hclean, hfragment⟩ := fragment_append (fun _ => Expr.local_reader) h.condition hread
  obtain ⟨left, hleft, hfragment⟩ := hfragment (query.groupChars_ends.mono (by decide))
  have hwhere : ∀ text, keyword "where" (" WHERE ".toList ++ text) = some ((), [' '] ++ text) :=
    fun _ => rfl
  exact ⟨hclean, left, hleft, Reader.optional_of_some ((bind_of_some (hwhere _)).trans hfragment)⟩

theorem NoBackticks.read_groupBy (h : query.NoBackticks) (hg : Gap gap) {es : List Expr}
    (hread : parsedList Expr.parseList query.groupBy = .ok es) :
    Clean (Sql.Query.optionalClause " GROUP BY " id (given? query.groupBy)) ∧
      ∃ items left, Gap left ∧ items.getD [] = es ∧ optional Draft.groupByReader
        (gap ++ query.groupChars) = some (items, left ++ query.orderChars) := by
  have hgroup : ∀ text, keyword "group" (" GROUP BY ".toList ++ text) =
      some ((), " BY ".toList ++ text) := fun _ => rfl
  have hby : ∀ text, keyword "by" (" BY ".toList ++ text) = some ((), [' '] ++ text) := fun _ => rfl
  exact optional_parameter (fun _ => Expr.local_listReader) (Clean.of_plain rfl)
    (fun text => (bind_of_some (hgroup text)).trans (bind_of_some (hby text)))
    (keyword_bind_gap hg) hg (query.orderChars_ends.mono (by decide))
    (bind_of_none (keyword_of_ends query.orderChars_ends (by decide))) h.groupBy hread

theorem NoBackticks.read_orderBy (h : query.NoBackticks) (hg : Gap gap) {orders : List OrderBy}
    (hread : parsedList OrderBy.parseList query.orderBy = .ok orders) :
    Clean (Sql.Query.optionalClause " ORDER BY " id (given? query.orderBy)) ∧
      ∃ items left, Gap left ∧ items.getD [] = orders ∧ optional Draft.orderByReader
        (gap ++ query.orderChars) =
          some (items, left ++ limitChars query.resultRecordCount query.resultOffset) := by
  have horder : ∀ text, keyword "order" (" ORDER BY ".toList ++ text) =
      some ((), " BY ".toList ++ text) := fun _ => rfl
  have hby : ∀ text, keyword "by" (" BY ".toList ++ text) = some ((), [' '] ++ text) := fun _ => rfl
  have hrest := limit_ends query.resultRecordCount query.resultOffset
  exact optional_parameter (fun _ => OrderBy.local_listReader) (Clean.of_plain rfl)
    (fun text => (bind_of_some (horder text)).trans (bind_of_some (hby text)))
    (keyword_bind_gap hg) hg (hrest.mono (by decide))
    (bind_of_none (keyword_of_ends hrest (by decide))) h.orderBy hread

end Clauses

/-- The counts are the last clauses; without them blanks are left over. -/
theorem read_counts {gap : List Char} (hg : Gap gap) (limit offset : Option UInt64) :
    ∃ mid left, Gap left ∧
      optional (Draft.countReader "limit") (gap ++ limitChars limit offset) =
        some (limit.map (countOf (offsetChars offset)), mid) ∧
      optional (Draft.countReader "offset") mid = some (offset.map (countOf []), left) := by
  obtain ⟨ahead, hahead, hlimit⟩ :=
    optional_gap hg (keyword_bind_gap hg _) (optional_limit limit offset)
  obtain ⟨left, hleft, hoffset⟩ :=
    optional_gap hahead (keyword_bind_gap hahead _) (optional_offset offset)
  exact ⟨_, _, hleft.append Gap.nil, hlimit, hoffset⟩

/-- A statement put together from texts is read as what the texts are read as. -/
theorem IsReadAs.selectReader_statement (h : query.IsReadAs none tree) (hclean : query.NoBackticks)
    (hselect : SelectItem.parseList query.selectText = .ok tree.select) {e : Expr}
    (hcondition : Expr.parse query.condition = .ok e) (hfilter : tree.filter = some e) :
    Clean query.statement ∧ ∃ left, Gap left ∧ Draft.selectReader query.statement.toList = some ({
      query := { tree with limit := none, offset := none }
      limit := tree.limit.map (countOf (offsetChars tree.offset))
      offset := tree.offset.map (countOf []) }, left) := by
  obtain ⟨table, htable, htables⟩ := h.tables
  -- Blanks that a text ends with are left over and stand in front of the next clause, or, where
  -- that clause is missing, in front of the one after it.
  obtain ⟨hcleanSelect, gap, hgap, hselect⟩ := hclean.read_select table hselect
  have hfrom := query.read_from hgap table
  have hjoins := Reader.many_of_none (join_of_ends query.whereChars_ends)
  obtain ⟨hcleanWhere, gap, hgap, hwhere⟩ := hclean.read_where hcondition
  obtain ⟨hcleanGroup, groupBy, gap, hgap, hgroupBy, hgroup⟩ := hclean.read_groupBy hgap h.groupBy
  obtain ⟨hcleanOrder, orderBy, gap, hgap, horderBy, horder⟩ := hclean.read_orderBy hgap h.orderBy
  rw [← h.limit, ← h.offset] at horder
  obtain ⟨mid, left, hleft, hlimit, hoffset⟩ := read_counts hgap tree.limit tree.offset
  constructor
  · have hplain : ∀ mark : String, mark.toList.all isPlain = true → Clean mark :=
      fun _ => Clean.of_plain
    have hcounts : ∀ (word : String) (count : Option UInt64), word.toList.all isPlain = true →
        Clean (Sql.Query.optionalClause word (fun n => n.toNat.repr) count) :=
      fun word count hword => clean_optional (hplain word hword) fun n _ => clean_count n
    exact ((((((((((hplain "SELECT " rfl).append hcleanSelect).append (hplain " FROM " rfl)).append
      (clean_writeTable _)).append (hplain " WHERE " rfl)).append hcleanWhere).append
      hcleanGroup).append hcleanOrder).append (hcounts " LIMIT " _ rfl)).append
      (hcounts " OFFSET " _ rfl))
  · have hword : ∀ rest, keyword "select" ("SELECT ".toList ++ rest) = some ((), [' '] ++ rest) :=
      fun rest => rfl
    refine ⟨left, hleft, ?_⟩
    rw [statement_chars htable, Draft.selectReader, bind_of_some (hword _), bind_of_some hselect,
      bind_of_some hfrom, bind_of_some hjoins, bind_of_some hwhere, bind_of_some hgroup,
      bind_of_some horder, bind_of_some hlimit, bind_of_some hoffset, hgroupBy, horderBy]
    obtain ⟨_, select, tables, joins, filter, groupBy, orderBy, limit, offset⟩ := tree
    obtain rfl := h.statement
    obtain rfl := h.joins
    obtain rfl := htables
    obtain rfl := hfilter
    rfl

/-- Where no spatial filter is added to its condition, a query of a feature service is the SQL query
that its texts are when they are put side by side. -/
theorem parse_statement (hclean : query.NoBackticks) (hcount : query.returnCountOnly ≠ some true)
    (hdistinct : query.returnDistinctValues ≠ some true) (hstatistics : query.outStatistics = [])
    (hgeometry : given? query.geometry = none) (hwhere : query.hasDefaultWhere = false)
    (h : query.toSql none = .ok tree) : Sql.Query.parse .standard query.statement = .ok tree := by
  have hread := toSql_eq_ok.mp h
  have hselect := parseList_selectText hcount hdistinct hstatistics hread.select
  obtain ⟨e, hcondition, hfilter⟩ := hread.parse_condition hgeometry hwhere
  obtain ⟨hshut, left, hleft, hstatement⟩ :=
    hread.selectReader_statement hclean hselect hcondition hfilter
  have hdraft := Sql.Query.draft_of_statement hleft (orElse_of_some hstatement)
  have hparse := Sql.Query.parse_of_counts (Shut.findBacktick_eq hshut) hdraft
  exact hparse

/-- Blanks stand around every text, and every clause is there. -/
theorem parse_statement_padded :
    let query : Query := {
      outFields := some " name n, lower(owner) "
      tableName := some " parcels "
      condition := " area > 1e3 or not kind in (1, 2)\t"
      groupBy := some " name , owner"
      orderBy := some "area desc, name "
      resultRecordCount := some 10
      resultOffset := some 5 }
    let tree : Sql.Query := {
      select := [.column "name" (some "n"), .computed (.call "lower" [.name "owner"]) none]
      tables := ["parcels"]
      filter := some (.logical .or (.comparison ">" (.name "area") (.number "1e3"))
        (.not (.comparison "IN" (.name "kind") (.list [.number "1", .number "2"]))))
      groupBy := [.name "name", .name "owner"]
      orderBy := [⟨.name "area", some .desc⟩, ⟨.name "name", none⟩]
      limit := some 10
      offset := some 5 }
    query.toSql none = .ok tree ∧ Sql.Query.parse .standard query.statement = .ok tree := by
  intro query tree
  have hclean : query.NoBackticks := ⟨by decide +kernel, by decide +kernel, by decide +kernel,
    by decide +kernel⟩
  have htree : query.toSql none = .ok tree := eq_ok_of_toOption (by decide +kernel)
  exact ⟨htree, parse_statement hclean (by decide) (by decide) rfl (by decide +kernel)
    (by decide +kernel) htree⟩

end Feature.Query
end FeatureSql
