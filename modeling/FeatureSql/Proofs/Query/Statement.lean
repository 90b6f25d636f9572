import FeatureSql.Proofs.Query.Clause

/-! Statements read back from their clauses. -/

set_option autoImplicit false

namespace FeatureSql.Sql

open Reader (Breaks breaks_cons bind_of_some bind_of_none orElse_of_none orElse_of_some Steps)

section Parts
variable {n : Nat} {text : List Char}

theorem ListEnds.breaks_word (h : ListEnds n text) : Breaks isWordChar text :=
  breaks_isWordChar h.closes.boundary.name

/-- A direction's keyword in some case. -/
structure Direction.Spells (direction : Direction) (spelling : String) : Prop where
  word : spelling.toList.all isWordChar = true
  lower : lower spelling.toList = lower direction.word.toList

theorem Direction.spells_word (direction : Direction) : direction.Spells direction.word := by
  cases direction <;> exact ⟨rfl, rfl⟩

theorem Direction.Spells.ne_nil {direction : Direction} {spelling : String}
    (hs : direction.Spells spelling) : spelling.toList ≠ [] := by
  intro hnil
  have hlower := hs.lower
  rw [hnil] at hlower
  cases direction <;> exact absurd hlower (by decide)

section Direction
variable {direction : Direction} {spelling : String}

theorem direction_append (hs : direction.Spells spelling) (h : Breaks isWordChar text) :
    Direction.reader (' ' :: (spelling.toList ++ text)) = some (direction, text) := by
  have hword := List.all_eq_true.mp hs.word
  have hlower := hs.lower
  cases direction with
  | asc =>
    have hasc : keyword "asc" ([' '] ++ (spelling.toList ++ text)) = some ((), text) :=
      keyword_append hword hs.ne_nil hlower Gap.blank h
    exact orElse_of_some (bind_of_some hasc)
  | desc =>
    have hdesc : keyword "desc" ([' '] ++ (spelling.toList ++ text)) = some ((), text) :=
      keyword_append hword hs.ne_nil hlower Gap.blank h
    have hasc : keyword "asc" ([' '] ++ (spelling.toList ++ text)) = none := by
      apply keyword_of_ne
      rw [nextWord_gap Gap.blank, nextWord_append hword hs.ne_nil h, hlower]
      decide
    exact (orElse_of_none (bind_of_none hasc)).trans (bind_of_some hdesc)

theorem closes_direction (hs : direction.Spells spelling) (h : Breaks isWordChar text) :
    Expr.Closes 1 (' ' :: (spelling.toList ++ text)) := by
  have hlower := hs.lower
  refine Expr.closes_word (List.all_eq_true.mp hs.word) hs.ne_nil h (fun _ => ?_) (fun _ => ?_)
    fun _ => ?_
  all_goals
    rw [hlower]
    cases direction <;> decide

theorem spelled_readsAs {e : Expr} (h : e.WellFormed) (hs : direction.Spells spelling) :
    ReadsAs OrderBy.reader (ListEnds n) (e.render .standard ++ " " ++ spelling)
      { expression := e.reread, direction := some direction } := by
  intro gap text hg ht
  have hread := h.readsAs_reread gap _ hg (closes_direction hs ht.breaks_word)
  have hsome := Reader.optional_of_some (direction_append hs ht.breaks_word)
  have hchars : (e.render .standard ++ " " ++ spelling).toList =
      (e.render .standard).toList ++ ' ' :: spelling.toList := by
    simp
  rw [hchars, List.append_assoc, List.cons_append]
  exact (bind_of_some hread).trans (bind_of_some hsome)

end Direction

theorem undirected_readsAs {e : Expr} (h : e.WellFormed) :
    ReadsAs OrderBy.reader (ListEnds n) (e.render .standard) { expression := e.reread } := by
  intro gap text hg ht
  have hread := h.readsAs_reread gap text hg ht.closes
  have hnone := Reader.optional_of_none (direction_of_listEnds ht)
  exact (bind_of_some hread).trans (bind_of_some hnone)

theorem order_readsAs {order : OrderBy} (h : order.expression.WellFormed) :
    ReadsAs OrderBy.reader (ListEnds n) (order.render .standard) order.reread := by
  obtain ⟨e, direction⟩ := order
  cases direction with
  | none => exact undirected_readsAs h
  | some direction => exact spelled_readsAs h direction.spells_word

/-- What stands in front of `JOIN`. -/
def kindChars : Option String → List Char
  | some kind => ' ' :: kind.toList
  | none => []

def conditionChars : Option Expr → List Char
  | some e => " ON ".toList ++ e.chars
  | none => []

theorem join_chars (join : Join) : (" " ++ join.render .standard).toList =
    kindChars join.kind ++ (" JOIN ".toList ++ ((writeTable join.table).toList ++
      conditionChars join.condition)) := by
  obtain ⟨kind, table, condition⟩ := join
  cases kind <;> cases condition <;>
    simp [Join.render, kindChars, conditionChars, Expr.chars, String.toList_append]

theorem kind_append {kind : Option String} (h : ∀ k ∈ kind, k ∈ Join.kinds) (rest : List Char) :
    optional Join.kindReader (kindChars kind ++ (" JOIN ".toList ++ rest)) =
      some (kind, " JOIN ".toList ++ rest) := by
  cases kind with
  | none => rfl
  | some k =>
    have hk := h k rfl
    simp only [Join.kinds, List.mem_cons, List.not_mem_nil, or_false] at hk
    apply Reader.optional_of_some
    rcases hk with rfl | rfl | rfl | rfl | rfl | rfl | rfl | rfl <;> rfl

/-- The condition of a join. -/
def conditionReader : Reader Expr := do
  keyword "on"
  Expr.reader

theorem condition_append {condition : Option Expr} (h : ∀ e ∈ condition, e.WellFormed)
    (ht : Ends 2 text) : optional conditionReader (conditionChars condition ++ text) =
      some (condition.map Expr.reread, text) := by
  cases condition with
  | none =>
    have hon : keyword "on" text = none := keyword_of_ends ht (by decide)
    exact Reader.optional_of_none (bind_of_none hon)
  | some e =>
    have hread := (h e rfl).readsAs_reread [' '] text Gap.blank ht.closes
    have hon : keyword "on" (" ON ".toList ++ (e.chars ++ text)) =
        some ((), [' '] ++ (e.chars ++ text)) := rfl
    apply Reader.optional_of_some
    rw [conditionChars, List.append_assoc]
    exact (bind_of_some hon).trans hread

theorem condition_ends (condition : Option Expr) (ht : Ends 2 text) :
    Ends 0 (conditionChars condition ++ text) := by
  cases condition with
  | none => exact ht.mono (by decide)
  | some e =>
    have hon : Ends 0 (' ' :: ("ON".toList ++ ' ' :: (e.chars ++ text))) := .word (by decide)
    exact hon

theorem join_append {join : Join} (h : join.WellFormed) (ht : Ends 2 text) :
    Join.reader ((" " ++ join.render .standard).toList ++ text) = some (join.reread, text) := by
  have hkind := kind_append h.kind ((writeTable join.table).toList ++
    (conditionChars join.condition ++ text))
  have hjoin : keyword "join" (" JOIN ".toList ++ ((writeTable join.table).toList ++
      (conditionChars join.condition ++ text))) =
        some ((), [' '] ++ ((writeTable join.table).toList ++
          (conditionChars join.condition ++ text))) := rfl
  have htable := table_readsAs join.table [' '] _ Gap.blank
    (Or.inr (condition_ends join.condition ht))
  have hcondition := condition_append h.condition ht
  rw [join_chars, Join.reread_eq]
  simp only [List.append_assoc]
  exact (bind_of_some hkind).trans ((bind_of_some hjoin).trans ((bind_of_some htable).trans
    (bind_of_some hcondition)))

theorem join_ends {join : Join} (h : join.WellFormed) (text : List Char) :
    Ends 2 ((" " ++ join.render .standard).toList ++ text) := by
  have hword : ∀ {w : String} (rest : List Char), w ∈ clauseWords.drop 2 →
      Ends 2 (' ' :: (w.toList ++ ' ' :: rest)) := fun _ hw => .word hw
  rw [join_chars, List.append_assoc]
  cases hk : join.kind with
  | none => exact hword (w := "JOIN") _ (by decide)
  | some k =>
    have hmem := h.kind k hk
    simp only [Join.kinds, List.mem_cons, List.not_mem_nil, or_false] at hmem
    rcases hmem with rfl | rfl | rfl | rfl | rfl | rfl | rfl | rfl
    · exact hword (w := "INNER") _ (by decide)
    · exact hword (w := "CROSS") _ (by decide)
    · exact hword (w := "LEFT") _ (by decide)
    · exact hword (w := "LEFT") _ (by decide)
    · exact hword (w := "RIGHT") _ (by decide)
    · exact hword (w := "RIGHT") _ (by decide)
    · exact hword (w := "FULL") _ (by decide)
    · exact hword (w := "FULL") _ (by decide)

theorem join_of_ends (ht : Ends 8 text) : Join.reader text = none := by
  have hword : ∀ {word : String}, (∀ w ∈ "" :: clauseWords.drop 8, lower w.toList ≠ word.toList) →
      keyword word text = none := fun hw => keyword_of_ends ht hw
  have hside : Join.sideWord text = none := by
    rw [Join.sideWord, orElse_of_none (bind_of_none (hword (by decide))),
      orElse_of_none (bind_of_none (hword (by decide)))]
    exact bind_of_none (hword (by decide))
  have hkind : Join.kindReader text = none := by
    rw [Join.kindReader, orElse_of_none (bind_of_none (hword (by decide))),
      orElse_of_none (bind_of_none (hword (by decide)))]
    exact bind_of_none hside
  rw [Join.reader, bind_of_some (Reader.optional_of_none hkind)]
  exact bind_of_none (hword (by decide))

/-- The joins of a query, each behind a blank. -/
def joinsChars (joins : List Join) : List Char :=
  (String.join (joins.map fun join => " " ++ join.render .standard)).toList

theorem joinsChars_cons (join : Join) (joins : List Join) :
    joinsChars (join :: joins) = (" " ++ join.render .standard).toList ++ joinsChars joins := by
  simp [joinsChars]

theorem joins_ends {joins : List Join} (h : ∀ join ∈ joins, join.WellFormed) (ht : Ends 8 text) :
    Ends 2 (joinsChars joins ++ text) := by
  cases joins with
  | nil => exact ht.mono (by decide)
  | cons join joins =>
    rw [joinsChars_cons, List.append_assoc]
    exact join_ends (h join List.mem_cons_self) _

theorem joins_append {joins : List Join} (h : ∀ join ∈ joins, join.WellFormed)
    (ht : Ends 8 text) : Reader.many Join.reader (joinsChars joins ++ text) =
      some (joins.map Join.reread, text) := by
  have hsteps : Steps Join.reader (joinsChars joins ++ text) (joins.map Join.reread) text := by
    induction joins with
    | nil => exact .nil text
    | cons join joins ih =>
      have hrest := fun j hj => h j (List.mem_cons_of_mem join hj)
      have ih := ih hrest
      have hread := join_append (h join List.mem_cons_self) (joins_ends hrest ht)
      have hpos : 0 < (" " ++ join.render .standard).toList.length := by
        rw [String.toList_append, List.length_append]
        exact Nat.lt_of_lt_of_le (by decide) (Nat.le_add_right _ _)
      rw [joinsChars_cons, List.append_assoc]
      refine .cons hread ?_ ih
      simp only [List.length_append] at hpos ⊢
      omega
  exact hsteps.many_eq (join_of_ends ht)

theorem count_append (n : Nat) (h : Breaks Char.isDigit text) :
    Count.reader ([' '] ++ (n.repr.toList ++ text)) =
      some (⟨n.repr.toList, n.repr.toList ++ text⟩, text) := by
  have hread := Numeral.digits_append (Numeral.isDigits_repr n) h
  obtain ⟨hne, hall⟩ := Numeral.isDigits_repr n
  have hgap : Breaks isGap (n.repr.toList ++ text) := by
    cases hcs : n.repr.toList with
    | nil => exact absurd hcs hne
    | cons c cs =>
      have hc := hall c (hcs ▸ List.mem_cons_self)
      exact breaks_cons.mpr (isGap_of_isWordChar (isWordChar_of_isDigit hc))
  rw [Count.reader, lexeme_gap Gap.blank, lexeme_of_breaks hgap, hread]
  rfl

theorem Ends.breaks_digit {n : Nat} (h : Ends n text) : Breaks Char.isDigit text := by
  cases h with
  | nil => exact Breaks.nil _
  | word hw => exact breaks_cons.mpr rfl

theorem value_count (whole : List Char) (n : UInt64) (text : List Char) :
    Count.value whole ⟨n.toNat.repr.toList, text⟩ = .ok n := by
  unfold Count.value
  rw [Numeral.natOfDigits_repr, if_pos n.toNat_lt, UInt64.ofNat_toNat]

end Parts

section Clauses
variable {α β : Type} (word : String) (write : β → String) {value : β → α} {text : List Char}

theorem optional_clause {reader : Reader α} (a : Option β)
    (hsome : ∀ b ∈ a, reader (word.toList ++ ((write b).toList ++ text)) = some (value b, text))
    (hnone : reader text = none) :
    optional reader ((Query.optionalClause word write a).toList ++ text) =
      some (a.map value, text) := by
  cases a with
  | none => exact Reader.optional_of_none hnone
  | some b =>
    have hread := hsome b rfl
    rw [← List.append_assoc, ← String.toList_append] at hread
    exact Reader.optional_of_some hread

theorem optional_list {reader : Reader (List α)} (bs : List β)
    (hread : bs ≠ [] → reader (word.toList ++ ((commas (bs.map write)).toList ++ text)) =
      some (bs.map value, text)) (hnone : reader text = none) :
    ∃ items, optional reader ((Query.listClause word write bs).toList ++ text) =
      some (items, text) ∧ items.getD [] = bs.map value := by
  cases bs with
  | nil => exact ⟨none, Reader.optional_of_none hnone, rfl⟩
  | cons b bs =>
    have hread := hread (List.cons_ne_nil b bs)
    rw [← List.append_assoc, ← String.toList_append] at hread
    exact ⟨_, Reader.optional_of_some hread, rfl⟩

theorem ends_optional {n : Nat} (ht : Ends (n + 1) text) (a : Option β) {w : String}
    {suffix : List Char} (hw : w ∈ clauseWords.drop n)
    (hword : word.toList = ' ' :: (w.toList ++ ' ' :: suffix)) :
    Ends n ((Query.optionalClause word write a).toList ++ text) := by
  cases a with
  | none => exact ht.mono (Nat.le_succ n)
  | some b =>
    rw [Query.optionalClause, String.toList_append, hword]
    simp only [List.cons_append, List.append_assoc]
    exact .word hw

theorem ends_list {n : Nat} (ht : Ends (n + 1) text) (bs : List β) {w : String}
    {suffix : List Char} (hw : w ∈ clauseWords.drop n)
    (hword : word.toList = ' ' :: (w.toList ++ ' ' :: suffix)) :
    Ends n ((Query.listClause word write bs).toList ++ text) := by
  cases bs with
  | nil => exact ht.mono (Nat.le_succ n)
  | cons b bs =>
    have hclause : Query.listClause word write (b :: bs) = word ++ commas ((b :: bs).map write) := rfl
    rw [hclause, String.toList_append, hword]
    simp only [List.cons_append, List.append_assoc]
    exact .word hw

end Clauses

section Readers
variable {text : List Char}

theorem tables_append {tables : List String} (hne : tables ≠ []) {n : Nat} (ht : Ends n text) :
    Draft.tablesReader (" FROM ".toList ++ ((commas (tables.map writeTable)).toList ++ text)) =
      some (tables, text) := by
  have hfrom : keyword "from" (" FROM ".toList ++ ((commas (tables.map writeTable)).toList ++ text)) =
      some ((), [' '] ++ ((commas (tables.map writeTable)).toList ++ text)) := rfl
  have hsep := separated_commas ListEnds.comma hne (fun table _ => table_readsAs table) (Or.inr ht)
    (ends_comma ht) Gap.blank
  rw [List.map_id'] at hsep
  exact (bind_of_some hfrom).trans hsep

theorem filter_append {e : Expr} (h : e.WellFormed) {n : Nat} (ht : Ends n text) :
    Draft.filterReader (" WHERE ".toList ++ ((e.render .standard).toList ++ text)) =
      some (e.reread, text) := by
  have hwhere : keyword "where" (" WHERE ".toList ++ ((e.render .standard).toList ++ text)) =
      some ((), [' '] ++ ((e.render .standard).toList ++ text)) := rfl
  exact (bind_of_some hwhere).trans (h.readsAs_reread [' '] text Gap.blank ht.closes)

theorem exprs_readsAs {es : List Expr} (h : ∀ e ∈ es, e.WellFormed) {n : Nat} :
    ∀ e ∈ es, ReadsAs Expr.reader (ListEnds n) (e.render .standard) e.reread :=
  fun e he => (h e he).readsAs_reread.mono fun _ ht => ht.closes

theorem groupBy_append {es : List Expr} (h : ∀ e ∈ es, e.WellFormed) (hne : es ≠ []) {n : Nat}
    (ht : Ends n text) : Draft.groupByReader
      (" GROUP BY ".toList ++ ((commas (es.map (Expr.render .standard))).toList ++ text)) =
        some (es.map Expr.reread, text) := by
  have hgroup : keyword "group"
      (" GROUP BY ".toList ++ ((commas (es.map (Expr.render .standard))).toList ++ text)) =
        some ((), " BY ".toList ++ ((commas (es.map (Expr.render .standard))).toList ++ text)) := rfl
  have hby : keyword "by"
      (" BY ".toList ++ ((commas (es.map (Expr.render .standard))).toList ++ text)) =
        some ((), [' '] ++ ((commas (es.map (Expr.render .standard))).toList ++ text)) := rfl
  have hsep := separated_commas ListEnds.comma hne (exprs_readsAs h) (Or.inr ht)
    (ends_comma ht) Gap.blank
  exact (bind_of_some hgroup).trans ((bind_of_some hby).trans hsep)

theorem orderBy_append {orders : List OrderBy} (h : ∀ order ∈ orders, order.expression.WellFormed)
    (hne : orders ≠ []) {n : Nat} (ht : Ends n text) : Draft.orderByReader
      (" ORDER BY ".toList ++ ((commas (orders.map (OrderBy.render .standard))).toList ++ text)) =
        some (orders.map OrderBy.reread, text) := by
  have horder : keyword "order"
      (" ORDER BY ".toList ++ ((commas (orders.map (OrderBy.render .standard))).toList ++ text)) =
        some ((), " BY ".toList ++
          ((commas (orders.map (OrderBy.render .standard))).toList ++ text)) := rfl
  have hby : keyword "by"
      (" BY ".toList ++ ((commas (orders.map (OrderBy.render .standard))).toList ++ text)) =
        some ((), [' '] ++
          ((commas (orders.map (OrderBy.render .standard))).toList ++ text)) := rfl
  have hsep := separated_commas ListEnds.comma hne (fun order ho => order_readsAs (h order ho))
    (Or.inr ht) (ends_comma ht) Gap.blank
  exact (bind_of_some horder).trans ((bind_of_some hby).trans hsep)

/-- A count as it is read in front of a text. -/
def countOf (text : List Char) (n : UInt64) : Count :=
  ⟨n.toNat.repr.toList, n.toNat.repr.toList ++ text⟩

theorem limit_append (count : UInt64) {n : Nat} (ht : Ends n text) :
    Draft.countReader "limit" (" LIMIT ".toList ++ (count.toNat.repr.toList ++ text)) =
      some (countOf text count, text) := by
  have hword : keyword "limit" (" LIMIT ".toList ++ (count.toNat.repr.toList ++ text)) =
      some ((), [' '] ++ (count.toNat.repr.toList ++ text)) := rfl
  exact (bind_of_some hword).trans (count_append count.toNat ht.breaks_digit)

theorem offset_append (count : UInt64) {n : Nat} (ht : Ends n text) :
    Draft.countReader "offset" (" OFFSET ".toList ++ (count.toNat.repr.toList ++ text)) =
      some (countOf text count, text) := by
  have hword : keyword "offset" (" OFFSET ".toList ++ (count.toNat.repr.toList ++ text)) =
      some ((), [' '] ++ (count.toNat.repr.toList ++ text)) := rfl
  exact (bind_of_some hword).trans (count_append count.toNat ht.breaks_digit)

end Readers

-- The clauses of a statement from some clause on, each with what follows it.
section Statements
variable {select : List SelectItem} {tables : List String} {joins : List Join}
variable {filter : Option Expr} {groupBy : List Expr} {orderBy : List OrderBy}
variable {limit offset : Option UInt64} {text : List Char}

def offsetChars (offset : Option UInt64) : List Char :=
  (Query.optionalClause " OFFSET " (fun n => n.toNat.repr) offset).toList ++ []

def limitChars (limit offset : Option UInt64) : List Char :=
  (Query.optionalClause " LIMIT " (fun n => n.toNat.repr) limit).toList ++ offsetChars offset

def orderChars (orderBy : List OrderBy) (text : List Char) : List Char :=
  (Query.listClause " ORDER BY " (OrderBy.render .standard) orderBy).toList ++ text

def groupChars (groupBy : List Expr) (text : List Char) : List Char :=
  (Query.listClause " GROUP BY " (Expr.render .standard) groupBy).toList ++ text

def filterChars (filter : Option Expr) (text : List Char) : List Char :=
  (Query.optionalClause " WHERE " (Expr.render .standard) filter).toList ++ text

def tablesChars (tables : List String) (text : List Char) : List Char :=
  (Query.listClause " FROM " writeTable tables).toList ++ text

theorem offset_ends (offset : Option UInt64) : Ends 12 (offsetChars offset) :=
  ends_optional _ _ .nil offset (w := "OFFSET") (by decide) rfl

theorem limit_ends (limit offset : Option UInt64) : Ends 11 (limitChars limit offset) :=
  ends_optional _ _ (offset_ends offset) limit (w := "LIMIT") (by decide) rfl

theorem order_ends (ht : Ends 11 text) : Ends 10 (orderChars orderBy text) :=
  ends_list _ _ ht orderBy (w := "ORDER") (by decide) rfl

theorem group_ends (ht : Ends 10 text) : Ends 9 (groupChars groupBy text) :=
  ends_list _ _ ht groupBy (w := "GROUP") (by decide) rfl

theorem filter_ends (ht : Ends 9 text) : Ends 8 (filterChars filter text) :=
  ends_optional _ _ ht filter (w := "WHERE") (by decide) rfl

theorem tables_ends (ht : Ends 2 text) : Ends 1 (tablesChars tables text) :=
  ends_list _ _ ht tables (w := "FROM") (by decide) rfl

theorem optional_offset (offset : Option UInt64) :
    optional (Draft.countReader "offset") (offsetChars offset) =
      some (offset.map (countOf []), []) :=
  optional_clause _ _ offset (fun count _ => offset_append count (.nil : Ends 13 [])) rfl

theorem optional_limit (limit offset : Option UInt64) :
    optional (Draft.countReader "limit") (limitChars limit offset) =
      some (limit.map (countOf (offsetChars offset)), offsetChars offset) := by
  have hnone : keyword "limit" (offsetChars offset) = none :=
    keyword_of_ends (offset_ends offset) (by decide)
  exact optional_clause _ _ limit (fun count _ => limit_append count (offset_ends offset))
    (bind_of_none hnone)

theorem optional_orderBy (h : ∀ order ∈ orderBy, order.expression.WellFormed) (ht : Ends 11 text) :
    ∃ items, optional Draft.orderByReader (orderChars orderBy text) = some (items, text) ∧
      items.getD [] = orderBy.map OrderBy.reread := by
  have hnone : keyword "order" text = none := keyword_of_ends ht (by decide)
  exact optional_list _ _ orderBy (fun hne => orderBy_append h hne ht) (bind_of_none hnone)

theorem optional_groupBy (h : ∀ e ∈ groupBy, e.WellFormed) (ht : Ends 10 text) :
    ∃ items, optional Draft.groupByReader (groupChars groupBy text) = some (items, text) ∧
      items.getD [] = groupBy.map Expr.reread := by
  have hnone : keyword "group" text = none := keyword_of_ends ht (by decide)
  exact optional_list _ _ groupBy (fun hne => groupBy_append h hne ht) (bind_of_none hnone)

theorem optional_filter (h : ∀ e ∈ filter, e.WellFormed) (ht : Ends 9 text) :
    optional Draft.filterReader (filterChars filter text) = some (filter.map Expr.reread, text) := by
  have hnone : keyword "where" text = none := keyword_of_ends ht (by decide)
  exact optional_clause _ _ filter (fun e he => filter_append (h e he) ht) (bind_of_none hnone)

theorem optional_tables (tables : List String) (ht : Ends 2 text) :
    ∃ items, optional Draft.tablesReader (tablesChars tables text) = some (items, text) ∧
      items.getD [] = tables := by
  have hnone : keyword "from" text = none := keyword_of_ends ht (by decide)
  have hread : tables ≠ [] → Draft.tablesReader
      (" FROM ".toList ++ ((commas (tables.map writeTable)).toList ++ text)) =
        some (tables.map id, text) := by
    intro hne
    rw [List.map_id]
    exact tables_append hne ht
  obtain ⟨items, hitems, hget⟩ := optional_list _ _ tables hread (bind_of_none hnone)
  rw [List.map_id] at hget
  exact ⟨items, hitems, hget⟩

/-- The text of the clauses behind the tables and the joins. -/
def lastChars (filter : Option Expr) (groupBy : List Expr) (orderBy : List OrderBy)
    (limit offset : Option UInt64) : List Char :=
  filterChars filter (groupChars groupBy (orderChars orderBy (limitChars limit offset)))

theorem render_select_chars : (Query.render .standard
    { select, tables, joins, filter, groupBy, orderBy, limit, offset }).toList =
      "SELECT".toList ++ ([' '] ++ ((commas (select.map (SelectItem.render .standard))).toList ++
        tablesChars tables (joinsChars joins ++ lastChars filter groupBy orderBy limit offset))) := by
  simp [Query.render, Query.renderClauses, joinsChars, lastChars, tablesChars, filterChars,
    groupChars, orderChars, limitChars, offsetChars]

theorem render_delete_chars (hne : tables ≠ []) : (Query.render .standard
    { statement := .delete, tables, filter }).toList = "DELETE".toList ++ (" FROM ".toList ++
      ((commas (tables.map writeTable)).toList ++ filterChars filter [])) := by
  cases tables with
  | nil => exact absurd rfl hne
  | cons table tables =>
    simp [Query.render, Query.renderClauses, Query.listClause, Query.optionalClause, filterChars]

theorem selectReader_render (hselect : SelectItem.ListWellFormed select)
    (hjoins : ∀ join ∈ joins, join.WellFormed) (hfilter : ∀ e ∈ filter, e.WellFormed)
    (hgroup : ∀ e ∈ groupBy, e.WellFormed)
    (horder : ∀ order ∈ orderBy, order.expression.WellFormed) :
    Draft.selectReader (Query.render .standard
      { select, tables, joins, filter, groupBy, orderBy, limit, offset }).toList = some ({
        query := Query.reread { select, tables, joins, filter, groupBy, orderBy }
        limit := limit.map (countOf (offsetChars offset))
        offset := offset.map (countOf []) }, []) := by
  have horderEnds : Ends 10 (orderChars orderBy (limitChars limit offset)) :=
    order_ends (limit_ends limit offset)
  have hgroupEnds : Ends 9 (groupChars groupBy (orderChars orderBy (limitChars limit offset))) :=
    group_ends horderEnds
  have hlastEnds : Ends 8 (lastChars filter groupBy orderBy limit offset) := filter_ends hgroupEnds
  have hjoinsEnds := joins_ends hjoins hlastEnds
  have hword : ∀ rest, keyword "select" ("SELECT".toList ++ ([' '] ++ rest)) =
      some ((), [' '] ++ rest) := fun rest => rfl
  have hitems := items_readsAs hselect [' '] _ Gap.blank
    (tables_ends hjoinsEnds : Ends 1 (tablesChars tables _))
  obtain ⟨tables', htables, rfl⟩ := optional_tables tables hjoinsEnds
  have hjoin := joins_append hjoins hlastEnds
  have hfilter := optional_filter hfilter hgroupEnds
  obtain ⟨groupBy', hgroupBy, hgroupBy'⟩ := optional_groupBy hgroup horderEnds
  obtain ⟨orderBy', horderBy, horderBy'⟩ := optional_orderBy horder (limit_ends limit offset)
  rw [render_select_chars, Query.reread_eq, Draft.selectReader, bind_of_some (hword _), bind_of_some hitems,
    bind_of_some htables, bind_of_some hjoin]
  rw [lastChars, bind_of_some hfilter, bind_of_some hgroupBy, bind_of_some horderBy,
    bind_of_some (optional_limit limit offset), bind_of_some (optional_offset offset), hgroupBy',
    horderBy']
  rfl

theorem deleteReader_render (hne : tables ≠ []) (hfilter : ∀ e ∈ filter, e.WellFormed) :
    Draft.deleteReader (Query.render .standard { statement := .delete, tables, filter }).toList =
      some ({ query := Query.reread { statement := .delete, tables, filter } }, []) := by
  have hend : Ends 8 (filterChars filter []) := filter_ends .nil
  have hword : ∀ rest, keyword "delete" ("DELETE".toList ++ (" FROM ".toList ++ rest)) =
      some ((), " FROM ".toList ++ rest) := fun rest => rfl
  have htables := tables_append hne hend
  have hfilter := optional_filter hfilter .nil
  rw [render_delete_chars hne, Query.reread_eq, Draft.deleteReader, bind_of_some (hword _),
    bind_of_some htables, bind_of_some hfilter]
  rfl

end Statements
end FeatureSql.Sql
