import FeatureSql.Proofs.Layout.Statement
import FeatureSql.Proofs.Layout.Written

/-! Queries laid out anew: the case of the keywords, the blanks and a semicolon at the end do not
change what is read from the text of a query. -/

set_option autoImplicit false

namespace FeatureSql.Sql

namespace Token

/-- Words of the syntax in front of what they introduce. -/
def phrase (word : String) (tokens : List Token) : List Token := words word ++ .blank :: tokens

theorem chars_phrase (word : String) (tokens : List Token) :
    chars (phrase word tokens) = (word ++ " ").toList ++ chars tokens := by
  simp [phrase, chars_words]

end Token

namespace Query

/-- A clause that is written only if it has a value. -/
def optionalTokens {α : Type} (word : String) (tokens : α → List Token) : Option α → List Token
  | some a => .blank :: Token.phrase word (tokens a)
  | none => []

/-- A clause that is written only if its list is not empty. -/
def listTokens {α : Type} (word : String) (tokens : α → List Token) : List α → List Token
  | [] => []
  | items => .blank :: Token.phrase word (Token.commas (items.map tokens))

end Query

namespace SelectItem

def outputTokens : Option String → List Token
  | some output => .blank :: Token.phrase "AS" [.lexeme (writeName output)]
  | none => []

def tokens : SelectItem → List Token
  | .wildcard => [.lexeme "*"]
  | .column name output => .lexeme (writeName name) :: outputTokens output
  | .aggregate function argument output =>
    .lexeme function.name :: .lexeme "(" :: ([.lexeme argument.render] ++ [.lexeme ")"]) ++
      outputTokens output
  | .distinct columns =>
    Token.phrase "DISTINCT" (Token.commas (columns.map fun column => [.lexeme (writeName column)]))
  | .computed expression output => expression.tokens ++ outputTokens output

end SelectItem

def OrderBy.tokens (order : OrderBy) : List Token :=
  match order.direction with
  | some direction => order.expression.tokens ++ .blank :: Token.words direction.word
  | none => order.expression.tokens

namespace Join

def kindTokens : Option String → List Token
  | some kind => .blank :: Token.words kind
  | none => []

def tokens (join : Join) : List Token :=
  kindTokens join.kind ++ (.blank :: Token.phrase "JOIN" [.lexeme (writeTable join.table)]) ++
    Query.optionalTokens "ON" Expr.tokens join.condition

end Join

namespace Query

def clauseTokens (query : Query) : List Token :=
  listTokens "FROM" (fun table => [.lexeme (writeTable table)]) query.tables ++
    query.joins.flatMap Join.tokens ++
    optionalTokens "WHERE" Expr.tokens query.filter ++
    listTokens "GROUP BY" Expr.tokens query.groupBy ++
    listTokens "ORDER BY" OrderBy.tokens query.orderBy ++
    optionalTokens "LIMIT" (fun n => [.lexeme n.toNat.repr]) query.limit ++
    optionalTokens "OFFSET" (fun n => [.lexeme n.toNat.repr]) query.offset

def tokens (query : Query) : List Token :=
  match query.statement with
  | .select => Token.phrase "SELECT" (Token.commas (query.select.map SelectItem.tokens)) ++
      query.clauseTokens
  | .delete => Token.words "DELETE" ++ query.clauseTokens
  | .other _ sql => [.lexeme sql]

end Query

open Token (chars_words chars_phrase chars_commas)

theorem SelectItem.chars_outputTokens (sql : String) (output : Option String) :
    sql.toList ++ Token.chars (outputTokens output) = (withOutput sql output).toList := by
  cases output with
  | none => simp [outputTokens, withOutput]
  | some output => simp [outputTokens, withOutput, chars_phrase]

theorem SelectItem.chars_tokens (item : SelectItem) :
    Token.chars item.tokens = (item.render .standard).toList := by
  cases item with
  | wildcard => simp [tokens, render]
  | column name output => simp [tokens, render, chars_outputTokens]
  | aggregate function argument output =>
    rw [tokens, render, ← chars_outputTokens]
    simp
  | distinct columns =>
    have hcolumns := @chars_commas (columns.map fun column => [.lexeme (writeName column)])
      (columns.map writeName) (by simp)
    simp [tokens, render, chars_phrase, hcolumns]
  | computed expression output =>
    rw [tokens, render, Token.chars_append, Expr.chars_tokens, chars_outputTokens]

theorem OrderBy.chars_tokens (order : OrderBy) :
    Token.chars order.tokens = (order.render .standard).toList := by
  rw [tokens, render]
  cases order.direction with
  | none => exact Expr.chars_tokens order.expression
  | some direction => simp [Expr.chars_tokens, chars_words]

theorem Join.chars_tokens (join : Join) :
    Token.chars join.tokens = (" " ++ join.render .standard).toList := by
  obtain ⟨kind, table, condition⟩ := join
  cases kind <;> cases condition <;>
    simp [tokens, kindTokens, Query.optionalTokens, render, chars_phrase, chars_words,
      Expr.chars_tokens]

namespace Query

section Clauses
variable {α : Type} {tokens : α → List Token} {write : α → String}
variable (h : ∀ a, Token.chars (tokens a) = (write a).toList) (word : String)
include h

theorem chars_optionalTokens (a : Option α) : Token.chars (optionalTokens word tokens a) =
    (optionalClause (" " ++ (word ++ " ")) write a).toList := by
  cases a with
  | none => rfl
  | some a => simp [optionalTokens, optionalClause, chars_phrase, h]

theorem chars_listTokens (items : List α) : Token.chars (listTokens word tokens items) =
    (listClause (" " ++ (word ++ " ")) write items).toList := by
  cases items with
  | nil => rfl
  | cons a items =>
    have hitems := @chars_commas ((a :: items).map tokens) ((a :: items).map write) (by simp [h])
    simp only [listTokens, listClause, Token.chars_cons, chars_phrase, hitems, Token.text_blank,
      String.toList_append, List.append_assoc]

end Clauses

theorem chars_clauseTokens (query : Query) :
    Token.chars query.clauseTokens = (query.renderClauses .standard).toList := by
  have hjoins : Token.chars (query.joins.flatMap Join.tokens) =
      (String.join (query.joins.map fun join => " " ++ join.render .standard)).toList := by
    generalize query.joins = joins
    induction joins with
    | nil => rfl
    | cons join joins ih =>
      rw [List.flatMap_cons, Token.chars_append, ih, List.map_cons, String.join_cons,
        String.toList_append, Join.chars_tokens]
  have hcount : ∀ n : UInt64, Token.chars [.lexeme n.toNat.repr] = n.toNat.repr.toList := by simp
  have htable : ∀ table : String, Token.chars [.lexeme (writeTable table)] =
      (writeTable table).toList := by simp
  simp only [clauseTokens, renderClauses, Token.chars_append, String.toList_append, hjoins]
  rw [chars_listTokens htable, chars_optionalTokens Expr.chars_tokens,
    chars_listTokens Expr.chars_tokens, chars_listTokens OrderBy.chars_tokens,
    chars_optionalTokens hcount, chars_optionalTokens hcount]
  rfl

/-- The tokens, as they are written, are the text. -/
theorem chars_tokens (query : Query) :
    Token.chars query.tokens = (query.render .standard).toList := by
  have hselect := @chars_commas (query.select.map SelectItem.tokens)
    (query.select.map (SelectItem.render .standard)) (by simp [SelectItem.chars_tokens])
  rw [tokens, render]
  cases query.statement with
  | select => simp [chars_phrase, hselect, chars_clauseTokens]
  | delete => simp [chars_words, chars_clauseTokens]
  | other keyword sql => simp

end Query

/-- Tokens that may follow any others: nothing, or a blank with what is behind it. -/
structure Trailing (tokens : List Token) : Prop extends Spaced tokens where
  head : ∀ token ∈ tokens.head?, token.Loose

section Spacing
variable {first second tokens : List Token}

theorem Trailing.nil : Trailing [] := ⟨.nil, by simp⟩

theorem Trailing.blank (h : Spaced tokens) : Trailing (.blank :: tokens) :=
  ⟨.cons True.intro (fun next _ => Token.loose_blank.before next) h, by
    simpa using Token.loose_blank⟩

theorem Spaced.trailing (h : Spaced first) (hc : Trailing second) : Spaced (first ++ second) :=
  h.append hc.toSpaced fun last _ next hnext => (hc.head next hnext).behind last

theorem Trailing.append (hf : Trailing first) (hs : Trailing second) :
    Trailing (first ++ second) where
  toSpaced := hf.toSpaced.trailing hs
  head := by
    cases first with
    | nil => exact hs.head
    | cons token first => exact hf.head

/-- The words of the clauses, joins aside. -/
def phraseWords : List String :=
  ["SELECT", "DELETE", "DISTINCT", "AS", "FROM", "JOIN", "ON", "WHERE", "GROUP BY", "ORDER BY",
   "ASC", "DESC", "LIMIT", "OFFSET"]

theorem spaced_words : ∀ word ∈ phraseWords ++ Join.kinds, Spaced (Token.words word) := by
  have hcheck : ∀ word ∈ phraseWords ++ Join.kinds,
      (Token.words word).all Token.isFixed = true ∧ (Token.words word).IsChain Token.MayTouch := by
    decide +kernel
  exact fun word hword => .of_isFixed (hcheck word hword).1 (hcheck word hword).2

theorem Spaced.phrase {word : String} (hword : Spaced (Token.words word)) (h : Spaced tokens) :
    Spaced (Token.phrase word tokens) := hword.between True.intro Token.loose_blank h

end Spacing

section Clauses
variable {α : Type} {word : String} {tokens : α → List Token}
variable (hword : Spaced (Token.words word))
include hword

theorem Query.trailing_optionalTokens {a : Option α} (h : ∀ b ∈ a, Spaced (tokens b)) :
    Trailing (Query.optionalTokens word tokens a) := by
  cases a with
  | none => exact .nil
  | some a => exact .blank (.phrase hword (h a rfl))

theorem Query.trailing_listTokens {items : List α} (h : ∀ a ∈ items, Spaced (tokens a)) :
    Trailing (Query.listTokens word tokens items) := by
  cases items with
  | nil => exact .nil
  | cons a items => exact .blank (.phrase hword (.commas (List.forall_mem_map.mpr h)))

end Clauses

theorem operand_writeTable (table : String) : Operand [.lexeme (writeTable table)] := by
  unfold writeTable
  split
  case isTrue hbare =>
    have hbare := isBareTable_of_isBareTable hbare
    obtain ⟨c, cs, hchars, _⟩ := hbare.start
    exact operand_run (by simp [hchars]) fun c hc =>
      TokenKind.goesOn_of_isTableChar (hbare.all c hc)
  case isFalse => exact operand_quoted (by simp) table

theorem operand_count (n : UInt64) : Operand [.lexeme n.toNat.repr] := by
  obtain ⟨hne, hdigits⟩ := Numeral.isDigits_repr n.toNat
  exact operand_run hne fun c hc =>
    TokenKind.goesOn_of_isWordChar (isWordChar_of_isDigit (hdigits c hc))

namespace SelectItem

theorem trailing_outputTokens (output : Option String) : Trailing (outputTokens output) := by
  cases output with
  | none => exact .nil
  | some output =>
    exact .blank (.phrase (spaced_words _ (by decide)) (operand_writeName output).toSpaced)

theorem spaced_tokens {item : SelectItem} (h : item.WellFormed) : Spaced item.tokens := by
  cases item with
  | wildcard => exact .of_isFixed (by decide) (.singleton _)
  | column name output =>
    exact (operand_writeName name).toSpaced.trailing (trailing_outputTokens output)
  | aggregate function argument output =>
    have hfunction : Operand [.lexeme function.name] := by
      cases function <;> exact operand_run (by decide) (List.all_eq_true.mp rfl)
    have hargument : Spaced [.lexeme argument.render] := by
      cases argument with
      | star => exact .of_isFixed (by decide) (.singleton _)
      | column name => exact (operand_writeName name).toSpaced
    have hcall := hfunction.before (.enclosed hargument) fun _ hnext => Option.some.inj hnext ▸
      Token.Loose.behind (Or.inr rfl) _
    exact hcall.toSpaced.trailing (trailing_outputTokens output)
  | distinct columns => exact absurd h id
  | computed expression output => exact h.1.spaced.1.trailing (trailing_outputTokens output)

theorem spaced_list {items : List SelectItem} (h : ListWellFormed items) :
    Spaced (Token.commas (items.map tokens)) := by
  refine .commas (List.forall_mem_map.mpr fun item hitem => ?_)
  rcases h with ⟨columns, _, rfl⟩ | ⟨_, h⟩
  · rw [List.mem_singleton.mp hitem]
    exact .phrase (spaced_words _ (by decide)) (.commas (List.forall_mem_map.mpr fun column _ =>
      (operand_writeName column).toSpaced))
  · exact spaced_tokens (h item hitem)

end SelectItem

theorem OrderBy.spaced_tokens {order : OrderBy} (h : order.expression.WellFormed) :
    Spaced order.tokens := by
  rw [tokens]
  cases order.direction with
  | none => exact h.spaced.1
  | some direction =>
    exact h.spaced.1.trailing (.blank (spaced_words _ (by cases direction <;> decide)))

namespace Join

theorem trailing_kindTokens {kind : Option String} (h : ∀ k ∈ kind, k ∈ kinds) :
    Trailing (kindTokens kind) := by
  cases kind with
  | none => exact .nil
  | some kind => exact .blank (spaced_words kind (List.mem_append_right _ (h kind rfl)))

theorem trailing_tokens {join : Join} (h : join.WellFormed) : Trailing join.tokens := by
  have htable := Trailing.blank (.phrase (spaced_words "JOIN" (by decide))
    (operand_writeTable join.table).toSpaced)
  have hcondition := Query.trailing_optionalTokens (spaced_words "ON" (by decide)) fun e he =>
    (h.condition e he).spaced.1
  exact ((trailing_kindTokens h.kind).append htable).append hcondition

end Join

namespace Query

theorem trailing_clauseTokens {query : Query} (hjoins : ∀ join ∈ query.joins, join.WellFormed)
    (hfilter : ∀ e ∈ query.filter, e.WellFormed) (hgroup : ∀ e ∈ query.groupBy, e.WellFormed)
    (horder : ∀ order ∈ query.orderBy, order.expression.WellFormed) :
    Trailing query.clauseTokens := by
  have hjoin : Trailing (query.joins.flatMap Join.tokens) := by
    generalize query.joins = joins at hjoins
    induction joins with
    | nil => exact .nil
    | cons join joins ih =>
      rw [List.forall_mem_cons] at hjoins
      exact (Join.trailing_tokens hjoins.1).append (ih hjoins.2)
  have hcount : ∀ {word : String} (count : Option UInt64), Spaced (Token.words word) →
      Trailing (optionalTokens word (fun n => [.lexeme n.toNat.repr]) count) := fun count hword =>
    trailing_optionalTokens hword fun n _ => (operand_count n).toSpaced
  refine ((((((trailing_listTokens (spaced_words _ (by decide)) fun table _ =>
    (operand_writeTable table).toSpaced).append hjoin).append
    (trailing_optionalTokens (spaced_words _ (by decide)) fun e he =>
      (hfilter e he).spaced.1)).append
    (trailing_listTokens (spaced_words _ (by decide)) fun e he => (hgroup e he).spaced.1)).append
    (trailing_listTokens (spaced_words _ (by decide)) fun order ho =>
      OrderBy.spaced_tokens (horder order ho))).append
    (hcount query.limit (spaced_words _ (by decide)))).append
    (hcount query.offset (spaced_words _ (by decide)))

/-- The tokens of a selection or a deletion can be told apart in every layout. -/
theorem WellFormed.spaced {query : Query} (h : query.WellFormed)
    (hkind : ∀ keyword sql, query.statement ≠ .other keyword sql) : Spaced query.tokens := by
  cases h with
  | select hselect hjoins hfilter hgroup horder =>
    exact (Spaced.phrase (spaced_words _ (by decide)) (SelectItem.spaced_list hselect)).trailing
      (trailing_clauseTokens hjoins hfilter hgroup horder)
  | delete _ hfilter =>
    exact (spaced_words "DELETE" (by decide)).trailing
      (trailing_clauseTokens (by simp) hfilter (by simp) (by simp))
  | other => exact absurd rfl (hkind _ _)

/-- A text of the query with its keywords in any case, any blanks where there is a blank or where
two other tokens meet, blanks at both ends, and perhaps a semicolon. -/
def Relaid (query : Query) (text : String) : Prop :=
  ∃ lead body, Gap lead ∧ Layout query.tokens body ∧ text.toList = lead ++ body

/-- Whatever was read is written as a sequence of tokens; however these are laid out, the text is
read, in either mode, as the query that its text as written is read as. -/
theorem parse_relaid {mode : Mode} {sql : String} {query : Query} (h : parse mode sql = .ok query)
    (hkind : ∀ keyword sql, query.statement ≠ .other keyword sql) :
    Token.chars query.tokens = (query.render .standard).toList ∧
      ∀ (remode : Mode) (text : String), query.Relaid text →
        ∃ again, parse remode (query.render .standard) = .ok again ∧
          parse remode text = .ok again := by
  refine ⟨chars_tokens query, fun remode text ⟨lead, body, hlead, hlayout, htext⟩ => ?_⟩
  have hwellFormed := wellFormed_of_parse h
  have hspaced := hwellFormed.spaced hkind
  have hplain : Layout query.tokens (query.render .standard).toList :=
    chars_tokens query ▸ layout_chars query.tokens
  have halike : Alike (query.render .standard).toList text.toList :=
    htext ▸ (hplain.alike hspaced hlayout).prepend Gap.nil hlead
  have hself : Alike (query.render .standard).toList (query.render .standard).toList :=
    hplain.alike hspaced hplain
  have hread := hwellFormed.parse_render_reread
  have hagain : ∀ keyword sql, query.reread.statement ≠ .other keyword sql := hkind
  exact ⟨query.reread, parse_of_alike hself hread hagain, parse_of_alike halike hread hagain⟩

/-- Keywords in both cases, other blanks between the tokens and around them, a parenthesis away from
its function, and a semicolon. -/
theorem parse_relaid_mixed :
    let sql := "select count(*) from t where a is not null"
    let text := "\tsELECT\ncount (*\t) From\r\nt wHERE a  iS\tnOt NULL ; "
    let query : Query := {
      select := [.aggregate .count .star none]
      tables := ["t"]
      filter := some (.comparison "IS NOT" (.name "a") (.name "NULL")) }
    parse .standard sql = .ok query ∧ (∀ keyword sql, query.statement ≠ .other keyword sql) ∧
      query.Relaid text ∧ ∃ again, parse .experimental (query.render .standard) = .ok again ∧
        parse .experimental text = .ok again := by
  intro sql text query
  have hparse : parse .standard sql = .ok query := by decide +kernel
  have hkind : ∀ keyword sql, query.statement ≠ .other keyword sql :=
    fun _ _ => Statement.noConfusion
  have htokens : query.tokens = [.keyword "SELECT", .blank, .lexeme "count", .lexeme "(",
      .lexeme "*", .lexeme ")", .blank, .keyword "FROM", .blank, .lexeme "t", .blank,
      .keyword "WHERE", .blank, .lexeme "a", .blank, .keyword "IS", .blank, .keyword "NOT", .blank,
      .lexeme "NULL"] := by
    decide +kernel
  have hgap : ∀ {gap : List Char}, gap.all isGap = true → Gap gap := List.all_eq_true.mp
  have hvalue : ∀ (value : String) (gap : List Char) {tokens : List Token} {body : List Char},
      gap.all isGap = true → Layout tokens body →
        Layout (.lexeme value :: tokens) (value.toList ++ (gap ++ body)) :=
    fun _ _ _ _ hall hbody => .lexeme (hgap hall) hbody
  have hblank : ∀ (gap : List Char) {tokens : List Token} {body : List Char},
      gap.all isGap = true ∧ gap ≠ [] → Layout tokens body →
        Layout (.blank :: tokens) (gap ++ body) :=
    fun _ _ _ hall hbody => .blank (hgap hall.1) hall.2 hbody
  have hword : ∀ (word spelling : String) {tokens : List Token} {body : List Char},
      lower spelling.toList = lower word.toList → Layout tokens body →
        Layout (.keyword word :: tokens) (spelling.toList ++ ([] ++ body)) :=
    fun _ _ _ _ hlower hbody => .keyword hlower Gap.nil hbody
  have hend : Layout [] [' ', ';', ' '] := .nil (@Ending.closed [' '] [' '] (hgap rfl) (hgap rfl))
  have hfilter := hvalue "a" [] rfl (hblank [' ', ' '] (by decide)
    (hword "IS" "iS" (by decide +kernel) (hblank ['\t'] (by decide)
      (hword "NOT" "nOt" (by decide +kernel) (hblank [' '] (by decide)
        (hvalue "NULL" [] rfl hend))))))
  have hfrom := hword "FROM" "From" (by decide +kernel) (hblank ['\r', '\n'] (by decide)
    (hvalue "t" [] rfl (hblank [' '] (by decide) (hword "WHERE" "wHERE" (by decide +kernel)
      (hblank [' '] (by decide) hfilter)))))
  have hlayout := hword "SELECT" "sELECT" (by decide +kernel) (hblank ['\n'] (by decide)
    (hvalue "count" [' '] rfl (hvalue "(" [] rfl (hvalue "*" ['\t'] rfl (hvalue ")" [] rfl
      (hblank [' '] (by decide) hfrom))))))
  rw [← htokens] at hlayout
  have hrelaid : query.Relaid text := ⟨['\t'], _, hgap rfl, hlayout, by decide +kernel⟩
  exact ⟨hparse, hkind, hrelaid, (parse_relaid hparse hkind).2 .experimental text hrelaid⟩

end Query
end FeatureSql.Sql
