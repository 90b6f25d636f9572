import FeatureSql.Proofs.Layout.Token
import FeatureSql.Proofs.Commas

/-! The tokens that expressions are written with. In every layout they can be told apart. -/

set_option autoImplicit false

namespace FeatureSql.Sql

namespace Token

/-- A word of the syntax, or an operator without letters. -/
def ofWord (word : List Char) : Token :=
  if word.all isWordChar then .keyword (String.ofList word) else .lexeme (String.ofList word)

/-- Words of the syntax with blanks between them. -/
def words (text : String) : List Token :=
  ((text.toList.splitOn ' ').map ofWord).intersperse .blank

/-- An operator as it stands between its operands. -/
def ofOperator (operator : String) : List Token :=
  let gap := if operatorGap operator = "" then [] else [.blank]
  gap ++ (words operator ++ gap)

def parenthesize (needed : Bool) (tokens : List Token) : List Token :=
  if needed then .lexeme "(" :: (tokens ++ [.lexeme ")"]) else tokens

/-- Parts of a list, with a comma and a blank between neighbours. -/
def commas : List (List Token) → List Token
  | [] => []
  | part :: parts => part ++ parts.flatMap fun part => .lexeme "," :: .blank :: part

theorem text_ofWord (word : List Char) : (ofWord word).text.toList = word := by
  unfold ofWord
  split <;> simp

theorem chars_intersperse (tokens : List Token) : chars (tokens.intersperse .blank) =
    [' '].intercalate (tokens.map fun token => token.text.toList) := by
  rw [List.intercalate]
  induction tokens with
  | nil => rfl
  | cons first tokens ih =>
    cases tokens with
    | nil => simp
    | cons second tokens =>
      rw [List.intersperse_cons_cons, List.map_cons, List.map_cons, List.intersperse_cons_cons,
        chars_cons, chars_cons, ih]
      rfl

theorem chars_words (text : String) : chars (words text) = text.toList := by
  rw [words, chars_intersperse, List.map_map]
  have hid : ((fun token : Token => token.text.toList) ∘ ofWord) = id := funext text_ofWord
  rw [hid, List.map_id, List.intercalate_splitOn]

theorem chars_ofOperator (operator : String) : chars (ofOperator operator) =
    (operatorGap operator ++ operator ++ operatorGap operator).toList := by
  have hgap : chars (if operatorGap operator = "" then [] else [.blank]) =
      (operatorGap operator).toList := by
    unfold operatorGap
    split <;> rfl
  simp only [ofOperator, chars_append, chars_words, hgap, String.toList_append, List.append_assoc]

theorem chars_parenthesize (needed : Bool) {tokens : List Token} {sql : String}
    (h : chars tokens = sql.toList) :
    chars (parenthesize needed tokens) = (Sql.parenthesize needed sql).toList := by
  cases needed with
  | false => exact h
  | true => simp [parenthesize, Sql.parenthesize, h]

theorem chars_commas {parts : List (List Token)} {sqls : List String}
    (h : parts.map chars = sqls.map String.toList) :
    chars (commas parts) = (Sql.commas sqls).toList := by
  have htail : ∀ (parts : List (List Token)) (sqls : List String),
      parts.map chars = sqls.map String.toList →
        chars (parts.flatMap fun part => .lexeme "," :: .blank :: part) =
          Reader.markedTail ", " sqls := by
    intro parts
    induction parts with
    | nil =>
      intro sqls h
      rw [List.map_eq_nil_iff.mp h.symm]
      rfl
    | cons part parts ih =>
      intro sqls h
      obtain ⟨sql, rest, rfl, hsql, hrest⟩ := List.map_eq_cons_iff.mp h.symm
      rw [Reader.markedTail_cons, ← ih rest hrest.symm, List.flatMap_cons, hsql]
      simp
  cases parts with
  | nil =>
    rw [List.map_eq_nil_iff.mp h.symm]
    rfl
  | cons part parts =>
    obtain ⟨sql, rest, rfl, hsql, hrest⟩ := List.map_eq_cons_iff.mp h.symm
    rw [commas, chars_append, htail parts rest hrest.symm, Sql.commas, Reader.intercalate_cons,
      hsql]

/-- A token of the syntax itself: its text decides that it is sound. -/
def isFixed : Token → Bool
  | .blank => true
  | .keyword word => isReserved word.toList
  | .lexeme text => !text.toList.isEmpty &&
      (text.toList.all TokenKind.word.goesOn || text.toList.all TokenKind.sign.goesOn)

theorem sound_of_isFixed {token : Token} (h : token.isFixed = true) : token.Sound := by
  cases token with
  | blank => exact True.intro
  | keyword word => exact h
  | lexeme text =>
    rw [isFixed, Bool.and_eq_true, Bool.or_eq_true, Bool.not_eq_true',
      List.isEmpty_eq_false_iff] at h
    obtain ⟨hne, hall | hall⟩ := h
    · exact ⟨.word, .run (Or.inl rfl) hne (List.all_eq_true.mp hall)⟩
    · exact ⟨.sign, .run (Or.inr rfl) hne (List.all_eq_true.mp hall)⟩

theorem twin_comma : Twin .mark ",".toList ",".toList := .mark (c := ',') (by simp)

theorem twin_open : Twin .mark "(".toList "(".toList := .mark (c := '(') (by simp)

theorem twin_close : Twin .mark ")".toList ")".toList := .mark (c := ')') (by simp)

end Token

section Spacing
variable {tokens first second : List Token} {token : Token}

theorem Spaced.nil : Spaced [] := ⟨by simp, .nil⟩

theorem Spaced.of_isFixed (h : tokens.all Token.isFixed = true)
    (hchain : tokens.IsChain Token.MayTouch) : Spaced tokens :=
  ⟨fun token htoken => Token.sound_of_isFixed (List.all_eq_true.mp h token htoken), hchain⟩

theorem Spaced.cons (ht : token.Sound) (htouch : ∀ next ∈ tokens.head?, token.MayTouch next)
    (h : Spaced tokens) : Spaced (token :: tokens) :=
  ⟨List.forall_mem_cons.mpr ⟨ht, h.sound⟩, List.isChain_cons.mpr ⟨htouch, h.chain⟩⟩

theorem Spaced.append (hf : Spaced first) (hs : Spaced second)
    (htouch : ∀ last ∈ first.getLast?, ∀ next ∈ second.head?, last.MayTouch next) :
    Spaced (first ++ second) :=
  ⟨List.forall_mem_append.mpr ⟨hf.sound, hs.sound⟩, hf.chain.append hs.chain htouch⟩

/-- A loose token touches what stands before and behind it. -/
theorem Spaced.between (hf : Spaced first) (ht : token.Sound) (hloose : token.Loose)
    (hs : Spaced second) : Spaced (first ++ token :: second) :=
  hf.append (.cons ht (fun next _ => hloose.before next) hs) fun last _ _ hnext =>
    Option.some.inj hnext ▸ hloose.behind last

theorem Spaced.commas {parts : List (List Token)} (h : ∀ part ∈ parts, Spaced part) :
    Spaced (Token.commas parts) := by
  cases parts with
  | nil => exact .nil
  | cons part parts =>
    rw [List.forall_mem_cons] at h
    rw [Token.commas]
    obtain ⟨hpart, hparts⟩ := h
    induction parts generalizing part with
    | nil => rwa [List.flatMap_nil, List.append_nil]
    | cons next parts ih =>
      rw [List.forall_mem_cons] at hparts
      refine hpart.between ⟨_, Token.twin_comma⟩ (Or.inr rfl) ?_
      exact .cons True.intro (fun token _ => Token.loose_blank.before token)
        (ih next hparts.1 hparts.2)

/-- Tokens that may stand beside an operator without a blank. -/
structure Operand (tokens : List Token) : Prop extends Spaced tokens where
  ne : tokens ≠ []
  head : ∀ token ∈ tokens.head?, token.kind? ≠ some .sign
  last : ∀ token ∈ tokens.getLast?, token.kind? ≠ some .sign

/-- Tokens that may stand between two operands. -/
structure Joint (tokens : List Token) : Prop extends Spaced tokens where
  ne : tokens ≠ []
  head : ∀ token ∈ tokens.head?, token.Loose ∨ token.kind? = some .sign
  last : ∀ token ∈ tokens.getLast?, token.Loose ∨ token.kind? = some .sign

/-- A token on its own, if it is no sign. -/
theorem Operand.single (ht : token.Sound) (hkind : token.kind? ≠ some .sign) : Operand [token] where
  toSpaced := .cons ht (by simp) .nil
  ne := by simp
  head := by simpa using hkind
  last := by simpa using hkind

theorem Operand.of_twin {kind : TokenKind} {text : String} (h : Twin kind text.toList text.toList)
    (hkind : kind ≠ .sign) : Operand [.lexeme text] :=
  .single ⟨kind, h⟩ (by rw [Token.kind?_lexeme h]; simpa using hkind)

theorem Operand.before (ht : Operand [token]) (h : Operand tokens)
    (htouch : ∀ next ∈ tokens.head?, token.MayTouch next) : Operand (token :: tokens) where
  toSpaced := h.toSpaced.cons ht.toSpaced.head htouch
  ne := by simp
  head := ht.head
  last := by
    rw [List.getLast?_cons_of_ne_nil h.ne]
    exact h.last

theorem Operand.joined {joint : List Token} (hf : Operand first) (hj : Joint joint)
    (hs : Operand second) : Operand (first ++ (joint ++ second)) where
  toSpaced := by
    have htouch : ∀ {operand mark : Token}, operand.kind? ≠ some .sign →
        mark.Loose ∨ mark.kind? = some .sign → operand.MayTouch mark ∧ mark.MayTouch operand := by
      rintro operand mark hoperand (hmark | hmark)
      · exact ⟨hmark.behind operand, hmark.before operand⟩
      · exact ⟨fun hsame => absurd (hsame.trans hmark) hoperand,
          fun hsame => absurd (hsame.symm.trans hmark) hoperand⟩
    refine hf.toSpaced.append (hj.toSpaced.append hs.toSpaced fun last hlast next hnext =>
      (htouch (hs.head next hnext) (hj.last last hlast)).2) fun last hlast next hnext => ?_
    rw [List.head?_append_of_ne_nil joint hj.ne] at hnext
    exact (htouch (hf.last last hlast) (hj.head next hnext)).1
  ne := by simp [hf.ne]
  head := by
    rw [List.head?_append_of_ne_nil first hf.ne]
    exact hf.head
  last := by
    rw [List.getLast?_append_of_ne_nil first (by simp [hs.ne]),
      List.getLast?_append_of_ne_nil joint hs.ne]
    exact hs.last

/-- What stands in parentheses may hold any tokens. -/
theorem Operand.enclosed (h : Spaced tokens) :
    Operand (.lexeme "(" :: (tokens ++ [.lexeme ")"])) where
  toSpaced := .cons ⟨_, Token.twin_open⟩ (fun next _ => Token.Loose.before (Or.inr rfl) next)
    (h.between ⟨_, Token.twin_close⟩ (Or.inr rfl) .nil)
  ne := by simp
  head := by
    intro token htoken
    obtain rfl := Option.some.inj htoken
    decide
  last := by
    intro token htoken
    rw [← List.cons_append, List.getLast?_concat] at htoken
    obtain rfl := Option.some.inj htoken
    decide

theorem Operand.parenthesize (needed : Bool) (h : Operand tokens) :
    Operand (Token.parenthesize needed tokens) := by
  cases needed with
  | false => exact h
  | true => exact .enclosed h.toSpaced

theorem operand_run {text : String} (hne : text.toList ≠ [])
    (hall : ∀ c ∈ text.toList, TokenKind.word.goesOn c = true) : Operand [.lexeme text] :=
  .of_twin (.run (Or.inl rfl) hne hall) (by decide)

theorem operand_quoted {mark : Char} (hmark : mark ∈ ['\x27', '\x22']) (value : String) :
    Operand [.lexeme (Quoted.write mark value)] := .of_twin (.quoted value hmark) (by simp)

theorem operand_bare {text : String} (h : IsBare text.toList) : Operand [.lexeme text] := by
  obtain ⟨c, cs, hchars, _⟩ := h.start
  exact operand_run (by simp [hchars]) fun c hc =>
    TokenKind.goesOn_of_isTableChar (isTableChar_of_isNameChar (h.all c hc))

theorem operand_writeName (value : String) : Operand [.lexeme (writeName value)] := by
  rcases Expr.writeName_cases value with ⟨hbare, _, hwrite⟩ | hwrite
  · rw [hwrite]
    exact operand_bare hbare
  · rw [hwrite]
    exact operand_quoted (by simp) value

theorem joint_ofOperator {operator : String} (h : operator ∈ binaryOperators ++ listOperators) :
    Joint (Token.ofOperator operator) := by
  have hcheck : ∀ operator ∈ binaryOperators ++ listOperators,
      (Token.ofOperator operator).all Token.isFixed = true ∧
        (Token.ofOperator operator).IsChain Token.MayTouch ∧ Token.ofOperator operator ≠ [] ∧
          (∀ token ∈ (Token.ofOperator operator).head?, token.Loose ∨ token.kind? = some .sign) ∧
            ∀ token ∈ (Token.ofOperator operator).getLast?,
              token.Loose ∨ token.kind? = some .sign := by decide +kernel
  obtain ⟨hfixed, hchain, hne, hhead, hlast⟩ := hcheck operator h
  exact ⟨.of_isFixed hfixed hchain, hne, hhead, hlast⟩

end Spacing

namespace Expr

theorem operand_name (value : String) :
    Operand [.lexeme ((Expr.name value).render .standard)] := by
  rw [render]
  split
  case isTrue hvalue => exact operand_bare (isBare_constant hvalue).1
  case isFalse => exact operand_writeName value

theorem operand_number {value : String} (h : IsNumber value) : Operand [.lexeme value] := by
  obtain ⟨c, cs, hchars, _⟩ := isNumber_start h
  exact operand_run (by simp [hchars]) fun c hc =>
    TokenKind.goesOn_of_isNumeralChar (isNumeralChar_of_isNumber h c hc)

mutual

def tokens : Expr → List Token
  | .name value => [.lexeme ((Expr.name value).render .standard)]
  | .text value => [.lexeme (Dialect.standard.literal value)]
  | .number value => [.lexeme value]
  | .call function arguments =>
    .lexeme function :: .lexeme "(" :: (Token.commas (tokensAll arguments) ++ [.lexeme ")"])
  | .named label value => .lexeme (Dialect.standard.literal label) :: .lexeme "=" :: tokens value
  | .star => [.lexeme "*"]
  | .list items => .lexeme "(" :: (Token.commas (tokensAll items) ++ [.lexeme ")"])
  | .not operand =>
    .keyword "NOT" :: .blank :: Token.parenthesize (needsParens 3 operand) (tokens operand)
  | .logical operator left right =>
    let around := rank (.logical operator left right)
    Token.parenthesize (needsParens around left) (tokens left) ++
      ([.blank, .keyword operator.word, .blank] ++
        Token.parenthesize (needsParens around right) (tokens right))
  | .comparison operator left right =>
    let around := operatorRank operator
    Token.parenthesize (needsParens around left) (tokens left) ++
      (Token.ofOperator operator ++
        Token.parenthesize (needsParensRight around right) (tokens right))

def tokensAll : List Expr → List (List Token)
  | [] => []
  | e :: es => tokens e :: tokensAll es

end

theorem tokensAll_eq_map (es : List Expr) : tokensAll es = es.map tokens := by
  induction es with
  | nil => rfl
  | cons e es ih => rw [tokensAll, ih, List.map_cons]

/-- The tokens, as they are written, are the text. -/
theorem chars_tokens (e : Expr) : Token.chars e.tokens = (e.render .standard).toList := by
  induction e with
  | name value => simp [tokens]
  | text value => simp [tokens, render]
  | number value => simp [tokens, render]
  | star => simp [tokens, render]
  | named label value ih => simp [tokens, render, ih]
  | call function arguments ih =>
    have harguments := @Token.chars_commas (arguments.map tokens) (arguments.map (render .standard))
      (by simpa using ih)
    rw [tokens, tokensAll_eq_map, render, renderAll_eq_map]
    simp [harguments]
  | list items ih =>
    have hitems := @Token.chars_commas (items.map tokens) (items.map (render .standard))
      (by simpa using ih)
    rw [tokens, tokensAll_eq_map, render, renderAll_eq_map]
    simp [hitems]
  | not operand ih => simp [tokens, render, Token.chars_parenthesize _ ih]
  | logical operator left right ihl ihr =>
    simp [tokens, render, Token.chars_parenthesize _ ihl, Token.chars_parenthesize _ ihr]
  | comparison operator left right ihl ihr =>
    simp [tokens, render, Token.chars_ofOperator, Token.chars_parenthesize _ ihl,
      Token.chars_parenthesize _ ihr]

/-- Wherever an expression stands, its tokens can be told apart; and beside an operator, unless it
is an argument. -/
theorem WellFormedAt.spaced {place : Place} {e : Expr} (h : WellFormedAt place e) :
    Spaced e.tokens ∧ (place ≠ .argument → Operand e.tokens) := by
  have hoperand : ∀ {place : Place} {tokens : List Token}, Operand tokens →
      Spaced tokens ∧ (place ≠ .argument → Operand tokens) := fun h => ⟨h.toSpaced, fun _ => h⟩
  have hcommas : ∀ {es : List Expr}, (∀ e ∈ es, Spaced e.tokens) →
      Spaced (Token.commas (tokensAll es)) := by
    intro es hes
    rw [tokensAll_eq_map]
    exact .commas (List.forall_mem_map.mpr hes)
  have hbinary : ∀ {operator : String} {left right : Expr},
      operator ∈ binaryOperators ++ listOperators → Operand left.tokens → Operand right.tokens →
        Operand (Expr.comparison operator left right).tokens := fun hop hl hr =>
    (hl.parenthesize _).joined (joint_ofOperator hop) (hr.parenthesize _)
  induction h with
  | name value => exact hoperand (operand_name value)
  | text value => exact hoperand (operand_quoted (by simp) value)
  | number hv => exact hoperand (operand_number hv)
  | star => exact ⟨.of_isFixed (by decide) (.singleton _), fun h => absurd rfl h⟩
  | positional _ ih => exact ⟨ih.1, fun h => absurd rfl h⟩
  | named label _ ih =>
    have hequals : Joint [.lexeme "="] :=
      ⟨.of_isFixed (by decide) (.singleton _), by simp, by decide, by decide⟩
    have hlabel : Operand [.lexeme (Dialect.standard.literal label)] :=
      operand_quoted (by simp) label
    have hnamed := hlabel.joined hequals (ih.2 (by decide))
    exact ⟨hnamed.toSpaced, fun h => absurd rfl h⟩
  | call hf _ ih =>
    have hparens := Operand.enclosed (hcommas fun a ha => (ih a ha).1)
    have hfunction := operand_bare (isBare_of_isFunctionName hf).1
    exact hoperand (hfunction.before hparens fun _ hnext => Option.some.inj hnext ▸
      Token.Loose.behind (Or.inr rfl) _)
  | list _ _ ih => exact hoperand (.enclosed (hcommas fun e he => (ih e he).1))
  | @not operand _ ih =>
    have hnot : Operand [.keyword "NOT"] := .single (Token.sound_of_isFixed rfl) (by decide)
    have hblank : Operand [.blank] := .single True.intro (by decide)
    have hrest := hblank.before ((ih.2 (by decide)).parenthesize (needsParens 3 operand))
      fun next _ => Token.loose_blank.before next
    exact hoperand (hnot.before hrest fun _ hnext =>
      Option.some.inj hnext ▸ Token.loose_blank.behind _)
  | logical operator _ _ ihl ihr =>
    have hjoint : Joint [.blank, .keyword operator.word, .blank] := by
      cases operator
      all_goals exact ⟨.of_isFixed (by decide) (by decide), by simp, by decide, by decide⟩
    exact hoperand (((ihl.2 (by decide)).parenthesize _).joined hjoint
      ((ihr.2 (by decide)).parenthesize _))
  | comparison hop _ _ ihl ihr =>
    exact hoperand (hbinary (List.mem_append_left _ hop) (ihl.2 (by decide)) (ihr.2 (by decide)))
  | membership hop _ _ ihl ihr =>
    exact hoperand (hbinary (List.mem_append_right _ hop) (ihl.2 (by decide)) (ihr.2 (by decide)))

end Expr
end FeatureSql.Sql
