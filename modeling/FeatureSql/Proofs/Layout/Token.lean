import Mathlib.Data.List.Chain
import FeatureSql.Proofs.Layout.Alike

/-! Sequences of tokens, and the texts that such a sequence can be laid out as. -/

set_option autoImplicit false

namespace FeatureSql.Sql

open Reader (Breaks breaks_cons)

inductive Token where
  /-- Where the text has a blank between two tokens. -/
  | blank
  | keyword (word : String)
  | lexeme (text : String)
  deriving DecidableEq

namespace Token

def text : Token → String
  | .blank => " "
  | .keyword text | .lexeme text => text

/-- The text as it is written. -/
def chars (tokens : List Token) : List Char := tokens.flatMap fun token => token.text.toList

@[simp]
theorem chars_nil : chars [] = [] := rfl

@[simp]
theorem chars_cons (token : Token) (tokens : List Token) :
    chars (token :: tokens) = token.text.toList ++ chars tokens := List.flatMap_cons

@[simp]
theorem chars_append (first second : List Token) :
    chars (first ++ second) = chars first ++ chars second := List.flatMap_append

@[simp]
theorem text_blank : Token.blank.text = " " := rfl

@[simp]
theorem text_keyword (word : String) : (Token.keyword word).text = word := rfl

@[simp]
theorem text_lexeme (text : String) : (Token.lexeme text).text = text := rfl

/-- The kind of a token, which its first character shows. -/
def kind? : Token → Option TokenKind
  | .blank => none
  | .keyword _ => some .word
  | .lexeme text => text.toList.head?.bind TokenKind.ofChar

/-- A keyword is a reserved word, and a lexeme is of one kind. -/
def Sound : Token → Prop
  | .blank => True
  | .keyword word => isReserved word.toList = true
  | .lexeme text => ∃ kind, Twin kind text.toList text.toList

theorem kind?_lexeme {kind : TokenKind} {text : String} (h : Twin kind text.toList text.toList) :
    (Token.lexeme text).kind? = some kind := by
  obtain ⟨c, rest, hchars, hc⟩ := h.start
  rw [kind?, hchars, List.head?_cons, Option.bind_some, hc]

/-- Blanks, parentheses and commas may touch every token. -/
def Loose (token : Token) : Prop := token.kind? = none ∨ token.kind? = some .mark

/-- Two tokens of one kind would run into one another. -/
def MayTouch (first second : Token) : Prop := first.kind? = second.kind? → first.Loose

instance (token : Token) : Decidable token.Loose := inferInstanceAs (Decidable (_ ∨ _))

instance (first second : Token) : Decidable (first.MayTouch second) :=
  inferInstanceAs (Decidable (_ → _))

theorem Loose.before {first : Token} (h : first.Loose) (second : Token) : first.MayTouch second :=
  fun _ => h

theorem Loose.behind {second : Token} (h : second.Loose) (first : Token) :
    first.MayTouch second := by
  intro hsame
  rw [Loose, hsame]
  exact h

theorem loose_blank : Token.blank.Loose := Or.inl rfl

end Token

/-- The texts of a sequence of tokens: keywords in any case, some blanks where there is a blank and
any blanks, or none, behind the other tokens. -/
inductive Layout : List Token → List Char → Prop where
  | nil {text : List Char} : Ending text → Layout [] text
  | blank {tokens : List Token} {gap text : List Char} : Gap gap → gap ≠ [] → Layout tokens text →
      Layout (.blank :: tokens) (gap ++ text)
  | keyword {word : String} {spelling : List Char} {tokens : List Token} {gap text : List Char} :
      lower spelling = lower word.toList → Gap gap → Layout tokens text →
        Layout (.keyword word :: tokens) (spelling ++ (gap ++ text))
  | lexeme {lexeme : String} {tokens : List Token} {gap text : List Char} : Gap gap →
      Layout tokens text → Layout (.lexeme lexeme :: tokens) (lexeme.toList ++ (gap ++ text))

/-- The text as it is written is one of the layouts. -/
theorem layout_chars (tokens : List Token) : Layout tokens (Token.chars tokens) := by
  induction tokens with
  | nil => exact .nil (.gap Gap.nil)
  | cons token tokens ih =>
    cases token with
    | blank => exact .blank Gap.blank (by simp) ih
    | keyword word => exact .keyword rfl Gap.nil ih
    | lexeme text => exact .lexeme Gap.nil ih

/-- Tokens that can be told apart in every layout. -/
structure Spaced (tokens : List Token) : Prop where
  sound : ∀ token ∈ tokens, token.Sound
  chain : tokens.IsChain Token.MayTouch

theorem Spaced.head {token : Token} {tokens : List Token} (h : Spaced (token :: tokens)) :
    token.Sound := h.sound token List.mem_cons_self

theorem Spaced.tail {token : Token} {tokens : List Token} (h : Spaced (token :: tokens)) :
    Spaced tokens :=
  ⟨fun other hother => h.sound other (List.mem_cons_of_mem token hother), h.chain.tail⟩

theorem breaks_gap {kind : TokenKind} {gap text : List Char} (hgap : Gap gap)
    (h : Breaks kind.goesOn text) : Breaks kind.goesOn (gap ++ text) := by
  cases gap with
  | nil => exact h
  | cons c gap =>
    exact breaks_cons.mpr (TokenKind.goesOn_of_none
      (TokenKind.ofChar_none (Or.inl (hgap c List.mem_cons_self))))

theorem Ending.breaks {kind : TokenKind} {text : List Char} (h : Ending text) :
    Breaks kind.goesOn text := by
  cases h with
  | gap h =>
    rw [← List.append_nil text]
    exact breaks_gap h (Breaks.nil _)
  | closed h _ =>
    exact breaks_gap h (breaks_cons.mpr (TokenKind.goesOn_of_none
      (TokenKind.ofChar_none (Or.inr (Or.inl rfl)))))

theorem Twin.breaks {kind other : TokenKind} {cs ds : List Char} (h : Twin other cs ds)
    (hkind : kind = other → kind = .mark) (text : List Char) : Breaks kind.goesOn (cs ++ text) := by
  obtain ⟨c, rest, rfl, hc⟩ := h.start
  exact breaks_cons.mpr (TokenKind.goesOn_false hc hkind)

namespace Layout
variable {tokens : List Token} {text : List Char}

/-- What follows a token in any layout does not go on with it. -/
theorem breaks {token : Token} {kind : TokenKind} (hkind : token.kind? = some kind)
    (hspaced : Spaced (token :: tokens)) (h : Layout tokens text) {gap : List Char}
    (hgap : Gap gap) : Breaks kind.goesOn (gap ++ text) := by
  have hmark : ∀ {other : TokenKind} {next : Token}, tokens.head? = some next →
      next.kind? = some other → kind = other → kind = .mark := by
    rintro other next hhead hnext rfl
    have htouch := hspaced.chain.rel_head? hhead (hkind.trans hnext.symm)
    rw [Token.Loose, hkind] at htouch
    exact htouch.elim (fun h => by cases h) Option.some.inj
  refine breaks_gap hgap ?_
  cases h with
  | nil hends => exact hends.breaks
  | @blank _ blanks _ hblanks hne =>
    obtain ⟨c, blanks, rfl⟩ := List.exists_cons_of_ne_nil hne
    exact breaks_cons.mpr (TokenKind.goesOn_of_none
      (TokenKind.ofChar_none (Or.inl (hblanks c List.mem_cons_self))))
  | keyword hlower =>
    have htwin := Twin.keyword hspaced.tail.head hlower.symm
    exact htwin.symm.breaks (hmark rfl rfl) _
  | lexeme =>
    obtain ⟨other, htwin⟩ := hspaced.tail.head
    exact htwin.breaks (hmark rfl (Token.kind?_lexeme htwin)) _

/-- Two layouts of the same tokens are texts with the same tokens. -/
theorem alike (hspaced : Spaced tokens) (h : Layout tokens text) :
    ∀ {other : List Char}, Layout tokens other → Alike text other := by
  induction h with
  | nil hends =>
    intro other hother
    cases hother with
    | nil hother => exact .ends hends hother
  | blank hgap _ _ ih =>
    intro other hother
    cases hother with
    | blank hgap' _ hrest => exact (ih hspaced.tail hrest).prepend hgap hgap'
  | keyword hlower hgap htext ih =>
    intro other hother
    cases hother with
    | keyword hlower' hgap' hrest =>
      have htwin := Twin.keyword (isReserved_of_lower hlower.symm ▸ hspaced.head)
        (hlower.trans hlower'.symm)
      exact .cons htwin (htext.breaks rfl hspaced hgap) (hrest.breaks rfl hspaced hgap')
        ((ih hspaced.tail hrest).prepend hgap hgap')
  | lexeme hgap htext ih =>
    intro other hother
    cases hother with
    | lexeme hgap' hrest =>
      obtain ⟨kind, htwin⟩ := hspaced.head
      have hkind := Token.kind?_lexeme htwin
      exact .cons htwin (htext.breaks hkind hspaced hgap) (hrest.breaks hkind hspaced hgap')
        ((ih hspaced.tail hrest).prepend hgap hgap')

end Layout
end FeatureSql.Sql
