import FeatureSql.Proofs.Fragment.Local
import FeatureSql.Proofs.Within

/-! Texts with the same tokens. They may differ in the blanks between the tokens, in the case of
keywords, and in whether a semicolon closes them. -/

set_option autoImplicit false

namespace FeatureSql.Sql

open Reader (Breaks breaks_cons)

/-- What a token is, as far as it matters to what may touch it. -/
inductive TokenKind where
  /-- A keyword, a bare name, a number, or a plus or minus between operands. -/
  | word
  /-- Any other operator. -/
  | sign
  | quoted (mark : Char)
  /-- A parenthesis or a comma. -/
  | mark
  deriving DecidableEq

namespace TokenKind

/-- The kind of the tokens that start with a character. -/
def ofChar (c : Char) : Option TokenKind :=
  if isTableChar c || c == '+' then some .word
  else if ['<', '>', '=', '!', '~', '*', '|', '/', '%'].contains c then some .sign
  else if ['\x27', '\x22'].contains c then some (.quoted c)
  else if ['(', ')', ','].contains c then some .mark
  else none

def starts (kind : TokenKind) (c : Char) : Bool := ofChar c == some kind

/-- Whether a character behind a token would go on with it. -/
def goesOn (kind : TokenKind) (c : Char) : Bool := kind != .mark && kind.starts c

theorem ofChar_of_isTableChar {c : Char} (h : isTableChar c = true) : ofChar c = some .word := by
  simp [ofChar, h]

theorem ofChar_of_isWordChar {c : Char} (h : isWordChar c = true) : ofChar c = some .word :=
  ofChar_of_isTableChar (isTableChar_of_isWordChar h)

/-- Neither blanks nor what closes a statement belong to a token, nor do backticks. -/
theorem ofChar_none {c : Char} (h : isGap c = true ∨ c = ';' ∨ c = backtick) : ofChar c = none := by
  rcases h with h | rfl | rfl
  · rcases (isGap_iff c).mp h with rfl | rfl | rfl | rfl <;> rfl
  all_goals rfl

theorem goesOn_of_starts {kind : TokenKind} (hkind : kind ≠ .mark) {c : Char}
    (h : kind.starts c = true) : kind.goesOn c = true := by
  rw [goesOn, h, Bool.and_true, bne_iff_ne]
  exact hkind

theorem starts_of_goesOn {kind : TokenKind} {c : Char} (h : kind.goesOn c = true) :
    kind.starts c = true := ((Bool.and_eq_true _ _).mp h).2

theorem goesOn_of_isTableChar {c : Char} (h : isTableChar c = true) :
    TokenKind.word.goesOn c = true :=
  goesOn_of_starts (by decide) (beq_iff_eq.mpr (ofChar_of_isTableChar h))

theorem goesOn_of_isWordChar {c : Char} (h : isWordChar c = true) :
    TokenKind.word.goesOn c = true :=
  goesOn_of_isTableChar (isTableChar_of_isWordChar h)

theorem goesOn_of_isNumeralChar {c : Char} (h : Numeral.isNumeralChar c = true) :
    TokenKind.word.goesOn c = true := by
  rcases Numeral.isNumeralChar_cases h with hdigit | hmark
  · exact goesOn_of_isWordChar (isWordChar_of_isDigit hdigit)
  · have hmarks : ['+', '-', '.', 'e', 'E'].all TokenKind.word.goesOn = true := by decide
    exact List.all_eq_true.mp hmarks c hmark

/-- A character goes on with tokens of the kind that it starts. -/
theorem goesOn_false {kind other : TokenKind} {c : Char} (h : ofChar c = some other)
    (hkind : kind = other → kind = .mark) : kind.goesOn c = false := by
  rw [← Bool.not_eq_true]
  intro hgoes
  rw [goesOn, starts, h, Bool.and_eq_true, bne_iff_ne, beq_iff_eq, Option.some.injEq] at hgoes
  exact hgoes.1 (hkind hgoes.2.symm)

theorem goesOn_of_none {kind : TokenKind} {c : Char} (h : ofChar c = none) :
    kind.goesOn c = false := by
  simp [goesOn, starts, h]

theorem isPlain_of_ofChar {c : Char} (h : ofChar c = some .word ∨ ofChar c = some .sign) :
    isPlain c = true := by
  unfold ofChar at h
  split at h
  case isTrue hword =>
    rcases Bool.or_eq_true _ _ ▸ hword with hword | hmark
    · exact isPlain_of_isTableChar hword
    · rw [beq_iff_eq.mp hmark]
      rfl
  case isFalse =>
    split at h
    case isTrue hsign =>
      have hsigns : ['<', '>', '=', '!', '~', '*', '|', '/', '%'].all isPlain = true := by decide
      exact List.all_eq_true.mp hsigns c (List.contains_iff_mem.mp hsign)
    case isFalse =>
      split at h
      · simp at h
      · split at h <;> simp at h

end TokenKind

/-- One token as it stands in two texts. A run of characters of one kind may be several lexemes,
such as a number in front of a name; it is the same run in both texts. -/
inductive Twin : TokenKind → List Char → List Char → Prop where
  | run {kind : TokenKind} {cs : List Char} : kind = .word ∨ kind = .sign → cs ≠ [] →
      (∀ c ∈ cs, kind.goesOn c = true) → Twin kind cs cs
  | keyword {word spelling : List Char} : isReserved word = true → lower word = lower spelling →
      Twin .word word spelling
  | quoted {mark : Char} (value : String) : mark ∈ ['\x27', '\x22'] →
      Twin (.quoted mark) (Quoted.write mark value).toList (Quoted.write mark value).toList
  | mark {c : Char} : c ∈ ['(', ')', ','] → Twin .mark [c] [c]

theorem isReserved_of_lower {word spelling : List Char} (h : lower word = lower spelling) :
    isReserved word = isReserved spelling := by
  rw [isReserved, h, isReserved]

theorem isWordChar_of_toLower {c : Char} (h : isWordChar c.toLower = true) :
    isWordChar c = true := by
  rcases toLower_cases c with hsame | halpha
  · rwa [hsame] at h
  · exact (isWordChar_iff c).mpr (Or.inl halpha)

theorem isWordChar_of_isReserved {word : List Char} (h : isReserved word = true) :
    ∀ c ∈ word, isWordChar c = true := by
  have hwords : reservedWords.all (fun w => w.all isWordChar) = true := by decide
  rw [isReserved, List.contains_eq_mem, decide_eq_true_eq] at h
  have hlower := List.all_eq_true.mp hwords _ h
  exact fun c hc =>
    isWordChar_of_toLower (List.all_eq_true.mp hlower _ (List.mem_map.mpr ⟨c, hc, rfl⟩))

namespace Twin
variable {kind : TokenKind} {cs ds : List Char}

theorem symm (h : Twin kind cs ds) : Twin kind ds cs := by
  cases h with
  | run hkind hne hall => exact .run hkind hne hall
  | keyword hreserved hlower => exact .keyword (isReserved_of_lower hlower ▸ hreserved) hlower.symm
  | quoted value hmark => exact .quoted value hmark
  | mark hc => exact .mark hc

/-- A token's kind shows in its first character. -/
theorem start (h : Twin kind cs ds) :
    ∃ c rest, cs = c :: rest ∧ TokenKind.ofChar c = some kind := by
  cases h with
  | run hkind hne hall =>
    obtain ⟨c, rest, rfl⟩ := List.exists_cons_of_ne_nil hne
    exact ⟨c, rest, rfl, beq_iff_eq.mp (TokenKind.starts_of_goesOn (hall c List.mem_cons_self))⟩
  | keyword hreserved =>
    obtain ⟨c, rest, rfl, hc⟩ := Expr.isReserved_start hreserved
    exact ⟨c, rest, rfl, TokenKind.ofChar_of_isWordChar (isWordChar_of_isWordStart hc)⟩
  | @quoted mark value hmark =>
    refine ⟨_, _, toList_write mark value, ?_⟩
    simp only [List.mem_cons, List.not_mem_nil, or_false] at hmark
    rcases hmark with rfl | rfl <;> rfl
  | @mark c hc =>
    refine ⟨c, [], rfl, ?_⟩
    simp only [List.mem_cons, List.not_mem_nil, or_false] at hc
    rcases hc with rfl | rfl | rfl <;> rfl

theorem shut (h : Twin kind cs ds) : Shut cs := by
  cases h with
  | @run kind cs hkind hne hall =>
    refine .of_plain fun c hc => TokenKind.isPlain_of_ofChar ?_
    have hstarts := beq_iff_eq.mp (TokenKind.starts_of_goesOn (hall c hc))
    rcases hkind with rfl | rfl
    · exact Or.inl hstarts
    · exact Or.inr hstarts
  | keyword hreserved =>
    exact .of_plain fun c hc => TokenKind.isPlain_of_ofChar
      (Or.inl (TokenKind.ofChar_of_isWordChar (isWordChar_of_isReserved hreserved c hc)))
  | quoted value hmark => exact clean_write (by simpa using hmark) value
  | @mark c hc =>
    have hmarks : (['(', ')', ','] : List Char).all isPlain = true := by decide
    exact .of_plain fun d hd => List.mem_singleton.mp hd ▸ List.all_eq_true.mp hmarks c hc

end Twin

/-- What may stand behind the last token: blanks, with a semicolon among them or without. -/
inductive Ending : List Char → Prop where
  | gap {gap : List Char} : Gap gap → Ending gap
  | closed {gap last : List Char} : Gap gap → Gap last → Ending (gap ++ ';' :: last)

/-- Two texts with the same tokens, none of which runs into what comes behind it. -/
inductive Alike : List Char → List Char → Prop where
  | ends {s t : List Char} : Ending s → Ending t → Alike s t
  | token {kind : TokenKind} {g k cs ds s t : List Char} : Gap g → Gap k → Twin kind cs ds →
      Breaks kind.goesOn s → Breaks kind.goesOn t → Alike s t →
        Alike (g ++ (cs ++ s)) (k ++ (ds ++ t))

theorem Ending.prepend {gap s : List Char} (hgap : Gap gap) (h : Ending s) : Ending (gap ++ s) := by
  cases h with
  | gap h => exact .gap (hgap.append h)
  | closed h hlast =>
    rw [← List.append_assoc]
    exact .closed (hgap.append h) hlast

/-- What an ending is behind its first blanks: nothing, or a semicolon with blanks behind it. -/
def Ended (s : List Char) : Prop := s = [] ∨ ∃ last, Gap last ∧ s = ';' :: last

theorem Ending.dropWhile {s : List Char} (h : Ending s) : Ended (s.dropWhile isGap) := by
  cases h with
  | gap h =>
    have hall := Reader.dropWhile_append_of_breaks h (Breaks.nil _)
    rw [List.append_nil] at hall
    exact Or.inl hall
  | @closed gap last h hlast =>
    refine Or.inr ⟨last, hlast, ?_⟩
    rw [List.dropWhile_append_of_pos h]
    rfl

theorem Ending.shut {s : List Char} (h : Ending s) : Shut s := by
  cases h with
  | gap h => exact h.shut
  | @closed gap last h hlast =>
    have hmark : Shut [';'] := .of_plain fun c hc => List.mem_singleton.mp hc ▸ rfl
    exact h.shut.append (hmark.append hlast.shut)

namespace Alike
variable {s t : List Char}

theorem symm (h : Alike s t) : Alike t s := by
  induction h with
  | ends hs ht => exact .ends ht hs
  | token hg hk htwin hs ht _ ih => exact .token hk hg htwin.symm ht hs ih

theorem shut (h : Alike s t) : Shut s := by
  induction h with
  | ends hs _ => exact hs.shut
  | token hg _ htwin _ _ _ ih => exact hg.shut.append (htwin.shut.append ih)

/-- Blanks in front make no difference. -/
theorem prepend (h : Alike s t) {g k : List Char} (hg : Gap g) (hk : Gap k) :
    Alike (g ++ s) (k ++ t) := by
  cases h with
  | ends hs ht => exact .ends (hs.prepend hg) (ht.prepend hk)
  | token hg' hk' htwin hs ht hrest =>
    rw [← List.append_assoc, ← List.append_assoc k]
    exact .token (hg.append hg') (hk.append hk') htwin hs ht hrest

theorem cons {kind : TokenKind} {cs ds : List Char} (htwin : Twin kind cs ds)
    (hs : Breaks kind.goesOn s) (ht : Breaks kind.goesOn t) (h : Alike s t) :
    Alike (cs ++ s) (ds ++ t) :=
  .token (g := []) (k := []) Gap.nil Gap.nil htwin hs ht h

/-- What is left of a run is a run, if anything is left. -/
theorem run {kind : TokenKind} (hkind : kind = .word ∨ kind = .sign) {cs : List Char}
    (hall : ∀ c ∈ cs, kind.goesOn c = true) (hs : Breaks kind.goesOn s) (ht : Breaks kind.goesOn t)
    (h : Alike s t) : Alike (cs ++ s) (cs ++ t) := by
  by_cases hne : cs = []
  · subst hne
    exact h
  · exact h.cons (.run hkind hne hall) hs ht

end Alike

/-- Two texts from their first token on. -/
inductive FirstToken : List Char → List Char → Prop where
  | ends {s t : List Char} : Ended s → Ended t → FirstToken s t
  | token {kind : TokenKind} {cs ds s t : List Char} : Twin kind cs ds → Breaks kind.goesOn s →
      Breaks kind.goesOn t → Alike s t → FirstToken (cs ++ s) (ds ++ t)

theorem Alike.first {s t : List Char} (h : Alike s t) :
    FirstToken (s.dropWhile isGap) (t.dropWhile isGap) := by
  cases h with
  | ends hs ht => exact .ends hs.dropWhile ht.dropWhile
  | @token kind g k cs ds s t hg hk htwin hs ht hrest =>
    have hfront : ∀ {cs ds s g : List Char}, Twin kind cs ds → Gap g →
        (g ++ (cs ++ s)).dropWhile isGap = cs ++ s := by
      intro cs ds s g htwin hg
      obtain ⟨c, rest, rfl, hc⟩ := htwin.start
      rw [List.dropWhile_append_of_pos hg]
      refine Reader.dropWhile_of_breaks (breaks_cons.mpr ?_)
      rw [← Bool.not_eq_true]
      intro hgap
      rw [TokenKind.ofChar_none (Or.inl hgap)] at hc
      cases hc
    rw [hfront htwin hg, hfront htwin.symm hk]
    exact .token htwin hs ht hrest

end FeatureSql.Sql
