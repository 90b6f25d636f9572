import FeatureSql.Proofs.Fragment.Lexeme
import FeatureSql.Proofs.Layout.Parallel

/-! Lexemes are read alike from texts with the same tokens. A reader of lexemes of one kind refuses
tokens of the other kinds, so that only tokens of its own kind need a look. -/

set_option autoImplicit false

namespace FeatureSql.Sql

open Reader (Breaks breaks_cons bind_of_some bind_of_none Takes Within)

section Lexemes
variable {α : Type} {advances : Bool} {reader : Reader α}

theorem blind_lexeme (kind : TokenKind)
    (hrefuses : ∀ {text}, Breaks kind.starts text → reader text = none)
    (hreads : ∀ {cs ds s t}, Twin kind cs ds → Breaks kind.goesOn s → Breaks kind.goesOn t →
      Alike s t → Matches Eq true (cs ++ s) (ds ++ t) (reader (cs ++ s)) (reader (ds ++ t))) :
    Blind advances (lexeme reader) := by
  intro s t halike
  have hfront : Matches Eq true (s.dropWhile isGap) (t.dropWhile isGap) (lexeme reader s)
      (lexeme reader t) := by
    have hends : ∀ {text}, Ended text → reader text = none := by
      rintro text (rfl | ⟨last, _, rfl⟩)
      · exact hrefuses (Breaks.nil _)
      · exact hrefuses (breaks_cons.mpr (by
          rw [TokenKind.starts, TokenKind.ofChar_none (Or.inr (Or.inl rfl))]
          rfl))
    have hother : ∀ {other cs ds} (rest : List Char), kind ≠ other → Twin other cs ds →
        reader (cs ++ rest) = none := by
      intro other cs ds rest hne htwin
      obtain ⟨c, more, rfl, hc⟩ := htwin.start
      exact hrefuses (breaks_cons.mpr (by simpa [TokenKind.starts, hc] using Ne.symm hne))
    rw [lexeme_apply, lexeme_apply]
    generalize s.dropWhile isGap = s, t.dropWhile isGap = t, halike.first = hfront
    cases hfront with
    | ends hs ht =>
      rw [hends hs, hends ht]
      exact .refused
    | @token other cs ds s t htwin hs ht hrest =>
      by_cases hkind : kind = other
      · subst hkind
        exact hreads htwin hs ht hrest
      · rw [hother s hkind htwin, hother t hkind htwin.symm]
        exact .refused
  have hone := Bool.toNat_le advances
  have hs := (List.dropWhile_suffix (l := s) isGap).length_le
  have ht := (List.dropWhile_suffix (l := t) isGap).length_le
  exact hfront.weaken (by rw [Bool.toNat_true]; omega) (by rw [Bool.toNat_true]; omega)

section Run
variable {kind : TokenKind} (hkind : kind = .word ∨ kind = .sign)
variable (hwithin : Within kind.goesOn reader)
variable (htakes : Takes (fun _ taken => taken ≠ []) reader)
include hkind hwithin htakes

theorem matches_run {cs ds s t : List Char} (hall : ∀ c ∈ cs, kind.goesOn c = true)
    (hsame : reader cs = reader ds) (hs : Breaks kind.goesOn s) (ht : Breaks kind.goesOn t)
    (halike : Alike s t) :
    Matches Eq true (cs ++ s) (ds ++ t) (reader (cs ++ s)) (reader (ds ++ t)) := by
  rw [hwithin.before cs hs, hwithin.before ds ht, ← hsame]
  cases hread : reader cs with
  | none => exact .refused
  | some read =>
    obtain ⟨a, left⟩ := read
    obtain ⟨taken, rfl, htaken⟩ := htakes cs a left hread
    obtain ⟨retaken, rfl, hretaken⟩ := htakes ds a left (hsame ▸ hread)
    have hpos := List.length_pos_iff.mpr htaken
    have hrepos := List.length_pos_iff.mpr hretaken
    have hleft : ∀ c ∈ left, kind.goesOn c = true := fun c hc =>
      hall c (List.mem_append_right taken hc)
    refine .read rfl (.run hkind hleft hs ht halike) ?_ ?_
    all_goals
      simp only [List.length_append, Bool.toNat_true]
      omega

theorem blind_run (hwords : kind = .word → ∀ {word spelling}, isReserved word = true →
      lower word = lower spelling → reader word = reader spelling) :
    Blind advances (lexeme reader) := by
  have hmark : kind ≠ .mark := by rintro rfl; rcases hkind with h | h <;> cases h
  refine blind_lexeme kind (fun {text} htext => ?_) fun htwin hs ht halike => ?_
  · have hnil : reader [] = none := by
      cases hread : reader [] with
      | none => rfl
      | some read =>
        obtain ⟨taken, hsplit, hne⟩ := htakes [] read.1 read.2 hread
        exact absurd (List.append_eq_nil_iff.mp hsplit.symm).1 hne
    have hbefore := hwithin.before [] (htext.mono fun _ => TokenKind.starts_of_goesOn)
    rwa [hnil] at hbefore
  · cases htwin with
    | run _ _ hall => exact matches_run hkind hwithin htakes hall rfl hs ht halike
    | keyword hreserved hlower =>
      exact matches_run hkind hwithin htakes
        (fun c hc => TokenKind.goesOn_of_isWordChar (isWordChar_of_isReserved hreserved c hc))
        (hwords rfl hreserved hlower) hs ht halike
    | quoted => rcases hkind with h | h <;> cases h
    | mark => exact absurd rfl hmark

end Run

theorem blind_keyword {word : String} (hne : word.toList ≠ []) : Blind advances (keyword word) := by
  have hrun : ∀ {spelling : List Char}, isReserved spelling = true →
      (do let cs ← Reader.run isWordChar; guard (lower cs = word.toList) : Reader Unit) spelling =
        (guard (lower spelling = word.toList) : Reader Unit) [] := by
    intro spelling hreserved
    have hread := Reader.run_append (isWordChar_of_isReserved hreserved) (Breaks.nil isWordChar)
    rw [List.append_nil] at hread
    exact bind_of_some hread
  refine blind_run (Or.inl rfl) (within_keyword (fun _ => TokenKind.goesOn_of_isWordChar) word)
    (takes_keyword hne) fun _ word spelling hreserved hlower => ?_
  rw [hrun hreserved, hrun (isReserved_of_lower hlower ▸ hreserved), hlower]

/-- Names refuse reserved words, however these are spelled. -/
theorem notReserved_of_isReserved {word : List Char} (h : isReserved word = true) :
    notReserved word = none := by
  have htake := Reader.takeWhile_append_of_breaks (isWordChar_of_isReserved h)
    (Breaks.nil isWordChar)
  rw [List.append_nil] at htake
  exact notReserved_of_reserved (htake.symm ▸ h)

theorem blind_named {next : Reader String}
    (hwithin : Within TokenKind.word.goesOn (do notReserved; next))
    (htakes : Takes (fun _ taken => taken ≠ []) (do notReserved; next)) :
    Blind advances (lexeme do notReserved; next) :=
  blind_run (Or.inl rfl) hwithin htakes fun _ _ _ hreserved hlower => by
    rw [bind_of_none (notReserved_of_isReserved hreserved), bind_of_none
      (notReserved_of_isReserved (isReserved_of_lower hlower ▸ hreserved))]

theorem blind_bareName : Blind advances bareName :=
  blind_named (within_bare (fun _ => TokenKind.goesOn_of_isWordChar) fun _ hc =>
    TokenKind.goesOn_of_isTableChar (isTableChar_of_isNameChar hc)) takes_bare

theorem blind_functionName : Blind advances functionName :=
  blind_named (within_bare (fun _ => TokenKind.goesOn_of_isWordChar) fun _ =>
    TokenKind.goesOn_of_isWordChar) takes_bare

theorem blind_bareTable : Blind advances bareTable := by
  refine blind_named (within_table (fun _ => TokenKind.goesOn_of_isWordChar) fun c hc =>
    TokenKind.goesOn_of_isTableChar ?_) ?_
  · simpa [isTableChar, isDotOrDash, Bool.or_assoc, Bool.or_comm, Bool.or_left_comm] using hc
  · refine within_notReserved.takes.bind fun _ front _ =>
      ((Takes.run1 _).yields (Reader.Yields.run1 _)).bind fun cs taken hcs => Takes.of_pure ?_
    simp [← hcs.1, hcs.2.1]

theorem digits_of_isReserved {word : List Char} (h : isReserved word = true) :
    Numeral.digits word = none := by
  obtain ⟨c, cs, rfl, hc⟩ := Expr.isReserved_start h
  exact Reader.run1_of_breaks (breaks_cons.mpr (isDigit_of_isWordStart hc))

theorem blind_digits : Blind advances (lexeme Numeral.digits) := by
  refine blind_run (Or.inl rfl) (within_digits.mono fun _ => TokenKind.goesOn_of_isNumeralChar) ?_
    fun _ _ _ hreserved hlower => ?_
  · intro text ds left hread
    obtain ⟨taken, htext, rfl, hne, _⟩ :=
      Numeral.digits_takes.yields Numeral.digits_yields text ds left hread
    exact ⟨_, htext, hne⟩
  · rw [digits_of_isReserved hreserved,
      digits_of_isReserved (isReserved_of_lower hlower ▸ hreserved)]

theorem blind_numberLiteral : Blind advances numberLiteral := by
  have hreserved : ∀ {word : List Char}, isReserved word = true →
      (do let n ← Numeral.read Numeral.digits; pure (String.ofList n.chars) : Reader String) word =
        none := by
    intro word h
    obtain ⟨c, cs, rfl, hc⟩ := Expr.isReserved_start h
    have hgap := isGap_of_isWordChar (isWordChar_of_isWordStart hc)
    have hread := @numberLiteral_of_ne c cs hgap (isDigit_of_isWordStart hc)
      (Expr.ne_of_isWordStart hc rfl)
    rwa [numberLiteral, lexeme_cons hgap] at hread
  refine blind_run (Or.inl rfl) ((within_numeral.mono fun _ =>
    TokenKind.goesOn_of_isNumeralChar).bind fun n => .pure _) ?_ fun _ _ _ hword hlower => ?_
  · refine (Numeral.read_takes (Numeral.digits_takes.yields Numeral.digits_yields)).bind
      fun n taken hn => Takes.of_pure ?_
    obtain ⟨rfl, hne, _⟩ := hn
    simp [Numeral.chars, hne]
  · rw [hreserved hword, hreserved (isReserved_of_lower hlower ▸ hword)]

theorem blind_symbol {kind : TokenKind} (hkind : kind = .word ∨ kind = .sign) {mark : String}
    (h : IsSign mark) (hall : ∀ c ∈ mark.toList, kind.goesOn c = true) :
    Blind advances (symbol mark) := by
  have hreserved : ∀ {word : List Char}, isReserved word = true →
      Reader.exactly mark.toList word = none := by
    intro word hword
    obtain ⟨c, cs, rfl, hc⟩ := Expr.isReserved_start hword
    exact exactly_word h hc cs
  refine blind_run hkind (.exactly hall) ?_ fun _ _ _ hword hlower => ?_
  · intro text u left hread
    obtain ⟨taken, htext, rfl⟩ := takes_exactly mark.toList text u left hread
    exact ⟨_, htext, h.ne_nil⟩
  · rw [hreserved hword, hreserved (isReserved_of_lower hlower ▸ hword)]

/-- An operator of a list is read as the symbol that it is. -/
theorem blind_sign {signs : List String} (h : ∀ mark ∈ signs, Blind advances (symbol mark)) :
    Blind advances (sign signs) := by
  induction signs with
  | nil => exact fun _ _ _ => .refused
  | cons mark signs ih =>
    rw [List.forall_mem_cons] at h
    have hsplit : sign (mark :: signs) = ((do symbol mark; pure mark) <|> sign signs) := by
      funext text
      rw [sign, lexeme_apply, signOf, Reader.orElse_apply, Reader.orElse_apply]
      rfl
    rw [hsplit]
    exact (h.1.bind fun _ => .pure mark).orElse (ih h.2)

/-- What starts with one character refuses texts that start with none of its kind. -/
theorem char_of_breaks {kind : TokenKind} {c : Char} (hc : TokenKind.ofChar c = some kind)
    {next : Unit → Reader α} {text : List Char} (h : Breaks kind.starts text) :
    (Reader.char c >>= next) text = none := by
  cases text with
  | nil => rfl
  | cons d text =>
    have hne : d ≠ c := by
      rintro rfl
      have hd := breaks_cons.mp h
      rw [TokenKind.starts, hc, beq_self_eq_true] at hd
      cases hd
    exact bind_of_none (Numeral.char_of_ne hne text)

/-- A parenthesis or a comma. -/
theorem blind_mark {mark : String} {c : Char} (hmark : mark.toList = [c])
    (hkind : TokenKind.ofChar c = some .mark) : Blind advances (symbol mark) := by
  rw [symbol, hmark]
  refine blind_lexeme .mark (char_of_breaks hkind) fun htwin hs ht halike => ?_
  cases htwin with
  | run h => rcases h with h | h <;> cases h
  | @mark d _ =>
    rw [List.singleton_append, List.singleton_append, Expr.exactly_cons, Expr.exactly_cons]
    by_cases hd : d = c
    · rw [if_pos hd, if_pos hd]
      exact .read rfl halike (Nat.le_refl _) (Nat.le_refl _)
    · rw [if_neg hd, if_neg hd]
      exact .refused

theorem blind_quoted {mark : Char} (hkind : TokenKind.ofChar mark = some (.quoted mark)) :
    Blind advances (lexeme (Quoted.read mark)) := by
  refine blind_lexeme (.quoted mark) (char_of_breaks hkind) fun htwin hs ht halike => ?_
  have hquote : ∀ {text}, Breaks (TokenKind.goesOn (.quoted mark)) text → Breaks (· == mark) text :=
    fun htext => htext.mono fun c hc => by
      rw [beq_iff_eq.mp hc]
      exact TokenKind.goesOn_of_starts (by simp) (beq_iff_eq.mpr hkind)
  cases htwin with
  | run h => rcases h with h | h <;> cases h
  | quoted value =>
    rw [read_write value (hquote hs), read_write value (hquote ht)]
    have hlength : 0 < (Quoted.write mark value).toList.length := by
      rw [toList_write]
      exact Nat.succ_pos _
    refine .read rfl halike ?_ ?_
    all_goals
      simp only [List.length_append, Bool.toNat_true]
      omega

theorem blind_textLiteral : Blind advances textLiteral := blind_quoted rfl

theorem blind_quotedName : Blind advances quotedName := blind_quoted rfl

/-- No name between backticks stands in such texts. -/
theorem blind_backtickName : Blind advances backtickName := by
  have hnone : ∀ {s t : List Char}, Alike s t → backtickName s = none := by
    intro s t halike
    have hgap : Gap (s.takeWhile isGap) := List.all_eq_true.mp List.all_takeWhile
    have hnone := halike.shut.findBacktick_eq
    rw [← List.takeWhile_append_dropWhile (p := isGap) (l := s)] at hnone
    have hdrop := findBacktick_left hgap.shut hnone
    rw [backtickName, lexeme_apply]
    cases hfront : s.dropWhile isGap with
    | nil => rfl
    | cons c cs =>
      rw [hfront] at hdrop
      exact bind_of_none (Numeral.char_of_ne (by rintro rfl; cases hdrop) cs)
  intro s t halike
  rw [hnone halike, hnone halike.symm]
  exact .refused

theorem blind_name : Blind advances name :=
  blind_quotedName.orElse (blind_backtickName.orElse blind_bareName)

theorem blind_tableName : Blind advances tableName :=
  blind_quotedName.orElse (blind_backtickName.orElse blind_bareTable)

end Lexemes
end FeatureSql.Sql
