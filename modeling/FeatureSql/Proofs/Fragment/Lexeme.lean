import FeatureSql.Proofs.Fragment.Local
import FeatureSql.Proofs.Trim
import FeatureSql.Proofs.Within

/-! Lexemes are local: none of them goes on behind the end of a fragment, where a blank or nothing
comes next, and none of them starts with the word of a clause. -/

set_option autoImplicit false

namespace FeatureSql.Sql

open Reader (Breaks breaks_cons bind_of_some bind_of_none bind_apply orElse_apply orElse_of_none
  Takes Within)

/-- Neither a blank nor a quote. -/
def isInk (c : Char) : Bool := isPlain c && !isGap c

theorem isInk_of_isNameChar {c : Char} (h : isNameChar c = true) : isInk c = true := by
  rw [isInk, isPlain_of_isTableChar (isTableChar_of_isNameChar h),
    isGap_of_isBlank_false (isBlank_of_isNameChar h)]
  rfl

theorem isInk_of_isWordChar {c : Char} (h : isWordChar c = true) : isInk c = true :=
  isInk_of_isNameChar (isNameChar_of_isWordChar h)

theorem isInk_of_isNumeralChar {c : Char} (h : Numeral.isNumeralChar c = true) : isInk c = true := by
  rcases Numeral.isNumeralChar_cases h with hdigit | hmark
  · exact isInk_of_isWordChar (isWordChar_of_isDigit hdigit)
  · have hmarks : "+-.eE".toList.all isInk = true := rfl
    exact List.all_eq_true.mp hmarks c hmark

section Behind
variable {rest : List Char}

theorem Ends.breaks_ink (h : Ends 0 rest) : Breaks isInk rest := by
  cases h with
  | nil => exact Breaks.nil _
  | word hw => exact breaks_cons.mpr rfl

/-- A fragment is followed by nothing or by a word. -/
theorem Ends.start (h : Ends 0 rest) : rest.dropWhile isGap = [] ∨
    ∃ c cs, rest.dropWhile isGap = c :: cs ∧ isWordStart c = true := by
  cases h with
  | nil => exact Or.inl rfl
  | @word w more hw =>
    have hstart : ∀ w ∈ clauseWords, w.toList.head?.any isWordStart = true := by decide +kernel
    obtain ⟨c, hhead, hc⟩ := (Option.any_eq_true _ _).mp (hstart w hw)
    obtain ⟨cs, hcs⟩ := List.head?_eq_some_iff.mp hhead
    refine Or.inr ⟨c, cs ++ ' ' :: more, ?_, hc⟩
    have hgap := isGap_of_isWordChar (isWordChar_of_isWordStart hc)
    rw [List.dropWhile_cons_of_pos rfl, hcs, List.cons_append,
      List.dropWhile_cons_of_neg (by simp [hgap])]

theorem Ends.reserved (h : Ends 0 rest) : rest = [] ∨ isReserved (nextWord rest) = true := by
  cases h with
  | nil => exact Or.inl rfl
  | @word w more hw =>
    obtain ⟨hall, hne, hreserved, _⟩ := clauseWords_spec w hw
    rw [Expr.nextWord_blank (List.all_eq_true.mp hall) hne (breaks_cons.mpr rfl)]
    exact Or.inr hreserved

end Behind

section Lexemes
variable {α : Type} {n : Nat} {reader : Reader α}

theorem lexeme_apply (reader : Reader α) (text : List Char) :
    lexeme reader text = reader (text.dropWhile isGap) := rfl

/-- A lexeme that starts no clause starts in the fragment, if at all. -/
theorem local_lexeme (hshuts : Shuts reader) (hbefore : ∀ (c : Char) (cs : List Char) {rest},
      Shut (c :: cs) → Ends 0 rest →
        reader (c :: (cs ++ rest)) = (reader (c :: cs)).map fun p => (p.1, p.2 ++ rest))
    (hends : ∀ {rest}, Ends 0 rest → lexeme reader rest = none) :
    Local n (lexeme reader) (lexeme reader) := by
  have hgaps : ∀ text : List Char, Gap (text.takeWhile isGap) :=
    fun _ => List.all_eq_true.mp List.all_takeWhile
  constructor
  · intro text left a htext hread
    have hfront := (hgaps text).shut
    rw [← List.takeWhile_append_dropWhile (p := isGap) (l := text)] at htext ⊢
    obtain ⟨taken, hdrop, hshut⟩ := hshuts (findBacktick_left hfront htext) hread
    exact ⟨text.takeWhile isGap ++ taken, by rw [hdrop, List.append_assoc], hfront.append hshut⟩
  · intro text _ hshut rest hrest gap hgap
    apply Agrees.of_map
    rw [lexeme_gap hgap]
    have htext := List.takeWhile_append_dropWhile (p := isGap) (l := text)
    have hfront := hgaps text
    rw [← htext] at hshut
    have hshut := hfront.shut.left hshut
    rw [← htext, List.append_assoc, lexeme_gap hfront, lexeme_gap hfront]
    cases hdrop : text.dropWhile isGap with
    | nil => rw [List.nil_append, hends hrest, hends .nil]; rfl
    | cons c cs =>
      have hc : isGap c = false := breaks_cons.mp (hdrop ▸ breaks_dropWhile isGap text)
      rw [List.cons_append, lexeme_cons hc, lexeme_cons hc]
      exact hbefore c cs (hdrop ▸ hshut) hrest

theorem local_within (h : Within isInk reader) (hends : ∀ {rest}, Ends 0 rest → lexeme reader rest = none) :
    Local n (lexeme reader) (lexeme reader) := by
  refine local_lexeme (fun text left a _ hread => ?_) (fun c cs rest _ hrest => ?_) hends
  · obtain ⟨taken, htext, htaken⟩ := h.takes text a left hread
    refine ⟨taken, htext, .of_plain fun c hc => ?_⟩
    have hink := htaken c hc
    rw [isInk, Bool.and_eq_true] at hink
    exact hink.1
  · exact h.before (c :: cs) hrest.breaks_ink

/-- A fragment is not followed by what no word starts with. -/
theorem lexeme_of_ends (hnil : reader [] = none)
    (hword : ∀ (c : Char) (cs : List Char), isWordStart c = true → reader (c :: cs) = none)
    {rest : List Char} (hrest : Ends 0 rest) : lexeme reader rest = none := by
  rw [lexeme_apply]
  rcases hrest.start with hdrop | ⟨c, cs, hdrop, hc⟩
  · rw [hdrop, hnil]
  · rw [hdrop, hword c cs hc]

theorem char_of_isWordStart {c d : Char} (hc : isWordStart c = true) (hd : isWordStart d = false)
    (cs : List Char) : Reader.char d (c :: cs) = none := by
  refine Numeral.char_of_ne ?_ cs
  rintro rfl
  rw [hc] at hd
  cases hd

/-- A keyword that starts no clause. -/
theorem local_keyword {word : String}
    (hword : ∀ w ∈ "" :: clauseWords, lower w.toList ≠ word.toList) :
    Local n (keyword word) (keyword word) :=
  local_within (within_keyword (fun _ => isInk_of_isWordChar) word) fun hrest =>
    keyword_of_ends hrest hword

/-- A sign, which holds no blanks and no quotes and starts no word. -/
structure IsSign (mark : String) : Prop where
  ink : ∀ c ∈ mark.toList, isInk c = true
  start : ∃ c ∈ mark.toList.head?, isWordStart c = false

theorem exactly_nil {mark : String} (h : IsSign mark) : Reader.exactly mark.toList [] = none := by
  obtain ⟨d, hhead, _⟩ := h.start
  obtain ⟨ds, hds⟩ := List.head?_eq_some_iff.mp hhead
  rw [hds]
  rfl

theorem exactly_word {mark : String} (h : IsSign mark) {c : Char} (hc : isWordStart c = true)
    (cs : List Char) : Reader.exactly mark.toList (c :: cs) = none := by
  obtain ⟨d, hhead, hd⟩ := h.start
  obtain ⟨ds, hds⟩ := List.head?_eq_some_iff.mp hhead
  rw [hds]
  exact bind_of_none (char_of_isWordStart hc hd cs)

theorem local_symbol {mark : String} (h : IsSign mark) : Local n (symbol mark) (symbol mark) :=
  local_within (.exactly h.ink) fun hrest =>
    lexeme_of_ends (exactly_nil h) (fun _ cs hc => exactly_word h hc cs) hrest

theorem local_sign {signs : List String} (h : ∀ sign ∈ signs, IsSign sign) :
    Local n (sign signs) (sign signs) := by
  have hnone : ∀ (text : List Char), (∀ sign ∈ signs, Reader.exactly sign.toList text = none) →
      signOf signs text = none := by
    intro text htext
    clear h
    induction signs with
    | nil => rfl
    | cons sign signs ih =>
      rw [List.forall_mem_cons] at htext
      exact (orElse_of_none (bind_of_none htext.1)).trans (ih htext.2)
  refine local_within (within_signOf fun sign hsign => (h sign hsign).ink) fun hrest => ?_
  exact lexeme_of_ends (hnone [] fun sign hsign => exactly_nil (h sign hsign))
    (fun c cs hc => hnone _ fun sign hsign => exactly_word (h sign hsign) hc cs) hrest

theorem local_bareName : Local n bareName bareName := by
  refine local_within (within_bare (fun _ => isInk_of_isWordChar) fun _ => isInk_of_isNameChar)
    fun {rest} hrest => ?_
  rcases hrest.reserved with rfl | hreserved
  · rfl
  · exact bareName_of_reserved hreserved

theorem local_functionName : Local n functionName functionName := by
  refine local_within (within_bare (fun _ => isInk_of_isWordChar) fun _ => isInk_of_isWordChar)
    fun {rest} hrest => ?_
  rcases hrest.reserved with rfl | hreserved
  · rfl
  · exact functionName_of_reserved hreserved

theorem local_numberLiteral : Local n numberLiteral numberLiteral :=
  local_within ((within_numeral.mono fun _ => isInk_of_isNumeralChar).bind fun n => .pure _)
    fun hrest => by
    refine lexeme_of_ends rfl (fun c cs hc => ?_) hrest
    have hgap := isGap_of_isWordChar (isWordChar_of_isWordStart hc)
    refine (lexeme_cons hgap).symm.trans (numberLiteral_of_breaks (breaks_cons.mpr ?_)
      (breaks_cons.mpr hgap))
    have hdash : c ≠ '-' := by rintro rfl; cases hc
    simpa using ⟨isDigit_of_isWordStart hc, hdash⟩

/-- The quote that a text goes on in is closed in it. -/
def ClosesQuote (mark : Char) (text : List Char) : Prop :=
  ∀ rest, findBacktick.skipTo mark (text ++ rest) = findBacktick rest

section Quoted
variable {mark : Char}

theorem closesQuote_iff (hm : mark = '\x27' ∨ mark = '\x22') {text : List Char} :
    ClosesQuote mark text ↔ Shut (mark :: text) :=
  forall_congr' fun rest => by rw [List.cons_append, findBacktick_quote hm]

theorem not_closesQuote_nil : ¬ ClosesQuote mark [] := by
  intro h
  have htick : findBacktick [backtick] = some [backtick] := rfl
  have hnone : findBacktick.skipTo mark ([] ++ [backtick]) = none := by
    rw [List.nil_append, findBacktick.skipTo]
    split <;> rfl
  exact absurd ((hnone.symm.trans (h _)).trans htick) (by simp)

theorem closesQuote_cons_of_ne {c : Char} (hc : c ≠ mark) {text : List Char} :
    ClosesQuote mark (c :: text) ↔ ClosesQuote mark text :=
  forall_congr' fun rest => by
    rw [List.cons_append, findBacktick.skipTo, if_neg (by simpa using hc)]

theorem closesQuote_self {text : List Char} : ClosesQuote mark (mark :: text) ↔ Shut text :=
  forall_congr' fun rest => by
    rw [List.cons_append, findBacktick.skipTo, if_pos (by simp)]

theorem closesQuote_twice (hm : mark = '\x27' ∨ mark = '\x22') {text : List Char} :
    ClosesQuote mark (mark :: mark :: text) ↔ ClosesQuote mark text :=
  closesQuote_self.trans (closesQuote_iff hm).symm

/-- The text of a quotation is passed over as it is read. -/
theorem close_takes (hm : mark = '\x27' ∨ mark = '\x22') {text left cs : List Char}
    (h : Quoted.close mark text = some (cs, left)) :
    ∃ taken, text = taken ++ left ∧ ClosesQuote mark taken := by
  fun_induction Quoted.close mark text generalizing cs left with
  | case1 => cases h
  | case2 =>
    cases h
    exact ⟨[mark], rfl, closesQuote_self.mpr .nil⟩
  | case3 rest ih =>
    obtain ⟨⟨more, _⟩, hmore, heq⟩ := Option.map_eq_some_iff.mp h
    cases heq
    obtain ⟨taken, rfl, htaken⟩ := ih hmore
    exact ⟨mark :: mark :: taken, rfl, (closesQuote_twice hm).mpr htaken⟩
  | case4 d rest hd =>
    cases h
    exact ⟨[mark], rfl, closesQuote_self.mpr .nil⟩
  | case5 c rest hc ih =>
    obtain ⟨⟨more, _⟩, hmore, heq⟩ := Option.map_eq_some_iff.mp h
    cases heq
    obtain ⟨taken, rfl, htaken⟩ := ih hmore
    exact ⟨c :: taken, rfl, (closesQuote_cons_of_ne hc).mpr htaken⟩

/-- A quotation that is closed in a text is read from it alone. -/
theorem close_before (hm : mark = '\x27' ∨ mark = '\x22') {text rest : List Char}
    (h : ClosesQuote mark text) (hrest : Breaks (· == mark) rest) : Quoted.close mark (text ++ rest) =
      (Quoted.close mark text).map fun p => (p.1, p.2 ++ rest) := by
  fun_induction Quoted.close mark text with
  | case1 => exact absurd h not_closesQuote_nil
  | case2 => exact close_append [] hrest
  | case3 more ih =>
    have hread : Quoted.close mark (mark :: mark :: (more ++ rest)) =
        (Quoted.close mark (more ++ rest)).map fun p => (mark :: p.1, p.2) := by simp [Quoted.close]
    rw [List.cons_append, List.cons_append, hread, ih ((closesQuote_twice hm).mp h), Option.map_map,
      Option.map_map]
    rfl
  | case4 d more hd => simp [Quoted.close, hd]
  | case5 c more hc ih =>
    rw [List.cons_append, close_cons_of_ne hc, ih ((closesQuote_cons_of_ne hc).mp h), Option.map_map,
      Option.map_map]
    rfl

theorem local_quoted (hm : mark = '\x27' ∨ mark = '\x22') :
    Local n (lexeme (Quoted.read mark)) (lexeme (Quoted.read mark)) := by
  have hmark : isWordStart mark = false := by rcases hm with rfl | rfl <;> rfl
  refine local_lexeme (fun text left value _ hread => ?_) (fun c cs rest hshut hrest => ?_)
    fun hrest => lexeme_of_ends rfl (fun c cs hc => bind_of_none (char_of_isWordStart hc hmark cs)) hrest
  · rw [Quoted.read, bind_apply, Option.bind_eq_some_iff] at hread
    obtain ⟨⟨u, mid⟩, hchar, hread⟩ := hread
    obtain ⟨_, rfl, rfl⟩ := Takes.char mark text u mid hchar
    rw [bind_apply, Option.bind_eq_some_iff] at hread
    obtain ⟨⟨chars, last⟩, hclose, hread⟩ := hread
    cases hread
    obtain ⟨taken, rfl, htaken⟩ := close_takes hm hclose
    exact ⟨mark :: taken, rfl, (closesQuote_iff hm).mp htaken⟩
  · by_cases hc : c = mark
    · subst hc
      have hbreaks : Breaks (· == c) rest := by
        cases hrest with
        | nil => exact Breaks.nil _
        | word _ => exact breaks_cons.mpr (by rcases hm with rfl | rfl <;> rfl)
      have hclose := close_before hm ((closesQuote_iff hm).mpr hshut) hbreaks
      rw [Quoted.read, bind_of_some (Numeral.char_self c _), bind_of_some (Numeral.char_self c _),
        bind_apply, bind_apply, hclose]
      cases Quoted.close c cs <;> rfl
    · have hnone : ∀ text, Quoted.read mark (c :: text) = none :=
        fun text => bind_of_none (Numeral.char_of_ne hc text)
      rw [hnone, hnone]
      rfl

end Quoted

theorem local_quotedName : Local n quotedName quotedName := local_quoted (Or.inr rfl)

theorem local_textLiteral : Local n textLiteral textLiteral := local_quoted (Or.inl rfl)

/-- No name between backticks stands in a fragment. -/
theorem local_backtickName : Local n backtickName backtickName := by
  have hne : ∀ {c : Char} {cs : List Char}, findBacktick (c :: cs) = none → c ≠ backtick := by
    rintro c cs hnone rfl
    cases hnone
  refine local_lexeme (fun text left value htext hread => ?_) (fun c cs rest hshut hrest => ?_)
    fun hrest => lexeme_of_ends rfl (fun c cs hc => bind_of_none (char_of_isWordStart hc rfl cs)) hrest
  · cases text with
    | nil => cases hread
    | cons c cs =>
      rw [bind_of_none (Numeral.char_of_ne (hne htext) cs)] at hread
      cases hread
  · have hc := hne hshut.findBacktick_eq
    rw [bind_of_none (Numeral.char_of_ne hc _), bind_of_none (Numeral.char_of_ne hc cs)]
    rfl

theorem local_name : Local n name name :=
  local_quotedName.orElse (local_backtickName.orElse local_bareName)

theorem advances_lexeme {reader : Reader α} (h : Takes (fun _ taken => taken ≠ []) reader) :
    Advances (lexeme reader) := by
  intro text left a _ hread
  obtain ⟨taken, hdrop, hne⟩ := h _ a left hread
  have hlength : (text.dropWhile isGap).length ≤ text.length := (List.dropWhile_suffix _).length_le
  have hpos := List.length_pos_iff.mpr hne
  rw [hdrop, List.length_append] at hlength
  omega

theorem takes_exactly (cs : List Char) :
    Takes (fun _ taken => taken = cs) (Reader.exactly cs) := by
  induction cs with
  | nil => exact Takes.of_pure rfl
  | cons c cs ih =>
    refine (Takes.char c).bind fun _ taken htaken text u left hread => ?_
    obtain ⟨more, htext, rfl⟩ := ih text u left hread
    exact ⟨more, htext, by rw [htaken]; rfl⟩

theorem IsSign.ne_nil {mark : String} (h : IsSign mark) : mark.toList ≠ [] := by
  obtain ⟨c, hhead, _⟩ := h.start
  intro hnil
  rw [hnil] at hhead
  cases hhead

theorem advances_symbol {mark : String} (h : IsSign mark) : Advances (symbol mark) :=
  advances_lexeme fun text u left hread => by
    obtain ⟨taken, htext, rfl⟩ := takes_exactly mark.toList text u left hread
    exact ⟨_, htext, h.ne_nil⟩

theorem advances_sign {signs : List String} (h : ∀ sign ∈ signs, IsSign sign) :
    Advances (sign signs) := by
  apply advances_lexeme
  induction signs with
  | nil => exact fun _ _ _ hread => absurd hread (by simp [signOf, Reader.failure_apply])
  | cons sign signs ih =>
    rw [List.forall_mem_cons] at h
    refine Takes.orElse ((takes_exactly sign.toList).bind fun _ taken htaken => Takes.of_pure ?_)
      (ih h.2)
    rw [htaken, List.append_nil]
    exact h.1.ne_nil

theorem takes_keyword {word : String} (hne : word.toList ≠ []) :
    Takes (fun _ taken => taken ≠ []) (do
      let cs ← Reader.run isWordChar
      guard (lower cs = word.toList) : Reader Unit) := by
  refine (Takes.run isWordChar).bind fun cs taken hcs text u left hread => ?_
  obtain ⟨_, htext, rfl, hlower⟩ := Takes.guarded _ text u left hread
  have htaken : taken ≠ [] := by
    rw [← hcs]
    rintro rfl
    exact hne hlower.symm
  exact ⟨[], htext, by simpa using htaken⟩

theorem advances_keyword {word : String} (hne : word.toList ≠ []) : Advances (keyword word) :=
  advances_lexeme (takes_keyword hne)

theorem takes_bare {q : Char → Bool} : Takes (fun _ taken => taken ≠ []) (do
    notReserved
    let c ← Reader.satisfy isWordStart
    let cs ← Reader.run q
    pure (String.ofList (c :: cs)) : Reader String) := by
  refine within_notReserved.takes.bind fun _ front _ => (Takes.satisfy _).bind fun c taken hc =>
    (Takes.run q).bind fun cs more _ => Takes.of_pure ?_
  simp [hc.1]

theorem advances_functionName : Advances functionName := advances_lexeme takes_bare

end Lexemes
end FeatureSql.Sql
