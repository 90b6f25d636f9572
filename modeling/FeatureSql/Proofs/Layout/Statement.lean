import FeatureSql.Proofs.Layout.Expr
import FeatureSql.Proofs.Query.RoundTrip

/-! Texts with the same tokens are read as the same selection or deletion. -/

set_option autoImplicit false

namespace FeatureSql.Sql

open Reader (bind_apply bind_of_some bind_of_none orElse_apply Yields)

theorem Join.blind_reader : Blind true Join.reader := by
  have hword : ∀ {word : String} {a : String}, word.toList ≠ [] →
      Blind false (do keyword word; pure a) := fun hne => (blind_keyword hne).bind fun _ => .pure _
  have hside : Blind false sideWord :=
    (hword (by decide)).orElse ((hword (by decide)).orElse (hword (by decide)))
  have hkind : Blind false kindReader :=
    (hword (by decide)).orElse ((hword (by decide)).orElse
      (hside.bind fun side => (blind_keyword (by decide)).maybe.bind fun outer => .pure _))
  have hcondition : Blind false (do keyword "on"; Expr.reader) :=
    (blind_keyword (by decide)).bind fun _ => Expr.blind_reader
  refine Parallel.late hkind.maybe fun kind _ hsame => hsame ▸ ?_
  exact (blind_keyword (by decide)).bind fun _ => blind_tableName.bind fun table =>
    hcondition.maybe.bind fun condition => .pure _

/-- The same digits, whatever stands behind them. -/
def Count.Same (a b : Count) : Prop := a.digits = b.digits

theorem Count.parallel_reader : Parallel Count.Same false Count.reader Count.reader := by
  intro s t halike
  have hdigits : Matches Eq false s t _ _ := blind_digits halike
  rw [lexeme_apply, lexeme_apply] at hdigits
  rw [Count.reader, lexeme_apply, lexeme_apply]
  generalize Numeral.digits (s.dropWhile isGap) = read,
    Numeral.digits (t.dropWhile isGap) = reread at hdigits
  cases hdigits with
  | refused => exact .refused
  | read hsame hrest hleft hright => exact .read hsame hrest hleft hright

namespace Draft

/-- Drafts that differ in where their counts stand, if at all. -/
structure Same (a b : Draft) : Prop where
  query : a.query = b.query
  limit : Option.Rel Count.Same a.limit b.limit
  offset : Option.Rel Count.Same a.offset b.offset

theorem blind_tablesReader : Blind false tablesReader :=
  (blind_keyword (by decide)).bind fun _ => Blind.separated blind_comma blind_tableName

theorem blind_filterReader : Blind false filterReader :=
  (blind_keyword (by decide)).bind fun _ => Expr.blind_reader

theorem parallel_countReader (word : String) (hne : word.toList ≠ []) :
    Parallel Count.Same false (countReader word) (countReader word) :=
  (blind_keyword hne).andThen fun _ => Count.parallel_reader

theorem parallel_selectReader : Parallel Same false selectReader selectReader := by
  have hgroup : Blind false groupByReader :=
    (blind_keyword (by decide)).bind fun _ => (blind_keyword (by decide)).bind fun _ =>
      Expr.blind_listReader
  have horder : Blind false orderByReader :=
    (blind_keyword (by decide)).bind fun _ => (blind_keyword (by decide)).bind fun _ =>
      OrderBy.blind_listReader
  have hlimit := parallel_countReader "limit" (by decide)
  have hoffset := parallel_countReader "offset" (by decide)
  exact (blind_keyword (by decide)).andThen fun _ => SelectItem.blind_listReader.andThen
    fun select => blind_tablesReader.maybe.andThen fun tables =>
    (Blind.many Join.blind_reader).andThen fun joins =>
    blind_filterReader.maybe.andThen fun filter =>
    hgroup.maybe.andThen fun groupBy => horder.maybe.andThen fun orderBy =>
    hlimit.maybe.bind fun limit relimit hlimit => hoffset.maybe.bind fun offset reoffset hoffset =>
    .pure ⟨rfl, hlimit, hoffset⟩

theorem parallel_deleteReader : Parallel Same false deleteReader deleteReader :=
  (blind_keyword (by decide)).andThen fun _ => blind_tablesReader.andThen fun tables =>
    blind_filterReader.maybe.andThen fun filter => .pure ⟨rfl, .none, .none⟩

/-- Behind a statement its draft is the value, if the text ends there. -/
def closing (draft : Draft) : Reader Draft := do
  let _ ← optional (symbol ";")
  lexeme Reader.atEnd
  pure draft

theorem closing_of_ended {draft : Draft} {text : List Char} (h : Ended (text.dropWhile isGap)) :
    closing draft text = some (draft, []) := by
  rcases h with h | ⟨last, hlast, h⟩
  · have hsymbol : symbol ";" text = none := by
      rw [symbol, lexeme_apply, h]
      rfl
    have hend : lexeme Reader.atEnd text = some ((), []) := by
      rw [lexeme_apply, h]
      rfl
    rw [closing, bind_of_some (Reader.optional_of_none hsymbol), bind_of_some hend]
    rfl
  · have hsymbol : symbol ";" text = some ((), last) := by
      rw [symbol, lexeme_apply, h]
      rfl
    have hend : lexeme Reader.atEnd last = some ((), []) := by
      rw [← List.append_nil last]
      exact lexeme_gap hlast []
    rw [closing, bind_of_some (Reader.optional_of_some hsymbol), bind_of_some hend]
    rfl

theorem closing_of_start {draft : Draft} {text cs : List Char} {c : Char}
    (h : text.dropWhile isGap = c :: cs) (hc : c ≠ ';') : closing draft text = none := by
  have hsymbol : symbol ";" text = none := by
    rw [symbol, lexeme_apply, h]
    exact exactly_of_ne hc []
  have hend : lexeme Reader.atEnd text = none := by
    rw [lexeme_apply, h]
    rfl
  rw [closing, bind_of_some (Reader.optional_of_none hsymbol), bind_of_none hend]

theorem parallel_closing {a b : Draft} (h : Same a b) :
    Parallel Same false (closing a) (closing b) := by
  intro s t halike
  have hstart : ∀ {kind cs ds} (rest : List Char), Twin kind cs ds →
      ∃ c more, cs ++ rest = c :: more ∧ c ≠ ';' := by
    intro kind cs ds rest htwin
    obtain ⟨c, more, rfl, hc⟩ := htwin.start
    refine ⟨c, more ++ rest, rfl, ?_⟩
    rintro rfl
    rw [TokenKind.ofChar_none (Or.inr (Or.inl rfl))] at hc
    cases hc
  generalize hs : s.dropWhile isGap = s', ht : t.dropWhile isGap = t', halike.first = hfront
  cases hfront with
  | ends hends hreends =>
    rw [closing_of_ended (hs ▸ hends), closing_of_ended (ht ▸ hreends)]
    exact .read h (.ends (.gap Gap.nil) (.gap Gap.nil)) (Nat.zero_le _) (Nat.zero_le _)
  | token htwin =>
    obtain ⟨c, more, hcs, hc⟩ := hstart _ htwin
    obtain ⟨d, other, hds, hd⟩ := hstart _ htwin.symm
    rw [closing_of_start (hs.trans hcs) hc, closing_of_start (ht.trans hds) hd]
    exact .refused

theorem reader_apply (text : List Char) : Draft.reader text =
    (((selectReader <|> deleteReader : Reader Draft) text).or (otherReader text)).bind
      fun read => closing read.1 read.2 := by
  have hreader : Draft.reader =
    ((selectReader <|> deleteReader <|> otherReader : Reader Draft) >>= closing) := rfl
  rw [hreader, bind_apply, orElse_apply, orElse_apply, orElse_apply, Option.or_assoc]

theorem otherReader_yields_other : Yields (fun draft =>
    ∃ keyword sql, draft.query.statement = .other keyword sql) otherReader := by
  intro text draft left h
  rw [Draft.otherReader, lexeme_apply] at h
  dsimp only at h
  split at h
  case isTrue => exact (Prod.mk.inj (Option.some.inj h)).1 ▸ ⟨_, _, rfl⟩
  case isFalse => cases h

/-- A draft of a selection or a deletion is read as one. -/
theorem statement_of_reader {text left : List Char} {draft : Draft}
    (h : Draft.reader text = some (draft, left))
    (hkind : ∀ keyword sql, draft.query.statement ≠ .other keyword sql) :
    ((selectReader <|> deleteReader : Reader Draft) >>= closing) text = some (draft, left) := by
  rw [reader_apply] at h
  rw [bind_apply]
  cases hread : (selectReader <|> deleteReader : Reader Draft) text with
  | some read =>
    rw [hread] at h
    exact h
  | none =>
    rw [hread, Option.none_or, ← bind_apply] at h
    have hclosing : Yields (fun draft => ∃ keyword sql, draft.query.statement = .other keyword sql)
        (otherReader >>= closing) := otherReader_yields_other.bind fun draft hdraft =>
      Yields.andThen fun _ => Yields.andThen fun _ => Yields.of_pure hdraft
    obtain ⟨keyword, sql, hstatement⟩ := hclosing text draft left h
    exact absurd hstatement (hkind keyword sql)

theorem value?_of_alike {s t : String} (halike : Alike s.toList t.toList) {draft : Draft}
    (hread : Draft.reader.value? s = some draft)
    (hkind : ∀ keyword sql, draft.query.statement ≠ .other keyword sql) :
    ∃ redraft, Draft.reader.value? t = some redraft ∧ Same draft redraft := by
  obtain ⟨⟨_, left⟩, htext, rfl⟩ := Option.map_eq_some_iff.mp hread
  have hmatch := ((parallel_selectReader.orElse parallel_deleteReader).bind
    fun _ _ => parallel_closing) halike
  rw [statement_of_reader htext hkind] at hmatch
  generalize hreread : ((selectReader <|> deleteReader : Reader Draft) >>= closing) t.toList =
    reread at hmatch
  cases hmatch with
  | @read _ redraft _ rest hsame =>
    refine ⟨redraft, ?_, hsame⟩
    rw [bind_apply, Option.bind_eq_some_iff] at hreread
    obtain ⟨read, hstatement, hclosing⟩ := hreread
    rw [Reader.value?, reader_apply, hstatement, Option.some_or, Option.bind_some, hclosing]
    rfl

end Draft

theorem Count.value_same {whole rewhole : List Char} {a b : Count} (h : a.Same b) {n : UInt64}
    (hn : Count.value whole a = .ok n) : Count.value rewhole b = .ok n := by
  unfold Count.value at hn ⊢
  rw [← show a.digits = b.digits from h]
  dsimp only at hn ⊢
  split at hn
  case isTrue hlt => rwa [if_pos hlt]
  case isFalse => cases hn

theorem Count.mapM_same {whole rewhole : List Char} {a b : Option Count}
    (h : Option.Rel Count.Same a b) {n : Option UInt64} (hn : a.mapM (Count.value whole) = .ok n) :
    b.mapM (Count.value rewhole) = .ok n := by
  cases h with
  | none => exact hn
  | some hsame =>
    rw [Option.mapM_some] at hn ⊢
    obtain ⟨count, hcount, hn⟩ := bind_eq_ok.mp hn
    exact bind_eq_ok.mpr ⟨count, value_same hsame hcount, hn⟩

namespace Query

/-- Neither blanks nor the case of keywords nor a semicolon decide what is read, in either mode. -/
theorem parse_of_alike {mode remode : Mode} {s t : String} (halike : Alike s.toList t.toList)
    {query : Query} (hread : parse mode s = .ok query)
    (hkind : ∀ keyword sql, query.statement ≠ .other keyword sql) : parse remode t = .ok query := by
  obtain ⟨draft, hdraft, hspan⟩ := exists_draft hread
  rw [parse_of_draft hdraft hspan] at hread
  obtain ⟨limit, hlimit, hread⟩ := bind_eq_ok.mp hread
  obtain ⟨offset, hoffset, hread⟩ := bind_eq_ok.mp hread
  obtain rfl := Except.ok.inj hread
  obtain ⟨redraft, hredraft, hsame⟩ := Draft.value?_of_alike halike hdraft hkind
  have hrespan : backtickSpan? remode t.toList redraft.query = none := by
    unfold backtickSpan?
    rw [halike.symm.shut.findBacktick_eq]
    split <;> rfl
  rw [parse_of_draft hredraft hrespan, Count.mapM_same hsame.limit hlimit,
    Count.mapM_same hsame.offset hoffset, hsame.query]
  rfl

end Query
end FeatureSql.Sql
