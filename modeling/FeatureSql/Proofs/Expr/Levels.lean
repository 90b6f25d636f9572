import FeatureSql.Proofs.Expr.Grouping
import FeatureSql.Proofs.Expr.Primary

/-! The levels of precedence. What a level reads is found by the levels outside it as well, as long
as the text behind it does not go on with one of their operators. -/

set_option autoImplicit false

namespace FeatureSql.Sql.Expr

open Reader (Breaks breaks_cons bind_of_some bind_of_none orElse_of_none orElse_of_some Steps link)

/-- The reader of a level; above the factors of a product there are only primary expressions. -/
def levelReader (inner : Reader Expr) : Nat → Reader Expr
  | 1 => disjunction inner
  | 2 => conjunction inner
  | 3 => negation inner
  | 4 => comparisonReader inner
  | 5 => additive inner
  | 6 => multiplicative inner
  | _ => primary inner

/-- The text does not go on with an operator of the level, or of one that binds more tightly. -/
structure Closes (level : Nat) (text : List Char) : Prop where
  boundary : Boundary text
  factor : level ≤ 6 → sign multiplicativeSigns text = none
  term : level ≤ 5 → sign additiveSigns text = none
  tail : level ≤ 4 → ∀ inner, Expr.tail inner text = none
  conjunct : level ≤ 2 → keyword "and" text = none
  disjunct : level ≤ 1 → keyword "or" text = none

theorem Closes.mono {m n : Nat} {text : List Char} (h : Closes m text) (hmn : m ≤ n) :
    Closes n text where
  boundary := h.boundary
  factor := fun hn => h.factor (Nat.le_trans hmn hn)
  term := fun hn => h.term (Nat.le_trans hmn hn)
  tail := fun hn => h.tail (Nat.le_trans hmn hn)
  conjunct := fun hn => h.conjunct (Nat.le_trans hmn hn)
  disjunct := fun hn => h.disjunct (Nat.le_trans hmn hn)

theorem boundary_cons {c : Char} {text : List Char} (hname : isNameChar c = false)
    (hquote : (c == '\x22' || c == '\x27') = false) (hcall : symbol "(" (c :: text) = none) :
    Boundary (c :: text) :=
  ⟨breaks_cons.mpr hname, breaks_cons.mpr hquote, hcall⟩

theorem boundary_nil : Boundary [] := ⟨Breaks.nil _, Breaks.nil _, rfl⟩

theorem closes_nil : Closes 1 [] :=
  ⟨boundary_nil, fun _ => rfl, fun _ => rfl, fun _ _ => rfl, fun _ => rfl, fun _ => rfl⟩

theorem closes_parenthesis (text : List Char) : Closes 1 (')' :: text) :=
  ⟨boundary_cons rfl rfl rfl, fun _ => rfl, fun _ => rfl, fun _ _ => rfl, fun _ => rfl, fun _ => rfl⟩

theorem closes_comma (text : List Char) : Closes 1 (',' :: text) :=
  ⟨boundary_cons rfl rfl rfl, fun _ => rfl, fun _ => rfl, fun _ _ => rfl, fun _ => rfl, fun _ => rfl⟩

section Operators
variable {operator : String} {text : List Char}

theorem closes_multiplicative (hop : operator ∈ multiplicativeSigns) :
    Closes 7 (' ' :: (operator.toList ++ text)) := by
  have hbound : Boundary (' ' :: (operator.toList ++ text)) := by
    simp only [multiplicativeSigns, List.mem_cons, List.not_mem_nil, or_false] at hop
    rcases hop with rfl | rfl | rfl <;> exact boundary_cons rfl rfl rfl
  exact ⟨hbound, by omega, by omega, by omega, by omega, by omega⟩

theorem closes_additive (hop : operator ∈ additiveSigns) :
    Closes 6 (' ' :: (operator.toList ++ text)) := by
  have hbound : Boundary (' ' :: (operator.toList ++ text)) ∧
      sign multiplicativeSigns (' ' :: (operator.toList ++ text)) = none := by
    simp only [additiveSigns, List.mem_cons, List.not_mem_nil, or_false] at hop
    rcases hop with rfl | rfl | rfl <;> exact ⟨boundary_cons rfl rfl rfl, rfl⟩
  exact ⟨hbound.1, fun _ => hbound.2, by omega, by omega, by omega, by omega⟩

theorem closes_comparison (hop : operator ∈ comparisonSigns) :
    Closes 5 (operator.toList ++ text) := by
  have hbound : Boundary (operator.toList ++ text) ∧
      sign multiplicativeSigns (operator.toList ++ text) = none ∧
      sign additiveSigns (operator.toList ++ text) = none := by
    simp only [comparisonSigns, List.mem_cons, List.not_mem_nil, or_false] at hop
    rcases hop with rfl | rfl | rfl | rfl | rfl | rfl | rfl | rfl | rfl | rfl | rfl <;>
      exact ⟨boundary_cons rfl rfl rfl, rfl, rfl⟩
  exact ⟨hbound.1, fun _ => hbound.2.1, fun _ => hbound.2.2, by omega, by omega, by omega⟩

end Operators

/-- Words that go on with a comparison. -/
def tailWords : List (List Char) := ["is", "not", "in", "like", "ilike"].map String.toList

theorem signOf_of_word {c : Char} (hc : isWordChar c = true) (signs : List String)
    (hs : ∀ s ∈ signs, ∃ m ms, s.toList = m :: ms ∧ isWordChar m = false) (text : List Char) :
    signOf signs (c :: text) = none := by
  induction signs with
  | nil => rfl
  | cons s signs ih =>
    obtain ⟨m, ms, hm, hword⟩ := hs s List.mem_cons_self
    have hne : c ≠ m := by
      rintro rfl
      rw [hc] at hword
      exact absurd hword (by decide)
    have hexact : Reader.exactly s.toList (c :: text) = none := by
      rw [hm, exactly_of_ne hne]
    rw [signOf, orElse_of_none (bind_of_none hexact)]
    exact ih fun s' hs' => hs s' (List.mem_cons_of_mem s hs')

/-- Before a word no sign begins. -/
theorem sign_of_word {c : Char} (hc : isWordChar c = true) {signs : List String}
    (hs : signs.all (fun s => match s.toList with
      | [] => false
      | m :: _ => !isWordChar m) = true) {gap : List Char} (hg : Gap gap) (text : List Char) :
    sign signs (gap ++ c :: text) = none := by
  rw [sign_gap hg, sign, lexeme_cons (isGap_of_isWordChar hc)]
  refine signOf_of_word hc signs (fun s hmem => ?_) text
  have h := List.all_eq_true.mp hs s hmem
  cases hm : s.toList with
  | nil => simp [hm] at h
  | cons m ms => exact ⟨m, ms, rfl, by simpa [hm] using h⟩

section Words
variable {word rest : List Char} {inner : Reader Expr}

theorem nextWord_blank (hw : ∀ c ∈ word, isWordChar c = true) (hne : word ≠ [])
    (hr : Breaks isWordChar rest) : nextWord (' ' :: (word ++ rest)) = word := by
  have h := nextWord_gap Gap.blank (word ++ rest)
  rw [nextWord_append hw hne hr] at h
  exact h

theorem tail_of_word (hw : ∀ c ∈ word, isWordChar c = true) (hne : word ≠ [])
    (hr : Breaks isWordChar rest) (ht : lower word ∉ tailWords) :
    tail inner (' ' :: (word ++ rest)) = none := by
  have hnext := nextWord_blank hw hne hr
  have hkey : ∀ w, w.toList ∈ tailWords → keyword w (' ' :: (word ++ rest)) = none := by
    intro w hmem
    apply keyword_of_ne
    rw [hnext]
    rintro heq
    exact ht (heq ▸ hmem)
  have hnot : optionalNot (' ' :: (word ++ rest)) = some ([], ' ' :: (word ++ rest)) :=
    orElse_of_none (bind_of_none (hkey "not" (by decide)))
  have hlike : likeWord (' ' :: (word ++ rest)) = none := by
    rw [likeWord, orElse_of_none (bind_of_none (hkey "like" (by decide)))]
    exact bind_of_none (hkey "ilike" (by decide))
  have hsign : sign comparisonSigns (' ' :: (word ++ rest)) = none := by
    cases word with
    | nil => exact absurd rfl hne
    | cons c cs => exact sign_of_word (hw c List.mem_cons_self) (by decide) Gap.blank (cs ++ rest)
  have his : isTail inner (' ' :: (word ++ rest)) = none := bind_of_none (hkey "is" (by decide))
  have hin : inTail inner (' ' :: (word ++ rest)) = none := by
    rw [inTail, bind_of_some hnot]
    exact bind_of_none (hkey "in" (by decide))
  have hlikeTail : likeTail inner (' ' :: (word ++ rest)) = none := by
    rw [likeTail, bind_of_some hnot]
    exact bind_of_none hlike
  rw [tail, orElse_of_none his, orElse_of_none hin, orElse_of_none hlikeTail]
  exact bind_of_none hsign

/-- A word behind an operand that is no operator of the level. -/
theorem closes_word {level : Nat} (hw : ∀ c ∈ word, isWordChar c = true) (hne : word ≠ [])
    (hr : Breaks isWordChar rest) (ht : level ≤ 4 → lower word ∉ tailWords)
    (hand : level ≤ 2 → lower word ≠ "and".toList) (hor : level ≤ 1 → lower word ≠ "or".toList) :
    Closes level (' ' :: (word ++ rest)) := by
  have hnext := nextWord_blank hw hne hr
  cases word with
  | nil => exact absurd rfl hne
  | cons c cs =>
    have hc := hw c List.mem_cons_self
    have hparen : c ≠ '(' := by rintro rfl; exact absurd hc (by decide)
    have hcall : symbol "(" (' ' :: (c :: cs ++ rest)) = none :=
      (symbol_gap Gap.blank "(" _).trans (symbol_of_ne rfl (isGap_of_isWordChar hc) hparen)
    refine ⟨boundary_cons rfl rfl hcall, fun _ => ?_, fun _ => ?_, fun hl _ => ?_, fun hl => ?_,
      fun hl => ?_⟩
    · exact sign_of_word hc (by decide) Gap.blank (cs ++ rest)
    · exact sign_of_word hc (by decide) Gap.blank (cs ++ rest)
    · exact tail_of_word hw hne hr (ht hl)
    · exact keyword_of_ne (by rw [hnext]; exact hand hl)
    · exact keyword_of_ne (by rw [hnext]; exact hor hl)

end Words

section Refusals
variable {inner : Reader Expr} {text : List Char}

theorem additive_of_none (h : primary inner text = none) : additive inner text = none :=
  Reader.chain_of_none (Reader.chain_of_none h)

theorem comparisonReader_of_none (h : primary inner text = none) :
    comparisonReader inner text = none := bind_of_none (additive_of_none h)

/-- An expression does not start with the word that negates. -/
theorem not_of_comparisonReader {p : Expr × List Char} (h : comparisonReader inner text = some p) :
    keyword "not" text = none := by
  rw [keyword_apply]
  split
  case isFalse => rfl
  case isTrue hnot =>
    have hres : isReserved (nextWord text) = true := by
      rw [isReserved, hnot]
      decide
    rw [comparisonReader_of_none (primary_of_reserved hres)] at h
    cases h

theorem not_of_additive {p : Expr × List Char} (h : additive inner text = some p) :
    keyword "not" text = none := by
  rw [keyword_apply]
  split
  case isFalse => rfl
  case isTrue hnot =>
    have hres : isReserved (nextWord text) = true := by
      rw [isReserved, hnot]
      decide
    rw [additive_of_none (primary_of_reserved hres)] at h
    cases h

theorem disjunction_of_none (h : primary inner text = none) (hnot : keyword "not" text = none) :
    disjunction inner text = none := by
  have hneg : negation inner text = none := by
    rw [negation, bind_of_some (Reader.many_of_none hnot), bind_of_none (comparisonReader_of_none h)]
  exact Reader.chain_of_none (Reader.chain_of_none hneg)

/-- Marks that no value starts with. -/
def foreignMarks : List Char := [')', '*', '=', '>', '~']

theorem primary_of_foreign {c : Char} (hc : c ∈ foreignMarks) (text : List Char) :
    primary inner (c :: text) = none := by
  simp only [foreignMarks, List.mem_cons, List.not_mem_nil, or_false] at hc
  rcases hc with rfl | rfl | rfl | rfl | rfl <;> rfl

end Refusals

/-- The text is read as the expression by the reader of a level. -/
def Whole (inner : Reader Expr) (level : Nat) (sql : List Char) (e : Expr) : Prop :=
  ∀ gap text, Gap gap → Closes level text →
    levelReader inner level (gap ++ (sql ++ text)) = some (e, text)

/-- The text is read as a chain: its first operand, which meets a condition, then operators with
operands. -/
def Spine {β : Type} (P : Expr → Prop) (inner : Reader Expr) (level : Nat) (operator : Reader β)
    (join : β → Expr → Expr → Expr) (sql : List Char) (e : Expr) : Prop :=
  ∀ gap text, Gap gap → Closes (level + 1) text → ∃ a mid bs,
    levelReader inner (level + 1) (gap ++ (sql ++ text)) = some (a, mid) ∧
      mid.length ≤ (sql ++ text).length ∧
      Steps (link (levelReader inner (level + 1)) operator) mid bs text ∧
      bs.foldl (fun left (b, right) => join b left right) a = e ∧ P a

/-- The text is read as an expression behind words that negate it. -/
def Negations (inner : Reader Expr) (sql : List Char) (e : Expr) : Prop :=
  ∀ gap text, Gap gap → Closes 3 text → ∃ a mid nots,
    Steps (keyword "not") (gap ++ (sql ++ text)) nots mid ∧
      comparisonReader inner mid = some (a, text) ∧ nots.foldr (fun _ e => .not e) a = e

section Chains
variable (P : Nat → Expr → Prop) (inner : Reader Expr)

abbrev Disjuncts : List Char → Expr → Prop :=
  Spine (P 1) inner 1 (keyword "or") fun _ => .logical .or

abbrev Conjuncts : List Char → Expr → Prop :=
  Spine (P 2) inner 2 (keyword "and") fun _ => .logical .and

abbrev Terms : List Char → Expr → Prop :=
  Spine (P 5) inner 5 (sign additiveSigns) .comparison

abbrev Factors : List Char → Expr → Prop :=
  Spine (P 6) inner 6 (sign multiplicativeSigns) .comparison

/-- How an expression of a level is read, in the form in which its operands are put together. -/
def ReadingFrom : Nat → List Char → Expr → Prop
  | 1 => Disjuncts P inner
  | 2 => Conjuncts P inner
  | 3 => Negations inner
  | 5 => Terms P inner
  | 6 => Factors P inner
  | level => Whole inner level

end Chains

/-- No chain starts with an operand that is a chain of its level itself. -/
abbrev Reading : Reader Expr → Nat → List Char → Expr → Prop :=
  ReadingFrom fun level first => first.rank ≠ level

/-- Chains may start with any operand, such as one in parentheses that it does not need. -/
abbrev LooseReading : Reader Expr → Nat → List Char → Expr → Prop := ReadingFrom fun _ _ => True

section Levels
variable {P : Nat → Expr → Prop} {inner : Reader Expr} {level : Nat} {sql : List Char} {e : Expr}

section Spine
variable {β : Type} {Q : Expr → Prop} {operator : Reader β} {join : β → Expr → Expr → Expr}

theorem Spine.whole (h : Spine Q inner level operator join sql e)
    (hchain : levelReader inner level =
      Reader.chain (levelReader inner (level + 1)) operator join)
    (hstop : ∀ text, Closes level text → operator text = none) : Whole inner level sql e := by
  intro gap text hg hc
  obtain ⟨a, mid, bs, ha, _, hsteps, rfl, _⟩ := h gap text hg (hc.mono (Nat.le_succ level))
  rw [hchain]
  exact Reader.chain_of_steps ha hsteps (hstop text hc)

theorem Spine.of_whole (h : Whole inner (level + 1) sql e) (hfirst : Q e) :
    Spine Q inner level operator join sql e := by
  intro gap text hg hc
  exact ⟨e, text, [], h gap text hg hc, by simp, .nil text, rfl, hfirst⟩

end Spine

theorem Negations.whole (h : Negations inner sql e) : Whole inner 3 sql e := by
  intro gap text hg hc
  obtain ⟨a, mid, nots, hsteps, ha, rfl⟩ := h gap text hg hc
  have hmany := hsteps.many_eq (not_of_comparisonReader ha)
  rw [levelReader, negation, bind_of_some hmany, bind_of_some ha]
  rfl

theorem Negations.of_whole (h : Whole inner 4 sql e) : Negations inner sql e := by
  intro gap text hg hc
  exact ⟨e, gap ++ (sql ++ text), [], .nil _, h gap text hg (hc.mono (by decide)), rfl⟩

theorem ReadingFrom.whole (h : ReadingFrom P inner level sql e) : Whole inner level sql e := by
  unfold ReadingFrom at h
  split at h
  · exact h.whole rfl fun text hc => hc.disjunct (Nat.le_refl 1)
  · exact h.whole rfl fun text hc => hc.conjunct (Nat.le_refl 2)
  · exact h.whole
  · exact h.whole rfl fun text hc => hc.term (Nat.le_refl 5)
  · exact h.whole rfl fun text hc => hc.factor (Nat.le_refl 6)
  · exact h

/-- What is read inside a level is one operand of it. -/
theorem ReadingFrom.of_whole_succ (h : Whole inner (level + 1) sql e) (hfirst : P level e)
    (hpos : 1 ≤ level) : ReadingFrom P inner level sql e := by
  match level, hpos with
  | 1, _ => exact (Spine.of_whole h hfirst : Disjuncts P inner sql e)
  | 2, _ => exact (Spine.of_whole h hfirst : Conjuncts P inner sql e)
  | 3, _ => exact Negations.of_whole h
  | 4, _ =>
    intro gap text hg hc
    have hread := h gap text hg (hc.mono (by decide))
    have hnone := Reader.optional_of_none (hc.tail (Nat.le_refl 4) inner)
    exact (bind_of_some hread).trans (bind_of_some hnone)
  | 5, _ => exact (Spine.of_whole h hfirst : Terms P inner sql e)
  | 6, _ => exact (Spine.of_whole h hfirst : Factors P inner sql e)
  | n + 7, _ => exact fun gap text hg hc => h gap text hg (hc.mono (Nat.le_succ _))

/-- Down from one level to another, past levels that the expression itself does not have. -/
theorem ReadingFrom.down {top : Nat} (h : Whole inner top sql e) (hlt : level < top)
    (hpos : 1 ≤ level) (hfirst : ∀ l, level ≤ l → l < top → P l e) :
    ReadingFrom P inner level sql e := by
  induction top with
  | zero => exact absurd hlt (Nat.not_lt_zero _)
  | succ top ih =>
    have hreading : ReadingFrom P inner top sql e :=
      of_whole_succ h (hfirst top (by omega) (by omega)) (by omega)
    by_cases heq : level = top
    · exact heq ▸ hreading
    · exact ih hreading.whole (by omega) fun l hl hl' => hfirst l hl (by omega)

/-- What a level reads whole, every level outside it does. -/
theorem Whole.down {top : Nat} (h : Whole inner top sql e) (hlt : level < top) (hpos : 1 ≤ level) :
    Whole inner level sql e :=
  (ReadingFrom.down (P := fun _ _ => True) h hlt hpos fun _ _ _ => True.intro).whole

theorem LooseReading.le {top : Nat} (h : LooseReading inner top sql e) (hle : level ≤ top)
    (hpos : 1 ≤ level) : LooseReading inner level sql e := by
  by_cases heq : level = top
  · exact heq ▸ h
  · exact .down h.whole (by omega) hpos fun _ _ _ => True.intro

theorem Reading.le_rank (h : Reading inner e.rank sql e) (hle : level ≤ e.rank) (hpos : 1 ≤ level) :
    Reading inner level sql e := by
  by_cases heq : level = e.rank
  · exact heq ▸ h
  · exact .down h.whole (by omega) hpos fun l _ hl => by omega

/-- An expression in parentheses can stand wherever it would need them. -/
theorem Reading.of_primary (h : Whole inner 7 sql e) (hrank : e.rank < level ∨ 7 ≤ level) :
    Reading inner level sql e := by
  by_cases hlt : level < 7
  · exact .down h hlt (by omega) fun l _ _ => by omega
  · obtain ⟨n, rfl⟩ : ∃ n, level = n + 7 := ⟨level - 7, by omega⟩
    exact fun gap text hg hc =>
      h gap text hg ⟨hc.boundary, by omega, by omega, by omega, by omega, by omega⟩

section Combine
variable {β : Type} {Q : Expr → Prop} {operator : Reader β} {join : β → Expr → Expr → Expr} {b : β}
variable {mark first second : List Char} {left right : Expr}

/-- One more operand behind a chain. -/
theorem Spine.snoc (hl : Spine Q inner level operator join first left)
    (hr : Whole inner (level + 1) second right)
    (hread : ∀ rest, operator (mark ++ ' ' :: rest) = some (b, ' ' :: rest))
    (hclose : ∀ rest, Closes (level + 1) (mark ++ ' ' :: rest)) :
    Spine Q inner level operator join (first ++ (mark ++ ' ' :: second)) (join b left right) := by
  intro gap text hg hc
  obtain ⟨a, mid, bs, ha, hlen, hsteps, rfl, hfirst⟩ :=
    hl gap (mark ++ ' ' :: (second ++ text)) hg (hclose _)
  have hright := hr [' '] text Gap.blank hc
  have hlink := Reader.link_of_some (hread (second ++ text)) hright
  have hlast := Steps.single hlink (by simp; omega)
  refine ⟨a, mid, bs ++ [(b, right)], ?_, ?_, hsteps.append hlast, ?_, hfirst⟩
  · simpa using ha
  · simpa using hlen
  · rw [List.foldl_append]
    rfl

theorem foldl_attach (operator : Logical) (first : Expr) (bs : List (Unit × Expr)) (e : Expr) :
    attach operator first (bs.foldl (fun left (_, right) => .logical operator left right) e) =
      bs.foldl (fun left (_, right) => .logical operator left right) (attach operator first e) := by
  induction bs generalizing e with
  | nil => rfl
  | cons b bs ih => rw [List.foldl_cons, ih, attach_logical, List.foldl_cons]

/-- A chain of a logical operator behind another one of the same operator. -/
theorem Spine.attach {logical : Logical} {operator : Reader Unit}
    (hlevel : logicalRank logical = level)
    (hl : Spine Q inner level operator (fun _ => .logical logical) first left)
    (hr : Spine (·.rank ≠ level) inner level operator (fun _ => .logical logical) second right)
    (hread : ∀ rest, operator (mark ++ ' ' :: rest) = some ((), ' ' :: rest))
    (hclose : ∀ rest, Closes (level + 1) (mark ++ ' ' :: rest)) :
    Spine Q inner level operator (fun _ => .logical logical) (first ++ (mark ++ ' ' :: second))
      (Expr.attach logical left right) := by
  intro gap text hg hc
  obtain ⟨a, mid, bs, ha, hlen, hsteps, rfl, hfirst⟩ :=
    hl gap (mark ++ ' ' :: (second ++ text)) hg (hclose _)
  obtain ⟨a', mid', bs', ha', hlen', hsteps', rfl, hrank'⟩ := hr [' '] text Gap.blank hc
  have hlink := Reader.link_of_some (hread (second ++ text)) ha'
  have hlast := Steps.cons hlink (by simp at hlen' ⊢; omega) hsteps'
  refine ⟨a, mid, bs ++ ((), a') :: bs', ?_, ?_, hsteps.append hlast, ?_, hfirst⟩
  · simpa using ha
  · simpa using hlen
  · rw [foldl_attach, attach_of_ne _ (hlevel ▸ hrank'), List.foldl_append]
    rfl

end Combine

end Levels

end FeatureSql.Sql.Expr
