import FeatureSql.Proofs.Query.Backtick

/-! Places inside of an expression. What stands at a place is written as it would be written alone,
behind a text and in front of one that do not depend on it. -/

set_option autoImplicit false

namespace FeatureSql.Sql

open Reader (Breaks breaks_cons)

theorem breaks_append {p : Char → Bool} {first second : List Char} (hf : Breaks p first)
    (hs : Breaks p second) : Breaks p (first ++ second) := by
  cases first with
  | nil => exact hs
  | cons c cs => exact breaks_cons.mpr (breaks_cons.mp hf)

/-- What can belong to a name: characters of a bare one, and quotes. -/
def isOfName (c : Char) : Bool := isNameChar c || !isPlain c

/-- What goes on with a name, or makes a call of it. -/
def goesOn (c : Char) : Bool := isOfName c || c == '('

/-- A text whose quotes are closed, and that does not end in a name. -/
structure Front (sql : String) : Prop where
  clean : Clean sql
  apart : Breaks isOfName sql.toList.reverse

/-- A text that does not go on with a name in front of it. -/
def Back (sql : String) : Prop := Breaks goesOn sql.toList

/-- Text without quotes whose last character belongs to no name. -/
def endsApart (sql : String) : Bool :=
  sql.toList.all isPlain && sql.toList.reverse.head?.any (!isOfName ·)

/-- Text whose first character goes on with no name. -/
def startsApart (sql : String) : Bool := sql.toList.head?.any (!goesOn ·)

theorem breaks_of_head? {p : Char → Bool} {cs : List Char} (h : cs.head?.any (!p ·) = true)
    (rest : List Char) : Breaks p (cs ++ rest) := by
  cases cs with
  | nil => cases h
  | cons c cs => exact breaks_cons.mpr (by simpa using h)

namespace Front

theorem empty : Front "" := ⟨Clean.empty, Breaks.nil _⟩

theorem append {first second : String} (hf : Front first) (hs : Front second) :
    Front (first ++ second) := by
  refine ⟨hf.clean.append hs.clean, ?_⟩
  rw [String.toList_append, List.reverse_append]
  exact breaks_append hs.apart hf.apart

/-- In front of a place stands a mark, whatever stands before that. -/
theorem mark {first mark : String} (hf : Clean first) (hm : endsApart mark = true) :
    Front (first ++ mark) := by
  rw [endsApart, Bool.and_eq_true] at hm
  refine ⟨hf.append (Clean.of_plain hm.1), ?_⟩
  rw [String.toList_append, List.reverse_append]
  exact breaks_of_head? hm.2 _

theorem of_mark {mark : String} (hm : endsApart mark = true) : Front mark := by
  have hfront := Front.mark Clean.empty hm
  rwa [String.empty_append] at hfront

end Front

namespace Back

theorem empty : Back "" := Breaks.nil _

theorem append {first second : String} (hf : Back first) (hs : Back second) :
    Back (first ++ second) := by
  unfold Back
  rw [String.toList_append]
  exact breaks_append hf hs

/-- Behind a place stands a mark, whatever stands after that. -/
theorem mark {mark : String} (hm : startsApart mark = true) (second : String) :
    Back (mark ++ second) := by
  unfold Back
  rw [String.toList_append]
  exact breaks_of_head? hm _

theorem of_mark {mark : String} (hm : startsApart mark = true) : Back mark := by
  have hback := Back.mark hm ""
  rwa [String.append_empty] at hback

end Back

section Shows
variable {ι : Type} {own inner whole : ι → String}

/-- Each text of a family has its own part in it, all of them at the same place. -/
def Shows (own whole : ι → String) : Prop :=
  ∃ before after, Front before ∧ Back after ∧ ∀ i, whole i = before ++ own i ++ after

namespace Shows

theorem refl (own : ι → String) : Shows own own :=
  ⟨"", "", Front.empty, Back.empty, fun i => by simp⟩

theorem trans (h : Shows own inner) (hwhole : Shows inner whole) : Shows own whole := by
  obtain ⟨before, after, hbefore, hafter, hinner⟩ := h
  obtain ⟨front, back, hfront, hback, hwhole⟩ := hwhole
  refine ⟨front ++ before, after ++ back, hfront.append hbefore, hafter.append hback, fun i => ?_⟩
  rw [hwhole, hinner]
  simp only [String.append_assoc]

theorem of_eq {other : ι → String} (h : Shows own whole) (heq : ∀ i, other i = whole i) :
    Shows own other := funext heq ▸ h

theorem between {before after : String} (hbefore : Front before) (hafter : Back after) :
    Shows own fun i => before ++ own i ++ after :=
  ⟨before, after, hbefore, hafter, fun _ => rfl⟩

theorem behind {before : String} (hbefore : Front before) : Shows own fun i => before ++ own i :=
  ⟨before, "", hbefore, Back.empty, fun _ => by simp⟩

theorem before {after : String} (hafter : Back after) : Shows own fun i => own i ++ after :=
  ⟨"", after, Front.empty, hafter, fun _ => by simp⟩

theorem parenthesize (needed : Bool) : Shows own fun i => Sql.parenthesize needed (own i) := by
  cases needed with
  | true => exact between (Front.of_mark rfl) (Back.of_mark rfl)
  | false => exact refl own

end Shows

theorem commas_cons {parts : List String} (part : String) (hne : parts ≠ []) :
    commas (part :: parts) = part ++ ", " ++ commas parts := by
  cases parts with
  | nil => exact absurd rfl hne
  | cons next parts => exact String.intercalate_cons_cons

theorem Shows.commas {before : List String} (hbefore : ∀ part ∈ before, Clean part)
    (after : List String) : Shows own fun i => commas (before ++ own i :: after) := by
  induction before with
  | nil =>
    cases after with
    | nil =>
      simp only [List.nil_append, Sql.commas, String.intercalate_singleton]
      exact Shows.refl own
    | cons next after =>
      simp only [List.nil_append, commas_cons _ (List.cons_ne_nil next after), String.append_assoc]
      exact Shows.before (Back.mark rfl _)
  | cons part before ih =>
    rw [List.forall_mem_cons] at hbefore
    have hne : ∀ i, before ++ own i :: after ≠ [] := by simp
    simp only [List.cons_append, commas_cons part (hne _)]
    exact (ih hbefore.2).trans (Shows.behind (Front.mark hbefore.1 rfl))

end Shows

namespace Expr

/-- A step from an expression down to one of its parts, past the others. -/
inductive Frame where
  | argument (function : String) (before after : List Expr)
  | named (label : String)
  | item (before after : List Expr)
  | not
  | logicalLeft (operator : Logical) (right : Expr)
  | logicalRight (operator : Logical) (left : Expr)
  | comparisonLeft (operator : String) (right : Expr)
  | comparisonRight (operator : String) (left : Expr)

/-- The expression that has this part. -/
def Frame.plug : Frame → Expr → Expr
  | .argument function before after, e => .call function (before ++ e :: after)
  | .named label, e => .named label e
  | .item before after, e => .list (before ++ e :: after)
  | .not, e => .not e
  | .logicalLeft operator right, e => .logical operator e right
  | .logicalRight operator left, e => .logical operator left e
  | .comparisonLeft operator right, e => .comparison operator e right
  | .comparisonRight operator left, e => .comparison operator left e

/-- An expression that is well formed where it stands. -/
def Placed (e : Expr) : Prop := ∃ place, WellFormedAt place e

theorem Placed.clean {e : Expr} (h : Placed e) : Clean (e.render .standard) :=
  h.elim fun _ => clean_render

theorem clean_all {es : List Expr} (h : ∀ e ∈ es, Placed e) :
    ∀ part ∈ es.map (render .standard), Clean part :=
  List.forall_mem_map.mpr fun e he => (h e he).clean

section Placed
variable {e left right : Expr}

theorem placed_arguments {function : String} {arguments : List Expr}
    (h : Placed (.call function arguments)) :
    IsFunctionName function ∧ ∀ a ∈ arguments, Placed a := by
  obtain ⟨place, h⟩ := h
  cases h with
  | call hf has => exact ⟨hf, fun a ha => ⟨_, has a ha⟩⟩
  | positional h => cases h with
    | call hf has => exact ⟨hf, fun a ha => ⟨_, has a ha⟩⟩

theorem placed_value {label : String} (h : Placed (.named label e)) : Placed e := by
  obtain ⟨place, h⟩ := h
  cases h with
  | named _ h => exact ⟨_, h⟩
  | positional h => cases h

theorem placed_items {items : List Expr} (h : Placed (.list items)) : ∀ e ∈ items, Placed e := by
  obtain ⟨place, h⟩ := h
  cases h with
  | list _ h => exact fun e he => ⟨_, h e he⟩
  | positional h => cases h

theorem placed_operand (h : Placed (.not e)) : Placed e := by
  obtain ⟨place, h⟩ := h
  cases h with
  | not h => exact ⟨_, h⟩
  | positional h => cases h with
    | not h => exact ⟨_, h⟩

theorem placed_logical {operator : Logical} (h : Placed (.logical operator left right)) :
    Placed left ∧ Placed right := by
  obtain ⟨place, h⟩ := h
  cases h with
  | logical _ hl hr => exact ⟨⟨_, hl⟩, ⟨_, hr⟩⟩
  | positional h => cases h with
    | logical _ hl hr => exact ⟨⟨_, hl⟩, ⟨_, hr⟩⟩

theorem placed_comparison {operator : String} (h : Placed (.comparison operator left right)) :
    operator ∈ binaryOperators ++ listOperators ∧ Placed left ∧ Placed right := by
  have hcases : WellFormed (.comparison operator left right) →
      operator ∈ binaryOperators ++ listOperators ∧ Placed left ∧ Placed right := by
    intro h
    cases h with
    | comparison hop hl hr => exact ⟨List.mem_append_left _ hop, ⟨_, hl⟩, ⟨_, hr⟩⟩
    | membership hop hl hr => exact ⟨List.mem_append_right _ hop, ⟨_, hl⟩, ⟨_, hr⟩⟩
  obtain ⟨place, h⟩ := h
  cases h with
  | comparison hop hl hr => exact hcases (.comparison hop hl hr)
  | membership hop hl hr => exact hcases (.membership hop hl hr)
  | positional h => exact hcases h

end Placed

namespace Frame

theorem inner {frame : Frame} {e : Expr} (h : Placed (frame.plug e)) : Placed e := by
  cases frame with
  | argument function before after => exact (placed_arguments h).2 e (by simp)
  | named label => exact placed_value h
  | item before after => exact placed_items h e (by simp)
  | not => exact placed_operand h
  | logicalLeft operator right => exact (placed_logical h).1
  | logicalRight operator left => exact (placed_logical h).2
  | comparisonLeft operator right => exact (placed_comparison h).2.1
  | comparisonRight operator left => exact (placed_comparison h).2.2

theorem rank_plug (frame : Frame) (e other : Expr) :
    (frame.plug e).rank = (frame.plug other).rank := by
  cases frame with
  | logicalLeft operator | logicalRight operator => rw [plug, rank_logical, plug, rank_logical]
  | _ => rfl

section Shows
variable {ι : Type} {family : ι → Expr} {e left right : Expr}

theorem shows_parenthesize {needed : Expr → Bool} (h : ∀ i, needed (family i) = needed e) :
    Shows (fun i => (family i).render .standard)
      fun i => parenthesize (needed (family i)) ((family i).render .standard) := by
  simp only [h]
  exact Shows.parenthesize (needed e)

/-- An operator with the blanks around it. -/
def operatorText (operator : String) : String :=
  operatorGap operator ++ operator ++ operatorGap operator

theorem apart_operator : ∀ operator ∈ binaryOperators ++ listOperators,
    endsApart (operatorText operator) = true ∧ startsApart (operatorText operator) = true := by
  decide +kernel

def wordText (operator : Logical) : String := " " ++ operator.word ++ " "

theorem apart_word (operator : Logical) :
    endsApart (wordText operator) = true ∧ startsApart (wordText operator) = true := by
  cases operator <;> decide +kernel

theorem clean_operand {e : Expr} (h : Placed e) (needed : Bool) :
    Clean (parenthesize needed (e.render .standard)) := clean_parenthesize needed h.clean

/-- One step down, a part is written as it would be alone, at one place for all parts that hold
together as tightly. -/
theorem shows {frame : Frame} (h : Placed (frame.plug e)) (hrank : ∀ i, (family i).rank = e.rank) :
    Shows (fun i => (family i).render .standard)
      fun i => (frame.plug (family i)).render .standard := by
  -- Whether a part stands in parentheses depends on its rank alone.
  have hparens : ∀ around i, needsParens around (family i) = needsParens around e :=
    fun around i => by simp only [needsParens, hrank]
  have hright : ∀ around i, needsParensRight around (family i) = needsParensRight around e :=
    fun around i => by simp only [needsParensRight, hrank]
  cases frame with
  | argument function before after =>
    obtain ⟨hf, has⟩ := placed_arguments h
    have hbefore := clean_all fun a ha => has a (List.mem_append_left _ ha)
    refine (Shows.commas hbefore (after.map (render .standard))).trans ?_
    simp only [plug, render, renderAll_eq_map, List.map_append, List.map_cons]
    exact Shows.between (Front.mark (clean_function hf) rfl) (Back.of_mark rfl)
  | named label =>
    exact Shows.behind (Front.mark (clean_write (Or.inl rfl) label) rfl)
  | item before after =>
    have hbefore := clean_all fun a ha => placed_items h a (List.mem_append_left _ ha)
    refine (Shows.commas hbefore (after.map (render .standard))).trans ?_
    simp only [plug, render, renderAll_eq_map, List.map_append, List.map_cons]
    exact Shows.between (Front.of_mark rfl) (Back.of_mark rfl)
  | not =>
    refine (shows_parenthesize (hparens 3)).trans ?_
    exact Shows.behind (Front.of_mark rfl)
  | logicalLeft operator right =>
    have hword := Back.mark (apart_word operator).2
      (parenthesize (needsParens (logicalRank operator) right) (right.render .standard))
    refine ((shows_parenthesize (hparens (logicalRank operator))).trans
      (Shows.before hword)).of_eq ?_
    intro i
    simp only [plug, render_logical, wordText, String.append_assoc]
  | logicalRight operator left =>
    have hword := Front.mark (clean_operand (placed_logical h).1
      (needsParens (logicalRank operator) left)) (apart_word operator).1
    refine ((shows_parenthesize (hparens (logicalRank operator))).trans
      (Shows.behind hword)).of_eq ?_
    intro i
    simp only [plug, render_logical, wordText, String.append_assoc]
  | comparisonLeft operator right =>
    have hoperator := Back.mark (apart_operator operator (placed_comparison h).1).2
      (parenthesize (needsParensRight (operatorRank operator) right) (right.render .standard))
    refine ((shows_parenthesize (hparens (operatorRank operator))).trans
      (Shows.before hoperator)).of_eq ?_
    intro i
    simp only [plug, render, operatorText, String.append_assoc]
  | comparisonRight operator left =>
    obtain ⟨hop, hleft, _⟩ := placed_comparison h
    have hoperator := Front.mark (clean_operand hleft (needsParens (operatorRank operator) left))
      (apart_operator operator hop).1
    refine ((shows_parenthesize (hright (operatorRank operator))).trans
      (Shows.behind hoperator)).of_eq ?_
    intro i
    simp only [plug, render, operatorText, String.append_assoc]

end Shows
end Frame

/-- The way down to a place, from the whole expression on. -/
abbrev Frames := List Frame

namespace Frames

def plug (frames : Frames) (e : Expr) : Expr := frames.foldr Frame.plug e

theorem plug_cons (frame : Frame) (frames : Frames) (e : Expr) :
    plug (frame :: frames) e = frame.plug (plug frames e) := rfl

theorem rank_plug (frames : Frames) {e other : Expr} (h : e.rank = other.rank) :
    (plug frames e).rank = (plug frames other).rank := by
  cases frames with
  | nil => exact h
  | cons frame frames => exact frame.rank_plug _ _

theorem shows {ι : Type} {frames : Frames} {family : ι → Expr} {e : Expr}
    (h : Placed (plug frames e)) (hrank : ∀ i, (family i).rank = e.rank) :
    Shows (fun i => (family i).render .standard)
      fun i => (plug frames (family i)).render .standard := by
  induction frames with
  | nil => exact Shows.refl _
  | cons frame frames ih =>
    rw [plug_cons] at h
    -- The outer step sees the inner ones only as an expression of some rank.
    have hframe : ∀ i, (plug frames (family i)).rank = (plug frames e).rank :=
      fun i => rank_plug frames (hrank i)
    exact (ih (Frame.inner h)).trans (Frame.shows h hframe)

end Frames

end Expr
end FeatureSql.Sql
