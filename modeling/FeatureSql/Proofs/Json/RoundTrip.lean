import FeatureSql.Proofs.Json.Text

/-! JSON values read back from their compact text, as long as they nest no deeper than texts may
and no key of an object stands twice. -/

set_option autoImplicit false

namespace FeatureSql.Json

open Numeral (isNumeralChar)
open Reader (Breaks breaks_cons bind_of_some bind_of_none orElse_of_none orElse_of_some)

/-- Values whose numbers are all of one kind, with at most so many arrays and objects inside one
another, and with each key of an object only once. -/
inductive NestedOver (P : Number → Prop) : Nat → Json → Prop where
  | null (depth : Nat) : NestedOver P depth .null
  | bool (depth : Nat) (value : Bool) : NestedOver P depth (.bool value)
  | number (depth : Nat) {value : Number} : P value → NestedOver P depth (.number value)
  | str (depth : Nat) (value : String) : NestedOver P depth (.str value)
  | arr {depth : Nat} {items : List Json} : (∀ item ∈ items, NestedOver P depth item) →
      NestedOver P (depth + 1) (.arr items)
  | obj {depth : Nat} {members : List (String × Json)} : (members.map Prod.fst).Nodup →
      (∀ member ∈ members, NestedOver P depth member.2) → NestedOver P (depth + 1) (.obj members)

/-- Values that their text has in full. -/
abbrev IsExactAt : Nat → Json → Prop := NestedOver Number.IsExact

/-- Values whose text is read, if not always as the same numbers. -/
abbrev IsLegibleAt : Nat → Json → Prop := NestedOver Number.IsLegible

theorem NestedOver.int (depth : Nat) {value : Int} (hlow : Int64.minValue.toInt ≤ value)
    (hhigh : value < UInt64.size) : IsExactAt depth (.int value) :=
  .number depth (isExact_int hlow hhigh)

mutual

/-- A value with every number as it is read from its text. -/
def reread : Json → Json
  | .number value => .number value.reread
  | .arr items => .arr (rereadItems items)
  | .obj members => .obj (rereadMembers members)
  | json => json

def rereadItems : List Json → List Json
  | [] => []
  | item :: items => reread item :: rereadItems items

def rereadMembers : List (String × Json) → List (String × Json)
  | [] => []
  | (key, value) :: members => (key, reread value) :: rereadMembers members

end

theorem rereadItems_eq_map (items : List Json) : rereadItems items = items.map reread := by
  induction items with
  | nil => rfl
  | cons item items ih => rw [rereadItems, ih, List.map_cons]

theorem rereadMembers_eq_map (members : List (String × Json)) :
    rereadMembers members = members.map fun member => (member.1, member.2.reread) := by
  induction members with
  | nil => rfl
  | cons member members ih => rw [rereadMembers, ih, List.map_cons]

theorem map_fst_rereadMembers (members : List (String × Json)) :
    (rereadMembers members).map Prod.fst = members.map Prod.fst := by
  rw [rereadMembers_eq_map, List.map_map]
  rfl

namespace NestedOver
variable {P Q : Number → Prop} {depth : Nat} {json part : Json}

theorem mono (h : NestedOver P depth json) (himp : ∀ value, P value → Q value) :
    NestedOver Q depth json := by
  induction h with
  | null depth => exact .null depth
  | bool depth value => exact .bool depth value
  | number depth hvalue => exact .number depth (himp _ hvalue)
  | str depth value => exact .str depth value
  | arr _ ih => exact .arr ih
  | obj hkeys _ ih => exact .obj hkeys ih

theorem reread (h : NestedOver P depth json) (himp : ∀ value, P value → Q value.reread) :
    NestedOver Q depth json.reread := by
  induction h with
  | null depth => exact .null depth
  | bool depth value => exact .bool depth value
  | number depth hvalue => exact .number depth (himp _ hvalue)
  | str depth value => exact .str depth value
  | arr _ ih =>
    rw [Json.reread, rereadItems_eq_map]
    exact .arr (List.forall_mem_map.mpr ih)
  | @obj _ members hkeys _ ih =>
    refine .obj ((map_fst_rereadMembers members).symm ▸ hkeys) ?_
    rw [rereadMembers_eq_map]
    exact List.forall_mem_map.mpr ih

theorem succ (h : NestedOver P depth json) : NestedOver P (depth + 1) json := by
  induction h with
  | null depth => exact .null _
  | bool depth value => exact .bool _ value
  | number depth hvalue => exact .number _ hvalue
  | str depth value => exact .str _ value
  | arr _ ih => exact .arr ih
  | obj hkeys _ ih => exact .obj hkeys ih

theorem get? (h : NestedOver P (depth + 1) json) {key : String} (hpart : json.get? key = some part) :
    NestedOver P depth part := by
  cases h with
  | obj _ hmembers =>
    obtain ⟨first, second, hsplit, _⟩ := List.lookup_eq_some_iff.mp hpart
    exact hmembers (key, part) (by simp [hsplit])
  | _ => exact absurd hpart (by simp [Json.get?])

theorem index? (h : NestedOver P (depth + 1) json) {i : Nat} (hpart : json.index? i = some part) :
    NestedOver P depth part := by
  cases h with
  | arr hitems => exact hitems part (List.mem_of_getElem? hpart)
  | _ => exact absurd hpart (by simp [Json.index?])

end NestedOver

theorem IsExactAt.isLegibleAt {depth : Nat} {json : Json} (h : IsExactAt depth json) :
    IsLegibleAt depth json := h.mono fun _ hvalue => hvalue.isLegible

theorem IsExactAt.reread_eq {depth : Nat} {json : Json} (h : IsExactAt depth json) :
    json.reread = json := by
  induction h with
  | null | bool | str => rfl
  | number _ hvalue => rw [reread, hvalue.reread_eq]
  | arr _ ih => rw [reread, rereadItems_eq_map, List.map_congr_left ih, List.map_id']
  | @obj _ members _ _ ih =>
    have hsame : ∀ member ∈ members, (member.1, member.2.reread) = member :=
      fun member hmember => Prod.ext rfl (ih member hmember)
    rw [reread, rereadMembers_eq_map, List.map_congr_left hsame, List.map_id']

theorem compactItems_eq_map (items : List Json) : compactItems items = items.map compact := by
  induction items with
  | nil => rfl
  | cons item items ih => rw [compactItems, ih, List.map_cons]

def memberText (member : String × Json) : String := stringText member.1 ++ ":" ++ member.2.compact

theorem compactMembers_eq_map (members : List (String × Json)) :
    compactMembers members = members.map memberText := by
  induction members with
  | nil => rfl
  | cons member members ih => rw [compactMembers, ih, List.map_cons, memberText]

theorem chars_arr (items : List Json) (text : List Char) : (Json.arr items).compact.toList ++ text =
    '[' :: ((",".intercalate (items.map compact)).toList ++ ']' :: text) := by
  rw [compact, compactItems_eq_map]
  simp

theorem chars_obj (members : List (String × Json)) (text : List Char) :
    (Json.obj members).compact.toList ++ text =
      '\x7b' :: ((",".intercalate (members.map memberText)).toList ++ '\x7d' :: text) := by
  rw [compact, compactMembers_eq_map]
  simp

theorem chars_member (member : String × Json) (text : List Char) :
    (memberText member).toList ++ text =
      (stringText member.1).toList ++ ':' :: (member.2.compact.toList ++ text) := by
  simp [memberText]

theorem head_number (number : Number) (text : List Char) :
    ∀ c ∈ (number.text.toList ++ text).head?, isNumeralChar c = true := by
  cases hcs : number.text.toList with
  | nil => exact absurd hcs (ne_nil_number number)
  | cons d cs =>
    intro c hc
    obtain rfl : d = c := Option.some.inj hc
    exact isNumeralText_number number d (hcs ▸ List.mem_cons_self)

theorem isSpace_of_numeral {c : Char} (h : isNumeralChar c = true) : isSpace c = false := by
  cases hspace : isSpace c with
  | false => rfl
  | true =>
    simp only [isSpace, Bool.or_eq_true, beq_iff_eq] at hspace
    rcases hspace with ((rfl | rfl) | rfl) | rfl <;> exact absurd h (by decide)

theorem ne_of_numeral {c d : Char} (h : isNumeralChar c = true) (hd : isNumeralChar d = false) :
    c ≠ d := by
  rintro rfl
  rw [h] at hd
  exact absurd hd (by decide)

/-- What starts the text of a value is no blank, and ends no list. -/
theorem compact_start (json : Json) : ∃ c cs, json.compact.toList = c :: cs ∧ isSpace c = false ∧
    c ≠ ']' := by
  cases json with
  | null => exact ⟨'n', _, rfl, rfl, by decide⟩
  | bool value =>
    cases value with
    | true => exact ⟨'t', _, rfl, rfl, by decide⟩
    | false => exact ⟨'f', _, rfl, rfl, by decide⟩
  | number value =>
    cases hcs : value.text.toList with
    | nil => exact absurd hcs (ne_nil_number value)
    | cons c cs =>
      have hc := isNumeralText_number value c (hcs ▸ List.mem_cons_self)
      exact ⟨c, cs, hcs, isSpace_of_numeral hc, ne_of_numeral hc rfl⟩
  | str value => exact ⟨'\x22', _, String.toList_ofList, rfl, by decide⟩
  | arr items =>
    have hchars := chars_arr items []
    rw [List.append_nil] at hchars
    exact ⟨'[', _, hchars, rfl, by decide⟩
  | obj members =>
    have hchars := chars_obj members []
    rw [List.append_nil] at hchars
    exact ⟨'\x7b', _, hchars, rfl, by decide⟩

section Token
variable {α : Type} {reader : Reader α} {text : List Char}

theorem token_of_breaks (h : Breaks isSpace text) : token reader text = reader text := by
  simp only [token, Reader.after, Reader.dropWhile_of_breaks h]

theorem punctuation_self (c : Char) (hc : isSpace c = false) :
    punctuation c (c :: text) = some ((), text) := by
  rw [punctuation, token_of_breaks (breaks_cons.mpr hc), Numeral.char_self]

theorem token_compact (json : Json) :
    token reader (json.compact.toList ++ text) = reader (json.compact.toList ++ text) := by
  obtain ⟨c, cs, hcs, hc, _⟩ := compact_start json
  apply token_of_breaks
  rw [hcs]
  exact breaks_cons.mpr hc

theorem token_member (member : String × Json) :
    token reader ((memberText member).toList ++ text) =
      reader ((stringText member.1).toList ++ ':' :: (member.2.compact.toList ++ text)) := by
  rw [chars_member]
  apply token_of_breaks
  rw [stringText, String.toList_ofList]
  exact breaks_cons.mpr rfl

end Token

section Scalar
variable {text : List Char}

theorem scalar_str (value : String) :
    scalar ((stringText value).toList ++ text) = some (.str value, text) := by
  have hread : (Json.str <$> stringReader) ((stringText value).toList ++ text) =
      some (.str value, text) := by
    rw [Reader.map_apply, stringReader_append, Option.map_some]
  rw [stringText, String.toList_ofList] at hread ⊢
  exact (orElse_of_none rfl).trans ((orElse_of_none rfl).trans ((orElse_of_none rfl).trans
    (orElse_of_some hread)))

variable (h : ∀ c ∈ text.head?, isNumeralChar c = true)
include h

theorem char_of_numeral {c : Char} (hc : isNumeralChar c = false) : Reader.char c text = none := by
  cases text with
  | nil => rfl
  | cons d text => exact Numeral.char_of_ne (ne_of_numeral (h d rfl) hc) text

theorem word_of_numeral {chars : String} {c : Char} {cs : List Char} (hchars : chars.toList = c :: cs)
    (hc : isNumeralChar c = false) : word chars text = none := by
  rw [word, hchars]
  exact bind_of_none (char_of_numeral h hc)

theorem scalar_of_numeral : scalar text = (Json.number <$> numberReader) text := by
  have hstring : (Json.str <$> stringReader) text = none := by
    rw [Reader.map_apply, stringReader, bind_of_none (char_of_numeral h rfl), Option.map_none]
  rw [scalar, orElse_of_none (bind_of_none (word_of_numeral h rfl rfl)),
    orElse_of_none (bind_of_none (word_of_numeral h rfl rfl)),
    orElse_of_none (bind_of_none (word_of_numeral h rfl rfl)), orElse_of_none hstring]

end Scalar

theorem scalar_number {value read : Number} (h : value.ReadsAs read) {text : List Char}
    (ht : Breaks Numeral.mayContinue text) :
    scalar (value.text.toList ++ text) = some (.number read, text) := by
  rw [scalar_of_numeral (head_number value text), Reader.map_apply, numberReader_append h ht,
    Option.map_some]

theorem readerAt_of_scalar {json : Json} {text left : List Char} (depth : Nat)
    (h : scalar text = some (json, left)) : readerAt depth text = some (json, left) := by
  cases depth with
  | zero => exact h
  | succ depth => exact orElse_of_some h

theorem breaks_comma (rest : List Char) :
    Breaks Numeral.mayContinue ((",".toList : List Char) ++ rest) := breaks_cons.mpr rfl

/-- Brackets and the parts between them, where a bracket is no blank and goes on no number. -/
theorem bracketed_append {α β : Type} {part : Reader β} {opening closing : Char} {write : α → String}
    {f : α → β}
    (hopening : isSpace opening = false) (hclosing : isSpace closing = false)
    (hbreaks : Numeral.mayContinue closing = false) (hcomma : closing ≠ ',')
    (as : List α) (hread : ∀ a ∈ as, ∀ rest, Breaks Numeral.mayContinue rest →
      token part ((write a).toList ++ rest) = some (f a, rest))
    (text : List Char) (hnil : token part (closing :: text) = none) :
    bracketed opening closing part
      (opening :: ((",".intercalate (as.map write)).toList ++ closing :: text)) =
        some (as.map f, text) := by
  have hstop : punctuation ',' (closing :: text) = none := by
    rw [punctuation, token_of_breaks (breaks_cons.mpr hclosing)]
    exact Numeral.char_of_ne hcomma text
  have hparts : (Reader.separated (punctuation ',') (token part) <|> pure [] : Reader (List β))
      ((",".intercalate (as.map write)).toList ++ closing :: text) =
        some (as.map f, closing :: text) := by
    by_cases has : as = []
    · subst has
      exact orElse_of_none (Reader.separated_of_none hnil)
    · apply orElse_of_some
      refine Reader.separated_intercalate has (by decide) breaks_comma [] hread ?_
        (breaks_cons.mpr hbreaks) hstop
      intro a ha rest hrest
      exact (bind_of_some (punctuation_self ',' rfl)).trans (hread a ha rest hrest)
  rw [bracketed, bind_of_some (punctuation_self opening hopening), bind_of_some hparts,
    bind_of_some (punctuation_self closing hclosing)]
  rfl

theorem scalar_bracket (text : List Char) : scalar ('[' :: text) = none := rfl

theorem scalar_brace (text : List Char) : scalar ('\x7b' :: text) = none := rfl

theorem readerAt_bracket (depth : Nat) (text : List Char) :
    token (readerAt depth) (']' :: text) = none := by
  cases depth <;> rfl

theorem member_brace (inner : Reader Json) (text : List Char) :
    token (memberReader inner) ('\x7d' :: text) = none := rfl

theorem member_append {depth : Nat} {member : String × Json} {read : Json} {rest : List Char}
    (hread : readerAt depth (member.2.compact.toList ++ rest) = some (read, rest)) :
    token (memberReader (readerAt depth)) ((memberText member).toList ++ rest) =
      some ((member.1, read), rest) := by
  rw [token_member, memberReader, bind_of_some (stringReader_append member.1 _),
    bind_of_some (punctuation_self ':' rfl), bind_of_some ((token_compact _).trans hread)]
  rfl

/-- The text of a legible value is read up to its end. -/
theorem readerAt_compact {depth : Nat} {json : Json} (h : IsLegibleAt depth json) {text : List Char}
    (ht : Breaks Numeral.mayContinue text) :
    readerAt depth (json.compact.toList ++ text) = some (json.reread, text) := by
  induction h generalizing text with
  | null depth => exact readerAt_of_scalar depth rfl
  | bool depth value => cases value <;> exact readerAt_of_scalar depth rfl
  | number depth hvalue => exact readerAt_of_scalar depth (scalar_number hvalue.readsAs ht)
  | str depth value => exact readerAt_of_scalar depth (scalar_str value)
  | @arr depth items _ ih =>
    have hread := @bracketed_append _ _ _ '[' ']' _ reread rfl rfl rfl (by decide) items
      (fun item hitem rest hrest => (token_compact item).trans (ih item hitem hrest)) text
      (readerAt_bracket depth text)
    rw [chars_arr, reread, rereadItems_eq_map]
    refine (orElse_of_none (scalar_bracket _)).trans (orElse_of_some ?_)
    rw [Reader.map_apply, hread]
    rfl
  | @obj depth members _ _ ih =>
    have hread := @bracketed_append _ _ _ '\x7b' '\x7d' _
      (fun member : String × Json => (member.1, member.2.reread)) rfl rfl rfl (by decide) members
      (fun member hmember rest hrest => member_append (ih member hmember hrest)) text
      (member_brace _ text)
    rw [chars_obj, reread, rereadMembers_eq_map]
    refine (orElse_of_none (scalar_brace _)).trans ((orElse_of_none ?_).trans ?_)
    · rfl
    · rw [Reader.map_apply, hread]
      rfl

theorem lookup_of_not_mem {members : List (String × Json)} {key : String}
    (h : key ∉ members.map Prod.fst) : members.lookup key = none := by
  induction members with
  | nil => rfl
  | cons member members ih =>
    rw [List.map_cons, List.mem_cons, not_or] at h
    have hkey : (key == member.1) = false := by simpa using h.1
    rw [List.lookup_cons, hkey]
    exact ih h.2

theorem settleItems_eq_map (items : List Json) : settleItems items = items.map settle := by
  induction items with
  | nil => rfl
  | cons item items ih => rw [settleItems, ih, List.map_cons]

/-- No key stands twice in what is settled, and without such a key only values are settled. -/
theorem nodup_settleMembers (members : List (String × Json)) :
    ((settleMembers members).map Prod.fst).Nodup := by
  induction members with
  | nil => exact List.nodup_nil
  | cons member members ih =>
    rw [settleMembers, List.map_cons, List.nodup_cons]
    refine ⟨fun hmem => ?_, ih.sublist (List.filter_sublist.map Prod.fst)⟩
    obtain ⟨m, hm, hkey⟩ := List.mem_map.mp hmem
    simp [hkey] at hm

theorem settleMembers_of_nodup {members : List (String × Json)}
    (hkeys : (members.map Prod.fst).Nodup) :
    settleMembers members = members.map fun member => (member.1, member.2.settle) := by
  induction members with
  | nil => rfl
  | cons member members ih =>
    rw [List.map_cons, List.nodup_cons] at hkeys
    have ih := ih hkeys.2
    have hfresh : member.1 ∉ (settleMembers members).map Prod.fst := by
      rw [ih, List.map_map]
      exact hkeys.1
    have hfilter : (settleMembers members).filter (fun m => m.1 != member.1) =
        settleMembers members := by
      rw [List.filter_eq_self]
      intro m hm
      have hne : m.1 ≠ member.1 := fun heq => hfresh (heq ▸ List.mem_map_of_mem hm)
      simpa using hne
    rw [settleMembers, lookup_of_not_mem hfresh, Option.getD_none, hfilter, ih, List.map_cons]

theorem NestedOver.settle_eq {P : Number → Prop} {depth : Nat} {json : Json}
    (h : NestedOver P depth json) : json.settle = json := by
  induction h with
  | null | bool | number | str => rfl
  | arr _ ih => rw [settle, settleItems_eq_map, List.map_congr_left ih, List.map_id']
  | @obj _ members hkeys _ ih =>
    have hsame : ∀ member ∈ members, (member.1, member.2.settle) = member :=
      fun member hmember => Prod.ext rfl (ih member hmember)
    rw [settle, settleMembers_of_nodup hkeys, List.map_congr_left hsame, List.map_id']

section Whole
variable {json : Json}

theorem ofText?_compact_reread (h : IsLegibleAt maxDepth json) :
    ofText? json.compact = some json.reread := by
  have hread := readerAt_compact h (Breaks.nil Numeral.mayContinue)
  have hend : token Reader.atEnd [] = some ((), []) := rfl
  rw [ofText?, ofTextAt?, Reader.value?, ← List.append_nil json.compact.toList,
    bind_of_some ((token_compact json).trans hread), bind_of_some hend]
  rfl

theorem parse?_compact_reread (h : IsLegibleAt maxDepth json) :
    parse? json.compact = some json.reread := by
  have hsettle := (h.reread (Q := fun _ => True) fun _ _ => trivial).settle_eq
  rw [parse?, ofText?_compact_reread h, Option.map_some, hsettle]

theorem ofText?_compact (h : IsExactAt maxDepth json) : ofText? json.compact = some json := by
  rw [ofText?_compact_reread h.isLegibleAt, h.reread_eq]

theorem parse?_compact (h : IsExactAt maxDepth json) : parse? json.compact = some json := by
  rw [parse?_compact_reread h.isLegibleAt, h.reread_eq]

end Whole
end FeatureSql.Json
