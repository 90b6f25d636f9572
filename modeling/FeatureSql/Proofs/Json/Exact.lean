import FeatureSql.Proofs.Json.RoundTrip
import Mathlib.Data.List.Forall2

/-! A value that is read from its own compact text is one that the text has in full. A text can be
left before its end only inside a number, and then no comma and no bracket comes next. -/

set_option autoImplicit false

namespace FeatureSql.Json

open Numeral (isNumeralChar)
open Reader (Breaks breaks_cons bind_of_some bind_of_none orElse_of_none orElse_of_some markedTail)

/-- What follows a value inside brackets, or at the end of a text. -/
def Stops (rest : List Char) : Prop := ∀ c ∈ rest.head?, c = ',' ∨ c = ']' ∨ c = '\x7d'

/-- Only characters of numbers can be left over from a text that is read. -/
def Reaches {α : Type} (P : α → Prop) (reader : Reader α) (text rest : List Char) : Prop :=
  ∀ a left, reader (text ++ rest) = some (a, left) →
    ∃ excess, left = excess ++ rest ∧ (∀ c ∈ excess, isNumeralChar c = true) ∧ (excess = [] → P a)

section Reaches
variable {α : Type} {P : α → Prop} {reader : Reader α} {text rest : List Char}

theorem Reaches.of_eq {a : α} (h : reader (text ++ rest) = some (a, rest)) (hP : P a) :
    Reaches P reader text rest := by
  intro b left hb
  rw [h, Option.some.injEq] at hb
  cases hb
  exact ⟨[], rfl, by simp, fun _ => hP⟩

theorem Reaches.of_none (h : reader (text ++ rest) = none) : Reaches P reader text rest := by
  intro b left hb
  rw [h] at hb
  cases hb

theorem Reaches.weaken {Q : α → Prop} (h : Reaches P reader text rest) (himp : ∀ a, P a → Q a) :
    Reaches Q reader text rest := by
  intro a left hread
  obtain ⟨excess, hleft, hexcess, hP⟩ := h a left hread
  exact ⟨excess, hleft, hexcess, fun hnil => himp a (hP hnil)⟩

end Reaches

theorem append_eq_of_stops {taken left text rest : List Char}
    (htaken : ∀ c ∈ taken, isNumeralChar c = true) (hrest : Stops rest)
    (h : text ++ rest = taken ++ left) :
    ∃ excess, text = taken ++ excess ∧ left = excess ++ rest := by
  rcases List.append_eq_append_iff.mp h with ⟨excess, rfl, rfl⟩ | ⟨excess, rfl, rfl⟩
  · cases excess with
    | nil => exact ⟨[], by simp, by simp⟩
    | cons c excess =>
      have hc := htaken c (by simp)
      rcases hrest c rfl with rfl | rfl | rfl <;> exact absurd hc (by decide)
  · exact ⟨excess, rfl, rfl⟩

/-- What starts like a number is read as one, at any depth. -/
theorem readerAt_of_numeral (depth : Nat) {c : Char} (hc : isNumeralChar c = true)
    (text : List Char) : readerAt depth (c :: text) = (Json.number <$> numberReader) (c :: text) := by
  have hscalar : scalar (c :: text) = (Json.number <$> numberReader) (c :: text) :=
    scalar_of_numeral fun d hd => Option.some.inj hd ▸ hc
  cases depth with
  | zero => exact hscalar
  | succ depth =>
    have hbracket : ∀ {α : Type} (opening closing : Char) (part : Reader α),
        isNumeralChar opening = false → bracketed opening closing part (c :: text) = none := by
      intro α opening closing part hopening
      apply bind_of_none
      rw [punctuation, token_of_breaks (breaks_cons.mpr (isSpace_of_numeral hc))]
      exact Numeral.char_of_ne (ne_of_numeral hc hopening) _
    have hnested : nested (readerAt depth) (c :: text) = none := by
      rw [nested, Reader.orElse_apply, Reader.map_apply, Reader.map_apply, hbracket _ _ _ rfl,
        hbracket _ _ _ rfl]
      rfl
    rw [readerAt, Reader.orElse_apply, hscalar, hnested, Option.or_none]

theorem readerAt_number (depth : Nat) (value : Number) (text : List Char) :
    readerAt depth (value.text.toList ++ text) =
      (Json.number <$> numberReader) (value.text.toList ++ text) := by
  obtain ⟨c, cs, hcs⟩ := List.exists_cons_of_ne_nil (ne_nil_number value)
  have hc := isNumeralText_number value c (hcs ▸ List.mem_cons_self)
  rw [hcs, List.cons_append]
  exact readerAt_of_numeral depth hc _

theorem reaches_number (depth : Nat) (value : Number) {rest : List Char} (hrest : Stops rest) :
    Reaches (fun read => read.settle = .number value → IsExactAt depth (.number value))
      (readerAt depth) value.text.toList rest := by
  intro json left h
  rw [readerAt_number, Reader.map_apply, Option.map_eq_some_iff] at h
  obtain ⟨⟨number, left⟩, h, hjson⟩ := h
  cases hjson
  obtain ⟨_, htaken, n, hn, hwhole, rfl, hvalue⟩ := numberReader_takes _ _ _ h
  have hchars := List.all_eq_true.mp (Numeral.all_chars hn)
  obtain ⟨excess, hexcess, rfl⟩ := append_eq_of_stops hchars hrest htaken
  refine ⟨excess, rfl, fun c hc => isNumeralText_number value c (by simp [hexcess, hc]), ?_⟩
  intro hnil hsettle
  rw [hnil, List.append_nil] at hexcess
  obtain rfl : number = value := Json.number.inj hsettle
  exact .number depth ⟨n, hn, hwhole, hexcess.symm, hvalue⟩

/-- What no closing bracket can stand in front of. -/
def Jams (left : List Char) : Prop :=
  ∃ c more, left = c :: more ∧ (c = ',' ∨ isNumeralChar c = true)

theorem Jams.punctuation {left : List Char} (h : Jams left) {closing : Char}
    (hc : closing = ']' ∨ closing = '\x7d') : punctuation closing left = none := by
  obtain ⟨c, more, rfl, hcomma | hnumeral⟩ := h
  · subst hcomma
    rcases hc with rfl | rfl <;> rfl
  · rw [Json.punctuation, token_of_breaks (breaks_cons.mpr (isSpace_of_numeral hnumeral))]
    refine Numeral.char_of_ne (ne_of_numeral hnumeral ?_) more
    rcases hc with rfl | rfl <;> rfl

section Brackets
variable {α β : Type} {part : Reader α} {write : β → String} {R : β → α → Prop} {closing : Char}

theorem stops_markedTail (parts : List String) (hc : closing = ']' ∨ closing = '\x7d')
    (text : List Char) : Stops (markedTail "," parts ++ closing :: text) := by
  intro c h
  cases parts with
  | nil =>
    obtain rfl : closing = c := Option.some.inj h
    exact Or.inr hc
  | cons part parts =>
    rw [Reader.markedTail_cons] at h
    exact Or.inl (Option.some.inj h).symm

theorem jams_upTo {c : Char} (h : isNumeralChar c = true) (bound text : List Char) :
    Jams (Reader.upTo bound (do punctuation ','; token part) (c :: text)).2 := by
  have hstop : (do punctuation ','; token part : Reader α) (c :: text) = none := by
    apply bind_of_none
    rw [punctuation, token_of_breaks (breaks_cons.mpr (isSpace_of_numeral h))]
    exact Numeral.char_of_ne (ne_of_numeral h rfl) text
  rw [Reader.upTo_of_none hstop]
  exact ⟨c, text, rfl, Or.inr h⟩

/-- Either all parts are read up to the closing bracket, or no closing bracket comes next. -/
theorem upTo_markedTail (hc : closing = ']' ∨ closing = '\x7d') (text : List Char) (bs : List β)
    (h : ∀ b ∈ bs, ∀ rest, Stops rest → Reaches (R b) (token part) (write b).toList rest)
    {excess : List Char} (hexcess : ∀ c ∈ excess, isNumeralChar c = true) (bound : List Char) :
    (excess = [] ∧ ∃ as, Reader.upTo bound (do punctuation ','; token part)
      (excess ++ (markedTail "," (bs.map write) ++ closing :: text)) = (as, closing :: text) ∧
        List.Forall₂ R bs as) ∨
      Jams (Reader.upTo bound (do punctuation ','; token part)
        (excess ++ (markedTail "," (bs.map write) ++ closing :: text))).2 := by
  induction bs generalizing excess bound with
  | nil =>
    cases excess with
    | cons c excess => exact Or.inr (jams_upTo (hexcess c List.mem_cons_self) bound _)
    | nil =>
      have hstop : (do punctuation ','; token part : Reader α) (closing :: text) = none := by
        apply bind_of_none
        rcases hc with rfl | rfl <;> rfl
      exact Or.inl ⟨rfl, [], Reader.upTo_of_none hstop bound, .nil⟩
  | cons b bs ih =>
    cases excess with
    | cons c excess => exact Or.inr (jams_upTo (hexcess c List.mem_cons_self) bound _)
    | nil =>
      have ih := @ih fun b' hb' => h b' (List.mem_cons_of_mem b hb')
      have hreach := h b List.mem_cons_self _ (stops_markedTail (bs.map write) hc text)
      have htext : markedTail "," ((b :: bs).map write) ++ closing :: text =
          ',' :: ((write b).toList ++ (markedTail "," (bs.map write) ++ closing :: text)) := by
        rw [List.map_cons, Reader.markedTail_cons, List.append_assoc, List.append_assoc]
        rfl
      have hread : (do punctuation ','; token part : Reader α)
          (',' :: ((write b).toList ++ (markedTail "," (bs.map write) ++ closing :: text))) =
            token part ((write b).toList ++ (markedTail "," (bs.map write) ++ closing :: text)) :=
        bind_of_some (punctuation_self ',' rfl)
      rw [List.nil_append, htext]
      cases bound with
      | nil => exact Or.inr ⟨',', _, rfl, Or.inl rfl⟩
      | cons c bound =>
        rw [Reader.upTo, hread]
        cases hpart : token part ((write b).toList ++ (markedTail "," (bs.map write) ++
            closing :: text)) with
        | none => exact Or.inr ⟨',', _, rfl, Or.inl rfl⟩
        | some p =>
          obtain ⟨a, left⟩ := p
          obtain ⟨excess, rfl, hexcess, hR⟩ := hreach a left hpart
          dsimp only
          rcases ih hexcess bound with ⟨rfl, as, has, hall⟩ | hjam
          · exact Or.inl ⟨rfl, a :: as, by rw [has], .cons (hR rfl) hall⟩
          · exact Or.inr hjam

/-- Where a list is read, all of its parts are. -/
theorem forall₂_of_bracketed {opening : Char} (hopening : isSpace opening = false)
    (hc : closing = ']' ∨ closing = '\x7d') {text left : List Char} {bs : List β} {as : List α}
    (hstart : ∀ b ∈ bs, ∀ rest, punctuation closing ((write b).toList ++ rest) = none)
    (hnil : token part (closing :: text) = none)
    (h : ∀ b ∈ bs, ∀ rest, Stops rest → Reaches (R b) (token part) (write b).toList rest)
    (hread : bracketed opening closing part
      (opening :: ((",".intercalate (bs.map write)).toList ++ closing :: text)) = some (as, left)) :
    left = text ∧ List.Forall₂ R bs as := by
  have hclosing : isSpace closing = false := by rcases hc with rfl | rfl <;> rfl
  have hempty : ∀ {text : List Char}, token part text = none →
      (Reader.separated (punctuation ',') (token part) <|> pure [] : Reader (List α)) text =
        some ([], text) := fun h => orElse_of_none (Reader.separated_of_none h)
  rw [bracketed, bind_of_some (punctuation_self opening hopening)] at hread
  cases bs with
  | nil =>
    rw [List.map_nil, String.intercalate_nil, String.toList_empty, List.nil_append,
      bind_of_some (hempty hnil), bind_of_some (punctuation_self closing hclosing)] at hread
    have hread : some (([] : List α), text) = some (as, left) := hread
    rw [Option.some.injEq] at hread
    cases hread
    exact ⟨rfl, .nil⟩
  | cons b bs =>
    rw [List.map_cons, Reader.intercalate_cons, List.append_assoc] at hread
    cases hpart : token part ((write b).toList ++ (markedTail "," (bs.map write) ++
        closing :: text)) with
    | none =>
      rw [bind_of_some (hempty hpart), bind_of_none (hstart b List.mem_cons_self _)] at hread
      cases hread
    | some p =>
      obtain ⟨a, mid⟩ := p
      obtain ⟨excess, hmid, hexcess, hR⟩ := h b List.mem_cons_self _
        (stops_markedTail (bs.map write) hc text) a mid hpart
      have hothers := upTo_markedTail hc text bs (fun b' hb' => h b' (List.mem_cons_of_mem b hb'))
        hexcess mid
      rw [← hmid] at hothers
      obtain ⟨others, rest, hupTo⟩ : ∃ others rest,
          Reader.upTo mid (do punctuation ','; token part) mid = (others, rest) := ⟨_, _, rfl⟩
      have hparts : (Reader.separated (punctuation ',') (token part) <|> pure [] : Reader (List α))
          ((write b).toList ++ (markedTail "," (bs.map write) ++ closing :: text)) =
            some (a :: others, rest) := by
        apply orElse_of_some
        rw [Reader.separated, bind_of_some hpart]
        exact bind_of_some (congrArg some hupTo)
      rw [hupTo] at hothers
      rw [bind_of_some hparts] at hread
      rcases hothers with ⟨rfl, as', has, hall⟩ | hjam
      · cases has
        rw [bind_of_some (punctuation_self closing hclosing)] at hread
        have hread : some (a :: others, text) = some (as, left) := hread
        rw [Option.some.injEq] at hread
        cases hread
        exact ⟨rfl, .cons (hR rfl) hall⟩
      · rw [bind_of_none (hjam.punctuation hc)] at hread
        cases hread

end Brackets

section Pairs
variable {α β γ : Type} {as : List α} {bs : List β}

theorem forall_of_forall₂ {f : α → β} {P : β → Prop}
    (h : List.Forall₂ (fun b a => f a = b → P b) bs as) (hmap : as.map f = bs) : ∀ b ∈ bs, P b := by
  induction h with
  | nil => simp
  | cons hb _ ih =>
    rw [List.map_cons, List.cons.injEq] at hmap
    exact List.forall_mem_cons.mpr ⟨hb hmap.1, ih hmap.2⟩

theorem map_eq_of_forall₂ {f : α → γ} {g : β → γ} (h : List.Forall₂ (fun b a => f a = g b) bs as) :
    as.map f = bs.map g := by
  induction h with
  | nil => rfl
  | cons hb _ ih => rw [List.map_cons, List.map_cons, hb, ih]

end Pairs

section Depth
variable {depth : Nat}

section Parts
variable {R : Json → Json → Prop}

/-- Where a list is read, all of its items are. -/
theorem reaches_arr {items : List Json} (h : ∀ item ∈ items, ∀ rest, Stops rest →
      Reaches (R item) (readerAt depth) item.compact.toList rest) (rest : List Char) :
    Reaches (fun read => ∃ reads, read = .arr reads ∧ List.Forall₂ R items reads)
      (readerAt (depth + 1)) (Json.arr items).compact.toList rest := by
  intro read left hread
  have hclose : ∀ item ∈ items, ∀ rest, punctuation ']' (item.compact.toList ++ rest) = none := by
    intro item _ rest
    obtain ⟨c, cs, hcs, _, hc⟩ := compact_start item
    rw [punctuation, token_compact, hcs]
    exact Numeral.char_of_ne hc _
  have hobj : bracketed '\x7b' '\x7d' (memberReader (readerAt depth))
      ('[' :: ((",".intercalate (items.map compact)).toList ++ ']' :: rest)) = none := rfl
  rw [chars_arr, readerAt, Reader.orElse_apply, scalar_bracket, Option.none_or, nested,
    Reader.orElse_apply, Reader.map_apply, Reader.map_apply, hobj, Option.map_none, Option.or_none,
    Option.map_eq_some_iff] at hread
  obtain ⟨⟨reads, left⟩, hreads, heq⟩ := hread
  cases heq
  obtain ⟨rfl, hall⟩ := forall₂_of_bracketed rfl (Or.inl rfl) hclose (readerAt_bracket depth rest)
    (fun item hitem rest hrest read left hread =>
      h item hitem rest hrest read left ((token_compact item).symm.trans hread)) hreads
  exact ⟨[], rfl, by simp, fun _ => ⟨reads, rfl, hall⟩⟩

theorem reaches_member {member : String × Json} (h : ∀ rest, Stops rest →
      Reaches (R member.2) (readerAt depth) member.2.compact.toList rest) {rest : List Char}
    (hrest : Stops rest) :
    Reaches (fun read : String × Json => read.1 = member.1 ∧ R member.2 read.2)
      (token (memberReader (readerAt depth))) (memberText member).toList rest := by
  intro read left hread
  rw [token_member, memberReader, bind_of_some (stringReader_append member.1 _),
    bind_of_some (punctuation_self ':' rfl), Reader.bind_apply, token_compact,
    Option.bind_eq_some_iff] at hread
  obtain ⟨⟨value, mid⟩, hvalue, hread⟩ := hread
  have hread : some ((member.1, value), mid) = some (read, left) := hread
  rw [Option.some.injEq, Prod.mk.injEq] at hread
  obtain ⟨rfl, rfl⟩ := hread
  obtain ⟨excess, rfl, hexcess, hR⟩ := h rest hrest value mid hvalue
  exact ⟨excess, rfl, hexcess, fun hnil => ⟨rfl, hR hnil⟩⟩

/-- Where an object is read, all of its members are, with their keys. -/
theorem reaches_obj {members : List (String × Json)} (h : ∀ member ∈ members, ∀ rest, Stops rest →
      Reaches (R member.2) (readerAt depth) member.2.compact.toList rest) (rest : List Char) :
    Reaches (fun read => ∃ reads, read = .obj reads ∧
        List.Forall₂ (fun member read => read.1 = member.1 ∧ R member.2 read.2) members reads)
      (readerAt (depth + 1)) (Json.obj members).compact.toList rest := by
  intro read left hread
  have hclose : ∀ member ∈ members, ∀ rest,
      punctuation '\x7d' ((memberText member).toList ++ rest) = none := by
    intro member _ rest
    rw [punctuation, token_member, stringText, String.toList_ofList]
    rfl
  have harr : bracketed '[' ']' (readerAt depth)
      ('\x7b' :: ((",".intercalate (members.map memberText)).toList ++ '\x7d' :: rest)) = none := rfl
  rw [chars_obj, readerAt, Reader.orElse_apply, scalar_brace, Option.none_or, nested,
    Reader.orElse_apply, Reader.map_apply, Reader.map_apply, harr, Option.map_none, Option.none_or,
    Option.map_eq_some_iff] at hread
  obtain ⟨⟨reads, left⟩, hreads, heq⟩ := hread
  cases heq
  obtain ⟨rfl, hall⟩ := forall₂_of_bracketed rfl (Or.inr rfl) hclose (member_brace _ rest)
    (fun member hmember rest hrest => reaches_member (h member hmember) hrest) hreads
  exact ⟨[], rfl, by simp, fun _ => ⟨reads, rfl, hall⟩⟩

end Parts

/-- A value that is read from the text of another one is that value only if the text has it in
full. -/
def ReachesAt (depth : Nat) (json : Json) : Prop := ∀ rest, Stops rest →
  Reaches (fun read => read.settle = json → IsExactAt depth json) (readerAt depth)
    json.compact.toList rest

theorem reachesAt_arr {items : List Json} (h : ∀ item ∈ items, ReachesAt depth item) :
    ReachesAt (depth + 1) (.arr items) := by
  intro rest _
  apply (reaches_arr h rest).weaken
  rintro _ ⟨reads, rfl, hall⟩ hsettle
  refine .arr (forall_of_forall₂ hall ?_)
  rw [← settleItems_eq_map]
  exact Json.arr.inj hsettle

theorem reachesAt_obj {members : List (String × Json)}
    (h : ∀ member ∈ members, ReachesAt depth member.2) : ReachesAt (depth + 1) (.obj members) := by
  intro rest _
  have hreach := reaches_obj (R := fun part read => read.settle = part → IsExactAt depth part) h rest
  apply hreach.weaken
  rintro _ ⟨reads, rfl, hall⟩ hsettle
  have hsettle : settleMembers reads = members := Json.obj.inj hsettle
  have hkeys : (members.map Prod.fst).Nodup := hsettle ▸ nodup_settleMembers reads
  have hsame : reads.map Prod.fst = members.map Prod.fst :=
    map_eq_of_forall₂ (hall.imp fun _ _ h => h.1)
  rw [settleMembers_of_nodup (hsame ▸ hkeys)] at hsettle
  refine .obj hkeys (forall_of_forall₂ (hall.imp fun member read h heq => ?_) hsettle)
  exact h.2 (congrArg Prod.snd heq)

theorem reachesAt : ∀ (depth : Nat) (json : Json), ReachesAt depth json
  | depth, .null => fun _ _ => .of_eq (readerAt_of_scalar depth rfl) fun _ => .null depth
  | depth, .bool true => fun _ _ => .of_eq (readerAt_of_scalar depth rfl) fun _ => .bool depth true
  | depth, .bool false => fun _ _ => .of_eq (readerAt_of_scalar depth rfl) fun _ => .bool depth false
  | depth, .number value => fun _ hrest => reaches_number depth value hrest
  | depth, .str value => fun _ _ =>
    .of_eq (readerAt_of_scalar depth (scalar_str value)) fun _ => .str depth value
  | 0, .arr _ => fun _ _ => .of_none (by rw [chars_arr]; rfl)
  | 0, .obj _ => fun _ _ => .of_none (by rw [chars_obj]; rfl)
  | depth + 1, .arr _ => reachesAt_arr fun item _ => reachesAt depth item
  | depth + 1, .obj _ => reachesAt_obj fun member _ => reachesAt depth member.2

end Depth

theorem eq_nil_of_atEnd {excess : List Char} (h : ∀ c ∈ excess, isNumeralChar c = true)
    {p : Unit × List Char} (hread : token Reader.atEnd excess = some p) : excess = [] := by
  cases excess with
  | nil => rfl
  | cons c excess =>
    have hspace := isSpace_of_numeral (h c List.mem_cons_self)
    rw [token_of_breaks (breaks_cons.mpr hspace)] at hread
    exact absurd hread (by simp [Reader.atEnd])

/-- What is read of a whole text is read up to its end. -/
theorem Reaches.of_ofText? {P : Json → Prop} {json read : Json}
    (h : Reaches P (readerAt maxDepth) json.compact.toList [])
    (hread : ofText? json.compact = some read) : P read := by
  obtain ⟨⟨_, last⟩, hchars, rfl⟩ := Option.map_eq_some_iff.mp hread
  rw [Reader.bind_apply, Option.bind_eq_some_iff] at hchars
  obtain ⟨⟨read, left⟩, hpart, hchars⟩ := hchars
  rw [Reader.bind_apply, Option.bind_eq_some_iff] at hchars
  obtain ⟨p, hend, hchars⟩ := hchars
  have hchars : some (read, p.2) = some (_, last) := hchars
  rw [Option.some.injEq, Prod.mk.injEq] at hchars
  obtain ⟨rfl, rfl⟩ := hchars
  rw [← List.append_nil json.compact.toList, token_compact] at hpart
  obtain ⟨excess, rfl, hexcess, hP⟩ := h read left hpart
  rw [List.append_nil] at hend
  exact hP (eq_nil_of_atEnd hexcess hend)

/-- Exactly the values that their compact text has in full read back from it. -/
theorem parse?_compact_iff {json : Json} :
    parse? json.compact = some json ↔ IsExactAt maxDepth json := by
  refine ⟨fun h => ?_, parse?_compact⟩
  obtain ⟨read, hread, hsettle⟩ := Option.map_eq_some_iff.mp h
  have hstops : Stops [] := by simp [Stops]
  exact (reachesAt maxDepth json [] hstops).of_ofText? hread hsettle

end FeatureSql.Json
