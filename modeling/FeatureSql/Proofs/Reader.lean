import FeatureSql.Text.Reader

/-! How readers run. Repetition is described by the single readings it is made of, and what a
reader can yield is followed through the combinators. -/

set_option autoImplicit false

namespace FeatureSql.Reader
variable {α β : Type}

theorem bind_apply (reader : Reader α) (next : α → Reader β) (text : List Char) :
    (reader >>= next) text = (reader text).bind fun p => next p.1 p.2 := rfl

theorem pure_apply (a : α) (text : List Char) : (pure a : Reader α) text = some (a, text) := rfl

theorem failure_apply (text : List Char) : (failure : Reader α) text = none := rfl

theorem orElse_apply (first second : Reader α) (text : List Char) :
    (first <|> second) text = (first text).or (second text) := by
  change (first text <|> second text) = _
  cases first text <;> rfl

theorem map_apply (f : α → β) (reader : Reader α) (text : List Char) :
    (f <$> reader) text = (reader text).map fun p => (f p.1, p.2) := by
  cases h : reader text <;> simp [Functor.map, StateT.map, h]

theorem orElse_of_none {first second : Reader α} {text : List Char} (h : first text = none) :
    (first <|> second) text = second text := by
  simp [orElse_apply, h]

theorem orElse_of_some {first second : Reader α} {text : List Char} {p : α × List Char}
    (h : first text = some p) : (first <|> second) text = some p := by
  simp [orElse_apply, h]

theorem bind_of_none {reader : Reader α} {next : α → Reader β} {text : List Char}
    (h : reader text = none) : (reader >>= next) text = none := by
  simp [bind_apply, h]

theorem bind_of_some {reader : Reader α} {next : α → Reader β} {text left : List Char} {a : α}
    (h : reader text = some (a, left)) : (reader >>= next) text = next a left := by
  simp [bind_apply, h]

theorem optional_of_none {reader : Reader α} {text : List Char} (h : reader text = none) :
    optional reader text = some (none, text) := by
  have hm : (some <$> reader) text = none := by simp [map_apply, h]
  exact orElse_of_none hm

theorem optional_of_some {reader : Reader α} {text left : List Char} {a : α}
    (h : reader text = some (a, left)) : optional reader text = some (some a, left) := by
  have hm : (some <$> reader) text = some (some a, left) := by simp [map_apply, h]
  exact orElse_of_some hm

/-- The text does not go on with a character of the class. -/
def Breaks (p : Char → Bool) (text : List Char) : Prop := ∀ c ∈ text.head?, p c = false

theorem Breaks.nil (p : Char → Bool) : Breaks p [] := by simp [Breaks]

theorem breaks_cons {p : Char → Bool} {c : Char} {text : List Char} :
    Breaks p (c :: text) ↔ p c = false := by simp [Breaks]

theorem Breaks.mono {p q : Char → Bool} {text : List Char} (h : Breaks p text)
    (hpq : ∀ c, q c = true → p c = true) : Breaks q text := by
  intro c hc
  have hp := h c hc
  cases hq : q c with
  | false => rfl
  | true => simp [hpq c hq] at hp

theorem takeWhile_of_breaks {p : Char → Bool} {text : List Char} (h : Breaks p text) :
    text.takeWhile p = [] := by
  cases text with
  | nil => rfl
  | cons c text => simp [breaks_cons.mp h]

theorem dropWhile_of_breaks {p : Char → Bool} {text : List Char} (h : Breaks p text) :
    text.dropWhile p = text := by
  cases text with
  | nil => rfl
  | cons c text => simp [breaks_cons.mp h]

/-- A run that does not go on behind the first part is a run of that part. -/
theorem takeWhile_append {p : Char → Bool} {cs text : List Char} (h : Breaks p text) :
    (cs ++ text).takeWhile p = cs.takeWhile p := by
  induction cs with
  | nil => exact takeWhile_of_breaks h
  | cons c cs ih => simp only [List.cons_append, List.takeWhile_cons, ih]

theorem dropWhile_append {p : Char → Bool} {cs text : List Char} (h : Breaks p text) :
    (cs ++ text).dropWhile p = cs.dropWhile p ++ text := by
  induction cs with
  | nil => exact dropWhile_of_breaks h
  | cons c cs ih =>
    cases hc : p c with
    | false => simp [hc]
    | true => simp only [List.cons_append, List.dropWhile_cons, hc, if_true, ih]

theorem takeWhile_append_of_breaks {p : Char → Bool} {cs text : List Char}
    (hcs : ∀ c ∈ cs, p c = true) (h : Breaks p text) : (cs ++ text).takeWhile p = cs := by
  rw [List.takeWhile_append_of_pos hcs, takeWhile_of_breaks h, List.append_nil]

theorem dropWhile_append_of_breaks {p : Char → Bool} {cs text : List Char}
    (hcs : ∀ c ∈ cs, p c = true) (h : Breaks p text) : (cs ++ text).dropWhile p = text := by
  rw [List.dropWhile_append_of_pos hcs, dropWhile_of_breaks h]

theorem run_append {p : Char → Bool} {cs text : List Char} (hcs : ∀ c ∈ cs, p c = true)
    (h : Breaks p text) : run p (cs ++ text) = some (cs, text) := by
  rw [run, takeWhile_append_of_breaks hcs h, dropWhile_append_of_breaks hcs h]

theorem run1_append {p : Char → Bool} {cs text : List Char} (hcs : ∀ c ∈ cs, p c = true)
    (hne : cs ≠ []) (h : Breaks p text) : run1 p (cs ++ text) = some (cs, text) := by
  rw [run1, bind_of_some (run_append hcs h), if_neg (by simpa using hne), pure_apply]

theorem run1_of_breaks {p : Char → Bool} {text : List Char} (h : Breaks p text) :
    run1 p text = none := by
  have hr : run p text = some ([], text) := by
    rw [run, takeWhile_of_breaks h, dropWhile_of_breaks h]
  rw [run1, bind_of_some hr]
  rfl

/-- Single readings one after the other, each of which takes something. -/
inductive Steps (reader : Reader α) : List Char → List α → List Char → Prop where
  | nil (text : List Char) : Steps reader text [] text
  | cons {text mid left : List Char} {a : α} {as : List α} :
    reader text = some (a, mid) → mid.length < text.length → Steps reader mid as left →
      Steps reader text (a :: as) left

namespace Steps
variable {reader : Reader α} {text mid left : List Char} {as bs : List α}

theorem single {a : α} (h : reader text = some (a, left)) (hlt : left.length < text.length) :
    Steps reader text [a] left := .cons h hlt (.nil left)

theorem append (h : Steps reader text as mid) (hm : Steps reader mid bs left) :
    Steps reader text (as ++ bs) left := by
  induction h with
  | nil => exact hm
  | cons ha hlt _ ih => exact .cons ha hlt (ih hm)

theorem upTo_eq (h : Steps reader text as left) (stop : reader left = none) (bound : List Char)
    (hb : text.length ≤ bound.length) : upTo bound reader text = (as, left) := by
  induction h generalizing bound with
  | nil text =>
    cases bound with
    | nil => rfl
    | cons c bound => simp [upTo, stop]
  | cons ha hlt _ ih =>
    cases bound with
    | nil => simp at hb; simp [hb] at hlt
    | cons c bound =>
      have hrest := ih stop bound (by simp at hb; omega)
      simp [upTo, ha, hrest]

theorem many_eq (h : Steps reader text as left) (stop : reader left = none) :
    many reader text = some (as, left) := by
  rw [many, h.upTo_eq stop text (Nat.le_refl _)]

end Steps

theorem upTo_of_none {reader : Reader α} {text : List Char} (h : reader text = none)
    (bound : List Char) : upTo bound reader text = ([], text) := by
  cases bound with
  | nil => rfl
  | cons c bound => rw [upTo, h]

theorem many_of_none {reader : Reader α} {text : List Char} (h : reader text = none) :
    many reader text = some ([], text) := (Steps.nil text).many_eq h

theorem separated_of_steps {separator : Reader Unit} {reader : Reader α} {text mid left : List Char}
    {a : α} {as : List α} (first : reader text = some (a, mid))
    (others : Steps (do separator; reader) mid as left)
    (stop : (do separator; reader : Reader α) left = none) :
    separated separator reader text = some (a :: as, left) := by
  rw [separated, bind_of_some first, bind_of_some (others.many_eq stop), pure_apply]

theorem separated_of_none {separator : Reader Unit} {reader : Reader α} {text : List Char}
    (h : reader text = none) : separated separator reader text = none := by
  rw [separated, bind_of_none h]

/-- The parts of a list behind its first one, each with the mark in front of it. -/
def markedTail (mark : String) (parts : List String) : List Char :=
  parts.flatMap fun part => mark.toList ++ part.toList

theorem markedTail_cons (mark part : String) (parts : List String) :
    markedTail mark (part :: parts) = mark.toList ++ (part.toList ++ markedTail mark parts) := by
  simp [markedTail]

theorem intercalate_cons (mark part : String) (parts : List String) :
    (mark.intercalate (part :: parts)).toList = part.toList ++ markedTail mark parts := by
  induction parts generalizing part with
  | nil => simp [markedTail]
  | cons next parts ih =>
    rw [String.intercalate_cons_cons, String.toList_append, String.toList_append, ih next,
      markedTail_cons, List.append_assoc]

section Marked
variable {separator : Reader Unit} {reader : Reader α} {mark : String} {write : β → String}
variable {value : β → α} {follows : List Char → Prop} {text : List Char}

theorem follows_markedTail (hmark : ∀ rest, follows (mark.toList ++ rest)) (bs : List β)
    (ht : follows text) : follows (markedTail mark (bs.map write) ++ text) := by
  cases bs with
  | nil => exact ht
  | cons b bs =>
    rw [List.map_cons, markedTail_cons, List.append_assoc]
    exact hmark _

theorem steps_markedTail (hne : mark.toList ≠ []) (hmark : ∀ rest, follows (mark.toList ++ rest))
    (bs : List β) (hnext : ∀ b ∈ bs, ∀ rest, follows rest →
      (do separator; reader : Reader α) (mark.toList ++ ((write b).toList ++ rest)) =
        some (value b, rest)) (ht : follows text) :
    Steps (do separator; reader) (markedTail mark (bs.map write) ++ text) (bs.map value) text := by
  induction bs with
  | nil => exact .nil text
  | cons b bs ih =>
    have ih := ih fun b' hb' => hnext b' (List.mem_cons_of_mem b hb')
    have hfollows : follows (markedTail mark (bs.map write) ++ text) := follows_markedTail hmark bs ht
    have hread := hnext b List.mem_cons_self _ hfollows
    have hpos := List.length_pos_iff.mpr hne
    rw [List.map_cons, List.map_cons, markedTail_cons, List.append_assoc, List.append_assoc]
    refine .cons hread ?_ ih
    simp only [List.length_append]
    omega

/-- What stands in front of the first part is up to its own reading. -/
theorem separated_intercalate {bs : List β} (hbs : bs ≠ []) (hne : mark.toList ≠ [])
    (hmark : ∀ rest, follows (mark.toList ++ rest)) (lead : List Char)
    (hfirst : ∀ b ∈ bs, ∀ rest, follows rest →
      reader (lead ++ ((write b).toList ++ rest)) = some (value b, rest))
    (hnext : ∀ b ∈ bs, ∀ rest, follows rest →
      (do separator; reader : Reader α) (mark.toList ++ ((write b).toList ++ rest)) =
        some (value b, rest))
    (ht : follows text) (hstop : separator text = none) :
    separated separator reader (lead ++ ((mark.intercalate (bs.map write)).toList ++ text)) =
      some (bs.map value, text) := by
  cases bs with
  | nil => exact absurd rfl hbs
  | cons b bs =>
    have hrest := steps_markedTail hne hmark bs
      (fun b' hb' => hnext b' (List.mem_cons_of_mem b hb')) ht
    have hfollows : follows (markedTail mark (bs.map write) ++ text) := follows_markedTail hmark bs ht
    have hread := hfirst b List.mem_cons_self _ hfollows
    rw [List.map_cons, intercalate_cons, List.append_assoc, List.map_cons]
    exact separated_of_steps hread hrest (bind_of_none hstop)

end Marked

/-- One operator with its right operand. -/
def link (operand : Reader α) (operator : Reader β) : Reader (β × α) := do
  let b ← operator
  let a ← operand
  pure (b, a)

theorem link_of_some {operand : Reader α} {operator : Reader β} {text mid left : List Char} {a : α}
    {b : β} (hb : operator text = some (b, mid)) (ha : operand mid = some (a, left)) :
    link operand operator text = some ((b, a), left) := by
  rw [link, bind_of_some hb, bind_of_some ha, pure_apply]

theorem link_of_none {operand : Reader α} {operator : Reader β} {text : List Char}
    (h : operator text = none) : link operand operator text = none := bind_of_none h

theorem chain_of_steps {operand : Reader α} {operator : Reader β} {join : β → α → α → α}
    {text mid left : List Char} {a : α} {bs : List (β × α)} (first : operand text = some (a, mid))
    (others : Steps (link operand operator) mid bs left) (stop : operator left = none) :
    chain operand operator join text =
      some (bs.foldl (fun left (b, right) => join b left right) a, left) := by
  have hmany := others.many_eq (link_of_none stop)
  rw [chain, bind_of_some first]
  exact bind_of_some hmany

theorem chain_of_none {operand : Reader α} {operator : Reader β} {join : β → α → α → α}
    {text : List Char} (h : operand text = none) : chain operand operator join text = none := by
  rw [chain, bind_of_none h]

/-- Every value the reader gives has the property. -/
def Yields (P : α → Prop) (reader : Reader α) : Prop :=
  ∀ text a left, reader text = some (a, left) → P a

namespace Yields
variable {P : α → Prop} {Q : β → Prop} {reader : Reader α}

theorem weaken {P' : α → Prop} (h : Yields P reader) (hP : ∀ a, P a → P' a) : Yields P' reader :=
  fun text a left ha => hP a (h text a left ha)

theorem of_pure {a : α} (h : P a) : Yields P (pure a : Reader α) := by
  intro text b left hb
  rw [pure_apply, Option.some.injEq, Prod.mk.injEq] at hb
  exact hb.1 ▸ h

theorem failure : Yields P (failure : Reader α) := by
  intro text a left h
  exact absurd h (by simp [failure_apply])

theorem bind {next : α → Reader β} (h : Yields P reader) (hn : ∀ a, P a → Yields Q (next a)) :
    Yields Q (reader >>= next) := by
  intro text b left hb
  rw [bind_apply, Option.bind_eq_some_iff] at hb
  obtain ⟨⟨a, mid⟩, ha, hb⟩ := hb
  exact hn a (h text a mid ha) mid b left hb

theorem trivially (reader : Reader α) : Yields (fun _ => True) reader :=
  fun _ _ _ _ => True.intro

theorem andThen {next : α → Reader β} (hn : ∀ a, Yields Q (next a)) :
    Yields Q (reader >>= next) :=
  (trivially reader).bind fun a _ => hn a

theorem orElse {other : Reader α} (h : Yields P reader) (ho : Yields P other) :
    Yields P (reader <|> other) := by
  intro text a left ha
  rw [orElse_apply, Option.or_eq_some_iff] at ha
  rcases ha with ha | ⟨_, ha⟩
  · exact h text a left ha
  · exact ho text a left ha

theorem map {f : α → β} (h : Yields (fun a => Q (f a)) reader) : Yields Q (f <$> reader) := by
  intro text b left hb
  rw [map_apply, Option.map_eq_some_iff] at hb
  obtain ⟨⟨a, mid⟩, ha, hb⟩ := hb
  rw [Prod.mk.injEq] at hb
  exact hb.1 ▸ h text a mid ha

theorem after {p : Char → Bool} (h : Yields P reader) : Yields P (Reader.after p reader) :=
  fun text => h (text.dropWhile p)

theorem satisfy (p : Char → Bool) : Yields (fun c => p c = true) (Reader.satisfy p) := by
  intro text a left h
  cases text with
  | nil => exact absurd h (by simp [Reader.satisfy])
  | cons c text =>
    by_cases hc : p c = true
    · simp only [Reader.satisfy, hc, if_true, Option.some.injEq, Prod.mk.injEq] at h
      exact h.1 ▸ hc
    · exact absurd h (by simp [Reader.satisfy, hc])

theorem run (p : Char → Bool) : Yields (fun cs => ∀ c ∈ cs, p c = true) (Reader.run p) := by
  intro text cs left h
  rw [Reader.run, Option.some.injEq, Prod.mk.injEq] at h
  have hall : (text.takeWhile p).all p = true := List.all_takeWhile
  rw [h.1] at hall
  exact List.all_eq_true.mp hall

theorem run1 (p : Char → Bool) :
    Yields (fun cs => cs ≠ [] ∧ ∀ c ∈ cs, p c = true) (Reader.run1 p) := by
  refine (Yields.run p).bind fun cs hcs => ?_
  by_cases hne : cs.isEmpty = true
  · rw [if_pos hne]
    exact failure
  · rw [if_neg hne]
    exact of_pure ⟨by simpa using hne, hcs⟩

theorem maybe (h : Yields P reader) : Yields (fun a => ∀ b ∈ a, P b) (optional reader) := by
  apply orElse
  · apply map
    intro text a left ha b hb
    rw [Option.mem_some] at hb
    exact hb ▸ h text a left ha
  · apply of_pure
    simp

theorem upTo (h : Yields P reader) (bound text : List Char) :
    ∀ a ∈ (Reader.upTo bound reader text).1, P a := by
  induction bound generalizing text with
  | nil => simp [Reader.upTo]
  | cons c bound ih =>
    cases hr : reader text with
    | none => simp [Reader.upTo, hr]
    | some p =>
      intro a ha
      simp only [Reader.upTo, hr, List.mem_cons] at ha
      rcases ha with rfl | ha
      · exact h text _ _ hr
      · exact ih _ a ha

theorem many (h : Yields P reader) : Yields (fun as => ∀ a ∈ as, P a) (Reader.many reader) := by
  intro text as left has
  rw [Reader.many, Option.some.injEq] at has
  have hu := h.upTo text text
  rw [has] at hu
  exact hu

theorem separated {separator : Reader Unit} (h : Yields P reader) :
    Yields (fun as => as ≠ [] ∧ ∀ a ∈ as, P a) (Reader.separated separator reader) := by
  have hothers : Yields P (do separator; reader) := andThen fun _ => h
  refine h.bind fun a ha => hothers.many.bind fun as has => of_pure ⟨List.cons_ne_nil a as, ?_⟩
  intro b hb
  rcases List.mem_cons.mp hb with rfl | hb
  · exact ha
  · exact has b hb

theorem chain {operator : Reader β} {join : β → α → α → α} (h : Yields P reader)
    (hop : Yields Q operator) (hjoin : ∀ b left right, Q b → P left → P right → P (join b left right)) :
    Yields P (Reader.chain reader operator join) := by
  have hlink : Yields (fun p : β × α => Q p.1 ∧ P p.2) (link reader operator) :=
    hop.bind fun b hb => h.bind fun a ha => of_pure ⟨hb, ha⟩
  refine h.bind fun a ha => hlink.many.bind fun bs hbs => of_pure ?_
  induction bs generalizing a with
  | nil => exact ha
  | cons p bs ih =>
    have hp := hbs p List.mem_cons_self
    exact ih _ (hjoin _ _ _ hp.1 ha hp.2) fun q hq => hbs q (List.mem_cons_of_mem p hq)

end Yields

/-- Every value stands in a relation to the characters that were taken for it. -/
def Takes (P : α → List Char → Prop) (reader : Reader α) : Prop :=
  ∀ text a left, reader text = some (a, left) → ∃ taken, text = taken ++ left ∧ P a taken

namespace Takes
variable {P : α → List Char → Prop} {Q : β → List Char → Prop} {reader : Reader α}

theorem of_pure {a : α} (h : P a []) : Takes P (pure a : Reader α) := by
  intro text b left hb
  rw [pure_apply, Option.some.injEq] at hb
  cases hb
  exact ⟨[], rfl, h⟩

theorem bind {next : α → Reader β} (h : Takes P reader)
    (hn : ∀ a taken, P a taken → Takes (fun b more => Q b (taken ++ more)) (next a)) :
    Takes Q (reader >>= next) := by
  intro text b left hb
  rw [bind_apply, Option.bind_eq_some_iff] at hb
  obtain ⟨⟨a, mid⟩, ha, hb⟩ := hb
  obtain ⟨taken, rfl, hP⟩ := h text a mid ha
  obtain ⟨more, hmid, hQ⟩ := hn a taken hP mid b left hb
  exact ⟨taken ++ more, by rw [hmid, List.append_assoc], hQ⟩

theorem orElse {other : Reader α} (h : Takes P reader) (ho : Takes P other) :
    Takes P (reader <|> other) := by
  intro text a left ha
  rw [orElse_apply, Option.or_eq_some_iff] at ha
  rcases ha with ha | ⟨_, ha⟩
  · exact h text a left ha
  · exact ho text a left ha

theorem satisfy (p : Char → Bool) :
    Takes (fun c taken => taken = [c] ∧ p c = true) (Reader.satisfy p) := by
  intro text c left h
  cases text with
  | nil => exact absurd h (by simp [Reader.satisfy])
  | cons d text =>
    by_cases hd : p d = true
    · simp only [Reader.satisfy, hd, if_true, Option.some.injEq, Prod.mk.injEq] at h
      obtain ⟨rfl, rfl⟩ := h
      exact ⟨[d], rfl, rfl, hd⟩
    · exact absurd h (by simp [Reader.satisfy, hd])

theorem char (c : Char) : Takes (fun _ taken => taken = [c]) (Reader.char c) := by
  refine (satisfy _).bind fun d taken h => of_pure ?_
  rw [List.append_nil, h.1, beq_iff_eq.mp h.2]

theorem run (p : Char → Bool) : Takes (fun cs taken => cs = taken) (Reader.run p) := by
  intro text cs left h
  rw [Reader.run, Option.some.injEq, Prod.mk.injEq] at h
  exact ⟨cs, by rw [← h.1, ← h.2, List.takeWhile_append_dropWhile], rfl⟩

theorem run1 (p : Char → Bool) : Takes (fun cs taken => cs = taken) (Reader.run1 p) := by
  refine (run p).bind fun cs taken hcs => ?_
  by_cases hempty : cs.isEmpty = true
  · rw [if_pos hempty]
    intro text ds left h
    exact absurd h (by simp [failure_apply])
  · rw [if_neg hempty]
    exact of_pure (by rw [hcs, List.append_nil])

theorem yields {R : α → Prop} (h : Takes P reader) (hy : Yields R reader) :
    Takes (fun a taken => P a taken ∧ R a) reader := by
  intro text a left hread
  obtain ⟨taken, htext, hP⟩ := h text a left hread
  exact ⟨taken, htext, hP, hy text a left hread⟩

theorem guarded (condition : Prop) [Decidable condition] :
    Takes (fun _ taken => taken = [] ∧ condition) (guard condition : Reader Unit) := by
  by_cases h : condition
  · have hpure : (guard condition : Reader Unit) = pure () := if_pos h
    exact hpure ▸ of_pure ⟨rfl, h⟩
  · have hfailure : (guard condition : Reader Unit) = failure := if_neg h
    rw [hfailure]
    exact fun text u left hread => absurd hread (by simp [failure_apply])

end Takes
end FeatureSql.Reader
