import FeatureSql.Proofs.Query.Backtick
import FeatureSql.Proofs.Query.Clause

/-! Fragments of statements. A reader is local if it reads a fragment the same way behind blanks and
in front of the next clause as on its own. -/

set_option autoImplicit false

namespace FeatureSql.Sql

open Reader (bind_apply bind_of_some bind_of_none orElse_apply map_apply pure_apply)

/-- The quotes that open in a text close in it, and no name between backticks stands in it. -/
def Shut (text : List Char) : Prop := ∀ rest, findBacktick (text ++ rest) = findBacktick rest

namespace Shut
variable {first second : List Char}

theorem nil : Shut [] := fun _ => rfl

theorem of_plain {text : List Char} (h : ∀ c ∈ text, isPlain c = true) : Shut text := by
  have hclean := @Clean.of_plain (String.ofList text) (by simpa using h)
  rw [Clean, String.toList_ofList] at hclean
  exact hclean

theorem append (hf : Shut first) (hs : Shut second) : Shut (first ++ second) := by
  intro rest
  rw [List.append_assoc, hf, hs]

/-- What is left of such a text behind such a text is one itself. -/
theorem left (hf : Shut first) (h : Shut (first ++ second)) : Shut second := by
  intro rest
  rw [← hf, ← List.append_assoc, h]

theorem findBacktick_eq (h : Shut first) : findBacktick first = none := by
  have hend := h []
  rwa [List.append_nil] at hend

end Shut

theorem findBacktick_left {taken left : List Char} (h : Shut taken)
    (hnone : findBacktick (taken ++ left) = none) : findBacktick left = none :=
  (h left).symm.trans hnone

section Readers
variable {α β : Type}

/-- What is taken of a text without names between backticks is shut. -/
def Shuts (reader : Reader α) : Prop := ∀ ⦃text left : List Char⦄ ⦃a : α⦄,
  findBacktick text = none → reader text = some (a, left) → ∃ taken, text = taken ++ left ∧ Shut taken

/-- Something is taken of every text that is read. -/
def Advances (reader : Reader α) : Prop := ∀ ⦃text left : List Char⦄ ⦃a : α⦄,
  findBacktick text = none → reader text = some (a, left) → left.length < text.length

/-- Nothing is read in either place, or the same value, with all that follows left over. Of the
blanks in front some may be left over as well. -/
def Agrees (gap rest : List Char) : Option (α × List Char) → Option (α × List Char) → Prop
  | none, outer => outer = none
  | some (a, left), outer => ∃ ahead, ahead <:+ gap ∧ outer = some (a, ahead ++ (left ++ rest))

/-- Fragments of fewer than `n` characters are read by `reader` on their own as by `outer` inside of
a statement. -/
structure Local (n : Nat) (reader outer : Reader α) : Prop where
  shuts : Shuts reader
  agrees : ∀ {text : List Char}, text.length < n → Shut text → ∀ {rest}, Ends 0 rest →
    ∀ {gap}, Gap gap → Agrees gap rest (reader text) (outer (gap ++ (text ++ rest)))

theorem Gap.suffix {gap ahead : List Char} (h : Gap gap) (hs : ahead <:+ gap) : Gap ahead :=
  fun c hc => h c (hs.mem hc)

theorem Gap.append {first second : List Char} (hf : Gap first) (hs : Gap second) :
    Gap (first ++ second) :=
  List.forall_mem_append.mpr ⟨hf, hs⟩

theorem Gap.shut {gap : List Char} (h : Gap gap) : Shut gap := by
  refine .of_plain fun c hc => ?_
  rcases (isGap_iff c).mp (h c hc) with rfl | rfl | rfl | rfl <;> rfl

theorem Agrees.of_map {gap rest : List Char} {read outer : Option (α × List Char)}
    (h : outer = read.map fun p => (p.1, p.2 ++ rest)) : Agrees gap rest read outer := by
  cases read with
  | none => exact h
  | some p => exact ⟨[], List.nil_suffix, h⟩

theorem Agrees.widen {gap ahead rest : List Char} {read outer : Option (α × List Char)}
    (h : Agrees ahead rest read outer) (hs : ahead <:+ gap) : Agrees gap rest read outer := by
  cases read with
  | none => exact h
  | some p =>
    obtain ⟨front, hfront, houter⟩ := h
    exact ⟨front, hfront.trans hs, houter⟩

theorem Shuts.length_le {reader : Reader α} (h : Shuts reader) {text left : List Char} {a : α}
    (htext : findBacktick text = none) (hread : reader text = some (a, left)) :
    left.length ≤ text.length := by
  obtain ⟨taken, rfl, _⟩ := h htext hread
  simp

theorem Advances.bind {reader : Reader α} {next : α → Reader β} (h : Advances reader)
    (hshuts : Shuts reader) (hnext : ∀ a, Shuts (next a)) : Advances (reader >>= next) := by
  intro text left b htext hread
  rw [bind_apply, Option.bind_eq_some_iff] at hread
  obtain ⟨⟨a, mid⟩, ha, hb⟩ := hread
  have hless := h htext ha
  obtain ⟨taken, rfl, hshut⟩ := hshuts htext ha
  exact Nat.lt_of_le_of_lt ((hnext a).length_le (findBacktick_left hshut htext) hb) hless

namespace Local
variable {n m : Nat} {reader outer : Reader α}

theorem pure (a : α) : Local n (Pure.pure a : Reader α) (Pure.pure a) where
  shuts := by
    intro text left b _ hread
    obtain rfl : text = left := (Prod.mk.inj (Option.some.inj hread)).2
    exact ⟨[], rfl, .nil⟩
  agrees := fun _ _ _ _ gap _ => ⟨gap, List.suffix_refl gap, rfl⟩

section Bind
variable {next onward : α → Reader β} (h : Local n reader outer)
include h

/-- Where the first reader leaves less of a text, what comes next is read from less. -/
theorem bindAt (hless : ∀ {text left : List Char} {a : α}, text.length < n →
      findBacktick text = none → reader text = some (a, left) → left.length < m)
    (hnext : ∀ a, Local m (next a) (onward a)) : Local n (reader >>= next) (outer >>= onward) where
  shuts := by
    intro text left b htext hread
    rw [bind_apply, Option.bind_eq_some_iff] at hread
    obtain ⟨⟨a, mid⟩, ha, hb⟩ := hread
    obtain ⟨taken, rfl, hshut⟩ := h.shuts htext ha
    obtain ⟨more, rfl, hmore⟩ := (hnext a).shuts (findBacktick_left hshut htext) hb
    exact ⟨taken ++ more, (List.append_assoc ..).symm, hshut.append hmore⟩
  agrees := by
    intro text htext hshut rest hrest gap hgap
    have hfirst := h.agrees htext hshut hrest hgap
    cases hread : reader text with
    | none =>
      rw [hread] at hfirst
      rw [bind_of_none hread, bind_of_none hfirst]
      rfl
    | some p =>
      obtain ⟨a, left⟩ := p
      rw [hread] at hfirst
      obtain ⟨ahead, hsuffix, houter⟩ := hfirst
      have hlength := hless htext hshut.findBacktick_eq hread
      obtain ⟨taken, rfl, htaken⟩ := h.shuts hshut.findBacktick_eq hread
      rw [bind_of_some hread, bind_of_some houter]
      exact ((hnext a).agrees hlength (htaken.left hshut) hrest (hgap.suffix hsuffix)).widen hsuffix

theorem bind (hnext : ∀ a, Local n (next a) (onward a)) :
    Local n (reader >>= next) (outer >>= onward) :=
  h.bindAt (fun htext hnone hread => Nat.lt_of_le_of_lt (h.shuts.length_le hnone hread) htext) hnext

end Bind

/-- What comes behind a lexeme is read from less than the whole. -/
theorem step {next onward : α → Reader β} (h : Local (n + 1) reader outer)
    (hadvances : Advances reader) (hnext : ∀ a, Local n (next a) (onward a)) :
    Local (n + 1) (reader >>= next) (outer >>= onward) :=
  h.bindAt (fun htext hnone hread => by have := hadvances hnone hread; omega) hnext

theorem orElse {other alternative : Reader α} (h : Local n reader outer)
    (ho : Local n other alternative) : Local n (reader <|> other) (outer <|> alternative) where
  shuts := by
    intro text left a htext hread
    rw [orElse_apply, Option.or_eq_some_iff] at hread
    rcases hread with hread | ⟨_, hread⟩
    · exact h.shuts htext hread
    · exact ho.shuts htext hread
  agrees := by
    intro text htext hshut rest hrest gap hgap
    have hfirst := h.agrees htext hshut hrest hgap
    rw [orElse_apply, orElse_apply]
    cases hread : reader text with
    | none =>
      rw [hread] at hfirst
      rw [show outer _ = none from hfirst]
      exact ho.agrees htext hshut hrest hgap
    | some p =>
      rw [hread] at hfirst
      obtain ⟨ahead, hsuffix, houter⟩ := hfirst
      rw [houter]
      exact ⟨ahead, hsuffix, rfl⟩

theorem map (f : α → β) (h : Local n reader outer) : Local n (f <$> reader) (f <$> outer) :=
  h.bind fun a => .pure (f a)

theorem maybe (h : Local n reader outer) : Local n (optional reader) (optional outer) :=
  (h.map some).orElse (.pure none)

theorem upTo_shuts (h : Shuts reader) (bound : List Char) {text : List Char}
    (htext : findBacktick text = none) :
    ∃ taken, text = taken ++ (Reader.upTo bound reader text).2 ∧ Shut taken := by
  induction bound generalizing text with
  | nil => exact ⟨[], rfl, .nil⟩
  | cons c bound ih =>
    rw [Reader.upTo]
    cases hread : reader text with
    | none => exact ⟨[], rfl, .nil⟩
    | some p =>
      obtain ⟨taken, rfl, hshut⟩ := h htext hread
      obtain ⟨more, hmore, hmoreShut⟩ := ih (findBacktick_left hshut htext)
      exact ⟨taken ++ more, by rw [List.append_assoc]; exact congrArg _ hmore, hshut.append hmoreShut⟩

section Many
variable (h : Local n reader outer) (hadvances : Advances reader)
include h hadvances

/-- Each value takes a character, so that neither text bounds how many there are. -/
theorem upTo_agrees {rest : List Char} (hrest : Ends 0 rest) (bound : List Char) {text : List Char}
    (htext : text.length < n) (hbound : text.length ≤ bound.length) (hshut : Shut text)
    {gap : List Char} (hgap : Gap gap) {wider : List Char}
    (hwider : (gap ++ (text ++ rest)).length ≤ wider.length) :
    ∃ ahead, ahead <:+ gap ∧ Reader.upTo wider outer (gap ++ (text ++ rest)) =
      ((Reader.upTo bound reader text).1, ahead ++ ((Reader.upTo bound reader text).2 ++ rest)) := by
  induction bound generalizing text gap wider with
  | nil =>
    have hfirst := h.agrees htext hshut hrest hgap
    obtain rfl := List.eq_nil_of_length_eq_zero (Nat.le_zero.mp hbound)
    cases hread : reader [] with
    | some p => exact absurd (hadvances hshut.findBacktick_eq hread) (Nat.not_lt_zero _)
    | none =>
      rw [hread] at hfirst
      exact ⟨gap, List.suffix_refl gap, Reader.upTo_of_none hfirst wider⟩
  | cons c bound ih =>
    have hfirst := h.agrees htext hshut hrest hgap
    cases hread : reader text with
    | none =>
      rw [hread] at hfirst
      refine ⟨gap, List.suffix_refl gap, ?_⟩
      rw [Reader.upTo_of_none hread, Reader.upTo_of_none hfirst]
    | some p =>
      obtain ⟨a, left⟩ := p
      rw [hread] at hfirst
      obtain ⟨ahead, hsuffix, houter⟩ := hfirst
      have hless := hadvances hshut.findBacktick_eq hread
      obtain ⟨taken, rfl, htaken⟩ := h.shuts hshut.findBacktick_eq hread
      have hlength := hsuffix.length_le
      simp only [List.length_append, List.length_cons] at hless htext hbound hwider
      obtain ⟨d, wider, rfl⟩ : ∃ d ds, wider = d :: ds :=
        List.exists_cons_of_length_pos (by omega)
      have hwider : (ahead ++ (left ++ rest)).length ≤ wider.length := by
        simp only [List.length_append, List.length_cons] at hwider ⊢
        omega
      obtain ⟨front, hfront, hrec⟩ := ih (by omega) (by omega) (htaken.left hshut)
        (hgap.suffix hsuffix) hwider
      refine ⟨front, hfront.trans hsuffix, ?_⟩
      rw [Reader.upTo, Reader.upTo, hread, houter]
      dsimp only
      rw [hrec]

theorem many : Local n (Reader.many reader) (Reader.many outer) where
  shuts := by
    intro text left as htext hread
    obtain ⟨taken, hsplit, hshut⟩ := upTo_shuts h.shuts text htext
    rw [Reader.many, Option.some.injEq] at hread
    rw [hread] at hsplit
    exact ⟨taken, hsplit, hshut⟩
  agrees := by
    intro text htext hshut rest hrest gap hgap
    obtain ⟨ahead, hsuffix, hsame⟩ := upTo_agrees h hadvances hrest text htext (Nat.le_refl _) hshut
      hgap (Nat.le_refl _)
    exact ⟨ahead, hsuffix, congrArg some hsame⟩

end Many

theorem separated {separator mark : Reader Unit} (hs : Local n separator mark)
    (hadvances : Advances separator) (h : Local n reader outer) :
    Local n (Reader.separated separator reader) (Reader.separated mark outer) :=
  h.bind fun a => ((hs.bind fun _ => h).many (hadvances.bind hs.shuts fun _ => h.shuts)).bind
    fun as => .pure (a :: as)

theorem chain {operator sign : Reader β} (ho : Local n operator sign)
    (hadvances : Advances operator) (join : β → α → α → α) (h : Local n reader outer) :
    Local n (Reader.chain reader operator join) (Reader.chain outer sign join) := by
  have hlink : ∀ b : β, Local n (do let a ← reader; Pure.pure (b, a))
      (do let a ← outer; Pure.pure (b, a)) := fun b => h.bind fun a => .pure (b, a)
  exact h.bind fun a => ((ho.bind hlink).many
    (hadvances.bind ho.shuts fun b => (hlink b).shuts)).bind fun _ => .pure _

end Local
end Readers
end FeatureSql.Sql
