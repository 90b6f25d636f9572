import FeatureSql.Proofs.Lexeme

/-! Readers that keep within a class of characters: what they read does not depend on what comes
behind the last character of that class. -/

set_option autoImplicit false

namespace FeatureSql

namespace Reader
variable {α β : Type} {reader : Reader α} {p q : Char → Bool}

/-- Only characters of the class are taken, and the text behind them is left as it is. -/
structure Within (p : Char → Bool) (reader : Reader α) : Prop where
  takes : Takes (fun _ taken => ∀ c ∈ taken, p c = true) reader
  before : ∀ (text : List Char) {rest : List Char}, Breaks p rest →
    reader (text ++ rest) = (reader text).map fun read => (read.1, read.2 ++ rest)

namespace Within

theorem mono (h : Within p reader) (hpq : ∀ c, p c = true → q c = true) : Within q reader where
  takes := by
    intro text a left hread
    obtain ⟨taken, htext, htaken⟩ := h.takes text a left hread
    exact ⟨taken, htext, fun c hc => hpq c (htaken c hc)⟩
  before := fun text _ hrest => h.before text (hrest.mono hpq)

theorem pure (a : α) : Within p (Pure.pure a : Reader α) :=
  ⟨Takes.of_pure (by simp), fun _ _ _ => rfl⟩

theorem failure : Within p (failure : Reader α) :=
  ⟨fun _ _ _ h => absurd h (by simp [failure_apply]), fun _ _ _ => rfl⟩

theorem bind {next : α → Reader β} (h : Within p reader) (hnext : ∀ a, Within p (next a)) :
    Within p (reader >>= next) where
  takes := h.takes.bind fun a taken htaken text b left hread => by
    obtain ⟨more, htext, hmore⟩ := (hnext a).takes text b left hread
    exact ⟨more, htext, List.forall_mem_append.mpr ⟨htaken, hmore⟩⟩
  before := by
    intro text rest hrest
    rw [bind_apply, bind_apply, h.before text hrest]
    cases reader text with
    | none => rfl
    | some read => exact (hnext read.1).before read.2 hrest

theorem orElse {other : Reader α} (h : Within p reader) (ho : Within p other) :
    Within p (reader <|> other) where
  takes := h.takes.orElse ho.takes
  before := by
    intro text rest hrest
    rw [orElse_apply, orElse_apply, h.before text hrest, ho.before text hrest]
    cases reader text <;> rfl

theorem guarded (condition : Prop) [Decidable condition] :
    Within p (guard condition : Reader Unit) := by
  by_cases h : condition
  · have hpure : (guard condition : Reader Unit) = Pure.pure () := if_pos h
    exact hpure ▸ pure ()
  · have hfailure : (guard condition : Reader Unit) = Alternative.failure := if_neg h
    exact hfailure ▸ failure

section Class
variable (hp : ∀ c, q c = true → p c = true)
include hp

theorem satisfy : Within p (Reader.satisfy q) where
  takes := fun text c left hread => by
    obtain ⟨taken, htext, rfl, hc⟩ := Takes.satisfy q text c left hread
    exact ⟨[c], htext, by simpa using hp c hc⟩
  before := by
    intro text rest hrest
    cases text with
    | nil =>
      cases rest with
      | nil => rfl
      | cons c rest => simp [Reader.satisfy, breaks_cons.mp (hrest.mono hp)]
    | cons c text =>
      rw [List.cons_append, Reader.satisfy, Reader.satisfy]
      cases q c <;> rfl

theorem run : Within p (Reader.run q) where
  takes := by
    intro text cs left hread
    rw [Reader.run, Option.some.injEq, Prod.mk.injEq] at hread
    refine ⟨cs, by rw [← hread.1, ← hread.2, List.takeWhile_append_dropWhile], fun c hc => hp c ?_⟩
    rw [← hread.1] at hc
    exact List.all_eq_true.mp List.all_takeWhile c hc
  before := by
    intro text rest hrest
    rw [Reader.run, Reader.run, takeWhile_append (hrest.mono hp), dropWhile_append (hrest.mono hp)]
    rfl

theorem run1 : Within p (Reader.run1 q) :=
  (run hp).bind fun cs => by
    split
    · exact failure
    · exact pure cs

end Class

theorem char {c : Char} (hc : p c = true) : Within p (Reader.char c) :=
  (satisfy fun d hd => by rwa [beq_iff_eq.mp hd]).bind fun _ => pure ()

theorem exactly {cs : List Char} (h : ∀ c ∈ cs, p c = true) : Within p (Reader.exactly cs) := by
  induction cs with
  | nil => exact pure ()
  | cons c cs ih =>
    rw [List.forall_mem_cons] at h
    exact (char h.1).bind fun _ => ih h.2

end Within
end Reader

namespace Sql

open Reader (Within)

theorem within_notReserved : Within isWordChar notReserved where
  takes := by
    intro text u left hread
    unfold notReserved at hread
    split at hread
    · cases hread
    · obtain rfl := (Prod.mk.inj (Option.some.inj hread)).2
      exact ⟨[], rfl, by simp⟩
  before := by
    intro text rest hrest
    unfold notReserved
    rw [Reader.takeWhile_append hrest]
    split <;> rfl

section Bare
variable {p q : Char → Bool} (hword : ∀ c, isWordChar c = true → p c = true)
include hword

theorem within_keyword (word : String) : Within p (do
    let cs ← Reader.run isWordChar
    guard (lower cs = word.toList) : Reader Unit) :=
  (Within.run hword).bind fun _ => .guarded _

variable (hp : ∀ c, q c = true → p c = true)
include hp

/-- A word that is not reserved, with what may go on in it. -/
theorem within_bare : Within p (do
    notReserved
    let c ← Reader.satisfy isWordStart
    let cs ← Reader.run q
    pure (String.ofList (c :: cs)) : Reader String) :=
  (within_notReserved.mono hword).bind fun _ => (Within.satisfy fun _ hc =>
    hword _ (isWordChar_of_isWordStart hc)).bind fun c => (Within.run hp).bind fun cs =>
      .pure (String.ofList (c :: cs))

theorem within_table : Within p (do
    notReserved
    let cs ← Reader.run1 q
    pure (String.ofList cs) : Reader String) :=
  (within_notReserved.mono hword).bind fun _ => (Within.run1 hp).bind fun cs =>
    .pure (String.ofList cs)

end Bare

theorem within_signOf {p : Char → Bool} {signs : List String}
    (h : ∀ sign ∈ signs, ∀ c ∈ sign.toList, p c = true) : Within p (signOf signs) := by
  induction signs with
  | nil => exact .failure
  | cons sign signs ih =>
    rw [List.forall_mem_cons] at h
    exact ((Within.exactly h.1).bind fun _ => .pure sign).orElse (ih h.2)

theorem within_digits : Within Numeral.isNumeralChar Numeral.digits :=
  .run1 fun c hc => by simp [Numeral.isNumeralChar, hc]

theorem within_numeral : Within Numeral.isNumeralChar (Numeral.read Numeral.digits) := by
  have hchar : ∀ {q : Char → Bool} {marks : List Char}, (∀ c, q c = true → c ∈ marks) →
      marks.all Numeral.isNumeralChar = true → Within Numeral.isNumeralChar (Reader.satisfy q) :=
    fun hq hmarks => .satisfy fun c hc => List.all_eq_true.mp hmarks c (hq c hc)
  have hsign : Within Numeral.isNumeralChar Numeral.sign :=
    ((Within.char rfl).bind fun _ => .pure true).orElse (.pure false)
  have hfraction : Within Numeral.isNumeralChar Numeral.fractionDigits :=
    ((Within.char rfl).bind fun _ => within_digits).orElse (.pure [])
  have hexponentSign : Within Numeral.isNumeralChar Numeral.exponentSign :=
    ((@hchar _ ['+', '-'] (fun c hc => by simpa using hc) rfl).bind fun c => .pure [c]).orElse
      (.pure [])
  have hexponent : Within Numeral.isNumeralChar Numeral.exponentPart :=
    ((@hchar _ ['e', 'E'] (fun c hc => by simpa using hc) rfl).bind fun mark =>
      hexponentSign.bind fun sign => within_digits.bind fun ds =>
        .pure (mark :: (sign ++ ds))).orElse (.pure [])
  exact hsign.bind fun _ => within_digits.bind fun _ => hfraction.bind fun _ =>
    hexponent.bind fun _ => .pure _

end Sql
end FeatureSql
