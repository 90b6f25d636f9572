import FeatureSql.Proofs.Layout.Alike

/-! Readers that run in parallel on texts with the same tokens: where one reads a value the other
reads one that corresponds to it, and what they leave has the same tokens again. -/

set_option autoImplicit false

namespace FeatureSql.Sql

open Reader (orElse_apply Steps)

variable {α β γ δ : Type} {R : α → β → Prop} {S : γ → δ → Prop} {advances : Bool}

/-- What two readers make of two texts. Where something `advances`, less is left than there was. -/
inductive Matches (R : α → β → Prop) (advances : Bool) (s t : List Char) :
    Option (α × List Char) → Option (β × List Char) → Prop where
  | refused : Matches R advances s t none none
  | read {a : α} {b : β} {left rest : List Char} : R a b → Alike left rest →
      left.length + advances.toNat ≤ s.length → rest.length + advances.toNat ≤ t.length →
        Matches R advances s t (some (a, left)) (some (b, rest))

namespace Matches
variable {s t : List Char} {first : Option (α × List Char)} {second : Option (β × List Char)}

theorem weaken {weaker : Bool} {s' t' : List Char} (h : Matches R advances s t first second)
    (hs : s.length + weaker.toNat ≤ s'.length + advances.toNat)
    (ht : t.length + weaker.toNat ≤ t'.length + advances.toNat) :
    Matches R weaker s' t' first second := by
  cases h with
  | refused => exact .refused
  | read hab hrest hleft hright => exact .read hab hrest (by omega) (by omega)

theorem bind {early late : Bool} (h : Matches R early s t first second)
    {next : α × List Char → Option (γ × List Char)}
    {onward : β × List Char → Option (δ × List Char)}
    (hnext : ∀ {a b left rest}, R a b → Alike left rest →
      Matches S late left rest (next (a, left)) (onward (b, rest))) :
    Matches S (early || late) s t (first.bind next) (second.bind onward) := by
  have hor : (early || late).toNat ≤ early.toNat + late.toNat := by
    cases early <;> cases late <;> decide
  cases h with
  | refused => exact .refused
  | read hab hrest hleft hright => exact (hnext hab hrest).weaken (by omega) (by omega)

theorem or (h : Matches R advances s t first second) {other : Option (α × List Char)}
    {alternative : Option (β × List Char)} (ho : Matches R advances s t other alternative) :
    Matches R advances s t (first.or other) (second.or alternative) := by
  cases h with
  | refused => exact ho
  | read hab hrest hleft hright => exact .read hab hrest hleft hright

end Matches

/-- Reader by reader, what corresponds is read from texts with the same tokens. -/
def Parallel (R : α → β → Prop) (advances : Bool) (first : Reader α) (second : Reader β) : Prop :=
  ∀ ⦃s t : List Char⦄, Alike s t → Matches R advances s t (first s) (second t)

/-- A reader that does not see the layout of a text. -/
abbrev Blind (advances : Bool) (reader : Reader α) : Prop := Parallel Eq advances reader reader

namespace Parallel
variable {first : Reader α} {second : Reader β}

theorem pure {a : α} {b : β} (h : R a b) :
    Parallel R false (Pure.pure a : Reader α) (Pure.pure b : Reader β) :=
  fun _ _ halike => .read h halike (Nat.le_refl _) (Nat.le_refl _)

section Bind
variable {next : α → Reader γ} {onward : β → Reader δ}

theorem bind (h : Parallel R advances first second)
    (hnext : ∀ a b, R a b → Parallel S false (next a) (onward b)) :
    Parallel S advances (first >>= next) (second >>= onward) :=
  fun _ _ halike => Bool.or_false advances ▸ (h halike).bind fun hab hrest => hnext _ _ hab hrest

/-- What comes behind a reader that need not advance can advance. -/
theorem late (h : Parallel R false first second)
    (hnext : ∀ a b, R a b → Parallel S advances (next a) (onward b)) :
    Parallel S advances (first >>= next) (second >>= onward) :=
  fun _ _ halike => Bool.false_or advances ▸ (h halike).bind fun hab hrest => hnext _ _ hab hrest

end Bind

theorem orElse {other : Reader α} {alternative : Reader β} (h : Parallel R advances first second)
    (ho : Parallel R advances other alternative) :
    Parallel R advances (first <|> other) (second <|> alternative) := by
  intro s t halike
  rw [orElse_apply, orElse_apply]
  exact (h halike).or (ho halike)

theorem map {f : α → γ} {g : β → δ} (h : Parallel R advances first second)
    (hfg : ∀ a b, R a b → S (f a) (g b)) : Parallel S advances (f <$> first) (g <$> second) :=
  h.bind fun a b hab => .pure (hfg a b hab)

theorem maybe (h : Parallel R false first second) :
    Parallel (Option.Rel R) false (optional first) (optional second) :=
  (h.map fun _ _ hab => Option.Rel.some hab).orElse (.pure .none)

end Parallel

namespace Blind
variable {reader : Reader α}

theorem pure (a : α) : Blind false (Pure.pure a : Reader α) := Parallel.pure rfl

theorem bind {next : α → Reader β} (h : Blind advances reader)
    (hnext : ∀ a, Blind false (next a)) : Blind advances (reader >>= next) :=
  Parallel.bind h fun a _ hab => hab ▸ hnext a

/-- A value that does not show the layout may be followed by values that do. -/
theorem andThen {next : α → Reader γ} {onward : α → Reader δ} (h : Blind advances reader)
    (hnext : ∀ a, Parallel S false (next a) (onward a)) :
    Parallel S advances (reader >>= next) (reader >>= onward) :=
  Parallel.bind h fun a _ hab => hab ▸ hnext a

theorem map (f : α → β) (h : Blind advances reader) : Blind advances (f <$> reader) :=
  Parallel.map h fun _ _ hab => congrArg f hab

theorem maybe (h : Blind false reader) : Blind false (optional reader) :=
  (h.map some).orElse (pure none)

/-- The steps that one text allows are the steps that the other allows. -/
theorem steps (h : Blind true reader) {s : List Char} :
    ∀ {t : List Char}, Alike s t → ∃ as left rest, Steps reader s as left ∧ reader left = none ∧
      Steps reader t as rest ∧ reader rest = none ∧ Alike left rest ∧
        left.length ≤ s.length ∧ rest.length ≤ t.length := by
  induction hn : s.length using Nat.strongRecOn generalizing s with
  | _ n ih =>
    subst hn
    intro t halike
    have hstep := h halike
    generalize hs : reader s = read, ht : reader t = reread at hstep
    cases hstep with
    | refused =>
      exact ⟨[], s, t, .nil s, hs, .nil t, ht, halike, Nat.le_refl _, Nat.le_refl _⟩
    | @read a b left rest hab hrest hleft hright =>
      subst hab
      have hleft : left.length < s.length := hleft
      have hright : rest.length < t.length := hright
      obtain ⟨as, last, back, hsteps, hstop, hresteps, hrestop, hlast, hle, hge⟩ :=
        ih left.length hleft rfl hrest
      exact ⟨a :: as, last, back, .cons hs hleft hsteps, hstop, .cons ht hright hresteps, hrestop,
        hlast, by omega, by omega⟩

theorem many (h : Blind true reader) : Blind false (Reader.many reader) := by
  intro s t halike
  obtain ⟨as, left, rest, hsteps, hstop, hresteps, hrestop, hrest, hle, hge⟩ := steps h halike
  rw [hsteps.many_eq hstop, hresteps.many_eq hrestop]
  exact .read rfl hrest hle hge

theorem separated {separator : Reader Unit} (hs : Blind true separator) (h : Blind false reader) :
    Blind false (Reader.separated separator reader) :=
  h.bind fun a => (Blind.many (hs.bind fun _ => h)).bind fun as => pure (a :: as)

theorem chain {operator : Reader β} (ho : Blind true operator) (join : β → α → α → α)
    (h : Blind false reader) : Blind false (Reader.chain reader operator join) :=
  h.bind fun _ => (Blind.many (ho.bind fun b => h.bind fun a => pure (b, a))).bind fun _ => pure _

end Blind
end FeatureSql.Sql
