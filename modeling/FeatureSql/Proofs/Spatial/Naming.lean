import FeatureSql.Proofs.Outcome
import FeatureSql.Proofs.Spatial.Filter

/-! Which coordinate system the text of a spatial reference names, and what a text comes to that
names none. -/

set_option autoImplicit false

namespace FeatureSql

/-- Decimal digits that stand for this integer, with at most one sign in front. -/
inductive IsInteger : List Char → Int → Prop where
  | unsigned {digits : List Char} : Numeral.IsDigits digits → IsInteger digits (natOfDigits digits)
  | plus {digits : List Char} : Numeral.IsDigits digits →
      IsInteger ('+' :: digits) (natOfDigits digits)
  | minus {digits : List Char} : Numeral.IsDigits digits →
      IsInteger ('-' :: digits) (-(natOfDigits digits : Int))

theorem int64?_eq_some_iff {json : Json} {n : Int64} :
    json.int64? = some n ↔ json = .int n.toInt := by
  constructor
  · intro h
    unfold Json.int64? at h
    split at h
    · next value =>
      split at h
      · next hrange =>
        obtain rfl := Option.some.inj h
        rw [Json.int, Int64.toInt_ofInt_of_le hrange.1 (Int.lt_add_one_of_le hrange.2)]
      · cases h
    · cases h
  · rintro rfl
    exact int64?_toInt n

theorem readInt64?_plus {digits : List Char} (h : Numeral.IsDigits digits) :
    readInt64? (String.ofList ('+' :: digits)) = (Json.int (natOfDigits digits)).int64? := by
  have hall : digits.all Char.isDigit = true := List.all_eq_true.mpr h.2
  have hempty : digits.isEmpty = false := by simpa using h.1
  unfold readInt64?
  rw [String.toList_ofList]
  simp [hall, hempty]

theorem readInt64?_of_isInteger {text : String} {value : Int} (h : IsInteger text.toList value) :
    readInt64? text = (Json.int value).int64? := by
  obtain ⟨cs, rfl⟩ : ∃ cs, text = String.ofList cs := ⟨text.toList, (String.ofList_toList).symm⟩
  rw [String.toList_ofList] at h
  cases h with
  | unsigned hdigits => exact readInt64?_digits hdigits
  | plus hdigits => exact readInt64?_plus hdigits
  | minus hdigits => exact readInt64?_minus hdigits

theorem isInteger_of_readInt64? {text : String} {n : Int64} (h : readInt64? text = some n) :
    ∃ value, IsInteger text.toList value ∧ (Json.int value).int64? = some n := by
  unfold readInt64? at h
  split at h
  next negative digits hsplit =>
  split at h
  · cases h
  next hdigits =>
  rw [Bool.not_eq_true, Bool.or_eq_false_iff, Bool.not_eq_false'] at hdigits
  have hdigits : Numeral.IsDigits digits :=
    ⟨by simpa using hdigits.1, List.all_eq_true.mp hdigits.2⟩
  refine ⟨_, ?_, h⟩
  split at hsplit
  · next htext =>
    cases hsplit
    rw [htext]
    exact .minus hdigits
  · next htext =>
    cases hsplit
    rw [htext]
    exact .plus hdigits
  · cases hsplit
    exact .unsigned hdigits

theorem readInt64?_eq_some_iff {text : String} {n : Int64} :
    readInt64? text = some n ↔ IsInteger text.toList n.toInt := by
  constructor
  · intro h
    obtain ⟨value, hvalue, hn⟩ := isInteger_of_readInt64? h
    obtain rfl : value = n.toInt := by simpa [Json.int] using int64?_eq_some_iff.mp hn
    exact hvalue
  · intro h
    rw [readInt64?_of_isInteger h, int64?_toInt]

theorem readInt64?_eq_none_iff {text : String} :
    readInt64? text = none ↔ ∀ n : Int64, ¬ IsInteger text.toList n.toInt := by
  simp only [Option.eq_none_iff_forall_ne_some, ne_eq, readInt64?_eq_some_iff]

theorem int64?_eq_none_iff {json : Json} :
    json.int64? = none ↔ ∀ n : Int64, json ≠ .int n.toInt := by
  simp only [Option.eq_none_iff_forall_ne_some, ne_eq, int64?_eq_some_iff]

/-- A text that starts like a number holds no object. -/
theorem Json.parse?_of_numeral {text : String} {c : Char} {cs : List Char} {json : Json}
    (htext : text.toList = c :: cs) (hc : Numeral.isNumeralChar c = true)
    (h : parse? text = some json) : ∃ value, json = .number value := by
  obtain ⟨raw, hraw, rfl⟩ := Option.map_eq_some_iff.mp h
  obtain ⟨⟨_, left⟩, hread, rfl⟩ := Option.map_eq_some_iff.mp hraw
  have htoken : token (readerAt maxDepth) (c :: cs) = (Json.number <$> numberReader) (c :: cs) := by
    rw [token_of_breaks (Reader.breaks_cons.mpr (isSpace_of_numeral hc)), readerAt_of_numeral _ hc]
  rw [htext, Reader.bind_apply, htoken, Reader.map_apply, Option.bind_eq_some_iff] at hread
  obtain ⟨⟨value, mid⟩, hvalue, hread⟩ := hread
  obtain ⟨⟨number, rest⟩, _, hnumber⟩ := Option.map_eq_some_iff.mp hvalue
  cases hnumber
  rw [Reader.bind_apply, Option.bind_eq_some_iff] at hread
  obtain ⟨_, _, hread⟩ := hread
  cases hread
  exact ⟨number, rfl⟩

theorem IsInteger.head {cs : List Char} {value : Int} (h : IsInteger cs value) :
    ∃ c rest, cs = c :: rest ∧ Numeral.isNumeralChar c = true := by
  cases h with
  | unsigned hdigits =>
    obtain ⟨c, rest, hcs⟩ := List.exists_cons_of_ne_nil hdigits.1
    have hc := hdigits.2 c (hcs ▸ List.mem_cons_self)
    exact ⟨c, rest, hcs, by simp [Numeral.isNumeralChar, hc]⟩
  | plus => exact ⟨'+', _, rfl, rfl⟩
  | minus => exact ⟨'-', _, rfl, rfl⟩

theorem Json.exists_members_of_get? {json value : Json} {key : String}
    (h : json.get? key = some value) : ∃ members, json = .obj members := by
  cases json with
  | obj members => exact ⟨members, rfl⟩
  | _ => cases h

/-- An object is no integer, whatever its text looks like. -/
theorem readInt64?_of_object {text : String} {members : List (String × Json)}
    (h : Json.parse? text = some (.obj members)) : readInt64? text = none := by
  rw [readInt64?_eq_none_iff]
  intro n hinteger
  obtain ⟨c, rest, htext, hc⟩ := hinteger.head
  obtain ⟨value, hvalue⟩ := Json.parse?_of_numeral htext hc h
  cases hvalue

namespace SpatialReference

open Feature (given?)

/-- The number that a text names: the text is that integer, or an object that has it as `wkid`. -/
inductive Names (text : String) (wkid : Int64) : Prop where
  | integer : IsInteger text.toList wkid.toInt → Names text wkid
  | member {members : List (String × Json)} : Json.parse? text = some (.obj members) →
      members.lookup "wkid" = some (.int wkid.toInt) → Names text wkid

/-- The system that a text stands for: the one that it names, or the default if it is blank or an
object without a `wkid`. -/
inductive StandsFor (text : Option String) : Int64 → Prop where
  | blank : given? text = none → StandsFor text 4326
  | named {raw : String} {wkid : Int64} : given? text = some raw → Names raw wkid →
      StandsFor text wkid
  | unnamed {raw : String} {members : List (String × Json)} : given? text = some raw →
      Json.parse? raw = some (.obj members) → members.lookup "wkid" = none → StandsFor text 4326

/-- A text of a value that is no object, and no integer either. -/
inductive IsStray (text : Option String) : Prop where
  | intro {raw : String} {json : Json} : given? text = some raw → Json.parse? raw = some json →
      json.isObject = false → (∀ n : Int64, ¬ IsInteger raw.toList n.toInt) → IsStray text

/-- What the text of a spatial reference comes to. -/
inductive Reads (text : Option String) : Outcome Int64 → Prop where
  | standing {wkid : Int64} : StandsFor text wkid → Reads text (.ok wkid)
  /-- In a value that is no object nothing is looked for. -/
  | stray : IsStray text → Reads text (.ok 4326)
  | invalid {raw : String} {members : List (String × Json)} {value : Json} :
      given? text = some raw → Json.parse? raw = some (.obj members) →
      members.lookup "wkid" = some value → (∀ n : Int64, value ≠ .int n.toInt) →
      Reads text (.error (.invalidWkid value))
  | malformed {raw : String} : given? text = some raw → Json.parse? raw = none →
      (∀ n : Int64, ¬ IsInteger raw.toList n.toInt) → Reads text (.error .json)

/-- Every text comes to something, by what stands in it. -/
theorem reads_ofText (text : Option String) : Reads text (ofText text) := by
  cases h : given? text with
  | none => exact ofText_of_blank h ▸ .standing (.blank h)
  | some raw =>
  cases hinteger : readInt64? raw with
  | some wkid =>
    rw [ofText_of_integer h hinteger]
    exact .standing (.named h (.integer (readInt64?_eq_some_iff.mp hinteger)))
  | none =>
  have hnone := readInt64?_eq_none_iff.mp hinteger
  cases hjson : Json.parse? raw with
  | none => exact ofText_of_malformed h hinteger hjson ▸ .malformed h hjson hnone
  | some json =>
  cases hmember : json.get? "wkid" with
  | none =>
    rw [ofText_of_no_member h hinteger hjson hmember]
    cases json with
    | obj members => exact .standing (.unnamed h hjson hmember)
    | _ => exact .stray (.intro h hjson rfl hnone)
  | some value =>
    obtain ⟨members, rfl⟩ := Json.exists_members_of_get? hmember
    cases hvalue : value.int64? with
    | none =>
      rw [ofText_of_invalid h hinteger hjson hmember hvalue]
      exact .invalid h hjson hmember (int64?_eq_none_iff.mp hvalue)
    | some wkid =>
      rw [ofText_of_member h hinteger hjson hmember hvalue]
      obtain rfl := int64?_eq_some_iff.mp hvalue
      exact .standing (.named h (.member hjson hmember))

theorem StandsFor.ofText_eq {text : Option String} {wkid : Int64} (h : StandsFor text wkid) :
    ofText text = .ok wkid := by
  cases h with
  | blank hblank => exact ofText_of_blank hblank
  | named h hnames =>
    cases hnames with
    | integer hinteger => exact ofText_of_integer h (readInt64?_eq_some_iff.mpr hinteger)
    | member hjson hmember =>
      exact ofText_of_member h (readInt64?_of_object hjson) hjson hmember (int64?_toInt _)
  | unnamed h hjson hmember =>
    exact ofText_of_no_member h (readInt64?_of_object hjson) hjson hmember

theorem IsStray.ofText_eq {text : Option String} (h : IsStray text) : ofText text = .ok 4326 := by
  obtain @⟨raw, json, h, hjson, hobject, hnone⟩ := h
  have hmember : json.get? "wkid" = none := by
    cases json with
    | obj => cases hobject
    | _ => rfl
  exact ofText_of_no_member h (readInt64?_eq_none_iff.mpr hnone) hjson hmember

/-- A stray text stands for no system at all. -/
theorem IsStray.not_standsFor {text : Option String} {wkid : Int64} (h : IsStray text) :
    ¬ StandsFor text wkid := by
  obtain @⟨raw, json, h, hjson, hobject, hnone⟩ := h
  have hvalue : ∀ members, Json.parse? raw ≠ some (.obj members) := by
    intro members hmembers
    obtain rfl := Option.some.inj (hjson.symm.trans hmembers)
    cases hobject
  intro hstands
  cases hstands with
  | blank hblank => cases h.symm.trans hblank
  | named hsame hnames =>
    obtain rfl := Option.some.inj (h.symm.trans hsame)
    cases hnames with
    | integer hinteger => exact hnone _ hinteger
    | member hmembers _ => exact hvalue _ hmembers
  | unnamed hsame hmembers _ =>
    obtain rfl := Option.some.inj (h.symm.trans hsame)
    exact hvalue _ hmembers

/-- A text comes to the system that it stands for, and to no other, just if it is not stray. What a
filter leaves behind comes to the system of that filter. -/
theorem ofText_standsFor_iff (text : Option String) :
    ((∀ wkid, ofText text = .ok wkid ↔ StandsFor text wkid) ↔ ¬ IsStray text) ∧
    Reads text (ofText text) ∧
    ∀ (query after : Feature.Query) (filter : SpatialFilter),
      query.setFilter filter = .ok after → after.inSR = text → ofText text = .ok filter.srid := by
  have hreads := reads_ofText text
  refine ⟨⟨fun h hstray => ?_, fun hstray wkid => ⟨fun hok => ?_, StandsFor.ofText_eq⟩⟩, hreads, ?_⟩
  · exact hstray.not_standsFor ((h 4326).mp hstray.ofText_eq)
  · rw [hok] at hreads
    cases hreads with
    | standing hstands => exact hstands
    | stray h => exact absurd h hstray
  · rintro query after filter h rfl
    rw [Feature.Query.setFilter_eq] at h
    obtain ⟨rings, _, rfl⟩ := map_eq_ok.mp h
    exact ofText_toJson filter.srid

/-- A number in quotes, a list, and a filter at the lower end of the range. -/
theorem ofText_standsFor_lowest :
    let quoted : Json := .obj [("wkid", .str "3857")]
    let filter : SpatialFilter := { geometry := Geometry.polygon (.arr []), srid := Int64.minValue }
    (∀ wkid, ofText (some quoted.compact) = .ok wkid ↔ StandsFor (some quoted.compact) wkid) ∧
      (¬ ∀ wkid, ofText (some "[]") = .ok wkid ↔ StandsFor (some "[]") wkid) ∧
      ∃ after, Feature.Query.setFilter {} filter = .ok after ∧
        after.inSR = some "\x7b\"wkid\":-9223372036854775808\x7d" ∧
        ofText after.inSR = .ok Int64.minValue := by
  intro quoted filter
  have hquoted : Json.parse? quoted.compact = some quoted := by
    refine Json.parse?_compact (.obj (by simp) ?_)
    simp only [List.forall_mem_singleton]
    exact .str _ _
  have hobject : ¬ IsStray (some quoted.compact) := by
    rintro ⟨hgiven, hjson, hobject, _⟩
    obtain rfl := Option.some.inj ((Feature.given?_of_solid (Json.solid_obj _)).symm.trans hgiven)
    obtain rfl := Option.some.inj (hquoted.symm.trans hjson)
    cases hobject
  have htext : (Json.arr []).compact = "[]" := by decide +kernel
  have hempty : Json.parse? "[]" = some (.arr []) := by
    rw [← htext]
    exact Json.parse?_compact (.arr (by simp))
  have hstray : IsStray (some "[]") :=
    .intro (by decide +kernel) hempty rfl (readInt64?_eq_none_iff.mp (by decide +kernel))
  have hlist := fun hclaim => (ofText_standsFor_iff (some "[]")).1.mp hclaim hstray
  refine ⟨(ofText_standsFor_iff _).1.mpr hobject, hlist, _, rfl, by decide +kernel, ?_⟩
  exact (ofText_standsFor_iff _).2.2 {} _ filter rfl rfl

/-- A fraction stands for no system, but it comes to the default. -/
theorem ofText_of_fraction :
    ofText (some "3857.0") = .ok 4326 ∧ ∀ wkid, ¬ StandsFor (some "3857.0") wkid := by
  have hgiven : given? (some "3857.0") = some "3857.0" := by decide +kernel
  have hobject : ∀ members, Json.parse? "3857.0" ≠ some (.obj members) := by
    intro members hjson
    have htext : "3857.0".toList = '3' :: "857.0".toList := by decide
    obtain ⟨value, hvalue⟩ := Json.parse?_of_numeral htext rfl hjson
    cases hvalue
  refine ⟨eq_ok_of_toOption (by decide +kernel), fun wkid hstands => ?_⟩
  cases hstands with
  | blank hblank => cases hgiven.symm.trans hblank
  | named hsame hnames =>
    obtain rfl := Option.some.inj (hgiven.symm.trans hsame)
    cases hnames with
    | integer hinteger => exact readInt64?_eq_none_iff.mp (by decide +kernel) wkid hinteger
    | member hmembers _ => exact hobject _ hmembers
  | unnamed hsame hmembers _ =>
    obtain rfl := Option.some.inj (hgiven.symm.trans hsame)
    exact hobject _ hmembers

end SpatialReference
end FeatureSql
