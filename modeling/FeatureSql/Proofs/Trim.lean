import FeatureSql.Proofs.Character
import FeatureSql.Proofs.Reader

/-! Texts without blanks at their ends. -/

set_option autoImplicit false

namespace FeatureSql

open Reader (Breaks breaks_cons)

theorem breaks_dropWhile (p : Char → Bool) (cs : List Char) : Breaks p (cs.dropWhile p) := by
  intro c hc
  have h := List.head?_dropWhile_not p cs
  cases hd : (cs.dropWhile p).head? with
  | none => rw [hd] at hc; cases hc
  | some d =>
    rw [hd] at h hc
    rw [Option.mem_some] at hc
    subst hc
    simpa using h

/-- No blank stands at either end. -/
structure Bounded (cs : List Char) : Prop where
  front : Breaks isBlank cs
  back : Breaks isBlank cs.reverse

theorem trim_of_bounded {text : String} (h : Bounded text.toList) : trim text = text := by
  unfold trim
  rw [Reader.dropWhile_of_breaks h.front, Reader.dropWhile_of_breaks h.back, List.reverse_reverse,
    String.ofList_toList]

/-- Only blanks are taken off the end. -/
theorem dropWhile_reverse_prefix (cs : List Char) : ∃ blanks,
    cs = (cs.reverse.dropWhile isBlank).reverse ++ blanks ∧ ∀ c ∈ blanks, isBlank c = true := by
  refine ⟨(cs.reverse.takeWhile isBlank).reverse, ?_, ?_⟩
  · rw [← List.reverse_append, List.takeWhile_append_dropWhile, List.reverse_reverse]
  · intro c hc
    exact List.all_eq_true.mp List.all_takeWhile c (List.mem_reverse.mp hc)

theorem breaks_of_append {p : Char → Bool} {first second : List Char}
    (h : Breaks p (first ++ second)) : Breaks p first := by
  cases first with
  | nil => exact Breaks.nil p
  | cons c cs => exact breaks_cons.mpr (breaks_cons.mp h)

theorem bounded_trim (text : String) : Bounded (trim text).toList := by
  have htrim : (trim text).toList =
      ((text.toList.dropWhile isBlank).reverse.dropWhile isBlank).reverse := String.toList_ofList
  rw [htrim]
  constructor
  · obtain ⟨blanks, hblanks, _⟩ := dropWhile_reverse_prefix (text.toList.dropWhile isBlank)
    have hfront := breaks_dropWhile isBlank text.toList
    rw [hblanks] at hfront
    exact breaks_of_append hfront
  · rw [List.reverse_reverse]
    exact breaks_dropWhile isBlank _

theorem trim_trim (text : String) : trim (trim text) = trim text :=
  trim_of_bounded (bounded_trim text)

theorem mem_of_mem_trim {text : String} {c : Char} (h : c ∈ (trim text).toList) :
    c ∈ text.toList := by
  rw [trim, String.toList_ofList, List.mem_reverse] at h
  have hfront := (List.dropWhile_suffix isBlank).mem h
  exact (List.dropWhile_suffix isBlank).mem (List.mem_reverse.mp hfront)

structure Solid (cs : List Char) : Prop where
  first : ∃ c rest, cs = c :: rest ∧ isBlank c = false
  last : ∃ front c, cs = front ++ [c] ∧ isBlank c = false

namespace Solid
variable {cs : List Char}

theorem ne_nil (h : Solid cs) : cs ≠ [] := by
  obtain ⟨c, rest, rfl, _⟩ := h.first
  simp

theorem bounded (h : Solid cs) : Bounded cs := by
  constructor
  · obtain ⟨c, rest, rfl, hc⟩ := h.first
    exact breaks_cons.mpr hc
  · obtain ⟨front, c, rfl, hc⟩ := h.last
    rw [List.reverse_append]
    exact breaks_cons.mpr hc

theorem ends {c d : Char} (hc : isBlank c = false) (hd : isBlank d = false) (mid : List Char) :
    Solid (c :: (mid ++ [d])) := ⟨⟨c, mid ++ [d], rfl, hc⟩, ⟨c :: mid, d, rfl, hd⟩⟩

theorem append {first last : List Char} (hf : Solid first) (hl : Solid last) (mid : List Char) :
    Solid (first ++ (mid ++ last)) := by
  obtain ⟨c, rest, hfirst, hc⟩ := hf.first
  obtain ⟨front, d, hlast, hd⟩ := hl.last
  refine ⟨⟨c, rest ++ (mid ++ last), by rw [hfirst, List.cons_append], hc⟩,
    ⟨first ++ (mid ++ front), d, ?_, hd⟩⟩
  rw [hlast]
  simp

theorem of_forall (hne : cs ≠ []) (h : ∀ c ∈ cs, isBlank c = false) : Solid cs := by
  constructor
  · cases cs with
    | nil => exact absurd rfl hne
    | cons c rest => exact ⟨c, rest, rfl, h c List.mem_cons_self⟩
  · refine ⟨cs.dropLast, cs.getLast hne, (List.dropLast_concat_getLast hne).symm, ?_⟩
    exact h _ (List.getLast_mem hne)

theorem intercalate {mark : String} {parts : List String} (hne : parts ≠ [])
    (h : ∀ part ∈ parts, Solid part.toList) : Solid (mark.intercalate parts).toList := by
  induction parts with
  | nil => exact absurd rfl hne
  | cons part parts ih =>
    have hpart := h part List.mem_cons_self
    cases parts with
    | nil =>
      rw [String.intercalate_singleton]
      exact hpart
    | cons next parts =>
      have hrest := ih (by simp) fun p hp => h p (List.mem_cons_of_mem part hp)
      rw [String.intercalate_cons_cons, String.toList_append, String.toList_append,
        List.append_assoc]
      exact hpart.append hrest mark.toList

end Solid
end FeatureSql
