import KernelGraph.Graph.Program
import KernelGraph.Platform
import Mathlib.Data.List.TakeWhile

/-!
# Which templates apply to a platform

The name of a platform is put into normal form once, when it is read, and each entry of a template
whenever it is compared with that name. Both come to the same: an entry names the platform if, read
as the name of one, it gives this platform. The normal form of a text is what stands between the
white space at its ends, with ASCII letters in upper case. Nothing is left in it to trim or to
raise, so a platform can be read back from its name.

## Main definitions

* `Text.Trimmed` — a text has no white space at its ends

## Main results

* `Text.exists_white_around`, `Text.trimChars_white_around` — what trimming removes
* `Text.normal_normal`, `Text.normal_respelled` — normal forms are normal, and spelling is lost
* `Platform.matches_ofString_iff` — when an entry names a platform
* `Platform.ofString_respelled` — white space and the case of letters do not matter
* `Platform.admits_ofString_iff` — when a template applies to a platform
-/

namespace KernelGraph

namespace Text

/-- A text has no white space at its ends. -/
structure Trimmed (s : List Char) : Prop where
  first : ∀ c ∈ s.head?, ¬ isWhite c
  last : ∀ c ∈ s.getLast?, ¬ isWhite c

variable {s before after : List Char}

/-! ## Trimming -/

theorem dropWhile_eq_self (h : ∀ c ∈ s.head?, ¬ isWhite c) : s.dropWhile isWhite = s := by
  cases s with
  | nil => rfl
  | cons c s => exact List.dropWhile_cons_of_neg (h c rfl)

/-- The first character that is not dropped is not white. -/
theorem not_isWhite_of_mem_head? : ∀ c ∈ (s.dropWhile isWhite).head?, ¬ isWhite c := by
  intro c hc
  have hfirst := List.head?_dropWhile_not isWhite s
  rw [Option.mem_def.mp hc] at hfirst
  simp [hfirst]

/-- White space around a text that has none at its ends is removed, and nothing else. -/
theorem trimChars_white_around (hbefore : ∀ c ∈ before, isWhite c) (hs : Trimmed s)
    (hafter : ∀ c ∈ after, isWhite c) : trimChars (before ++ (s ++ after)) = s := by
  rw [trimChars, List.dropWhile_append_of_pos hbefore]
  cases s with
  -- a text that is all white space is trimmed to nothing
  | nil => simp [List.dropWhile_eq_nil_iff.mpr hafter]
  | cons c s =>
    have hlast : ∀ c' ∈ (c :: s).reverse.head?, ¬ isWhite c' := by
      rw [List.head?_reverse]
      exact hs.last
    rw [dropWhile_eq_self (s := c :: s ++ after) hs.first, List.reverse_append,
      List.dropWhile_append_of_pos (by simpa), dropWhile_eq_self hlast, List.reverse_reverse]

/-- Trimming removes white space at the ends of a text and leaves none there. -/
theorem exists_white_around (s : List Char) : Trimmed (trimChars s) ∧
    ∃ before after, s = before ++ (trimChars s ++ after) ∧ (∀ c ∈ before, isWhite c) ∧
      ∀ c ∈ after, isWhite c := by
  have hsplit : s.dropWhile isWhite =
      trimChars s ++ ((s.dropWhile isWhite).reverse.takeWhile isWhite).reverse := by
    rw [trimChars, ← List.reverse_append, List.takeWhile_append_dropWhile, List.reverse_reverse]
  refine ⟨⟨fun c hc => ?_, fun c hc => ?_⟩, s.takeWhile isWhite,
    ((s.dropWhile isWhite).reverse.takeWhile isWhite).reverse, ?_, ?_, ?_⟩
  -- what is left begins as it did before its end was trimmed
  · refine not_isWhite_of_mem_head? (s := s) c ?_
    rw [hsplit, List.head?_append, Option.mem_def.mp hc]
    rfl
  · rw [trimChars, List.getLast?_reverse] at hc
    exact not_isWhite_of_mem_head? c hc
  · rw [← hsplit, List.takeWhile_append_dropWhile]
  · exact fun c hc => List.mem_takeWhile_imp hc
  · exact fun c hc => List.mem_takeWhile_imp (List.mem_reverse.mp hc)

/-! ## Letters in upper case -/

theorem toNat_toUpper (c : Char) :
    c.toUpper.toNat = if 97 ≤ c.toNat ∧ c.toNat ≤ 122 then c.toNat - 32 else c.toNat := by
  delta Char.toUpper
  split
  · rename_i hlower
    -- the distance between the cases is added as a word, and wraps around
    have hdistance : ('A'.val - 'a'.val).toNat = 2 ^ 32 - 32 := by decide
    have hfirst : 97 ≤ c.toNat := hlower.1
    have hlast : c.toNat ≤ 122 := hlower.2
    rw [if_pos ⟨hfirst, hlast⟩, Char.toNat_mk, UInt32.toNat_add, Char.toNat_val, hdistance]
    omega
  · rename_i hother
    exact (if_neg hother).symm

/-- White space is no letter, in neither case. -/
theorem isWhite_toUpper (c : Char) : isWhite c.toUpper = isWhite c := by
  have hupper := toNat_toUpper c
  split at hupper
  · rw [isWhite, isWhite, hupper, Bool.eq_iff_iff]
    simp only [Bool.or_eq_true, Bool.and_eq_true, decide_eq_true_eq]
    omega
  · rw [isWhite, isWhite, hupper]

theorem toUpper_toUpper (c : Char) : c.toUpper.toUpper = c.toUpper := by
  rw [← Char.toNat_inj, toNat_toUpper c.toUpper, if_neg]
  rw [toNat_toUpper]
  split <;> omega

theorem Trimmed.map_toUpper (h : Trimmed s) : Trimmed (s.map Char.toUpper) where
  first c hc := by
    rw [List.head?_map] at hc
    obtain ⟨d, hd, rfl⟩ := Option.map_eq_some_iff.mp hc
    rw [isWhite_toUpper]
    exact h.first d hd
  last c hc := by
    rw [List.getLast?_map] at hc
    obtain ⟨d, hd, rfl⟩ := Option.map_eq_some_iff.mp hc
    rw [isWhite_toUpper]
    exact h.last d hd

theorem map_toUpper_map_toUpper (s : List Char) :
    (s.map Char.toUpper).map Char.toUpper = s.map Char.toUpper := by
  rw [List.map_map]
  exact List.map_congr_left fun c _ => toUpper_toUpper c

/-- A text in normal form is its own normal form. -/
theorem normal_normal (s : String) : normal (normal s) = normal s := by
  have htrimmed := (exists_white_around s.toList).1.map_toUpper
  have hagain := trimChars_white_around (List.forall_mem_nil _) htrimmed (List.forall_mem_nil _)
  rw [List.nil_append, List.append_nil] at hagain
  rw [normal, normal, String.toList_ofList, hagain, map_toUpper_map_toUpper]

/-- White space around a text and the case of its ASCII letters have no part in its normal form. -/
theorem normal_respelled (hbefore : ∀ c ∈ before, isWhite c) (hafter : ∀ c ∈ after, isWhite c)
    (s : String) :
    normal (String.ofList (before ++ (s.toList.map Char.toUpper ++ after))) = normal s := by
  obtain ⟨htrimmed, front, back, hs, hfront, hback⟩ := exists_white_around s.toList
  have hwhite : ∀ {t : List Char}, (∀ c ∈ t, isWhite c) → ∀ c ∈ t.map Char.toUpper, isWhite c := by
    simp [isWhite_toUpper]
  have hmap : s.toList.map Char.toUpper = front.map Char.toUpper ++
      ((trimChars s.toList).map Char.toUpper ++ back.map Char.toUpper) := by
    rw [← List.map_append, ← List.map_append, ← hs]
  -- the white space of the text joins that around it
  have hjoined : before ++ (s.toList.map Char.toUpper ++ after) =
      (before ++ front.map Char.toUpper) ++
        ((trimChars s.toList).map Char.toUpper ++ (back.map Char.toUpper ++ after)) := by
    simp only [hmap, List.append_assoc]
  rw [normal, normal, String.toList_ofList, hjoined,
    trimChars_white_around (List.forall_mem_append.mpr ⟨hbefore, hwhite hfront⟩)
      htrimmed.map_toUpper (List.forall_mem_append.mpr ⟨hwhite hback, hafter⟩),
    map_toUpper_map_toUpper]

end Text

namespace Platform

variable {raw entry n : String}

/-! ## Reading names of platforms -/

theorem ofString_eq_cpu_iff :
    ofString raw = .cpu ↔ Text.normal raw = "" ∨ Text.normal raw = "CPU" := by
  rw [ofString]
  split <;> simp_all

theorem ofString_eq_named_iff :
    ofString raw = .named n ↔ Text.normal raw = n ∧ ¬ (n = "" ∨ n = "CPU") := by
  rw [ofString]
  split
  · rename_i hcpu
    simp only [reduceCtorEq, false_iff, not_and, not_not]
    exact fun hn => hn ▸ hcpu
  · rename_i hcpu
    rw [named.injEq]
    exact ⟨fun hn => ⟨hn, hn ▸ hcpu⟩, And.left⟩

/-- An entry names a platform that has been read from a text if it reads as this platform. -/
theorem matches_ofString_iff : (ofString raw).Matches entry ↔ ofString entry = ofString raw := by
  cases hraw : ofString raw with
  | cpu => rw [Matches, ofString_eq_cpu_iff]
  | named n =>
    -- a name that is read is neither empty nor that of the CPU
    have hn := (ofString_eq_named_iff.mp hraw).2
    rw [Matches, ofString_eq_named_iff]
    exact (and_iff_left hn).symm

/-- A platform is read back from its name. -/
theorem ofString_name : ofString (ofString raw).name = ofString raw := by
  cases hraw : ofString raw with
  | cpu => exact ofString_eq_cpu_iff.mpr (Or.inr (by decide))
  | named n =>
    obtain ⟨rfl, hn⟩ := ofString_eq_named_iff.mp hraw
    exact ofString_eq_named_iff.mpr ⟨Text.normal_normal raw, hn⟩

/-- A text names the same platform with white space around it and with its ASCII letters in upper
case. -/
theorem ofString_respelled {before after : List Char} (hbefore : ∀ c ∈ before, Text.isWhite c)
    (hafter : ∀ c ∈ after, Text.isWhite c) (raw : String) :
    ofString (String.ofList (before ++ (raw.toList.map Char.toUpper ++ after))) =
      ofString raw := by
  rw [ofString, ofString, Text.normal_respelled hbefore hafter]

/-- A template applies to the platform of a text if its list is empty and the platform is the CPU,
or if an entry of the list reads as the same platform; and the name of a platform reads as this
platform. -/
theorem admits_ofString_iff (raw : String) (t : Template) :
    ((ofString raw).Admits t.appliesTo ↔
      t.appliesTo = [] ∧ ofString raw = .cpu ∨
        ∃ entry ∈ t.appliesTo, ofString entry = ofString raw) ∧
    ofString (ofString raw).name = ofString raw := by
  refine ⟨?_, ofString_name⟩
  rw [Admits]
  split
  · rename_i hempty
    simp [hempty]
  · rename_i hentries
    simp only [hentries, false_and, false_or, matches_ofString_iff]

end Platform

end KernelGraph
