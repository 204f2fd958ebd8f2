import KernelGraph.Json.Reader
import Mathlib.Order.Basic

/-!
# Reading texts and integers back

A text is written with its quotation marks, backslashes and control characters escaped, and an
integer by its digits. Each is read back as it was, up to the characters that follow it; after an
integer these must be such that no number goes on with them.

## Main definitions

* `Stops` — characters with which no number goes on

## Main results

* `Quoted.read_encode` — a text is read back
* `Number.read_toDigits`, `Number.read_toDigits_negative` — an integer is read back
-/

namespace KernelGraph

/-! ## Texts -/

namespace Quoted

theorem hexValue_hexDigit {d : Nat} (hd : d < 16) : hexValue (hexDigit d) = some d := by
  have hall : ∀ d < 16, hexValue (hexDigit d) = some d := by decide
  exact hall d hd

variable {c : Char} {s : List Char}

/-- A character that needs no escape is read as it stands. -/
theorem scan_plain (hquote : c ≠ '"') (hbackslash : c ≠ '\\') (hcontrol : ¬ c.toNat < 0x20) :
    scan true .plain (c :: s) = keep c (scan true .plain s) := by
  rw [scan, if_neg hquote, if_neg hbackslash, if_neg hcontrol]

/-- A character is read from the letter that names it after a backslash. -/
theorem scan_named {letter : Char} (hnamed : named letter = some c) :
    scan true .plain ('\\' :: letter :: s) = keep c (scan true .plain s) := by
  have hletter : letter ≠ 'u' := by
    rintro rfl
    simp [named] at hnamed
  rw [scan, if_neg (by decide), if_pos rfl, scan, if_neg hletter, hnamed]

/-- A control character is read from its code. -/
theorem scan_control (hcontrol : c.toNat < 0x20) :
    scan true .plain ('\\' :: 'u' :: '0' :: '0' :: hexDigit (c.toNat / 16) ::
      hexDigit (c.toNat % 16) :: s) = keep c (scan true .plain s) := by
  have hzero : hexValue '0' = some 0 := by decide
  have hhigh := hexValue_hexDigit (d := c.toNat / 16) (by omega)
  have hlow := hexValue_hexDigit (d := c.toNat % 16) (by omega)
  have hvalue : 16 * (c.toNat / 16) + c.toNat % 16 = c.toNat := by omega
  -- a control character is no half of a surrogate pair
  have hfinish : finish true none c.toNat = .char c := by
    have htrail : isTrail c.toNat = false := by simp [isTrail]; omega
    have hlead : isLead c.toNat = false := by simp [isLead]; omega
    simp [finish, htrail, hlead]
  simp [scan, hzero, hhigh, hlow, hvalue, hfinish]

/-- A character is read as it is written inside a text. -/
theorem scan_encodeChar (c : Char) (s : List Char) :
    scan true .plain (encodeChar c ++ s) = keep c (scan true .plain s) := by
  rw [encodeChar]
  split
  · subst_vars
    exact scan_named rfl
  rename_i hquote
  split
  · subst_vars
    exact scan_named rfl
  rename_i hbackslash
  iterate 5
    split
    · subst_vars
      exact scan_named rfl
  split
  · rename_i hcontrol
    exact scan_control hcontrol
  · rename_i hcontrol
    exact scan_plain hquote hbackslash hcontrol

/-- The inside of a text is read up to its closing quotation mark. -/
theorem scan_encode (cs s : List Char) :
    scan true .plain (encode cs ++ '"' :: s) = .ok (cs, s) := by
  induction cs with
  | nil => rw [encode, List.nil_append, scan, if_pos rfl]
  | cons c cs ih => rw [encode, List.append_assoc, scan_encodeChar, ih, keep]

/-- A text is read back. -/
theorem read_encode (t : String) (s : List Char) :
    read (encode t.toList ++ '"' :: s) = .ok (t, s) := by
  simp only [read, scan_encode, String.ofList_toList]

end Quoted

/-! ## Integers -/

/-- No number goes on with these characters. -/
def Stops (s : List Char) : Prop :=
  ∀ c ∈ s.head?, ¬ (isDigit c ∨ c = '.' ∨ c = 'e' ∨ c = 'E')

theorem stops_cons {c : Char} {s : List Char}
    (h : ¬ (isDigit c ∨ c = '.' ∨ c = 'e' ∨ c = 'E')) : Stops (c :: s) := by
  intro d hd
  obtain rfl := Option.some.inj hd
  exact h

theorem isDigit_of_mem_toDigits {n : Nat} {c : Char} (hc : c ∈ Nat.toDigits 10 n) : isDigit c := by
  have hdigit := Nat.isDigit_of_mem_toDigits (by decide) (by decide) hc
  simpa [isDigit, Char.isDigit, Char.le_def] using hdigit

/-- The digits of a number begin with a zero only if the number is zero. -/
theorem eq_zero_of_toDigits {n : Nat} {ds : List Char} (h : Nat.toDigits 10 n = '0' :: ds) :
    n = 0 := by
  induction n using Nat.strongRecOn generalizing ds with
  | ind n ih =>
    rw [Nat.toDigits_eq_if (by decide)] at h
    split at h
    · rename_i hlt
      have hall : ∀ n < 10, Nat.digitChar n = '0' → n = 0 := by decide
      exact hall n hlt (List.cons.inj h).1
    · rename_i hge
      -- the digits of `n / 10` come first
      obtain ⟨c, cs, hcs⟩ :=
        List.exists_cons_of_ne_nil (Nat.toDigits_ne_nil (n := n / 10) (b := 10))
      rw [hcs, List.cons_append] at h
      have hzero := ih (n / 10) (by omega) ((List.cons.inj h).1 ▸ hcs)
      omega

theorem ofDigits_toDigits (n : Nat) : ofDigits (Nat.toDigits 10 n) = n :=
  Nat.ofDigitChars_toDigits (by decide) (by decide)

namespace Number

variable {s : List Char} {atEnd : Fault}

theorem someDigits_toDigits (hs : Stops s) (n : Nat) :
    someDigits atEnd (Nat.toDigits 10 n ++ s) = .ok (Nat.toDigits 10 n, s) := by
  have hdigits : ∀ c ∈ Nat.toDigits 10 n, isDigit c := fun _ => isDigit_of_mem_toDigits
  have hrest : s.takeWhile isDigit = [] ∧ s.dropWhile isDigit = s := by
    cases s with
    | nil => exact ⟨rfl, rfl⟩
    | cons c s =>
      have hc : ¬ isDigit c := fun hc => hs c rfl (Or.inl hc)
      exact ⟨List.takeWhile_cons_of_neg hc, List.dropWhile_cons_of_neg hc⟩
  rw [someDigits, List.takeWhile_append_of_pos hdigits, List.dropWhile_append_of_pos hdigits,
    hrest.1, hrest.2, List.append_nil]
  obtain ⟨c, cs, hcs⟩ := List.exists_cons_of_ne_nil (Nat.toDigits_ne_nil (n := n) (b := 10))
  rw [hcs]

/-- The parts of an integer are its digits. -/
theorem numberText_toDigits (hs : Stops s) (negative : Bool) (n : Nat) :
    numberText atEnd negative (Nat.toDigits 10 n ++ s) =
      .ok (⟨negative, Nat.toDigits 10 n, none, none⟩, s) := by
  have hwhole : wholeDigits atEnd (Nat.toDigits 10 n ++ s) = .ok (Nat.toDigits 10 n, s) := by
    rw [wholeDigits, someDigits_toDigits hs]
    split
    · rename_i hzero
      have hcons := (Prod.mk.inj (Except.ok.inj hzero)).1
      obtain rfl := eq_zero_of_toDigits hcons
      simp [Nat.toDigits, Nat.toDigitsCore] at hcons
    · rfl
  have hfraction : fractionDigits atEnd s = .ok (none, s) := by
    unfold fractionDigits
    split
    · exact absurd (Or.inr (Or.inl rfl)) (hs '.' rfl)
    · rfl
  have hexponent : exponentDigits atEnd s = .ok (none, s) := by
    cases s with
    | nil => rfl
    | cons c s =>
      rw [exponentDigits, if_neg]
      exact fun hc => hs c rfl (Or.inr (Or.inr hc))
  simp only [numberText, hwhole, hfraction, hexponent, bind, Except.bind, pure, Except.pure]

/-- An integer without sign is read back. -/
theorem read_toDigits (hs : Stops s) {n : Nat} (hn : n < 0x10000000000000000)
    (fits : -0x8000000000000000 ≤ (n : Int) ∧ (n : Int) < 0x10000000000000000) :
    read false (Nat.toDigits 10 n ++ s) = .ok (.integer n fits, s) := by
  have hvalue : ofText? ⟨false, Nat.toDigits 10 n, none, none⟩ = some (.integer n fits) := by
    simp [ofText?, ofDigits_toDigits, hn]
  rw [read, numberText_toDigits hs]
  simp only [hvalue]

/-- An integer below zero is read back from the digits after its sign. -/
theorem read_toDigits_negative (hs : Stops s) {n : Nat} (hn : 0 < n ∧ n ≤ 0x8000000000000000)
    (fits : -0x8000000000000000 ≤ -(n : Int) ∧ -(n : Int) < 0x10000000000000000) :
    read true (Nat.toDigits 10 n ++ s) = .ok (.integer (-n) fits, s) := by
  have hvalue : ofText? ⟨true, Nat.toDigits 10 n, none, none⟩ = some (.integer (-n) fits) := by
    simp [ofText?, ofDigits_toDigits, hn]
  rw [read, numberText_toDigits hs]
  simp only [hvalue]

end Number

end KernelGraph
