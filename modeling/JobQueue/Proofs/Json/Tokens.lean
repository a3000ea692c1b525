import JobQueue.Json.Reader
import JobQueue.Json.Writer
import Mathlib.Tactic

/-! # Strings and integers read back

What the writer puts down for a string or an integer is read as that string or integer, whatever
follows, as long as a numeral is followed by something that ends it (`Ends`: a comma, a closing
bracket, a closing brace, or nothing).

* `readString_escaped`: the body of a string up to its closing quote. One character of the string is
  one step of the reader (`readStringRest_escapeChar`), also where it is written as an escape.
* `readNumber_digits`, `readScalar_ofInt`: the numeral of an integer between `-2 ^ 63` and
  `2 ^ 64 - 1`. The significand takes all its digits (`significand_eq`), and a numeral has no
  leading zero (`head?_digits_ne_zero`). -/

namespace JobQueue.Json

open Text.hexDigits (hexDigit)

/-! ### Strings -/

theorem hexDigits_of_lt {n : Nat} (h : n < 16) : Text.hexDigits n = [hexDigit n] := by
  unfold Text.hexDigits
  rw [if_pos h]

theorem hexDigits_of_le_of_lt {n : Nat} (h : 16 ≤ n) (h' : n < 32) :
    Text.hexDigits n = [hexDigit (n / 16), hexDigit (n % 16)] := by
  unfold Text.hexDigits
  rw [if_neg (by omega), hexDigits_of_lt (by omega)]
  rfl

theorem hexValue?_hexDigit {d : Nat} (h : d < 16) : hexValue? (hexDigit d) = some d := by
  have below : ∀ d, d < 16 → hexValue? (hexDigit d) = some d := by decide
  exact below d h

theorem readUnicode_low {a b : Char} {x y : Nat} (ha : hexValue? a = some x)
    (hb : hexValue? b = some y) (hx : x < 16) (hy : y < 16) (rest : List Char) :
    readUnicode ('0' :: '0' :: a :: b :: rest) = some (Char.ofNat (x * 16 + y), rest) := by
  have h0 : hexValue? '0' = some 0 := by decide
  have hhex : readHex4 ('0' :: '0' :: a :: b :: rest) = some (x * 16 + y, rest) := by
    simp [readHex4, h0, ha, hb]
  have h1 : ¬ (0xD800 ≤ x * 16 + y ∧ x * 16 + y ≤ 0xDBFF) := by omega
  have h2 : ¬ (0xDC00 ≤ x * 16 + y ∧ x * 16 + y ≤ 0xDFFF) := by omega
  simp only [readUnicode, hhex, Option.bind_eq_bind, Option.bind_some, if_neg h1, if_neg h2]

/-- **One character of a string** is one step of the reader. -/
theorem readStringRest_escapeChar (fuel : Nat) (taken : List Char) (c : Char) (rest : List Char) :
    readStringRest (fuel + 1) taken (escapeChar c ++ rest) =
      readStringRest fuel (c :: taken) rest := by
  have unicode : ∀ {a b : Char} {x y : Nat}, hexValue? a = some x → hexValue? b = some y →
      x < 16 → y < 16 → c.toNat = x * 16 + y →
      readStringRest (fuel + 1) taken ('\\' :: 'u' :: '0' :: '0' :: a :: b :: rest) =
        readStringRest fuel (c :: taken) rest := by
    intro a b x y ha hb hx hy hc
    have hu := readUnicode_low ha hb hx hy rest
    rw [← hc, Char.ofNat_toNat] at hu
    simp [readStringRest, readEscape, hu]
  unfold escapeChar
  split
  · subst_vars; simp [readStringRest, readEscape]
  split
  · subst_vars; simp [readStringRest, readEscape]
  split
  · subst_vars; simp [readStringRest, readEscape]
  split
  · subst_vars; simp [readStringRest, readEscape]
  split
  · subst_vars; simp [readStringRest, readEscape]
  split
  · next h =>
    obtain rfl : c = Char.ofNat 8 := by rw [← h, Char.ofNat_toNat]
    simp [readStringRest, readEscape]
  split
  · next h =>
    obtain rfl : c = Char.ofNat 12 := by rw [← h, Char.ofNat_toNat]
    simp [readStringRest, readEscape]
  split
  · next h =>
    rw [hexDigits_of_lt h]
    exact unicode (x := 0) (by decide) (hexValue?_hexDigit h) (by omega) h (by omega)
  split
  · next h h' =>
    rw [hexDigits_of_le_of_lt (by omega) h']
    exact unicode (hexValue?_hexDigit (by omega)) (hexValue?_hexDigit (by omega)) (by omega)
      (by omega) (by omega)
  · next hquote hslash _ _ _ _ _ _ h =>
    simp [readStringRest, hquote, hslash, h]

theorem readStringRest_escaped : ∀ (cs : List Char) (fuel : Nat) (taken rest : List Char),
    cs.length < fuel →
      readStringRest fuel taken (cs.flatMap escapeChar ++ '"' :: rest) =
        some (String.ofList (taken.reverse ++ cs), rest)
  | [], fuel + 1, taken, rest, _ => by simp [readStringRest]
  | c :: cs, fuel + 1, taken, rest, h => by
    have hlen : cs.length < fuel := by simpa using h
    rw [List.flatMap_cons, List.append_assoc, readStringRest_escapeChar,
      readStringRest_escaped cs fuel (c :: taken) rest hlen]
    simp

theorem length_le_flatMap_escapeChar (cs : List Char) :
    cs.length ≤ (cs.flatMap escapeChar).length := by
  induction cs with
  | nil => simp
  | cons c cs ih =>
    have hc : 0 < (escapeChar c).length := by
      unfold escapeChar
      split_ifs <;> simp
    simp only [List.flatMap_cons, List.length_append, List.length_cons]
    omega

/-- **A string reads back**, from the character after its opening quote. -/
theorem readString_escaped (s : String) (rest : List Char) :
    readString (s.toList.flatMap escapeChar ++ '"' :: rest) = some (s, rest) := by
  have hlen := length_le_flatMap_escapeChar s.toList
  unfold readString
  rw [readStringRest_escaped _ _ _ _ (by rw [List.length_append]; omega)]
  simp

/-! ### Integers -/

/-- The text after a value ends a numeral. -/
def Ends (rest : List Char) : Prop :=
  ∀ c tail, rest = c :: tail → c = ',' ∨ c = ']' ∨ c = '\x7d'

theorem ends_comma (tail : List Char) : Ends (',' :: tail) := fun _ _ h => by cases h; simp

theorem ends_bracket (tail : List Char) : Ends (']' :: tail) := fun _ _ h => by cases h; simp

theorem ends_brace (tail : List Char) : Ends ('\x7d' :: tail) := fun _ _ h => by cases h; simp

theorem takeWhile_digits_append {ds rest : List Char} (hds : ∀ c ∈ ds, c.isDigit = true)
    (h : Ends rest) : (ds ++ rest).takeWhile Char.isDigit = ds ∧
      (ds ++ rest).dropWhile Char.isDigit = rest := by
  rw [List.takeWhile_append_of_pos hds, List.dropWhile_append_of_pos hds]
  cases rest with
  | nil => simp
  | cons c tail =>
    have hc : c.isDigit = false := by
      rcases h c tail rfl with rfl | rfl | rfl <;> decide
    simp [hc]

theorem le_foldl_digits (ds : List Char) :
    ∀ n, n ≤ ds.foldl (fun n c => 10 * n + Decimal.digitValue c) n := by
  induction ds with
  | nil => intro n; exact Nat.le_refl n
  | cons d ds ih =>
    intro n
    have := ih (10 * n + Decimal.digitValue d)
    rw [List.foldl_cons]
    omega

theorem significand_eq (ds : List Char) :
    ∀ n, ds.foldl (fun n c => 10 * n + Decimal.digitValue c) n ≤ maxUnsigned →
      significand n ds = (ds.foldl (fun n c => 10 * n + Decimal.digitValue c) n, 0) := by
  induction ds with
  | nil => intro n _; rfl
  | cons d ds ih =>
    intro n h
    rw [List.foldl_cons] at h ⊢
    have hm := le_foldl_digits ds (10 * n + Decimal.digitValue d)
    unfold significand
    rw [if_pos (by omega), ih _ h]

theorem significand_digits {n : Nat} (h : n ≤ maxUnsigned) :
    significand 0 (Decimal.digits n) = (n, 0) := by
  have hv : (Decimal.digits n).foldl (fun n c => 10 * n + Decimal.digitValue c) 0 = n :=
    Decimal.value_digits n
  rw [significand_eq _ _ (by omega), hv]

theorem head?_digits_ne_zero {n : Nat} (h : 0 < n) : (Decimal.digits n).head? ≠ some '0' := by
  induction n using Nat.strongRecOn with
  | ind n ih =>
    have below : ∀ d, d < 10 → 0 < d → Decimal.digitChar d ≠ '0' := by decide
    unfold Decimal.digits
    split
    · next hn => simpa using below n hn h
    · next hn =>
      obtain ⟨d, ds, hds⟩ := List.exists_cons_of_ne_nil (Decimal.digits_ne_nil (n / 10))
      have hd := ih (n / 10) (by omega) (by omega)
      rw [hds] at hd ⊢
      exact hd

theorem digits_no_leading_zero (n : Nat) :
    ¬ ((Decimal.digits n).head? = some '0' ∧ 1 < (Decimal.digits n).length) := by
  rintro ⟨hzero, hlen⟩
  rcases Nat.eq_zero_or_pos n with rfl | hn
  · simp [Decimal.digits] at hlen
  · exact head?_digits_ne_zero hn hzero

theorem readNumber_digits (negative : Bool) {n : Nat} (h : n ≤ maxUnsigned) {rest : List Char}
    (hrest : Ends rest) :
    readNumber negative (Decimal.digits n ++ rest) =
      (integer? negative n 0).map (·, rest) := by
  obtain ⟨htake, hdrop⟩ :=
    takeWhile_digits_append (fun _ hc => Decimal.isDigit_of_mem_digits (n := n) hc) hrest
  have hempty : ¬ ((Decimal.digits n).isEmpty = true ∨
      ((Decimal.digits n).head? = some '0' ∧ 1 < (Decimal.digits n).length)) := by
    rintro (h | h)
    · exact Decimal.digits_ne_nil n (List.isEmpty_iff.1 h)
    · exact digits_no_leading_zero n h
  unfold readNumber
  simp only [htake, hdrop, significand_digits h, if_neg hempty]
  cases rest with
  | nil => rfl
  | cons c tail =>
    have hc := hrest c tail rfl
    have he : ¬ (c = 'e' ∨ c = 'E') := by
      rcases hc with rfl | rfl | rfl <;> decide
    split
    · next heq =>
      obtain ⟨rfl, -⟩ := List.cons.inj heq
      rcases hc with hc | hc | hc <;> exact absurd hc (by decide)
    · next heq =>
      obtain ⟨rfl, rfl⟩ := List.cons.inj heq
      rw [if_neg he]
    · next heq => cases heq

theorem readScalar_digit {d : Char} (hd : d.isDigit = true) (tail : List Char) :
    readScalar (d :: tail) = readNumber false (d :: tail) := by
  unfold readScalar
  split <;> first | rfl | skip
  all_goals
    next heq =>
    obtain ⟨rfl, -⟩ := List.cons.inj heq
    exact absurd hd (by decide)

/-- **An integer reads back** if it is one of those that are read as integers. -/
theorem readScalar_ofInt {n : Int} (hlow : -9223372036854775808 ≤ n)
    (hhigh : n ≤ 18446744073709551615) {rest : List Char} (hrest : Ends rest) :
    readScalar (Decimal.ofInt n ++ rest) = some (.int n, rest) := by
  unfold Decimal.ofInt
  split
  · next hn =>
    have hint : integer? true n.natAbs 0 = some (.int n) := by
      unfold integer?
      rw [if_neg (by simp), if_pos ⟨rfl, by omega, by omega⟩]
      congr 2
      omega
    show readNumber true (Decimal.digits n.natAbs ++ rest) = some (.int n, rest)
    rw [readNumber_digits true (by unfold maxUnsigned; omega) hrest, hint]
    rfl
  · next hn =>
    have hint : integer? false n.natAbs 0 = some (.int n) := by
      unfold integer?
      rw [if_pos (by simp)]
      congr 2
      omega
    obtain ⟨d, ds, hds⟩ := List.exists_cons_of_ne_nil (Decimal.digits_ne_nil n.natAbs)
    have hd : d.isDigit = true :=
      Decimal.isDigit_of_mem_digits (n := n.natAbs) (by rw [hds]; exact List.mem_cons_self)
    have hread := readNumber_digits false (n := n.natAbs) (by unfold maxUnsigned; omega) hrest
    rw [hint, hds] at hread
    rw [hds, List.cons_append, readScalar_digit hd]
    exact hread

end JobQueue.Json
