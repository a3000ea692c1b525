import JobQueue.Settings.Value
import Mathlib.Data.List.TakeWhile
import Mathlib.Tactic

/-! # What a text looks like

The value of a setting is taken from its text before it is known what the setting is for. So a text
that looks like a truth value or like a number is taken for one, and where a text is needed it is
written anew.

* `IsTruth`: `true` or `false` in any case. `IsNumber`: an optional sign, and then digits with an
  optional point and an optional exponent, or a word for what is no finite number. `IsInteger`: the
  integer of a text. `IsLookalike`: one of these.
* `parse?_isSome_iff`, `int?_eq_some_iff`: the readers accept just these.
* `classify_eq_text_iff`: **only a text that looks like neither is taken for a text.**
* `Verbatim`: the text is one of those, or it is spelled as its value is written.
  `asText_classify_iff`: **these arrive as they are.** -/

namespace JobQueue.SettingValue

open Decimal (value)
open Decimal.Extended (splitSign exponent? numeral? parse?)

/-! ### Numerals -/

/-- Nothing, or one of the two signs. -/
def IsSign (cs : List Char) : Prop := cs = [] ∨ cs = ['-'] ∨ cs = ['+']

/-- Decimal digits, at least one. -/
structure IsDigits (cs : List Char) : Prop where
  digit : ∀ c ∈ cs, c.isDigit = true
  nonempty : cs ≠ []

/-- Digits, perhaps with a point before, among or after them. -/
inductive IsMantissa : List Char → Prop
  | whole {ds : List Char} (h : IsDigits ds) : IsMantissa ds
  | pointed {ds fraction : List Char} (h : IsDigits (ds ++ fraction)) :
      IsMantissa (ds ++ '.' :: fraction)

/-- Nothing, or a mark with an integer. -/
inductive IsExponent : List Char → Prop
  | absent : IsExponent []
  | marked {mark : Char} {sign ds : List Char} (hmark : mark = 'e' ∨ mark = 'E')
      (hsign : IsSign sign) (h : IsDigits ds) : IsExponent (mark :: (sign ++ ds))

/-- A number without its sign. -/
inductive IsMagnitude : List Char → Prop
  | word {cs : List Char} (h : lower (String.ofList cs) ∈ ["nan", "inf", "infinity"]) :
      IsMagnitude cs
  | numeral {mantissa exponent : List Char} (hmantissa : IsMantissa mantissa)
      (hexponent : IsExponent exponent) : IsMagnitude (mantissa ++ exponent)

/-- **The text looks like a number.** -/
def IsNumber (s : String) : Prop :=
  ∃ sign magnitude, s.toList = sign ++ magnitude ∧ IsSign sign ∧ IsMagnitude magnitude

/-- **The text looks like an integer**, the one given. -/
def IsInteger (s : String) (n : Int) : Prop :=
  ∃ sign ds, s.toList = sign ++ ds ∧ IsSign sign ∧ IsDigits ds ∧
    n = (if sign = ['-'] then -(value ds : Int) else value ds) ∧ int64Min ≤ n ∧ n ≤ int64Max

/-- **The text looks like a truth value.** -/
def IsTruth (s : String) : Prop := lower s = "true" ∨ lower s = "false"

/-- The text looks like something else than a text. -/
def IsLookalike (s : String) : Prop := IsTruth s ∨ IsNumber s

/-- The text does not begin with a sign. -/
def Unsigned (cs : List Char) : Prop := ∀ c tail, cs = c :: tail → c ≠ '-' ∧ c ≠ '+'

/-! ### Signs -/

theorem splitSign_append {sign rest : List Char} (hsign : IsSign sign) (hrest : Unsigned rest) :
    splitSign (sign ++ rest) = (decide (sign = ['-']), rest) := by
  rcases hsign with rfl | rfl | rfl
  · cases rest with
    | nil => rfl
    | cons c tail =>
      obtain ⟨hminus, hplus⟩ := hrest c tail rfl
      show splitSign (c :: tail) = (false, c :: tail)
      unfold splitSign
      split
      · next heq => exact absurd (List.cons.inj heq).1 hminus
      · next heq => exact absurd (List.cons.inj heq).1 hplus
      · rfl
  · rfl
  · rfl

theorem exists_sign (cs : List Char) : ∃ sign, IsSign sign ∧ cs = sign ++ (splitSign cs).2 ∧
    (splitSign cs).1 = decide (sign = ['-']) := by
  unfold splitSign
  split
  · exact ⟨['-'], .inr (.inl rfl), rfl, rfl⟩
  · exact ⟨['+'], .inr (.inr rfl), rfl, rfl⟩
  · exact ⟨[], .inl rfl, rfl, rfl⟩

theorem isDigits_iff {ds : List Char} :
    IsDigits ds ↔ ¬ (ds.isEmpty = true ∨ (!ds.all Char.isDigit) = true) := by
  rw [not_or, Bool.not_eq_true', Bool.not_eq_false, List.all_eq_true, List.isEmpty_iff]
  exact ⟨fun h => ⟨h.nonempty, h.digit⟩, fun h => ⟨h.2, h.1⟩⟩

theorem unsigned_of_isDigit {c : Char} {tail : List Char} (h : c.isDigit = true) :
    Unsigned (c :: tail) := by
  intro c' tail' heq
  obtain ⟨rfl, -⟩ := List.cons.inj heq
  constructor
  all_goals
    rintro rfl
    cases h

theorem IsDigits.unsigned_append {ds : List Char} (h : IsDigits ds) (rest : List Char) :
    Unsigned (ds ++ rest) := by
  cases ds with
  | nil => exact absurd rfl h.nonempty
  | cons d ds => exact unsigned_of_isDigit (h.digit d List.mem_cons_self)

theorem IsDigits.unsigned {ds : List Char} (h : IsDigits ds) : Unsigned ds := by
  have hunsigned := h.unsigned_append []
  rwa [List.append_nil] at hunsigned

/-! ### The parts of a numeral -/

theorem exponent?_cons (mark : Char) (rest : List Char) : exponent? (mark :: rest) =
    if mark = 'e' ∨ mark = 'E' then
      if (splitSign rest).2.isEmpty ∨ !(splitSign rest).2.all Char.isDigit then none
      else some (if (splitSign rest).1 then -(value (splitSign rest).2 : Int)
        else value (splitSign rest).2)
    else none := rfl

theorem exponent?_isSome_iff {cs : List Char} : (exponent? cs).isSome = true ↔ IsExponent cs := by
  cases cs with
  | nil => exact ⟨fun _ => .absent, fun _ => rfl⟩
  | cons mark rest =>
    rw [exponent?_cons]
    constructor
    · intro h
      split at h
      · next hmark =>
        split at h
        · cases h
        · next hdigits =>
          obtain ⟨sign, hsign, hrest, -⟩ := exists_sign rest
          rw [hrest]
          exact .marked hmark hsign (isDigits_iff.2 hdigits)
      · cases h
    · intro h
      cases h with
      | marked hmark hsign hdigits =>
      rw [if_pos hmark, splitSign_append hsign hdigits.unsigned, if_neg (isDigits_iff.1 hdigits)]
      rfl

theorem IsExponent.takeWhile_append {ds exponent : List Char} (h : IsExponent exponent)
    (hds : ∀ c ∈ ds, c.isDigit = true) : (ds ++ exponent).takeWhile Char.isDigit = ds ∧
      (ds ++ exponent).dropWhile Char.isDigit = exponent := by
  rw [List.takeWhile_append_of_pos hds, List.dropWhile_append_of_pos hds]
  cases h with
  | absent => simp
  | marked hmark _ _ =>
    have hnot : ∀ mark : Char, mark = 'e' ∨ mark = 'E' → mark.isDigit = false := by
      rintro mark (rfl | rfl) <;> rfl
    simp [hnot _ hmark]

theorem numeral?_isSome_of_point {negative : Bool} {cs rest : List Char}
    (h : cs.dropWhile Char.isDigit = '.' :: rest) : (numeral? negative cs).isSome = true ↔
      cs.takeWhile Char.isDigit ++ rest.takeWhile Char.isDigit ≠ [] ∧
        IsExponent (rest.dropWhile Char.isDigit) := by
  have hnumeral : numeral? negative cs =
      if (cs.takeWhile Char.isDigit).isEmpty ∧ (rest.takeWhile Char.isDigit).isEmpty then none
      else (exponent? (rest.dropWhile Char.isDigit)).map fun e =>
        Decimal.Extended.ofDecimal negative
          (value (cs.takeWhile Char.isDigit ++ rest.takeWhile Char.isDigit))
          (e - (rest.takeWhile Char.isDigit).length) := by
    unfold numeral?
    rw [h]
    rfl
  rw [hnumeral, ← exponent?_isSome_iff, ne_eq, List.append_eq_nil_iff, ← List.isEmpty_iff,
    ← List.isEmpty_iff]
  split
  · next hnone => exact ⟨nofun, fun h => absurd hnone h.1⟩
  · next hsome => rw [Option.isSome_map, and_iff_right hsome]

theorem numeral?_isSome_of_no_point {negative : Bool} {cs : List Char}
    (h : ∀ rest, cs.dropWhile Char.isDigit ≠ '.' :: rest) : (numeral? negative cs).isSome = true ↔
      cs.takeWhile Char.isDigit ≠ [] ∧ IsExponent (cs.dropWhile Char.isDigit) := by
  have hnumeral : numeral? negative cs =
      if (cs.takeWhile Char.isDigit).isEmpty ∧ ([] : List Char).isEmpty then none
      else (exponent? (cs.dropWhile Char.isDigit)).map fun e =>
        Decimal.Extended.ofDecimal negative (value (cs.takeWhile Char.isDigit ++ []))
          (e - ([] : List Char).length) := by
    unfold numeral?
    generalize cs.dropWhile Char.isDigit = rest at h
    dsimp only
    split
    · next tail => exact absurd rfl (h tail)
    · rfl
  rw [hnumeral, ← exponent?_isSome_iff, ne_eq, ← List.isEmpty_iff]
  split
  · next hnone => exact ⟨nofun, fun h => absurd hnone.1 h.1⟩
  · next hsome => rw [Option.isSome_map, and_iff_right fun hnone => hsome ⟨hnone, rfl⟩]

theorem isDigit_of_mem_takeWhile {cs : List Char} :
    ∀ c ∈ cs.takeWhile Char.isDigit, c.isDigit = true := fun _ hc => List.mem_takeWhile_imp hc

/-- **A numeral is a mantissa and an exponent.** -/
theorem numeral?_isSome_iff {negative : Bool} {cs : List Char} :
    (numeral? negative cs).isSome = true ↔ ∃ mantissa exponent, cs = mantissa ++ exponent ∧
      IsMantissa mantissa ∧ IsExponent exponent := by
  constructor
  · intro h
    have hsplit := (List.takeWhile_append_dropWhile (p := Char.isDigit) (l := cs)).symm
    by_cases hpoint : ∃ rest, cs.dropWhile Char.isDigit = '.' :: rest
    · obtain ⟨rest, hrest⟩ := hpoint
      obtain ⟨hsome, hexponent⟩ := (numeral?_isSome_of_point hrest).1 h
      refine ⟨_, _, ?_, .pointed ⟨fun c hc => ?_, hsome⟩, hexponent⟩
      · rw [List.append_assoc, List.cons_append, List.takeWhile_append_dropWhile, ← hrest]
        exact hsplit
      · rcases List.mem_append.1 hc with hc | hc
        · exact isDigit_of_mem_takeWhile c hc
        · exact isDigit_of_mem_takeWhile c hc
    · obtain ⟨hsome, hexponent⟩ :=
        (numeral?_isSome_of_no_point fun rest hrest => hpoint ⟨rest, hrest⟩).1 h
      exact ⟨_, _, hsplit, .whole ⟨isDigit_of_mem_takeWhile, hsome⟩, hexponent⟩
  · rintro ⟨mantissa, exponent, rfl, hmantissa, hexponent⟩
    cases hmantissa with
    | whole hdigits =>
      obtain ⟨htake, hdrop⟩ := hexponent.takeWhile_append hdigits.digit
      refine (numeral?_isSome_of_no_point fun rest hrest => ?_).2 ⟨?_, ?_⟩
      · rw [hdrop] at hrest
        subst hrest
        cases hexponent with
        | marked hmark => simp at hmark
      · rw [htake]
        exact hdigits.nonempty
      · rw [hdrop]
        exact hexponent
    | @pointed ds fraction hdigits =>
      have hds : ∀ c ∈ ds, c.isDigit = true := fun c hc =>
        hdigits.digit c (List.mem_append_left _ hc)
      have hfraction : ∀ c ∈ fraction, c.isDigit = true := fun c hc =>
        hdigits.digit c (List.mem_append_right _ hc)
      obtain ⟨htake, hdrop⟩ := hexponent.takeWhile_append hfraction
      have hrest : (ds ++ '.' :: fraction ++ exponent).dropWhile Char.isDigit =
          '.' :: (fraction ++ exponent) := by
        rw [List.append_assoc, List.dropWhile_append_of_pos hds]
        rfl
      have hwhole : (ds ++ '.' :: fraction ++ exponent).takeWhile Char.isDigit = ds := by
        rw [List.append_assoc, List.takeWhile_append_of_pos hds]
        exact List.append_nil ds
      refine (numeral?_isSome_of_point hrest).2 ⟨?_, ?_⟩
      · rw [hwhole, htake]
        exact hdigits.nonempty
      · rw [hdrop]
        exact hexponent

/-! ### Numbers -/

theorem lower_ofList (cs : List Char) :
    lower (String.ofList cs) = String.ofList (cs.map Char.toLower) := by
  unfold lower
  rw [String.toList_ofList]

theorem IsMantissa.unsigned_append {mantissa : List Char} (h : IsMantissa mantissa)
    (rest : List Char) : Unsigned (mantissa ++ rest) := by
  cases h with
  | whole h => exact h.unsigned_append rest
  | @pointed ds fraction h =>
    cases ds with
    | nil =>
      intro c tail heq
      obtain ⟨rfl, -⟩ := List.cons.inj heq
      exact ⟨by decide, by decide⟩
    | cons d ds => exact unsigned_of_isDigit (h.digit d List.mem_cons_self)

theorem unsigned_of_word {cs : List Char}
    (h : lower (String.ofList cs) ∈ ["nan", "inf", "infinity"]) : Unsigned cs := by
  rintro c tail rfl
  rw [lower_ofList] at h
  constructor
  all_goals
    rintro rfl
    revert h
    simp [String.ext_iff]

theorem IsMagnitude.unsigned {cs : List Char} (h : IsMagnitude cs) : Unsigned cs := by
  cases h with
  | word h => exact unsigned_of_word h
  | numeral hmantissa _ => exact hmantissa.unsigned_append _

/-- **A number is a magnitude behind its sign.** -/
theorem parse?_isSome_of_splitSign {cs rest : List Char} {negative : Bool}
    (h : splitSign cs = (negative, rest)) : (parse? cs).isSome = true ↔ IsMagnitude rest := by
  have hparse : parse? cs =
      if lower (String.ofList rest) = "nan" then some .nan
      else if lower (String.ofList rest) = "inf" ∨ lower (String.ofList rest) = "infinity" then
        some (.infinite negative)
      else numeral? negative rest := by
    unfold parse?
    rw [h, lower_ofList]
  rw [hparse]
  split
  · next hword => exact iff_of_true rfl (.word (by rw [hword]; decide))
  · next hnan =>
    split
    · next hword => exact iff_of_true rfl (.word (by rcases hword with h | h <;> rw [h] <;> decide))
    · next hinfinite =>
      rw [numeral?_isSome_iff]
      constructor
      · rintro ⟨mantissa, exponent, rfl, hmantissa, hexponent⟩
        exact .numeral hmantissa hexponent
      · intro hmagnitude
        cases hmagnitude with
        | word hword => simp_all
        | numeral hmantissa hexponent => exact ⟨_, _, rfl, hmantissa, hexponent⟩

/-- **The texts that are read as numbers.** -/
theorem parse?_isSome_iff {s : String} : (parse? s.toList).isSome = true ↔ IsNumber s := by
  constructor
  · intro h
    obtain ⟨sign, hsign, hs, -⟩ := exists_sign s.toList
    exact ⟨sign, _, hs, hsign, (parse?_isSome_of_splitSign rfl).1 h⟩
  · rintro ⟨sign, magnitude, hs, hsign, hmagnitude⟩
    rw [hs]
    exact (parse?_isSome_of_splitSign (splitSign_append hsign hmagnitude.unsigned)).2 hmagnitude

theorem int?_eq_some_of_splitSign {s : String} {ds : List Char} {negative : Bool} {n : Int}
    (h : splitSign s.toList = (negative, ds)) : int? s = some n ↔
      IsDigits ds ∧ n = (if negative then -(value ds : Int) else value ds) ∧
        int64Min ≤ n ∧ n ≤ int64Max := by
  unfold int?
  rw [h, isDigits_iff]
  dsimp only
  generalize (if negative then -(value ds : Int) else value ds) = m
  split
  · next hempty => exact iff_of_false nofun fun hdigits => hdigits.1 hempty
  · next hdigits =>
    rw [and_iff_right hdigits]
    split
    · next hrange =>
      rw [Option.some.injEq]
      constructor
      · rintro rfl
        exact ⟨rfl, hrange⟩
      · exact fun heq => heq.1.symm
    · next hrange =>
      refine iff_of_false nofun ?_
      rintro ⟨rfl, hn⟩
      exact hrange hn

/-- **The texts that are read as integers.** -/
theorem int?_eq_some_iff {s : String} {n : Int} : int? s = some n ↔ IsInteger s n := by
  constructor
  · intro h
    obtain ⟨sign, hsign, hs, hnegative⟩ := exists_sign s.toList
    rcases hsplit : splitSign s.toList with ⟨negative, ds⟩
    rw [hsplit] at hs hnegative
    obtain ⟨hdigits, hn, hrange⟩ := (int?_eq_some_of_splitSign hsplit).1 h
    obtain rfl : negative = decide (sign = ['-']) := hnegative
    exact ⟨sign, ds, hs, hsign, hdigits, by simpa only [decide_eq_true_eq] using hn, hrange⟩
  · rintro ⟨sign, ds, hs, hsign, hdigits, hn, hrange⟩
    have hsplit : splitSign s.toList = (decide (sign = ['-']), ds) := by
      rw [hs]
      exact splitSign_append hsign hdigits.unsigned
    refine (int?_eq_some_of_splitSign hsplit).2 ⟨hdigits, ?_, hrange⟩
    simpa only [decide_eq_true_eq] using hn

theorem isNumber_of_isInteger {s : String} {n : Int} (h : IsInteger s n) : IsNumber s := by
  obtain ⟨sign, ds, hs, hsign, hdigits, -⟩ := h
  refine ⟨sign, ds, hs, hsign, ?_⟩
  have hnumeral := IsMagnitude.numeral (.whole hdigits) .absent
  rwa [List.append_nil] at hnumeral

/-! ### No commas -/

theorem comma_not_mem_of_digits {ds : List Char} (h : ∀ c ∈ ds, c.isDigit = true) : ',' ∉ ds :=
  fun hmem => by cases h ',' hmem

theorem IsSign.comma_not_mem {sign : List Char} (h : IsSign sign) : ',' ∉ sign := by
  rcases h with rfl | rfl | rfl <;> decide

theorem IsMantissa.comma_not_mem {mantissa : List Char} (h : IsMantissa mantissa) :
    ',' ∉ mantissa := by
  cases h with
  | whole h => exact comma_not_mem_of_digits h.digit
  | pointed h =>
    have hdigits := comma_not_mem_of_digits h.digit
    simp_all

theorem IsExponent.comma_not_mem {exponent : List Char} (h : IsExponent exponent) :
    ',' ∉ exponent := by
  cases h with
  | absent => exact List.not_mem_nil
  | marked hmark hsign h =>
    have hdigits := comma_not_mem_of_digits h.digit
    have hnot := hsign.comma_not_mem
    rcases hmark with rfl | rfl <;> simp_all

theorem comma_not_mem_of_lower {s word : String} (h : lower s = word) (hword : ',' ∉ word.toList) :
    ',' ∉ s.toList := by
  intro hmem
  refine hword ?_
  rw [← h]
  unfold lower
  rw [String.toList_ofList]
  exact List.mem_map_of_mem (f := Char.toLower) hmem

theorem IsNumber.comma_not_mem {s : String} (h : IsNumber s) : ',' ∉ s.toList := by
  obtain ⟨sign, magnitude, hs, hsign, hmagnitude⟩ := h
  rw [hs, List.mem_append, not_or]
  refine ⟨hsign.comma_not_mem, ?_⟩
  cases hmagnitude with
  | word hword =>
    have hnot : ∀ word ∈ ["nan", "inf", "infinity"], ',' ∉ word.toList := by decide
    have hmagnitude := comma_not_mem_of_lower rfl (hnot _ hword)
    rwa [String.toList_ofList] at hmagnitude
  | numeral hmantissa hexponent =>
    rw [List.mem_append, not_or]
    exact ⟨hmantissa.comma_not_mem, hexponent.comma_not_mem⟩

/-- **What looks like one value is not a list.** -/
theorem IsLookalike.comma_not_mem {s : String} (h : IsLookalike s) : ',' ∉ s.toList := by
  rcases h with (h | h) | h
  · exact comma_not_mem_of_lower h (by decide)
  · exact comma_not_mem_of_lower h (by decide)
  · exact h.comma_not_mem

/-! ### The kinds -/

theorem bool?_isSome_iff {s : String} : (bool? s).isSome = true ↔ IsTruth s := by
  unfold bool? IsTruth
  split
  · next h => exact iff_of_true rfl (.inl h)
  · next htrue =>
    split
    · next h => exact iff_of_true rfl (.inr h)
    · next hfalse => exact iff_of_false nofun fun h => h.elim htrue hfalse

/-- **What is taken for a text** looks like nothing else, and stays as it is. -/
theorem classify_eq_text_iff {s t : String} :
    classify s = .text t ↔ ¬ IsLookalike s ∧ t = s := by
  unfold IsLookalike
  rw [not_or, ← bool?_isSome_iff, ← parse?_isSome_iff]
  unfold classify
  split
  · next hbool => simp [hbool]
  · next hbool =>
    split
    · next n hint =>
      have hnumber := parse?_isSome_iff.2 (isNumber_of_isInteger (int?_eq_some_iff.1 hint))
      simp [hnumber]
    · split
      · next hnumber => simp [hnumber]
      · next hnumber => simp [hbool, hnumber, eq_comm]

/-- **A text that arrives as it is**: what it looks like is written as it is spelled. -/
structure Verbatim (s : String) : Prop where
  truth : IsTruth s → s = "true" ∨ s = "false"
  integer : ∀ n, IsInteger s n → s = String.ofList (Decimal.ofInt n)
  number : (∀ n, ¬ IsInteger s n) → ∀ x, parse? s.toList = some x → s = x.text

/-- **The texts that arrive as they are.** -/
theorem asText_classify_iff {s : String} : (classify s).asText = s ↔ Verbatim s := by
  constructor
  · intro h
    have htruth : IsTruth s → s = "true" ∨ s = "false" := by
      intro htruth
      obtain ⟨b, hb⟩ := Option.isSome_iff_exists.1 (bool?_isSome_iff.2 htruth)
      unfold classify at h
      rw [hb] at h
      cases b with
      | true => exact .inl h.symm
      | false => exact .inr h.symm
    -- The two words are no numbers, so a number that arrives is taken for one.
    have hbool : IsNumber s → bool? s = none := by
      intro hnumber
      rw [← parse?_isSome_iff] at hnumber
      by_contra hsome
      rcases htruth (bool?_isSome_iff.1 (Option.isSome_iff_ne_none.2 hsome)) with rfl | rfl
      · exact absurd hnumber (by decide)
      · exact absurd hnumber (by decide)
    refine ⟨htruth, fun n hinteger => ?_, fun hinteger x hnumber => ?_⟩
    · unfold classify at h
      rw [hbool (isNumber_of_isInteger hinteger), int?_eq_some_iff.2 hinteger] at h
      exact h.symm
    · have hint : int? s = none :=
        Option.eq_none_iff_forall_ne_some.2 fun n hn => hinteger n (int?_eq_some_iff.1 hn)
      unfold classify at h
      rw [hbool (parse?_isSome_iff.1 (by rw [hnumber]; rfl)), hint, hnumber] at h
      exact h.symm
  · rintro ⟨htruth, hinteger, hnumber⟩
    unfold classify
    split
    · next b hb =>
      rcases htruth (bool?_isSome_iff.1 (by rw [hb]; rfl)) with rfl | rfl
      · obtain rfl : true = b := Option.some.inj hb
        rfl
      · obtain rfl : false = b := Option.some.inj hb
        rfl
    · split
      · next n hint => exact (hinteger n (int?_eq_some_iff.1 hint)).symm
      · next hint =>
        split
        · next x hx =>
          refine (hnumber (fun n hn => ?_) x hx).symm
          rw [int?_eq_some_iff.2 hn] at hint
          cases hint
        · rfl

end JobQueue.SettingValue
