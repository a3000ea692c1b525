import JobQueue.Proofs.Json.Tokens
import Mathlib.Data.String.Basic

/-! # Objects read back

An object that is written as text and read again is the same object, under four conditions
(`Fields.Plain`): it is a map, as payloads and results always are, so that names increase and
integers are in range in every part of it; it has no floating-point number; it is not too deep for
the reader; and no object inside it begins with the name that stands for an embedded document.

* `everywhere`: a test of a value and of all values in it; `induct`: the induction over values.
* `readItems_write`, `readMembers_write`: a list of items, a list of members, given a reader that
  reads each of them back. Members come in increasing order, so each is put at the end
  (`Fields.put_of_forall_lt`).
* `readValue_write`: a value, whatever ends it.
* `parseFields?_text`: **an object reads back.** -/

namespace JobQueue

theorem Fields.put_of_forall_lt {k : String} (v : Json) {fields : Fields}
    (h : ∀ m ∈ fields, m.1 < k) : Fields.put k v fields = fields ++ [(k, v)] := by
  induction fields with
  | nil => rfl
  | cons m rest ih =>
    have hm : m.1 < k := h m List.mem_cons_self
    unfold Fields.put
    rw [if_neg (lt_asymm hm), if_neg (ne_of_gt hm),
      ih fun m' hm' => h m' (List.mem_cons_of_mem m hm')]
    rfl

namespace Json

/-- Induction over values: a list after its items, an object after its members. -/
theorem induct {P : Json → Prop} (null : P .null) (bool : ∀ b, P (.bool b)) (int : ∀ n, P (.int n))
    (float : ∀ x, P (.float x)) (str : ∀ s, P (.str s))
    (arr : ∀ items : List Json, (∀ v ∈ items, P v) → P (.arr items))
    (obj : ∀ fields : Fields, (∀ m ∈ fields, P m.2) → P (.obj fields)) (v : Json) : P v := by
  refine @Json.rec P (fun items => ∀ v ∈ items, P v) (fun fields => ∀ m ∈ fields, P m.2)
    (fun m => P m.2) null bool int float str arr obj ?_ ?_ ?_ ?_ ?_ v
  · intro v hv; cases hv
  · intro v items hv hitems u hu
    rcases List.mem_cons.1 hu with rfl | hu
    · exact hv
    · exact hitems u hu
  · intro m hm; cases hm
  · intro m fields hm hfields m' hm'
    rcases List.mem_cons.1 hm' with rfl | hm'
    · exact hm
    · exact hfields m' hm'
  · intro k v hv; exact hv

mutual

/-- The test holds of the value and of every value in it. -/
def everywhere (p : Json → Bool) : Json → Bool
  | .arr items => p (.arr items) && everywhereItems p items
  | .obj fields => p (.obj fields) && everywhereFields p fields
  | v => p v

/-- The test holds everywhere in a list. -/
def everywhereItems (p : Json → Bool) : List Json → Bool
  | [] => true
  | v :: rest => everywhere p v && everywhereItems p rest

/-- The test holds everywhere in the members. -/
def everywhereFields (p : Json → Bool) : List (String × Json) → Bool
  | [] => true
  | (_, v) :: rest => everywhere p v && everywhereFields p rest

end

theorem everywhereItems_iff {p : Json → Bool} {items : List Json} :
    everywhereItems p items = true ↔ ∀ v ∈ items, everywhere p v = true := by
  induction items with
  | nil => simp [everywhereItems]
  | cons v rest ih => simp [everywhereItems, ih]

theorem everywhereFields_iff {p : Json → Bool} {fields : Fields} :
    everywhereFields p fields = true ↔ ∀ m ∈ fields, everywhere p m.2 = true := by
  induction fields with
  | nil => simp [everywhereFields]
  | cons m rest ih => simp [everywhereFields, ih]

theorem floatFreeItems_iff {items : List Json} :
    floatFreeItems items = true ↔ ∀ v ∈ items, floatFree v = true := by
  induction items with
  | nil => simp [floatFreeItems]
  | cons v rest ih => simp [floatFreeItems, ih]

theorem floatFreeFields_iff {fields : Fields} :
    floatFreeFields fields = true ↔ ∀ m ∈ fields, floatFree m.2 = true := by
  induction fields with
  | nil => simp [floatFreeFields]
  | cons m rest ih => simp [floatFreeFields, ih]

theorem depthItems_le_iff {items : List Json} {d : Nat} :
    depthItems items ≤ d ↔ ∀ v ∈ items, depth v ≤ d := by
  induction items with
  | nil => simp [depthItems]
  | cons v rest ih => simp [depthItems, ih]

theorem depthFields_le_iff {fields : Fields} {d : Nat} :
    depthFields fields ≤ d ↔ ∀ m ∈ fields, depth m.2 ≤ d := by
  induction fields with
  | nil => simp [depthFields]
  | cons m rest ih => simp [depthFields, ih]

/-! ### Plain objects -/

/-- An integer is in range; the names of an object increase. -/
def isProper : Json → Bool
  | .int n => decide (-9223372036854775808 ≤ n ∧ n ≤ 18446744073709551615)
  | .obj fields => decide (fields.Pairwise fun a b => a.1 < b.1)
  | _ => true

/-- The first name of an object is the one that stands for an embedded document. -/
def isEmbedding : Json → Bool
  | .obj ((k, _) :: _) => k == embeddingName
  | _ => false

end Json

/-- **An object that reads back.** -/
structure Fields.Plain (fields : Fields) : Prop where
  /-- The object is a map. -/
  proper : (Json.obj fields).everywhere Json.isProper = true
  floatFree : (Json.obj fields).floatFree = true
  shallow : (Json.obj fields).depth ≤ Json.maxDepth
  /-- No object inside it stands for an embedded document. -/
  unembedded : Json.everywhereFields (fun v => !v.isEmbedding) fields = true

namespace Json

/-- What the reader needs to know of a value inside a plain object. -/
structure Readable (v : Json) (depth : Nat) : Prop where
  proper : v.everywhere isProper = true
  floatFree : v.floatFree = true
  shallow : v.depth ≤ depth
  unembedded : v.everywhere (fun v => !v.isEmbedding) = true

theorem Readable.item {items : List Json} {d : Nat} (h : (Json.arr items).Readable (d + 1))
    {v : Json} (hv : v ∈ items) : v.Readable d := by
  obtain ⟨hp, hf, hd, hu⟩ := h
  simp only [everywhere, Bool.and_eq_true, everywhereItems_iff] at hp hu
  simp only [Json.floatFree, floatFreeItems_iff] at hf
  rw [depth_arr, Nat.add_le_add_iff_right, depthItems_le_iff] at hd
  exact ⟨hp.2 v hv, hf v hv, hd v hv, hu.2 v hv⟩

theorem Readable.member {fields : Fields} {d : Nat} (h : (Json.obj fields).Readable (d + 1))
    {m : String × Json} (hm : m ∈ fields) : m.2.Readable d := by
  obtain ⟨hp, hf, hd, hu⟩ := h
  simp only [everywhere, Bool.and_eq_true, everywhereFields_iff] at hp hu
  simp only [Json.floatFree, floatFreeFields_iff] at hf
  rw [depth_obj, Nat.add_le_add_iff_right, depthFields_le_iff] at hd
  exact ⟨hp.2 m hm, hf m hm, hd m hm, hu.2 m hm⟩

theorem Readable.increasing {fields : Fields} {d : Nat} (h : (Json.obj fields).Readable d) :
    fields.Pairwise fun a b => a.1 < b.1 := by
  have hp := h.proper
  simp only [everywhere, Bool.and_eq_true, isProper, decide_eq_true_eq] at hp
  exact hp.1

/-! ### What a value begins with -/

theorem skipBlank_cons {c : Char} (h : isBlank c = false) (tail : List Char) :
    skipBlank (c :: tail) = c :: tail := by
  simp [skipBlank, h]

theorem exists_ofInt_eq_cons (n : Int) :
    ∃ c tail, Decimal.ofInt n = c :: tail ∧ isBlank c = false ∧ c ≠ '[' ∧ c ≠ '\x7b' ∧ c ≠ ']' := by
  by_cases hn : n < 0
  · exact ⟨'-', Decimal.digits n.natAbs, by rw [Decimal.ofInt, if_pos hn], by decide, by decide,
      by decide, by decide⟩
  · obtain ⟨d, ds, hds⟩ := List.exists_cons_of_ne_nil (Decimal.digits_ne_nil n.natAbs)
    have hd : d.isDigit = true :=
      Decimal.isDigit_of_mem_digits (n := n.natAbs) (by rw [hds]; exact List.mem_cons_self)
    have hne : ∀ c : Char, c.isDigit = false → d ≠ c := by
      rintro c hc rfl
      rw [hd] at hc
      cases hc
    refine ⟨d, ds, by rw [Decimal.ofInt, if_neg hn, hds], ?_, hne _ (by decide), hne _ (by decide),
      hne _ (by decide)⟩
    simp [isBlank, hne ' ' (by decide), hne '\n' (by decide), hne '\t' (by decide),
      hne '\r' (by decide)]

theorem exists_write_eq_cons {v : Json} (hf : v.floatFree = true) :
    ∃ c tail, write v = c :: tail ∧ isBlank c = false ∧ c ≠ ']' := by
  cases v with
  | null => exact ⟨'n', ['u', 'l', 'l'], by simp [write], by decide, by decide⟩
  | bool b =>
    cases b with
    | true => exact ⟨'t', ['r', 'u', 'e'], by simp [write], by decide, by decide⟩
    | false => exact ⟨'f', ['a', 'l', 's', 'e'], by simp [write], by decide, by decide⟩
  | int n =>
    obtain ⟨c, tail, hw, hc, -, -, hclose⟩ := exists_ofInt_eq_cons n
    exact ⟨c, tail, by rw [write, hw], hc, hclose⟩
  | float x => simp [Json.floatFree] at hf
  | str s => exact ⟨'"', _, by rw [write]; rfl, by decide, by decide⟩
  | arr items =>
    cases items with
    | nil => exact ⟨'[', _, by rw [write], by decide, by decide⟩
    | cons v rest => exact ⟨'[', _, by rw [write], by decide, by decide⟩
  | obj fields =>
    cases fields with
    | nil => exact ⟨'\x7b', _, by rw [write], by decide, by decide⟩
    | cons m rest => exact ⟨'\x7b', _, by rw [write], by decide, by decide⟩

theorem skipBlank_write {v : Json} (hf : v.floatFree = true) (rest : List Char) :
    skipBlank (write v ++ rest) = write v ++ rest := by
  obtain ⟨c, tail, hw, hc, -⟩ := exists_write_eq_cons hf
  rw [hw, List.cons_append, skipBlank_cons hc]

theorem readValue_scalar (document : DocumentReader) (depth : Nat) {c : Char} {tail : List Char}
    (hblank : isBlank c = false) (harr : c ≠ '[') (hobj : c ≠ '\x7b') :
    readValue document depth (c :: tail) = readScalar (c :: tail) := by
  cases depth with
  | zero => simp [readValue, skipBlank_cons hblank]
  | succ depth => simp [readValue, skipBlank_cons hblank, harr, hobj]

/-! ### Lists and objects -/

theorem length_le_writeItems (items : List Json) : items.length ≤ (writeItems items).length := by
  induction items with
  | nil => simp
  | cons v rest ih => simp [writeItems]; omega

theorem length_le_writeMembers (fields : Fields) :
    fields.length ≤ (writeMembers fields).length := by
  induction fields with
  | nil => simp
  | cons m rest ih => simp [writeMembers]; omega

/-- **The items of a list read back**, if each of them does. -/
theorem readItems_write {item : ValueReader} : ∀ (vs : List Json) (v : Json) (fuel : Nat)
    (taken : List Json) (tail : List Char),
    (∀ u ∈ v :: vs, ∀ rest, Ends rest → item (write u ++ rest) = some (u, rest)) →
    vs.length < fuel →
      readItems item fuel taken (write v ++ (writeItems vs ++ ']' :: tail)) =
        some (.arr (taken.reverse ++ v :: vs), tail)
  | [], v, fuel + 1, taken, tail, hitem, _ => by
    have hv := hitem v List.mem_cons_self (']' :: tail) (ends_bracket tail)
    have hblank : skipBlank (']' :: tail) = ']' :: tail := skipBlank_cons (by decide) tail
    simp [readItems, writeItems, hv, hblank]
  | w :: vs, v, fuel + 1, taken, tail, hitem, hfuel => by
    have hv := hitem v List.mem_cons_self _
      (ends_comma (write w ++ (writeItems vs ++ ']' :: tail)))
    have hblank := skipBlank_cons (c := ',') (by decide)
      (write w ++ (writeItems vs ++ ']' :: tail))
    have hrest := readItems_write vs w fuel (v :: taken) tail
      (fun u hu => hitem u (List.mem_cons_of_mem v hu)) (by simpa using hfuel)
    simp only [writeItems, List.cons_append, List.append_assoc, readItems, hv, hblank]
    rw [hrest]
    simp

theorem readName_write (k : String) (rest : List Char) :
    readName (writeString k ++ ':' :: rest) = some (k, rest) := by
  have hquote := skipBlank_cons (c := '"') (by decide)
    (k.toList.flatMap escapeChar ++ '"' :: ':' :: rest)
  have hcolon := skipBlank_cons (c := ':') (by decide) rest
  have hk := readString_escaped k (':' :: rest)
  simp only [writeString, List.cons_append, List.append_assoc, List.nil_append]
  simp only [readName, hquote, hk, hcolon]

/-- **The members of an object read back**, if each value does, and if all names come in increasing
order, those taken before included. -/
theorem readMembers_write {item : ValueReader} : ∀ (ms : Fields) (k : String) (v : Json)
    (fuel : Nat) (taken : Fields) (tail : List Char),
    (∀ m ∈ (k, v) :: ms, ∀ rest, Ends rest → item (write m.2 ++ rest) = some (m.2, rest)) →
    (taken ++ (k, v) :: ms).Pairwise (fun a b => a.1 < b.1) → ms.length < fuel →
      readMembers item fuel taken
          (writeString k ++ ':' :: (write v ++ (writeMembers ms ++ '\x7d' :: tail))) =
        some (.obj (taken ++ (k, v) :: ms), tail)
  | [], k, v, fuel + 1, taken, tail, hitem, hsorted, _ => by
    have hv := hitem (k, v) List.mem_cons_self ('\x7d' :: tail) (ends_brace tail)
    have hblank : skipBlank ('\x7d' :: tail) = '\x7d' :: tail := skipBlank_cons (by decide) tail
    have hput : Fields.put k v taken = taken ++ [(k, v)] :=
      Fields.put_of_forall_lt v fun m hm =>
        (List.pairwise_append.1 hsorted).2.2 m hm (k, v) List.mem_cons_self
    simp [readMembers, readMember, readName_write, writeMembers, hv, hblank, hput]
  | (k', v') :: ms, k, v, fuel + 1, taken, tail, hitem, hsorted, hfuel => by
    have hv := hitem (k, v) List.mem_cons_self _
      (ends_comma (writeString k' ++ ':' :: (write v' ++ (writeMembers ms ++ '\x7d' :: tail))))
    have hblank := skipBlank_cons (c := ',') (by decide)
      (writeString k' ++ ':' :: (write v' ++ (writeMembers ms ++ '\x7d' :: tail)))
    have hput : Fields.put k v taken = taken ++ [(k, v)] :=
      Fields.put_of_forall_lt v fun m hm =>
        (List.pairwise_append.1 hsorted).2.2 m hm (k, v) List.mem_cons_self
    have hrest := readMembers_write ms k' v' fuel (taken ++ [(k, v)]) tail
      (fun m hm => hitem m (List.mem_cons_of_mem _ hm)) (by simpa using hsorted)
      (by simpa using hfuel)
    simp only [writeMembers, List.cons_append, List.append_assoc, readMembers, readMember,
      readName_write, hv, Option.map_some, hblank, hput]
    rw [hrest]
    simp

/-- **A list reads back**, if each of its items does. -/
theorem readList_write {document : DocumentReader} {depth : Nat} {items : List Json}
    (hf : floatFreeItems items = true)
    (hitem : ∀ v ∈ items, ∀ rest, Ends rest →
      readValue document depth (write v ++ rest) = some (v, rest)) (tail : List Char) :
    readValue document (depth + 1) (write (.arr items) ++ tail) = some (.arr items, tail) := by
  have hopen : ∀ body, readValue document (depth + 1) ('[' :: body) =
      readList (readValue document depth) body := by
    intro body
    simp [readValue, skipBlank_cons (c := '[') (by decide)]
  cases items with
  | nil =>
    have hblank : skipBlank (']' :: tail) = ']' :: tail := skipBlank_cons (by decide) tail
    simp [write, hopen, readList, hblank]
  | cons v vs =>
    have hv : v.floatFree = true := floatFreeItems_iff.1 hf v List.mem_cons_self
    have hblank := skipBlank_write hv (writeItems vs ++ ']' :: tail)
    have hlen := length_le_writeItems vs
    have hread := readItems_write vs v
      ((write v ++ (writeItems vs ++ ']' :: tail)).length + 1) [] tail hitem
      (by simp only [List.length_append]; omega)
    obtain ⟨c, body, hw, -, hc⟩ := exists_write_eq_cons hv
    have hlist : readList (readValue document depth) (write v ++ (writeItems vs ++ ']' :: tail)) =
        some (.arr (v :: vs), tail) := by
      unfold readList
      rw [hblank]
      split
      · next heq =>
        rw [hw] at heq
        exact absurd (List.cons.inj heq).1 hc
      · exact hread
    have hwrite : write (.arr (v :: vs)) ++ tail =
        '[' :: (write v ++ (writeItems vs ++ ']' :: tail)) := by
      simp [write]
    rw [hwrite, hopen, hlist]

/-- **The members of an object read back**, from the character after its opening brace, if each
value does. The name that comes first is that of the first member. -/
theorem readFields_write {item : ValueReader} {fields : Fields}
    (hitem : ∀ m ∈ fields, ∀ rest, Ends rest → item (write m.2 ++ rest) = some (m.2, rest))
    (hsorted : fields.Pairwise fun a b => a.1 < b.1) (tail : List Char) :
    ∃ body, write (.obj fields) ++ tail = '\x7b' :: body ∧
      readFields item body = some (.obj fields, tail) ∧
      ∀ k rest, readName body = some (k, rest) → ∃ v ms, fields = (k, v) :: ms := by
  cases fields with
  | nil =>
    have hblank : skipBlank ('\x7d' :: tail) = '\x7d' :: tail := skipBlank_cons (by decide) tail
    refine ⟨'\x7d' :: tail, by simp [write], by simp [readFields, hblank], fun k rest h => ?_⟩
    simp [readName, hblank] at h
  | cons m ms =>
    obtain ⟨k, v⟩ := m
    have hlen := length_le_writeMembers ms
    have hread := readMembers_write ms k v
      ((writeString k ++ ':' :: (write v ++ (writeMembers ms ++ '\x7d' :: tail))).length + 1) []
      tail hitem hsorted (by simp only [List.length_append, List.length_cons]; omega)
    refine ⟨writeString k ++ ':' :: (write v ++ (writeMembers ms ++ '\x7d' :: tail)),
      by simp [write], ?_, fun k' rest h => ?_⟩
    · unfold readFields
      rw [show skipBlank
          (writeString k ++ ':' :: (write v ++ (writeMembers ms ++ '\x7d' :: tail))) =
        '"' :: (k.toList.flatMap escapeChar ++ ['"'] ++
          ':' :: (write v ++ (writeMembers ms ++ '\x7d' :: tail))) from
        skipBlank_cons (by decide) _]
      exact hread
    · rw [readName_write] at h
      obtain ⟨rfl, -⟩ := Prod.mk.inj (Option.some.inj h)
      exact ⟨v, ms, rfl⟩

/-! ### Values -/

/-- **A value reads back**, whatever ends it. The induction is over the value: its items and members
are read by the reader for one container less. -/
theorem readValue_write (document : DocumentReader) (v : Json) :
    ∀ (depth : Nat) (rest : List Char), v.Readable depth → Ends rest →
      readValue document depth (write v ++ rest) = some (v, rest) := by
  induction v using induct with
  | null => intro depth rest _ _; exact readValue_scalar document depth rfl (by decide) (by decide)
  | bool b =>
    intro depth rest _ _
    cases b <;> exact readValue_scalar document depth rfl (by decide) (by decide)
  | int n =>
    intro depth rest hv hrest
    have hp := hv.proper
    simp only [everywhere, isProper, decide_eq_true_eq] at hp
    have hscalar := readScalar_ofInt hp.1 hp.2 hrest
    obtain ⟨c, tail, hw, hc, harr, hobj, -⟩ := exists_ofInt_eq_cons n
    rw [write]
    rw [hw, List.cons_append] at hscalar ⊢
    rw [readValue_scalar document depth hc harr hobj, hscalar]
  | float x => intro depth rest hv _; exact absurd hv.floatFree (by simp [Json.floatFree])
  | str s =>
    intro depth rest _ _
    have hs := readString_escaped s rest
    rw [write, writeString, List.cons_append, List.cons_append, List.append_assoc,
      List.singleton_append, readValue_scalar document depth rfl (by decide) (by decide)]
    simp [readScalar, hs]
  | arr items ih =>
    intro depth rest hv hrest
    cases depth with
    | zero => exact absurd hv.shallow (by simp)
    | succ depth =>
      exact readList_write hv.floatFree (fun v hm rest => ih v hm depth rest (hv.item hm)) rest
  | obj fields ih =>
    intro depth rest hv hrest
    cases depth with
    | zero => exact absurd hv.shallow (by simp)
    | succ depth =>
      obtain ⟨body, hbody, hread, hname⟩ := readFields_write
        (fun m hm rest => ih m hm depth rest (hv.member hm)) hv.increasing rest
      have hobject : readObject document (readValue document depth) body =
          some (.obj fields, rest) := by
        unfold readObject
        split
        · next k tail hk =>
          obtain ⟨v, ms, rfl⟩ := hname k tail hk
          have hu := hv.unembedded
          simp only [everywhere, isEmbedding, Bool.and_eq_true, Bool.not_eq_true',
            beq_eq_false_iff_ne] at hu
          rw [if_neg hu.1, hread]
        · exact hread
      rw [hbody]
      simp [readValue, skipBlank_cons (c := '\x7b') (by decide), hobject]

/-- **An object reads back**, the outermost one whatever its first name. -/
theorem parseFields?_text {fields : Fields} (h : fields.Plain) :
    parseFields? (Json.obj fields).text = some fields := by
  obtain ⟨hproper, hfloat, hdepth, hembed⟩ := h
  have hsorted : fields.Pairwise fun a b => a.1 < b.1 := by
    simp only [everywhere, Bool.and_eq_true, isProper, decide_eq_true_eq] at hproper
    exact hproper.1
  have hmember : ∀ m ∈ fields, m.2.Readable (maxDepth - 1) := by
    intro m hm
    simp only [everywhere, Bool.and_eq_true, everywhereFields_iff] at hproper
    simp only [Json.floatFree, floatFreeFields_iff] at hfloat
    have hm' : m.2.depth ≤ maxDepth - 1 := by
      rw [depth_obj] at hdepth
      exact depthFields_le_iff.1 (by omega) m hm
    exact ⟨hproper.2 m hm, hfloat m hm, hm', everywhereFields_iff.1 hembed m hm⟩
  have htext : (Json.obj fields).text.toList = write (.obj fields) := by
    rw [text, String.toList_ofList]
  obtain ⟨body, hbody, hread, -⟩ := readFields_write (fun m hm rest =>
    readValue_write (readDocument (Json.obj fields).text.length) m.2 (maxDepth - 1) rest
      (hmember m hm)) hsorted []
  rw [List.append_nil] at hbody
  unfold parseFields?
  rw [htext, hbody, skipBlank_cons (by decide)]
  simp only [if_pos, hread]
  rfl

/-- An object inside that begins with the name of embedded documents is not read back. -/
example : parseFields? (Json.obj [("x", .obj [(embeddingName, .str "1"), ("y", .null)])]).text =
    none := by decide +kernel

end Json

end JobQueue
