import JobQueue.Json.Embedding
import JobQueue.Proofs.Json.Records
import JobQueue.Proofs.Json.RoundTrip

/-! # Values without embedded documents

A value stays as it is when the documents embedded in it are put in their place, just if none of
the objects in it begins with the name of an embedding. That much is clear of the objects that do
not; one that does is replaced by a document, and that is never the same object: what is read from
a text may have a member with the name of an embedding, but never as its only member, since the
text would have begun with that name and been an embedding itself (`isOrdinary_of_parse?`).

* `resolved?_eq_self_iff`: **a value stays as it is just if no embedding is in it.**
* `Fields.resolved?_eq_self_iff`: the same for the members of an outermost object; `kept_iff`: for
  such an object the reader of values does its part. -/

namespace JobQueue

/-- No object inside the object begins with the name of an embedding. -/
def Fields.Unembedded (fields : Fields) : Prop :=
  Json.everywhereFields (fun v => !v.isEmbedding) fields = true

instance (fields : Fields) : Decidable fields.Unembedded := by
  unfold Fields.Unembedded; infer_instance

/-- **The reader of values does its part** for the object: it is read as the object that it is. -/
def Fields.Kept (fields : Fields) : Prop := Json.asDocument? (.obj fields) = some fields

namespace Json

/-! ### What is read from a text -/

/-- The members are not just one embedded document. -/
def HasOther (fields : Fields) : Prop := ∃ m ∈ fields, m.1 ≠ embeddingName

/-- The value is no object that is just an embedded document. -/
def IsOrdinary (v : Json) : Prop := ∀ fields, v = .obj fields → fields = [] ∨ HasOther fields

theorem hasOther_put_of_ne {k : String} (hk : k ≠ embeddingName) (v : Json) (fields : Fields) :
    HasOther (fields.put k v) :=
  ⟨(k, v), Fields.mem_of_get? (Fields.get?_put_self k v fields), hk⟩

theorem HasOther.put {fields : Fields} (h : HasOther fields) (k : String) (v : Json) :
    HasOther (fields.put k v) := by
  by_cases hk : k = embeddingName
  · obtain ⟨m, hm, hne⟩ := h
    -- A member of that other name is still there, though there may have been several.
    have hget : Fields.get? m.1 (fields.put k v) ≠ none := by
      rw [Fields.get?_put_of_ne v fields fun heq => hne (heq.trans hk)]
      exact fun hnone => Fields.get?_eq_none_iff.1 hnone m hm rfl
    obtain ⟨w, hw⟩ := Option.ne_none_iff_exists'.1 hget
    exact ⟨_, Fields.mem_of_get? hw, hne⟩
  · exact hasOther_put_of_ne hk v fields

theorem isOrdinary_of_hasOther {fields : Fields} (h : HasOther fields) :
    IsOrdinary (.obj fields) := by
  rintro _ ⟨⟩
  exact .inr h

theorem isOrdinary_of_readMembers {item : ValueReader} {fuel : Nat} {taken : Fields}
    {cs rest : List Char} {v : Json}
    (hfirst : ∀ k w rest', readMember item cs = some ((k, w), rest') → HasOther (taken.put k w))
    (h : readMembers item fuel taken cs = some (v, rest)) : IsOrdinary v := by
  induction fuel generalizing taken cs with
  | zero => cases h
  | succ fuel ih =>
    unfold readMembers at h
    split at h
    · cases h
    · next k w rest' hmember =>
      have hother := hfirst k w rest' hmember
      split at h
      · exact ih (fun k' w' _ _ => hother.put k' w') h
      · split at h
        · cases h
          exact isOrdinary_of_hasOther hother
        · cases h
      · cases h

/-- **Members that begin with another name are no embedded document.** -/
theorem isOrdinary_of_readFields {item : ValueReader} {cs rest : List Char} {v : Json}
    (hname : ∀ k rest', readName cs = some (k, rest') → k ≠ embeddingName)
    (h : readFields item cs = some (v, rest)) : IsOrdinary v := by
  unfold readFields at h
  split at h
  · split at h
    · cases h
      rintro _ ⟨⟩
      exact .inl rfl
    · refine isOrdinary_of_readMembers (fun k w rest' hmember => ?_) h
      unfold readMember at hmember
      split at hmember
      · next k' rest'' hread =>
        obtain ⟨_, _, heq⟩ := Option.map_eq_some_iff.1 hmember
        cases heq
        exact hasOther_put_of_ne (hname _ _ hread) _ []
      · cases hmember
  · cases h

theorem isOrdinary_of_readItems {item : ValueReader} {fuel : Nat} {taken : List Json}
    {cs rest : List Char} {v : Json} (h : readItems item fuel taken cs = some (v, rest)) :
    IsOrdinary v := by
  induction fuel generalizing taken cs with
  | zero => cases h
  | succ fuel ih =>
    unfold readItems at h
    split at h
    · cases h
    · split at h
      · exact ih h
      · cases h
        rintro _ ⟨⟩
      · cases h

theorem isOrdinary_of_readList {item : ValueReader} {cs rest : List Char} {v : Json}
    (h : readList item cs = some (v, rest)) : IsOrdinary v := by
  unfold readList at h
  split at h
  · cases h
    rintro _ ⟨⟩
  · exact isOrdinary_of_readItems h

theorem isOrdinary_of_integer? {negative : Bool} {n leftOver : Nat} {v : Json}
    (h : integer? negative n leftOver = some v) : IsOrdinary v := by
  unfold integer? at h
  split at h
  · cases h
    rintro _ ⟨⟩
  · split at h
    · cases h
      rintro _ ⟨⟩
    · obtain ⟨x, -, rfl⟩ := Option.map_eq_some_iff.1 h
      rintro _ ⟨⟩

theorem isOrdinary_of_readScaled {negative : Bool} {n : Nat} {exponent : Int}
    {cs rest : List Char} {v : Json} (h : readScaled negative n exponent cs = some (v, rest)) :
    IsOrdinary v := by
  unfold readScaled at h
  dsimp only at h
  -- However the exponent is read, the value is a floating-point number.
  split at h
  on_goal 1 => split at h
  all_goals
    obtain ⟨_, _, h⟩ := Option.bind_eq_some_iff.1 h
    obtain ⟨x, _, h⟩ := Option.bind_eq_some_iff.1 h
    cases h
    rintro _ ⟨⟩

theorem isOrdinary_of_readNumber {negative : Bool} {cs rest : List Char} {v : Json}
    (h : readNumber negative cs = some (v, rest)) : IsOrdinary v := by
  unfold readNumber at h
  dsimp only at h
  split at h
  · cases h
  · split at h
    · split at h
      · cases h
      · exact isOrdinary_of_readScaled h
    · split at h
      · exact isOrdinary_of_readScaled h
      · obtain ⟨w, hw, heq⟩ := Option.map_eq_some_iff.1 h
        cases heq
        exact isOrdinary_of_integer? hw
    · obtain ⟨w, hw, heq⟩ := Option.map_eq_some_iff.1 h
      cases heq
      exact isOrdinary_of_integer? hw

theorem isOrdinary_of_readScalar {cs rest : List Char} {v : Json}
    (h : readScalar cs = some (v, rest)) : IsOrdinary v := by
  unfold readScalar at h
  split at h
  · cases h; rintro _ ⟨⟩
  · cases h; rintro _ ⟨⟩
  · cases h; rintro _ ⟨⟩
  · obtain ⟨s, -, heq⟩ := Option.map_eq_some_iff.1 h
    cases heq
    rintro _ ⟨⟩
  · exact isOrdinary_of_readNumber h
  · exact isOrdinary_of_readNumber h

/-- **What an object stands for is no embedded document**, if none of the documents is. -/
theorem isOrdinary_of_readObject {document : DocumentReader}
    (hdocument : ∀ s v, document s = some v → IsOrdinary v) {item : ValueReader}
    {cs rest : List Char} {v : Json} (h : readObject document item cs = some (v, rest)) :
    IsOrdinary v := by
  unfold readObject at h
  split at h
  · next k rest' hread =>
    split at h
    · unfold readEmbedded at h
      split at h
      · split at h
        · cases h
        · next s _ _ =>
          split at h
          · split at h
            · obtain ⟨w, hw, heq⟩ := Option.map_eq_some_iff.1 h
              cases heq
              exact hdocument s _ hw
            · cases h
          · cases h
      · cases h
    · next hk =>
      refine isOrdinary_of_readFields (fun k' rest'' hread' => ?_) h
      rw [hread] at hread'
      cases hread'
      exact hk
  · next hread =>
    refine isOrdinary_of_readFields (fun k' rest'' hread' => ?_) h
    rw [hread] at hread'
    cases hread'

theorem isOrdinary_of_readValue {document : DocumentReader}
    (hdocument : ∀ s v, document s = some v → IsOrdinary v) {depth : Nat} {cs rest : List Char}
    {v : Json} (h : readValue document depth cs = some (v, rest)) : IsOrdinary v := by
  cases depth with
  | zero => exact isOrdinary_of_readScalar h
  | succ depth =>
    unfold readValue at h
    split at h
    · cases h
    · split at h
      · exact isOrdinary_of_readList h
      · split at h
        · exact isOrdinary_of_readObject hdocument h
        · exact isOrdinary_of_readScalar h

/-- The induction is on how many documents may be embedded one inside the other. -/
theorem isOrdinary_of_readDocument {embeddings : Nat} {s : String} {v : Json}
    (h : readDocument embeddings s = some v) : IsOrdinary v := by
  induction embeddings generalizing s v with
  | zero => cases h
  | succ embeddings ih =>
    unfold readDocument complete? at h
    split at h
    · next hread =>
      split at h
      · cases h
        exact isOrdinary_of_readValue (fun _ _ => ih) hread
      · cases h
    · cases h

/-- **What is read from a text is no embedded document.** -/
theorem isOrdinary_of_parse? {s : String} {v : Json} (h : parse? s = some v) : IsOrdinary v :=
  isOrdinary_of_readDocument h

/-! ### Values that stay as they are -/

theorem resolvedItems?_eq_self_iff {items : List Json} :
    resolvedItems? items = some items ↔ ∀ v ∈ items, v.resolved? = some v := by
  induction items with
  | nil => simp [resolvedItems?]
  | cons v rest ih =>
    simp only [resolvedItems?, List.forall_mem_cons, ← ih]
    cases v.resolved? <;> cases resolvedItems? rest <;> simp

theorem resolvedMembers?_eq_self_iff {fields : Fields} :
    resolvedMembers? fields = some fields ↔ ∀ m ∈ fields, m.2.resolved? = some m.2 := by
  induction fields with
  | nil => simp [resolvedMembers?]
  | cons m rest ih =>
    obtain ⟨k, v⟩ := m
    simp only [resolvedMembers?, List.forall_mem_cons, ← ih]
    cases v.resolved? <;> cases resolvedMembers? rest <;> simp

theorem embedded?_ne_self {v : Json} {rest : Fields} :
    embedded? v rest ≠ some (.obj ((embeddingName, v) :: rest)) := by
  intro h
  unfold embedded? at h
  split at h
  · rcases isOrdinary_of_parse? h _ rfl with hnil | ⟨m, hm, hne⟩
    · cases hnil
    · rw [List.mem_singleton.1 hm] at hne
      exact hne rfl
  · cases h

theorem resolved?_obj_eq_self_iff {k : String} (hk : k ≠ embeddingName) {v : Json}
    {rest : Fields} :
    (Json.obj ((k, v) :: rest)).resolved? = some (.obj ((k, v) :: rest)) ↔
      resolvedMembers? ((k, v) :: rest) = some ((k, v) :: rest) := by
  rw [resolved?, if_neg hk, resolvedMembers?]
  cases v.resolved? <;> cases resolvedMembers? rest <;> simp

/-- **A value stays as it is just if no embedding is in it.** -/
theorem resolved?_eq_self_iff (v : Json) :
    v.resolved? = some v ↔ v.everywhere (fun v => !v.isEmbedding) = true := by
  induction v using Json.induct with
  | arr items ih =>
    have hitems : resolvedItems? items = some items ↔
        everywhereItems (fun v => !v.isEmbedding) items = true := by
      rw [resolvedItems?_eq_self_iff, everywhereItems_iff]
      exact forall₂_congr ih
    simpa [resolved?, everywhere, isEmbedding] using hitems
  | obj fields ih =>
    have hmembers : resolvedMembers? fields = some fields ↔
        everywhereFields (fun v => !v.isEmbedding) fields = true := by
      rw [resolvedMembers?_eq_self_iff, everywhereFields_iff]
      exact forall₂_congr ih
    cases fields with
    | nil => simp [resolved?, everywhere, everywhereFields, isEmbedding]
    | cons m rest =>
      obtain ⟨k, v⟩ := m
      by_cases hk : k = embeddingName
      · subst hk
        simp [resolved?, everywhere, isEmbedding, embedded?_ne_self]
      · rw [resolved?_obj_eq_self_iff hk, hmembers]
        simp [everywhere, isEmbedding, hk]
  | null | bool _ | int _ | float _ | str _ => simp [resolved?, everywhere, isEmbedding]

end Json

/-- **The members stay as they are just if no embedding is inside the object.** -/
theorem Fields.resolved?_eq_self_iff {fields : Fields} :
    fields.resolved? = some fields ↔ fields.Unembedded := by
  unfold Fields.resolved? Fields.Unembedded
  rw [Json.resolvedMembers?_eq_self_iff, Json.everywhereFields_iff]
  exact forall₂_congr fun m _ => Json.resolved?_eq_self_iff m.2

theorem Fields.kept_iff {fields : Fields} : fields.Kept ↔ fields.Unembedded :=
  Fields.resolved?_eq_self_iff

end JobQueue
