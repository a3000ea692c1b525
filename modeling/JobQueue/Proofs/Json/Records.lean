import JobQueue.Job.Codec
import JobQueue.Proofs.Keyed
import Mathlib.Data.List.Forall2
import Mathlib.Data.List.Induction
import Mathlib.Data.String.Basic

/-! # Records

A record is an object with just the members of certain names (`Json.IsRecord`), each of which has
the form of its name. The order in which the members are given does not matter, since an object is
a map: two objects with increasing names and the same members are equal (`Fields.Ordered.ext`).

* `get?_ofList`: the members of an object that is made of members with different names.
* `Fields.Lists`: the values of certain names are the items of a list.
* `isRecord_iff`: **a record is the object of a list of values**, each of the form of its name.
* `asIntIn?_eq_some_iff`, `asNat?_eq_some_iff`: the integers that are read.
* `RoundTrips`: what it means that the values of a type are written and read back. -/

namespace JobQueue

namespace Fields

/-! ### Members of a map -/

/-- The names increase, as those of a map do. -/
def Ordered (fields : Fields) : Prop := Keyed.Ordered Prod.fst fields

theorem put_eq_update (k : String) (v : Json) : ∀ fields : Fields,
    put k v fields = Keyed.update Prod.fst k (k, v) (fun _ => (k, v)) fields
  | [] => rfl
  | m :: rest => by rw [put, Keyed.update, put_eq_update k v rest]

theorem get?_eq_none_iff {name : String} {fields : Fields} :
    get? name fields = none ↔ ∀ m ∈ fields, m.1 ≠ name := by
  induction fields with
  | nil => simp [get?]
  | cons m rest ih =>
    rw [get?, List.forall_mem_cons]
    split
    · next h => simp [h.symm]
    · next h => rw [ih]; simp [Ne.symm h]

theorem mem_of_get? {name : String} {v : Json} {fields : Fields} (h : get? name fields = some v) :
    (name, v) ∈ fields := by
  induction fields with
  | nil => cases h
  | cons m rest ih =>
    unfold get? at h
    split at h
    · next heq =>
      subst heq
      cases h
      exact List.mem_cons_self
    · exact List.mem_cons_of_mem _ (ih h)

theorem get?_of_mem {fields : Fields} (hnames : (fields.map Prod.fst).Nodup) {m : String × Json}
    (h : m ∈ fields) : get? m.1 fields = some m.2 := by
  induction fields with
  | nil => cases h
  | cons n rest ih =>
    rw [List.map_cons, List.nodup_cons] at hnames
    rcases List.mem_cons.1 h with rfl | h
    · simp [get?]
    · have hne : m.1 ≠ n.1 := fun heq => hnames.1 (heq ▸ List.mem_map_of_mem h)
      rw [get?, if_neg hne, ih hnames.2 h]

theorem Ordered.mem_iff {fields : Fields} (h : fields.Ordered) {m : String × Json} :
    m ∈ fields ↔ get? m.1 fields = some m.2 := by
  have hnames : (fields.map Prod.fst).Nodup := List.pairwise_map.2 (h.imp fun hlt => hlt.ne)
  exact ⟨get?_of_mem hnames, mem_of_get?⟩

/-- **Maps with the same members are equal.** -/
theorem Ordered.ext {f g : Fields} (hf : f.Ordered) (hg : g.Ordered)
    (h : ∀ name, get? name f = get? name g) : f = g :=
  Keyed.Ordered.eq_of_mem_iff hf hg fun m => by
    rw [Ordered.mem_iff hf, Ordered.mem_iff hg, h m.1]

/-! ### Objects made of members -/

theorem ofList_eq (members : List (String × Json)) :
    ofList members = members.foldl
      (fun fields m => Keyed.update Prod.fst m.1 m (fun _ => m) fields) [] := by
  unfold ofList
  simp only [put_eq_update]

theorem keeps_member (m : String × Json) : Keyed.Keeps Prod.fst m.1 m fun _ => m :=
  ⟨rfl, fun _ _ => rfl⟩

theorem ofList_concat (members : List (String × Json)) (m : String × Json) :
    ofList (members ++ [m]) = (ofList members).put m.1 m.2 := by
  unfold ofList
  rw [List.foldl_append]
  rfl

theorem ordered_ofList (members : List (String × Json)) : (ofList members).Ordered := by
  rw [ofList_eq]
  exact Keyed.ordered_foldl keeps_member members List.Pairwise.nil

theorem mem_names_ofList {members : List (String × Json)} {name : String} :
    name ∈ (ofList members).map Prod.fst ↔ name ∈ members.map Prod.fst := by
  rw [ofList_eq, Keyed.mem_keys_foldl keeps_member]
  simp

theorem get?_append_of_not_mem {name : String} {f : Fields} (h : name ∉ f.map Prod.fst)
    (g : Fields) : get? name (f ++ g) = get? name g := by
  induction f with
  | nil => rfl
  | cons m f ih =>
    rw [List.map_cons, List.mem_cons, not_or] at h
    rw [List.cons_append, get?, if_neg h.1, ih h.2]

theorem get?_append_of_ne {name : String} {m : String × Json} (h : name ≠ m.1) (f : Fields) :
    get? name (f ++ [m]) = get? name f := by
  induction f with
  | nil => simp [get?, h]
  | cons n f ih =>
    rw [List.cons_append, get?, get?, ih]

/-- **An object has the members that it is made of**, if their names differ. -/
theorem get?_ofList {members : List (String × Json)} (h : (members.map Prod.fst).Nodup)
    (name : String) : get? name (ofList members) = get? name members := by
  induction members using List.reverseRecOn with
  | nil => rfl
  | append_singleton members m ih =>
    rw [List.map_append, List.nodup_append] at h
    rw [ofList_concat]
    by_cases hname : name = m.1
    · have hnew : name ∉ members.map Prod.fst := fun hmem =>
        h.2.2 name hmem m.1 (List.mem_singleton_self _) hname
      rw [get?_append_of_not_mem hnew, hname, get?_put_self]
      simp [get?]
    · rw [get?_put_of_ne _ _ hname, ih h.1, get?_append_of_ne hname]

/-! ### Lists of values -/

/-- The values of the names are the items, in their order; after the last item values are missing. -/
def Lists (fields : Fields) (names : List String) (items : List Json) : Prop :=
  ∀ (i : Nat) (name : String), names[i]? = some name → get? name fields = items[i]?

theorem Lists.get?_eq {f g : Fields} {names : List String} {items : List Json}
    (hf : f.Lists names items) (hg : g.Lists names items) {name : String} (hname : name ∈ names) :
    get? name f = get? name g := by
  obtain ⟨i, hi⟩ := List.mem_iff_getElem?.1 hname
  rw [hf i name hi, hg i name hi]

theorem lists_zip {names : List String} (h : names.Nodup) {items : List Json}
    (hlength : items.length ≤ names.length) : Lists (names.zip items) names items := by
  induction names generalizing items with
  | nil => intro i name hname; cases hname
  | cons first names ih =>
    rw [List.nodup_cons] at h
    intro i name hname
    cases items with
    | nil => rfl
    | cons v items =>
      cases i with
      | zero =>
        cases hname
        simp [get?]
      | succ i =>
        rw [List.getElem?_cons_succ] at hname
        have hne : name ≠ first := fun heq => h.1 (heq ▸ List.mem_of_getElem? hname)
        rw [List.zip_cons_cons, get?, if_neg hne,
          ih h.2 (Nat.le_of_succ_le_succ hlength) i name hname, List.getElem?_cons_succ]

/-- **The object made of a list has its items.** -/
theorem lists_ofList_zip {names : List String} (h : names.Nodup) {items : List Json}
    (hlength : items.length ≤ names.length) : Lists (ofList (names.zip items)) names items := by
  have hnames : ((names.zip items).map Prod.fst).Nodup := by
    rw [List.zip_eq_zip_take_min, List.map_fst_zip (by simp)]
    exact h.sublist (List.take_sublist _ _)
  intro i name hname
  rw [get?_ofList hnames]
  exact lists_zip h hlength i name hname

/-! ### Reading members -/

section Members

variable {α : Type} {fields g : Fields} {name : String} {read : Json → Option α}

theorem required?_eq_some_iff {a : α} :
    fields.required? name read = some a ↔ ∃ v, get? name fields = some v ∧ read v = some a :=
  Option.bind_eq_some_iff

theorem required?_congr (h : get? name fields = get? name g) :
    fields.required? name read = g.required? name read := by
  unfold required?
  rw [h]

theorem optional?_congr (h : get? name fields = get? name g) :
    fields.optional? name read = g.optional? name read := by
  unfold optional?
  rw [h]

theorem exists_of_optional? {a : α} (h : fields.optional? name read = some (some a)) :
    ∃ v, get? name fields = some v ∧ read v = some a := by
  unfold optional? at h
  split at h
  · cases h
  · next v hv =>
    unfold Json.asOptional? at h
    split at h
    · cases h
    · obtain ⟨b, hb, heq⟩ := Option.map_eq_some_iff.1 h
      cases heq
      exact ⟨v, hv, hb⟩

theorem Lists.required? {names : List String} {items : List Json} (h : fields.Lists names items)
    {i : Nat} {v : Json} (hname : names[i]? = some name) (hitem : items[i]? = some v) :
    fields.required? name read = read v := by
  unfold Fields.required?
  rw [h i name hname, hitem, Option.bind_some]

theorem Lists.optional? {names : List String} {items : List Json} (h : fields.Lists names items)
    {i : Nat} {v : Json} (hname : names[i]? = some name) (hitem : items[i]? = some v) :
    fields.optional? name read = Json.asOptional? read v := by
  unfold Fields.optional?
  rw [h i name hname, hitem]

end Members

end Fields

namespace Json

/-! ### Reading values -/

theorem asIntIn?_eq_some_iff {low high n : Int} {v : Json} :
    asIntIn? low high v = some n ↔ v = .int n ∧ low ≤ n ∧ n ≤ high := by
  unfold asIntIn?
  split
  · next m =>
    split
    · next h =>
      constructor
      · rintro ⟨⟩
        exact ⟨rfl, h⟩
      · rintro ⟨⟨⟩, -⟩
        rfl
    · next h =>
      constructor
      · rintro ⟨⟩
      · rintro ⟨⟨⟩, hn⟩
        exact absurd hn h
  · next h =>
    constructor
    · rintro ⟨⟩
    · rintro ⟨rfl, -⟩
      exact absurd rfl (h n)

theorem asInt32?_int {n : Int} (h : FitsInt32 n) : asInt32? (.int n) = some n :=
  asIntIn?_eq_some_iff.2 ⟨rfl, h⟩

theorem asInt64?_int {n : Int} (h : Timestamp.InRange n) : asInt64? (.int n) = some n :=
  asIntIn?_eq_some_iff.2 ⟨rfl, h⟩

theorem asNat?_eq_some_iff {high n : Nat} {v : Json} :
    asNat? high v = some n ↔ v = .int n ∧ n ≤ high := by
  unfold asNat?
  rw [Option.map_eq_some_iff]
  constructor
  · rintro ⟨m, hm, rfl⟩
    obtain ⟨rfl, hlow, hhigh⟩ := asIntIn?_eq_some_iff.1 hm
    rw [Int.toNat_of_nonneg hlow]
    exact ⟨rfl, by omega⟩
  · rintro ⟨rfl, hn⟩
    exact ⟨n, asIntIn?_eq_some_iff.2 ⟨rfl, by omega, by omega⟩, by omega⟩

theorem asOptional?_ofOption {α : Type} {read : Json → Option α} {write : α → Json}
    (hnull : ∀ a, write a ≠ .null) (o : Option α) :
    asOptional? read (ofOption write o) = o.elim (some none) fun a => (read (write a)).map some := by
  cases o with
  | none => rfl
  | some a =>
    unfold ofOption asOptional?
    split
    · next h => exact absurd h (hnull a)
    · rfl

theorem asOptional?_ofOption_of_forall {α : Type} {read : Json → Option α} {write : α → Json}
    (hnull : ∀ a, write a ≠ .null) {o : Option α} (h : ∀ a, o = some a → read (write a) = some a) :
    asOptional? read (ofOption write o) = some o := by
  rw [asOptional?_ofOption hnull]
  cases o with
  | none => rfl
  | some a => rw [Option.elim_some, h a rfl, Option.map_some]

/-! ### Forms -/

/-- The value is what is written for something of the kind. -/
def IsWritten {α : Type} (write : α → Json) (kind : α → Prop) (v : Json) : Prop :=
  ∃ a, kind a ∧ v = write a

def IsStr : Json → Prop := IsWritten str fun _ => True

def IsObj : Json → Prop := IsWritten obj fun _ => True

def IsInt32 : Json → Prop := IsWritten int FitsInt32

def IsInt64 : Json → Prop := IsWritten int Timestamp.InRange

/-- `null`, or a value of the form. -/
def IsOptional (form : Json → Prop) (v : Json) : Prop := v = .null ∨ form v

theorem isOptional_iff {α : Type} {write : α → Json} {kind : α → Prop} {v : Json} :
    IsOptional (IsWritten write kind) v ↔
      ∃ o : Option α, (∀ a, o = some a → kind a) ∧ v = ofOption write o := by
  constructor
  · rintro (rfl | ⟨a, ha, rfl⟩)
    · exact ⟨none, by simp, rfl⟩
    · exact ⟨some a, by simpa using ha, rfl⟩
  · rintro ⟨_ | a, ha, rfl⟩
    · exact .inl rfl
    · exact .inr ⟨a, ha a rfl, rfl⟩

/-! ### Records -/

/-- **An object with just the members of these names**, each of the form of its name. -/
def IsRecord (forms : List (String × (Json → Prop))) (v : Json) : Prop :=
  ∃ fields : Fields, v = .obj fields ∧ fields.Ordered ∧
    (∀ m ∈ fields, m.1 ∈ forms.map Prod.fst) ∧
    ∀ form ∈ forms, ∃ w, Fields.get? form.1 fields = some w ∧ form.2 w

variable {forms : List (String × (Json → Prop))}

theorem exists_values {fields : Fields}
    (h : ∀ form ∈ forms, ∃ w, Fields.get? form.1 fields = some w ∧ form.2 w) :
    ∃ values, List.Forall₂ (fun form w => form.2 w) forms values ∧
      fields.Lists (forms.map Prod.fst) values := by
  induction forms with
  | nil => exact ⟨[], .nil, fun i name hname => by cases hname⟩
  | cons form forms ih =>
    rw [List.forall_mem_cons] at h
    obtain ⟨⟨w, hw, hform⟩, hrest⟩ := h
    obtain ⟨values, hvalues, hlists⟩ := ih hrest
    refine ⟨w :: values, .cons hform hvalues, fun i name hname => ?_⟩
    cases i with
    | zero =>
      cases hname
      exact hw
    | succ i => exact hlists i name hname

theorem exists_value {values : List Json}
    (h : List.Forall₂ (fun form w => form.2 w) forms values) {i : Nat}
    {form : String × (Json → Prop)} (hform : forms[i]? = some form) :
    ∃ w, values[i]? = some w ∧ form.2 w := by
  induction h generalizing i with
  | nil => cases hform
  | cons hw _ ih =>
    cases i with
    | zero =>
      cases hform
      exact ⟨_, rfl, hw⟩
    | succ i => exact ih hform

/-- **A record is the object of a list of values**, each of the form of its name. -/
theorem isRecord_iff (hnames : (forms.map Prod.fst).Nodup) {v : Json} :
    IsRecord forms v ↔ ∃ values, List.Forall₂ (fun form w => form.2 w) forms values ∧
      v = ofFields ((forms.map Prod.fst).zip values) := by
  have hlists {values : List Json} (h : List.Forall₂ (fun form w => form.2 w) forms values) :
      (Fields.ofList ((forms.map Prod.fst).zip values)).Lists (forms.map Prod.fst) values :=
    Fields.lists_ofList_zip hnames (by rw [List.length_map, h.length_eq])
  have honly {values : List Json} {m : String × Json}
      (hm : m ∈ Fields.ofList ((forms.map Prod.fst).zip values)) : m.1 ∈ forms.map Prod.fst := by
    obtain ⟨p, hp, hname⟩ := List.mem_map.1 (Fields.mem_names_ofList.1 (List.mem_map_of_mem hm))
    rw [← hname]
    exact (List.of_mem_zip hp).1
  constructor
  · rintro ⟨fields, rfl, hordered, hnamed, hforms⟩
    obtain ⟨values, hvalues, hgiven⟩ := exists_values hforms
    refine ⟨values, hvalues, congrArg Json.obj ?_⟩
    refine hordered.ext (Fields.ordered_ofList _) fun name => ?_
    by_cases hname : name ∈ forms.map Prod.fst
    · exact hgiven.get?_eq (hlists hvalues) hname
    · have hnone : Fields.get? name fields = none :=
        Fields.get?_eq_none_iff.2 fun m hm heq => hname (heq ▸ hnamed m hm)
      rw [hnone, eq_comm, Fields.get?_eq_none_iff]
      exact fun m hm heq => hname (heq ▸ honly hm)
  · rintro ⟨values, hvalues, rfl⟩
    refine ⟨_, rfl, Fields.ordered_ofList _, fun m hm => honly hm, fun form hform => ?_⟩
    obtain ⟨i, hi⟩ := List.mem_iff_getElem?.1 hform
    obtain ⟨w, hw, hvalue⟩ := exists_value hvalues hi
    refine ⟨w, ?_, hvalue⟩
    rw [hlists hvalues i form.1 (by rw [List.getElem?_map, hi]; rfl), hw]

theorem isRecord_singleton {name : String} {form : Json → Prop} {v : Json} :
    IsRecord [(name, form)] v ↔ ∃ w, form w ∧ v = .obj [(name, w)] := by
  have hnames : ([(name, form)].map Prod.fst).Nodup := List.pairwise_singleton _ _
  rw [isRecord_iff hnames]
  constructor
  · rintro ⟨values, hvalues, rfl⟩
    obtain _ | ⟨hw, _ | _⟩ := hvalues
    exact ⟨_, hw, rfl⟩
  · rintro ⟨w, hw, rfl⟩
    exact ⟨[w], .cons hw .nil, rfl⟩

/-! ### The way round -/

/-- **Writing and reading fit together** for a value of a type, if it is `inRange`. The reader does
its part for the documents in a value that is `kept`; else those that are embedded in it are put in
their place by `resolve`, and there are none in the values that are `unembedded`. -/
structure RoundTrips {α : Type} (write : α → Json) (read : Json → Option α) (names : List String)
    (inRange : α → Prop) (resolve : α → Option α) (kept unembedded : α → Prop)
    (canonical : Json → Prop) (a : α) : Prop where
  /-- What is written is read as the same value, when the reader does its part. -/
  back : inRange a → kept a → read (write a) = some a
  /-- In any case it is read with the embedded documents in their place. -/
  resolved : inRange a → read (write a) = resolve a
  /-- That gives the same value just when the reader does its part, -/
  same : resolve a = some a ↔ kept a
  /-- and it does so just for documents that have none embedded in them. -/
  kept_iff : kept a ↔ unembedded a
  /-- Whatever was accepted is written in the canonical form, and accepted in this form as the same
  value just when the reader does its part. -/
  again : ∀ v, read v = some a →
    inRange a ∧ canonical (write a) ∧ (read (write a) = some a ↔ kept a)
  /-- The canonical values are those that are written. -/
  canonical_iff : ∀ v, canonical v ↔ ∃ b, inRange b ∧ write b = v
  /-- A list of all values reads as any object with these values. -/
  listed : ∀ (items : List Json) (fields : Fields), items.length = names.length →
    fields.Lists names items → (read (.arr items) = some a ↔ read (.obj fields) = some a)

theorem roundTrips_of_inRange {α : Type} {write : α → Json} {read : Json → Option α}
    {names : List String} {inRange : α → Prop} {resolve : α → Option α} {kept unembedded : α → Prop}
    {canonical : Json → Prop} (hback : ∀ a, inRange a → read (write a) = resolve a)
    (hsame : ∀ a, resolve a = some a ↔ kept a) (hkept : ∀ a, kept a ↔ unembedded a)
    (hrange : ∀ v a, read v = some a → inRange a)
    (hcanonical : ∀ v, canonical v ↔ ∃ a, inRange a ∧ write a = v)
    (hlisted : ∀ (items : List Json) (fields : Fields), items.length = names.length →
      fields.Lists names items → read (.arr items) = read (.obj fields)) (a : α) :
    RoundTrips write read names inRange resolve kept unembedded canonical a where
  back ha h := (hback a ha).trans ((hsame a).2 h)
  resolved := hback a
  same := hsame a
  kept_iff := hkept a
  again v h := by
    have ha := hrange v a h
    refine ⟨ha, (hcanonical _).2 ⟨a, ha, rfl⟩, ?_⟩
    rw [hback a ha]
    exact hsame a
  canonical_iff := hcanonical
  listed items fields hlength h := by rw [hlisted items fields hlength h]

end Json

end JobQueue
