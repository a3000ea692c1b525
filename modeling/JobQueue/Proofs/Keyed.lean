import Mathlib.Data.List.Sort
import Mathlib.Tactic

/-! # Entries with keys

A map is kept as a list of entries in increasing order of their keys, one entry a key. An entry is
changed in its place, or comes in there (`update`). This adds the key to the keys and what the
change adds to the total of the key (`mem_keys_update`, `total_update`), and it keeps the order
(`ordered_update`). After many updates a total is therefore a sum over them, in whatever order they
came (`total_foldl`).

Statistics are kept in this way by queue, groups of rows by queue and state, and the members of an
object by name. -/

namespace JobQueue.Keyed

variable {α κ : Type} [LinearOrder κ]

/-- **The entry of the key is changed**, or the changed base takes its place in the order. -/
def update (key : α → κ) (k : κ) (base : α) (change : α → α) : List α → List α
  | [] => [change base]
  | a :: rest =>
    if k < key a then change base :: a :: rest
    else if k = key a then change a :: rest
    else a :: update key k base change rest

/-- The values of the entries of a key together. -/
def total (key : α → κ) (value : α → Int) (k : κ) (entries : List α) : Int :=
  (entries.map fun a => if key a = k then value a else 0).sum

/-- The entries are in increasing order of their keys. -/
def Ordered (key : α → κ) (entries : List α) : Prop := entries.Pairwise fun a b => key a < key b

/-- **Lists in order with the same entries are equal.** -/
theorem Ordered.eq_of_mem_iff {key : α → κ} {f g : List α} (hf : Ordered key f)
    (hg : Ordered key g) (h : ∀ a, a ∈ f ↔ a ∈ g) : f = g := by
  have hnodup {l : List α} (hl : Ordered key l) : l.Nodup := hl.imp fun hlt heq => by
    rw [heq] at hlt
    exact lt_irrefl _ hlt
  have hperm : f.Perm g := (List.perm_ext_iff_of_nodup (hnodup hf) (hnodup hg)).2 h
  exact hperm.eq_of_pairwise (fun a b _ _ hab hba => absurd hba hab.not_gt) hf hg

/-- The change keeps the key. -/
structure Keeps (key : α → κ) (k : κ) (base : α) (change : α → α) : Prop where
  base : key (change base) = k
  entry : ∀ a, key a = k → key (change a) = k

/-- The change adds to the value. -/
structure Adds (value : α → Int) (base : α) (change : α → α) (n : Int) : Prop where
  base : value (change base) = n
  entry : ∀ a, value (change a) = value a + n

variable {key : α → κ} {value : α → Int} {k : κ} {base : α} {change : α → α}

@[simp] theorem total_nil : total key value k [] = 0 := rfl

@[simp] theorem total_cons (a : α) (rest : List α) :
    total key value k (a :: rest) = (if key a = k then value a else 0) + total key value k rest :=
  List.sum_cons

theorem mem_keys_update (hkeeps : Keeps key k base change) (k' : κ) : ∀ entries : List α,
      k' ∈ (update key k base change entries).map key ↔ k' = k ∨ k' ∈ entries.map key
  | [] => by simp [update, hkeeps.base]
  | a :: rest => by
    unfold update
    split
    · simp [hkeeps.base]
    · split
      · next hk =>
        simp only [List.map_cons, List.mem_cons, hkeeps.entry a hk.symm, ← hk]
        tauto
      · simp only [List.map_cons, List.mem_cons, mem_keys_update hkeeps k' rest]
        tauto

/-- **An update keeps the order.** -/
theorem ordered_update (hkeeps : Keeps key k base change) : ∀ {entries : List α},
      Ordered key entries → Ordered key (update key k base change entries)
  | [], _ => List.pairwise_singleton _ _
  | a :: rest, h => by
    obtain ⟨hbefore, hrest⟩ := List.pairwise_cons.1 h
    unfold update
    split
    · next hlt =>
      refine List.pairwise_cons.2 ⟨fun b hb => ?_, h⟩
      rw [hkeeps.base]
      rcases List.mem_cons.1 hb with rfl | hb
      · exact hlt
      · exact hlt.trans (hbefore b hb)
    · split
      · next hk =>
        refine List.pairwise_cons.2 ⟨fun b hb => ?_, hrest⟩
        rw [hkeeps.entry a hk.symm, hk]
        exact hbefore b hb
      · next hge hne =>
        refine List.pairwise_cons.2 ⟨fun b hb => ?_, ordered_update hkeeps hrest⟩
        rcases (mem_keys_update hkeeps (key b) rest).1 (List.mem_map_of_mem hb) with hkey | hkey
        · rw [hkey]
          exact lt_of_le_of_ne (not_lt.1 hge) fun heq => hne heq.symm
        · obtain ⟨c, hc, hkey⟩ := List.mem_map.1 hkey
          rw [← hkey]
          exact hbefore c hc

/-- **An update adds to the total of its key** and leaves the others. -/
theorem total_update {n : Int} (hkeeps : Keeps key k base change)
    (hadds : Adds value base change n) (k' : κ) : ∀ entries : List α,
      total key value k' (update key k base change entries) =
        total key value k' entries + if k = k' then n else 0
  | [] => by simp [update, hkeeps.base, hadds.base]
  | a :: rest => by
    unfold update
    split
    · simp only [total_cons, hkeeps.base, hadds.base]
      omega
    · split
      · next hk =>
        simp only [total_cons, hkeeps.entry a hk.symm, hadds.entry, ← hk]
        split <;> omega
      · simp only [total_cons, total_update hkeeps hadds k' rest]
        omega

theorem total_eq_zero : ∀ {entries : List α}, (∀ a ∈ entries, key a ≠ k) →
    total key value k entries = 0
  | [], _ => rfl
  | a :: rest, h => by
    rw [total_cons, if_neg (h a List.mem_cons_self),
      total_eq_zero fun b hb => h b (List.mem_cons_of_mem a hb), Int.zero_add]

theorem total_of_mem {a : α} : ∀ {entries : List α}, Ordered key entries →
    a ∈ entries → total key value (key a) entries = value a
  | b :: rest, h, ha => by
    obtain ⟨hbefore, hrest⟩ := List.pairwise_cons.1 h
    rcases List.mem_cons.1 ha with rfl | ha
    · rw [total_cons, if_pos rfl, total_eq_zero fun c hc => (hbefore c hc).ne', Int.add_zero]
    · rw [total_cons, if_neg (hbefore a ha).ne, total_of_mem hrest ha, Int.zero_add]

/-! ### Many updates -/

section Many

variable {ι : Type} {k : ι → κ} {base : ι → α} {change : ι → α → α}

theorem mem_keys_foldl (hkeeps : ∀ i, Keeps key (k i) (base i) (change i)) (k' : κ) :
    ∀ (items : List ι) (entries : List α),
      k' ∈ (items.foldl (fun entries i => update key (k i) (base i) (change i) entries)
        entries).map key ↔ k' ∈ entries.map key ∨ k' ∈ items.map k
  | [], _ => by simp
  | i :: items, entries => by
    rw [List.foldl_cons, mem_keys_foldl hkeeps k' items, mem_keys_update (hkeeps i), List.map_cons,
      List.mem_cons]
    tauto

theorem ordered_foldl (hkeeps : ∀ i, Keeps key (k i) (base i) (change i)) :
    ∀ (items : List ι) {entries : List α}, Ordered key entries →
      Ordered key (items.foldl (fun entries i => update key (k i) (base i) (change i) entries)
        entries)
  | [], _, h => h
  | i :: items, _, h => ordered_foldl hkeeps items (ordered_update (hkeeps i) h)

/-- **The total of a key after many updates** is the sum of what those of the key add. -/
theorem total_foldl {n : ι → Int} (hkeeps : ∀ i, Keeps key (k i) (base i) (change i))
    (hadds : ∀ i, Adds value (base i) (change i) (n i)) (k' : κ) :
    ∀ (items : List ι) (entries : List α),
      total key value k' (items.foldl
        (fun entries i => update key (k i) (base i) (change i) entries) entries) =
      total key value k' entries + (items.map fun i => if k i = k' then n i else 0).sum
  | [], _ => by simp
  | i :: items, entries => by
    rw [List.foldl_cons, total_foldl hkeeps hadds k' items, total_update (hkeeps i) (hadds i),
      List.map_cons, List.sum_cons, Int.add_assoc]

end Many

theorem sum_ite_eq_countP {ι : Type} (p : ι → Bool) : ∀ items : List ι,
    (items.map fun i => if p i = true then (1 : Int) else 0).sum = items.countP p
  | [] => rfl
  | i :: items => by
    rw [List.map_cons, List.sum_cons, sum_ite_eq_countP p items, List.countP_cons]
    split <;> push_cast <;> omega

end JobQueue.Keyed
