import JobQueue.Proofs.Json.RoundTrip
import Mathlib.Data.List.Chain

/-! # Chains of nested containers

A list or an object is a container, and what stands directly in it are its children. A nesting is a
chain of containers, the outermost first, in which each next one is a child of the one before.

`Json.depth` is defined by the recursion over a value. It is the length of the longest nesting that
begins with the value, if the value is a container; empty containers count like all others.

* `Json.length_le_depth`: no nesting is longer than the depth of its first container.
* `Json.exists_nesting`: one is as long.
* `Json.longestNesting_iff`: **the depth is the length of the longest nesting.** -/

namespace JobQueue.Json

/-- The value is a list or an object. -/
def isContainer : Json → Bool
  | .arr _ => true
  | .obj _ => true
  | _ => false

/-- The values that stand directly in the value. -/
def children : Json → List Json
  | .arr items => items
  | .obj fields => fields.map Prod.snd
  | _ => []

/-- **A chain of nested containers**, the outermost first. -/
structure IsNesting (chain : List Json) : Prop where
  containers : ∀ v ∈ chain, v.isContainer = true
  nested : chain.IsChain fun outer inner => inner ∈ outer.children

/-- **The longest nesting that begins with the value** has this length. -/
structure LongestNesting (v : Json) (n : Nat) : Prop where
  reached : ∃ inner, IsNesting (v :: inner) ∧ (v :: inner).length = n
  bound : ∀ inner, IsNesting (v :: inner) → (v :: inner).length ≤ n

/-! ### The depth, container by container -/

theorem depthFields_eq (fields : Fields) :
    depthFields fields = depthItems (fields.map Prod.snd) := by
  induction fields with
  | nil => rfl
  | cons m rest ih => simp [depthFields, depthItems, ih]

theorem depth_of_container {v : Json} (h : v.isContainer = true) :
    v.depth = depthItems v.children + 1 := by
  cases v with
  | arr items => exact depth_arr items
  | obj fields => rw [depth_obj, depthFields_eq]; rfl
  | _ => cases h

theorem isContainer_of_depth_pos {v : Json} (h : 0 < v.depth) : v.isContainer = true := by
  cases v with
  | arr items => rfl
  | obj fields => rfl
  | _ => simp [depth] at h

theorem exists_mem_depthItems {items : List Json} (h : 0 < depthItems items) :
    ∃ v ∈ items, v.depth = depthItems items := by
  induction items with
  | nil => simp [depthItems] at h
  | cons u rest ih =>
    have hmax : depthItems (u :: rest) = max u.depth (depthItems rest) := by simp [depthItems]
    by_cases hu : depthItems rest ≤ u.depth
    · exact ⟨u, List.mem_cons_self, by omega⟩
    · obtain ⟨v, hv, hdepth⟩ := ih (by omega)
      exact ⟨v, List.mem_cons_of_mem u hv, by omega⟩

theorem depth_lt_of_mem_children {v u : Json} (hv : v.isContainer = true) (hu : u ∈ v.children) :
    u.depth < v.depth := by
  have hle := depthItems_le_iff.1 le_rfl u hu
  have hdepth := depth_of_container hv
  omega

/-! ### Nestings -/

theorem isNesting_singleton {v : Json} (h : v.isContainer = true) : IsNesting [v] :=
  ⟨by simpa using h, by simp⟩

theorem isNesting_cons_cons {v u : Json} {inner : List Json} :
    IsNesting (v :: u :: inner) ↔
      v.isContainer = true ∧ u ∈ v.children ∧ IsNesting (u :: inner) := by
  constructor
  · rintro ⟨hcontainers, hnested⟩
    obtain ⟨hv, hinner⟩ := List.forall_mem_cons.1 hcontainers
    obtain ⟨hu, hrest⟩ := List.isChain_cons_cons.1 hnested
    exact ⟨hv, hu, hinner, hrest⟩
  · rintro ⟨hv, hu, hcontainers, hnested⟩
    exact ⟨List.forall_mem_cons.2 ⟨hv, hcontainers⟩, List.isChain_cons_cons.2 ⟨hu, hnested⟩⟩

/-- **No nesting is longer than its first container is deep**: each next container is less deep. -/
theorem length_le_depth {v : Json} {inner : List Json} (h : IsNesting (v :: inner)) :
    (v :: inner).length ≤ v.depth := by
  induction inner generalizing v with
  | nil =>
    have hdepth := depth_of_container (h.containers v List.mem_cons_self)
    simp only [List.length_cons, List.length_nil]
    omega
  | cons u inner ih =>
    obtain ⟨hv, hu, hinner⟩ := isNesting_cons_cons.1 h
    have hlength := ih hinner
    have hlt := depth_lt_of_mem_children hv hu
    simp only [List.length_cons] at hlength ⊢
    omega

/-- **Some nesting is as long as its first container is deep.** The induction is on the depth: the
chain goes on with a deepest child, as long as that is a container. -/
theorem exists_nesting (n : Nat) {v : Json} (hv : v.isContainer = true) (hn : v.depth = n) :
    ∃ inner, IsNesting (v :: inner) ∧ (v :: inner).length = n := by
  induction n generalizing v with
  | zero =>
    have hdepth := depth_of_container hv
    omega
  | succ n ih =>
    have hdepth := depth_of_container hv
    by_cases hpos : 0 < depthItems v.children
    · obtain ⟨u, hu, hdeepest⟩ := exists_mem_depthItems hpos
      have hcontainer : u.isContainer = true := isContainer_of_depth_pos (by omega)
      obtain ⟨inner, hinner, hlength⟩ := ih hcontainer (by omega)
      have hnesting : IsNesting (v :: u :: inner) := isNesting_cons_cons.2 ⟨hv, hu, hinner⟩
      exact ⟨u :: inner, hnesting, congrArg (· + 1) hlength⟩
    · refine ⟨[], isNesting_singleton hv, ?_⟩
      simp only [List.length_cons, List.length_nil]
      omega

/-- **The depth of a container is the length of the longest nesting that begins with it.** -/
theorem longestNesting_iff {v : Json} (hv : v.isContainer = true) {n : Nat} :
    LongestNesting v n ↔ v.depth = n := by
  obtain ⟨inner, hinner, hlength⟩ := exists_nesting v.depth hv rfl
  constructor
  · rintro ⟨⟨other, hother, rfl⟩, hbound⟩
    have hreached := hbound inner hinner
    have hle := length_le_depth hother
    omega
  · rintro rfl
    exact ⟨⟨inner, hinner, hlength⟩, fun other hother => length_le_depth hother⟩

/-- An empty list is a level of its own; a scalar is none. -/
example : (Json.obj [("a", .arr []), ("b", .int 7)]).depth = 2 := by decide

end JobQueue.Json
