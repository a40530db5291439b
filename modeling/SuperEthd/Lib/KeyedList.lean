import Mathlib.Algebra.BigOperators.Group.List.Basic
import Mathlib.Data.List.Nodup
import Mathlib.Tactic.Abel

/-! # Finite maps whose values know their keys

A map from `K` to `V` where each value has its own key in it, as the list of its values.  That no
two of them have one key is a field, so a look-up finds the only candidate, and every operation says
what it does by what a look-up finds afterwards. -/

/-- Values of which no two have the same key. -/
structure KeyedList {K V : Type} (key : V → K) where
  values : List V
  nodup : (values.map key).Nodup

namespace KeyedList
variable {K V : Type} {key : V → K} (m : KeyedList key) {k k' : K} {v w : V}

/-- No values. -/
def empty : KeyedList key := ⟨[], List.nodup_nil⟩

/-- The values that pass the test. -/
def filter (p : V → Bool) : KeyedList key :=
  ⟨m.values.filter p, m.nodup.sublist (List.filter_sublist.map key)⟩

/-- **One value a key.** -/
theorem unique (hv : v ∈ m.values) (hw : w ∈ m.values) (h : key v = key w) : v = w :=
  List.inj_on_of_nodup_map m.nodup hv hw h

variable [DecidableEq K]

/-- The value with key `k`. -/
def find? (k : K) : Option V := m.values.find? fun v => key v = k

/-- One more value, of a key that is not there yet. -/
def insertNew (v : V) (h : m.find? (key v) = none) : KeyedList key where
  values := v :: m.values
  nodup := by
    rw [List.map_cons, List.nodup_cons]
    refine ⟨fun hmem => ?_, m.nodup⟩
    obtain ⟨w, hw, hkey⟩ := List.mem_map.mp hmem
    exact absurd (decide_eq_true hkey) (List.find?_eq_none.mp h w hw)

/-- The value with key `k` is changed to one of the same key. -/
def adjust (k : K) (f : V → V) (hf : ∀ v, key (f v) = key v) : KeyedList key where
  values := m.values.map fun v => if key v = k then f v else v
  nodup := by
    have hkeys : (m.values.map fun v => if key v = k then f v else v).map key = m.values.map key := by
      rw [List.map_map]
      apply List.map_congr_left
      intro v _
      show key (if key v = k then f v else v) = key v
      by_cases h : key v = k
      · rw [if_pos h, hf]
      · rw [if_neg h]
    rw [hkeys]
    exact m.nodup

variable {m}

theorem find?_eq_some : m.find? k = some v ↔ v ∈ m.values ∧ key v = k := by
  constructor
  · intro h
    have hkey := List.find?_some (p := fun v => decide (key v = k)) h
    exact ⟨List.mem_of_find?_eq_some h, of_decide_eq_true hkey⟩
  · rintro ⟨hv, rfl⟩
    cases h : m.find? (key v) with
    | none => exact absurd (decide_eq_true rfl) (List.find?_eq_none.mp h v hv)
    | some w =>
      have hkey := List.find?_some (p := fun w => decide (key w = key v)) h
      rw [m.unique (List.mem_of_find?_eq_some h) hv (of_decide_eq_true hkey)]

theorem find?_insertNew_self (h : m.find? (key v) = none) :
    (m.insertNew v h).find? (key v) = some v :=
  find?_eq_some.mpr ⟨List.mem_cons_self, rfl⟩

theorem find?_insertNew_of_ne (h : m.find? (key v) = none) (hne : key v ≠ k) :
    (m.insertNew v h).find? k = m.find? k :=
  List.find?_cons_of_neg (by simp only [hne, decide_false, Bool.false_eq_true, not_false_eq_true])

theorem find?_adjust_self {f : V → V} (hf : ∀ v, key (f v) = key v) :
    (m.adjust k f hf).find? k = (m.find? k).map f := by
  ext w
  rw [find?_eq_some, Option.map_eq_some_iff]
  constructor
  · rintro ⟨hw, hkey⟩
    obtain ⟨v, hv, rfl⟩ := List.mem_map.mp hw
    by_cases h : key v = k
    · exact ⟨v, find?_eq_some.mpr ⟨hv, h⟩, (if_pos h).symm⟩
    · rw [if_neg h] at hkey
      exact absurd hkey h
  · rintro ⟨v, hv, rfl⟩
    obtain ⟨hv, hkey⟩ := find?_eq_some.mp hv
    exact ⟨List.mem_map.mpr ⟨v, hv, if_pos hkey⟩, (hf v).trans hkey⟩

theorem find?_adjust_of_ne {f : V → V} (hf : ∀ v, key (f v) = key v) (hne : k' ≠ k) :
    (m.adjust k f hf).find? k' = m.find? k' := by
  ext w
  rw [find?_eq_some, find?_eq_some]
  constructor
  · rintro ⟨hw, rfl⟩
    obtain ⟨v, hv, rfl⟩ := List.mem_map.mp hw
    by_cases h : key v = k
    · rw [if_pos h, hf] at hne
      exact absurd h hne
    · rw [if_neg h]
      exact ⟨hv, rfl⟩
  · rintro ⟨hw, rfl⟩
    exact ⟨List.mem_map.mpr ⟨w, hw, if_neg hne⟩, rfl⟩

theorem find?_filter (p : V → Bool) : (m.filter p).find? k = (m.find? k).filter p := by
  ext w
  rw [find?_eq_some, Option.filter_eq_some_iff, find?_eq_some]
  show w ∈ m.values.filter p ∧ key w = k ↔ _
  rw [List.mem_filter]
  exact and_right_comm

/-- A change of a value that is not there. -/
theorem adjust_values_of_none {f : V → V} (hf : ∀ v, key (f v) = key v) (h : m.find? k = none) :
    (m.adjust k f hf).values = m.values := by
  show (m.values.map fun v => if key v = k then f v else v) = m.values
  conv_rhs => rw [← List.map_id m.values]
  apply List.map_congr_left
  intro v hv
  exact if_neg fun hkey => List.find?_eq_none.mp h v hv (decide_eq_true hkey)

/-- A sum over the values, when one of them is changed. -/
theorem sum_adjust {M : Type} [AddCommMonoid M] (g : V → M) {f : V → V}
    (hf : ∀ v, key (f v) = key v) (hfind : m.find? k = some v) :
    ((m.adjust k f hf).values.map g).sum + g v = (m.values.map g).sum + g (f v) := by
  obtain ⟨hv, rfl⟩ := find?_eq_some.mp hfind
  obtain ⟨l1, l2, hl⟩ := List.append_of_mem hv
  have hne : ∀ w ∈ l1 ++ l2, key w ≠ key v := by
    have hnodup := m.nodup
    rw [hl, List.map_append, List.map_cons, List.nodup_middle, List.nodup_cons, ← List.map_append]
      at hnodup
    intro w hw hkey
    exact hnodup.1 (hkey ▸ List.mem_map_of_mem hw)
  have hsame : ∀ l : List V, (∀ w ∈ l, key w ≠ key v) →
      (l.map fun w => if key w = key v then f w else w) = l := by
    intro l hl
    conv_rhs => rw [← List.map_id l]
    apply List.map_congr_left
    intro w hw
    exact if_neg (hl w hw)
  show ((m.values.map fun w => if key w = key v then f w else w).map g).sum + g v = _
  rw [hl, List.map_append, List.map_cons, if_pos rfl, hsame l1 fun w hw => hne w (by simp [hw]),
    hsame l2 fun w hw => hne w (by simp [hw])]
  simp only [List.map_append, List.map_cons, List.sum_append, List.sum_cons]
  abel

end KeyedList
