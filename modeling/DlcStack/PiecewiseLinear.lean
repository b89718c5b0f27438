import Mathlib.Algebra.Order.Field.Basic
import Mathlib.Tactic.Ring
import Mathlib.Topology.Algebra.Ring.Basic
import Mathlib.Topology.Order.OrderClosed

/-!
# Piecewise linear paths

A list of points draws a path: the segments between neighbouring points.  Paths
that meet in a point join to one.  A path whose points rise is the graph of a
function on the interval from its first to its last point, which is continuous
and does not fall.
-/

namespace PiecewiseLinear

variable {K : Type}

section Order

variable [LinearOrder K]

/-- The points go strictly to the right and do not fall. -/
def Rises (points : List (K × K)) : Prop :=
  points.IsChain fun left right => left.1 < right.1 ∧ left.2 ≤ right.2

/-- No point of a rising path is to the right of its last one. -/
theorem le_last {first : K × K} {rest : List (K × K)} (rises : Rises (first :: rest)) :
    first.1 ≤ ((first :: rest).getLast (List.cons_ne_nil _ _)).1 := by
  induction rest generalizing first with
  | nil => rfl
  | cons second rest ih =>
      obtain ⟨⟨apart, -⟩, rises⟩ := List.isChain_cons_cons.mp rises
      rw [List.getLast_cons_cons]
      exact apart.le.trans (ih rises)

end Order

variable [Field K]

/-- The line through two points. -/
def line (left right : K × K) (x : K) : K :=
  left.2 + (x - left.1) * ((right.2 - left.2) / (right.1 - left.1))

@[simp]
theorem line_left (left right : K × K) : line left right left.1 = left.2 := by
  simp [line]

theorem line_right {left right : K × K} (apart : left.1 ≠ right.1) :
    line left right right.1 = right.2 := by
  have apart : right.1 - left.1 ≠ 0 := sub_ne_zero.mpr apart.symm
  unfold line
  rw [mul_div_cancel₀ _ apart]
  ring

/-- A line through points of one height is level. -/
theorem line_of_level {left right : K × K} (level : left.2 = right.2) (x : K) :
    line left right x = right.2 := by
  simp [line, level]

section Path

variable [LinearOrder K]

/-- The point `(x, y)` is on one of the segments. -/
def OnPath : List (K × K) → K → K → Prop
  | left :: right :: rest, x, y =>
      left.1 ≤ x ∧ x ≤ right.1 ∧ y = line left right x ∨ OnPath (right :: rest) x y
  | _, _, _ => False

/-- The function whose graph the segments are. -/
def path : List (K × K) → K → K
  | left :: right :: rest, x =>
      if x ≤ right.1 then line left right x else path (right :: rest) x
  | [point], _ => point.2
  | [], _ => 0

/-- A path is made of the paths before and after one of its points. -/
theorem onPath_append (front back : List (K × K)) (middle : K × K) (x y : K) :
    OnPath (front ++ middle :: back) x y ↔
      OnPath (front ++ [middle]) x y ∨ OnPath (middle :: back) x y := by
  induction front with
  | nil => simp [OnPath]
  | cons left front ih =>
      cases front with
      | nil => simp [OnPath]
      | cons right front =>
          simp only [List.cons_append, OnPath] at ih ⊢
          rw [ih, or_assoc]

/-- The function starts at the first point. -/
theorem path_first {first : K × K} {rest : List (K × K)} (rises : Rises (first :: rest)) :
    path (first :: rest) first.1 = first.2 := by
  cases rest with
  | nil => rfl
  | cons second rest =>
      have right : first.1 ≤ second.1 := (List.isChain_cons_cons.mp rises).1.1.le
      simp [path, right]

/-- To the right of a point the function is that of the points from there on. -/
theorem path_of_le {first second : K × K} {rest : List (K × K)}
    (rises : Rises (first :: second :: rest)) {x : K} (right : second.1 ≤ x) :
    path (first :: second :: rest) x = path (second :: rest) x := by
  obtain ⟨⟨apart, -⟩, rises⟩ := List.isChain_cons_cons.mp rises
  rcases right.eq_or_lt with rfl | less
  · simp [path, line_right apart.ne, path_first rises]
  · simp [path, not_le.mpr less]

/-- The segments of a rising path are the graph of its function. -/
theorem onPath_iff {first second : K × K} {rest : List (K × K)}
    (rises : Rises (first :: second :: rest)) {x y : K} :
    OnPath (first :: second :: rest) x y ↔
      first.1 ≤ x ∧ x ≤ ((second :: rest).getLast (List.cons_ne_nil _ _)).1 ∧
        y = path (first :: second :: rest) x := by
  induction rest generalizing first second with
  | nil =>
      simp only [OnPath, or_false, List.getLast_singleton, path]
      constructor
      · rintro ⟨left, right, rfl⟩
        exact ⟨left, right, by rw [if_pos right]⟩
      · rintro ⟨left, right, rfl⟩
        exact ⟨left, right, by rw [if_pos right]⟩
  | cons third rest ih =>
      obtain ⟨⟨apart, -⟩, later⟩ := List.isChain_cons_cons.mp rises
      rw [List.getLast_cons_cons, OnPath, ih later]
      constructor
      · rintro (⟨left, right, rfl⟩ | ⟨left, right, rfl⟩)
        · refine ⟨left, right.trans ?_, by rw [path, if_pos right]⟩
          rw [← List.getLast_cons_cons]
          exact le_last later
        · exact ⟨apart.le.trans left, right, (path_of_le rises left).symm⟩
      · rintro ⟨left, right, rfl⟩
        rcases le_total x second.1 with before | after
        · exact .inl ⟨left, before, by rw [path, if_pos before]⟩
        · exact .inr ⟨after, right, path_of_le rises after⟩

variable [IsStrictOrderedRing K]

theorem line_mono {left right : K × K} (apart : left.1 < right.1)
    (rising : left.2 ≤ right.2) : Monotone (line left right) := by
  intro x x' before
  have slope : 0 ≤ (right.2 - left.2) / (right.1 - left.1) :=
    div_nonneg (sub_nonneg.mpr rising) (sub_pos.mpr apart).le
  unfold line
  gcongr

/-- The function of a rising path does not fall. -/
theorem path_mono {first : K × K} {rest : List (K × K)}
    (rises : Rises (first :: rest)) : MonotoneOn (path (first :: rest)) (Set.Ici first.1) := by
  induction rest generalizing first with
  | nil => exact monotoneOn_const
  | cons second rest ih =>
      obtain ⟨⟨apart, rising⟩, later⟩ := List.isChain_cons_cons.mp rises
      intro x left x' left' before
      rcases le_total x' second.1 with onFirst | beyond
      · rw [path, path, if_pos onFirst, if_pos (before.trans onFirst)]
        exact line_mono apart rising before
      · rw [path_of_le rises beyond]
        rcases le_total x second.1 with onFirst | beyond'
        · calc path (first :: second :: rest) x = line first second x := by
                rw [path, if_pos onFirst]
            _ ≤ line first second second.1 := line_mono apart rising onFirst
            _ = path (second :: rest) second.1 := by
                rw [line_right apart.ne, path_first later]
            _ ≤ path (second :: rest) x' := ih later (Set.mem_Ici.mpr le_rfl) beyond beyond
        · rw [path_of_le rises beyond']
          exact ih later beyond' beyond before

end Path

section Topology

variable [TopologicalSpace K] [IsTopologicalRing K]

theorem continuous_line (left right : K × K) : Continuous (line left right) := by
  unfold line
  fun_prop

/-- The function of a rising path has no jumps. -/
theorem continuous_path [LinearOrder K] [OrderClosedTopology K] {points : List (K × K)}
    (rises : Rises points) : Continuous (path points) := by
  induction points with
  | nil => exact continuous_const
  | cons first rest ih =>
      cases rest with
      | nil => exact continuous_const
      | cons second rest =>
          obtain ⟨⟨apart, -⟩, later⟩ := List.isChain_cons_cons.mp rises
          apply Continuous.if_le (continuous_line first second) (ih later) continuous_id
            continuous_const
          intro x same
          rw [id_eq] at same
          rw [same, line_right apart.ne, path_first later]

end Topology

end PiecewiseLinear
