import Mathlib.Data.List.Induction
import Mathlib.Data.List.Infix

/-!
# Bounded queues

A queue of a given capacity makes room for a new element by dropping its oldest ones,
and loses in between the elements that some condition picks.  The contents are told
here by what was pushed and picked: an element stays until it is picked or until as
many others as there are places have come after it.
-/

namespace BoundedQueue

variable {α : Type}

/-- A new element, or the end of the elements that a condition picks. -/
inductive Event (α : Type) where
  | push (element : α)
  | remove (picks : α → Bool)

/-- The newest elements, so that there is room for one more. -/
def makeRoom (capacity : Nat) (contents : List α) : List α :=
  contents.drop (contents.length + 1 - capacity)

def step (capacity : Nat) (contents : List α) : Event α → List α
  | .push element => makeRoom capacity contents ++ [element]
  | .remove picks => contents.filter fun element => !picks element

/-- What an empty queue holds after some events. -/
def contents (capacity : Nat) (events : List (Event α)) : List α :=
  events.foldl (step capacity) []

def Event.pushed : Event α → Option α
  | push element => some element
  | remove _ => none

/-- The element is among those that the event removes. -/
def Event.Picks (element : α) : Event α → Prop
  | push _ => False
  | remove picks => picks element = true

variable {capacity : Nat}

@[simp]
theorem contents_nil : contents capacity ([] : List (Event α)) = [] :=
  rfl

@[simp]
theorem contents_snoc (events : List (Event α)) (event : Event α) :
    contents capacity (events ++ [event]) =
      step capacity (contents capacity events) event := by
  simp [contents]

theorem makeRoom_sublist (contents : List α) :
    (makeRoom capacity contents).Sublist contents :=
  List.drop_sublist _ _

theorem length_makeRoom (positive : 0 < capacity) (contents : List α) :
    (makeRoom capacity contents).length < capacity := by
  simp only [makeRoom, List.length_drop]
  omega

/-- Dropping elements one by one until there is room. -/
theorem makeRoom_cons (element : α) (rest : List α) :
    makeRoom capacity (element :: rest) =
      if (element :: rest).length ≥ capacity then makeRoom capacity rest
      else element :: rest := by
  unfold makeRoom
  split_ifs with full
  · have drops : (element :: rest).length + 1 - capacity =
        rest.length + 1 - capacity + 1 := by
      simp only [List.length_cons] at full ⊢
      omega
    rw [drops, List.drop_succ_cons]
  · have none : (element :: rest).length + 1 - capacity = 0 := by omega
    rw [none, List.drop_zero]

/-- There are never more elements than places. -/
theorem length_contents (positive : 0 < capacity) (events : List (Event α)) :
    (contents capacity events).length ≤ capacity := by
  induction events using List.reverseRecOn with
  | nil => simp
  | append_singleton events event ih =>
      rw [contents_snoc]
      cases event with
      | push element =>
          have room := length_makeRoom positive (contents capacity events)
          simp only [step, List.length_append, List.length_singleton]
          omega
      | remove picks => exact (List.length_filter_le _ _).trans ih

/-- The elements are in the order in which they came. -/
theorem contents_sublist (events : List (Event α)) :
    (contents capacity events).Sublist (events.filterMap Event.pushed) := by
  induction events using List.reverseRecOn with
  | nil => simp
  | append_singleton events event ih =>
      rw [contents_snoc, List.filterMap_append]
      cases event with
      | push element =>
          exact ((makeRoom_sublist _).trans ih).append (List.Sublist.refl _)
      | remove picks =>
          simp only [List.filterMap_cons, Event.pushed, List.filterMap_nil,
            List.append_nil]
          exact List.filter_sublist.trans ih

/-- An element was there before or came since. -/
theorem mem_contents_append {front back : List (Event α)} {element : α}
    (member : element ∈ contents capacity (front ++ back)) :
    element ∈ contents capacity front ∨ element ∈ back.filterMap Event.pushed := by
  induction back using List.reverseRecOn with
  | nil => simpa using member
  | append_singleton back event ih =>
      rw [← List.append_assoc, contents_snoc] at member
      rw [List.filterMap_append, List.mem_append]
      cases event with
      | push other =>
          rcases List.mem_append.mp member with old | new
          · rcases ih ((makeRoom_sublist _).subset old) with before | since
            · exact .inl before
            · exact .inr (.inl since)
          · exact .inr (.inr (by simpa [Event.pushed] using new))
      | remove picks =>
          rcases ih (List.mem_of_mem_filter member) with before | since
          · exact .inl before
          · exact .inr (.inl since)

/-- An element that was picked is gone unless it came again. -/
theorem not_mem_of_picks {front back : List (Event α)} {event : Event α} {element : α}
    (picked : event.Picks element)
    (once : element ∉ back.filterMap Event.pushed) :
    element ∉ contents capacity (front ++ event :: back) := by
  intro member
  rw [List.append_cons] at member
  rcases mem_contents_append member with still | again
  · rw [contents_snoc] at still
    cases event with
    | push other => exact picked
    | remove picks =>
        have kept := List.of_mem_filter still
        simp only [Bool.not_eq_true'] at kept
        exact absurd picked (by simp [Event.Picks, kept])
  · exact once again

/-- An element that is not picked has at most those after it that came after it. -/
theorem contents_after_push (element : α) (front back : List (Event α))
    (unpicked : ∀ event ∈ back, ¬ event.Picks element)
    (few : (back.filterMap Event.pushed).length < capacity) :
    ∃ older newer, contents capacity (front ++ .push element :: back) =
        older ++ element :: newer ∧
      newer.length ≤ (back.filterMap Event.pushed).length := by
  induction back using List.reverseRecOn with
  | nil =>
      refine ⟨makeRoom capacity (contents capacity front), [], ?_, Nat.zero_le _⟩
      exact contents_snoc front (.push element)
  | append_singleton back event ih =>
      rw [List.filterMap_append, List.length_append] at few ⊢
      obtain ⟨older, newer, before, bound⟩ := ih
        (fun other member => unpicked other (List.mem_append_left _ member)) (by omega)
      rw [← List.cons_append, ← List.append_assoc, contents_snoc, before]
      cases event with
      | push other =>
          simp only [List.filterMap_cons, Event.pushed, List.filterMap_nil,
            List.length_singleton] at few ⊢
          -- there are enough places for what came after the element
          have places : (older ++ element :: newer).length + 1 - capacity ≤
              older.length := by
            simp only [List.length_append, List.length_cons]
            omega
          refine ⟨older.drop ((older ++ element :: newer).length + 1 - capacity),
            newer ++ [other], ?_, ?_⟩
          · rw [step, makeRoom, List.drop_append_of_le_length places]
            simp
          · simp only [List.length_append, List.length_singleton]
            omega
      | remove picks =>
          have kept : picks element = false := by
            have notPicked := unpicked (.remove picks) (by simp)
            simpa [Event.Picks] using notPicked
          refine ⟨older.filter fun other => !picks other,
            newer.filter fun other => !picks other, ?_, ?_⟩
          · simp [step, List.filter_append, kept]
          · have fewer := List.length_filter_le (fun other => !picks other) newer
            omega

/-- An element that is not picked stays while fewer others come than there are
places. -/
theorem mem_contents_of_few (element : α) (front back : List (Event α))
    (unpicked : ∀ event ∈ back, ¬ event.Picks element)
    (few : (back.filterMap Event.pushed).length < capacity) :
    element ∈ contents capacity (front ++ .push element :: back) := by
  obtain ⟨older, newer, held, -⟩ :=
    contents_after_push element front back unpicked few
  simp [held]

end BoundedQueue
