import AcosChat.Lib.Run
import Mathlib.Data.List.Count
import Mathlib.Data.List.Induction

/-!
# Waiting lines

Elements join a line at its back or at its front and leave it from the front; when it is
closed it is empty for good. Who joins decides who leaves first: an element that joins at the
back leaves after all that are in the line, and one that joins at the front before them.
-/
namespace Line

open Run

variable {β : Type}

inductive Event (β : Type) where
  | back (x : β)
  | front (x : β)
  | left (x : β)
  | closed
deriving DecidableEq

def after (line : List β) : Event β → List β
  | .back x => line ++ [x]
  | .front x => x :: line
  | .left _ => line.tail
  | .closed => []

/-- Who is in the line, from its front. -/
def line (events : List (Event β)) : List β := events.foldl after []

/-- Only the first one leaves, and nothing happens to a closed line. -/
def Due (before : List (Event β)) (event : Event β) : Prop :=
  .closed ∉ before ∧ ∀ x, event = .left x → (line before).head? = some x

abbrev Orderly (events : List (Event β)) : Prop := Follows Due events

def Event.joins : Event β → Option β
  | .back x | .front x => some x
  | .left _ | .closed => none

def joined (events : List (Event β)) : List β := events.filterMap Event.joins

@[simp] theorem line_append_singleton (events : List (Event β)) (event : Event β) :
    line (events ++ [event]) = after (line events) event := by
  rw [line, List.foldl_append, List.foldl_cons, List.foldl_nil, line]

theorem joined_append (events later : List (Event β)) :
    joined (events ++ later) = joined events ++ joined later :=
  List.filterMap_append

/-- An element is not longer in the line, or has left it, more often than it has joined. -/
theorem count_line_add_count_left_le [DecidableEq β] {events : List (Event β)}
    (orderly : Orderly events) (x : β) :
    (line events).count x + events.count (.left x) ≤ (joined events).count x := by
  induction events using List.reverseRecOn with
  | nil => exact Nat.le_refl 0
  | append_singleton events event ih =>
    obtain ⟨orderly, due⟩ := (follows_append_singleton events event).mp orderly
    have before := ih orderly
    rw [line_append_singleton, joined_append, List.count_append, List.count_append]
    cases event with
    | back y =>
      have enters : (joined [Event.back y]).count x = [y].count x := rfl
      have none : [Event.back y].count (.left x) = 0 := by simp
      rw [after, List.count_append]
      omega
    | front y =>
      have enters : (joined [Event.front y]).count x = [y].count x := rfl
      have none : [Event.front y].count (.left x) = 0 := by simp
      rw [after, ← List.singleton_append, List.count_append]
      omega
    | left y =>
      -- what leaves is the head of the line, so that the line has one less of it
      have first := due.2 y rfl
      cases found : line events with
      | nil =>
        rw [found] at first
        cases first
      | cons head rest =>
        rw [found] at first before
        cases first
        simp only [after, List.tail_cons, List.count_cons, List.count_nil, beq_iff_eq] at before ⊢
        simp only [Event.left.injEq]
        split at before <;> simp_all <;> omega
    | closed =>
      have none : [(Event.closed : Event β)].count (.left x) = 0 := by simp
      simp only [after, List.count_nil]
      omega

/-- As long as the first of some elements does not leave, they stay in the line in order. -/
theorem stays {events later : List (Event β)} {p : β} {others : List β}
    (orderly : Orderly (events ++ later)) (here : (p :: others).Sublist (line events))
    (opened : .closed ∉ later) (remains : .left p ∉ later) :
    (p :: others).Sublist (line (events ++ later)) := by
  induction later generalizing events with
  | nil => rwa [List.append_nil]
  | cons event later ih =>
    have due := orderly events event later rfl
    rw [List.append_cons] at orderly ⊢
    apply ih orderly _ (fun member => opened (List.mem_cons_of_mem _ member))
      (fun member => remains (List.mem_cons_of_mem _ member))
    rw [line_append_singleton]
    cases event with
    | back x => exact here.trans (List.sublist_append_left _ _)
    | front x => exact here.trans (List.sublist_cons_self _ _)
    | left x =>
      have first := due.2 x rfl
      have other : p ≠ x := fun same => remains (same ▸ List.mem_cons_self)
      rw [after]
      cases found : line events with
      | nil => rw [found] at first; cases first
      | cons head rest =>
        rw [found] at first here
        cases first
        exact here.of_cons_of_ne other
    | closed => exact absurd List.mem_cons_self opened

/-- The first of two elements of a line is not there any more when the second leaves. -/
theorem left_of_ahead [DecidableEq β] {events later rest : List (Event β)} {p q : β}
    (orderly : Orderly (events ++ later ++ .left q :: rest))
    (once : (joined (events ++ later)).count q ≤ 1) (other : p ≠ q)
    (ahead : [p, q].Sublist (line events)) : .left p ∈ later := by
  by_contra remains
  obtain ⟨opened, first⟩ := orderly (events ++ later) (.left q) rest rfl
  have still : [p, q].Sublist (line (events ++ later)) := by
    apply stays _ ahead _ remains
    · exact orderly.of_append
    · exact fun member => opened (List.mem_append_right _ member)
  have count := count_line_add_count_left_le orderly.of_append q
  have head := first q rfl
  cases found : line (events ++ later) with
  | nil => rw [found] at head; cases head
  | cons x line =>
    rw [found] at head still count
    cases head
    have twice : [q].Sublist line := List.sublist_of_cons_sublist (still.of_cons_of_ne other)
    have again := List.count_pos_iff.mpr (twice.subset List.mem_cons_self)
    rw [List.count_cons_self] at count
    omega

theorem sublist_three {events : List (Event β)} {a b c : Event β} (inOrder : [a, b, c].Sublist events) :
    ∃ s t u v, events = s ++ [a] ++ t ++ [b] ++ u ++ [c] ++ v := by
  obtain ⟨first, others, rfl, memberA, inOrder⟩ := List.cons_sublist_iff.mp inOrder
  obtain ⟨second, last, rfl, memberB, inOrder⟩ := List.cons_sublist_iff.mp inOrder
  have memberC := inOrder.subset List.mem_cons_self
  obtain ⟨s, t, rfl⟩ := List.append_of_mem memberA
  obtain ⟨t', u, rfl⟩ := List.append_of_mem memberB
  obtain ⟨u', v, rfl⟩ := List.append_of_mem memberC
  exact ⟨s, t ++ t', u ++ u', v, by simp⟩

theorem mem_line_after {joinsX : Event β} {x : β} (joins : joinsX.joins = some x)
    (events : List (Event β)) : x ∈ line (events ++ [joinsX]) := by
  rw [line_append_singleton]
  cases joinsX with
  | back z =>
    cases joins
    exact List.mem_append_right _ List.mem_cons_self
  | front z =>
    cases joins
    exact List.mem_cons_self
  | left z => cases joins
  | closed => cases joins

theorem count_joined_le [DecidableEq β] (x : β) (events later : List (Event β)) :
    (joined events).count x ≤ (joined (events ++ later)).count x := by
  rw [joined_append, List.count_append]
  exact Nat.le_add_right _ _

section Order

variable [DecidableEq β] {events : List (Event β)} (orderly : Orderly events) {x y : β}
  {joinsX : Event β} (joins : joinsX.joins = some x) (other : x ≠ y)

include orderly joins other

/-- An element that joins at the back leaves after all that have joined before. -/
theorem left_before_of_back (once : (joined events).count y ≤ 1)
    (inOrder : [joinsX, .back y, .left y].Sublist events) :
    [Event.left x, .left y].Sublist events := by
  obtain ⟨s, t, u, v, rfl⟩ := sublist_three inOrder
  have opened := (orderly (s ++ [joinsX] ++ t ++ [.back y] ++ u) (.left y) v (by simp)).1
  have found : .left x ∈ s ++ [joinsX] ++ t ++ [.back y] ++ u := by
    by_cases early : .left x ∈ t
    · simp [early]
    · have still : [x].Sublist (line (s ++ [joinsX] ++ t)) := by
        apply stays orderly.of_append.of_append.of_append.of_append _ _ early
        · rw [List.singleton_sublist]
          exact mem_line_after joins s
        · exact fun member => opened (by simp [member])
      have ahead : [x, y].Sublist (line (s ++ [joinsX] ++ t ++ [.back y])) := by
        rw [line_append_singleton]
        exact still.append (.refl [y])
      have fewer := Nat.le_trans (count_joined_le y (s ++ [joinsX] ++ t ++ [.back y] ++ u) _)
        (by simpa using once)
      have late := left_of_ahead (by simpa using orderly) fewer other ahead
      simp [late]
  have before : [Event.left x].Sublist _ := List.singleton_sublist.mpr found
  exact (before.append (.refl [.left y])).trans (List.sublist_append_left _ _)

/-- An element that joins at the front leaves before all that are in the line. -/
theorem left_before_of_front (once : (joined events).count x ≤ 1)
    (inOrder : [joinsX, .front y, .left x].Sublist events) :
    [Event.left y, .left x].Sublist events := by
  obtain ⟨s, t, u, v, rfl⟩ := sublist_three inOrder
  obtain ⟨opened, first⟩ := orderly (s ++ [joinsX] ++ t ++ [.front y] ++ u) (.left x) v (by simp)
  have fewer := Nat.le_trans (count_joined_le x (s ++ [joinsX] ++ t ++ [.front y] ++ u) _)
    (by simpa using once)
  -- having joined once, the element is still there when it leaves, so it has not left before
  have early : .left x ∉ t := by
    intro early
    have count := count_line_add_count_left_le orderly.of_append.of_append x
    have present := List.count_pos_iff.mpr (List.mem_of_mem_head? (first x rfl))
    have gone : .left x ∈ s ++ [joinsX] ++ t ++ [.front y] ++ u := by simp [early]
    have again := List.count_pos_iff.mpr gone
    omega
  have still : [x].Sublist (line (s ++ [joinsX] ++ t)) := by
    apply stays orderly.of_append.of_append.of_append.of_append _ _ early
    · rw [List.singleton_sublist]
      exact mem_line_after joins s
    · exact fun member => opened (by simp [member])
  have ahead : [y, x].Sublist (line (s ++ [joinsX] ++ t ++ [.front y])) := by
    rw [line_append_singleton]
    exact still.cons_cons y
  have late := left_of_ahead (by simpa using orderly) fewer other.symm ahead
  have found : .left y ∈ s ++ [joinsX] ++ t ++ [.front y] ++ u := by simp [late]
  have before : [Event.left y].Sublist _ := List.singleton_sublist.mpr found
  exact (before.append (.refl [.left x])).trans (List.sublist_append_left _ _)

end Order

end Line
