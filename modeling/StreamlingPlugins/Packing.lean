import Mathlib

/-!
# Greedy cuts

A list cut in order into pieces that fit, each as long as it can be.  A cut is built
from the front, piece by piece, or from the back, item by item.
-/

namespace StreamlingPlugins

variable {α : Type*}

/-- The items in pieces that fit, none of which could have taken the first item of the
next. -/
structure GreedyPieces (Fits : List α → Prop) (items : List α) (pieces : List (List α)) :
    Prop where
  whole : pieces.flatten = items
  filled : ∀ piece ∈ pieces, piece ≠ []
  fit : ∀ piece ∈ pieces, Fits piece
  tight : pieces.IsChain fun piece next => ∀ item ∈ next.head?, ¬ Fits (piece ++ [item])

namespace GreedyPieces

variable {Fits : List α → Prop} {items piece : List α} {pieces : List (List α)}

theorem nil : GreedyPieces Fits [] [] :=
  ⟨rfl, nofun, nofun, .nil⟩

/-- A first piece before the pieces of the rest. -/
theorem cons (rest : GreedyPieces Fits items pieces) (filled : piece ≠ []) (fits : Fits piece)
    (full : ∀ item ∈ items.head?, ¬ Fits (piece ++ [item])) :
    GreedyPieces Fits (piece ++ items) (piece :: pieces) where
  whole := by rw [List.flatten_cons, rest.whole]
  filled := List.forall_mem_cons.mpr ⟨filled, rest.filled⟩
  fit := List.forall_mem_cons.mpr ⟨fits, rest.fit⟩
  tight := by
    cases pieces with
    | nil => exact .singleton _
    | cons next pieces =>
        refine List.isChain_cons_cons.mpr ⟨fun item first => full item ?_, rest.tight⟩
        rw [← rest.whole, List.flatten_cons, List.head?_append, first]
        rfl

/-- One more item in the last piece. -/
theorem extend {item : α} (cut : GreedyPieces Fits items (pieces ++ [piece]))
    (fits : Fits (piece ++ [item])) :
    GreedyPieces Fits (items ++ [item]) (pieces ++ [piece ++ [item]]) := by
  have filled := cut.filled piece (by simp)
  refine ⟨?_, fun other mem => ?_, fun other mem => ?_, ?_⟩
  · have whole := cut.whole
    simp only [List.flatten_append, List.flatten_singleton] at whole ⊢
    rw [← whole, List.append_assoc]
  · rcases List.mem_append.mp mem with before | last
    · exact cut.filled other (List.mem_append_left _ before)
    · simp [List.mem_singleton.mp last]
  · rcases List.mem_append.mp mem with before | last
    · exact cut.fit other (List.mem_append_left _ before)
    · rw [List.mem_singleton.mp last]
      exact fits
  · obtain ⟨before, _, joint⟩ := List.isChain_append.mp cut.tight
    refine List.isChain_append.mpr ⟨before, .singleton _, fun last is_last next is_next => ?_⟩
    cases is_next
    rw [List.head?_append_of_ne_nil _ filled]
    exact joint last is_last piece rfl

/-- One more item in a piece of its own. -/
theorem push {item : α} (cut : GreedyPieces Fits items pieces) (alone : Fits [item])
    (full : ∀ piece ∈ pieces.getLast?, ¬ Fits (piece ++ [item])) :
    GreedyPieces Fits (items ++ [item]) (pieces ++ [[item]]) := by
  refine ⟨by simp [cut.whole], fun other mem => ?_, fun other mem => ?_, ?_⟩
  · rcases List.mem_append.mp mem with before | last
    · exact cut.filled other before
    · simp [List.mem_singleton.mp last]
  · rcases List.mem_append.mp mem with before | last
    · exact cut.fit other before
    · rw [List.mem_singleton.mp last]
      exact alone
  · refine List.isChain_append.mpr ⟨cut.tight, .singleton _, fun last is_last next is_next => ?_⟩
    cases is_next
    rintro _ ⟨⟩
    exact full last is_last

end GreedyPieces

end StreamlingPlugins
