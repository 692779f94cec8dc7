import StreamlingPlugins.Text

/-!
# Texts with holes

A pattern of fixed parts and holes, filled with texts in which a separator does not occur.
Where a separator stands between any two holes, the filled text determines what fills
them.
-/

namespace StreamlingPlugins

universe u

variable {α : Type u}

/-- A part of a pattern. -/
inductive Part (α : Type u)
  | fixed (text : List α)
  | hole

/-- What may stand for a part. -/
inductive Part.Fills (sep : α) : Part α → List α → Prop
  | fixed (text : List α) : Fills sep (.fixed text) text
  | hole {text : List α} (free : sep ∉ text) : Fills sep .hole text

/-- A separator stands between any two holes, and before the first one if a hole is open. -/
def holesApart [DecidableEq α] (sep : α) : (isOpen : Bool) → List (Part α) → Bool
  | _, [] => true
  | isOpen, .fixed text :: parts => holesApart sep (isOpen && !decide (sep ∈ text)) parts
  | isOpen, .hole :: parts => !isOpen && holesApart sep true parts

/-- What follows the last separator before a hole is compared with it: `a` and `b` are
the two texts since then. -/
theorem fillings_eq_of_append [DecidableEq α] {sep : α} {isOpen : Bool} {parts : List (Part α)}
    {texts texts' : List (List α)} {a b : List α} (apart : holesApart sep isOpen parts = true)
    (fills : List.Forall₂ (Part.Fills sep) parts texts)
    (fills' : List.Forall₂ (Part.Fills sep) parts texts') (free : sep ∉ a) (free' : sep ∉ b)
    (closed : isOpen = false → a = b) (same : a ++ texts.flatten = b ++ texts'.flatten) :
    a = b ∧ texts = texts' := by
  induction fills generalizing isOpen texts' a b with
  | nil =>
      cases fills'
      simpa using same
  | @cons part text parts texts fill fills ih =>
      cases fills' with
      | @cons _ text' _ texts' fill' fills' =>
          rw [List.flatten_cons, List.flatten_cons] at same
          cases fill with
          | hole hole_free =>
              cases fill' with
              | hole hole_free' =>
                  simp only [holesApart, Bool.and_eq_true, Bool.not_eq_true'] at apart
                  obtain rfl := closed apart.1
                  obtain ⟨rfl, rfl⟩ :=
                    ih apart.2 fills' hole_free hole_free' nofun (List.append_cancel_left same)
                  exact ⟨rfl, rfl⟩
          | fixed =>
              cases fill'
              by_cases member : sep ∈ text
              · obtain ⟨before, after, rfl, before_free⟩ := List.eq_append_cons_of_mem member
                simp only [List.append_assoc, List.cons_append] at same
                rw [← List.append_assoc, ← List.append_assoc] at same
                obtain ⟨since, rest⟩ := append_cons_inj_of_notMem
                  (by simp [free, before_free]) (by simp [free', before_free]) same
                simp only [holesApart, member, decide_true, Bool.not_true, Bool.and_false] at apart
                have tails := ih apart fills' List.not_mem_nil List.not_mem_nil
                  (fun _ => rfl) (List.append_cancel_left rest)
                exact ⟨List.append_cancel_right since, by rw [tails.2]⟩
              · rw [← List.append_assoc, ← List.append_assoc] at same
                simp only [holesApart, member, decide_false, Bool.not_false, Bool.and_true]
                  at apart
                obtain ⟨since, rfl⟩ := ih apart fills' (by simp [free, member])
                  (by simp [free', member]) (fun stays => by rw [closed stays]) same
                exact ⟨List.append_cancel_right since, rfl⟩

/-- **The filled text determines what fills the holes.** -/
theorem fillings_eq [DecidableEq α] {sep : α} {parts : List (Part α)}
    {texts texts' : List (List α)} (apart : holesApart sep false parts = true)
    (fills : List.Forall₂ (Part.Fills sep) parts texts)
    (fills' : List.Forall₂ (Part.Fills sep) parts texts')
    (same : texts.flatten = texts'.flatten) : texts = texts' :=
  (fillings_eq_of_append apart fills fills' List.not_mem_nil List.not_mem_nil (fun _ => rfl)
    (by simpa using same)).2

end StreamlingPlugins
