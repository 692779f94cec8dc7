import Mathlib

/-!
# Fallible computations and pointwise lists

What a successful `Except` computation went through, and how lists that are
related element by element share names and properties.
-/

namespace StreamlingPlugins

variable {α β γ ε : Type}

/-- A successful computation went through its first part. -/
theorem bind_eq_ok {x : Except ε α} {f : α → Except ε β} {b : β}
    (done : x >>= f = .ok b) : ∃ a, x = .ok a ∧ f a = .ok b := by
  cases x with
  | error e => cases done
  | ok a => exact ⟨a, rfl, done⟩

theorem map_eq_ok {x : Except ε α} {f : α → β} {b : β} (done : x.map f = .ok b) :
    ∃ a, x = .ok a ∧ f a = b := by
  cases x with
  | error e => cases done
  | ok a => exact ⟨a, rfl, Except.ok.inj done⟩

/-- A successful traversal has a result for every element. -/
theorem forall₂_of_mapM_eq_ok {f : α → Except ε β} {l : List α} {m : List β}
    (done : l.mapM f = .ok m) : List.Forall₂ (fun a b => f a = .ok b) l m := by
  induction l generalizing m with
  | nil =>
      cases done
      exact .nil
  | cons a l ih =>
      rw [List.mapM_cons] at done
      obtain ⟨b, head, done⟩ := bind_eq_ok done
      obtain ⟨bs, tail, done⟩ := bind_eq_ok done
      cases done
      exact .cons head (ih tail)

theorem mapM_eq_ok_iff {f : α → Except ε β} {l : List α} {m : List β} :
    l.mapM f = .ok m ↔ List.Forall₂ (fun a b => f a = .ok b) l m := by
  refine ⟨forall₂_of_mapM_eq_ok, fun results => ?_⟩
  induction results with
  | nil => rfl
  | cons head _ ih =>
      rw [List.mapM_cons, head, ih]
      rfl

/-- A traversal succeeds with the results of all elements. -/
theorem mapM_eq_some_iff {f : α → Option β} {l : List α} {m : List β} :
    l.mapM f = some m ↔ l.map f = m.map some := by
  induction l generalizing m with
  | nil => cases m <;> simp
  | cons a l ih =>
      rw [List.mapM_cons, List.map_cons]
      constructor
      · intro done
        obtain ⟨b, head, done⟩ := Option.bind_eq_some_iff.mp done
        obtain ⟨bs, tail, done⟩ := Option.bind_eq_some_iff.mp done
        cases done
        rw [head, ih.mp tail, List.map_cons]
      · intro same
        cases m with
        | nil => cases same
        | cons b m =>
            obtain ⟨head, tail⟩ := List.cons.inj same
            simp [head, ih.mpr tail]

/-- A traversal succeeds if all elements do. -/
theorem isSome_mapM_iff {f : α → Option β} {l : List α} :
    (l.mapM f).isSome ↔ ∀ a ∈ l, (f a).isSome := by
  constructor
  · intro done a mem
    obtain ⟨m, done⟩ := Option.isSome_iff_exists.mp done
    obtain ⟨b, -, found⟩ := List.mem_map.mp (mapM_eq_some_iff.mp done ▸ List.mem_map_of_mem mem)
    rw [← found]
    rfl
  · intro each
    induction l with
    | nil => rfl
    | cons a l ih =>
        obtain ⟨head, tail⟩ := List.forall_mem_cons.mp each
        obtain ⟨b, found⟩ := Option.isSome_iff_exists.mp head
        obtain ⟨m, rest⟩ := Option.isSome_iff_exists.mp (ih tail)
        simp [List.mapM_cons, found, rest]

theorem exists_forall₂_of_forall_mem {R : α → β → Prop} {l : List α}
    (each : ∀ a ∈ l, ∃ b, R a b) : ∃ m, List.Forall₂ R l m := by
  induction l with
  | nil => exact ⟨[], .nil⟩
  | cons a l ih =>
      obtain ⟨⟨b, head⟩, others⟩ := List.forall_mem_cons.mp each
      obtain ⟨m, tail⟩ := ih others
      exact ⟨b :: m, .cons head tail⟩

theorem exists_of_mem_of_forall₂ {R : α → β → Prop} {l : List α} {m : List β}
    (pairs : List.Forall₂ R l m) {a : α} (mem : a ∈ l) : ∃ b, R a b := by
  induction pairs with
  | nil => cases mem
  | cons related _ ih =>
      rcases List.mem_cons.mp mem with rfl | later
      · exact ⟨_, related⟩
      · exact ih later

theorem exists_common_of_forall₂ {R S : α → β → Prop} {l : List α} {m : List β}
    (left : List.Forall₂ R l m) (right : List.Forall₂ S l m) {a : α} (mem : a ∈ l) :
    ∃ b, R a b ∧ S a b := by
  induction left with
  | nil => cases mem
  | cons related _ ih =>
      cases right with
      | cons related' right =>
          rcases List.mem_cons.mp mem with rfl | later
          · exact ⟨_, related, related'⟩
          · exact ih right later

/-- Pointwise relations compose. -/
theorem forall₂_comp {R : α → β → Prop} {S : β → γ → Prop} {l : List α}
    {m : List β} {n : List γ} (left : List.Forall₂ R l m) (right : List.Forall₂ S m n) :
    List.Forall₂ (fun a c => ∃ b, R a b ∧ S b c) l n := by
  induction left generalizing n with
  | nil =>
      cases right
      exact .nil
  | cons related rest ih =>
      cases right with
      | cons related' rest' => exact .cons ⟨_, related, related'⟩ (ih rest')

/-- A pointwise relation of results that are numbered. -/
theorem forall₂_mapIdx {R : α → β → Prop} {S : α → γ → Prop} {l : List α} {m : List β}
    {f : Nat → β → γ} (pairs : List.Forall₂ R l m) (carries : ∀ i a b, R a b → S a (f i b)) :
    List.Forall₂ S l (m.mapIdx f) := by
  induction pairs generalizing f with
  | nil => exact .nil
  | cons related _ ih =>
      rw [List.mapIdx_cons]
      exact .cons (carries 0 _ _ related) (ih fun i => carries (i + 1))

theorem map_eq_of_forall₂ {f : α → γ} {g : β → γ} {l : List α} {m : List β}
    (pairs : List.Forall₂ (fun a b => g b = f a) l m) : m.map g = l.map f := by
  induction pairs with
  | nil => rfl
  | cons same _ ih => rw [List.map_cons, List.map_cons, same, ih]

theorem forall_mem_iff_of_forall₂ {P : α → Prop} {Q : β → Prop} {l : List α}
    {m : List β} (pairs : List.Forall₂ (fun a b => Q b ↔ P a) l m) :
    (∀ b ∈ m, Q b) ↔ ∀ a ∈ l, P a := by
  induction pairs with
  | nil => simp
  | cons related _ ih => simp only [List.forall_mem_cons, related, ih]

/-- Relations that agree on the elements of the first list. -/
theorem forall₂_iff_of_agree {R S : α → β → Prop} {l : List α} {m : List β}
    (agree : ∀ a ∈ l, ∀ b, R a b ↔ S a b) : List.Forall₂ R l m ↔ List.Forall₂ S l m := by
  induction l generalizing m with
  | nil => simp
  | cons a l ih =>
      rw [List.forall_mem_cons] at agree
      cases m with
      | nil => simp
      | cons b m => rw [List.forall₂_cons, List.forall₂_cons, agree.1, ih agree.2]

/-- Renaming errors does not touch success. -/
theorem mapError_eq_ok {ε' : Type} {x : Except ε α} {f : ε → ε'} {a : α} :
    x.mapError f = .ok a ↔ x = .ok a := by
  cases x with
  | ok => simp [Except.mapError]
  | error => simp [Except.mapError]

end StreamlingPlugins
