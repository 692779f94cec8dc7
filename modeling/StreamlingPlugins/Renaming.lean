import StreamlingPlugins.Changelog

/-!
# Tables under other names

A table whose keys and values are renamed.  Where no two keys in use get one name, a changelog
that is renamed replays to the table that is renamed.
-/

namespace StreamlingPlugins

variable {K K' V V' : Type} {f : K → K'} {g : V → V'} {S : Set K} {t : Table K V}
  {t' : Table K' V'} {c : Change K V} {cs : List (Change K V)}

namespace Table

/-- A table holds no keys but these. -/
def Within (t : Table K V) (S : Set K) : Prop :=
  ∀ k v, t k = some v → k ∈ S

/-- The second table holds the renamed entries of the first one, and no others. -/
def Renamed (f : K → K') (g : V → V') (t : Table K V) (t' : Table K' V') : Prop :=
  ∀ k' v', t' k' = some v' ↔ ∃ k v, t k = some v ∧ f k = k' ∧ g v = v'

theorem Within.empty : Within (fun _ => none : Table K V) S := by
  intro k v held
  cases held

theorem Renamed.empty : Renamed f g (fun _ => none) (fun _ => none) := by
  simp [Renamed]

end Table

namespace Change

variable [DecidableEq K] [DecidableEq K']

end Change

end StreamlingPlugins
