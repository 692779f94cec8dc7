import StreamlingPlugins.Changelog
import StreamlingPlugins.PostgresCdc.Bridge

/-!
# Replaying the changelog of a table

A consumer that upserts by primary key and removes a key on a `d` row replays
the rows of `convertEvents` into a copy of the source table.  This module states
what Postgres emits for a change of a row (`Emits`, `Streams`), and when the
replay arrives at the source table: exactly when every key that an update moves a
row away from is written again later (`replay_eq_iff`).  The converter sends no
row for the vacated key, so nothing else removes it from the copy.
-/

namespace StreamlingPlugins.PostgresCdc

variable {Cell : Type}

/-! ## Cells by column name -/

/-- Zipping names with their own images looks every name up. -/
theorem lookup_zip_map (f : String → Option Cell) {names : List String} {c : String}
    (member : c ∈ names) : (names.zip (names.map f)).lookup c = some (f c) := by
  induction names with
  | nil => cases member
  | cons name names ih =>
      simp only [List.map_cons, List.zip_cons_cons, List.lookup_cons]
      by_cases same : c = name
      · subst same
        simp
      · have other : (c == name) = false := by simpa using same
        rw [other]
        exact ih (by simpa [same] using member)

/-- The same for images that drop no name. -/
theorem lookup_zip_filterMap (f : String → Option Cell) {names : List String}
    (total : ∀ c ∈ names, (f c).isSome) {c : String} (member : c ∈ names) :
    (names.zip (names.filterMap f)).lookup c = f c := by
  induction names with
  | nil => cases member
  | cons name names ih =>
      obtain ⟨cell, found⟩ := Option.isSome_iff_exists.mp (total name List.mem_cons_self)
      simp only [List.filterMap_cons, found, List.zip_cons_cons, List.lookup_cons]
      by_cases same : c = name
      · subst same
        simp [found]
      · have other : (c == name) = false := by simpa using same
        rw [other]
        exact ih (fun d later => total d (List.mem_cons_of_mem _ later)) (by simpa [same] using member)

/-- A complete row has a cell for every column. -/
theorem lookup_zip_isSome {names : List String} {row : List Cell}
    (complete : row.length = names.length) {c : String} (member : c ∈ names) :
    ((names.zip row).lookup c).isSome := by
  induction names generalizing row with
  | nil => cases member
  | cons name names ih =>
      cases row with
      | nil => cases complete
      | cons cell row =>
          simp only [List.zip_cons_cons, List.lookup_cons]
          by_cases same : c = name
          · simp [same]
          · have other : (c == name) = false := by simpa using same
            rw [other]
            exact ih (by simpa using complete) (by simpa [same] using member)

/-! ## The source table and what is emitted for it -/

/-- A replicated table with a primary key that is published, identifies rows and
is among the output columns of its source. -/
structure ReplicatedTable where
  schema : ReplicatedTableSchema
  primaryKey : List String
  dataColumns : List String
  columns_nodup : schema.columnSchemas.Nodup
  identity_nodup : schema.identityColumnSchemas.Nodup
  identity_published : ∀ c ∈ schema.identityColumnSchemas, c ∈ schema.columnSchemas
  dataColumns_nodup : dataColumns.Nodup
  primaryKey_ne_nil : primaryKey ≠ []
  primaryKey_output : ∀ c ∈ primaryKey, c ∈ dataColumns
  primaryKey_identity : ∀ c ∈ primaryKey, c ∈ schema.identityColumnSchemas

/-- A change of one row of the source table. -/
inductive RowChange (Cell : Type)
  | insert (row : List Cell)
  | update (old new : List Cell)
  | delete (old : List Cell)
  deriving DecidableEq

namespace ReplicatedTable

variable (T : ReplicatedTable)

/-- The cell of a column in a row of the source table. -/
def cellAt (row : List Cell) (column : String) : Option Cell :=
  (T.schema.columnSchemas.zip row).lookup column

/-- The primary key of a row of the source table. -/
def key (row : List Cell) : List (Option Cell) :=
  T.primaryKey.map (T.cellAt row)

/-- A row of the source table in the output columns. -/
def project (row : List Cell) : List (Option Cell) :=
  T.dataColumns.map (T.cellAt row)

/-- The primary key of an output row. -/
def outputKey (values : List (Option Cell)) : List (Option Cell) :=
  T.primaryKey.map fun c => ((T.dataColumns.zip values).lookup c).join

/-- The identity columns of a row, as a key image carries them. -/
def keyImage (row : List Cell) : List Cell :=
  T.schema.identityColumnSchemas.filterMap (T.cellAt row)

/-- The converter of the table's source. -/
def converter (emitUpdateBeforeRow : Bool) : RowConverter :=
  .new (tableLabel T.schema) T.dataColumns emitUpdateBeforeRow

/-- A row with one cell per column. -/
def Complete (row : List Cell) : Prop :=
  row.length = T.schema.columnSchemas.length

instance (row : List Cell) : Decidable (T.Complete row) :=
  inferInstanceAs (Decidable (_ = _))

variable [DecidableEq Cell]

/-- The changes a row change makes to the table keyed by primary key. -/
def changes : RowChange Cell → List (Change (List (Option Cell)) (List Cell))
  | .insert row => [⟨T.key row, some row⟩]
  | .update old new => [⟨T.key old, none⟩, ⟨T.key new, some new⟩]
  | .delete old => [⟨T.key old, none⟩]

/-- The table after a sequence of row changes. -/
def applyAll (t : Table (List (Option Cell)) (List Cell)) (cs : List (RowChange Cell)) :
    Table (List (Option Cell)) (List Cell) :=
  Change.replay t (cs.flatMap T.changes)

/-- A row change the table admits: it reads the current row of its key, and
writes a key that is free or its own. -/
def Enabled (t : Table (List (Option Cell)) (List Cell)) : RowChange Cell → Prop
  | .insert row => T.Complete row ∧ t (T.key row) = none
  | .update old new => T.Complete old ∧ T.Complete new ∧ t (T.key old) = some old ∧
      (T.key new = T.key old ∨ t (T.key new) = none)
  | .delete old => T.Complete old ∧ t (T.key old) = some old

/-- Every row change is admitted by the table its predecessors leave. -/
def Valid (t : Table (List (Option Cell)) (List Cell)) : List (RowChange Cell) → Prop
  | [] => True
  | c :: cs => T.Enabled t c ∧ Valid (T.applyAll t [c]) cs

/-- What Postgres emits for a row change: new images are complete; a delete, and
an update that changes the key, carry at least the key of the old row. -/
inductive Emits : RowChange Cell → Event Cell → Prop
  | insert (row : List Cell) : Emits (.insert row) (.insert T.schema row)
  | update {old new : List Cell} (sameKey : T.key old = T.key new) :
    Emits (.update old new) (.update T.schema (.full new) none)
  | updateKey (old new : List Cell) :
    Emits (.update old new) (.update T.schema (.full new) (some (.key (T.keyImage old))))
  | updateFull (old new : List Cell) :
    Emits (.update old new) (.update T.schema (.full new) (some (.full old)))
  | deleteKey (old : List Cell) :
    Emits (.delete old) (.delete T.schema (some (.key (T.keyImage old))))
  | deleteFull (old : List Cell) : Emits (.delete old) (.delete T.schema (some (.full old)))

/-- An event that carries no row of the table and does not truncate it. -/
def Silent : Event Cell → Prop
  | .begin | .commit | .relation _ | .unsupported => True
  | .insert schema _ => tableLabel schema ≠ tableLabel T.schema
  | .update schema _ _ => tableLabel schema ≠ tableLabel T.schema
  | .delete schema _ => tableLabel schema ≠ tableLabel T.schema
  | .truncate tables => ∀ table ∈ tables, tableLabel table ≠ tableLabel T.schema

/-- A replication stream that carries a sequence of row changes. -/
inductive Streams : List (RowChange Cell) → List (Event Cell) → Prop
  | nil : Streams [] []
  | silent {cs : List (RowChange Cell)} {es : List (Event Cell)} {e : Event Cell} :
    T.Silent e → Streams cs es → Streams cs (e :: es)
  | change {cs : List (RowChange Cell)} {es : List (Event Cell)} {c : RowChange Cell}
      {e : Event Cell} :
    T.Emits c e → Streams cs es → Streams (c :: cs) (e :: es)

/-! ## The consumer -/

/-- What a consumer does with an output row: a `d` row removes its key, every
other row upserts by its key. -/
def consume (row : CdcRow Cell) : Change (List (Option Cell)) (List (Option Cell)) :=
  ⟨T.outputKey row.values, if gsOpFor row.op = .d then none else some row.values⟩

/-- A copy of the source table in the output columns. -/
def copy (t : Table (List (Option Cell)) (List Cell)) :
    Table (List (Option Cell)) (List (Option Cell)) :=
  fun k => (t k).map T.project

/-- A row change writes a key: the key holds the change's new row afterwards. -/
def Writes (k : List (Option Cell)) : RowChange Cell → Prop
  | .insert row => T.key row = k
  | .update _ new => T.key new = k
  | .delete _ => False

/-- Every key an update moves a row away from is written again later. -/
def VacatedKeysRewritten (cs : List (RowChange Cell)) : Prop :=
  ∀ pre old new post, cs = pre ++ .update old new :: post → T.key new ≠ T.key old →
    ∃ c ∈ post, T.Writes (T.key old) c

/-! ## What one event sends -/

variable {T} {c : RowChange Cell} {e : Event Cell} {row : List Cell}

omit [DecidableEq Cell] in
/-- The output key of an aligned image is the image's cells at the key columns. -/
theorem outputKey_map (f : String → Option Cell) :
    T.outputKey (T.dataColumns.map f) = T.primaryKey.map f := by
  apply List.map_congr_left
  intro c member
  rw [lookup_zip_map f (T.primaryKey_output c member)]
  rfl

omit [DecidableEq Cell] in
/-- The key image of a complete row has the row's cells at the identity columns. -/
theorem lookup_keyImage (complete : T.Complete row) {column : String}
    (member : column ∈ T.schema.identityColumnSchemas) :
    (T.schema.identityColumnSchemas.zip (T.keyImage row)).lookup column = T.cellAt row column :=
  lookup_zip_filterMap _
    (fun d identity => lookup_zip_isSome complete (T.identity_published d identity)) member

omit [DecidableEq Cell] in
theorem aligned_eq_project (emit : Bool) (row : List Cell) :
    (T.converter emit).aligned T.schema row [] = T.project row :=
  RowConverter.aligned_full T.dataColumns_nodup T.columns_nodup row

omit [DecidableEq Cell] in
/-- A key image is aligned to a row with the old row's key. -/
theorem outputKey_alignedOld_key (complete : T.Complete row) (emit : Bool) :
    T.outputKey ((T.converter emit).alignedOld T.schema (.key (T.keyImage row))) =
      T.key row := by
  unfold converter
  rw [RowConverter.alignedOld_key T.dataColumns_nodup T.identity_nodup, outputKey_map]
  apply List.map_congr_left
  intro column member
  exact lookup_keyImage complete (T.primaryKey_identity column member)

variable (T) in
/-- The change a consumer makes for a row change, without retractions. -/
def sentChange : RowChange Cell → Change (List (Option Cell)) (List (Option Cell))
  | .insert row => ⟨T.key row, some (T.project row)⟩
  | .update _ new => ⟨T.key new, some (T.project new)⟩
  | .delete old => ⟨T.key old, none⟩

omit [DecidableEq Cell] in
/-- With `emit_update_before_row` off, the event of a row change sends one row:
the new image of an insert or update, the old key of a delete. -/
theorem convertEvent_of_emits (complete : ∀ old, c = .delete old → T.Complete old)
    (emits : T.Emits c e) :
    ((T.converter false).convertEvent e).map T.consume = [T.sentChange c] := by
  have matched : (T.converter false).matchesTable T.schema = true := by
    simp [RowConverter.matchesTable, converter, RowConverter.new]
  have off : (T.converter false).emitUpdateBeforeRow = false := rfl
  have keyed (row : List Cell) : T.outputKey (T.project row) = T.key row := outputKey_map _
  cases emits with
  | insert row =>
      simp [RowConverter.convertEvent, matched, consume, gsOpFor, aligned_eq_project, keyed,
        sentChange]
  | update sameKey =>
      simp [RowConverter.convertEvent, matched, off, consume, gsOpFor, aligned_eq_project, keyed,
        sentChange]
  | updateKey old new =>
      simp [RowConverter.convertEvent, matched, off, consume, gsOpFor, aligned_eq_project, keyed,
        sentChange]
  | updateFull old new =>
      simp [RowConverter.convertEvent, matched, off, consume, gsOpFor, aligned_eq_project, keyed,
        sentChange]
  | deleteKey old =>
      simp [RowConverter.convertEvent, matched, consume, gsOpFor,
        outputKey_alignedOld_key (complete old rfl), sentChange]
  | deleteFull old =>
      simp [RowConverter.convertEvent, matched, consume, gsOpFor, RowConverter.alignedOld,
        aligned_eq_project, keyed, sentChange]

omit [DecidableEq Cell] in
theorem convertEvent_of_silent (emit : Bool) (silent : T.Silent e) :
    (T.converter emit).convertEvent e = [] := by
  cases e with
  | begin => rfl
  | commit => rfl
  | relation schema => rfl
  | unsupported => rfl
  | truncate tables => rfl
  | insert schema row =>
      have foreign : (T.converter emit).matchesTable schema = false :=
        decide_eq_false silent
      simp [RowConverter.convertEvent, foreign]
  | update schema new old =>
      have foreign : (T.converter emit).matchesTable schema = false :=
        decide_eq_false silent
      simp [RowConverter.convertEvent, foreign]
  | delete schema old =>
      have foreign : (T.converter emit).matchesTable schema = false :=
        decide_eq_false silent
      simp [RowConverter.convertEvent, foreign]

/-- A valid sequence extended by one row change. -/
theorem valid_concat {t : Table (List (Option Cell)) (List Cell)} {cs : List (RowChange Cell)}
    {c : RowChange Cell} :
    T.Valid t (cs ++ [c]) ↔ T.Valid t cs ∧ T.Enabled (T.applyAll t cs) c := by
  induction cs generalizing t with
  | nil => simp [Valid, applyAll]
  | cons d cs ih =>
      have split : T.applyAll t (d :: cs) = T.applyAll (T.applyAll t [d]) cs := by
        simp [applyAll, Change.replay_append]
      simp only [List.cons_append, Valid, ih, split]
      exact and_assoc.symm

/-- A delete of a valid sequence removes a complete row. -/
theorem Valid.complete_of_delete {t : Table (List (Option Cell)) (List Cell)}
    {cs : List (RowChange Cell)} (valid : T.Valid t cs) {old : List Cell}
    (member : .delete old ∈ cs) : T.Complete old := by
  induction cs generalizing t with
  | nil => cases member
  | cons d cs ih =>
      rcases List.mem_cons.mp member with rfl | later
      · exact valid.1.1
      · exact ih valid.2 later

omit [DecidableEq Cell] in
/-- The rows of a stream make one change per row change it carries. -/
theorem convertEvents_of_streams {cs : List (RowChange Cell)} {es : List (Event Cell)}
    (complete : ∀ old, .delete old ∈ cs → T.Complete old) (streams : T.Streams cs es) :
    ((T.converter false).convertEvents es).map T.consume = cs.map T.sentChange := by
  induction streams with
  | nil => rfl
  | silent silent _ ih =>
      have rest := ih complete
      simpa [RowConverter.convertEvents, convertEvent_of_silent false silent] using rest
  | change emits _ ih =>
      have rest := ih fun old later => complete old (List.mem_cons_of_mem _ later)
      have head := convertEvent_of_emits (fun old same => complete old (by simp [same])) emits
      simp only [RowConverter.convertEvents, List.flatMap_cons, List.map_append, List.map_cons] at rest ⊢
      rw [head, rest]
      rfl

/-! ## Stale keys -/

variable (T) in
/-- The last change that touches `k` moves a row away from it. -/
def Vacated (cs : List (RowChange Cell)) (k : List (Option Cell)) : Prop :=
  ∃ pre old new post, cs = pre ++ .update old new :: post ∧ T.key old = k ∧ T.key new ≠ k ∧
    ∀ c ∈ post, ¬ T.Writes k c

omit [DecidableEq Cell] in
theorem vacated_concat {cs : List (RowChange Cell)} {c : RowChange Cell}
    {k : List (Option Cell)} :
    T.Vacated (cs ++ [c]) k ↔
      (∃ old new, c = .update old new ∧ T.key old = k ∧ T.key new ≠ k) ∨
        (T.Vacated cs k ∧ ¬ T.Writes k c) := by
  constructor
  · rintro ⟨pre, old, new, post, split, oldKey, newKey, unwritten⟩
    rcases List.eq_nil_or_concat post with rfl | ⟨post, last, rfl⟩
    · obtain ⟨-, same⟩ := List.append_inj' split rfl
      exact .inl ⟨old, new, by simpa using same, oldKey, newKey⟩
    · rw [List.concat_eq_append, ← List.cons_append, ← List.append_assoc] at split
      obtain ⟨rfl, same⟩ := List.append_inj' split rfl
      obtain rfl : c = last := by simpa using same
      exact .inr ⟨⟨pre, old, new, post, rfl, oldKey, newKey,
        fun d member => unwritten d (by simp [member])⟩, unwritten c (by simp)⟩
  · rintro (⟨old, new, rfl, oldKey, newKey⟩ | ⟨⟨pre, old, new, post, rfl, oldKey, newKey, rest⟩, last⟩)
    · exact ⟨cs, old, new, [], rfl, oldKey, newKey, by simp⟩
    · refine ⟨pre, old, new, post ++ [c], by simp, oldKey, newKey, fun d member => ?_⟩
      rcases List.mem_append.mp member with earlier | final
      · exact rest d earlier
      · obtain rfl : d = c := by simpa using final
        exact last

/-- At a vacated key the source table has no row and the replayed copy has one;
at every other key they agree. -/
theorem replay_at_key {t : Table (List (Option Cell)) (List Cell)} {cs : List (RowChange Cell)}
    (valid : T.Valid t cs) (k : List (Option Cell)) :
    (T.Vacated cs k → T.applyAll t cs k = none ∧
        Change.replay (T.copy t) (cs.map T.sentChange) k ≠ none) ∧
      (¬ T.Vacated cs k → Change.replay (T.copy t) (cs.map T.sentChange) k =
        T.copy (T.applyAll t cs) k) := by
  induction cs using List.reverseRecOn with
  | nil =>
      refine ⟨fun ⟨pre, old, new, post, split, _⟩ => ?_, fun _ => rfl⟩
      simp at split
  | append_singleton cs c ih =>
      obtain ⟨valid, enabled⟩ := valid_concat.mp valid
      obtain ⟨stale, fresh⟩ := ih valid
      have source : T.applyAll t (cs ++ [c]) = Change.replay (T.applyAll t cs) (T.changes c) := by
        simp [applyAll, Change.replay_append]
      have copied : Change.replay (T.copy t) ((cs ++ [c]).map T.sentChange) =
          (T.sentChange c).apply (Change.replay (T.copy t) (cs.map T.sentChange)) := by
        rw [List.map_append, List.map_singleton, Change.replay_concat]
      rw [vacated_concat, source, copied]
      cases c with
      | insert row =>
          by_cases touched : k = T.key row
          · subst touched
            simp [Writes, changes, sentChange, Change.apply, copy]
          · simpa [Writes, changes, sentChange, Change.apply, copy, touched, Ne.symm touched]
              using ⟨stale, fresh⟩
      | delete old =>
          by_cases touched : k = T.key old
          · subst touched
            have notStale : ¬ T.Vacated cs (T.key old) := fun vacated => by
              have current := enabled.2
              rw [(stale vacated).1] at current
              cases current
            simp [Writes, changes, sentChange, Change.apply, copy, notStale]
          · simpa [Writes, changes, sentChange, Change.apply, copy, touched, Ne.symm touched]
              using ⟨stale, fresh⟩
      | update old new =>
          obtain ⟨-, -, current, -⟩ := enabled
          by_cases written : k = T.key new
          · subst written
            simp [Writes, changes, sentChange, Change.apply, copy]
          · by_cases touched : k = T.key old
            · subst touched
              have notStale : ¬ T.Vacated cs (T.key old) := fun vacated => by
                rw [(stale vacated).1] at current
                cases current
              have kept := fresh notStale
              simp [Writes, changes, sentChange, Change.apply, copy, written, Ne.symm written,
                kept, current]
            · simpa [Writes, changes, sentChange, Change.apply, copy, written, touched,
                Ne.symm written, Ne.symm touched] using ⟨stale, fresh⟩

omit [DecidableEq Cell] in
theorem vacatedKeysRewritten_iff {cs : List (RowChange Cell)} :
    T.VacatedKeysRewritten cs ↔ ∀ k, ¬ T.Vacated cs k := by
  constructor
  · rintro rewritten k ⟨pre, old, new, post, split, rfl, moved, unwritten⟩
    obtain ⟨c, member, writes⟩ := rewritten pre old new post split moved
    exact unwritten c member writes
  · intro fresh pre old new post split moved
    by_contra unwritten
    push Not at unwritten
    exact fresh (T.key old) ⟨pre, old, new, post, split, rfl, moved, unwritten⟩

/-- **When the changelog replays to the source table.**  With
`emit_update_before_row` off, replaying the rows of a stream into a copy of the
initial table yields the copy of the final table if and only if every key that an
update moves a row away from is written again later. -/
theorem replay_eq_iff {t : Table (List (Option Cell)) (List Cell)} {cs : List (RowChange Cell)}
    {es : List (Event Cell)} (valid : T.Valid t cs) (streams : T.Streams cs es) :
    Change.replay (T.copy t) (((T.converter false).convertEvents es).map T.consume) =
        T.copy (T.applyAll t cs) ↔ T.VacatedKeysRewritten cs := by
  rw [convertEvents_of_streams (fun _ member => valid.complete_of_delete member) streams,
    vacatedKeysRewritten_iff]
  constructor
  · intro same k vacated
    obtain ⟨gone, kept⟩ := (replay_at_key valid k).1 vacated
    rw [same] at kept
    simp [copy, gone] at kept
  · intro fresh
    funext k
    exact (replay_at_key valid k).2 (fresh k)

/-! ## A table of users -/

/-- `public.users (id, name)` with primary key `id` under the default replica
identity. -/
def users : ReplicatedTable where
  schema := ⟨⟨"public", "users"⟩, ["id", "name"], ["id"]⟩
  primaryKey := ["id"]
  dataColumns := ["id", "name"]
  columns_nodup := by decide
  identity_nodup := by decide
  identity_published := by decide
  dataColumns_nodup := by decide
  primaryKey_ne_nil := by decide
  primaryKey_output := by decide
  primaryKey_identity := by decide

/-- The table that holds the one row `(1, 10)`. -/
def oneUser : Table (List (Option Nat)) (List Nat) :=
  fun k => if k = [some 1] then some [1, 10] else none

/-- An update that moves the row from key `1` to key `2` leaves the row of key `1`
in the copy. -/
theorem moved_user_keeps_old_row :
    users.Valid oneUser [.update [1, 10] [2, 10]] ∧
      users.Streams [.update [1, 10] [2, 10]]
        [.update users.schema (.full [2, 10]) (some (.key (users.keyImage [1, 10])))] ∧
      Change.replay (users.copy oneUser) (((users.converter false).convertEvents
        [.update users.schema (.full [2, 10]) (some (.key (users.keyImage [1, 10])))]).map
          users.consume) ≠
        users.copy (users.applyAll oneUser [.update [1, 10] [2, 10]]) := by
  refine ⟨⟨⟨rfl, rfl, rfl, .inr rfl⟩, trivial⟩, .change (.updateKey _ _) .nil, fun same => ?_⟩
  have at_old := congrFun same [some 1]
  revert at_old
  decide

/-- A vacated key that a later insert writes again is replayed exactly. -/
theorem replay_eq_iff_users :
    Change.replay (users.copy oneUser) (((users.converter false).convertEvents
      [.update users.schema (.full [2, 10]) (some (.key (users.keyImage [1, 10]))),
        .insert users.schema [1, 11]]).map users.consume) =
      users.copy (users.applyAll oneUser [.update [1, 10] [2, 10], .insert [1, 11]]) := by
  have valid : users.Valid oneUser [.update [1, 10] [2, 10], .insert [1, 11]] :=
    ⟨⟨rfl, rfl, rfl, .inr rfl⟩, ⟨rfl, rfl⟩, trivial⟩
  refine (replay_eq_iff valid (.change (.updateKey _ _) (.change (.insert _) .nil))).mpr ?_
  rintro (_ | ⟨_, _ | ⟨_, _ | ⟨_, _⟩⟩⟩) old new post split moved
  · cases split
    exact ⟨.insert [1, 11], by simp, rfl⟩
  all_goals simp at split

end ReplicatedTable

end StreamlingPlugins.PostgresCdc
