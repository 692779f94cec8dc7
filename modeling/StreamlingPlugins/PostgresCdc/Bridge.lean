import StreamlingPlugins.PostgresCdc.Ledger

/-!
# From replication events to aligned rows

`RowConverter` aligns the cells of a replication event to the output columns of
one source by column name.  Cells are an arbitrary type; log messages have no
counterpart.
-/

namespace StreamlingPlugins.PostgresCdc

structure TableName where
  schema : String
  name : String
  deriving DecidableEq

/-- The replicated columns of a table by name, in schema order, and those of
its replica identity. -/
structure ReplicatedTableSchema where
  name : TableName
  columnSchemas : List String
  identityColumnSchemas : List String
  deriving DecidableEq

/-- `schema.table` label for an etl table schema. -/
def tableLabel (schema : ReplicatedTableSchema) : String :=
  schema.name.schema ++ "." ++ schema.name.name

/-- The old image of an update or delete: every column, or the identity columns. -/
inductive OldTableRow (Cell : Type)
  | full (row : List Cell)
  | key (row : List Cell)
  deriving DecidableEq

/-- The new image of an update: every column, or all but the `missing` indexes. -/
inductive UpdatedTableRow (Cell : Type)
  | full (row : List Cell)
  | partialRow (values : List Cell) (missing : List Nat)
  deriving DecidableEq

inductive Event (Cell : Type)
  | begin
  | commit
  | insert (schema : ReplicatedTableSchema) (tableRow : List Cell)
  | update (schema : ReplicatedTableSchema) (updatedTableRow : UpdatedTableRow Cell)
      (oldTableRow : Option (OldTableRow Cell))
  | delete (schema : ReplicatedTableSchema) (oldTableRow : Option (OldTableRow Cell))
  | truncate (truncatedTables : List ReplicatedTableSchema)
  | relation (schema : ReplicatedTableSchema)
  | unsupported
  deriving DecidableEq

inductive CdcOp
  | insert
  | update
  | delete
  | copy
  deriving DecidableEq

/-- Streamling's row kinds: `i`, `u` and `d`. -/
inductive RowKind
  | i
  | u
  | d
  deriving DecidableEq

/-- Maps the CDC operation to streamling's row kind. -/
def gsOpFor : CdcOp → RowKind
  | .update => .u
  | .delete => .d
  | .insert => .i
  | .copy => .i

/-- One change event, aligned to the output data columns. -/
structure CdcRow (Cell : Type) where
  op : CdcOp
  values : List (Option Cell)
  deriving DecidableEq

/-- Aligns replication-event cells to the output columns fixed at construction. -/
structure RowConverter where
  table : String
  colIdx : Std.ExtTreeMap String Nat
  nCols : Nat
  emitUpdateBeforeRow : Bool

namespace RowConverter

variable {Cell : Type}

def new (table : String) (dataColumns : List String) (emitUpdateBeforeRow : Bool) :
    RowConverter where
  table := table
  colIdx := .ofList dataColumns.zipIdx
  nCols := dataColumns.length
  emitUpdateBeforeRow := emitUpdateBeforeRow

def matchesTable (self : RowConverter) (schema : ReplicatedTableSchema) : Bool :=
  tableLabel schema = self.table

/-- Writes one cell at its column's output position, if the column is output. -/
def put (self : RowConverter) (out : List (Option Cell)) (column : String) (cell : Cell) :
    List (Option Cell) :=
  match self.colIdx[column]? with
  | some i => out.set i (some cell)
  | none => out

/-- The loop of `aligned` from column index `idx` on: a column whose index heads
`missing` consumes it, any other column consumes one value. -/
def alignedFrom (self : RowConverter) :
    Nat → List String → List Cell → List Nat → List (Option Cell) → List (Option Cell)
  | _, [], _, _, out => out
  | idx, col :: cols, vals, missing, out =>
    if missing.head? = some idx then
      alignedFrom self (idx + 1) cols vals missing.tail out
    else
      match vals with
      | [] => out
      | cell :: vals => alignedFrom self (idx + 1) cols vals missing (self.put out col cell)

/-- Aligns `values` (replicated-column order, `missing` indexes absent) to
output positions by column name. -/
def aligned (self : RowConverter) (schema : ReplicatedTableSchema) (values : List Cell)
    (missing : List Nat) : List (Option Cell) :=
  self.alignedFrom 0 schema.columnSchemas values missing (.replicate self.nCols none)

/-- Aligns an old-row image; a key image carries identity columns only. -/
def alignedOld (self : RowConverter) (schema : ReplicatedTableSchema) :
    OldTableRow Cell → List (Option Cell)
  | .full row => self.aligned schema row []
  | .key row =>
    (schema.identityColumnSchemas.zip row).foldl (fun out pair => self.put out pair.1 pair.2)
      (.replicate self.nCols none)

/-- The rows one event contributes. -/
def convertEvent (self : RowConverter) : Event Cell → List (CdcRow Cell)
  | .insert schema tableRow =>
    if self.matchesTable schema then [⟨.insert, self.aligned schema tableRow []⟩] else []
  | .update schema updatedTableRow oldTableRow =>
    if self.matchesTable schema then
      -- A key-only image cannot carry the prior non-key values, so only a full
      -- image is retracted.
      let before := if self.emitUpdateBeforeRow then
          match oldTableRow with
          | some (.full row) => [⟨.delete, self.alignedOld schema (.full row)⟩]
          | _ => []
        else []
      let values := match updatedTableRow with
        | .full row => self.aligned schema row []
        | .partialRow values missing => self.aligned schema values missing
      before ++ [⟨.update, values⟩]
    else []
  | .delete schema oldTableRow =>
    if self.matchesTable schema then
      match oldTableRow with
      | none => []
      | some old => [⟨.delete, self.alignedOld schema old⟩]
    else []
  | .begin | .commit | .truncate _ | .relation _ | .unsupported => []

/-- Converts one streaming-event batch into aligned rows. -/
def convertEvents (self : RowConverter) (events : List (Event Cell)) : List (CdcRow Cell) :=
  events.flatMap self.convertEvent

/-- Converts an initial-copy row batch into aligned `copy` rows. -/
def convertCopyRows (self : RowConverter) (schema : ReplicatedTableSchema)
    (tableRows : List (List Cell)) : List (CdcRow Cell) :=
  if self.matchesTable schema then
    tableRows.map fun row => ⟨.copy, self.aligned schema row []⟩
  else []

/-! ## What alignment computes -/

section Alignment

variable {table : String} {dataColumns : List String} {emit : Bool}

/-- An output column is found at its own position. -/
theorem new_colIdx_eq_some (distinct : dataColumns.Nodup) {column : String} {i : Nat} :
    (new table dataColumns emit).colIdx[column]? = some i ↔ dataColumns[i]? = some column := by
  have keys : (dataColumns.zipIdx.map Prod.fst) = dataColumns := by simp
  have separate : dataColumns.zipIdx.Pairwise fun a b => ¬ compare a.1 b.1 = .eq := by
    have fst : (dataColumns.zipIdx.map Prod.fst).Pairwise (· ≠ ·) := by
      rw [keys]
      exact distinct
    simpa using List.pairwise_map.mp fst
  constructor
  · intro found
    by_cases present : column ∈ dataColumns
    · obtain ⟨j, bound, rfl⟩ := List.getElem_of_mem present
      have at_j : (Std.ExtTreeMap.ofList dataColumns.zipIdx)[dataColumns[j]]? = some j :=
        Std.ExtTreeMap.getElem?_ofList_of_mem Std.ReflCmp.compare_self separate
          (List.mem_zipIdx_iff_getElem?.mpr (List.getElem?_eq_getElem bound))
      have same : i = j := by
        have := found.symm.trans at_j
        simpa using this
      subst same
      exact List.getElem?_eq_getElem bound
    · have absent : (Std.ExtTreeMap.ofList dataColumns.zipIdx)[column]? = none :=
        Std.ExtTreeMap.getElem?_ofList_of_contains_eq_false (by simpa using present)
      cases found.symm.trans absent
  · intro position
    exact Std.ExtTreeMap.getElem?_ofList_of_mem (by simp) separate
      (List.mem_zipIdx_iff_getElem?.mpr position)

/-- A write changes exactly the positions of its column. -/
theorem put_getElem? (distinct : dataColumns.Nodup) {out : List (Option Cell)}
    (length : out.length = dataColumns.length) (column : String) (cell : Cell) {i : Nat}
    {c : String} (position : dataColumns[i]? = some c) :
    ((new table dataColumns emit).put out column cell)[i]? =
      if c = column then some (some cell) else out[i]? := by
  have bound : i < out.length := by
    rw [length]
    exact (List.getElem?_eq_some_iff.mp position).1
  unfold put
  cases found : (new table dataColumns emit).colIdx[column]? with
  | none =>
      split_ifs with same
      · subst same
        rw [(new_colIdx_eq_some distinct).mpr position] at found
        cases found
      · rfl
  | some j =>
      have at_j := (new_colIdx_eq_some distinct).mp found
      by_cases same : c = column
      · have ij : j = i := by
          have at_i : (new table dataColumns emit).colIdx[c]? = some i :=
            (new_colIdx_eq_some distinct).mpr position
          rw [same, found] at at_i
          exact Option.some.inj at_i
        subst ij
        rw [if_pos same, List.getElem?_set_self bound]
      · have ij : j ≠ i := by
          rintro rfl
          exact same (Option.some.inj (position.symm.trans at_j))
        rw [if_neg same, List.getElem?_set_ne ij]

@[simp] theorem put_length (self : RowConverter) (out : List (Option Cell)) (column : String)
    (cell : Cell) : (self.put out column cell).length = out.length := by
  unfold put
  split <;> simp

/-- Writing the cells of distinct columns leaves at every output position the
cell of its column, or what was there before. -/
theorem foldl_put_getElem? (distinct : dataColumns.Nodup) {cells : List (String × Cell)}
    (names : (cells.map Prod.fst).Nodup) {out : List (Option Cell)}
    (length : out.length = dataColumns.length) {i : Nat} {c : String}
    (position : dataColumns[i]? = some c) :
    (cells.foldl (fun out pair => (new table dataColumns emit).put out pair.1 pair.2) out)[i]? =
      match cells.lookup c with
      | some cell => some (some cell)
      | none => out[i]? := by
  induction cells generalizing out with
  | nil => rfl
  | cons pair cells ih =>
      obtain ⟨column, cell⟩ := pair
      simp only [List.map_cons, List.nodup_cons] at names
      rw [List.foldl_cons, ih names.2 (by simpa using length),
        put_getElem? distinct length column cell position, List.lookup_cons]
      by_cases same : c = column
      · subst same
        have absent : cells.lookup c = none := by
          rw [List.lookup_eq_none_iff]
          rintro ⟨a, b⟩ member
          simp only [bne_iff_ne, ne_eq]
          rintro rfl
          exact names.1 (List.mem_map_of_mem member)
        simp [absent]
      · have other : (c == column) = false := by simpa using same
        simp only [other, if_neg same]

/-- Writing the cells of distinct columns into an empty row gives, at every
output column, the cell of that column. -/
theorem foldl_put_replicate (distinct : dataColumns.Nodup) {cells : List (String × Cell)}
    (names : (cells.map Prod.fst).Nodup) :
    cells.foldl (fun out pair => (new table dataColumns emit).put out pair.1 pair.2)
      (.replicate dataColumns.length none) =
        dataColumns.map fun c => cells.lookup c := by
  have lengths (out : List (Option Cell)) :
      (cells.foldl (fun out pair => (new table dataColumns emit).put out pair.1 pair.2)
        out).length = out.length := by
    clear names
    induction cells generalizing out with
    | nil => rfl
    | cons pair cells ih => rw [List.foldl_cons, ih, put_length]
  apply List.ext_getElem?
  intro i
  cases position : dataColumns[i]? with
  | none =>
      have bound := List.getElem?_eq_none_iff.mp position
      rw [List.getElem?_eq_none (by rw [lengths]; simpa using bound),
        List.getElem?_eq_none (by simpa using bound)]
  | some c =>
      have bound := (List.getElem?_eq_some_iff.mp position).1
      rw [foldl_put_getElem? distinct names (by simp) position, List.getElem?_map, position]
      cases carried : cells.lookup c with
      | none => simp [bound, carried]
      | some cell => simp [carried]

/-- With no index missing, the loop writes every value at its column. -/
theorem alignedFrom_nil (self : RowConverter) (idx : Nat) (cols : List String)
    (vals : List Cell) (out : List (Option Cell)) :
    self.alignedFrom idx cols vals [] out =
      (cols.zip vals).foldl (fun out pair => self.put out pair.1 pair.2) out := by
  induction cols generalizing idx vals out with
  | nil => rfl
  | cons col cols ih =>
      cases vals with
      | nil => rfl
      | cons cell vals => exact ih (idx + 1) vals _

theorem map_fst_zip_nodup {names : List String} (distinct : names.Nodup) (row : List Cell) :
    ((names.zip row).map Prod.fst).Nodup := by
  have prefixed : ((names.zip row).map Prod.fst) <+: names := by
    clear distinct
    induction names generalizing row with
    | nil => simp
    | cons name names ih =>
        cases row with
        | nil => simp
        | cons cell row => simpa using ih row
  exact distinct.sublist prefixed.sublist

/-- A complete image is aligned by column name. -/
theorem aligned_full (distinct : dataColumns.Nodup) {schema : ReplicatedTableSchema}
    (columns : schema.columnSchemas.Nodup) (row : List Cell) :
    (new table dataColumns emit).aligned schema row [] =
      dataColumns.map fun c => (schema.columnSchemas.zip row).lookup c := by
  unfold aligned
  rw [alignedFrom_nil]
  exact foldl_put_replicate distinct (map_fst_zip_nodup columns row)

/-- A key image is aligned by identity-column name. -/
theorem alignedOld_key (distinct : dataColumns.Nodup) {schema : ReplicatedTableSchema}
    (columns : schema.identityColumnSchemas.Nodup) (row : List Cell) :
    (new table dataColumns emit).alignedOld schema (.key row) =
      dataColumns.map fun c => (schema.identityColumnSchemas.zip row).lookup c :=
  foldl_put_replicate distinct (map_fst_zip_nodup columns row)

end Alignment

end RowConverter

/-! ## Fan-out -/

/-- One etl write; it stands for the shared ack the write's units point to. -/
abbrev WriteId := Nat

/-- A shared ack and the subscriber slice a unit belongs to. -/
abbrev SourceAckHandle := WriteId × SourceId

/-- One destination write destined for a single subscriber. -/
structure WriteUnit (Row : Type) where
  rows : List Row
  ack : SourceAckHandle
  deriving DecidableEq

/-- The subscribers a write has rows for, as `write_events` and
`write_table_rows` select them. -/
def perSub {Row : Type} (subscribers : List SourceId) (rows : SourceId → List Row) :
    List (SourceId × List Row) :=
  (subscribers.map fun id => (id, rows id)).filter fun sub => !sub.2.isEmpty

/-- Builds the shared ack over exactly the given subscribers, and the units to
send to them one after the other. -/
def fanOut {Row : Type} (write : WriteId) (perSub : List (SourceId × List Row)) :
    (SharedAck WriteId × Option WriteId) × List (SourceId × WriteUnit Row) :=
  (SharedAck.new write (perSub.map Prod.fst).toFinset,
    perSub.map fun sub => (sub.1, ⟨sub.2, (write, sub.1)⟩))

end StreamlingPlugins.PostgresCdc
