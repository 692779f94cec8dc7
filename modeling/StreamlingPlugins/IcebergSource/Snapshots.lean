import StreamlingPlugins.IcebergSink.Schema

/-!
# Snapshot ancestry

`snapshotsSince` walks a table's snapshots from the current one back to the last
that was processed, and `classify` says what is done with each.
-/

namespace StreamlingPlugins.IcebergSource

open IcebergSink (icebergError)

inductive Operation
  | append | replace | overwrite | delete
  deriving DecidableEq

def Operation.asStr : Operation → String
  | append => "append"
  | replace => "replace"
  | overwrite => "overwrite"
  | delete => "delete"

structure Snapshot where
  snapshotId : Int
  parentSnapshotId : Option Int
  timestampMs : Int
  operation : Operation
  deriving DecidableEq

/-- The snapshots in a table's metadata and the current one among them. -/
structure TableMetadata where
  snapshots : List Snapshot
  currentSnapshotId : Option Int
  deriving DecidableEq

namespace TableMetadata

variable (metadata : TableMetadata)

def snapshotById (id : Int) : Option Snapshot :=
  metadata.snapshots.find? fun snapshot => snapshot.snapshotId = id

def currentSnapshot : Option Snapshot :=
  metadata.currentSnapshotId.bind metadata.snapshotById

end TableMetadata

/-! ## Errors -/

/-- The error for a snapshot the source needs that is gone from table metadata. -/
def expired (snapshotId : Int) : PluginError :=
  .execution ("iceberg_source: snapshot " ++ toString snapshotId ++ " recorded in the source " ++
    "state no longer exists in table metadata (expired); reset the source state to re-read the " ++
    "table, or raise the table's snapshot retention (history.expire.max-snapshot-age-ms, " ++
    "history.expire.min-snapshots-to-keep) above the source's maximum downtime")

def brokenChain (metadata : TableMetadata) (last : Option Int) (current missing : Int) :
    PluginError :=
  match last.filter fun last => (metadata.snapshotById last).isNone with
  | some last => expired last
  | none => .execution ("iceberg_source: snapshot " ++ toString missing ++ ", an ancestor of " ++
      "current snapshot " ++ toString current ++ ", expired before the source read it; reset " ++
      "the source state or raise the table's snapshot retention (history.expire.*)")

def notAnAncestor (metadata : TableMetadata) (last : Int) (current : Option Int) : PluginError :=
  match metadata.snapshotById last with
  | none => expired last
  | some _ => .execution ("iceberg_source: last processed snapshot " ++ toString last ++
      " is not an ancestor of the current snapshot " ++ (current.map toString).getD "none" ++
      " (was the table rolled back or its branch replaced?); reset the source state to re-read " ++
      "the table")

/-! ## Snapshots to process -/

/-- The walk from `snapshot` to its ancestors, up to `last`; `chain` holds those it
met, the last one first.  `none` when `fuel` runs out. -/
def walk (metadata : TableMetadata) (last : Option Int) (current : Int) :
    Nat → Snapshot → List Snapshot → Option (Except PluginError (List Snapshot))
  | 0, _, _ => none
  | fuel + 1, snapshot, chain =>
    if some snapshot.snapshotId = last then some (.ok chain)
    else
      match snapshot.parentSnapshotId with
      | some parent =>
        if some parent = last then some (.ok (snapshot :: chain))
        else
          match metadata.snapshotById parent with
          | some next => walk metadata last current fuel next (snapshot :: chain)
          | none => some (.error (brokenChain metadata last current parent))
      | none =>
        match last with
        | none => some (.ok (snapshot :: chain))
        | some last => some (.error (notAnAncestor metadata last (some current)))

/-- Snapshots committed after `last` up to the current one, oldest first. -/
def snapshotsSince (metadata : TableMetadata) (last : Option Int) :
    Option (Except PluginError (List Snapshot)) :=
  match metadata.currentSnapshot with
  | some current =>
    walk metadata last current.snapshotId metadata.snapshots.length current []
  | none =>
    match last with
    | none => some (.ok [])
    | some last => some (.error (notAnAncestor metadata last none))

/-! ## What to do with a snapshot -/

inductive OnNonAppendSnapshot
  | error | skip
  deriving DecidableEq

inductive SnapshotAction
  | read | skip
  deriving DecidableEq

def classify (snapshot : Snapshot) (policy : OnNonAppendSnapshot) :
    Except PluginError SnapshotAction :=
  match snapshot.operation, policy with
  | .append, _ => .ok .read
  | .replace, _ => .ok .skip
  | .overwrite, .skip | .delete, .skip => .ok .skip
  | .overwrite, .error | .delete, .error =>
    .error (.execution ("iceberg_source: snapshot " ++ toString snapshot.snapshotId ++ " is a '" ++
      snapshot.operation.asStr ++ "' snapshot; incremental reads support append snapshots only. " ++
      "Set on_non_append_snapshot=skip to pass over it (its added rows and deletes are not " ++
      "emitted)"))

end StreamlingPlugins.IcebergSource
