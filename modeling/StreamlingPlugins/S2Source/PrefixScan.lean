import StreamlingPlugins.S2Source.Convert

/-!
# The scan of a stream prefix

`refreshStreamsPage` fetches one page of the streams with a prefix, starts readers
for new ones, and after the last page stops the readers of streams that were not
listed.  What S2 and the state backend answer is part of a `Call`.
-/

namespace StreamlingPlugins.S2Source

inductive StartPosition
  | earliest | latest
  deriving DecidableEq

structure S2SourceConfig where
  streams : List String
  streamPrefix : String
  startPosition : StartPosition

/-! ## Listing -/

structure StreamInfo where
  name : String
  deletedAt : Option Nat
  deriving DecidableEq

structure ListStreamsInput where
  namePrefix : String
  limit : Nat
  startAfter : Option String
  deriving DecidableEq

structure Page where
  values : List StreamInfo
  hasMore : Bool
  deriving DecidableEq

def streamListPageLimit : Nat := 1000

/-- The stream's name starts like this. -/
def Matches (namePrefix name : String) : Prop :=
  namePrefix.toList <+: name.toList

instance (namePrefix name : String) : Decidable (Matches namePrefix name) :=
  inferInstanceAs (Decidable (_ <+: _))

/-- The streams that an input asks for. -/
def ListStreamsInput.select (input : ListStreamsInput) (streams : List StreamInfo) :
    List StreamInfo :=
  streams.filter fun info =>
    Matches input.namePrefix info.name ∧ ∀ after ∈ input.startAfter, after < info.name

/-- What S2 and the state backend hold and answer while a page is handled: the basin's
streams in name order, the ones being deleted included, of which a listing returns those
asked for, up to the end or not. -/
structure Call where
  streams : List StreamInfo
  ordered : streams.Pairwise fun a b => a.name < b.name
  listStreams : ListStreamsInput → Except String Page
  listed : ∀ input page, listStreams input = .ok page → page.values <+: input.select streams ∧
    (page.hasMore = false → page.values = input.select streams)
  getKv : String → Except String Unit
  checkTail : String → Except String Nat
  removeKv : String → Except String Unit

/-- A stream exists and is not being deleted. -/
def Call.Live (call : Call) (name : String) : Prop :=
  ⟨name, none⟩ ∈ call.streams

/-- A basin that lists all of its streams on one page. -/
def Call.onePage (streams : List StreamInfo)
    (ordered : streams.Pairwise fun a b => a.name < b.name) : Call where
  streams := streams
  ordered := ordered
  listStreams := fun input => .ok ⟨input.select streams, false⟩
  listed := by
    rintro input page ⟨⟩
    exact ⟨List.prefix_rfl, fun _ => rfl⟩
  getKv := fun _ => .ok ()
  checkTail := fun _ => .ok 0
  removeKv := fun _ => .ok ()

/-! ## Scans -/

structure PrefixScan where
  startAfter : Option String
  seen : Finset String
  deriving DecidableEq

def PrefixScan.default : PrefixScan :=
  ⟨none, ∅⟩

def PrefixScan.listInput (scan : PrefixScan) (namePrefix : String) : ListStreamsInput :=
  ⟨namePrefix, streamListPageLimit, scan.startAfter⟩

/-- Records a successfully processed page, and returns all names at the end of a scan. -/
def PrefixScan.recordPage (scan : PrefixScan) (names : List String)
    (nextStartAfter : Option String) : PrefixScan × Option (Finset String) :=
  let seen := scan.seen ∪ names.toFinset
  match nextStartAfter with
  | some startAfter => (⟨some startAfter, seen⟩, none)
  | none => (⟨none, ∅⟩, some seen)

/-! ## Readers -/

/-- The streams with a reader, the next position of each, and the persisted ones. -/
structure StreamReaders where
  tasks : Finset String
  positions : String → Option Nat
  checkpoints : String → Option Nat
  scan : PrefixScan

section

variable (config : S2SourceConfig) (call : Call)

def StreamReaders.start (readers : StreamReaders) (name : String) (nextSeqNum : Nat) :
    StreamReaders :=
  { readers with
    tasks := insert name readers.tasks
    positions := Function.update readers.positions name (some nextSeqNum) }

/-- Starts a reader for the stream unless one is already running. -/
def ensureStream (readers : StreamReaders) (name : String) :
    StreamReaders × Except PluginError Unit :=
  if name ∈ readers.tasks then (readers, .ok ())
  else
    match call.getKv name with
    | .error e => (readers, .error (.state e))
    | .ok () =>
      match readers.checkpoints name, config.startPosition with
      | some seqNum, _ => (readers.start name seqNum, .ok ())
      | none, .earliest => (readers.start name 0, .ok ())
      | none, .latest =>
        match call.checkTail name with
        | .error e => (readers, .error (.internal
            ("s2_source: failed to check tail of stream '" ++ name ++ "': " ++ e)))
        | .ok seqNum => (readers.start name seqNum, .ok ())

/-- Ensures the streams in order, up to the first failure. -/
def ensureStreams (readers : StreamReaders) : List String → StreamReaders × Except PluginError Unit
  | [] => (readers, .ok ())
  | name :: names =>
    match ensureStream config call readers name with
    | (readers, .ok ()) => ensureStreams readers names
    | (readers, .error e) => (readers, .error e)

/-- Stops readers that were not listed, other than those of configured streams, and
drops their positions and checkpoints. -/
def pruneUnlistedStreams (readers : StreamReaders) (listed : Finset String) : StreamReaders :=
  let removed := readers.tasks.filter fun name => name ∉ listed ∧ name ∉ config.streams
  { readers with
    tasks := readers.tasks \ removed
    positions := fun name => if name ∈ removed then none else readers.positions name
    checkpoints := fun name =>
      if name ∈ removed ∧ call.removeKv name = .ok () then none else readers.checkpoints name }

/-- Where the next page starts: after the last item, also one being deleted. -/
def nextStartAfter (page : Page) : Except PluginError (Option String) :=
  if page.hasMore then
    match page.values.getLast? with
    | some info => .ok (some info.name)
    | none => .error (.internal
        "s2_source: stream listing returned an empty page with has_more=true")
  else .ok none

/-- How a page was handled; a completed scan has listed these streams. -/
inductive Refreshed
  | failed (error : PluginError)
  | page
  | completed (listed : Finset String)
  deriving DecidableEq

/-- Fetches one page, ensures its streams, and prunes at the end of the scan. -/
def refreshStreamsPage (readers : StreamReaders) : StreamReaders × Refreshed :=
  match call.listStreams (readers.scan.listInput config.streamPrefix) with
  | .error e => (readers, .failed (.internal ("s2_source: failed to list streams page: " ++ e)))
  | .ok page =>
    match nextStartAfter page with
    | .error e => (readers, .failed e)
    | .ok next =>
      let names := (page.values.filter fun info => info.deletedAt = none).map StreamInfo.name
      match ensureStreams config call readers names with
      | (readers, .error e) => (readers, .failed e)
      | (readers, .ok ()) =>
        match readers.scan.recordPage names next with
        | (scan, none) => ({ readers with scan := scan }, .page)
        | (scan, some listed) =>
          (pruneUnlistedStreams config call { readers with scan := scan } listed, .completed listed)

end

/-! ## Between pages -/

/-- Advances the positions of streams that have a reader. -/
def recordEmitted (readers : StreamReaders) (updates : List (String × Nat)) : StreamReaders :=
  { readers with
    positions := fun name => (readers.positions name).map fun position =>
      (updates.lookup name).elim position (max position) }

/-- The state backend stores a position. -/
def putCheckpoint (readers : StreamReaders) (name : String) (nextSeqNum : Nat) : StreamReaders :=
  { readers with checkpoints := Function.update readers.checkpoints name (some nextSeqNum) }

/-- What happens between the pages of a scan. -/
inductive Meanwhile : StreamReaders → StreamReaders → Prop
  | recordEmitted (readers : StreamReaders) (updates : List (String × Nat)) :
    Meanwhile readers (recordEmitted readers updates)
  | putCheckpoint (readers : StreamReaders) (name : String) (nextSeqNum : Nat) :
    Meanwhile readers (putCheckpoint readers name nextSeqNum)

/-- The readers before the first page: those of the configured streams, and any
checkpoints. -/
def Started (config : S2SourceConfig) (readers : StreamReaders) : Prop :=
  ∃ call checkpoints, ensureStreams config call ⟨∅, fun _ => none, checkpoints, .default⟩
    config.streams = (readers, .ok ())

end StreamlingPlugins.S2Source
