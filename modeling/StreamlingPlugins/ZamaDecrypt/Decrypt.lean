import StreamlingPlugins.Changelog
import StreamlingPlugins.Erc7984.Decode
import StreamlingPlugins.Grouping

/-!
# Decrypting transfers

`decrypt` turns decoded transfers into cleartext amounts on behalf of the parties
that delegated.  The backend and the clock are parameters, and so is the order in
which a hash map or concurrent lookups are gone through.  Every answer that is
used, from the cache or from the backend, goes to a log; tracing is left out.
-/

namespace StreamlingPlugins.ZamaDecrypt

open Erc7984 (Address B256)

structure DecodedTransfer where
  token : Address
  fromAddress : Address
  toAddress : Address
  handle : B256
  deriving DecidableEq

structure Decrypted where
  amount : Option String
  delegator : Option Address
  error : Option String
  deriving DecidableEq

/-- `Decrypted::default`. -/
def Decrypted.default : Decrypted :=
  ⟨none, none, none⟩

/-- A refusal for good, or a failure that may clear on a retry. -/
inductive BackendError
  | rejected (message : String)
  | transient (message : String)
  deriving DecidableEq

/-! ## The backend -/

structure SdkError where
  code : String
  message : String
  retryable : Bool
  deriving DecidableEq

/-- SDK codes that refuse the request itself. -/
def refusalCodes : List String :=
  ["NOT_ENTITLED", "NO_CIPHERTEXT", "DELEGATION_NOT_FOUND", "DELEGATION_EXPIRED"]

def isRefusal (error : SdkError) : Bool :=
  !error.retryable && refusalCodes.contains error.code

inductive ClearValue
  | bigInt (value : Int)
  | number (value : Int)
  | bool (value : Bool)
  | string (value : String)
  | undefined
  deriving DecidableEq

def render : ClearValue → Except String String
  | .bigInt value => .ok (toString value)
  | .number value => .ok (toString value)
  | .bool value => .ok (toString value.toNat)
  | .string value => .ok value
  | .undefined => .error "relayer returned an undefined value"

structure DelegationQuery where
  contractAddress : Address
  delegatorAddress : Address
  delegateAddress : Address

structure DelegationStatus where
  isActive : Bool
  expiryTimestamp : Nat
  deriving DecidableEq

structure EncryptedInput where
  encryptedValue : B256
  contractAddress : Address
  deriving DecidableEq

structure BatchItem where
  encryptedValue : B256
  contractAddress : Address
  result : Except SdkError ClearValue

/-- The handle and token an item answers for. -/
def BatchItem.input (item : BatchItem) : EncryptedInput :=
  ⟨item.encryptedValue, item.contractAddress⟩

/-- A token and a party of a transfer. -/
abbrev Pair := Address × Address

/-- An answer that `decrypt` used. -/
inductive Asked
  | cached (pair : Pair) (active : Bool)
  | status (pair : Pair) (answer : Except BackendError DelegationStatus)
  | batch (delegator : Address) (inputs : List EncryptedInput)
    (answer : Except BackendError (List BatchItem))

/-- The backend answers knowing what was asked before. -/
structure Backend where
  delegationStatus : List Asked → DelegationQuery → Except BackendError DelegationStatus
  batchDecrypt : List Asked → List EncryptedInput → Address → Option Nat →
    Except BackendError (List BatchItem)

/-- At most one item per requested handle and token. -/
def Backend.AnswersOnce (backend : Backend) : Prop :=
  ∀ log inputs delegator maxConcurrency items,
    backend.batchDecrypt log inputs delegator maxConcurrency = .ok items →
      ∀ input ∈ inputs, (items.filter fun item => item.input = input).length ≤ 1

/-! ## The delegation cache -/

structure Delegation where
  active : Bool
  checkedAt : Nat
  expiryTimestamp : Nat
  deriving DecidableEq

/-- `ACTIVE_RECHECK`, in nanoseconds. -/
def activeRecheck : Nat := 5 * 60 * 1000000000

/-- `INACTIVE_RECHECK`, in nanoseconds. -/
def inactiveRecheck : Nat := 60 * 1000000000

/-- The clocks of one round of lookups: nanoseconds on the monotonic one, and the
seconds read from the system's when an entry is checked, if it can be read. -/
structure Clock where
  now : Nat
  system : Pair → Option Nat

/-- A clock that cannot be read counts as expired. -/
def expired (expiryTimestamp : Nat) : Option Nat → Bool
  | some now => expiryTimestamp ≤ now
  | none => true

def Delegation.isFresh (delegation : Delegation) (now : Nat) (system : Option Nat) : Bool :=
  let age := now - delegation.checkedAt
  if delegation.active then age < activeRecheck && !expired delegation.expiryTimestamp system
  else age < inactiveRecheck

abbrev Cache := Table Pair Delegation

/-- `cache.retain`. -/
def Cache.retainFresh (cache : Cache) (clock : Clock) : Cache := fun pair =>
  (cache pair).filter fun delegation => delegation.isFresh clock.now (clock.system pair)

/-- Whether each party delegated, or why its lookup was refused. -/
abbrev DelegationAnswers := Table Pair (Except String Bool)

/-! ## Lookups -/

/-- What is known when a round of lookups goes through its pairs. -/
structure Consulted where
  answers : DelegationAnswers
  pending : List Pair
  log : List Asked

def consult (cache : Cache) (known : Consulted) (pair : Pair) : Consulted :=
  if pair.2 = 0 ∨ (known.answers pair).isSome then known
  else
    match cache pair with
    | some cached =>
      { known with
        answers := Change.apply known.answers ⟨pair, some (.ok cached.active)⟩
        log := known.log ++ [.cached pair cached.active] }
    | none => { known with pending := known.pending.insert pair }

abbrev StatusAnswer := Pair × Except BackendError DelegationStatus

/-- The lookups of a round, in the order in which they are answered. -/
def lookups (backend : Backend) (delegate : Address) :
    List Asked → List Pair → List StatusAnswer
  | _, [] => []
  | log, pair :: pairs =>
    let answer := backend.delegationStatus log ⟨pair.1, pair.2, delegate⟩
    (pair, answer) :: lookups backend delegate (log ++ [.status pair answer]) pairs

def record (now : Nat) : Cache → DelegationAnswers → List StatusAnswer →
    Cache × Except BackendError DelegationAnswers
  | cache, answers, [] => (cache, .ok answers)
  | cache, answers, (pair, .ok status) :: results =>
    record now
      (Change.apply cache ⟨pair, some ⟨status.isActive, now, status.expiryTimestamp⟩⟩)
      (Change.apply answers ⟨pair, some (.ok status.isActive)⟩) results
  | cache, answers, (pair, .error (.rejected message)) :: results =>
    record now cache (Change.apply answers ⟨pair, some (.error message)⟩) results
  | cache, _, (_, .error e) :: _ => (cache, .error e)

/-- How far a step came: the cache, the log, and its result. -/
abbrev Progress (α : Type) := Cache × List Asked × Except BackendError α

def resolve (backend : Backend) (delegate : Address) (clock : Clock)
    (order : IterationOrder Pair) (cache : Cache) (log : List Asked) (pairs : List Pair)
    (answers : DelegationAnswers) : Progress DelegationAnswers :=
  let cache := cache.retainFresh clock
  let known := pairs.foldl (consult cache) ⟨answers, [], log⟩
  let results := lookups backend delegate known.log (order.arrange known.pending)
  let (cache, outcome) := record clock.now cache known.answers results
  (cache, known.log ++ results.map fun (pair, answer) => .status pair answer, outcome)

/-- A row of the batch with its transfer. -/
abbrev Entry := Nat × DecodedTransfer

def Entry.receiver (entry : Entry) : Pair := (entry.2.token, entry.2.toAddress)

def Entry.sender (entry : Entry) : Pair := (entry.2.token, entry.2.fromAddress)

def Entry.input (entry : Entry) : EncryptedInput := ⟨entry.2.handle, entry.2.token⟩

/-- Whether the receiver's answer leaves the sender to ask. -/
def asksSender (answers : DelegationAnswers) (entry : Entry) : Bool :=
  match answers (Entry.receiver entry) with
  | some (.ok true) | some (.error _) => false
  | _ => true

/-- What the hash maps and the concurrent lookups leave open. -/
structure Orders where
  receivers : IterationOrder Pair
  senders : IterationOrder Pair
  groups : IterationOrder (Address × List Entry)

/-- What a call of `decrypt` runs in. -/
structure Setting where
  backend : Backend
  delegate : Address
  maxConcurrency : Option Nat
  receiverClock : Clock
  senderClock : Clock
  orders : Orders

variable (setting : Setting)

def delegationAnswers (cache : Cache) (transfers : List Entry) : Progress DelegationAnswers :=
  match resolve setting.backend setting.delegate setting.receiverClock setting.orders.receivers
      cache [] (transfers.map Entry.receiver) (fun _ => none) with
  | (cache, log, .error e) => (cache, log, .error e)
  | (cache, log, .ok answers) =>
    let senders := (transfers.filter (asksSender answers)).map Entry.sender
    resolve setting.backend setting.delegate setting.senderClock setting.orders.senders cache log
      senders answers

/-! ## Groups -/

def pickParty (answers : DelegationAnswers) (token : Address) :
    List Address → Except String (Option Address)
  | [] => .ok none
  | party :: parties =>
    if party = 0 then pickParty answers token parties
    else
      match answers (token, party) with
      | some (.ok true) => .ok (some party)
      | some (.error message) => .error message
      | _ => pickParty answers token parties

def pickDelegator (transfer : DecodedTransfer) (answers : DelegationAnswers) :
    Except String (Option Address) :=
  pickParty answers transfer.token [transfer.toAddress, transfer.fromAddress]

abbrev Groups := List (Address × List Entry)

def noDelegation : String := "no active delegation from either party"

def assign (answers : DelegationAnswers) (sorted : Groups × List Decrypted) (entry : Entry) :
    Groups × List Decrypted :=
  let (groups, output) := sorted
  match pickDelegator entry.2 answers with
  | .ok (some delegator) => (pushGroup delegator entry groups, output)
  | .ok none => (groups, output.modify entry.1 fun cell => { cell with error := noDelegation })
  | .error message =>
    (groups, output.modify entry.1 fun cell =>
      { cell with error := "delegation check failed: " ++ message })

/-- The inputs of a group, each once. -/
def inputsOf : List EncryptedInput → List Entry → List EncryptedInput
  | _, [] => []
  | seen, entry :: entries =>
    if Entry.input entry ∈ seen then inputsOf seen entries
    else Entry.input entry :: inputsOf (Entry.input entry :: seen) entries

def forget (cache : Cache) (token delegator : Address) : Cache :=
  Change.apply cache ⟨(token, delegator), none⟩

/-- `items` by handle and token; the last of several stays. -/
def byInput (items : List BatchItem) : Table EncryptedInput (Except SdkError ClearValue) :=
  Change.replay (fun _ => none) (items.map fun item => ⟨item.input, some item.result⟩)

def noResult : String := "relayer returned no result for handle"

def fillRows (delegator : Address)
    (answers : Table EncryptedInput (Except SdkError ClearValue)) :
    Cache → List Decrypted → List Entry → Cache × Except BackendError (List Decrypted)
  | cache, output, [] => (cache, .ok output)
  | cache, output, entry :: entries =>
    match answers (Entry.input entry) with
    | some (.ok value) =>
      let fill (cell : Decrypted) : Decrypted :=
        match render value with
        | .ok amount => { cell with amount := amount }
        | .error e => { cell with error := e }
      fillRows delegator answers cache (output.modify entry.1 fill) entries
    | some (.error e) =>
      if !isRefusal e then
        (cache, .error (.transient (e.code ++ ": " ++ e.message ++ " (retryable: " ++
          toString e.retryable ++ ")")))
      else
        let fill (cell : Decrypted) := { cell with error := e.code ++ ": " ++ e.message }
        fillRows delegator answers (forget cache entry.2.token delegator)
          (output.modify entry.1 fill) entries
    | none =>
      let fill (cell : Decrypted) := { cell with error := noResult }
      fillRows delegator answers cache (output.modify entry.1 fill) entries

/-- Every entry changes its row's cell. -/
def modifyRows (change : Entry → Decrypted → Decrypted) (entries : List Entry)
    (output : List Decrypted) : List Decrypted :=
  entries.foldl (fun output entry => output.modify entry.1 (change entry)) output

def decryptGroup (cache : Cache) (log : List Asked) (output : List Decrypted)
    (delegator : Address) (entries : List Entry) : Progress (List Decrypted) :=
  let output := modifyRows (fun _ cell => { cell with delegator := delegator }) entries output
  let inputs := inputsOf [] entries
  let answer := setting.backend.batchDecrypt log inputs delegator setting.maxConcurrency
  let log := log ++ [.batch delegator inputs answer]
  match answer with
  | .ok items =>
    let (cache, outcome) := fillRows delegator (byInput items) cache output entries
    (cache, log, outcome)
  | .error (.rejected message) =>
    (entries.foldl (fun cache entry => forget cache entry.2.token delegator) cache, log,
      .ok (modifyRows (fun _ cell => { cell with error := "batch decrypt failed: " ++ message })
        entries output))
  | .error e => (cache, log, .error e)

def decryptGroups : Cache → List Asked → List Decrypted → Groups → Progress (List Decrypted)
  | cache, log, output, [] => (cache, log, .ok output)
  | cache, log, output, (delegator, entries) :: groups =>
    match decryptGroup setting cache log output delegator entries with
    | (cache, log, .ok output) => decryptGroups cache log output groups
    | (cache, log, .error e) => (cache, log, .error e)

/-- The rows that are transfers. -/
def transfersOf (rows : List (Option DecodedTransfer)) : List Entry :=
  rows.zipIdx.filterMap fun (transfer, row) => transfer.map fun transfer => (row, transfer)

def decrypt (cache : Cache) (rows : List (Option DecodedTransfer)) : Progress (List Decrypted) :=
  let transfers := transfersOf rows
  match delegationAnswers setting cache transfers with
  | (cache, log, .error e) => (cache, log, .error e)
  | (cache, log, .ok answers) =>
    let (groups, output) :=
      transfers.foldl (assign answers) ([], List.replicate rows.length .default)
    decryptGroups setting cache log output (setting.orders.groups.arrange groups)

end StreamlingPlugins.ZamaDecrypt
