import StreamlingPlugins.ZamaDecrypt.Decrypt

/-!
# Decrypting public handles

Handles that were made publicly decryptable are decrypted in calls of bounded size.  The
backend is a function from the handles of a call to their values or an error.  Metrics
and tracing are left out.
-/

namespace StreamlingPlugins.ZamaPublicDecrypt

open Arrow (Column TextBatch)
open Erc7984 (Alloy B256)
open ZamaDecrypt (ClearValue SdkError)

/-! ## The backend -/

inductive ErrorKind
  | invalidInput
  | sdk
  | other
  deriving DecidableEq

/-- An error of the client, with the text it displays. -/
structure ClientError where
  kind : ErrorKind
  sdkError : Option SdkError
  text : String
  deriving DecidableEq

/-- SDK codes that refuse the handle itself. -/
def refusalCodes : List String :=
  ["NOT_ENTITLED", "NO_CIPHERTEXT"]

def isRefusal (error : ClientError) : Bool :=
  match error.kind with
  | .invalidInput => true
  | .sdk => error.sdkError.any fun sdk => !sdk.retryable && refusalCodes.contains sdk.code
  | .other => false

abbrev ClearValues := Table B256 ClearValue

abbrev Backend := List B256 → Except ClientError ClearValues

/-- A row's amount, or why it has none. -/
abbrev Answer := Except String String

abbrev Answers := Table B256 Answer

def render (value : ClearValue) : Answer :=
  ZamaDecrypt.render value

def answer (values : ClearValues) (handle : B256) : Answer :=
  match values handle with
  | none => .error "relayer returned no result for handle"
  | some value => render value

/-! ## Chunks -/

def maxRequestBits : Nat := 2048

/-- The bits encrypted under a handle, by the type in byte 30 of its bytes; an unknown
type counts as the widest. -/
def encryptionBits (handle : B256) : Nat :=
  match handle.toNat / 256 % 256 with
  | 0 => 2
  | 2 => 8
  | 3 => 16
  | 4 => 32
  | 5 => 64
  | 6 => 128
  | 7 => 160
  | _ => 256

/-- One more handle: it joins the last chunk if that stays within the bits of a request. -/
def pushHandle (cut : List (List B256) × Nat) (handle : B256) : List (List B256) × Nat :=
  let cost := encryptionBits handle
  match cut.1.getLast? with
  | some chunk =>
    if cut.2 + cost ≤ maxRequestBits then
      (cut.1.dropLast ++ [chunk ++ [handle]], cut.2 + cost)
    else (cut.1 ++ [[handle]], cost)
  | none => (cut.1 ++ [[handle]], cost)

def chunkByBits (handles : List B256) : List (List B256) :=
  (handles.foldl pushHandle ([], 0)).1

/-! ## Decrypting -/

/-- The handles of a chunk one by one. -/
def decryptEach (decrypt : Backend) : Answers → List B256 → Except ClientError Answers
  | answers, [] => .ok answers
  | answers, handle :: handles =>
    match decrypt [handle] with
    | .ok values =>
      decryptEach decrypt (Change.apply answers ⟨handle, some (answer values handle)⟩) handles
    | .error e =>
      if isRefusal e then
        decryptEach decrypt (Change.apply answers ⟨handle, some (.error e.text)⟩) handles
      else .error e

/-- On a refusal the handles are asked one by one, to pin the error to its row. -/
def decryptChunk (decrypt : Backend) (handles : List B256) : Except ClientError Answers :=
  match decrypt handles with
  | .ok values => .ok fun handle => if handle ∈ handles then some (answer values handle) else none
  | .error e =>
    if isRefusal e = false then .error e
    else
      match handles with
      | [handle] => .ok (Change.apply (fun _ => none) ⟨handle, some (.error e.text)⟩)
      | handles => decryptEach decrypt (fun _ => none) handles

/-- The chunks in order, one request each; later answers replace earlier ones. -/
def decryptChunks (decrypt : Backend) : Answers → List (List B256) → Except ClientError Answers
  | answers, [] => .ok answers
  | answers, chunk :: chunks =>
    match decryptChunk decrypt chunk with
    | .error e => .error e
    | .ok more => decryptChunks decrypt (fun handle => (more handle).or (answers handle)) chunks

def decryptAll (decrypt : Backend) (handles : List B256) : Except ClientError Answers :=
  decryptChunks decrypt (fun _ => none) (chunkByBits handles)

/-! ## Batches -/

def pluginName : String := "zama_public_decrypt"

/-- A null cell, a handle, or why the text is none. -/
abbrev Row := Option (Except String B256)

def readHandle (alloy : Alloy) (text : String) : Except String B256 :=
  match Erc7984.parseWord alloy text with
  | some handle => .ok handle
  | none => .error ("invalid handle '" ++ text ++ "'")

def readHandles (alloy : Alloy) (batch : TextBatch) (name : String) :
    Except PluginError (List Row) :=
  (Arrow.textColumn batch name pluginName).map fun column =>
    column.map fun cell => cell.map (readHandle alloy)

/-- `Vec::dedup`: drops equal neighbours. -/
def dedup : List B256 → List B256
  | a :: b :: rest => if a = b then dedup (b :: rest) else a :: dedup (b :: rest)
  | handles => handles

def uniqueHandles (rows : List Row) : List B256 :=
  dedup ((rows.filterMap fun row => row.bind Except.toOption).mergeSort fun a b => a ≤ b)

/-- The two cells of a row; `none` where indexing the answers panics. -/
def rowCells (answers : Answers) : Row → Option (Option String × Option String)
  | none => some (none, none)
  | some (.error e) => some (none, some e)
  | some (.ok handle) =>
    (answers handle).map fun
      | .ok amount => (some amount, none)
      | .error e => (none, some e)

/-- The batch with the two columns of the decryption; `none` where it panics. -/
def processBatch (alloy : Alloy) (decrypt : Backend) (handleColumn : String)
    (batch : TextBatch) : Except PluginError (Option TextBatch) := do
  let rows ← readHandles alloy batch handleColumn
  let answers ← (decryptAll decrypt (uniqueHandles rows)).mapError fun e =>
    .execution (pluginName ++ ": public decrypt failed: " ++ e.text)
  pure ((rows.mapM (rowCells answers)).map fun cells =>
    { batch with columns := batch.columns ++ [("zama_public_amount", .text (cells.map Prod.fst)),
        ("zama_public_error", .text (cells.map Prod.snd))] })

end StreamlingPlugins.ZamaPublicDecrypt
